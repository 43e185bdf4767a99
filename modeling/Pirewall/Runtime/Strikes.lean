/-
# Pirewall.Runtime.Strikes -- one burst, one strike

A strike makes the next decision on a device harsher. Within one call of `evaluate` a device should get at
most one: the windows of one burst are one decision. Two branches break that. A device that was touched and
that the per-account detector names is taken to the engine twice, the second time with the strike of the
first; and in ASSISTED one bundle may be two rules (`HoldsAndLimits`), each a strike.

`OneStrike` is the property of a call and `OneBurst` the condition on the bundles it takes to the engine, each
on the state before its pass: no earlier bundle of the device had new D1 evidence, the device has no strike of
this call, and not both decisions of the bundle become rules. The two are equivalent. A pass writes down what
it saw, what it decided and the strikes it left (`Pass`), and passes are never taken back, so what holds of
those of a whole call held of those of every part of it; that is the way from the property to the condition.
The way back is the invariant `Sound` of the loops.
-/
import Pirewall.Runtime.Submission

namespace Pirewall

open Lib

/-! ## Passes -/

/-- The pass sees D1 evidence the device was not decided on. -/
def Pass.seesNewD1 (p : Pass) : Bool := p.classified.any fun item => item.d1?.isSome

/-- What the passes of one call may do to a device: one of them sees new D1 evidence, none leaves it more than
one strike up, and none decides anything on more strikes than the device had when the call began. -/
structure OneEach (start : PolicyEngine) (passes : List Pass) : Prop where
  onePass : ∀ mac, (passes.filter fun p => decide (p.mac = mac) && p.seesNewD1).length ≤ 1
  oneStrike : ∀ p ∈ passes, p.strikes ≤ start.strikes p.mac.text + 1
  unescalated : ∀ p ∈ passes, p.decisions ≠ [] → p.history.d1Strikes ≤ start.strikes p.mac.text

namespace OneEach

variable {start : PolicyEngine} {passes : List Pass} {p : Pass}

/-- What one more pass must be. -/
theorem snoc_iff : OneEach start (passes ++ [p]) ↔ OneEach start passes ∧
    (p.seesNewD1 = true → ∀ q ∈ passes, q.mac = p.mac → q.seesNewD1 = false) ∧
    p.strikes ≤ start.strikes p.mac.text + 1 ∧
    (p.decisions ≠ [] → p.history.d1Strikes ≤ start.strikes p.mac.text) := by
  constructor
  · intro h
    refine ⟨⟨fun mac => ?_, fun q hq => h.oneStrike q (List.mem_append_left _ hq),
      fun q hq => h.unescalated q (List.mem_append_left _ hq)⟩, fun hsees q hq hmac => ?_,
      h.oneStrike p (List.mem_append_right _ List.mem_cons_self),
      h.unescalated p (List.mem_append_right _ List.mem_cons_self)⟩
    · have hone := h.onePass mac
      rw [List.filter_append, List.length_append] at hone
      exact le_trans (Nat.le_add_right _ _) hone
    · -- the two passes would both be counted
      rw [← Bool.not_eq_true]
      intro hboth
      have hone := h.onePass p.mac
      have hlast : [p].filter (fun p' => decide (p'.mac = p.mac) && p'.seesNewD1) = [p] := by
        rw [List.filter_eq_self]
        intro p' hp'
        rw [List.mem_singleton.mp hp', hsees, decide_eq_true rfl]
        rfl
      have hfirst : 0 < (passes.filter fun p' => decide (p'.mac = p.mac) && p'.seesNewD1).length := by
        refine List.length_pos_of_mem (List.mem_filter.mpr ⟨hq, ?_⟩)
        rw [hboth, decide_eq_true hmac]
        rfl
      rw [List.filter_append, List.length_append, hlast, List.length_singleton] at hone
      omega
  · rintro ⟨h, hsees, hstrikes, hunescalated⟩
    refine ⟨fun mac => ?_, fun q hq => ?_, fun q hq => ?_⟩
    · rw [List.filter_append, List.length_append]
      -- the new pass counts for one device at most, and then no earlier one does
      by_cases hcounts : p.mac = mac ∧ p.seesNewD1 = true
      · have hnone : passes.filter (fun q => decide (q.mac = mac) && q.seesNewD1) = [] := by
          refine List.filter_eq_nil_iff.mpr fun q hq hboth => ?_
          obtain ⟨hmac, hq'⟩ := Bool.and_eq_true_iff.mp hboth
          have hfree := hsees hcounts.2 q hq ((of_decide_eq_true hmac).trans hcounts.1.symm)
          rw [hfree] at hq'
          exact absurd hq' Bool.false_ne_true
        rw [hnone, List.length_nil, Nat.zero_add]
        exact List.length_filter_le _ _
      · have hnone : [p].filter (fun q => decide (q.mac = mac) && q.seesNewD1) = [] := by
          refine List.filter_eq_nil_iff.mpr fun q hq hboth => hcounts ?_
          obtain rfl := List.mem_singleton.mp hq
          obtain ⟨hmac, hq'⟩ := Bool.and_eq_true_iff.mp hboth
          exact ⟨of_decide_eq_true hmac, hq'⟩
        rw [hnone, List.length_nil, Nat.add_zero]
        exact h.onePass mac
    · rcases List.mem_append.mp hq with hq | hq
      · exact h.oneStrike q hq
      · rw [List.mem_singleton.mp hq]
        exact hstrikes
    · rcases List.mem_append.mp hq with hq | hq
      · exact h.unescalated q hq
      · rw [List.mem_singleton.mp hq]
        exact hunescalated

end OneEach

namespace Evaluation

/-- What must hold before a bundle of a device that is not protected is decided on.

`seen`: if something in it is D1 evidence the device was not decided on, no earlier pass of the call over the
device saw such. `settled`: if a row it matches does more than log, the device has no strike of this call.
`single`: it does not take the branch of two strikes, unless the engine made room for another device and forgot
strikes that this one had when the call began. -/
structure OneBurst (start : PolicyEngine) (c : Evaluation) (env : Env) (mac : Mac) (bundle : EvidenceBundle) :
    Prop where
  seen : (∃ item ∈ (c.pipeline.memoryOf bundle).fresh bundle, item.d1?.isSome = true) →
    ∀ p ∈ c.passes, p.mac = mac → p.seesNewD1 = false
  settled : (∃ action ∈ c.pipeline.actionsOn bundle, action ≠ .log) →
    c.pipeline.engine.strikes mac.text ≤ start.strikes mac.text
  single : c.pipeline.HoldsAndLimits env bundle →
    c.pipeline.engine.strikes mac.text < start.strikes mac.text

/-- The passes so far, against the engine the call started with, and the strikes the devices have now. -/
structure Sound (start : PolicyEngine) (c : Evaluation) : Prop where
  passes : OneEach start c.passes
  strikes : ∀ mac : Mac, c.pipeline.engine.strikes mac.text ≤ start.strikes mac.text + 1

theorem Sound.congr {start : PolicyEngine} {c c' : Evaluation} (h : c.Sound start)
    (hengine : c'.pipeline.engine = c.pipeline.engine) (hpasses : c'.passes = c.passes) : c'.Sound start := by
  refine ⟨?_, ?_⟩
  · rw [hpasses]
    exact h.passes
  · rw [hengine]
    exact h.strikes

section DecideOn

variable {start : PolicyEngine} {c : Evaluation} {env : Env} {mac : Mac} {bundle : EvidenceBundle}

/-- The pass `decideOn` makes. -/
def passOn (c : Evaluation) (env : Env) (mac : Mac) (bundle : EvidenceBundle) : Pass :=
  ⟨mac, bundle, c.pipeline.memoryOf bundle,
    c.pipeline.engine.classified (policyCall c.pipeline bundle env.now),
    (c.pipeline.engine.decide c.pipeline.isProtected bundle c.pipeline.manager.enforcementMode env.now).1,
    (c.pipeline.submitted env bundle).engine.strikes (historyKey bundle.target)⟩

theorem decideOn_passes (c : Evaluation) (env : Env) (mac : Mac) (bundle : EvidenceBundle) :
    (c.decideOn env mac bundle).passes = c.passes ++ [c.passOn env mac bundle] := rfl

theorem decideOn_pipeline (c : Evaluation) (env : Env) (mac : Mac) (bundle : EvidenceBundle) :
    (c.decideOn env mac bundle).pipeline = c.pipeline.submitted env bundle := rfl

theorem passOn_decisions (c : Evaluation) (env : Env) (mac : Mac) (bundle : EvidenceBundle) :
    (c.passOn env mac bundle).decisions =
      if PolicyEngine.quiet c.pipeline.isProtected bundle then []
      else (c.pipeline.engine.recalled (historyKey bundle.target)).decide c.pipeline.engine.table
        c.pipeline.engine.config bundle c.pipeline.manager.enforcementMode env.now :=
  c.pipeline.engine.decide_fst _ _ _ _

/-- A pass sees new D1 evidence when its device is not protected and its bundle has some. -/
theorem passOn_seesNewD1 :
    (c.passOn env mac bundle).seesNewD1 = true ↔ c.pipeline.isProtected bundle.target = false ∧
      ∃ item ∈ (c.pipeline.memoryOf bundle).fresh bundle, item.d1?.isSome = true := by
  have hclassified : (c.passOn env mac bundle).classified =
      if PolicyEngine.quiet c.pipeline.isProtected bundle then []
      else (c.pipeline.memoryOf bundle).fresh bundle := rfl
  unfold Pass.seesNewD1
  rw [hclassified, PolicyEngine.quiet]
  cases c.pipeline.isProtected bundle.target with
  | true => simp
  | false =>
    cases hempty : bundle.evidence.isEmpty with
    | false => simp
    | true =>
      have hnone : ∀ item, item ∉ (c.pipeline.memoryOf bundle).fresh bundle := by
        intro item hitem
        have hmem := (History.mem_fresh.mp hitem).1
        rw [List.isEmpty_iff.mp hempty] at hmem
        exact List.not_mem_nil hmem
      simp [hnone]

/-- A sound call decided on the bundle as one burst. -/
theorem oneBurst_of_oneEach (hmac : bundle.target.mac = some mac)
    (hprotected : c.pipeline.isProtected bundle.target = false)
    (h : OneEach start (c.decideOn env mac bundle).passes) : c.OneBurst start env mac bundle := by
  have hkey : historyKey bundle.target = mac.text := by
    unfold historyKey
    rw [hmac]
  rw [decideOn_passes] at h
  obtain ⟨-, hseen, hstrikes, hunescalated⟩ := OneEach.snoc_iff.mp h
  refine ⟨fun hnew => hseen (passOn_seesNewD1.mpr ⟨hprotected, hnew⟩), fun hacts => ?_, fun htwo => ?_⟩
  · have hbefore := hunescalated (V2Pipeline.decide_ne_nil_iff.mpr ⟨hprotected, hacts⟩)
    change (c.pipeline.engine.recalled (historyKey bundle.target)).d1Strikes ≤ _ at hbefore
    rwa [hkey] at hbefore
  · have hafter := V2Pipeline.strikes_submitted_two hprotected htwo
    change (c.pipeline.submitted env bundle).engine.strikes (historyKey bundle.target) ≤ _ at hstrikes
    rw [hafter, hkey] at hstrikes
    show _ < start.strikes mac.text
    change _ ≤ start.strikes mac.text + 1 at hstrikes
    omega

/-- The step: deciding on a bundle as one burst keeps the call sound. -/
theorem Sound.decideOn (h : c.Sound start) (hmac : bundle.target.mac = some mac)
    (hburst : c.pipeline.isProtected bundle.target = false → c.OneBurst start env mac bundle) :
    (c.decideOn env mac bundle).Sound start := by
  have hkey : historyKey bundle.target = mac.text := by
    unfold historyKey
    rw [hmac]
  have hown : (c.pipeline.submitted env bundle).engine.strikes mac.text ≤ start.strikes mac.text + 1 := by
    by_cases hdecides : (c.pipeline.engine.decide c.pipeline.isProtected bundle
        c.pipeline.manager.enforcementMode env.now).1 = []
    · exact (V2Pipeline.strikes_submitted_of_nil hdecides _).trans (h.strikes mac)
    · obtain ⟨hprotected, hacts⟩ := V2Pipeline.decide_ne_nil_iff.mp hdecides
      have hbefore := (hburst hprotected).settled hacts
      by_cases htwo : c.pipeline.HoldsAndLimits env bundle
      · have hafter := V2Pipeline.strikes_submitted_two hprotected htwo
        have hforgotten := (hburst hprotected).single htwo
        rw [hkey] at hafter
        omega
      · exact (V2Pipeline.strikes_submitted_le htwo _).trans (Nat.add_le_add_right hbefore 1)
  refine ⟨?_, fun other => ?_⟩
  · rw [decideOn_passes]
    refine OneEach.snoc_iff.mpr ⟨h.passes, fun hsees => ?_, ?_, fun hdecides => ?_⟩
    · obtain ⟨hprotected, hnew⟩ := passOn_seesNewD1.mp hsees
      exact (hburst hprotected).seen hnew
    · show (c.pipeline.submitted env bundle).engine.strikes (historyKey bundle.target) ≤ _
      rw [hkey]
      exact hown
    · obtain ⟨hprotected, hacts⟩ := V2Pipeline.decide_ne_nil_iff.mp hdecides
      show (c.pipeline.engine.recalled (historyKey bundle.target)).d1Strikes ≤ _
      rw [hkey]
      exact (hburst hprotected).settled hacts
  · rw [decideOn_pipeline]
    by_cases hsame : mac = other
    · rw [← hsame]
      exact hown
    · have hother : historyKey bundle.target ≠ other.text := fun heq =>
        hsame (Mac.ext_text (hkey.symm.trans heq))
      exact (V2Pipeline.strikes_submitted_other hother).trans (h.strikes other)

end DecideOn

/-! ## The loops of a call -/

section Loops

variable {start : PolicyEngine} {c : Evaluation} {env : Env} {mac : Mac} {extra : List D1Evidence}

/-- The bundle that `decideFor` is about to take to the engine, if any, is one burst, unless its device is
protected. -/
def Meets (start : PolicyEngine) (c : Evaluation) (env : Env) (mac : Mac) (extra : List D1Evidence) : Prop :=
  ∀ target, (c.pipeline.gather mac env.now extra).1 ≠ [] →
    (c.pipeline.gather mac env.now extra).2.targetOf mac = some target →
    (c.pipeline.gather mac env.now extra).2.isProtected target = false →
    { c with pipeline := (c.pipeline.gather mac env.now extra).2 }.OneBurst start env mac
      ⟨target, (c.pipeline.gather mac env.now extra).1⟩

/-- Gathering reads the tables; only what they forget changes. -/
theorem gather_snd (s : V2Pipeline) (mac : Mac) (now : Time) (extra : List D1Evidence) :
    ∃ ml anomalies, (s.gather mac now extra).2 =
      { s with d1 := (s.d1.evaluateDevice mac now).2, ml, anomalies } := by
  unfold V2Pipeline.gather V2Pipeline.recentMl V2Pipeline.recentAnomalies
  dsimp only
  cases s.ml.get? mac with
  | none =>
    cases s.anomalies.get? mac with
    | none => exact ⟨_, _, rfl⟩
    | some recent => exact ⟨_, _, rfl⟩
  | some recent =>
    cases s.anomalies.get? mac with
    | none => exact ⟨_, _, rfl⟩
    | some recent => exact ⟨_, _, rfl⟩

theorem gather_engine (s : V2Pipeline) (mac : Mac) (now : Time) (extra : List D1Evidence) :
    (s.gather mac now extra).2.engine = s.engine := by
  obtain ⟨ml, anomalies, heq⟩ := gather_snd s mac now extra
  rw [heq]

theorem targetOf_mac {s : V2Pipeline} {target : RuleTarget} (h : s.targetOf mac = some target) :
    target.mac = some mac := by
  obtain ⟨ip, _, rfl⟩ := Option.map_eq_some_iff.mp h
  rfl

theorem reportUntargetable_engine (s : V2Pipeline) (mac : Mac) (items : List Evidence) :
    (s.reportUntargetable mac items).engine = s.engine := by
  unfold V2Pipeline.reportUntargetable
  dsimp only
  split
  · rfl
  · rfl

theorem reportAggregates_engine (items : List D1Evidence) (s : V2Pipeline) :
    (items.foldl V2Pipeline.reportAggregate s).engine = s.engine := by
  induction items generalizing s with
  | nil => rfl
  | cons item rest ih =>
    rw [List.foldl_cons, ih]
    unfold V2Pipeline.reportAggregate
    split
    · rfl
    · rfl

/-- A call of `decideFor` takes one bundle to the engine or none. -/
theorem decideFor_cases (c : Evaluation) (env : Env) (mac : Mac) (extra : List D1Evidence) :
    ((c.decideFor env mac extra).passes = c.passes ∧
      (c.decideFor env mac extra).pipeline.engine = c.pipeline.engine ∧
      (c.raised = none → ∀ start, c.Meets start env mac extra)) ∨
    ∃ target, (c.pipeline.gather mac env.now extra).2.targetOf mac = some target ∧
      (c.pipeline.gather mac env.now extra).1 ≠ [] ∧
      c.decideFor env mac extra = Evaluation.decideOn
        { c with pipeline := (c.pipeline.gather mac env.now extra).2 } env mac
        ⟨target, (c.pipeline.gather mac env.now extra).1⟩ := by
  have hengine := gather_engine c.pipeline mac env.now extra
  unfold Evaluation.decideFor
  split
  · rename_i hraised
    refine .inl ⟨rfl, rfl, fun hnone => ?_⟩
    rw [hnone] at hraised
    exact absurd hraised Bool.false_ne_true
  · dsimp only
    split
    · rename_i hitems
      exact .inl ⟨rfl, hengine, fun _ _ _ hne => absurd (List.isEmpty_iff.mp hitems) hne⟩
    · rename_i hitems
      split
      · rename_i hnone
        refine .inl ⟨rfl, (reportUntargetable_engine _ _ _).trans hengine, fun _ _ target _ htarget => ?_⟩
        rw [hnone] at htarget
        exact absurd htarget (by simp)
      · rename_i target htarget
        exact .inr ⟨target, htarget, fun hnil => hitems (List.isEmpty_iff.mpr hnil), rfl⟩

theorem Sound.decideFor (h : c.Sound start) (hmeets : c.raised = none → c.Meets start env mac extra) :
    (c.decideFor env mac extra).Sound start := by
  by_cases hraised : c.raised = none
  · rcases decideFor_cases c env mac extra with ⟨hpasses, hengine, _⟩ | ⟨target, htarget, hne, heq⟩
    · exact h.congr hengine hpasses
    · rw [heq]
      have hgathered : { c with pipeline := (c.pipeline.gather mac env.now extra).2 }.Sound start :=
        h.congr (gather_engine c.pipeline mac env.now extra) rfl
      exact hgathered.decideOn (targetOf_mac htarget) (hmeets hraised target hne htarget)
  · have hsame : c.decideFor env mac extra = c := if_pos (by
      rw [Option.isSome_iff_ne_none]
      exact hraised)
    rw [hsame]
    exact h

theorem meets_of_oneEach (h : OneEach start (c.decideFor env mac extra).passes) :
    OneEach start c.passes ∧ (c.raised = none → c.Meets start env mac extra) := by
  rcases decideFor_cases c env mac extra with ⟨hpasses, _, hmeets⟩ | ⟨target, htarget, hne, heq⟩
  · rw [hpasses] at h
    exact ⟨h, fun hraised => hmeets hraised start⟩
  · rw [heq] at h
    refine ⟨(OneEach.snoc_iff.mp h).1, fun _ other _ hother hprotected => ?_⟩
    obtain rfl := Option.some.inj (htarget.symm.trans hother)
    exact oneBurst_of_oneEach (targetOf_mac htarget) hprotected h

/-- A touched device that is evaluated meets the condition. -/
def MeetsTouched (start : PolicyEngine) (env : Env) (monotonic : Rat) (c : Evaluation) (mac : Mac) : Prop :=
  c.raised = none → c.onCooldown monotonic mac = false → (c.markEvaluated monotonic mac).Meets start env mac []

theorem Sound.evaluateMac {monotonic : Rat} (h : c.Sound start)
    (hmeets : MeetsTouched start env monotonic c mac) :
    (Evaluation.evaluateMac env monotonic c mac).Sound start := by
  unfold Evaluation.evaluateMac
  split
  · exact h
  · split
    · exact h.congr rfl rfl
    · rename_i hcooldown
      have hmarked : (c.markEvaluated monotonic mac).Sound start := h.congr rfl rfl
      exact hmarked.decideFor fun hraised => hmeets hraised (Bool.not_eq_true _ ▸ hcooldown)

theorem meetsTouched_of_oneEach {monotonic : Rat}
    (h : OneEach start (Evaluation.evaluateMac env monotonic c mac).passes) :
    OneEach start c.passes ∧ MeetsTouched start env monotonic c mac := by
  unfold Evaluation.evaluateMac at h
  split at h
  · rename_i hraised
    refine ⟨h, fun hnone => ?_⟩
    rw [hnone] at hraised
    exact absurd hraised Bool.false_ne_true
  · split at h
    · rename_i hcooldown
      refine ⟨h, fun _ hoff => ?_⟩
      rw [hoff] at hcooldown
      exact absurd hcooldown Bool.false_ne_true
    · obtain ⟨hpasses, hmeets⟩ := meets_of_oneEach h
      exact ⟨hpasses, fun hraised _ => hmeets hraised⟩

/-- Reports of aggregates concern neither the engine nor the passes. -/
theorem Sound.report (h : c.Sound start) (items : List D1Evidence) :
    Sound start { c with pipeline := items.foldl V2Pipeline.reportAggregate c.pipeline } :=
  h.congr (reportAggregates_engine items c.pipeline) rfl

theorem Sound.evaluateDestination {now : Time} {destination : IPv4Address} (h : c.Sound start) :
    (Evaluation.evaluateDestination now c destination).Sound start :=
  h.congr (reportAggregates_engine _ _) rfl

/-- A device the LAN-wide detectors name meets the condition. -/
def MeetsNamed (start : PolicyEngine) (env : Env) (c : Evaluation) (entry : Mac × List D1Evidence) : Prop :=
  c.raised = none → c.Meets start env entry.1 entry.2

end Loops

end Evaluation

/-! ## One burst, one strike -/

namespace V2Pipeline

/-- Every bundle a call takes to the engine is one burst: at each pass over a touched device that is off its
cooldown, and, when the LAN-wide detectors are due, at each pass over a device they name. -/
structure OneBurst (s : V2Pipeline) (env : Env) (monotonic : Rat) : Prop where
  touched : Along (Evaluation.evaluateMac env monotonic) (Evaluation.MeetsTouched s.engine env monotonic)
    { s with touchedMacs := Dict.empty }.start s.pending
  named : (s.evaluateLocal env monotonic).raised = none →
    (s.evaluateLocal env monotonic).pipeline.globalDue monotonic = true →
    Along (Evaluation.evaluateNamed env) (Evaluation.MeetsNamed s.engine env)
      { s.evaluateLocal env monotonic with pipeline :=
          { (s.evaluateLocal env monotonic).pipeline with lastGlobal := some monotonic } }
      (Evaluation.named ((s.evaluateLocal env monotonic).pipeline.d1.evaluateGlobal env.now))

/-- What one call may do to a device: what its passes may, and the strikes the device ends with are one more
at most. -/
structure OneStrike (s : V2Pipeline) (c : Evaluation) : Prop where
  passes : OneEach s.engine c.passes
  strikes : ∀ mac : Mac, c.pipeline.engine.strikes mac.text ≤ s.engine.strikes mac.text + 1

variable {s : V2Pipeline} {env : Env} {monotonic : Rat}

theorem oneEach_nil (start : PolicyEngine) : OneEach start [] :=
  ⟨fun _ => Nat.zero_le _, fun _ hp => absurd hp List.not_mem_nil, fun _ hp => absurd hp List.not_mem_nil⟩

theorem sound_start (s : V2Pipeline) : s.start.Sound s.engine := ⟨oneEach_nil _, fun _ => Nat.le_succ _⟩

theorem sound_evaluateLocal
    (h : Along (Evaluation.evaluateMac env monotonic) (Evaluation.MeetsTouched s.engine env monotonic)
      { s with touchedMacs := Dict.empty }.start s.pending) :
    (s.evaluateLocal env monotonic).Sound s.engine := by
  have htouched : (s.evaluateTouched env monotonic).Sound s.engine :=
    Along.invariant (fun _ _ hc hmeets => hc.evaluateMac hmeets) h (sound_start { s with touchedMacs := Dict.empty })
  unfold evaluateLocal
  dsimp only
  split
  · exact htouched
  · refine Along.invariant (G := fun _ _ => True) (fun _ _ hc _ => hc.evaluateDestination)
      (Along.of_forall (fun _ _ _ => trivial) _) ?_
    exact htouched.congr rfl rfl

/-- The destinations are no passes, so those of the local part are those over the touched devices. -/
theorem touched_of_oneEach (h : OneEach s.engine (s.evaluateLocal env monotonic).passes) :
    Along (Evaluation.evaluateMac env monotonic) (Evaluation.MeetsTouched s.engine env monotonic)
      { s with touchedMacs := Dict.empty }.start s.pending := by
  have htouched : OneEach s.engine (s.evaluateTouched env monotonic).passes := by
    unfold evaluateLocal at h
    dsimp only at h
    split at h
    · exact h
    · have hback : ∀ (c : Evaluation) (destination : IPv4Address),
          OneEach s.engine (c.evaluateDestination env.now destination).passes → OneEach s.engine c.passes :=
        fun _ _ hc => hc
      have hstart := Along.start_of_final (I := fun c : Evaluation => OneEach s.engine c.passes) hback h
      exact hstart
  exact Along.of_final (I := fun c : Evaluation => OneEach s.engine c.passes)
    (fun _ _ hc => (Evaluation.meetsTouched_of_oneEach hc).1)
    (fun _ _ hc => (Evaluation.meetsTouched_of_oneEach hc).2) htouched

/-- The LAN-wide part of a call. -/
def evaluateLanWide (c : Evaluation) (env : Env) (monotonic : Rat) : Evaluation :=
  run (Evaluation.evaluateNamed env)
    { c with pipeline := { c.pipeline with lastGlobal := some monotonic } }
    (Evaluation.named (c.pipeline.d1.evaluateGlobal env.now))

/-- A call is its local part, and its LAN-wide part when that is due; then it only reports. -/
theorem evaluate_cases (s : V2Pipeline) (env : Env) (monotonic : Rat) :
    (¬ ((s.evaluateLocal env monotonic).raised = none ∧
        (s.evaluateLocal env monotonic).pipeline.globalDue monotonic = true) ∧
      s.evaluate env monotonic = s.evaluateLocal env monotonic) ∨
    ((s.evaluateLocal env monotonic).raised = none ∧
      (s.evaluateLocal env monotonic).pipeline.globalDue monotonic = true ∧
      (s.evaluate env monotonic).passes = (evaluateLanWide (s.evaluateLocal env monotonic) env monotonic).passes ∧
      (s.evaluate env monotonic).pipeline.engine =
        (evaluateLanWide (s.evaluateLocal env monotonic) env monotonic).pipeline.engine) := by
  unfold evaluate
  dsimp only
  generalize s.evaluateLocal env monotonic = c
  split
  · rename_i hstop
    refine .inl ⟨fun hgo => ?_, rfl⟩
    rw [hgo.1, hgo.2] at hstop
    exact absurd hstop Bool.false_ne_true
  · rename_i hgo
    rw [Bool.or_eq_true, not_or, Bool.not_eq_true, Option.isSome_eq_false_iff, Option.isNone_iff_eq_none,
      Bool.not_eq_true, Bool.not_eq_false'] at hgo
    refine .inr ⟨hgo.1, hgo.2, ?_⟩
    show _ = (evaluateLanWide c env monotonic).passes ∧ _ = (evaluateLanWide c env monotonic).pipeline.engine
    unfold evaluateLanWide
    split
    · exact ⟨rfl, rfl⟩
    · exact ⟨rfl, Evaluation.reportAggregates_engine _ _⟩

/-- For every pipeline, clock and mode: one call of `evaluate` gives each device at most one pass that sees new
D1 evidence and at most one strike, and takes no decision on a strike of its own, exactly when every bundle it
takes to the engine is one burst. -/
theorem one_burst_is_one_strike (s : V2Pipeline) (env : Env) (monotonic : Rat) :
    OneStrike s (s.evaluate env monotonic) ↔ s.OneBurst env monotonic := by
  constructor
  · intro h
    have hpasses := h.passes
    rcases s.evaluate_cases env monotonic with ⟨hstop, heq⟩ | ⟨_, _, heq, _⟩
    · rw [heq] at hpasses
      exact ⟨touched_of_oneEach hpasses, fun hraised hdue => absurd ⟨hraised, hdue⟩ hstop⟩
    · rw [heq] at hpasses
      have hback : ∀ c entry, OneEach s.engine (Evaluation.evaluateNamed env c entry).passes →
          OneEach s.engine c.passes := fun _ _ hc => (Evaluation.meets_of_oneEach hc).1
      have hlocal := Along.start_of_final (I := fun c : Evaluation => OneEach s.engine c.passes) hback hpasses
      exact ⟨touched_of_oneEach hlocal, fun _ _ =>
        Along.of_final (I := fun c : Evaluation => OneEach s.engine c.passes) hback
          (fun _ _ hc => (Evaluation.meets_of_oneEach hc).2) hpasses⟩
  · intro h
    have hlocal := sound_evaluateLocal h.touched
    rcases s.evaluate_cases env monotonic with ⟨_, heq⟩ | ⟨hraised, hdue, hpasses, hengine⟩
    · rw [heq]
      exact ⟨hlocal.passes, hlocal.strikes⟩
    · have hnamed : (evaluateLanWide (s.evaluateLocal env monotonic) env monotonic).Sound s.engine :=
        Along.invariant (fun _ _ hc hmeets => hc.decideFor hmeets) (h.named hraised hdue) (hlocal.congr rfl rfl)
      have hsound := hnamed.congr hengine hpasses
      exact ⟨hsound.passes, hsound.strikes⟩

/-! A device of the site holds nine slow connections to one server open, which is one too many. -/

def culpritMac : Mac := ⟨"02:00:00:00:00:66", by decide⟩

def culpritIp : IPv4Address := IPv4Address.ofOctets 10 0 0 20

/-- The pipeline of the site, with the floors as thresholds. -/
def sitePipeline (mode : EnforcementMode) : V2Pipeline :=
  .init (siteConfig mode) (.init defaultD1Config floorsFile [8080]) shippedTable
    (siteManager mode (some siteKernel)) (fun _ => some culpritIp)
    (fun n => String.ofList (List.replicate (n + 1) 'u')) (fun _ => "evidence")

/-- Nine slow connections, seen one second after the epoch. -/
def slowCluster (mode : EnforcementMode) : V2Pipeline :=
  (sitePipeline mode).observeSlowCluster culpritMac culpritIp (IPv4Address.ofOctets 203 0 113 5) 9 1000000

/-- And six failed logins of one account from the same device. -/
def slowAndFailing (mode : EnforcementMode) : V2Pipeline :=
  ((List.range 6).foldl
    (fun s _ => s.put (.portalFailure "alice" (some culpritMac) 1000000)) (slowCluster mode)).drainInbox

theorem one_burst_is_one_strike_slow :
    (slowCluster .active).OneBurst (siteEnv 2000000) 5 ∧
      OneStrike (slowCluster .active) ((slowCluster .active).evaluate (siteEnv 2000000) 5) := by
  have hpending : (slowCluster .active).pending = [culpritMac] := by decide +kernel
  have hnamed : Evaluation.named (((slowCluster .active).evaluateLocal (siteEnv 2000000) 5).pipeline.d1.evaluateGlobal
      (siteEnv 2000000).now) = [] := by decide +kernel
  have hburst : (slowCluster .active).OneBurst (siteEnv 2000000) 5 := by
    refine ⟨?_, fun _ _ => ?_⟩
    · rw [hpending]
      refine ⟨fun _ _ target _ _ _ => ⟨fun _ p hp => ?_, fun _ => ?_, fun htwo => ?_⟩, trivial⟩
      · exact absurd hp List.not_mem_nil
      · dsimp only
        rw [Evaluation.gather_engine]
        exact le_refl _
      · exact absurd htwo.rows.assisted (by decide +kernel)
    · rw [hnamed]
      trivial
  exact ⟨hburst, (one_burst_is_one_strike _ _ _).mpr hburst⟩

/-- Six failed logins on top: the device is limited as a touched device, and in the same call the account
detector takes it to the engine again, where that strike turns its RATE_LIMIT into a BLOCK of twice the TTL. -/
theorem slow_and_failing_is_two_strikes :
    (((slowAndFailing .active).evaluate (siteEnv 2000000) 5).passes.map fun p =>
        (p.seesNewD1, p.history.d1Strikes, p.decisions.map fun d => (d.action, d.ttlSeconds))) =
      [(true, 0, [(.rateLimit, some 300)]), (true, 1, [(.block, some 1800)])] ∧
    ((slowAndFailing .active).evaluate (siteEnv 2000000) 5).pipeline.engine.strikes culpritMac.text = 2 ∧
    ¬ OneStrike (slowAndFailing .active) ((slowAndFailing .active).evaluate (siteEnv 2000000) 5) := by
  have hstrikes : ((slowAndFailing .active).evaluate (siteEnv 2000000) 5).pipeline.engine.strikes
      culpritMac.text = 2 := by decide +kernel
  have hclean : (slowAndFailing .active).engine.strikes culpritMac.text = 0 := by decide +kernel
  refine ⟨by decide +kernel, hstrikes, fun h => ?_⟩
  have hone := h.strikes culpritMac
  rw [hstrikes, hclean] at hone
  omega

/-- One device asks for sixteen ports of one server within a second. -/
def portScan (mode : EnforcementMode) : V2Pipeline :=
  (List.range 16).foldl
    (fun s port => s.observeSignal (some culpritMac.text) culpritIp (IPv4Address.ofOctets 203 0 113 5) (some port)
      .tcp 1000000)
    (sitePipeline mode)

-- one bundle is enough in ASSISTED: the manager holds its BLOCK and makes a RATE_LIMIT of it as well
example : (((portScan .assisted).evaluate (siteEnv 2000000) 5).passes.map fun p =>
    (p.history.d1Strikes, p.strikes, p.decisions.map fun d => (d.action, d.requiresApproval))) =
      [(0, 2, [(.block, true), (.rateLimit, false)])] := by decide +kernel

end V2Pipeline

end Pirewall
