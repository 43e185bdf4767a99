/-
# Pirewall.Runtime.Reevaluation -- evaluating a device again

A device is evaluated, its decisions are taken, and it is evaluated again with nothing observed in between.
The detectors count over a window that slides with the clock, and the evidence they fire is named by the
bucket of the window the clock is in, so the same connections that were decided on under one id before a
bucket boundary are new evidence after it. Evidence of the LAN-wide detectors that names the device (`extra`)
is part of its bundle at either time, none at a device that was only touched.

`Settled` is what the second evaluation must find to enforce nothing, whatever the policy table; with the
shipped one, and the ids within the engine's memory, `reevaluation_iff` says it by detectors and buckets.
-/
import Pirewall.Firewall.Transitions
import Pirewall.Runtime.Strikes

namespace Pirewall

open Lib

/-! ## What a bundle is made of -/

namespace V2Pipeline

variable (s : V2Pipeline) {mac : Mac} {now : Time} {extra : List D1Evidence}

/-- The evidence of a device that is not from the detectors. -/
def corroboration (mac : Mac) (now : Time) : List Evidence :=
  ((s.kernel.get? mac).getD []).map Evidence.kernel
    ++ ((s.recentMl mac now).1.map Evidence.classifier ++ (s.recentAnomalies mac now).1.map Evidence.anomaly)

theorem recentMl_fst (mac : Mac) (now : Time) :
    (s.recentMl mac now).1 = ((s.ml.get? mac).getD []).dropWhile fun item =>
      decide (item.generatedAt < now - mlMemory) := by
  unfold recentMl
  split
  · rename_i hnone
    rw [hnone]
    rfl
  · rename_i recent hsome
    rw [hsome]
    rfl

theorem recentAnomalies_fst (mac : Mac) (now : Time) :
    (s.recentAnomalies mac now).1 = ((s.anomalies.get? mac).getD []).dropWhile fun item =>
      decide (item.generatedAt < now - mlMemory) := by
  unfold recentAnomalies
  split
  · rename_i hnone
    rw [hnone]
    rfl
  · rename_i recent hsome
    rw [hsome]
    rfl

theorem mem_corroboration_of_tables {s s' : V2Pipeline} {item : Evidence}
    (h : item ∈ s'.corroboration mac now) (hkernel : s'.kernel = s.kernel) (hml : s'.ml = s.ml)
    (hanomalies : s'.anomalies = s.anomalies) : item ∈ s.corroboration mac now := by
  unfold corroboration at h ⊢
  rwa [recentMl_fst, recentAnomalies_fst, hkernel, hml, hanomalies, ← recentMl_fst, ← recentAnomalies_fst] at h

theorem recentMl_snd (mac : Mac) (now : Time) :
    (s.recentMl mac now).2 = { s with ml := (s.recentMl mac now).2.ml } ∧
      ((s.recentMl mac now).2.ml.get? mac).getD [] = (s.recentMl mac now).1 := by
  unfold recentMl
  split
  · rename_i hnone
    exact ⟨rfl, by rw [hnone]; rfl⟩
  · refine ⟨rfl, ?_⟩
    simp only [Dict.get?_set, if_true, Option.getD_some]

theorem recentAnomalies_snd (mac : Mac) (now : Time) :
    (s.recentAnomalies mac now).2 = { s with anomalies := (s.recentAnomalies mac now).2.anomalies } ∧
      ((s.recentAnomalies mac now).2.anomalies.get? mac).getD [] = (s.recentAnomalies mac now).1 := by
  unfold recentAnomalies
  split
  · rename_i hnone
    exact ⟨rfl, by rw [hnone]; rfl⟩
  · refine ⟨rfl, ?_⟩
    simp only [Dict.get?_set, if_true, Option.getD_some]

/-- What `gather` finds, and the tables it leaves. -/
theorem gather_eq (mac : Mac) (now : Time) (extra : List D1Evidence) :
    s.gather mac now extra =
      (((s.kernel.get? mac).getD []).map Evidence.kernel
          ++ ((s.d1.evaluateDevice mac now).1 ++ extra).map Evidence.d1
        ++ ((s.recentMl mac now).1.map Evidence.classifier ++ (s.recentAnomalies mac now).1.map Evidence.anomaly),
       { s with
         d1 := (s.d1.evaluateDevice mac now).2
         ml := (s.recentMl mac now).2.ml
         anomalies := (s.recentAnomalies mac now).2.anomalies }) := by
  unfold gather recentMl recentAnomalies
  dsimp only
  cases s.ml.get? mac with
  | none =>
    cases s.anomalies.get? mac with
    | none => rfl
    | some recent => rfl
  | some recent =>
    cases s.anomalies.get? mac with
    | none => rfl
    | some recent => rfl

theorem mem_gather {item : Evidence} :
    item ∈ (s.gather mac now extra).1 ↔ item ∈ s.corroboration mac now ∨
      ∃ d ∈ (s.d1.evaluateDevice mac now).1 ++ extra, item = .d1 d := by
  rw [gather_eq]
  simp only [corroboration, List.mem_append, List.mem_map]
  constructor
  · rintro ((h | ⟨d, hd, rfl⟩) | h)
    · exact .inl (.inl h)
    · exact .inr ⟨d, hd, rfl⟩
    · exact .inl (.inr h)
  · rintro ((h | h) | ⟨d, hd, rfl⟩)
    · exact .inl (.inl h)
    · exact .inr h
    · exact .inl (.inr ⟨d, hd, rfl⟩)

/-- A later reading of the same tables finds no corroboration that was not there. -/
theorem corroboration_later {s : V2Pipeline} {t : Time} {item : Evidence}
    (h : item ∈ (s.gather mac t extra).2.corroboration mac now) : item ∈ s.corroboration mac t := by
  have hkernel : (s.gather mac t extra).2.kernel = s.kernel := by rw [gather_eq]
  have hml : ((s.gather mac t extra).2.ml.get? mac).getD [] = (s.recentMl mac t).1 := by
    rw [gather_eq]
    exact (s.recentMl_snd mac t).2
  have hanomalies : ((s.gather mac t extra).2.anomalies.get? mac).getD [] = (s.recentAnomalies mac t).1 := by
    rw [gather_eq]
    exact (s.recentAnomalies_snd mac t).2
  unfold corroboration at h ⊢
  rw [recentMl_fst, recentAnomalies_fst, hkernel, hml, hanomalies] at h
  simp only [List.mem_append, List.mem_map] at h ⊢
  rcases h with h | ⟨item, hitem, rfl⟩ | ⟨item, hitem, rfl⟩
  · exact .inl h
  · exact .inr (.inl ⟨item, (List.dropWhile_sublist _).subset hitem, rfl⟩)
  · exact .inr (.inr ⟨item, (List.dropWhile_sublist _).subset hitem, rfl⟩)

/-! ## One evaluation -/

/-- The bundle an evaluation of a device takes to the engine, if it has anything to take. -/
def bundleAt (mac : Mac) (now : Time) (extra : List D1Evidence) : Option EvidenceBundle :=
  if (s.gather mac now extra).1.isEmpty then none
  else (s.targetOf mac).map fun target => ⟨target, (s.gather mac now extra).1⟩

/-- The pipeline after a device was evaluated and its decisions were taken. -/
def evaluated (env : Env) (mac : Mac) (extra : List D1Evidence) : V2Pipeline :=
  (s.start.decideFor env mac extra).pipeline

/-- The decisions of an evaluation. -/
def decisionsAt (env : Env) (mac : Mac) (extra : List D1Evidence) : List PolicyDecision :=
  (s.start.decideFor env mac extra).passes.flatMap Pass.decisions

theorem targetOf_gather (mac : Mac) (now : Time) (extra : List D1Evidence) :
    (s.gather mac now extra).2.targetOf mac = s.targetOf mac := by
  rw [gather_eq]
  unfold targetOf
  dsimp only
  rw [D1State.lastIp_evaluateDevice]

theorem decideFor_start (env : Env) (mac : Mac) (extra : List D1Evidence) :
    s.start.decideFor env mac extra =
      if (s.gather mac env.now extra).1.isEmpty then ⟨(s.gather mac env.now extra).2, [], none⟩
      else
        match (s.gather mac env.now extra).2.targetOf mac with
        | none => ⟨(s.gather mac env.now extra).2.reportUntargetable mac (s.gather mac env.now extra).1, [], none⟩
        | some target => Evaluation.decideOn ⟨(s.gather mac env.now extra).2, [], none⟩ env mac
            ⟨target, (s.gather mac env.now extra).1⟩ := rfl

/-- An evaluation without a bundle changes no table the next one reads. -/
theorem decideFor_none {s : V2Pipeline} {env : Env} (h : s.bundleAt mac env.now extra = none) :
    (s.start.decideFor env mac extra).passes = [] ∧
      ∃ aggregateSeen emitted, s.evaluated env mac extra =
        { (s.gather mac env.now extra).2 with aggregateSeen, emitted } := by
  unfold evaluated
  rw [decideFor_start]
  unfold bundleAt at h
  split
  · exact ⟨rfl, _, _, rfl⟩
  · rename_i hitems
    rw [if_neg hitems, Option.map_eq_none_iff] at h
    rw [targetOf_gather, h]
    refine ⟨rfl, ?_⟩
    dsimp only
    unfold reportUntargetable
    dsimp only
    split
    · exact ⟨_, _, rfl⟩
    · exact ⟨_, _, rfl⟩

/-- An evaluation with a bundle decides on it. -/
theorem decideFor_some {s : V2Pipeline} {env : Env} {bundle : EvidenceBundle}
    (h : s.bundleAt mac env.now extra = some bundle) :
    s.start.decideFor env mac extra =
      Evaluation.decideOn ⟨(s.gather mac env.now extra).2, [], none⟩ env mac bundle := by
  unfold bundleAt at h
  split at h
  · exact absurd h (by simp)
  · rename_i hitems
    obtain ⟨target, htarget, rfl⟩ := Option.map_eq_some_iff.mp h
    rw [decideFor_start, if_neg hitems, targetOf_gather, htarget]

theorem bundleAt_key {s : V2Pipeline} {bundle : EvidenceBundle} (h : s.bundleAt mac now extra = some bundle) :
    historyKey bundle.target = mac.text ∧ s.targetOf mac = some bundle.target ∧
      bundle.evidence = (s.gather mac now extra).1 ∧ bundle.evidence ≠ [] := by
  unfold bundleAt at h
  split at h
  · exact absurd h (by simp)
  · rename_i hitems
    obtain ⟨target, htarget, rfl⟩ := Option.map_eq_some_iff.mp h
    refine ⟨?_, htarget, rfl, fun hnil => hitems (List.isEmpty_iff.mpr hnil)⟩
    unfold historyKey
    rw [Evaluation.targetOf_mac htarget]

/-- The decisions of an evaluation, from what the engine remembers. -/
theorem decisionsAt_eq {s : V2Pipeline} {env : Env} :
    s.decisionsAt env mac extra = match s.bundleAt mac env.now extra with
      | none => []
      | some bundle =>
        if s.isProtected bundle.target then []
        else (s.engine.recalled mac.text).decide s.engine.table s.engine.config bundle
          s.manager.enforcementMode env.now := by
  unfold decisionsAt
  cases hbundle : s.bundleAt mac env.now extra with
  | none =>
    rw [(decideFor_none hbundle).1]
    rfl
  | some bundle =>
    obtain ⟨hkey, _, _, hne⟩ := bundleAt_key hbundle
    rw [decideFor_some hbundle]
    show (Evaluation.passOn ⟨(s.gather mac env.now extra).2, [], none⟩ env mac bundle).decisions ++ [] = _
    rw [List.append_nil, Evaluation.passOn_decisions, hkey, gather_eq]
    have hnonempty : bundle.evidence.isEmpty = false := by simpa using hne
    unfold PolicyEngine.quiet
    rw [hnonempty, Bool.false_or]
    rfl

end V2Pipeline

/-! ## When nothing is enforced -/

/-- RATE_LIMIT or BLOCK, at once or after approval. -/
def TableAction.enforces : TableAction → Bool
  | .rateLimit | .block | .blockApproval => true
  | .log | .monitor => false

/-- A bundle enforces nothing when no row its new evidence matches does. -/
theorem History.decide_enforces_nothing_iff (history : History) (table : PolicyTable) (config : PolicyConfig)
    (bundle : EvidenceBundle) (mode : EnforcementMode) (now : Time) :
    (∀ d ∈ history.decide table config bundle mode now, d.action.restrictive = false) ↔
      ∀ action ∈ history.actions table config bundle mode, action.enforces = false := by
  have hnil : (∀ d ∈ history.decide table config bundle mode now, d.action.restrictive = false) ↔
      enforcing (history.decide table config bundle mode now) = [] := by
    rw [enforcing, List.map_eq_nil_iff, List.filter_eq_nil_iff]
    simp only [Bool.not_eq_true]
  rw [hnil, enforcing_decide, enforcing_decisions]
  generalize history.actions table config bundle mode = actions
  constructor
  · intro h action haction
    have hblock : TableAction.block ∉ actions := by
      intro hblock
      simp [hblock] at h
    have happroval : TableAction.blockApproval ∉ actions := by
      intro happroval
      simp [hblock, happroval] at h
    have hrate : TableAction.rateLimit ∉ actions := by
      intro hrate
      simp [hblock, hrate] at h
    cases action with
    | log => rfl
    | monitor => rfl
    | rateLimit => exact absurd haction hrate
    | block => exact absurd haction hblock
    | blockApproval => exact absurd haction happroval
  · intro h
    have hblock : TableAction.block ∉ actions := fun hmem => absurd (h _ hmem) (by decide)
    have happroval : TableAction.blockApproval ∉ actions := fun hmem => absurd (h _ hmem) (by decide)
    have hrate : TableAction.rateLimit ∉ actions := fun hmem => absurd (h _ hmem) (by decide)
    rw [if_neg fun hboth => happroval hboth.1, if_neg hblock, if_neg hrate]
    rfl

namespace V2Pipeline

/-- The evaluation enforces nothing and gives the device no strike. -/
structure NoEscalation (s : V2Pipeline) (env : Env) (mac : Mac) (extra : List D1Evidence) : Prop where
  quiet : ∀ d ∈ s.decisionsAt env mac extra, d.action.restrictive = false
  strikes : (s.evaluated env mac extra).engine.strikes mac.text ≤ s.engine.strikes mac.text

/-- No row that the device's new evidence matches enforces in the current mode, unless the device is
protected. -/
def Settled (s : V2Pipeline) (env : Env) (mac : Mac) (extra : List D1Evidence) : Prop :=
  ∀ bundle, s.bundleAt mac env.now extra = some bundle → s.isProtected bundle.target = false →
    ∀ c, Matches ((s.engine.recalled mac.text).fresh bundle) s.engine.table s.engine.config.sustainedPolls
        (s.engine.strikes mac.text) ((s.engine.recalled mac.text).newIds bundle) c →
      ∀ action ∈ (s.engine.table.row c).cell s.manager.enforcementMode, action.enforces = false

variable {s : V2Pipeline} {env : Env} {mac : Mac} {extra : List D1Evidence}

/-- Decisions that enforce nothing give no strike. -/
theorem strikes_evaluated (h : ∀ d ∈ s.decisionsAt env mac extra, d.action.restrictive = false) :
    (s.evaluated env mac extra).engine.strikes mac.text ≤ s.engine.strikes mac.text := by
  cases hbundle : s.bundleAt mac env.now extra with
  | none =>
    obtain ⟨_, aggregateSeen, emitted, heq⟩ := decideFor_none hbundle
    rw [heq]
    exact (congrArg (PolicyEngine.strikes · mac.text) (Evaluation.gather_engine s mac env.now extra)).le
  | some bundle =>
    unfold decisionsAt at h
    unfold evaluated
    rw [decideFor_some hbundle] at h ⊢
    let c : Evaluation := ⟨(s.gather mac env.now extra).2, [], none⟩
    have hengine : c.pipeline.engine = s.engine := Evaluation.gather_engine s mac env.now extra
    have hnone : enforcingOn mac.text (c.passOn env mac bundle).decisions = 0 := by
      refine List.length_eq_zero_iff.mpr (List.filter_eq_nil_iff.mpr fun d hd => ?_)
      rw [h d (List.mem_append_left _ hd), Bool.false_and]
      exact Bool.false_ne_true
    have hsubmit := strikes_submitAll env bundle.hasD1 (c.passOn env mac bundle).decisions
      { c.pipeline with engine := (c.pipeline.engine.decide c.pipeline.isProtected bundle
        c.pipeline.manager.enforcementMode env.now).2 } mac.text
    rw [hnone, ite_self] at hsubmit
    rw [← hengine]
    exact hsubmit.trans (c.pipeline.engine.strikes_decide _ _ _ _ _)

/-- For every table, every memory and every mode: an evaluation enforces nothing exactly when it is settled. -/
theorem noEscalation_iff_settled : s.NoEscalation env mac extra ↔ s.Settled env mac extra := by
  have hquiet : (∀ d ∈ s.decisionsAt env mac extra, d.action.restrictive = false) ↔ s.Settled env mac extra := by
    rw [decisionsAt_eq]
    unfold Settled
    cases s.bundleAt mac env.now extra with
    | none => simp
    | some bundle =>
      simp only [Option.some.injEq, forall_eq']
      cases hprotected : s.isProtected bundle.target with
      | true => simp
      | false =>
        simp only [Bool.false_eq_true, if_false, true_implies, History.decide_enforces_nothing_iff,
          History.mem_actions]
        constructor
        · intro h c hmatch action haction
          exact h action ⟨c, hmatch, haction⟩
        · rintro h action ⟨c, hmatch, haction⟩
          exact h c hmatch action haction
  exact ⟨fun h => hquiet.mp h.quiet, fun h => ⟨hquiet.mpr h, strikes_evaluated (hquiet.mpr h)⟩⟩

end V2Pipeline

/-! ## What an evaluation leaves behind -/

/-- Submitting a candidate does not touch the allowlist. -/
theorem FirewallManager.submitCandidate_allowlist (m : FirewallManager) (env : Env) (candidate : CandidateRule) :
    (m.submitCandidate env candidate).2.allowlist = m.allowlist := by
  have hdeployed : ∀ (m : FirewallManager) sets rule upgradeOf,
      (m.deployToSets sets rule env.now upgradeOf).2.allowlist = m.allowlist := by
    intro m sets rule upgradeOf
    rcases m.deployToSets_cases sets rule env.now upgradeOf with
      heq | ⟨faults, transitions, _, heq⟩ | ⟨target, additions, metadata, sets', hdeploy⟩
    · rw [heq]
    · rw [heq]
    · obtain ⟨transitions, heq⟩ := hdeploy.result
      rw [heq]
  unfold submitCandidate
  split
  · rename_i sets _
    rcases m.submitToSets_cases env sets candidate with
      ⟨rateLimiter, heq⟩ | ⟨target, upgradeOf, rule, _, _, _, ⟨status, rateLimiter, transitions, _, heq⟩ |
        ⟨_, rateLimiter, transitions, heq⟩⟩
    · rw [heq]
    · rw [heq]
    · rw [heq, hdeployed]
  · show (m.submitToBackend env candidate).2.allowlist = m.allowlist
    rcases m.submitToBackend_cases env candidate with
      ⟨rateLimiter, heq⟩ | ⟨priority, rateLimiter, _, ⟨status, transitions, _, heq⟩ | ⟨_, transitions, heq⟩⟩
    · rw [heq]
    · rw [heq]
    · rw [heq]
      obtain ⟨backend, transitions, rule', _, _, heq⟩ := deploy_cases { m with rateLimiter, transitions }
        (candidate.toRule priority candidate.target candidate.target_is_source) env.now
      rw [heq]

/-- Recording a decision keeps the ids a tracked device was decided on. -/
theorem PolicyEngine.recordEnforced_used {e : PolicyEngine} {d : PolicyDecision} {found : History}
    (h : e.history.get? (historyKey d.target) = some found) (hadD1 : Bool) :
    ∃ after, (e.recordEnforced d hadD1).history.get? (historyKey d.target) = some after ∧
      after.used = found.used := by
  unfold recordEnforced
  split
  · unfold historyFor
    rw [h]
    refine ⟨{ found with d1Strikes := found.d1Strikes + 1 }, ?_, rfl⟩
    show ((e.history.moveToEnd _).set _ _).get? _ = _
    rw [Dict.get?_set, if_pos rfl]
  · exact ⟨found, h, rfl⟩

namespace V2Pipeline

/-- Submitting decisions changes the manager's rules and the engine's strikes, and none of the tables the
detectors or the policy table are in. -/
structure SubmitFrame (s s' : V2Pipeline) : Prop where
  fields : ∃ manager engine drawn emitted, s' = { s with manager, engine, drawn, emitted }
  allowlist : s'.manager.allowlist = s.manager.allowlist
  table : s'.engine.table = s.engine.table

theorem SubmitFrame.refl (s : V2Pipeline) : SubmitFrame s s := ⟨⟨_, _, _, _, rfl⟩, rfl, rfl⟩

theorem SubmitFrame.trans {s s' s'' : V2Pipeline} (h : SubmitFrame s s') (h' : SubmitFrame s' s'') :
    SubmitFrame s s'' := by
  obtain ⟨manager, engine, drawn, emitted, rfl⟩ := h.fields
  obtain ⟨manager', engine', drawn', emitted', rfl⟩ := h'.fields
  exact ⟨⟨_, _, _, _, rfl⟩, h'.allowlist.trans h.allowlist, h'.table.trans h.table⟩

theorem submit_frame (s : V2Pipeline) (env : Env) (hadD1 : Bool) (d : PolicyDecision) :
    SubmitFrame s (s.submit env hadD1 d).2 := by
  have htable : (s.submit env hadD1 d).2.engine.table = s.engine.table := by
    rcases s.submit_engine env hadD1 d with heq | heq
    · rw [heq]
    · rw [heq]
      exact (s.engine.step_settings (.enforced d hadD1)).1
  have hallow := FirewallManager.submitCandidate_allowlist (s.manager.registerDecision ⟨s.uuid s.drawn⟩) env
    (s.candidateOf d env.now)
  refine ⟨?_, ?_, htable⟩
  · unfold submit
    dsimp only
    split
    · exact ⟨_, _, _, _, rfl⟩
    · split
      · exact ⟨_, _, _, _, rfl⟩
      · exact ⟨_, _, _, _, rfl⟩
  · unfold submit
    dsimp only
    split
    · exact hallow
    · split
      · exact hallow
      · exact hallow

theorem submitAll_frame (env : Env) (hadD1 : Bool) (ds : List PolicyDecision) (s : V2Pipeline) :
    SubmitFrame s (submitAll env hadD1 ds s).2 := by
  induction ds generalizing s with
  | nil => exact .refl s
  | cons d rest ih =>
    have hsubmit := s.submit_frame env hadD1 d
    unfold submitAll
    split
    · exact ih s
    · split
      · rename_i heq
        rw [heq] at hsubmit
        exact hsubmit
      · rename_i s' heq
        rw [heq] at hsubmit
        exact hsubmit.trans (ih s')

theorem submitAll_used {key : String} (env : Env) (hadD1 : Bool) {ds : List PolicyDecision}
    (hkey : ∀ d ∈ ds, historyKey d.target = key) {s : V2Pipeline} {found : History}
    (h : s.engine.history.get? key = some found) :
    ((submitAll env hadD1 ds s).2.engine.recalled key).used = found.used := by
  induction ds generalizing s found with
  | nil =>
    show (s.engine.recalled key).used = found.used
    rw [PolicyEngine.recalled, h, Option.getD_some]
  | cons d rest ih =>
    have hrest : ∀ d ∈ rest, historyKey d.target = key := fun d hd => hkey d (List.mem_cons_of_mem _ hd)
    have hsubmit : ∃ after, (s.submit env hadD1 d).2.engine.history.get? key = some after ∧
        after.used = found.used := by
      rcases s.submit_engine env hadD1 d with heq | heq
      · rw [heq]
        exact ⟨found, h, rfl⟩
      · rw [heq, ← hkey d List.mem_cons_self]
        exact PolicyEngine.recordEnforced_used (by rw [hkey d List.mem_cons_self]; exact h) hadD1
    obtain ⟨after, hafter, hused⟩ := hsubmit
    unfold submitAll
    split
    · exact ih hrest h
    · split
      · rename_i heq
        rw [heq] at hafter
        show (PolicyEngine.recalled _ key).used = found.used
        rw [PolicyEngine.recalled, hafter, Option.getD_some, hused]
      · rename_i s' heq
        rw [heq] at hafter
        exact (ih hrest hafter).trans hused

variable {s : V2Pipeline} {env : Env} {mac : Mac} {extra : List D1Evidence}

/-- The ids of the evaluation fit in what the engine remembers. -/
def FitsAt (s : V2Pipeline) (env : Env) (mac : Mac) (extra : List D1Evidence) : Prop :=
  ∀ bundle, s.bundleAt mac env.now extra = some bundle →
    s.engine.Fits (.decide s.isProtected bundle s.manager.enforcementMode env.now)

/-- What an evaluation leaves: the tables as `gather` leaves them, and the same protection and policy table. -/
structure EvaluatedFrame (s : V2Pipeline) (env : Env) (mac : Mac) (s' : V2Pipeline) : Prop where
  d1 : s'.d1 = (s.d1.evaluateDevice mac env.now).2
  corroboration : ∀ now item, item ∈ s'.corroboration mac now → item ∈ s.corroboration mac env.now
  targetOf : s'.targetOf mac = s.targetOf mac
  isProtected : s'.isProtected = s.isProtected
  table : s'.engine.table = s.engine.table

theorem evaluated_frame (s : V2Pipeline) (env : Env) (mac : Mac) (extra : List D1Evidence) :
    EvaluatedFrame s env mac (s.evaluated env mac extra) := by
  have hgathered : EvaluatedFrame s env mac (s.gather mac env.now extra).2 := by
    refine ⟨by rw [gather_eq], fun now item h => corroboration_later h, s.targetOf_gather mac env.now extra, ?_, ?_⟩
    · rw [gather_eq]
      rfl
    · rw [gather_eq]
  cases hbundle : s.bundleAt mac env.now extra with
  | none =>
    obtain ⟨_, aggregateSeen, emitted, heq⟩ := decideFor_none hbundle
    rw [heq]
    exact ⟨hgathered.d1, fun now item h => hgathered.corroboration now item
        (mem_corroboration_of_tables h rfl rfl rfl),
      hgathered.targetOf, hgathered.isProtected, hgathered.table⟩
  | some bundle =>
    let g := (s.gather mac env.now extra).2
    let decided : V2Pipeline := { g with engine := (g.engine.decide g.isProtected bundle
      g.manager.enforcementMode env.now).2 }
    have hframe := submitAll_frame env bundle.hasD1
      (g.engine.decide g.isProtected bundle g.manager.enforcementMode env.now).1 decided
    have hdecided : decided.engine.table = g.engine.table :=
      (g.engine.step_settings (.decide g.isProtected bundle g.manager.enforcementMode env.now)).1
    have heq : s.evaluated env mac extra = (submitAll env bundle.hasD1
        (g.engine.decide g.isProtected bundle g.manager.enforcementMode env.now).1 decided).2 := by
      unfold evaluated
      rw [decideFor_some hbundle]
      rfl
    rw [heq]
    generalize (submitAll env bundle.hasD1
      (g.engine.decide g.isProtected bundle g.manager.enforcementMode env.now).1 decided).2 = s' at hframe
    have hallow := hframe.allowlist
    have htable := hframe.table
    obtain ⟨manager, engine, drawn, emitted, rfl⟩ := hframe.fields
    refine ⟨hgathered.d1, ?_, hgathered.targetOf, ?_, htable.trans (hdecided.trans hgathered.table)⟩
    · exact fun now item h => hgathered.corroboration now item (mem_corroboration_of_tables h rfl rfl rfl)
    · rw [← hgathered.isProtected]
      funext target
      unfold isProtected
      dsimp only
      rw [show manager.allowlist = g.manager.allowlist from hallow]

/-- The ids a device was decided on after an evaluation: those from before, and those of its bundle. -/
theorem contains_evaluated (hfits : s.FitsAt env mac extra) {target : RuleTarget}
    (htarget : s.targetOf mac = some target) (hprotected : s.isProtected target = false) {id : String} :
    ((s.evaluated env mac extra).engine.recalled mac.text).used.contains id = true ↔
      (s.engine.recalled mac.text).used.contains id = true ∨
        ∃ item ∈ (s.gather mac env.now extra).1, item.id = id := by
  have hgathered := Evaluation.gather_engine s mac env.now extra
  cases hbundle : s.bundleAt mac env.now extra with
  | none =>
    -- a device that can be targeted has no bundle only if nothing was gathered
    have hempty : (s.gather mac env.now extra).1 = [] := by
      unfold bundleAt at hbundle
      split at hbundle
      · rename_i hnil
        exact List.isEmpty_iff.mp hnil
      · rw [htarget] at hbundle
        exact absurd hbundle (by simp)
    obtain ⟨_, aggregateSeen, emitted, heq⟩ := decideFor_none hbundle
    rw [heq, hempty]
    show (((s.gather mac env.now extra).2.engine.recalled mac.text).used.contains id = true) ↔ _
    rw [hgathered]
    simp
  | some bundle =>
    obtain ⟨hkey, htarget', hitems, hne⟩ := bundleAt_key hbundle
    obtain rfl := Option.some.inj (htarget'.symm.trans htarget)
    have hquiet : PolicyEngine.quiet s.isProtected bundle = false := by
      unfold PolicyEngine.quiet
      rw [hprotected, Bool.or_false]
      simpa using hne
    let call : PolicyCall := .decide s.isProtected bundle s.manager.enforcementMode env.now
    have hdevice : call.device = some bundle.target := by
      show (if PolicyEngine.quiet s.isProtected bundle then none else some bundle.target) = _
      rw [hquiet]
      rfl
    -- within its memory the engine adds the ids of the bundle to the device
    have hmemory : (s.engine.step call).memory = s.engine.memory.step call :=
      PolicyEngine.memory_step (hfits bundle hbundle)
    have hfound : (s.engine.step call).history.get? mac.text =
        some ((s.engine.recalled mac.text).after bundle) := by
      show (s.engine.step call).memory mac.text = _
      rw [hmemory]
      unfold Memory.step
      rw [hdevice, ← hkey]
      exact Function.update_self _ _ _
    -- the decisions are of this device, so submitting them changes no ids
    have heq : s.evaluated env mac extra = (submitAll env bundle.hasD1
        (s.engine.decide s.isProtected bundle s.manager.enforcementMode env.now).1
        { (s.gather mac env.now extra).2 with engine := s.engine.step call }).2 := by
      unfold evaluated
      rw [decideFor_some hbundle, gather_eq]
      rfl
    have hdecisions : ∀ d ∈ (s.engine.decide s.isProtected bundle s.manager.enforcementMode env.now).1,
        historyKey d.target = mac.text := by
      intro d hd
      rw [s.target_of_mem_decide env bundle hd, hkey]
    rw [heq, submitAll_used env bundle.hasD1 hdecisions hfound, History.contains_after, EvidenceBundle.mem_ids,
      hitems]

/-! ## Buckets -/

/-- The first evaluation decided on an id, whatever the device's own detectors said: the engine remembered it,
or other evidence of the bundle had it. -/
def DecidedOn (s : V2Pipeline) (mac : Mac) (before : Time) (extra : List D1Evidence) (id : String) : Prop :=
  (s.engine.recalled mac.text).used.contains id = true ∨
    (∃ item ∈ s.corroboration mac before, item.id = id) ∨ ∃ d ∈ extra, d.id = id

/-- Everything the second evaluation finds by a detector that acts was decided on in the first.

`own`: a detector of the device above its threshold fired then in the bucket it is in now, or other evidence
had its id. `named`: LAN-wide evidence that names the device now was in the first bundle, or the device's own
detectors fired under its id. -/
structure FiredBefore (s : V2Pipeline) (mac : Mac) (before now : Time) (extra extra' : List D1Evidence) :
    Prop where
  own : ∀ key, s.d1.Fires mac now key → s.engine.table.acting key.detector = true →
    s.DecidedOn mac before extra (d1Id key mac.text (bucket key.windowSeconds now)) ∨
    (s.d1.Fires mac before key ∧ bucket key.windowSeconds before = bucket key.windowSeconds now)
  named : ∀ d ∈ extra', s.engine.table.acting d.detector = true →
    s.DecidedOn mac before extra d.id ∨
    ∃ key, s.d1.Fires mac before key ∧ d1Id key mac.text (bucket key.windowSeconds before) = d.id

/-- The ids of a device's detectors. -/
theorem exists_fired_iff {s : V2Pipeline} {mac : Mac} {before : Time} {id : String} :
    (∃ d ∈ (s.d1.evaluateDevice mac before).1, d.id = id) ↔
      ∃ key, s.d1.Fires mac before key ∧ d1Id key mac.text (bucket key.windowSeconds before) = id := by
  constructor
  · rintro ⟨d, hd, rfl⟩
    obtain ⟨key, value, threshold, hmem, hthreshold, habove, rfl⟩ := D1State.mem_evaluateDevice.mp hd
    exact ⟨key, ⟨value, threshold, hmem, hthreshold, habove⟩, rfl⟩
  · rintro ⟨key, ⟨value, threshold, hmem, hthreshold, habove⟩, rfl⟩
    exact ⟨_, D1State.mem_evaluateDevice.mpr ⟨key, value, threshold, hmem, hthreshold, habove, rfl⟩, rfl⟩

/-- The id of a detector in a bucket is the id of one evaluation's when the detector fired in it, in the same
bucket. -/
theorem fired_id_iff {s : V2Pipeline} {mac : Mac} {before now : Time} {key : ThresholdKey} :
    (∃ d ∈ (s.d1.evaluateDevice mac before).1, d.id = d1Id key mac.text (bucket key.windowSeconds now)) ↔
      s.d1.Fires mac before key ∧ bucket key.windowSeconds before = bucket key.windowSeconds now := by
  rw [exists_fired_iff]
  constructor
  · rintro ⟨key', hfires, hid⟩
    obtain ⟨rfl, hbucket⟩ := d1Id_injective hid
    exact ⟨hfires, hbucket⟩
  · rintro ⟨hfires, hbucket⟩
    exact ⟨key, hfires, by rw [hbucket]⟩

/-- With the shipped table, evidence of detectors alone enforces nothing exactly when no acting one is new. -/
theorem shipped_detectors_iff {l : List Evidence} {sustainedPolls strikes : Nat} {newIds : List String}
    {mode : EnforcementMode} (hd1 : ∀ item ∈ l, ∃ d, item = .d1 d) :
    (∀ c, Matches l shippedTable sustainedPolls strikes newIds c →
      ∀ action ∈ (shippedTable.row c).cell mode, action.enforces = false) ↔ ¬ ActingD1 l shippedTable := by
  constructor
  · intro h hacting
    obtain ⟨c, action, _, hmatch, hcell, haction⟩ := shipped_acting hacting mode
    have hquiet := h c hmatch action hcell
    rcases haction with rfl | rfl
    · exact absurd hquiet (by decide)
    · exact absurd hquiet (by decide)
  · intro hnot c hmatch
    have hkernel : ∀ item, .kernel item ∉ l := by
      intro item hitem
      obtain ⟨d, hd⟩ := hd1 _ hitem
      exact absurd hd (by simp)
    have hml : ∀ item ∈ l, item.isMlHit = false := by
      intro item hitem
      obtain ⟨d, rfl⟩ := hd1 _ hitem
      rfl
    have hnone : ∀ d, .d1 d ∈ l → shippedTable.acting d.detector = false := by
      intro d hd
      by_contra hacting
      exact hnot ⟨d, hd, by simpa using hacting⟩
    cases c with
    | kObserve =>
      obtain ⟨item, hitem, _⟩ := hmatch
      exact absurd hitem (hkernel item)
    | kEnforcePending =>
      obtain ⟨item, hitem, _⟩ := hmatch
      exact absurd hitem (hkernel item)
    | kEnforceSustained =>
      obtain ⟨item, hitem, _⟩ := hmatch
      exact absurd hitem (hkernel item)
    | d1High =>
      obtain ⟨d, hd, hhigh⟩ := hmatch
      exact absurd (hnone d hd) (by simp [PolicyTable.acting, hhigh])
    | d1Standard =>
      obtain ⟨d, hd, hstandard⟩ := hmatch
      exact absurd (hnone d hd) (by simp [PolicyTable.acting, hstandard])
    | d1Escalated =>
      obtain ⟨⟨d, hd, hacting, _⟩, _⟩ := hmatch
      exact absurd (hnone d hd) (by simp [hacting])
    | mlOnly =>
      obtain ⟨⟨item, hitem, hhit⟩, _⟩ := hmatch
      exact absurd (hml item hitem) (by simp [hhit])
    | mlWithD1 =>
      obtain ⟨⟨item, hitem, hhit⟩, _⟩ := hmatch
      exact absurd (hml item hitem) (by simp [hhit])

/-- With the shipped table, and ids that fit in the engine's memory: the second evaluation is settled when every
acting detector above its threshold was decided on by the end of the first. -/
theorem settled_iff_firedBefore {env' : Env} {extra' : List D1Evidence} (hle : env.now ≤ env'.now)
    (htable : s.engine.table = shippedTable) (hfits : s.FitsAt env mac extra) {target : RuleTarget}
    (htarget : s.targetOf mac = some target) (hprotected : s.isProtected target = false) :
    (s.evaluated env mac extra).Settled env' mac extra' ↔
      s.FiredBefore mac env.now env'.now extra extra' := by
  have hframe := s.evaluated_frame env mac extra
  have hused : ∀ id, ((s.evaluated env mac extra).engine.recalled mac.text).used.contains id = true ↔
      (s.engine.recalled mac.text).used.contains id = true ∨
        ∃ item ∈ (s.gather mac env.now extra).1, item.id = id :=
    fun _ => contains_evaluated hfits htarget hprotected
  generalize s.evaluated env mac extra = s' at hframe hused ⊢
  have hfound : (s'.d1.evaluateDevice mac env'.now).1 = (s.d1.evaluateDevice mac env'.now).1 := by
    rw [hframe.d1, D1State.evaluateDevice_again hle]
  -- what corroborates now was in the first bundle already, so only detectors are new
  have hfresh : ∀ bundle, s'.bundleAt mac env'.now extra' = some bundle → ∀ item,
      item ∈ (s'.engine.recalled mac.text).fresh bundle ↔
        ∃ d ∈ (s.d1.evaluateDevice mac env'.now).1 ++ extra',
          item = .d1 d ∧ (s'.engine.recalled mac.text).used.contains d.id = false := by
    intro bundle hbundle item
    obtain ⟨_, _, hitems, _⟩ := bundleAt_key hbundle
    rw [History.mem_fresh, hitems, mem_gather, hfound]
    constructor
    · rintro ⟨hcorroborates | ⟨d, hd, rfl⟩, hnew⟩
      · have hold : item ∈ (s.gather mac env.now extra).1 :=
          s.mem_gather.mpr (.inl (hframe.corroboration _ _ hcorroborates))
        exact absurd ((hused item.id).mpr (.inr ⟨item, hold, rfl⟩)) (by rw [hnew]; exact Bool.false_ne_true)
      · exact ⟨d, hd, rfl, hnew⟩
    · rintro ⟨d, hd, rfl, hnew⟩
      exact ⟨.inr ⟨d, hd, rfl⟩, hnew⟩
  have hsettled : s'.Settled env' mac extra' ↔ ∀ d ∈ (s.d1.evaluateDevice mac env'.now).1 ++ extra',
      shippedTable.acting d.detector = true → (s'.engine.recalled mac.text).used.contains d.id = true := by
    unfold Settled
    rw [hframe.isProtected, hframe.table, htable]
    constructor
    · intro h d hd hacting
      by_contra hnew
      have hitem : Evidence.d1 d ∈ (s'.gather mac env'.now extra').1 :=
        (s'.mem_gather).mpr (.inr ⟨d, by rw [hfound]; exact hd, rfl⟩)
      have hbundle : s'.bundleAt mac env'.now extra' = some ⟨target, (s'.gather mac env'.now extra').1⟩ := by
        unfold bundleAt
        rw [if_neg fun hnil => absurd hitem (by rw [List.isEmpty_iff.mp hnil]; exact List.not_mem_nil),
          hframe.targetOf, htarget]
        rfl
      have hd1 := (shipped_detectors_iff fun item hmem => by
        obtain ⟨d, _, heq, _⟩ := (hfresh _ hbundle item).mp hmem
        exact ⟨d, heq⟩).mp (h _ hbundle hprotected)
      exact hd1 ⟨d, (hfresh _ hbundle _).mpr ⟨d, hd, rfl, by simpa using hnew⟩, hacting⟩
    · intro h bundle hbundle _
      refine (shipped_detectors_iff fun item hmem => ?_).mpr ?_
      · obtain ⟨d, _, heq, _⟩ := (hfresh _ hbundle item).mp hmem
        exact ⟨d, heq⟩
      · rintro ⟨d, hmem, hacting⟩
        obtain ⟨d', hd', heq, hnew⟩ := (hfresh _ hbundle _).mp hmem
        obtain rfl := Evidence.d1.inj heq
        exact absurd (h d hd' hacting) (by rw [hnew]; exact Bool.false_ne_true)
  -- an id the engine has after the first evaluation, by where it came from
  have hwhere : ∀ id, ((s'.engine.recalled mac.text).used.contains id = true) ↔
      s.DecidedOn mac env.now extra id ∨ ∃ d ∈ (s.d1.evaluateDevice mac env.now).1, d.id = id := by
    intro id
    rw [hused]
    simp only [mem_gather, List.mem_append]
    constructor
    · rintro (h | ⟨item, h | ⟨d, hd | hd, rfl⟩, hid⟩)
      · exact .inl (.inl h)
      · exact .inl (.inr (.inl ⟨item, h, hid⟩))
      · exact .inr ⟨d, hd, hid⟩
      · exact .inl (.inr (.inr ⟨d, hd, hid⟩))
    · rintro ((h | ⟨item, h, hid⟩ | ⟨d, hd, hid⟩) | ⟨d, hd, hid⟩)
      · exact .inl h
      · exact .inr ⟨item, .inl h, hid⟩
      · exact .inr ⟨.d1 d, .inr ⟨d, .inr hd, rfl⟩, hid⟩
      · exact .inr ⟨.d1 d, .inr ⟨d, .inl hd, rfl⟩, hid⟩
  rw [hsettled]
  constructor
  · refine fun h => ⟨?_, fun d hd hacting => ?_⟩
    · rintro key ⟨value, threshold, hmem, hthreshold, habove⟩ hacting
      rw [htable] at hacting
      have hin := (hwhere _).mp (h _ (List.mem_append_left _ (D1State.mem_evaluateDevice.mpr
        ⟨key, value, threshold, hmem, hthreshold, habove, rfl⟩)) hacting)
      rwa [fired_id_iff] at hin
    · rw [htable] at hacting
      have hin := (hwhere _).mp (h d (List.mem_append_right _ hd) hacting)
      rwa [exists_fired_iff] at hin
  · intro h d hd hacting
    apply (hwhere _).mpr
    rcases List.mem_append.mp hd with hd | hd
    · obtain ⟨key, value, threshold, hmem, hthreshold, habove, rfl⟩ := D1State.mem_evaluateDevice.mp hd
      have hown := h.own key ⟨value, threshold, hmem, hthreshold, habove⟩ (by rw [htable]; exact hacting)
      rwa [← fired_id_iff] at hown
    · have hnamed := h.named d hd (by rw [htable]; exact hacting)
      rwa [← exists_fired_iff] at hnamed

/-- A device is evaluated, its decisions are taken, and it is evaluated again with nothing observed in between:
for every state of the detectors, the engine and the manager, and whatever evidence of the LAN-wide detectors
names the device either time, the second evaluation enforces nothing and gives no strike exactly when no row its
new evidence matches enforces. With the shipped table, for a device that can be targeted, and ids that fit in
the engine's memory, that is when every acting detector above its threshold fired in the first evaluation in
the same bucket, or was decided on before. -/
theorem reevaluation_iff (s : V2Pipeline) (env env' : Env) (mac : Mac) (extra extra' : List D1Evidence)
    (hle : env.now ≤ env'.now) :
    ((s.evaluated env mac extra).NoEscalation env' mac extra' ↔
        (s.evaluated env mac extra).Settled env' mac extra') ∧
      (s.engine.table = shippedTable → s.FitsAt env mac extra → ∀ target, s.targetOf mac = some target →
        s.isProtected target = false →
        ((s.evaluated env mac extra).NoEscalation env' mac extra' ↔
          s.FiredBefore mac env.now env'.now extra extra')) := by
  refine ⟨noEscalation_iff_settled, fun htable hfits target htarget hprotected => ?_⟩
  rw [noEscalation_iff_settled]
  exact settled_iff_firedBefore hle htable hfits htarget hprotected

/-- Two evaluations in one bucket of each window. -/
theorem reevaluation_iff_same_bucket :
    ((slowCluster .active).evaluated (siteEnv 2000000) culpritMac []).Settled (siteEnv 9500000) culpritMac [] := by
  refine (reevaluation_iff _ _ _ _ _ _ (by decide)).1.mp ⟨?_, ?_⟩
  · decide +kernel
  · decide +kernel

/-- The slow connections of one moment, decided on before a bucket boundary of the ten-second window and after
it: the second time they are new evidence of a device with a strike, and the device is blocked. -/
theorem bucket_boundary_escalates :
    ((slowCluster .active).decisionsAt (siteEnv 9500000) culpritMac []).map (fun d => (d.action, d.ttlSeconds)) =
      [(.rateLimit, some 300)] ∧
    (((slowCluster .active).evaluated (siteEnv 9500000) culpritMac []).decisionsAt (siteEnv 10500000)
      culpritMac []).map (fun d => (d.action, d.ttlSeconds)) = [(.block, some 1800)] ∧
    ¬ ((slowCluster .active).evaluated (siteEnv 9500000) culpritMac []).NoEscalation (siteEnv 10500000)
      culpritMac [] := by
  refine ⟨by decide +kernel, by decide +kernel, fun h => ?_⟩
  exact absurd h.strikes (by decide +kernel)

end V2Pipeline

end Pirewall
