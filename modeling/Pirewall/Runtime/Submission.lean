/-
# Pirewall.Runtime.Submission -- what one bundle does to the strikes

A strike is an accepted enforcing decision on a bundle with D1 evidence. The engine keeps the strikes of a
device in its history, deciding leaves them alone, and `record_enforced` adds one; so the strikes a bundle
gives are those of the submissions that the manager made a rule of (`strikes_submitAll`).

Nearly every bundle is one enforcing decision at most. `HoldsAndLimits` is the exception: in ASSISTED the rows
of a bundle may hold a BLOCK for approval and limit at once, and when the manager makes a rule of both, the
bundle counts twice. `strikes_submitted_two` says that it then does, `strikes_submitted_le` that no other
bundle does. The early returns of `decide` are folded into `_decisions` first (`decide_decisions`): whether a
bundle decides anything is a matter of the rows its new evidence matches.
-/
import Pirewall.Runtime.PipelineV2

namespace Pirewall

open Lib

/-! ## Strikes in the engine -/

namespace PolicyEngine

variable {e e' : PolicyEngine} {key : String}

theorem strikes_of_some {found : History} (h : e.history.get? key = some found) :
    e.strikes key = found.d1Strikes := by
  rw [strikes, recalled, h, Option.getD_some]

/-- A device has no more strikes when every history it is found with has no more. -/
theorem strikes_le {n : Nat} (h : ∀ found, e'.history.get? key = some found → found.d1Strikes ≤ n) :
    e'.strikes key ≤ n := by
  cases hget : e'.history.get? key with
  | none =>
    rw [strikes, recalled, hget]
    exact Nat.zero_le _
  | some found =>
    rw [strikes_of_some hget]
    exact h found hget

/-- Looking a device up gives no strike; a device that is dropped to make room loses its own. -/
theorem strikes_historyFor (e : PolicyEngine) (target : RuleTarget) (key : String) :
    (e.historyFor target).2.strikes key ≤ e.strikes key := by
  refine strikes_le fun found hfound => ?_
  unfold historyFor at hfound
  cases hget : e.history.get? (historyKey target) with
  | none =>
    rw [hget] at hfound
    have hset : (e.history.set (historyKey target) .new).get? key = some found := by
      dsimp only at hfound
      split at hfound
      · exact Dict.get?_of_popFirst hfound
      · exact hfound
    rw [Dict.get?_set] at hset
    split at hset
    · rw [← Option.some.inj hset]
      exact Nat.zero_le _
    · exact (strikes_of_some hset).ge
  | some known =>
    rw [hget] at hfound
    simp only [Dict.get?_moveToEnd] at hfound
    exact (strikes_of_some hfound).ge

/-- Writing a history changes the strikes of its device only. -/
theorem strikes_put (e : PolicyEngine) (target : RuleTarget) (history : History) (key : String) :
    (e.put target history).strikes key =
      if key = historyKey target then history.d1Strikes else e.strikes key := by
  unfold strikes recalled put
  simp only [Dict.get?_set]
  split
  · rfl
  · rfl

/-- Deciding gives no strike. -/
theorem strikes_decide (e : PolicyEngine) (isProtected : RuleTarget → Bool) (bundle : EvidenceBundle)
    (mode : EnforcementMode) (now : Time) (key : String) :
    (e.decide isProtected bundle mode now).2.strikes key ≤ e.strikes key := by
  have hlookup := e.strikes_historyFor bundle.target key
  have hremember : ((e.historyFor bundle.target).2.remember bundle.target (e.historyFor bundle.target).1
      bundle.ids).strikes key ≤ e.strikes key := by
    rw [remember, strikes_put]
    split
    · rename_i heq
      rw [historyFor_fst, heq]
      exact le_refl _
    · exact hlookup
  simp only [decide]
  split
  · exact le_refl _
  · split
    · exact hlookup
    · split
      · exact hremember
      · exact hremember

/-- A recorded decision gives one strike, to its device, when it enforces and D1 evidence was there. -/
theorem strikes_recordEnforced (e : PolicyEngine) (decision : PolicyDecision) (hadD1 : Bool) (key : String) :
    (e.recordEnforced decision hadD1).strikes key ≤ e.strikes key +
      if hadD1 = true ∧ decision.action.restrictive = true ∧ historyKey decision.target = key then 1 else 0 := by
  have hlookup := e.strikes_historyFor decision.target key
  unfold recordEnforced
  split
  · rename_i hcounts
    obtain ⟨hd1, hrestrictive⟩ := Bool.and_eq_true_iff.mp hcounts
    rw [strikes_put]
    split
    · rename_i heq
      rw [historyFor_fst, if_pos ⟨hd1, hrestrictive, heq.symm⟩, heq]
      exact le_refl _
    · exact hlookup.trans (Nat.le_add_right _ _)
  · exact Nat.le_add_right _ _

/-- On its own device a recorded decision that enforces, with D1 evidence there, gives exactly one. -/
theorem strikes_recordEnforced_own (e : PolicyEngine) {decision : PolicyDecision}
    (h : decision.action.restrictive = true) :
    (e.recordEnforced decision true).strikes (historyKey decision.target) =
      e.strikes (historyKey decision.target) + 1 := by
  unfold recordEnforced
  rw [h, Bool.and_self, if_pos rfl, strikes_put, if_pos rfl, historyFor_fst]
  rfl

/-- Deciding on a bundle with new evidence keeps the strikes of its device: it is remembered with them. -/
theorem strikes_decide_own (e : PolicyEngine) {isProtected : RuleTarget → Bool} {bundle : EvidenceBundle}
    (mode : EnforcementMode) (now : Time)
    (h : (e.recalled (historyKey bundle.target)).newIds bundle ≠ []) :
    (e.decide isProtected bundle mode now).2.strikes (historyKey bundle.target) =
      e.strikes (historyKey bundle.target) := by
  have hremember : ((e.historyFor bundle.target).2.remember bundle.target (e.historyFor bundle.target).1
      bundle.ids).strikes (historyKey bundle.target) = e.strikes (historyKey bundle.target) := by
    rw [remember, strikes_put, if_pos rfl, historyFor_fst]
    rfl
  simp only [decide]
  split
  · rfl
  · split
    · rename_i hnone
      rw [historyFor_fst] at hnone
      exact absurd (List.isEmpty_iff.mp hnone) h
    · split
      · exact hremember
      · exact hremember

end PolicyEngine

/-! ## The decisions of one bundle -/

/-- The rows of a bundle's new evidence both ask for a BLOCK and limit, and none blocks at once: the one case
in which `_decisions` returns two enforcing decisions. -/
def TwoActions (actions : List TableAction) : Prop :=
  .blockApproval ∈ actions ∧ .rateLimit ∈ actions ∧ .block ∉ actions

/-- Only ASSISTED has an approval queue. -/
theorem TwoActions.assisted {history : History} {table : PolicyTable} {config : PolicyConfig}
    {bundle : EvidenceBundle} {mode : EnforcementMode}
    (h : TwoActions (history.actions table config bundle mode)) : mode = .assisted := by
  obtain ⟨c, _, hcell⟩ := History.mem_actions.mp h.1
  cases mode with
  | assisted => rfl
  | shadow => exact absurd hcell (table.row c).no_approval_in_active
  | active => exact absurd hcell (table.row c).no_approval_in_active

section Shape

variable (config : PolicyConfig) (bundle : EvidenceBundle) (escalate : Bool) (history : History)
  (ids : List String) (now : Time) {actions : List TableAction}

/-- Two actions are two decisions: the BLOCK that waits, and the RATE_LIMIT in the meantime. -/
theorem decisions_of_twoActions (h : TwoActions actions) :
    decisions config bundle escalate history ids now actions =
      [blockHeld config bundle escalate history ids now, rateLimitNow config bundle ids now] := by
  obtain ⟨happroval, hrate, hblock⟩ := h
  simp [decisions, strongest, hblock, happroval, hrate]

/-- Any other actions are one decision at most, or none that enforces. -/
theorem enforcing_of_not_twoActions (h : ¬ TwoActions actions) :
    ((decisions config bundle escalate history ids now actions).filter fun d => d.action.restrictive).length ≤
      1 := by
  have hlength := congrArg List.length (enforcing_decisions config bundle escalate history ids now actions)
  rw [enforcing, List.length_map] at hlength
  rw [hlength]
  by_cases hblock : TableAction.block ∈ actions
  · rw [if_neg fun hboth => hboth.2 hblock, if_pos hblock]
    exact le_refl _
  · rw [if_neg hblock]
    by_cases happroval : TableAction.blockApproval ∈ actions
    · rw [if_pos ⟨happroval, hblock⟩, if_neg fun hrate => h ⟨happroval, hrate, hblock⟩]
      exact le_refl _
    · rw [if_neg fun hboth => happroval hboth.1]
      split
      · exact le_refl _
      · exact Nat.zero_le _

/-- Rows that only log are no decision, and the actions of any other row are. -/
theorem decisions_eq_nil_iff :
    decisions config bundle escalate history ids now actions = [] ↔ ∀ action ∈ actions, action = .log := by
  by_cases hblock : TableAction.block ∈ actions
  · have hsome : decisions config bundle escalate history ids now actions ≠ [] := by
      simp [decisions, strongest, hblock]
    exact ⟨fun h => absurd h hsome, fun h => absurd (h _ hblock) (by decide)⟩
  by_cases hrate : TableAction.rateLimit ∈ actions
  · have hsome : decisions config bundle escalate history ids now actions ≠ [] := by
      simp [decisions, strongest, hblock, hrate]
    exact ⟨fun h => absurd h hsome, fun h => absurd (h _ hrate) (by decide)⟩
  by_cases happroval : TableAction.blockApproval ∈ actions
  · have hsome : decisions config bundle escalate history ids now actions ≠ [] := by
      by_cases hmonitor : TableAction.monitor ∈ actions
      · simp [decisions, strongest, hblock, hrate, happroval, hmonitor]
      · simp [decisions, strongest, hblock, hrate, happroval, hmonitor]
    exact ⟨fun h => absurd h hsome, fun h => absurd (h _ happroval) (by decide)⟩
  by_cases hmonitor : TableAction.monitor ∈ actions
  · have hsome : decisions config bundle escalate history ids now actions ≠ [] := by
      simp [decisions, strongest, hblock, hrate, happroval, hmonitor]
    exact ⟨fun h => absurd h hsome, fun h => absurd (h _ hmonitor) (by decide)⟩
  · refine ⟨fun _ action haction => ?_, fun _ => by simp [decisions, strongest, hblock, hrate, happroval, hmonitor]⟩
    cases action with
    | log => rfl
    | monitor => exact absurd haction hmonitor
    | rateLimit => exact absurd haction hrate
    | block => exact absurd haction hblock
    | blockApproval => exact absurd haction happroval

end Shape

namespace History

variable (history : History) (table : PolicyTable) (config : PolicyConfig) (bundle : EvidenceBundle)
  (mode : EnforcementMode) (now : Time)

theorem fresh_of_newIds_nil {history : History} {bundle : EvidenceBundle} (h : history.newIds bundle = []) :
    history.fresh bundle = [] := by
  unfold fresh
  rw [h]
  exact List.filter_eq_nil_iff.mpr fun _ _ => by simp

/-- Without new evidence no row matches, so there is nothing to act on. -/
theorem actions_of_newIds_nil {history : History} {bundle : EvidenceBundle} (h : history.newIds bundle = []) :
    history.actions table config bundle mode = [] := by
  unfold actions
  rw [fresh_of_newIds_nil h]
  rfl

/-- The early returns of `decide` are where `_decisions` would return nothing. -/
theorem decide_eq :
    history.decide table config bundle mode now =
      decisions config bundle (history.escalates table config bundle) history bundle.ids now
        (history.actions table config bundle mode) := by
  simp only [History.decide]
  split
  · rename_i hnone
    rw [actions_of_newIds_nil table config mode (List.isEmpty_iff.mp hnone)]
    rfl
  · split
    · rename_i hclasses
      unfold actions
      rw [List.isEmpty_iff.mp hclasses]
      rfl
    · rfl

end History

/-- The decisions of a bundle are on its device. -/
theorem target_of_mem_decisions {config : PolicyConfig} {bundle : EvidenceBundle} {escalate : Bool}
    {history : History} {ids : List String} {now : Time} {actions : List TableAction} {d : PolicyDecision}
    (h : d ∈ decisions config bundle escalate history ids now actions) : d.target = bundle.target := by
  rcases mem_decisions h with ⟨rfl, _⟩ | ⟨rfl, _⟩ | ⟨rfl, _⟩ | ⟨rfl, _⟩
  · rfl
  · rfl
  · rfl
  · rfl

/-! ## Submitting -/

/-- How many decisions of a list enforce on a device. -/
def enforcingOn (key : String) (ds : List PolicyDecision) : Nat :=
  (ds.filter fun d => d.action.restrictive && decide (historyKey d.target = key)).length

namespace V2Pipeline

variable {s : V2Pipeline} {env : Env} {hadD1 : Bool}

/-- The manager makes a rule of a decision, whatever becomes of the rule. -/
def makesRule (s : V2Pipeline) (env : Env) (d : PolicyDecision) : Bool :=
  match ((s.manager.registerDecision ⟨s.uuid s.drawn⟩).submitCandidate env (s.candidateOf d env.now)).1 with
  | .error _ => false
  | .ok result => result.rule.isSome

/-- A decision is recorded when the manager made a rule of it, and then the submission came through. -/
theorem submit_makesRule (s : V2Pipeline) (env : Env) (hadD1 : Bool) (d : PolicyDecision) :
    (s.submit env hadD1 d).2.engine =
        (if s.makesRule env d = true then s.engine.recordEnforced d hadD1 else s.engine) ∧
      (s.makesRule env d = true → (s.submit env hadD1 d).1 = .ok ()) := by
  unfold makesRule submit
  generalize (s.manager.registerDecision ⟨s.uuid s.drawn⟩).submitCandidate env (s.candidateOf d env.now) = submitted
  obtain ⟨answer, manager⟩ := submitted
  cases answer with
  | error e => exact ⟨rfl, fun h => absurd h Bool.false_ne_true⟩
  | ok result =>
    obtain ⟨rule, event⟩ := result
    cases rule with
    | none => exact ⟨rfl, fun _ => rfl⟩
    | some rule => exact ⟨rfl, fun _ => rfl⟩

theorem submit_engine (s : V2Pipeline) (env : Env) (hadD1 : Bool) (d : PolicyDecision) :
    (s.submit env hadD1 d).2.engine = s.engine ∨
      (s.submit env hadD1 d).2.engine = s.engine.recordEnforced d hadD1 := by
  rw [(s.submit_makesRule env hadD1 d).1]
  split
  · exact .inr rfl
  · exact .inl rfl

theorem strikes_submit (s : V2Pipeline) (env : Env) (hadD1 : Bool) (d : PolicyDecision) (key : String) :
    (s.submit env hadD1 d).2.engine.strikes key ≤
      s.engine.strikes key + if hadD1 = true then enforcingOn key [d] else 0 := by
  have hrecord := s.engine.strikes_recordEnforced d hadD1 key
  rcases s.submit_engine env hadD1 d with heq | heq
  · rw [heq]
    exact Nat.le_add_right _ _
  · rw [heq]
    refine hrecord.trans (Nat.add_le_add_left ?_ _)
    split
    · rename_i hcounts
      obtain ⟨hd1, hrestrictive, hkey⟩ := hcounts
      rw [if_pos hd1]
      simp [enforcingOn, hrestrictive, hkey]
    · exact Nat.zero_le _

theorem enforcingOn_cons (key : String) (d : PolicyDecision) (rest : List PolicyDecision) :
    enforcingOn key (d :: rest) = enforcingOn key [d] + enforcingOn key rest := by
  show ((([d] ++ rest).filter _).length) = _
  rw [List.filter_append, List.length_append]
  rfl

/-- Submitting a bundle's decisions gives at most one strike for each that enforces, when the bundle has D1
evidence, and none otherwise. -/
theorem strikes_submitAll (env : Env) (hadD1 : Bool) (ds : List PolicyDecision) (s : V2Pipeline)
    (key : String) :
    (submitAll env hadD1 ds s).2.engine.strikes key ≤
      s.engine.strikes key + if hadD1 = true then enforcingOn key ds else 0 := by
  induction ds generalizing s with
  | nil => exact Nat.le_add_right _ _
  | cons d rest ih =>
    have hsplit : (if hadD1 = true then enforcingOn key (d :: rest) else 0) =
        (if hadD1 = true then enforcingOn key [d] else 0) +
          if hadD1 = true then enforcingOn key rest else 0 := by
      rw [enforcingOn_cons]
      split
      · rfl
      · rfl
    have hsubmit := s.strikes_submit env hadD1 d key
    unfold submitAll
    split
    · exact (ih s).trans (by omega)
    · split
      · rename_i heq
        rw [heq] at hsubmit
        exact hsubmit.trans (by omega)
      · rename_i s' heq
        rw [heq] at hsubmit
        have hafter : s'.engine.strikes key ≤
            s.engine.strikes key + if hadD1 = true then enforcingOn key [d] else 0 := hsubmit
        exact (ih s').trans (by omega)

/-- While a BLOCK of the device waits, decisions that would wait too are passed over. -/
theorem submitAll_held {held : List PolicyDecision} (rest : List PolicyDecision)
    (h : ∀ d ∈ held, d.requiresApproval = true ∧ s.approvalPending d.target = true) :
    submitAll env hadD1 (held ++ rest) s = submitAll env hadD1 rest s := by
  induction held with
  | nil => rfl
  | cons d held ih =>
    obtain ⟨happroval, hpending⟩ := h d List.mem_cons_self
    rw [List.cons_append, submitAll, happroval, hpending, Bool.and_self, if_pos rfl]
    exact ih fun d hd => h d (List.mem_cons_of_mem _ hd)

/-- A decision the manager makes no rule of gives no strike, and the rest may follow. -/
theorem strikes_submitAll_refused (hadD1 : Bool) {d : PolicyDecision} (rest : List PolicyDecision)
    (h : s.makesRule env d = false) (key : String) :
    (submitAll env hadD1 (d :: rest) s).2.engine.strikes key ≤
      s.engine.strikes key + if hadD1 = true then enforcingOn key rest else 0 := by
  have hengine : (s.submit env hadD1 d).2.engine = s.engine := by
    rw [(s.submit_makesRule env hadD1 d).1, h]
    rfl
  unfold submitAll
  split
  · exact strikes_submitAll env hadD1 rest s key
  · split
    · rename_i heq
      rw [heq] at hengine
      show PolicyEngine.strikes _ key ≤ _
      rw [hengine]
      exact Nat.le_add_right _ _
    · rename_i s' heq
      rw [heq] at hengine
      have hrest := strikes_submitAll env hadD1 rest s' key
      rwa [show s'.engine = s.engine from hengine] at hrest

/-- A decision the manager makes a rule of is submitted, and the rest follows. -/
theorem submitAll_of_makesRule {d : PolicyDecision} (rest : List PolicyDecision)
    (hfree : (d.requiresApproval && s.approvalPending d.target) = false) (hrule : s.makesRule env d = true) :
    submitAll env hadD1 (d :: rest) s = submitAll env hadD1 rest (s.submit env hadD1 d).2 := by
  have hok := (s.submit_makesRule env hadD1 d).2 hrule
  rw [submitAll, hfree, if_neg Bool.false_ne_true]
  generalize s.submit env hadD1 d = submitted at hok ⊢
  obtain ⟨answer, s'⟩ := submitted
  obtain rfl : answer = .ok () := hok
  rfl

theorem strikes_submit_own {d : PolicyDecision} (hrestrictive : d.action.restrictive = true)
    (hrule : s.makesRule env d = true) :
    (s.submit env true d).2.engine.strikes (historyKey d.target) =
      s.engine.strikes (historyKey d.target) + 1 := by
  rw [(s.submit_makesRule env true d).1, if_pos hrule]
  exact s.engine.strikes_recordEnforced_own hrestrictive

/-! ## What one bundle does to the strikes -/

section Bundle

variable (s : V2Pipeline) (env : Env) (bundle : EvidenceBundle)

/-- What the engine remembers of the device of a bundle. -/
def memoryOf : History := s.engine.recalled (historyKey bundle.target)

/-- The actions of the rows that the new evidence of a bundle matches, in the current mode. -/
def actionsOn : List TableAction :=
  (s.memoryOf bundle).actions s.engine.table s.engine.config bundle s.manager.enforcementMode

/-- The pipeline once the engine decided on a bundle. -/
def decided : V2Pipeline :=
  { s with engine := (s.engine.decide s.isProtected bundle s.manager.enforcementMode env.now).2 }

/-- And once its decisions were submitted. -/
def submitted : V2Pipeline :=
  (submitAll env bundle.hasD1
    (s.engine.decide s.isProtected bundle s.manager.enforcementMode env.now).1 (s.decided env bundle)).2

/-- The BLOCK of a bundle that would wait for approval. -/
def heldBlock : PolicyDecision :=
  blockHeld s.engine.config bundle ((s.memoryOf bundle).escalates s.engine.table s.engine.config bundle)
    (s.memoryOf bundle) bundle.ids env.now

/-- The RATE_LIMIT of a bundle. -/
def limitNow : PolicyDecision := rateLimitNow s.engine.config bundle bundle.ids env.now

/-- The branch that gives two strikes for one bundle: it has D1 evidence, its rows ask for a held BLOCK and a
RATE_LIMIT, no BLOCK of the device waits yet, and the manager makes a rule of the one and then of the other. -/
structure HoldsAndLimits : Prop where
  hasD1 : bundle.hasD1 = true
  rows : TwoActions (s.actionsOn bundle)
  free : s.approvalPending bundle.target = false
  held : (s.decided env bundle).makesRule env (s.heldBlock env bundle) = true
  limit : ((s.decided env bundle).submit env true (s.heldBlock env bundle)).2.makesRule env
    (s.limitNow env bundle) = true

/-- The decisions on a bundle, from the actions of its rows. -/
theorem decide_decisions :
    (s.engine.decide s.isProtected bundle s.manager.enforcementMode env.now).1 =
      if s.isProtected bundle.target then []
      else decisions s.engine.config bundle
        ((s.memoryOf bundle).escalates s.engine.table s.engine.config bundle) (s.memoryOf bundle) bundle.ids
        env.now (s.actionsOn bundle) := by
  rw [PolicyEngine.decide_fst, History.decide_eq]
  unfold PolicyEngine.quiet
  cases hempty : bundle.evidence.isEmpty with
  | false => rfl
  | true =>
    have hnone : (s.memoryOf bundle).newIds bundle = [] := by
      refine List.eq_nil_iff_forall_not_mem.mpr fun id hid => ?_
      obtain ⟨item, hitem, _⟩ := EvidenceBundle.mem_ids.mp (History.mem_newIds.mp hid).1
      rw [List.isEmpty_iff.mp hempty] at hitem
      exact absurd hitem List.not_mem_nil
    unfold actionsOn
    rw [History.actions_of_newIds_nil _ _ _ hnone]
    show [] = _
    split
    · rfl
    · rfl

/-- The decisions on a bundle are on its device. -/
theorem target_of_mem_decide {d : PolicyDecision}
    (h : d ∈ (s.engine.decide s.isProtected bundle s.manager.enforcementMode env.now).1) :
    d.target = bundle.target := by
  rw [decide_decisions] at h
  split at h
  · exact absurd h List.not_mem_nil
  · exact target_of_mem_decisions h

variable {s env bundle}

/-- A bundle decides something when its device is not protected and a row it matches does more than log. -/
theorem decide_ne_nil_iff :
    (s.engine.decide s.isProtected bundle s.manager.enforcementMode env.now).1 ≠ [] ↔
      s.isProtected bundle.target = false ∧ ∃ action ∈ s.actionsOn bundle, action ≠ .log := by
  rw [decide_decisions]
  cases s.isProtected bundle.target with
  | true => simp
  | false =>
    rw [if_neg Bool.false_ne_true, ne_eq, decisions_eq_nil_iff]
    push Not
    exact ⟨fun h => ⟨rfl, h⟩, fun h => h.2⟩

theorem strikes_decided_le (key : String) :
    (s.decided env bundle).engine.strikes key ≤ s.engine.strikes key :=
  s.engine.strikes_decide _ _ _ _ _

theorem enforcingOn_le_length (key : String) (ds : List PolicyDecision) : enforcingOn key ds ≤ ds.length :=
  List.length_filter_le _ _

/-- Outside its branch a bundle gives one strike at most. -/
theorem strikes_submitted_le (h : ¬ s.HoldsAndLimits env bundle) (key : String) :
    (s.submitted env bundle).engine.strikes key ≤ s.engine.strikes key + 1 := by
  have hdecided : (s.decided env bundle).engine.strikes key ≤ s.engine.strikes key := strikes_decided_le key
  -- one enforcing decision is one strike at most
  have hone : ∀ {ds : List PolicyDecision}, enforcingOn key ds ≤ 1 →
      (submitAll env bundle.hasD1 ds (s.decided env bundle)).2.engine.strikes key ≤
        s.engine.strikes key + 1 := by
    intro ds hds
    have hsubmit := strikes_submitAll env bundle.hasD1 ds (s.decided env bundle) key
    split at hsubmit
    · omega
    · omega
  unfold submitted
  rw [decide_decisions]
  split
  · exact hone (Nat.zero_le _)
  · by_cases hrows : TwoActions (s.actionsOn bundle)
    · rw [decisions_of_twoActions _ _ _ _ _ _ hrows]
      show (submitAll env bundle.hasD1 [s.heldBlock env bundle, s.limitNow env bundle]
        (s.decided env bundle)).2.engine.strikes key ≤ _
      have hlast : enforcingOn key [s.limitNow env bundle] ≤ 1 := enforcingOn_le_length _ _
      by_cases hfree : s.approvalPending bundle.target = true
      · -- the BLOCK that waits already is not asked for again
        rw [show [s.heldBlock env bundle, s.limitNow env bundle] =
          [s.heldBlock env bundle] ++ [s.limitNow env bundle] from rfl, submitAll_held _ fun d hd => by
            rw [List.mem_singleton.mp hd]
            exact ⟨rfl, hfree⟩]
        exact hone hlast
      cases hheld : (s.decided env bundle).makesRule env (s.heldBlock env bundle) with
      | false =>
        have hrefused := strikes_submitAll_refused bundle.hasD1 [s.limitNow env bundle] hheld key
        split at hrefused
        · omega
        · omega
      | true =>
        have hskip : ((s.heldBlock env bundle).requiresApproval &&
            (s.decided env bundle).approvalPending (s.heldBlock env bundle).target) = false := by
          rw [Bool.and_eq_false_iff]
          exact .inr (Bool.not_eq_true _ ▸ hfree)
        rw [submitAll_of_makesRule _ hskip hheld]
        cases hd1 : bundle.hasD1 with
        | false =>
          have hsubmit := (s.decided env bundle).strikes_submit env false (s.heldBlock env bundle) key
          have hrest := strikes_submitAll env false [s.limitNow env bundle]
            ((s.decided env bundle).submit env false (s.heldBlock env bundle)).2 key
          rw [if_neg Bool.false_ne_true] at hsubmit hrest
          omega
        | true =>
          have hlimit : ((s.decided env bundle).submit env true (s.heldBlock env bundle)).2.makesRule env
              (s.limitNow env bundle) = false := by
            rw [← Bool.not_eq_true]
            exact fun hrule => h ⟨hd1, hrows, Bool.not_eq_true _ ▸ hfree, hheld, hrule⟩
          have hsubmit := (s.decided env bundle).strikes_submit env true (s.heldBlock env bundle) key
          have hrest := strikes_submitAll_refused true [] hlimit key
          have hfirst : enforcingOn key [s.heldBlock env bundle] ≤ 1 := enforcingOn_le_length _ _
          rw [if_pos rfl] at hsubmit hrest
          have hnil : enforcingOn key [] = 0 := rfl
          omega
    · refine hone (le_trans (List.Sublist.length_le ?_) (enforcing_of_not_twoActions s.engine.config bundle
        ((s.memoryOf bundle).escalates s.engine.table s.engine.config bundle) (s.memoryOf bundle) bundle.ids
        env.now hrows))
      exact List.monotone_filter_right _ fun d hd => (Bool.and_eq_true_iff.mp hd).1

/-- In its branch a bundle gives exactly two. -/
theorem strikes_submitted_two (hprotected : s.isProtected bundle.target = false)
    (h : s.HoldsAndLimits env bundle) :
    (s.submitted env bundle).engine.strikes (historyKey bundle.target) =
      s.engine.strikes (historyKey bundle.target) + 2 := by
  have hnew : (s.engine.recalled (historyKey bundle.target)).newIds bundle ≠ [] := by
    intro hnone
    have hrate := h.rows.2.1
    unfold actionsOn memoryOf at hrate
    rw [History.actions_of_newIds_nil _ _ _ hnone] at hrate
    exact absurd hrate List.not_mem_nil
  have hskip : ((s.heldBlock env bundle).requiresApproval &&
      (s.decided env bundle).approvalPending (s.heldBlock env bundle).target) = false := by
    rw [Bool.and_eq_false_iff]
    exact .inr h.free
  have hdecided : (s.decided env bundle).engine.strikes (historyKey bundle.target) =
      s.engine.strikes (historyKey bundle.target) := s.engine.strikes_decide_own _ _ hnew
  have hfirst : ((s.decided env bundle).submit env true (s.heldBlock env bundle)).2.engine.strikes
      (historyKey bundle.target) = (s.decided env bundle).engine.strikes (historyKey bundle.target) + 1 :=
    strikes_submit_own (d := s.heldBlock env bundle) rfl h.held
  have hsecond : (((s.decided env bundle).submit env true (s.heldBlock env bundle)).2.submit env true
      (s.limitNow env bundle)).2.engine.strikes (historyKey bundle.target) =
      ((s.decided env bundle).submit env true (s.heldBlock env bundle)).2.engine.strikes
        (historyKey bundle.target) + 1 :=
    strikes_submit_own (d := s.limitNow env bundle) rfl h.limit
  unfold submitted
  rw [decide_decisions, hprotected, if_neg Bool.false_ne_true, decisions_of_twoActions _ _ _ _ _ _ h.rows, h.hasD1]
  show (submitAll env true [s.heldBlock env bundle, s.limitNow env bundle]
    (s.decided env bundle)).2.engine.strikes _ = _
  rw [submitAll_of_makesRule _ hskip h.held, submitAll_of_makesRule _ rfl h.limit]
  show (((s.decided env bundle).submit env true (s.heldBlock env bundle)).2.submit env true
    (s.limitNow env bundle)).2.engine.strikes _ = _
  omega

/-- A bundle gives no strike to another device. -/
theorem strikes_submitted_other {key : String} (hkey : historyKey bundle.target ≠ key) :
    (s.submitted env bundle).engine.strikes key ≤ s.engine.strikes key := by
  have hsubmit := strikes_submitAll env bundle.hasD1
    (s.engine.decide s.isProtected bundle s.manager.enforcementMode env.now).1 (s.decided env bundle) key
  have hnone : enforcingOn key
      (s.engine.decide s.isProtected bundle s.manager.enforcementMode env.now).1 = 0 := by
    refine List.length_eq_zero_iff.mpr (List.filter_eq_nil_iff.mpr fun d hd => ?_)
    rw [s.target_of_mem_decide env bundle hd, decide_eq_false hkey, Bool.and_false]
    exact Bool.false_ne_true
  rw [hnone, ite_self] at hsubmit
  exact hsubmit.trans (strikes_decided_le key)

/-- A bundle that nothing is decided on gives no strike at all. -/
theorem strikes_submitted_of_nil
    (h : (s.engine.decide s.isProtected bundle s.manager.enforcementMode env.now).1 = []) (key : String) :
    (s.submitted env bundle).engine.strikes key ≤ s.engine.strikes key := by
  unfold submitted
  rw [h]
  exact strikes_decided_le key

end Bundle

end V2Pipeline

end Pirewall
