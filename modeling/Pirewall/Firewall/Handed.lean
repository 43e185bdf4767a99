/-
# Pirewall.Firewall.Handed -- the batches the manager hands to its set backend

`SetBackend.apply` is where an op leaves the manager: a batch goes there whole, and is refused whole if one of its ops
fails `validate_element`. `handed` is the batches a call hands over, whatever becomes of them there. `step_applyAll`
says that they are all a call does to the kernel sets after it has read, flushed or deleted.

The batches are computed beside the manager, by functions that follow its calls and stop where the call hands over:
`submitBatches` after the chain has admitted the candidate, `approveBatches` at a PENDING rule, `expireBatches` at
each rule that has run out, in turn. Each is tied to its call by a lemma about the sets that the call leaves, so that
no op can be forgotten: a batch that the call handed over and the function did not compute would leave other sets.

With it a question about ops is a question about lists. `Pirewall.Firewall.WellFormedOps` asks whether every op of
every batch is one the kernel takes.
-/
import Pirewall.Firewall.Transitions

namespace Pirewall

open Lib NftNames

namespace FakeSetBackend

/-- `apply` of each batch in turn, whether it is refused or not. -/
def applyAll (b : FakeSetBackend) (batches : List (List SetOp)) (now : Time) : FakeSetBackend :=
  batches.foldl (fun b ops => (b.apply ops now).2) b

theorem applyAll_append (b : FakeSetBackend) (first rest : List (List SetOp)) (now : Time) :
    b.applyAll (first ++ rest) now = (b.applyAll first now).applyAll rest now := List.foldl_append

end FakeSetBackend

namespace FirewallManager

/-! ## The batches of a call -/

/-- The batch of `_deploy_to_sets`, unless it raises before. -/
def deployBatches (m : FirewallManager) (rule : FirewallRule) (now : Time) (upgradeOf : Option String) :
    List (List SetOp) :=
  match m.targets.get? rule.id with
  | none => []
  | some target =>
    match elementAddition rule target now m.config.policy.maxTtlSeconds with
    | .error _ => []
    | .ok (additions, _) => [((m.replacedBy upgradeOf).map deleteOps).getD [] ++ additions]

/-- Those of `_submit_to_sets`: one, if the chain lets the candidate through and the mode has it deployed. -/
def submitBatches (m : FirewallManager) (env : Env) (candidate : CandidateRule) : List (List SetOp) :=
  match (validateSetCandidate candidate (m.targetFor env candidate.toRuleFields) m.config m.knownDecisionIds
      m.activeTargets m.allowlist m.rateLimiter env.now env.localAddresses).1,
    htarget : m.targetFor env candidate.toRuleFields with
  | .ok upgradeOf, some target =>
    let rule := candidate.toRule (assignPriority candidate.threatScore) (some target)
      (targetFor_source htarget)
    let m := { m with targets := m.targets.set rule.id target }
    match m.enforcementMode with
    | .shadow => []
    | .assisted => if m.needsReview candidate then [] else m.deployBatches rule env.now upgradeOf
    | .active => m.deployBatches rule env.now upgradeOf
  | _, _ => []

/-- Those of `approve_pending`. -/
def approveBatches (m : FirewallManager) (ruleId : String) (now : Time) : List (List SetOp) :=
  match m.rules.get? ruleId with
  | none => []
  | some rule =>
    if rule.status ≠ .pendingApproval then []
    else
      m.deployBatches { rule with status := .approved } now
        (m.rateLimitToUpgrade { rule with status := .approved })

/-- Those of `_retire_rule`. -/
def retireBatches (m : FirewallManager) (ruleId : String) : List (List SetOp) :=
  match m.rules.get? ruleId with
  | none => []
  | some rule => if rule.status ≠ .active then [] else [deleteOps rule]

/-- Those of `expire_rules`, one retirement after the other. -/
def expireBatches (m : FirewallManager) (now : Time) : List (List SetOp) :=
  (m.rules.values.foldl
    (fun ((batches, m) : List (List SetOp) × FirewallManager) rule =>
      if isExpired rule now then
        (batches ++ m.retireBatches rule.id, (m.retireRule rule.id .expired now "rule TTL elapsed").2)
      else (batches, m))
    ([], m)).1

/-- The batch of `add_allowlist_entry`, unless the store fails or another entry pins the pair already. -/
def addAllowlistBatches (m : FirewallManager) (entry : AllowlistEntry) : List (List SetOp) :=
  match { m with allowlist := m.allowlist ++ [entry] }.storing fun store => store.add entry with
  | (.error _, _) => []
  | (.ok (), m) =>
    match allowBoundPair entry with
    | none => []
    | some pair =>
      if pair ∈ allowBoundPairs m.allowlist (some entry.id) then [] else [allowBoundOps .add pair]

/-- That of `remove_allowlist_entry`, unless the store fails or another entry still pins the pair. -/
def removeAllowlistBatches (m : FirewallManager) (entryId : String) : List (List SetOp) :=
  match m.allowlist.find? fun entry => entry.id == entryId with
  | none => []
  | some entry =>
    let rest := m.allowlist.eraseP fun entry => entry.id == entryId
    let removal (store : AllowlistStore) : Except String Unit × AllowlistStore :=
      let (result, store) := store.remove entryId
      (result.map fun _ => (), store)
    match { m with allowlist := rest }.storing removal with
    | (.error _, _) => []
    | (.ok (), m) =>
      match allowBoundPair entry with
      | none => []
      | some pair => if pair ∈ allowBoundPairs m.allowlist none then [] else [allowBoundOps .delete pair]

/-- That of `sync_allowlist`, if the listings go through. -/
def syncAllowlistBatches (m : FirewallManager) (sets : FakeSetBackend) (now : Time) : List (List SetOp) :=
  match (allowlistOps sets (allowBoundPairs m.allowlist none) now allowBoundTables).1 with
  | .error _ => []
  | .ok ops => [ops]

/-- That of `sync_bindings`. -/
def syncBindingsBatches (m : FirewallManager) (change : BindingChange) (now : Time) : List (List SetOp) :=
  if change.removed = [] ∧ change.added = [] then []
  else
    [change.removed.flatMap (fun binding => bindingOps .delete binding none)
      ++ change.added.flatMap fun binding => bindingOps .add binding (m.bindingTimeout binding now)]

/-- That of `replace_bindings`, if the listings go through. -/
def replaceBindingsBatches (m : FirewallManager) (sets : FakeSetBackend) (bindings : List Binding) (now : Time) :
    List (List SetOp) :=
  match (staleOps sets (isWanted bindings) now bindingSets).1 with
  | .error _ => []
  | .ok stale =>
    [stale ++ bindings.flatMap (fun binding => bindingOps .delete binding none)
      ++ bindings.flatMap fun binding => bindingOps .add binding (m.bindingTimeout binding now)]

/-- The batches a call hands to `SetBackend.apply`. -/
def handed (m : FirewallManager) (call : Env × ManagerOp) : List (List SetOp) :=
  match m.sets with
  | none => []
  | some sets =>
    match call.2 with
    | .submitCandidate candidate => m.submitBatches call.1 candidate
    | .approvePending ruleId => m.approveBatches ruleId call.1.now
    | .disableRule ruleId | .removeRule ruleId => m.retireBatches ruleId
    | .expireRules => m.expireBatches call.1.now
    | .addAllowlistEntry entry => m.addAllowlistBatches entry
    | .removeAllowlistEntry entryId => m.removeAllowlistBatches entryId
    | .syncAllowlist => m.syncAllowlistBatches sets call.1.now
    | .syncBindings change => m.syncBindingsBatches change call.1.now
    | .replaceBindings bindings => m.replaceBindingsBatches sets bindings call.1.now
    | _ => []

/-- What a call has done to the kernel when it hands over: it has listed sets, flushed them, flipped guards or
deleted tables. -/
def beforeHanding (m : FirewallManager) (sets : FakeSetBackend) (call : Env × ManagerOp) : FakeSetBackend :=
  match call.2 with
  | .revertToBase => ((sets.flushSets adaptiveEnforcementSets).2.setGuardModes allObserve).2
  | .failOpenShutdown => (sets.flushSets adaptiveEnforcementSets).2
  | .panic _ => sets.panic.2
  | .setGuardMode guard mode _ => (sets.setGuardModes [(guard, mode)]).2
  | .reconcile =>
    if (inetFamily, adaptiveTable) ∈ m.missingTables then sets
    else (listLive sets call.1.now adaptiveEnforcementSets).2
  | .syncAllowlist => (allowlistOps sets (allowBoundPairs m.allowlist none) call.1.now allowBoundTables).2
  | .replaceBindings bindings => (staleOps sets (isWanted bindings) call.1.now bindingSets).2
  | _ => sets

/-! ## Nothing else is written -/

variable {m : FirewallManager} {b : FakeSetBackend}

theorem deployToSets_sets (m : FirewallManager) (b : FakeSetBackend) (hsets : m.sets = some b) (rule : FirewallRule)
    (now : Time) (upgradeOf : Option String) :
    (m.deployToSets b rule now upgradeOf).2.sets = some (b.applyAll (m.deployBatches rule now upgradeOf) now) := by
  unfold deployToSets deployBatches
  cases m.targets.get? rule.id with
  | none => exact hsets
  | some target =>
    dsimp only
    cases elementAddition rule target now m.config.policy.maxTtlSeconds with
    | error e => exact hsets
    | ok pair =>
      obtain ⟨additions, metadata⟩ := pair
      show _ = some (b.apply (((m.replacedBy upgradeOf).map deleteOps).getD [] ++ additions) now).2
      unfold replacedBy
      dsimp only
      split
      · rename_i heq
        rw [heq]
        rfl
      · rename_i heq
        rw [heq]
        unfold supersede
        cases (upgradeOf.bind m.rules.get?).filter fun old => old.status == .active <;> rfl

/-- The batches of a candidate that the chain lets through. -/
theorem submitBatches_ok {env : Env} {candidate : CandidateRule} {upgradeOf : Option String} {target : RuleTarget}
    (houtcome : (validateSetCandidate candidate (m.targetFor env candidate.toRuleFields) m.config
      m.knownDecisionIds m.activeTargets m.allowlist m.rateLimiter env.now env.localAddresses).1 = .ok upgradeOf)
    (htarget : m.targetFor env candidate.toRuleFields = some target) :
    m.submitBatches env candidate =
      let rule := candidate.toRule (assignPriority candidate.threatScore) (some target)
        (targetFor_source htarget)
      let m := { m with targets := m.targets.set rule.id target }
      match m.enforcementMode with
      | .shadow => []
      | .assisted => if m.needsReview candidate then [] else m.deployBatches rule env.now upgradeOf
      | .active => m.deployBatches rule env.now upgradeOf := by
  unfold submitBatches
  split
  · rename_i upgradeOf' target' houtcome' htarget'
    cases houtcome.symm.trans houtcome'
    cases htarget.symm.trans htarget'
    rfl
  · rename_i hnot
    exact absurd htarget (hnot _ _ houtcome)

theorem submitBatches_refused {env : Env} {candidate : CandidateRule}
    (h : ∀ upgradeOf target, (validateSetCandidate candidate (m.targetFor env candidate.toRuleFields) m.config
        m.knownDecisionIds m.activeTargets m.allowlist m.rateLimiter env.now env.localAddresses).1 = .ok upgradeOf →
      m.targetFor env candidate.toRuleFields = some target → False) : m.submitBatches env candidate = [] := by
  unfold submitBatches
  split
  · rename_i houtcome htarget
    exact (h _ _ houtcome htarget).elim
  · rfl

theorem submitToSets_sets (hsets : m.sets = some b) (env : Env) (candidate : CandidateRule) :
    (m.submitToSets env b candidate).2.sets = some (b.applyAll (m.submitBatches env candidate) env.now) := by
  unfold submitToSets
  dsimp only
  split
  · rename_i houtcome
    rw [submitBatches_refused]
    · exact hsets
    · intro _ _ hok _
      cases houtcome.symm.trans hok
  · rename_i hnone
    rw [submitBatches_refused]
    · exact hsets
    · intro _ _ _ hsome
      cases hnone.symm.trans hsome
  · rename_i upgradeOf target houtcome htarget
    rw [submitBatches_ok houtcome htarget]
    dsimp only
    split
    · rename_i hmode
      have hmode : m.enforcementMode = .shadow := hmode
      rw [hmode]
      exact hsets
    · rename_i hmode
      have hmode : m.enforcementMode = .assisted := hmode
      rw [hmode]
      dsimp only
      split_ifs with hreview hreview' hreview'
      · exact hsets
      · exact absurd hreview hreview'
      · exact absurd hreview' hreview
      · exact deployToSets_sets _ b (by exact hsets) _ _ _
    · rename_i hmode
      have hmode : m.enforcementMode = .active := hmode
      rw [hmode]
      exact deployToSets_sets _ b (by exact hsets) _ _ _

theorem retireRule_sets (hsets : m.sets = some b) (ruleId : String) (toStatus : RuleStatus) (now : Time)
    (reason : String) :
    (m.retireRule ruleId toStatus now reason).2.sets = some (b.applyAll (m.retireBatches ruleId) now) := by
  unfold retireRule retireBatches
  cases m.rules.get? ruleId with
  | none => exact hsets
  | some rule =>
    dsimp only
    split_ifs
    · exact hsets
    · unfold withdraw
      rw [hsets]
      rfl

theorem approvePending_sets (hsets : m.sets = some b) (ruleId : String) (now : Time) :
    (m.approvePending ruleId now).2.sets = some (b.applyAll (m.approveBatches ruleId now) now) := by
  unfold approveBatches
  cases hrule : m.rules.get? ruleId with
  | none =>
    unfold approvePending
    rw [hrule]
    exact hsets
  | some rule =>
    dsimp only
    split_ifs with hpending
    · unfold approvePending
      rw [hrule]
      dsimp only
      rw [if_pos hpending]
      exact hsets
    · rw [approvePending_pending now hrule (not_not.mp hpending), hsets]
      exact deployToSets_sets _ b (by exact hsets) _ _ _

/-- `expire_rules`: each retirement hands over to the sets as the one before left them. -/
theorem expireRules_sets (hsets : m.sets = some b) (now : Time) :
    (m.expireRules now).2.sets = some (b.applyAll (m.expireBatches now) now) := by
  unfold expireRules expireBatches
  -- the two loops go through the rules side by side
  refine (List.foldl_rel
    (r := fun (x : List FirewallRule × FirewallManager) (y : List (List SetOp) × FirewallManager) =>
      y.2 = x.2 ∧ x.2.sets = some (b.applyAll y.1 now)) ⟨rfl, hsets⟩ ?_).2
  rintro rule - ⟨expired, m'⟩ ⟨batches, _⟩ ⟨rfl, hm'⟩
  dsimp only
  split
  · refine ⟨rfl, ?_⟩
    rw [FakeSetBackend.applyAll_append]
    exact retireRule_sets hm' rule.id .expired now "rule TTL elapsed"
  · exact ⟨rfl, hm'⟩

theorem addAllowlistEntry_sets (hsets : m.sets = some b) (entry : AllowlistEntry) (now : Time) :
    (m.addAllowlistEntry entry now).2.sets = some (b.applyAll (m.addAllowlistBatches entry) now) := by
  unfold addAllowlistEntry addAllowlistBatches
  rcases hstoring : ({ m with allowlist := m.allowlist ++ [entry] }.storing fun store => store.add entry) with
    ⟨result, m'⟩
  obtain ⟨store, hframe⟩ := storing_frame hstoring
  have hstored : m'.sets = some b := by rw [hframe]; exact hsets
  rw [hstoring]
  cases result with
  | error e => exact hstored
  | ok u =>
    dsimp only
    rw [hstored]
    cases allowBoundPair entry with
    | none => exact hstored
    | some pair =>
      dsimp only
      split_ifs
      · exact hstored
      · rfl

theorem removeAllowlistEntry_sets (hsets : m.sets = some b) (entryId : String) (now : Time) :
    (m.removeAllowlistEntry entryId now).2.sets = some (b.applyAll (m.removeAllowlistBatches entryId) now) := by
  unfold removeAllowlistEntry removeAllowlistBatches
  cases m.allowlist.find? fun entry => entry.id == entryId with
  | none => exact hsets
  | some entry =>
    dsimp only
    rcases hstoring : ({ m with allowlist := m.allowlist.eraseP fun entry => entry.id == entryId }.storing
      fun store => ((store.remove entryId).1.map fun _ => (), (store.remove entryId).2)) with ⟨result, m'⟩
    obtain ⟨store, hframe⟩ := storing_frame hstoring
    have hstored : m'.sets = some b := by rw [hframe]; exact hsets
    rw [hstoring]
    cases result with
    | error e => exact hstored
    | ok u =>
      dsimp only
      rw [hstored]
      cases allowBoundPair entry with
      | none => exact hstored
      | some pair =>
        dsimp only
        split_ifs
        · exact hstored
        · rfl

theorem syncAllowlist_sets (hsets : m.sets = some b) (now : Time) :
    (m.syncAllowlist now).2.sets =
      some ((allowlistOps b (allowBoundPairs m.allowlist none) now allowBoundTables).2.applyAll
        (m.syncAllowlistBatches b now) now) := by
  unfold syncAllowlist syncAllowlistBatches
  rw [hsets]
  dsimp only
  rcases allowlistOps b (allowBoundPairs m.allowlist none) now allowBoundTables with ⟨result, sets⟩
  cases result <;> rfl

theorem syncBindings_sets (hsets : m.sets = some b) (change : BindingChange) (now : Time) :
    (m.syncBindings change now now).2.sets = some (b.applyAll (m.syncBindingsBatches change now) now) := by
  unfold syncBindings syncBindingsBatches
  rw [hsets]
  dsimp only
  split_ifs
  · exact hsets
  · rfl

theorem replaceBindings_sets (hsets : m.sets = some b) (bindings : List Binding) (now : Time) :
    (m.replaceBindings bindings now now).2.sets =
      some ((staleOps b (isWanted bindings) now bindingSets).2.applyAll
        (m.replaceBindingsBatches b bindings now) now) := by
  unfold replaceBindings replaceBindingsBatches
  rw [hsets]
  dsimp only
  rcases staleOps b (isWanted bindings) now bindingSets with ⟨result, sets⟩
  cases result <;> rfl

/-- `reconcile` lists the adaptive sets and writes none. -/
theorem reconcile_sets (hkeyed : Keyed m) (hsets : m.sets = some b) (now : Time) :
    (m.reconcile now).2.sets = some (if (inetFamily, adaptiveTable) ∈ m.missingTables then b
      else (listLive b now adaptiveEnforcementSets).2) := by
  unfold reconcile
  rw [hsets]
  dsimp only
  split_ifs
  · exact hsets
  · rcases listLive b now adaptiveEnforcementSets with ⟨result, sets⟩
    cases result with
    | error e => rfl
    | ok live =>
      dsimp only
      refine adoptUnknown_induction (I := fun m' => m'.sets = some sets) _ ?_ _ _ ?_
      · intro m' setName key expiresIn _ _ _ hm'
        rcases m'.adopt_cases setName key expiresIn now with heq | ⟨_, _, _, _, _, _, heq⟩
        · rw [heq]
          exact hm'
        · rw [heq]
          exact hm'
      · exact (retireMissing_demoted (m := { m with sets := some sets }) hkeyed _ now).sets

/-- All that a call does to the kernel sets, once it has read or flushed them, is to hand over its batches. -/
theorem step_applyAll (hkeyed : Keyed m) (hsets : m.sets = some b) (call : Env × ManagerOp) :
    (m.step call).sets = some ((m.beforeHanding b call).applyAll (m.handed call) call.1.now) := by
  obtain ⟨env, op⟩ := call
  unfold handed
  rw [hsets]
  cases op with
  | registerDecision decision => exact hsets
  | submitCandidate candidate =>
    simp only [step, submitCandidate, hsets]
    exact submitToSets_sets hsets env candidate
  | approvePending ruleId => exact approvePending_sets hsets ruleId env.now
  | rejectPending ruleId =>
    simp only [step, rejectPending]
    cases m.rules.get? ruleId with
    | none => exact hsets
    | some rule =>
      dsimp only
      split_ifs <;> exact hsets
  | disableRule ruleId => exact retireRule_sets hsets ruleId _ env.now _
  | removeRule ruleId => exact retireRule_sets hsets ruleId _ env.now _
  | expireRules => exact expireRules_sets hsets env.now
  | revertToBase => exact (revertToBase_demoted hsets hkeyed env.now).sets
  | failOpenShutdown => exact (failOpenShutdown_demoted hsets hkeyed env.now).sets
  | panic actor =>
    rcases panic_demoted hsets hkeyed actor env.now with ⟨_, _, heq⟩ | hdemoted
    · show (m.panic actor env.now).2.sets = _
      rw [heq]
      rfl
    · exact hdemoted.sets
  | setGuardMode guard mode actor =>
    simp only [step, setGuardMode, hsets, beforeHanding]
    rcases b.setGuardModes [(guard, mode)] with ⟨result, sets⟩
    cases result <;> rfl
  | reconcile => exact reconcile_sets hkeyed hsets env.now
  | addAllowlistEntry entry => exact addAllowlistEntry_sets hsets entry env.now
  | removeAllowlistEntry entryId => exact removeAllowlistEntry_sets hsets entryId env.now
  | syncAllowlist => exact syncAllowlist_sets hsets env.now
  | syncBindings change => exact syncBindings_sets hsets change env.now
  | replaceBindings bindings => exact replaceBindings_sets hsets bindings env.now

end FirewallManager

end Pirewall
