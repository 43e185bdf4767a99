/-
# Pirewall.Firewall.Transitions -- what the rule-changing calls do

Inversion lemmas for the calls that move rules through the lifecycle: one for retiring a rule, one for the loops that
retire many, one for a deployment to the sets, and on top of it one for submission and one for approval. A later proof
starts from these cases and reads the new rule table, targets and kernel state off them.

What the cases say is what `manager.py` does, its failures included:

* a retirement withdraws the rule's element and goes on whatever came of that, so a kernel which refuses the deletion
  keeps an element that no ACTIVE rule records (`retireRule_cases`);

* the kill switches do not retire rule by rule: they flush the sets and then file every ACTIVE rule as REMOVED in one
  loop (`Demoted`), and `reconcile` uses the same loop for the rules whose element the kernel has lost;

* a deployment is one batch, the deletion of the superseded element before the addition of the new one. It raises
  before the batch, is refused with the batch, or goes through (`deployToSets_outcomes`), and only in the last case is
  a rule superseded (`SetDeployment`);

* a submission rejects, keeps the rule without deploying it, or deploys it; an approval deploys what was PENDING and
  asks the chain nothing (`approvePending_cases`);

* `reconcile` works on what a listing reports (`Listed`), which may have dropped what has run out.

The last part asks where a rule can come from at all. Rules are filed under their own ids, and a new id is the
submitted candidate's or one that `reconcile` makes of an element (`Files`). With distinct candidate ids a submission
therefore finds its id unused (`freshCandidate_along`), which the invariants of the following modules need and cannot
see from one call.
-/
import Pirewall.Firewall.Lifecycle

namespace Pirewall

open Lib NftNames

namespace FirewallManager

/-! ## Retiring -/

/-- Withdrawing a rule hands its deletions to the sets; of the rest of the manager, only the rule backend may change. -/
theorem withdraw_frame (m : FirewallManager) (ruleId : String) (rule : FirewallRule) (now : Time) :
    m.withdraw ruleId rule now = { m with
      sets := m.sets.map fun sets => (sets.apply (deleteOps rule) now).2
      backend := (m.withdraw ruleId rule now).backend } ∧
    (m.withdraw ruleId rule now).backend.applyCalls = m.backend.applyCalls := by
  unfold withdraw
  split
  · rename_i sets hsets
    simp [hsets]
  · rename_i hsets
    refine ⟨by simp [hsets], ?_⟩
    simp only [FakeFirewallBackend.removeRule]
    split <;> rfl

/-- Only an ACTIVE rule is retired: its element is withdrawn, it is filed under the new status, and the transition is
recorded. Otherwise nothing happens. -/
theorem retireRule_cases (m : FirewallManager) (ruleId : String) (toStatus : RuleStatus) (now : Time)
    (reason : String) :
    (m.retireRule ruleId toStatus now reason).2 = m ∨
    ∃ rule, m.rules.get? ruleId = some rule ∧ rule.status = .active ∧
      (m.retireRule ruleId toStatus now reason).2 =
        ((m.withdraw ruleId rule now).setRule ruleId { rule with status := toStatus }).record ruleId
          (some .active) toStatus now reason := by
  unfold retireRule
  split
  · exact .inl rfl
  · rename_i rule hrule
    split
    · exact .inl rfl
    · rename_i hactive
      exact .inr ⟨rule, hrule, not_not.mp hactive, rfl⟩

/-- `expire_rules` is a series of retirements. -/
theorem expireRules_induction {I : FirewallManager → Prop} (m : FirewallManager) (now : Time)
    (hstep : ∀ m ruleId, I m → I (m.retireRule ruleId .expired now "rule TTL elapsed").2) (h : I m) :
    I (m.expireRules now).2 := by
  unfold expireRules
  refine List.foldlRecOn (motive := fun acc : List FirewallRule × FirewallManager => I acc.2) _ _ h ?_
  intro acc hacc rule _
  simp only
  split
  · exact hstep acc.2 rule.id hacc
  · exact hacc

theorem Retires.retireRule (m : FirewallManager) (ruleId : String) {toStatus : RuleStatus} (now : Time)
    (reason : String) (hactive : toStatus ≠ .active) (hpending : toStatus ≠ .pendingApproval) :
    Retires m (m.retireRule ruleId toStatus now reason).2 := by
  rcases m.retireRule_cases ruleId toStatus now reason with heq | ⟨rule, hrule, _, heq⟩
  · rw [heq]
    exact .refl m
  · rw [heq]
    have hset := Retires.setRule _ hrule hactive hpending
    rw [(m.withdraw_frame ruleId rule now).1]
    exact ⟨hset.rules, rfl, rfl⟩

theorem Retires.expireRules (m : FirewallManager) (now : Time) : Retires m (m.expireRules now).2 := by
  refine expireRules_induction (I := Retires m) m now ?_ (.refl m)
  intro m' ruleId h
  exact h.trans (.retireRule m' ruleId now _ (by simp) (by simp))

theorem Retires.rejectPending (m : FirewallManager) (ruleId : String) (now : Time) :
    Retires m (m.rejectPending ruleId now).2 := by
  unfold FirewallManager.rejectPending
  split
  · exact .refl m
  · rename_i rule hrule
    split
    · exact .refl m
    · have hset := Retires.setRule .rejected hrule (by simp) (by simp)
      exact ⟨hset.rules, rfl, rfl⟩

/-! ## The loops that retire many rules at once -/

/-- The rule, REMOVED. -/
def demote (rule : FirewallRule) : FirewallRule := { rule with status := .removed }

section Demotion

variable {β : Type} {F : β × FirewallManager → FirewallRule → β × FirewallManager}
  {p : FirewallRule → Bool}

/-- A loop body that files its rule as REMOVED when `p` holds of it. -/
structure Demotes (F : β × FirewallManager → FirewallRule → β × FirewallManager)
    (p : FirewallRule → Bool) : Prop where
  rules : ∀ acc rule, (F acc rule).2.rules =
    if p rule then acc.2.rules.set rule.id (demote rule) else acc.2.rules
  targets : ∀ acc rule, (F acc rule).2.targets = acc.2.targets
  config : ∀ acc rule, (F acc rule).2.config = acc.2.config
  sets : ∀ acc rule, (F acc rule).2.sets = acc.2.sets
  enforcementMode : ∀ acc rule, (F acc rule).2.enforcementMode = acc.2.enforcementMode
  applyCalls : ∀ acc rule, (F acc rule).2.backend.applyCalls = acc.2.backend.applyCalls

/-- `m'` is `m` with the rules that satisfy `p` REMOVED. -/
structure Demoted (m m' : FirewallManager) (p : FirewallRule → Bool) : Prop where
  rules : ∀ id, m'.rules.get? id =
    (m.rules.get? id).map fun rule => if p rule then demote rule else rule
  targets : m'.targets = m.targets
  config : m'.config = m.config
  sets : m'.sets = m.sets
  enforcementMode : m'.enforcementMode = m.enforcementMode
  applyCalls : m'.backend.applyCalls = m.backend.applyCalls

/-- A demoting loop, rule by rule: what satisfies `p` is demoted where it is filed, and nothing else is touched. -/
theorem Demotes.foldl_get? (hF : Demotes F p) (rules : List FirewallRule) (acc : β × FirewallManager)
    (hnodup : (rules.map FirewallRule.id).Nodup)
    (hfiled : ∀ rule ∈ rules, acc.2.rules.get? rule.id = some rule) (id : String) :
    ((∃ rule ∈ rules, rule.id = id ∧ p rule = true) →
      (rules.foldl F acc).2.rules.get? id = (acc.2.rules.get? id).map demote) ∧
    ((¬ ∃ rule ∈ rules, rule.id = id ∧ p rule = true) →
      (rules.foldl F acc).2.rules.get? id = acc.2.rules.get? id) := by
  induction rules generalizing acc with
  | nil => simp
  | cons rule rules ih =>
    obtain ⟨hnew, hnodup⟩ := List.nodup_cons.mp hnodup
    have hother : ∀ rule' ∈ rules, rule'.id ≠ rule.id := fun rule' h heq =>
      hnew (heq ▸ List.mem_map_of_mem h)
    have hget : ∀ id', id' ≠ rule.id → (F acc rule).2.rules.get? id' = acc.2.rules.get? id' := by
      intro id' hne
      rw [hF.rules]
      split
      · rw [Dict.get?_set, if_neg hne]
      · rfl
    obtain ⟨hyes, hno⟩ := ih (F acc rule) hnodup fun rule' h =>
      (hget _ (hother rule' h)).trans (hfiled rule' (List.mem_cons_of_mem _ h))
    rw [List.foldl_cons]
    by_cases hid : id = rule.id
    · -- later rules have other ids, so this rule's own write is the last one
      have hrest : ¬ ∃ rule' ∈ rules, rule'.id = id ∧ p rule' = true := by
        rintro ⟨rule', h, heq, _⟩
        exact hother rule' h (heq.trans hid)
      rw [hno hrest, hF.rules]
      have hhere := hfiled rule List.mem_cons_self
      by_cases hp : p rule = true
      · refine ⟨fun _ => ?_, fun h => absurd ⟨rule, List.mem_cons_self, hid.symm, hp⟩ h⟩
        rw [if_pos hp, Dict.get?_set, if_pos hid, hid, hhere]
        rfl
      · refine ⟨?_, fun _ => by rw [if_neg hp]⟩
        rintro ⟨rule', h, heq, hp'⟩
        rcases List.mem_cons.mp h with rfl | h
        · exact absurd hp' hp
        · exact absurd ⟨rule', h, heq, hp'⟩ hrest
    · have hsame : (∃ rule' ∈ rule :: rules, rule'.id = id ∧ p rule' = true) ↔
          ∃ rule' ∈ rules, rule'.id = id ∧ p rule' = true := by
        constructor
        · rintro ⟨rule', h, heq, hp'⟩
          rcases List.mem_cons.mp h with rfl | h
          · exact absurd heq.symm hid
          · exact ⟨rule', h, heq, hp'⟩
        · rintro ⟨rule', h, hrest⟩
          exact ⟨rule', List.mem_cons_of_mem _ h, hrest⟩
      rw [hsame, ← hget id hid]
      exact ⟨hyes, hno⟩

end Demotion

/-- Rules that are filed under their own ids have different ones. -/
theorem values_id_nodup {m : FirewallManager} (hkeyed : Keyed m) :
    (m.rules.values.map FirewallRule.id).Nodup := by
  have heq : m.rules.values.map FirewallRule.id = m.rules.keys := by
    rw [Dict.values, Dict.keys, List.map_map]
    apply List.map_congr_left
    rintro ⟨id, rule⟩ hmem
    exact hkeyed id rule (Dict.mem_entries_iff.mp hmem)
  rw [heq]
  exact m.rules.nodup

/-- A rule that is in the table is found under its own id. -/
theorem get?_of_mem_values {m : FirewallManager} (hkeyed : Keyed m) {rule : FirewallRule}
    (h : rule ∈ m.rules.values) : m.rules.get? rule.id = some rule := by
  obtain ⟨id, hid⟩ := Dict.mem_values_iff.mp h
  rw [hkeyed id rule hid]
  exact hid

/-- `active_rules`, by look-up. -/
theorem mem_activeRules {m : FirewallManager} (hkeyed : Keyed m) {rule : FirewallRule} :
    rule ∈ m.activeRules ↔ m.rules.get? rule.id = some rule ∧ rule.status = .active := by
  rw [activeRules, List.mem_filter, beq_iff_eq]
  constructor
  · rintro ⟨hmem, hactive⟩
    exact ⟨get?_of_mem_values hkeyed hmem, hactive⟩
  · rintro ⟨hget, hactive⟩
    exact ⟨Dict.mem_values_iff.mpr ⟨rule.id, hget⟩, hactive⟩

theorem Demotes.foldl_rules {β : Type} {F : β × FirewallManager → FirewallRule → β × FirewallManager}
    {p : FirewallRule → Bool} (hF : Demotes F p) {m : FirewallManager} (hkeyed : Keyed m) (b : β)
    {rules : List FirewallRule} (hsub : List.Sublist rules m.rules.values)
    (hall : ∀ rule ∈ m.rules.values, p rule = true → rule ∈ rules) (id : String) :
    (rules.foldl F (b, m)).2.rules.get? id =
      (m.rules.get? id).map fun rule => if p rule then demote rule else rule := by
  obtain ⟨hyes, hno⟩ := hF.foldl_get? rules (b, m) ((values_id_nodup hkeyed).sublist (hsub.map _))
    (fun rule h => get?_of_mem_values hkeyed (hsub.subset h)) id
  cases hget : m.rules.get? id with
  | none =>
    rw [hno, hget]
    · rfl
    · rintro ⟨rule, h, heq, _⟩
      have := get?_of_mem_values hkeyed (hsub.subset h)
      rw [heq, hget] at this
      exact absurd this (by simp)
  | some rule =>
    have hid : rule.id = id := hkeyed id rule hget
    by_cases hp : p rule = true
    · rw [hyes ⟨rule, hall rule (Dict.mem_values_iff.mpr ⟨id, hget⟩) hp, hid, hp⟩, hget]
      simp [hp]
    · rw [hno, hget]
      · simp [hp]
      · rintro ⟨rule', h, heq, hp'⟩
        have hget' := get?_of_mem_values hkeyed (hsub.subset h)
        rw [heq, hget] at hget'
        obtain rfl := Option.some.inj hget'
        exact hp hp'

/-- What a demoting loop over the filed rules (or some that include all it demotes) leaves. -/
theorem Demotes.foldl {β : Type} {F : β × FirewallManager → FirewallRule → β × FirewallManager}
    {p : FirewallRule → Bool} (hF : Demotes F p) {m : FirewallManager} (hkeyed : Keyed m) (b : β)
    {rules : List FirewallRule} (hsub : List.Sublist rules m.rules.values)
    (hall : ∀ rule ∈ m.rules.values, p rule = true → rule ∈ rules) :
    Demoted m (rules.foldl F (b, m)).2 p := by
  -- a field no loop body changes is the same at the end of the loop
  have hkeep : ∀ {γ : Type} (f : FirewallManager → γ), (∀ acc rule, f (F acc rule).2 = f acc.2) →
      f (rules.foldl F (b, m)).2 = f m := by
    intro γ f hf
    suffices hfold : ∀ (rules : List FirewallRule) (acc : β × FirewallManager),
        f (rules.foldl F acc).2 = f acc.2 from hfold rules (b, m)
    intro rules
    induction rules with
    | nil => exact fun _ => rfl
    | cons rule rules ih => exact fun acc => (ih (F acc rule)).trans (hf acc rule)
  exact ⟨hF.foldl_rules hkeyed b hsub hall, hkeep _ hF.targets, hkeep _ hF.config, hkeep _ hF.sets,
    hkeep _ hF.enforcementMode, hkeep (fun m => m.backend.applyCalls) hF.applyCalls⟩

namespace Demoted

variable {m m' : FirewallManager} {p : FirewallRule → Bool}

/-- A demoting loop only takes rules out of force. -/
theorem retires (h : Demoted m m' p) : Retires m m' where
  rules := by
    intro id rule' hrule'
    rw [h.rules] at hrule'
    obtain ⟨rule, hrule, rfl⟩ := Option.map_eq_some_iff.mp hrule'
    refine ⟨rule, hrule, ?_⟩
    split
    · exact .inr ⟨.removed, by simp, by simp, rfl⟩
    · exact .inl rfl
  targets := h.targets
  config := h.config

theorem retiresFrom {m₀ : FirewallManager} (h : Demoted m m' p) (h₀ : Retires m₀ m) : Retires m₀ m' :=
  h₀.trans h.retires

/-- A rule that was not demoted is still there. -/
theorem kept (h : Demoted m m' p) {id : String} {rule : FirewallRule}
    (hrule : m.rules.get? id = some rule) (hp : p rule = false) : m'.rules.get? id = some rule := by
  rw [h.rules, hrule]
  simp [hp]

/-- Demoting every ACTIVE rule leaves none. -/
theorem none_active (h : Demoted m m' fun rule => rule.status == .active) {id : String}
    {rule : FirewallRule} (hrule : m'.rules.get? id = some rule) : rule.status ≠ .active := by
  rw [h.rules] at hrule
  obtain ⟨rule₀, _, rfl⟩ := Option.map_eq_some_iff.mp hrule
  split
  · simp [demote]
  · rename_i hactive
    simpa using hactive

end Demoted

/-- `_retire_all_active` demotes exactly the ACTIVE rules. -/
theorem retireAllActive_demoted {m : FirewallManager} (hkeyed : Keyed m) (now : Time) (reason : String) :
    Demoted m (m.retireAllActive now reason).2 fun rule => rule.status == .active := by
  refine Demotes.foldl ⟨?_, ?_, ?_, ?_, ?_, ?_⟩ hkeyed 0 (List.Sublist.refl _) fun _ h _ => h
  all_goals
    intro acc rule
    simp only
    split <;> rfl

/-- So does the kill switch of the v1 path, which has gone to SHADOW mode before. -/
theorem revertBackend_demoted {m : FirewallManager} (hkeyed : Keyed m) (now : Time) :
    Demoted { m with enforcementMode := .shadow } (m.revertBackend now).2
      fun rule => rule.status == .active := by
  have hkeyed' : Keyed { m with enforcementMode := .shadow } := hkeyed
  refine Demotes.foldl ⟨?_, ?_, ?_, ?_, ?_, ?_⟩ hkeyed' 0 (List.Sublist.refl _) fun _ h _ => h
  all_goals
    intro acc rule
    simp only
    split
    · first
      | rfl
      | simp only [record, setRule, FakeFirewallBackend.removeRule]
        split <;> rfl
    · rfl

/-- The kill switch on the set path: SHADOW, a flush, every guard to observe, then all rules. -/
theorem revertToBase_demoted {m : FirewallManager} {b : FakeSetBackend} (hsets : m.sets = some b)
    (hkeyed : Keyed m) (now : Time) :
    Demoted { m with
        sets := some ((b.flushSets adaptiveEnforcementSets).2.setGuardModes allObserve).2
        enforcementMode := .shadow } (m.revertToBase now).2 fun rule => rule.status == .active := by
  unfold revertToBase
  rw [hsets]
  exact retireAllActive_demoted (m := { m with
    sets := some ((b.flushSets adaptiveEnforcementSets).2.setGuardModes allObserve).2
    enforcementMode := .shadow }) hkeyed now "kill-switch"

/-- A fail-open shutdown on the set path: a flush, then all rules. -/
theorem failOpenShutdown_demoted {m : FirewallManager} {b : FakeSetBackend} (hsets : m.sets = some b)
    (hkeyed : Keyed m) (now : Time) :
    Demoted { m with sets := some (b.flushSets adaptiveEnforcementSets).2 } (m.failOpenShutdown now).2
      fun rule => rule.status == .active := by
  unfold failOpenShutdown
  rw [hsets]
  exact retireAllActive_demoted (m := { m with sets := some (b.flushSets adaptiveEnforcementSets).2 })
    hkeyed now "fail-open shutdown"

/-- Panic: refused, or SHADOW and all rules. -/
theorem panic_demoted {m : FirewallManager} {b : FakeSetBackend} (hsets : m.sets = some b)
    (hkeyed : Keyed m) (actor : String) (now : Time) :
    (∃ e, b.panic.1 = .error e ∧ (m.panic actor now).2 = { m with sets := some b.panic.2 }) ∨
    Demoted { m with sets := some b.panic.2, enforcementMode := .shadow } (m.panic actor now).2
      fun rule => rule.status == .active := by
  unfold panic
  rw [hsets]
  simp only
  split
  · rename_i e sets heq
    exact .inl ⟨e, by rw [heq], by rw [heq]⟩
  · rename_i deleted sets heq
    rw [heq]
    exact .inr (retireAllActive_demoted (m := { m with sets := some sets, enforcementMode := .shadow })
      hkeyed now ("panic by " ++ actor))

/-- The first loop of `reconcile` demotes the ACTIVE rules that record an element which was not listed. -/
theorem retireMissing_demoted {m : FirewallManager} (hkeyed : Keyed m)
    (live : List (String × ElementKey)) (now : Time) :
    Demoted m (m.retireMissing live now).2 fun rule =>
      rule.status == .active && (elementOf rule).any fun location => decide (location ∉ live) := by
  unfold retireMissing activeRules
  rw [List.foldl_filter]
  refine Demotes.foldl ⟨?_, ?_, ?_, ?_, ?_, ?_⟩ hkeyed [] (List.Sublist.refl _) fun _ h _ => h
  all_goals
    intro acc rule
    cases hactive : rule.status == .active
    · simp
    · cases helement : elementOf rule with
      | none => simp
      | some location =>
        by_cases hlive : location ∈ live
        · simp [hlive]
        · simp [hlive, record, setRule, demote]

/-! ## Deploying to the sets -/

/-- What `elementAddition` gives: nothing for an action without a set, else one addition, recorded in
the metadata. -/
theorem elementAddition_ok {rule : FirewallRule} {target : RuleTarget} {now : Time} {maxTtl : Nat}
    {additions : List SetOp} {metadata : Metadata}
    (h : elementAddition rule target now maxTtl = .ok (additions, metadata)) :
    (rule.action.restrictive = false ∧ additions = [] ∧ metadata = rule.metadata) ∨
    ∃ element expiresAt, elementFor rule.action target = some element ∧
      rule.expiresAt = some expiresAt ∧
      additions = [{ kind := .add, setName := element.1, key := element.2,
                     timeoutSeconds := some (elementTimeoutSeconds expiresAt now maxTtl) }] ∧
      elementOf (rule.activated now metadata) = some element := by
  unfold elementAddition at h
  split at h
  · rename_i hset
    simp only [Except.ok.injEq, Prod.mk.injEq] at h
    refine .inl ⟨?_, h.1.symm, h.2.symm⟩
    by_contra hr
    obtain ⟨element, hel⟩ := elementFor_isSome (Bool.eq_true_of_not_eq_false hr) target
    rw [elementFor, hset] at hel
    exact absurd hel (by simp)
  · rename_i setName hset
    split at h
    · exact absurd h (by simp)
    · exact absurd h (by simp)
    · rename_i key expiresAt hkey hexpires
      simp only [Except.ok.injEq, Prod.mk.injEq] at h
      obtain ⟨rfl, rfl⟩ := h
      refine .inr ⟨(setName, .one key), expiresAt, ?_, hexpires, rfl, ?_⟩
      · simp [elementFor, hset, hkey]
      · have hne : metaSet ≠ metaKey := by decide
        simp [elementOf, FirewallRule.activated, hne]

/-- What a rule with an expiry adds is never an error. -/
theorem elementAddition_isOk {rule : FirewallRule} {expiresAt : Time}
    (hexpiry : rule.expiresAt = some expiresAt) (target : RuleTarget) (now : Time) (maxTtl : Nat)
    (e : String) : elementAddition rule target now maxTtl ≠ .error e := by
  unfold elementAddition
  split
  · simp
  · rename_i setName hset
    obtain ⟨key, hkey⟩ := elementKey_enforcementSet hset
    rw [hkey, hexpiry]
    simp

/-- The ACTIVE rule a deployment with this `upgrade_of` supersedes. -/
def replacedBy (m : FirewallManager) (upgradeOf : Option String) : Option FirewallRule :=
  (upgradeOf.bind m.rules.get?).filter fun old => old.status == .active

/-- The rule table once a deployment has superseded `replaced` and put `rule` in force. -/
def deployedRules (rules : Dict String FirewallRule) (replaced : Option FirewallRule)
    (rule : FirewallRule) : Dict String FirewallRule :=
  (match replaced with
   | none => rules
   | some old => rules.set old.id (demote old)).set rule.id rule

/-- The table after a deployment, by look-up: the new rule, the superseded one demoted, every other as it was. -/
theorem get?_deployedRules (rules : Dict String FirewallRule) (replaced : Option FirewallRule)
    (rule : FirewallRule) (id : String) :
    (deployedRules rules replaced rule).get? id =
      if id = rule.id then some rule
      else if replaced.map FirewallRule.id = some id then replaced.map demote
      else rules.get? id := by
  unfold deployedRules
  rw [Dict.get?_set]
  split
  · rfl
  · cases replaced with
    | none => simp
    | some old =>
      simp only [Dict.get?_set, Option.map_some, Option.some.injEq]
      by_cases hid : id = old.id
      · simp [hid]
      · simp [hid, Ne.symm hid]

/-- A deployment to the sets that went through. -/
structure SetDeployment (m : FirewallManager) (sets : FakeSetBackend) (rule : FirewallRule) (now : Time)
    (upgradeOf : Option String) (m' : FirewallManager) (target : RuleTarget)
    (additions : List SetOp) (metadata : Metadata) (sets' : FakeSetBackend) : Prop where
  filed : m.targets.get? rule.id = some target
  addition : elementAddition rule target now m.config.policy.maxTtlSeconds = .ok (additions, metadata)
  applied : sets.Applied (((m.replacedBy upgradeOf).map deleteOps).getD [] ++ additions) now sets'
  result : ∃ transitions, m' = { m with
    sets := some sets'
    rules := deployedRules m.rules (m.replacedBy upgradeOf) (rule.activated now metadata)
    transitions := transitions }

/-- What a rule's withdrawal hands over are deletions. -/
theorem kind_of_mem_deleteOps {rule : FirewallRule} {op : SetOp} (h : op ∈ deleteOps rule) :
    op.kind = .delete := by
  unfold deleteOps at h
  split at h
  · exact absurd h (by simp)
  · rw [List.mem_singleton.mp h]

/-- The one addition of a deployment's batch is the element of the rule's action on the target, timed by
the rule's expiry. -/
theorem SetDeployment.added_op {m m' : FirewallManager} {b b' : FakeSetBackend} {rule : FirewallRule}
    {now : Time} {upgradeOf : Option String} {target : RuleTarget} {additions : List SetOp}
    {metadata : Metadata} (h : SetDeployment m b rule now upgradeOf m' target additions metadata b')
    {op : SetOp} (hop : op ∈ ((m.replacedBy upgradeOf).map deleteOps).getD [] ++ additions)
    (hkind : op.kind = .add) :
    ∃ element expiresAt, elementFor rule.action target = some element ∧
      rule.expiresAt = some expiresAt ∧
      op = { kind := .add, setName := element.1, key := element.2,
             timeoutSeconds := some (elementTimeoutSeconds expiresAt now m.config.policy.maxTtlSeconds) } ∧
      elementOf (rule.activated now metadata) = some element := by
  rcases List.mem_append.mp hop with hop | hop
  · -- what an upgrade deletes is no addition
    cases hold : m.replacedBy upgradeOf with
    | none => exact absurd hop (by simp [hold])
    | some old =>
      rw [hold] at hop
      exact absurd (hkind.symm.trans (kind_of_mem_deleteOps hop)) (by simp)
  · rcases elementAddition_ok h.addition with ⟨_, rfl, _⟩ | ⟨element, expiresAt, hfor, hexp, rfl, hel⟩
    · exact absurd hop (by simp)
    · exact ⟨element, expiresAt, hfor, hexp, List.mem_singleton.mp hop, hel⟩

/-- `_deploy_to_sets` raises and does nothing, is refused by the kernel, or goes through. It raises for a
rule without a target, or one whose element has no key or no expiry. -/
theorem deployToSets_outcomes (m : FirewallManager) (sets : FakeSetBackend) (rule : FirewallRule)
    (now : Time) (upgradeOf : Option String) :
    ((m.deployToSets sets rule now upgradeOf).2 = m ∧ ∀ target, m.targets.get? rule.id = some target →
      ∃ e, elementAddition rule target now m.config.policy.maxTtlSeconds = .error e) ∨
    (∃ faults transitions, (sets.faults = [] → faults = []) ∧
      (m.deployToSets sets rule now upgradeOf).2 = { m with
        sets := some { sets with faults }
        rules := m.rules.set rule.id { rule with status := .rejected }
        transitions }) ∨
    ∃ target additions metadata sets', SetDeployment m sets rule now upgradeOf
      (m.deployToSets sets rule now upgradeOf).2 target additions metadata sets' := by
  unfold deployToSets
  split
  · rename_i hnone
    exact .inl ⟨rfl, fun target htarget => absurd (hnone.symm.trans htarget) (by simp)⟩
  · rename_i target htarget
    simp only
    split
    · rename_i e herror
      refine .inl ⟨rfl, ?_⟩
      intro target' htarget'
      obtain rfl := Option.some.inj (htarget.symm.trans htarget')
      exact ⟨e, herror⟩
    · rename_i additions metadata haddition
      -- the batch: the superseded rule's deletions, then the addition
      have hcases := sets.apply_cases (((m.replacedBy upgradeOf).map deleteOps).getD [] ++ additions) now
      split
      · rename_i e sets' heq
        rcases hcases with ⟨hok, _⟩ | ⟨e', faults, heq', hfaults⟩
        · rw [replacedBy, heq] at hok
          exact absurd hok (by simp)
        · rw [replacedBy, heq] at heq'
          obtain ⟨_, rfl⟩ := Prod.mk.inj heq'
          exact .inr (.inl ⟨faults, _, hfaults, rfl⟩)
      · rename_i sets' heq
        rcases hcases with ⟨_, happlied⟩ | ⟨e', faults, heq', _⟩
        · refine .inr (.inr ⟨target, additions, metadata, sets', htarget, haddition, ?_, ?_⟩)
          · rw [replacedBy] at happlied ⊢
            rw [heq] at happlied
            exact happlied
          · simp only [deployed, supersede, record, setRule, deployedRules, replacedBy]
            cases (upgradeOf.bind m.rules.get?).filter fun old => old.status == .active with
            | none => exact ⟨_, rfl⟩
            | some old => exact ⟨_, rfl⟩
        · rw [replacedBy, heq] at heq'
          exact absurd (congrArg Prod.fst heq') (by simp)

/-- The three outcomes without what is known of the one that raises. -/
theorem deployToSets_cases (m : FirewallManager) (sets : FakeSetBackend) (rule : FirewallRule)
    (now : Time) (upgradeOf : Option String) :
    (m.deployToSets sets rule now upgradeOf).2 = m ∨
    (∃ faults transitions, (sets.faults = [] → faults = []) ∧
      (m.deployToSets sets rule now upgradeOf).2 = { m with
        sets := some { sets with faults }
        rules := m.rules.set rule.id { rule with status := .rejected }
        transitions }) ∨
    ∃ target additions metadata sets', SetDeployment m sets rule now upgradeOf
      (m.deployToSets sets rule now upgradeOf).2 target additions metadata sets' :=
  (m.deployToSets_outcomes sets rule now upgradeOf).imp_left And.left

/-- With a target and an expiry, `_deploy_to_sets` does not raise. -/
theorem deployToSets_filed (m : FirewallManager) (sets : FakeSetBackend) (rule : FirewallRule)
    (now : Time) (upgradeOf : Option String) {target : RuleTarget} {expiresAt : Time}
    (hfiled : m.targets.get? rule.id = some target) (hexpiry : rule.expiresAt = some expiresAt) :
    (∃ faults transitions, (sets.faults = [] → faults = []) ∧
      (m.deployToSets sets rule now upgradeOf).2 = { m with
        sets := some { sets with faults }
        rules := m.rules.set rule.id { rule with status := .rejected }
        transitions }) ∨
    ∃ additions metadata sets', SetDeployment m sets rule now upgradeOf
      (m.deployToSets sets rule now upgradeOf).2 target additions metadata sets' := by
  rcases m.deployToSets_outcomes sets rule now upgradeOf with
    ⟨_, hraises⟩ | hrefused | ⟨target', additions, metadata, sets', hdeploy⟩
  · obtain ⟨e, he⟩ := hraises target hfiled
    exact absurd he (elementAddition_isOk hexpiry target now _ e)
  · exact .inl hrefused
  · obtain rfl := Option.some.inj (hdeploy.filed.symm.trans hfiled)
    exact .inr ⟨additions, metadata, sets', hdeploy⟩

/-- A deployment leaves the limiter, the mode and the path. -/
theorem deployToSets_frame (m : FirewallManager) (sets : FakeSetBackend) (rule : FirewallRule) (now : Time)
    (upgradeOf : Option String) (hsets : m.sets.isSome = true) :
    (m.deployToSets sets rule now upgradeOf).2.rateLimiter = m.rateLimiter ∧
      (m.deployToSets sets rule now upgradeOf).2.enforcementMode = m.enforcementMode ∧
      (m.deployToSets sets rule now upgradeOf).2.sets.isSome = true := by
  rcases m.deployToSets_cases sets rule now upgradeOf with
    heq | ⟨faults, transitions, _, heq⟩ | ⟨target, additions, metadata, sets', hdeploy⟩
  · rw [heq]
    exact ⟨rfl, rfl, hsets⟩
  · rw [heq]
    exact ⟨rfl, rfl, rfl⟩
  · obtain ⟨transitions, hm'⟩ := hdeploy.result
    rw [hm']
    exact ⟨rfl, rfl, rfl⟩

/-! ## Submission and approval -/

/-- How a candidate that passed its chain is kept without being deployed: shadowed in SHADOW mode, held
for review in ASSISTED mode. -/
def KeptAs (m : FirewallManager) (candidate : CandidateRule) (status : RuleStatus) : Prop :=
  (status = .shadowed ∧ m.enforcementMode = .shadow) ∨
    (status = .pendingApproval ∧ m.enforcementMode = .assisted ∧ candidate.action = .block)

/-- In ASSISTED mode a candidate that needs a review is held for it. -/
theorem keptAs_pending {m : FirewallManager} {candidate : CandidateRule}
    (hmode : m.enforcementMode = .assisted) (hreview : m.needsReview candidate = true) :
    KeptAs m candidate .pendingApproval := by
  simp only [needsReview, Bool.and_eq_true, beq_iff_eq] at hreview
  exact .inr ⟨rfl, hmode, hreview.1⟩

/-- `_submit_to_sets` rejects, keeps the rule without deploying it, or deploys it. -/
theorem submitToSets_cases (m : FirewallManager) (env : Env) (sets : FakeSetBackend)
    (candidate : CandidateRule) :
    (∃ rateLimiter, (m.submitToSets env sets candidate).2 = { m with rateLimiter }) ∨
    ∃ target upgradeOf rule,
      m.targetFor env candidate.toRuleFields = some target ∧
      SetAdmitted candidate target m.config m.activeTargets m.allowlist env.now env.localAddresses
        upgradeOf ∧
      (∃ priority h, rule = candidate.toRule priority (some target) h) ∧
      ((∃ status rateLimiter transitions, KeptAs m candidate status ∧
        (m.submitToSets env sets candidate).2 = { m with
          rateLimiter, transitions
          targets := m.targets.set candidate.id target
          rules := m.rules.set candidate.id { rule with status := status } }) ∨
      (m.enforcementMode ≠ .shadow ∧ ∃ rateLimiter transitions, (m.submitToSets env sets candidate).2 =
        ({ m with
          rateLimiter, transitions
          targets := m.targets.set candidate.id target }.deployToSets sets rule env.now upgradeOf).2)) := by
  unfold submitToSets
  simp only
  split
  · exact .inl ⟨_, rfl⟩
  · exact .inl ⟨_, rfl⟩
  · rename_i upgradeOf target houtcome htarget
    obtain ⟨t, ht, hadmitted⟩ := validateSetCandidate_ok (Prod.ext houtcome rfl)
    obtain rfl := Option.some.inj (htarget.symm.trans ht)
    refine .inr ⟨target, upgradeOf, candidate.toRule (assignPriority candidate.threatScore) (some target)
      (targetFor_source htarget), htarget, hadmitted, ⟨_, _, rfl⟩, ?_⟩
    split
    · rename_i hmode
      exact .inl ⟨.shadowed, _, _, .inl ⟨rfl, hmode⟩, rfl⟩
    · rename_i hmode
      split
      · rename_i hreview
        exact .inl ⟨.pendingApproval, _, _, keptAs_pending hmode hreview, rfl⟩
      · exact .inr ⟨fun h => absurd (hmode.symm.trans h) (by simp), _, _, rfl⟩
    · rename_i hmode
      exact .inr ⟨fun h => absurd (hmode.symm.trans h) (by simp), _, _, rfl⟩

/-- `_deploy`: the rule backend is called once, and the rule is ACTIVE or REJECTED. -/
theorem deploy_cases (m : FirewallManager) (rule : FirewallRule) (now : Time) :
    ∃ backend transitions rule', backend.applyCalls = m.backend.applyCalls + 1 ∧
      (rule' = { rule with status := .rejected } ∨ rule' = rule.activated now rule.metadata) ∧
      (m.deploy rule now).2 = { m with
        backend, transitions
        rules := m.rules.set rule.id rule' } := by
  unfold deploy
  have hcalls : (m.backend.applyRule rule).2.applyCalls = m.backend.applyCalls + 1 := by
    simp only [FakeFirewallBackend.applyRule]
    split <;> rfl
  split
  · rename_i e backend heq
    rw [heq] at hcalls
    exact ⟨backend, _, _, hcalls, .inl rfl, rfl⟩
  · rename_i backend heq
    rw [heq] at hcalls
    exact ⟨backend, _, _, hcalls, .inr rfl, rfl⟩

/-- A deployment to the rule backend leaves the sets alone. -/
theorem deploy_sets (m : FirewallManager) (rule : FirewallRule) (now : Time) :
    (m.deploy rule now).2.sets = m.sets := by
  obtain ⟨_, _, _, _, _, heq⟩ := m.deploy_cases rule now
  rw [heq]

/-- The v1 submission rejects, keeps the rule without deploying it, or deploys it. -/
theorem submitToBackend_cases (m : FirewallManager) (env : Env) (candidate : CandidateRule) :
    (∃ rateLimiter, (m.submitToBackend env candidate).2 = { m with rateLimiter }) ∨
    ∃ priority rateLimiter, (∃ expiresAt, candidate.expiresAt = some expiresAt) ∧
      ((∃ status transitions, KeptAs m candidate status ∧
        (m.submitToBackend env candidate).2 = { m with
          rateLimiter, transitions
          rules := m.rules.set candidate.id
            { candidate.toRule priority candidate.target candidate.target_is_source with
              status := status } }) ∨
      (m.enforcementMode ≠ .shadow ∧ ∃ transitions, (m.submitToBackend env candidate).2 =
        ({ m with rateLimiter, transitions }.deploy
          (candidate.toRule priority candidate.target candidate.target_is_source) env.now).2)) := by
  unfold submitToBackend
  split
  · exact .inl ⟨_, rfl⟩
  · rename_i priority rateLimiter houtcome
    refine .inr ⟨priority, rateLimiter.record env.now, validateCandidateRule_ok houtcome, ?_⟩
    simp only
    split
    · rename_i hmode
      exact .inl ⟨.shadowed, _, .inl ⟨rfl, hmode⟩, rfl⟩
    · rename_i hmode
      split
      · rename_i hreview
        exact .inl ⟨.pendingApproval, _, keptAs_pending hmode hreview, rfl⟩
      · exact .inr ⟨fun h => absurd (hmode.symm.trans h) (by simp), _, rfl⟩
    · rename_i hmode
      exact .inr ⟨fun h => absurd (hmode.symm.trans h) (by simp), _, rfl⟩

/-- Approving a PENDING rule: it is recorded as APPROVED and deployed. -/
theorem approvePending_pending {m : FirewallManager} {ruleId : String} {rule : FirewallRule} (now : Time)
    (hrule : m.rules.get? ruleId = some rule) (hpending : rule.status = .pendingApproval) :
    (m.approvePending ruleId now).2 =
      match m.sets with
      | some sets => ((m.record ruleId (some .pendingApproval) .approved now
          "approved by administrator").deployToSets sets { rule with status := .approved } now
          (m.rateLimitToUpgrade { rule with status := .approved })).2
      | none => ((m.record ruleId (some .pendingApproval) .approved now
          "approved by administrator").deploy { rule with status := .approved } now).2 := by
  simp only [approvePending, hrule, ne_eq, hpending, not_true, if_false]
  split
  · rename_i sets hsets
    have hsame : m.sets = some sets := hsets
    rw [hsame]
    split
    · rename_i heq
      exact (congrArg Prod.snd heq).symm
    · rename_i heq
      exact (congrArg Prod.snd heq).symm
  · rename_i hsets
    have hsame : m.sets = none := hsets
    rw [hsame]

/-- `approve_pending` does nothing, or deploys a PENDING rule. -/
theorem approvePending_cases (m : FirewallManager) (ruleId : String) (now : Time) :
    (m.approvePending ruleId now).2 = m ∨
    ∃ rule, m.rules.get? ruleId = some rule ∧ rule.status = .pendingApproval ∧
      ((∃ sets transitions, m.sets = some sets ∧ (m.approvePending ruleId now).2 =
        ({ m with transitions }.deployToSets sets { rule with status := .approved } now
          (m.rateLimitToUpgrade { rule with status := .approved })).2) ∨
      (m.sets = none ∧ ∃ transitions, (m.approvePending ruleId now).2 =
        ({ m with transitions }.deploy { rule with status := .approved } now).2)) := by
  cases hrule : m.rules.get? ruleId with
  | none =>
    simp only [approvePending, hrule]
    exact .inl trivial
  | some rule =>
    by_cases hpending : rule.status = .pendingApproval
    · refine .inr ⟨rule, rfl, hpending, ?_⟩
      have heq := approvePending_pending now hrule hpending
      rcases Option.eq_none_or_eq_some m.sets with hsets | ⟨sets, hsets⟩
      · rw [hsets] at heq
        exact .inr ⟨hsets, _, heq⟩
      · rw [hsets] at heq
        exact .inl ⟨sets, _, hsets, heq⟩
    · simp only [approvePending, hrule, if_pos hpending]
      exact .inl trivial

/-- An entry of `_active_targets` is an ACTIVE rule with the target it was filed with. -/
theorem mem_activeTargets {m : FirewallManager} (hkeyed : Keyed m) {entry : ActiveTarget} :
    entry ∈ m.activeTargets ↔ m.rules.get? entry.rule.id = some entry.rule ∧
      entry.rule.status = .active ∧ m.targets.get? entry.rule.id = some entry.target := by
  rw [activeTargets, List.mem_filterMap]
  constructor
  · rintro ⟨rule, hrule, hentry⟩
    obtain ⟨target, htarget, rfl⟩ := Option.map_eq_some_iff.mp hentry
    obtain ⟨hget, hactive⟩ := (mem_activeRules hkeyed).mp hrule
    exact ⟨hget, hactive, htarget⟩
  · rintro ⟨hget, hactive, htarget⟩
    exact ⟨entry.rule, (mem_activeRules hkeyed).mpr ⟨hget, hactive⟩, by rw [htarget]; rfl⟩

/-! ## Reconcile -/

/-- What listing the adaptive sets does: expired elements may be dropped, the live ones are reported. -/
structure Listed (sets sets' : FakeSetBackend) (now : Time) (names : List String)
    (live : Except String (List ((String × ElementKey) × Option Int))) : Prop where
  expiry : ∀ a k, sets'.expiry? a k = sets.expiry? a k ∨
    sets'.expiry? a k = (sets.expiry? a k).filter (isLive now)
  ops : sets'.ops = sets.ops
  faults : sets'.faults = sets.faults
  loaded : ∀ a, (sets'.find? a).isSome = (sets.find? a).isSome
  tables : ∀ location, sets'.tables.contains location = sets.tables.contains location
  /-- Every element the kernel still holds was reported. -/
  complete : ∀ elements, live = .ok elements → ∀ name ∈ names, ∀ k e,
    sets'.expiry? (adaptiveSet name) k = some e → (name, k) ∈ elements.map Prod.fst
  /-- Every reported element was live. -/
  sound : ∀ elements, live = .ok elements → ∀ location ∈ elements.map Prod.fst,
    location.1 ∈ names ∧ ∃ e, sets.expiry? (adaptiveSet location.1) location.2 = some e ∧
      isLive now e = true

/-- What is left of an element that was dropped if expired. -/
theorem Listed.of_some {sets sets' : FakeSetBackend} {now : Time} {names : List String}
    {live : Except String (List ((String × ElementKey) × Option Int))}
    (h : Listed sets sets' now names live) {a : SetAddress} {k : ElementKey} {e : Option Time}
    (he : sets'.expiry? a k = some e) : sets.expiry? a k = some e := by
  rcases h.expiry a k with heq | heq
  · exact heq ▸ he
  · rw [heq, Option.filter_eq_some_iff] at he
    exact he.1

theorem listLive_listed (sets : FakeSetBackend) (now : Time) (names : List String) :
    Listed sets (listLive sets now names).2 now names (listLive sets now names).1 := by
  induction names generalizing sets with
  | nil =>
    refine ⟨fun _ _ => .inl rfl, rfl, rfl, fun _ => rfl, fun _ => rfl, by simp, ?_⟩
    intro elements h
    obtain rfl := Except.ok.inj h
    simp
  | cons name names ih =>
    obtain ⟨_, hops, hfaults, hloaded, htables⟩ := sets.listSet_frame (adaptiveSet name) now
    unfold listLive
    split
    · rename_i e sets₁ heq
      have hsame : sets₁ = sets := by
        rw [FakeSetBackend.listSet] at heq
        split at heq
        · exact (Prod.mk.inj heq).2.symm
        · exact absurd (Prod.mk.inj heq).1 (by simp)
      subst hsame
      exact ⟨fun _ _ => .inl rfl, rfl, rfl, fun _ => rfl, fun _ => rfl, fun _ h => absurd h (by simp),
        fun _ h => absurd h (by simp)⟩
    · rename_i elements sets₁ heq
      obtain ⟨hkeys, hexpiry⟩ := FakeSetBackend.listSet_ok (congrArg Prod.fst heq)
      rw [heq] at hops hfaults hloaded htables hexpiry
      simp only at hops hfaults hloaded htables hexpiry
      have hrest := ih sets₁
      -- one listing after another drops at most what one of them drops
      have hboth : ∀ {sets₂ : FakeSetBackend} {r}, Listed sets₁ sets₂ now names r → ∀ a k,
          sets₂.expiry? a k = sets.expiry? a k ∨
            sets₂.expiry? a k = (sets.expiry? a k).filter (isLive now) := by
        intro sets₂ r h a k
        have hfirst := hexpiry a k
        rcases h.expiry a k with h₂ | h₂
        · rw [h₂, hfirst]
          split
          · rename_i ha
            exact .inr (by rw [ha])
          · exact .inl rfl
        · rw [h₂, hfirst]
          split
          · rename_i ha
            refine .inr ?_
            rw [ha, Option.filter_filter]
            simp
          · exact .inr rfl
      split
      · rename_i e sets₂ heq₂
        rw [heq₂] at hrest
        exact ⟨hboth hrest, hrest.ops.trans hops, hrest.faults.trans hfaults,
          fun a => (hrest.loaded a).trans (hloaded a),
          fun location => (hrest.tables location).trans (htables location),
          fun _ h => absurd h (by simp), fun _ h => absurd h (by simp)⟩
      · rename_i rest sets₂ heq₂
        rw [heq₂] at hrest
        refine ⟨hboth hrest, hrest.ops.trans hops, hrest.faults.trans hfaults,
          fun a => (hrest.loaded a).trans (hloaded a),
          fun location => (hrest.tables location).trans (htables location), ?_, ?_⟩
        · intro live hlive name' hname' k e he
          obtain rfl := Except.ok.inj hlive
          rw [List.map_append, List.mem_append]
          rcases List.mem_cons.mp hname' with rfl | hname'
          · have h₁ := hrest.of_some he
            rw [hexpiry, if_pos rfl, Option.filter_eq_some_iff] at h₁
            obtain ⟨el, hel, rfl⟩ := List.mem_map.mp ((hkeys k).mpr ⟨e, h₁⟩)
            refine .inl (List.mem_map.mpr ⟨((name', el.key), el.expiresInSeconds), ?_, rfl⟩)
            exact List.mem_map.mpr ⟨el, hel, rfl⟩
          · exact .inr (hrest.complete rest rfl name' hname' k e he)
        · intro live hlive location hlocation
          obtain rfl := Except.ok.inj hlive
          rw [List.map_append, List.mem_append, List.map_map] at hlocation
          rcases hlocation with hhere | hthere
          · obtain ⟨el, hel, rfl⟩ := List.mem_map.mp hhere
            exact ⟨List.mem_cons_self, (hkeys el.key).mp (List.mem_map_of_mem hel)⟩
          · obtain ⟨hname, e, he, helive⟩ := hrest.sound rest rfl location hthere
            refine ⟨List.mem_cons_of_mem _ hname, e, ?_, helive⟩
            rw [hexpiry] at he
            split at he
            · rename_i ha
              rw [Option.filter_eq_some_iff] at he
              rw [ha]
              exact he.1
            · exact he

/-- Listing different sets finds every element once. -/
theorem listLive_nodup {sets : FakeSetBackend} {now : Time} {names : List String} (hnames : names.Nodup)
    {live : List ((String × ElementKey) × Option Int)} (h : (listLive sets now names).1 = .ok live) :
    (live.map Prod.fst).Nodup := by
  induction names generalizing sets live with
  | nil =>
    obtain rfl := Except.ok.inj h
    simp
  | cons name names ih =>
    obtain ⟨hnew, hnames⟩ := List.nodup_cons.mp hnames
    unfold listLive at h
    split at h
    · exact absurd h (by simp)
    · rename_i elements sets₁ heq
      split at h
      · exact absurd h (by simp)
      · rename_i rest sets₂ heq₂
        obtain rfl := Except.ok.inj h
        have hlisted := listLive_listed sets₁ now names
        have hrest : (listLive sets₁ now names).1 = .ok rest := congrArg Prod.fst heq₂
        have hkeys := FakeSetBackend.listSet_nodup (congrArg Prod.fst heq)
        have hhere : ((elements.map fun el => ((name, el.key), el.expiresInSeconds)).map Prod.fst) =
            (elements.map ElementState.key).map (Prod.mk name) := by
          simp only [List.map_map]
          rfl
        rw [List.map_append, hhere, List.nodup_append]
        refine ⟨hkeys.map (fun _ _ hsame => (Prod.mk.inj hsame).2), ih hnames hrest, ?_⟩
        rintro location hlocation location' hlocation' rfl
        obtain ⟨key, _, rfl⟩ := List.mem_map.mp hlocation
        exact hnew (hlisted.sound rest hrest _ hlocation').1


/-- `_adopt` refuses a key that is no address, or files one ACTIVE rule that records the element. -/
theorem adopt_cases (m : FirewallManager) (setName key : String) (expiresIn : Option Int) (now : Time) :
    (m.adopt setName key expiresIn now).2 = m ∨
    ∃ rule ip transitions, rule.id = reconciledId setName key ∧ rule.status = .active ∧
      elementOf rule = some (setName, .one key) ∧
      (m.adopt setName key expiresIn now).2 = { m with
        rules := m.rules.set rule.id rule
        targets := m.targets.set rule.id ⟨ip, none⟩
        transitions } := by
  unfold adopt
  split
  · exact .inl rfl
  · rename_i ip _
    have hne : metaSet ≠ metaKey := by decide
    refine .inr ⟨adoptedRule setName key ip (expiresIn.getD m.config.policy.maxTtlSeconds) now, ip, _,
      rfl, rfl, ?_, rfl⟩
    simp [elementOf, adoptedRule, hne]

/-- The adopting loop adopts some of the listed IP-keyed elements no ACTIVE rule is known for. -/
theorem adoptUnknown_induction {I : FirewallManager → Prop} {K : List (String × ElementKey)}
    {now : Time} (live : List ((String × ElementKey) × Option Int))
    (hstep : ∀ m setName key expiresIn, (setName, ElementKey.one key) ∈ live.map Prod.fst →
      (setName, ElementKey.one key) ∉ K → setName ∈ ipKeyedSets → I m →
      I (m.adopt setName key expiresIn now).2)
    (m : FirewallManager) (report : ReconcileReport) (h : I m) :
    I (m.adoptUnknown K now report live).2 := by
  induction live generalizing m report with
  | nil => exact h
  | cons entry rest ih =>
    obtain ⟨⟨setName, key⟩, expiresIn⟩ := entry
    have hrest := ih fun m setName key expiresIn hmem =>
      hstep m setName key expiresIn (by simpa using .inr (by simpa using hmem))
    unfold adoptUnknown
    split
    · exact hrest m report h
    · rename_i hunknown
      split
      · exact hrest m _ h
      · rename_i text
        split
        · exact hrest m _ h
        · rename_i hset
          have hadopt := hstep m setName text expiresIn (by simp) hunknown (not_not.mp hset) h
          split
          · rename_i heq
            rw [heq] at hadopt
            exact hadopt
          · rename_i heq
            rw [heq] at hadopt
            exact hrest _ _ hadopt

/-- The elements reconcile finds an ACTIVE rule for. -/
def knownElements (m : FirewallManager) (locations : List (String × ElementKey)) :
    List (String × ElementKey) :=
  (m.activeRules.filterMap elementOf).filter fun location => locations.contains location

/-- `reconcile` stops at a missing table or a failed listing, or retires the rules whose element is gone
and adopts what nothing here knows. -/
theorem reconcile_cases {m : FirewallManager} {b : FakeSetBackend} (hsets : m.sets = some b)
    (now : Time) :
    (m.reconcile now).2 = m ∨
    (∃ b' e, Listed b b' now adaptiveEnforcementSets (.error e) ∧
      (m.reconcile now).2 = { m with sets := some b' }) ∨
    ∃ b' live report, Listed b b' now adaptiveEnforcementSets (.ok live) ∧ (m.reconcile now).2 =
      (({ m with sets := some b' }.retireMissing (live.map Prod.fst) now).2.adoptUnknown
        (m.knownElements (live.map Prod.fst)) now report (sortedLive live)).2 := by
  have hlisted := listLive_listed b now adaptiveEnforcementSets
  unfold reconcile
  rw [hsets]
  simp only
  split
  · exact .inl rfl
  · split
    · rename_i e b' heq
      rw [heq] at hlisted
      exact .inr (.inl ⟨b', e, hlisted, rfl⟩)
    · rename_i live b' heq
      rw [heq] at hlisted
      simp only [knownElements, List.contains_eq_mem]
      exact .inr (.inr ⟨b', live, _, hlisted, rfl⟩)

/-- Sorting a listing loses no element. -/
theorem mem_sortedLive {live : List ((String × ElementKey) × Option Int)}
    {location : String × ElementKey} :
    location ∈ (sortedLive live).map Prod.fst ↔ location ∈ live.map Prod.fst :=
  ((List.perm_insertionSort _ live).map Prod.fst).mem_iff

/-- An element of the listing that an ACTIVE rule records is known. -/
theorem mem_knownElements {m : FirewallManager} (hkeyed : Keyed m)
    {locations : List (String × ElementKey)} {id : String} {rule : FirewallRule}
    {element : String × ElementKey} (hrule : m.rules.get? id = some rule)
    (hactive : rule.status = .active) (hel : elementOf rule = some element)
    (hmem : element ∈ locations) : element ∈ m.knownElements locations := by
  refine List.mem_filter.mpr ⟨List.mem_filterMap.mpr ⟨rule, ?_, hel⟩, by simpa using hmem⟩
  exact (mem_activeRules hkeyed).mpr ⟨by rw [hkeyed id rule hrule]; exact hrule, hactive⟩

/-! ## Where rules can come from -/

/-- Every call but submission, approval and reconcile only retires. -/
theorem step_retires {m : FirewallManager} (hkeyed : Keyed m) (env : Env) (op : ManagerOp)
    (hsubmit : ∀ candidate, op ≠ .submitCandidate candidate)
    (happrove : ∀ ruleId, op ≠ .approvePending ruleId) (hreconcile : op ≠ .reconcile) :
    Retires m (m.step (env, op)) := by
  by_cases hk : isHousekeeping op = true
  · have h := m.step_housekeeping env op hk
    exact .of_eq h.rules h.targets h.config
  have hrevert : Retires m (m.revertToBase env.now).2 := by
    cases hsets : m.sets with
    | some b => exact (revertToBase_demoted hsets hkeyed env.now).retiresFrom (.of_eq rfl rfl rfl)
    | none =>
      unfold revertToBase
      rw [hsets]
      exact (revertBackend_demoted hkeyed env.now).retiresFrom (.of_eq rfl rfl rfl)
  cases op with
  | submitCandidate candidate => exact absurd rfl (hsubmit candidate)
  | approvePending ruleId => exact absurd rfl (happrove ruleId)
  | reconcile => exact absurd rfl hreconcile
  | rejectPending ruleId => exact .rejectPending m ruleId env.now
  | disableRule ruleId => exact .retireRule m ruleId env.now _ (by simp) (by simp)
  | removeRule ruleId => exact .retireRule m ruleId env.now _ (by simp) (by simp)
  | expireRules => exact .expireRules m env.now
  | revertToBase => exact hrevert
  | failOpenShutdown =>
    cases hsets : m.sets with
    | some b => exact (failOpenShutdown_demoted hsets hkeyed env.now).retiresFrom (.of_eq rfl rfl rfl)
    | none =>
      simp only [step, failOpenShutdown, hsets]
      exact hrevert
  | panic actor =>
    cases hsets : m.sets with
    | some b =>
      rcases panic_demoted hsets hkeyed actor env.now with ⟨_, _, heq⟩ | hdemoted
      · simp only [step, heq]
        exact .of_eq rfl rfl rfl
      · exact hdemoted.retiresFrom (.of_eq rfl rfl rfl)
    | none =>
      simp only [step, panic, hsets]
      exact .refl m
  | _ => exact absurd rfl hk

/-- The candidate id a call submits. -/
def candidateId : ManagerOp → Option String
  | .submitCandidate candidate => some candidate.id
  | _ => none

/-- The candidate ids of a run, in order. -/
def candidateIds (calls : List (Env × ManagerOp)) : List String :=
  calls.filterMap fun call => candidateId call.2

/-- The ids under which reconcile files what it adopts. -/
def IsReconciledId (id : String) : Prop := ∃ setName ∈ ipKeyedSets, ∃ key, id = reconciledId setName key

/-- Rules stay filed under their ids, and a new id is the submitted candidate's or one of reconcile's. -/
structure Files (m m' : FirewallManager) (op : ManagerOp) : Prop where
  keyed : Keyed m'
  keys : ∀ id ∈ m'.rules.keys, id ∈ m.rules.keys ∨ candidateId op = some id ∨
    (op = .reconcile ∧ IsReconciledId id)

theorem Retires.files {m m' : FirewallManager} (h : Retires m m') (hkeyed : Keyed m) (op : ManagerOp) :
    Files m m' op := ⟨h.keyed hkeyed, fun _ hid => .inl (h.keys hid)⟩

theorem keyed_set {m m' : FirewallManager} (hkeyed : Keyed m) {r : FirewallRule}
    (hrules : m'.rules = m.rules.set r.id r) : Keyed m' := by
  intro id other hr
  rw [hrules, Dict.get?_set] at hr
  split at hr
  · rename_i heq
    exact (Option.some.inj hr) ▸ heq.symm
  · exact hkeyed id other hr

theorem Files.same {m m' : FirewallManager} {op : ManagerOp} (hkeyed : Keyed m)
    (hrules : m'.rules = m.rules) : Files m m' op :=
  ⟨fun id rule hrule => hkeyed id rule (hrules ▸ hrule), fun _ hid => .inl (hrules ▸ hid)⟩

/-- Filing one rule, under a known id or the submitted one. -/
theorem Files.set {m m' : FirewallManager} {op : ManagerOp} (hkeyed : Keyed m) {r : FirewallRule}
    (hrules : m'.rules = m.rules.set r.id r)
    (hid : r.id ∈ m.rules.keys ∨ candidateId op = some r.id) : Files m m' op where
  keyed := keyed_set hkeyed hrules
  keys := by
    intro id hmem
    rw [hrules, Dict.mem_keys_set] at hmem
    rcases hmem with rfl | hmem
    · exact hid.imp_right .inl
    · exact .inl hmem

theorem deployToSets_keyed {m : FirewallManager} (hkeyed : Keyed m) (sets : FakeSetBackend)
    (rule : FirewallRule) (now : Time) (upgradeOf : Option String) :
    Keyed (m.deployToSets sets rule now upgradeOf).2 := by
  rcases m.deployToSets_cases sets rule now upgradeOf with
    heq | ⟨faults, transitions, _, heq⟩ | ⟨target, additions, metadata, sets', hdeploy⟩
  · rw [heq]
    exact hkeyed
  · rw [heq]
    exact keyed_set (r := { rule with status := .rejected }) hkeyed rfl
  · obtain ⟨transitions, hm'⟩ := hdeploy.result
    have hbefore : Keyed { m with rules := match m.replacedBy upgradeOf with
        | none => m.rules
        | some old => m.rules.set old.id (demote old) } := by
      cases m.replacedBy upgradeOf with
      | none => exact hkeyed
      | some old => exact keyed_set (r := demote old) hkeyed rfl
    rw [hm']
    exact keyed_set (r := rule.activated now metadata) hbefore rfl

theorem deployToSets_files {m : FirewallManager} (op : ManagerOp) (hkeyed : Keyed m)
    (sets : FakeSetBackend) (rule : FirewallRule) (now : Time) (upgradeOf : Option String)
    (hid : rule.id ∈ m.rules.keys ∨ candidateId op = some rule.id) :
    Files m (m.deployToSets sets rule now upgradeOf).2 op := by
  refine ⟨deployToSets_keyed hkeyed sets rule now upgradeOf, ?_⟩
  rcases m.deployToSets_cases sets rule now upgradeOf with
    heq | ⟨faults, transitions, _, heq⟩ | ⟨target, additions, metadata, sets', hdeploy⟩
  · rw [heq]
    exact fun id hmem => .inl hmem
  · rw [heq]
    exact (Files.set (r := { rule with status := .rejected }) hkeyed rfl hid).keys
  · obtain ⟨transitions, hm'⟩ := hdeploy.result
    rw [hm']
    intro id hmem
    obtain ⟨r, hr⟩ := Dict.mem_keys_iff.mp hmem
    rw [get?_deployedRules] at hr
    split at hr
    · rename_i hsame
      rw [hsame]
      exact hid.imp_right .inl
    · split at hr
      · -- superseding an ACTIVE rule files it again under its own id
        rename_i hrep
        obtain ⟨old, hold, rfl⟩ := Option.map_eq_some_iff.mp hrep
        obtain ⟨hget, _⟩ := Option.filter_eq_some_iff.mp hold
        obtain ⟨id', _, hrule⟩ := Option.bind_eq_some_iff.mp hget
        refine .inl (Dict.mem_keys_iff.mpr ⟨old, ?_⟩)
        rw [hkeyed id' old hrule]
        exact hrule
      · exact .inl (Dict.mem_keys_iff.mpr ⟨r, hr⟩)

theorem deploy_files {m : FirewallManager} (op : ManagerOp) (hkeyed : Keyed m) (rule : FirewallRule)
    (now : Time) (hid : rule.id ∈ m.rules.keys ∨ candidateId op = some rule.id) :
    Files m (m.deploy rule now).2 op := by
  obtain ⟨backend, transitions, rule', _, hrule', heq⟩ := m.deploy_cases rule now
  rw [heq]
  have hid' : rule'.id = rule.id := by
    rcases hrule' with rfl | rfl <;> rfl
  exact .set (r := rule') hkeyed (by rw [hid']) (by rw [hid']; exact hid)

/-- Every call files rules under their own ids, and no id but the candidate's or one of reconcile's is new. -/
theorem step_files {m : FirewallManager} (hkeyed : Keyed m) (env : Env) (op : ManagerOp) :
    Files m (m.step (env, op)) op := by
  by_cases hother : (∀ candidate, op ≠ .submitCandidate candidate) ∧
      (∀ ruleId, op ≠ .approvePending ruleId) ∧ op ≠ .reconcile
  · exact (step_retires hkeyed env op hother.1 hother.2.1 hother.2.2).files hkeyed op
  cases op with
  | submitCandidate candidate =>
    simp only [step, submitCandidate]
    split
    · rename_i sets hsets
      rcases m.submitToSets_cases env sets candidate with
        ⟨_, heq⟩ | ⟨target, upgradeOf, rule, _, _, ⟨priority, hsource, rfl⟩, hcases⟩
      · rw [heq]
        exact .same hkeyed rfl
      · rcases hcases with ⟨status, _, _, _, heq⟩ | ⟨_, rateLimiter, transitions, heq⟩
        · rw [heq]
          exact .set (r := { candidate.toRule priority (some target) hsource with status := status })
            hkeyed rfl (.inr rfl)
        · rw [heq]
          have h := deployToSets_files (m := { m with
            rateLimiter, transitions
            targets := m.targets.set candidate.id target }) (.submitCandidate candidate) hkeyed sets
            (candidate.toRule priority (some target) hsource) env.now upgradeOf (.inr rfl)
          exact ⟨h.keyed, h.keys⟩
    · rcases m.submitToBackend_cases env candidate with
        ⟨_, heq⟩ | ⟨priority, rateLimiter, _, ⟨status, _, _, heq⟩ | ⟨_, transitions, heq⟩⟩
      · rw [heq]
        exact .same hkeyed rfl
      · rw [heq]
        exact .set (r := { candidate.toRule priority candidate.target candidate.target_is_source with
          status := status }) hkeyed rfl (.inr rfl)
      · rw [heq]
        have h := deploy_files (m := { m with rateLimiter, transitions })
          (.submitCandidate candidate) hkeyed
          (candidate.toRule priority candidate.target candidate.target_is_source) env.now (.inr rfl)
        exact ⟨h.keyed, h.keys⟩
  | approvePending ruleId =>
    rcases m.approvePending_cases ruleId env.now with heq | ⟨rule, hrule, _, hcases⟩
    · simp only [step, heq]
      exact .same hkeyed rfl
    -- an approval files the rule where it is filed already
    · have hid : rule.id ∈ m.rules.keys :=
        Dict.mem_keys_iff.mpr ⟨rule, by rw [hkeyed ruleId rule hrule]; exact hrule⟩
      rcases hcases with ⟨sets, transitions, _, heq⟩ | ⟨_, transitions, heq⟩
      · simp only [step, heq]
        have h := deployToSets_files (m := { m with transitions }) (.approvePending ruleId) hkeyed
          sets { rule with status := .approved } env.now
          (m.rateLimitToUpgrade { rule with status := .approved }) (.inl hid)
        exact ⟨h.keyed, h.keys⟩
      · simp only [step, heq]
        have h := deploy_files (m := { m with transitions }) (.approvePending ruleId) hkeyed
          { rule with status := .approved } env.now (.inl hid)
        exact ⟨h.keyed, h.keys⟩
  | reconcile =>
    cases hsets : m.sets with
    | none =>
      simp only [step, reconcile, hsets]
      exact .same hkeyed rfl
    | some b =>
      rcases reconcile_cases hsets env.now with heq | ⟨b', e, _, heq⟩ | ⟨b', live, report, _, heq⟩
      · simp only [step, heq]
        exact .same hkeyed rfl
      · simp only [step, heq]
        exact .same hkeyed rfl
      · simp only [step, heq]
        -- what is adopted is filed under the id its element gives; the loop before files nothing new
        refine adoptUnknown_induction (I := fun m' => Files m m' .reconcile) _ ?_ _ report ?_
        · intro m' setName key expiresIn _ _ hset hm'
          rcases m'.adopt_cases setName key expiresIn env.now with
            heq | ⟨rule, ip, transitions, hid, _, _, heq⟩
          · rw [heq]
            exact hm'
          · rw [heq]
            refine ⟨keyed_set (r := rule) hm'.keyed rfl, ?_⟩
            · intro id hmem
              rw [Dict.mem_keys_set] at hmem
              rcases hmem with rfl | hmem
              · exact .inr (.inr ⟨rfl, setName, hset, key, hid⟩)
              · exact hm'.keys id hmem
        · have hdemoted := retireMissing_demoted (m := { m with sets := some b' }) hkeyed
            (live.map Prod.fst) env.now
          have hretires : Retires m _ := hdemoted.retiresFrom (.of_eq rfl rfl rfl)
          exact hretires.files hkeyed _
  | _ => exact absurd ⟨by simp, by simp, by simp⟩ hother

theorem step_keyed {m : FirewallManager} (hkeyed : Keyed m) (call : Env × ManagerOp) :
    Keyed (m.step call) := (step_files hkeyed call.1 call.2).keyed

/-- In every state of a run, rules are filed under their own ids. -/
theorem run_keyed {m : FirewallManager} (hkeyed : Keyed m) (calls : List (Env × ManagerOp)) :
    Keyed (m.run calls) := by
  induction calls generalizing m with
  | nil => exact hkeyed
  | cons call calls ih => exact ih (step_keyed hkeyed call)

/-- A submitted candidate's id is new to the manager. -/
def FreshCandidate (m : FirewallManager) (call : Env × ManagerOp) : Prop :=
  ∀ candidate, call.2 = .submitCandidate candidate → candidate.id ∉ m.rules.keys

theorem candidateIds_cons {call : Env × ManagerOp} {calls : List (Env × ManagerOp)} {id : String}
    (h : id ∈ candidateIds calls) : id ∈ candidateIds (call :: calls) := by
  rw [candidateIds, List.filterMap_cons]
  split
  · exact h
  · exact List.mem_cons_of_mem _ h

/-- When candidate ids are distinct, a submitted id that is filed already was filed by reconcile: if ids of
that kind have `P`, it does. -/
theorem filedId_along {P : String → Prop} {calls : List (Env × ManagerOp)}
    (hdistinct : (candidateIds calls).Nodup)
    (hids : (∀ call ∈ calls, call.2 ≠ .reconcile) ∨ ∀ id ∈ candidateIds calls, IsReconciledId id → P id)
    {m : FirewallManager} (hkeyed : Keyed m) (hfiled : ∀ id ∈ candidateIds calls, id ∈ m.rules.keys → P id) :
    Along step (fun m call => ∀ candidate, call.2 = .submitCandidate candidate →
      candidate.id ∈ m.rules.keys → P candidate.id) m calls := by
  induction calls generalizing m with
  | nil => trivial
  | cons call calls ih =>
    have hfiles := step_files hkeyed call.1 call.2
    refine ⟨?_, ih ?_ ?_ hfiles.keyed ?_⟩
    · intro candidate hop
      exact hfiled _ (by simp [candidateIds, hop, candidateId])
    · rw [candidateIds, List.filterMap_cons] at hdistinct
      split at hdistinct
      · exact hdistinct
      · exact (List.nodup_cons.mp hdistinct).2
    · exact hids.imp (fun h c hc => h c (List.mem_cons_of_mem _ hc))
        fun h id hid => h id (candidateIds_cons hid)
    · intro id hid hmem
      rcases hfiles.keys id hmem with hold | hsubmitted | ⟨hreconcile, hreconciled⟩
      · exact hfiled id (candidateIds_cons hid) hold
      · rw [candidateIds, List.filterMap_cons, hsubmitted] at hdistinct
        exact absurd hid (List.nodup_cons.mp hdistinct).1
      · rcases hids with hnone | hother
        · exact absurd hreconcile (hnone call List.mem_cons_self)
        · exact hother id (candidateIds_cons hid) hreconciled

/-- Distinct candidate ids are new whenever they are submitted, if nothing is reconciled or none of them
is one of reconcile's. -/
theorem freshCandidate_along {calls : List (Env × ManagerOp)} (hdistinct : (candidateIds calls).Nodup)
    (hids : (∀ call ∈ calls, call.2 ≠ .reconcile) ∨ ∀ id ∈ candidateIds calls, ¬ IsReconciledId id)
    {m : FirewallManager} (hkeyed : Keyed m) (hnew : ∀ id ∈ candidateIds calls, id ∉ m.rules.keys) :
    Along step FreshCandidate m calls :=
  filedId_along (P := fun _ => False) hdistinct hids hkeyed hnew

end FirewallManager

end Pirewall
