/-
# Pirewall.Firewall.Held -- the rules held for review

A rule is checked once, when its candidate is submitted. In ASSISTED mode it may then wait: the rule is
filed as PENDING and, on the set path, its target beside it, and both are used when an administrator
approves it, however long after. So what the chain established has to survive every call in between.

`held_of_step` says that it does: a rule that is PENDING after a call was PENDING before it, against the
same target, or the call is the submission that held it. Results about approvals start from here.
-/
import Pirewall.Firewall.Transitions

namespace Pirewall

open Lib

namespace FirewallManager

variable {m m' m'' : FirewallManager}

/-! ## Calls that hold nothing new -/

/-- What is held in `m'` was held in `m`, against the same target. -/
def KeepsHeld (m m' : FirewallManager) : Prop :=
  ∀ id rule, m'.rules.get? id = some rule → rule.status = .pendingApproval →
    m.rules.get? id = some rule ∧ m'.targets.get? id = m.targets.get? id

namespace KeepsHeld

theorem of_eq (hrules : m'.rules = m.rules) (htargets : m'.targets = m.targets) : KeepsHeld m m' :=
  fun _ _ hrule _ => ⟨hrules ▸ hrule, by rw [htargets]⟩

theorem refl (m : FirewallManager) : KeepsHeld m m := of_eq rfl rfl

theorem of_retires (h : Retires m m') : KeepsHeld m m' :=
  fun _ _ hrule hpending => ⟨h.unchanged hrule (.inr hpending), by rw [h.targets]⟩

/-- Filing a rule that is not held, with the targets of the others as they were. -/
theorem set (h : KeepsHeld m m') {r : FirewallRule} (hrules : m''.rules = m'.rules.set r.id r)
    (hstatus : r.status ≠ .pendingApproval)
    (htargets : ∀ id, id ≠ r.id → m''.targets.get? id = m'.targets.get? id) : KeepsHeld m m'' := by
  intro id rule hrule hpending
  rw [hrules, Dict.get?_set] at hrule
  split at hrule
  · obtain rfl := Option.some.inj hrule
    exact absurd hpending hstatus
  · rename_i hne
    obtain ⟨hheld, htarget⟩ := h id rule hrule hpending
    exact ⟨hheld, (htargets id hne).trans htarget⟩

/-- A deployment that the kernel refused or that went through: the targets of other rules are as they
were, and its own may be new. -/
theorem of_deployment {b : FakeSetBackend} {base : FirewallRule} {now : Time} {upgradeOf : Option String}
    (h : (∃ faults transitions, (b.faults = [] → faults = []) ∧ m'' = { m' with
        sets := some { b with faults }
        rules := m'.rules.set base.id { base with status := .rejected }
        transitions }) ∨
      ∃ target additions metadata b', SetDeployment m' b base now upgradeOf m'' target additions metadata b')
    (hrules : m'.rules = m.rules)
    (htargets : ∀ id, id ≠ base.id → m'.targets.get? id = m.targets.get? id) : KeepsHeld m m'' := by
  rcases h with ⟨faults, transitions, _, rfl⟩ | ⟨target, additions, metadata, b', hdeploy⟩
  · refine (refl m).set (r := { base with status := .rejected }) ?_ (by simp) htargets
    show m'.rules.set _ _ = _
    rw [hrules]
  · obtain ⟨transitions, rfl⟩ := hdeploy.result
    intro id rule hrule hpending
    simp only [get?_deployedRules] at hrule
    split at hrule
    · obtain rfl := Option.some.inj hrule
      exact absurd hpending (by simp [FirewallRule.activated])
    · rename_i hne
      split at hrule
      · obtain ⟨old, _, rfl⟩ := Option.map_eq_some_iff.mp hrule
        exact absurd hpending (by simp [demote])
      · exact ⟨hrules ▸ hrule, htargets id hne⟩

theorem deploy (m' : FirewallManager) (base : FirewallRule) (now : Time) (hrules : m'.rules = m.rules)
    (htargets : m'.targets = m.targets) : KeepsHeld m (m'.deploy base now).2 := by
  obtain ⟨backend, transitions, rule', _, hrule', heq⟩ := m'.deploy_cases base now
  rw [heq]
  have hid : rule'.id = base.id := by
    rcases hrule' with rfl | rfl <;> rfl
  refine (refl m).set (r := rule') ?_ ?_ fun id _ => by rw [htargets]
  · show m'.rules.set _ _ = _
    rw [hrules, hid]
  · rcases hrule' with rfl | rfl
    · simp
    · simp [FirewallRule.activated]

theorem approvePending (m : FirewallManager) (ruleId : String) (now : Time) :
    KeepsHeld m (m.approvePending ruleId now).2 := by
  rcases m.approvePending_cases ruleId now with heq | ⟨rule, _, _, ⟨b, _, _, heq⟩ | ⟨_, _, heq⟩⟩
  · rw [heq]
    exact refl m
  · rw [heq]
    rcases deployToSets_cases _ b { rule with status := .approved } now _ with heq | hdeployment
    · rw [heq]
      exact of_eq rfl rfl
    · exact of_deployment hdeployment rfl fun _ _ => rfl
  · rw [heq]
    exact deploy _ _ now rfl rfl

/-- An adopted rule is ACTIVE, so its id holds nothing. -/
theorem reconcile (hkeyed : Keyed m) (now : Time) : KeepsHeld m (m.reconcile now).2 := by
  cases hsets : m.sets with
  | none =>
    simp only [FirewallManager.reconcile, hsets]
    exact refl m
  | some b =>
    rcases reconcile_cases hsets now with heq | ⟨b', e, _, heq⟩ | ⟨b', live, report, _, heq⟩
    · rw [heq]
      exact refl m
    · rw [heq]
      exact of_eq rfl rfl
    · rw [heq]
      refine adoptUnknown_induction (I := KeepsHeld m) _ ?_ _ report ?_
      · intro m' setName key expiresIn _ _ _ hm'
        rcases m'.adopt_cases setName key expiresIn now with
          heq | ⟨rule, ip, transitions, _, hactive, _, heq⟩
        · rw [heq]
          exact hm'
        · rw [heq]
          refine hm'.set (r := rule) rfl (by simp [hactive]) fun id hne => ?_
          exact (Dict.get?_set _ _ _ _).trans (if_neg hne)
      · have hdemoted := retireMissing_demoted (m := { m with sets := some b' }) hkeyed
          (live.map Prod.fst) now
        exact of_retires (hdemoted.retiresFrom (.of_eq rfl rfl rfl))

end KeepsHeld

/-! ## Where a held rule comes from -/

/-- The call submitted `candidate`, its chain let it through, and `rule` is what was held: on the set path
filed with the very target the chain saw. -/
structure Holds (m : FirewallManager) (env : Env) (candidate : CandidateRule) (m' : FirewallManager)
    (rule : FirewallRule) : Prop where
  id : rule.id = candidate.id
  action : rule.action = candidate.action
  expiresAt : rule.expiresAt = candidate.expiresAt
  expires : rule.expiresAt.isSome = true
  target : ∀ b, m.sets = some b → ∃ target upgradeOf,
    m.targetFor env candidate.toRuleFields = some target ∧
    SetAdmitted candidate target m.config m.activeTargets m.allowlist env.now env.localAddresses upgradeOf ∧
    m'.targets.get? rule.id = some target

theorem submitToSets_held (env : Env) (b : FakeSetBackend) (candidate : CandidateRule) {id : String}
    {rule : FirewallRule} (hrule : (m.submitToSets env b candidate).2.rules.get? id = some rule)
    (hpending : rule.status = .pendingApproval) :
    (m.rules.get? id = some rule ∧ (m.submitToSets env b candidate).2.targets.get? id = m.targets.get? id) ∨
      Holds m env candidate (m.submitToSets env b candidate).2 rule := by
  have hother : ∀ target : RuleTarget, ∀ id, id ≠ candidate.id →
      (m.targets.set candidate.id target).get? id = m.targets.get? id :=
    fun target id hne => (Dict.get?_set _ _ _ _).trans (if_neg hne)
  have hown : ∀ target : RuleTarget, (m.targets.set candidate.id target).get? candidate.id = some target :=
    fun target => (Dict.get?_set _ _ _ _).trans (if_pos rfl)
  rcases m.submitToSets_cases env b candidate with
    ⟨_, heq⟩ | ⟨target, upgradeOf, base, htarget, hadmitted, ⟨priority, hsource, rfl⟩, hcases⟩
  · rw [heq] at hrule ⊢
    exact .inl (KeepsHeld.refl m id rule hrule hpending)
  · obtain ⟨expiresAt, hexp, _⟩ := hadmitted.expiry
    rcases hcases with ⟨status, _, _, _, heq⟩ | ⟨_, rateLimiter, transitions, heq⟩
    · rw [heq] at hrule ⊢
      simp only [Dict.get?_set] at hrule
      split at hrule
      · obtain rfl := Option.some.inj hrule
        refine .inr ⟨rfl, rfl, rfl, Option.isSome_iff_exists.mpr ⟨expiresAt, hexp⟩, ?_⟩
        exact fun b _ => ⟨target, upgradeOf, htarget, hadmitted, hown target⟩
      · rename_i hne
        exact .inl ⟨hrule, hother target id hne⟩
    · -- an admitted candidate has a target and an expiry, so its deployment does not raise
      rw [heq] at hrule ⊢
      have hdeployment := { m with rateLimiter, transitions, targets := m.targets.set candidate.id target
        }.deployToSets_filed b (candidate.toRule priority (some target) hsource) env.now upgradeOf
        (hown target) hexp
      exact .inl (KeepsHeld.of_deployment (m := m) (hdeployment.imp_right fun h => ⟨target, h⟩) rfl
        (hother target) id rule hrule hpending)

theorem submitToBackend_held (env : Env) (hsets : m.sets = none) (candidate : CandidateRule) {id : String}
    {rule : FirewallRule} (hrule : (m.submitToBackend env candidate).2.rules.get? id = some rule)
    (hpending : rule.status = .pendingApproval) :
    (m.rules.get? id = some rule ∧ (m.submitToBackend env candidate).2.targets.get? id = m.targets.get? id) ∨
      Holds m env candidate (m.submitToBackend env candidate).2 rule := by
  rcases m.submitToBackend_cases env candidate with
    ⟨_, heq⟩ | ⟨priority, rateLimiter, ⟨expiresAt, hexp⟩, ⟨status, _, _, heq⟩ | ⟨_, transitions, heq⟩⟩
  · rw [heq] at hrule ⊢
    exact .inl ⟨hrule, rfl⟩
  · rw [heq] at hrule ⊢
    simp only [Dict.get?_set] at hrule
    split at hrule
    · obtain rfl := Option.some.inj hrule
      refine .inr ⟨rfl, rfl, rfl, Option.isSome_iff_exists.mpr ⟨expiresAt, hexp⟩, ?_⟩
      exact fun b hsome => absurd (hsets.symm.trans hsome) (by simp)
    · exact .inl ⟨hrule, rfl⟩
  · rw [heq] at hrule ⊢
    exact .inl (KeepsHeld.deploy (m := m) { m with rateLimiter, transitions } _ env.now rfl rfl id rule hrule
      hpending)

/-- **Where a held rule comes from.** It was held before the call, against the same target, or the call
submitted it. -/
theorem held_of_step (hkeyed : Keyed m) (call : Env × ManagerOp) {id : String} {rule : FirewallRule}
    (hrule : (m.step call).rules.get? id = some rule) (hpending : rule.status = .pendingApproval) :
    (m.rules.get? id = some rule ∧ (m.step call).targets.get? id = m.targets.get? id) ∨
      ∃ candidate, call.2 = .submitCandidate candidate ∧ Holds m call.1 candidate (m.step call) rule := by
  obtain ⟨env, op⟩ := call
  by_cases hother : (∀ candidate, op ≠ .submitCandidate candidate) ∧
      (∀ ruleId, op ≠ .approvePending ruleId) ∧ op ≠ .reconcile
  · exact .inl (KeepsHeld.of_retires (step_retires hkeyed env op hother.1 hother.2.1 hother.2.2) id rule
      hrule hpending)
  cases op with
  | submitCandidate candidate =>
    simp only [step, submitCandidate] at hrule ⊢
    cases hsets : m.sets with
    | some b =>
      simp only [hsets] at hrule ⊢
      exact (submitToSets_held env b candidate hrule hpending).imp_right fun h => ⟨candidate, rfl, h⟩
    | none =>
      simp only [hsets] at hrule ⊢
      exact (submitToBackend_held env hsets candidate hrule hpending).imp_right
        fun h => ⟨candidate, rfl, h⟩
  | approvePending ruleId => exact .inl (KeepsHeld.approvePending m ruleId env.now id rule hrule hpending)
  | reconcile => exact .inl (KeepsHeld.reconcile hkeyed env.now id rule hrule hpending)
  | _ => exact absurd ⟨by simp, by simp, by simp⟩ hother

end FirewallManager

end Pirewall
