/-
# Pirewall.Firewall.Verdict -- what the v2 chain says of a candidate, and what follows from it

The chain of `validate_set_candidate` as one function of the manager and the candidate (`verdict`), cut at
the rate cap: the stages before it read the state, the cap spends a look at the limiter, the stages after it
read the state again. A submission is its verdict and then what the mode makes of an admitted rule: in ACTIVE
mode, a deployment. The v1 chain is treated the same way at the end (`backendVerdict`).
-/
import Pirewall.Firewall.Transitions

namespace Pirewall

open Lib

namespace FirewallManager

variable {m : FirewallManager}

/-! ## The verdict -/

/-- The stages ahead of the rate cap. -/
def stagesBeforeCap (m : FirewallManager) (env : Env) (candidate : CandidateRule) (target : RuleTarget) :
    List (String × Option RuleRejectionReason) :=
  [("schema", validateSchema candidate),
   ("network", none),
   ("allowlist", validateSetAllowlist candidate target m.allowlist),
   ("safety", validateSetSafety candidate target m.config env.localAddresses),
   ("conflict", (validateSetConflict candidate target [] m.activeTargets).1),
   ("duplicate", validateSetDuplicate candidate target m.activeTargets)]

/-- The stages after it. -/
def stagesAfterCap (m : FirewallManager) (env : Env) (candidate : CandidateRule) (target : RuleTarget) :
    List (String × Option RuleRejectionReason) :=
  [("escalation", validateEscalation candidate m.activeTargets
     (validateSetConflict candidate target [] m.activeTargets).2),
   ("expiration", validateSetExpiration candidate m.config env.now),
   ("authorization", validateAuthorization candidate m.knownDecisionIds)]

/-- The chain's verdict on a candidate, with the limiter it leaves. -/
def verdict (m : FirewallManager) (env : Env) (candidate : CandidateRule) :
    SetValidationOutcome × RuleCreationRateLimiter :=
  validateSetCandidate candidate (m.targetFor env candidate.toRuleFields) m.config m.knownDecisionIds
    m.activeTargets m.allowlist m.rateLimiter env.now env.localAddresses

/-- Whether a candidate gets as far as the rate cap. -/
def asksCap (m : FirewallManager) (env : Env) (candidate : CandidateRule) : Bool :=
  (m.targetFor env candidate.toRuleFields).any fun target =>
    (firstRejection (m.stagesBeforeCap env candidate target)).isNone

/-- A candidate without a target is refused by what it is, whatever the manager holds. -/
theorem verdict_none (env : Env) {candidate : CandidateRule}
    (htarget : m.targetFor env candidate.toRuleFields = none) :
    m.verdict env candidate =
      (.error (if candidate.threatScore = none then ⟨"schema", .invalidSchema⟩ else ⟨"network", .unenforceable⟩),
       m.rateLimiter) := by
  unfold verdict
  rw [htarget]
  unfold validateSetCandidate runChain validateSchema
  by_cases hscore : candidate.threatScore = none
  · simp only [hscore, if_true, firstRejection]
  · simp only [hscore, if_false, firstRejection]

/-- With a target, the verdict is that of one chain around the cap. -/
theorem verdict_eq_runChain (env : Env) {candidate : CandidateRule} {target : RuleTarget}
    (htarget : m.targetFor env candidate.toRuleFields = some target) :
    m.verdict env candidate =
      match runChain (m.stagesBeforeCap env candidate target) m.rateLimiter env.now
        (m.stagesAfterCap env candidate target) with
      | (some rejection, limiter) => (.error rejection, limiter)
      | (none, limiter) => (.ok (validateSetConflict candidate target [] m.activeTargets).2.head?, limiter) := by
  unfold verdict
  rw [htarget]
  unfold validateSetCandidate
  dsimp only
  cases hrun : runChain (m.stagesBeforeCap env candidate target) m.rateLimiter env.now
    (m.stagesAfterCap env candidate target) with
  | mk rejection limiter =>
    unfold stagesBeforeCap stagesAfterCap at hrun
    rw [hrun]
    cases rejection with
    | none => rfl
    | some rejection => rfl

theorem verdict_some (env : Env) {candidate : CandidateRule} {target : RuleTarget}
    (htarget : m.targetFor env candidate.toRuleFields = some target) :
    m.verdict env candidate =
      match firstRejection (m.stagesBeforeCap env candidate target) with
      | some rejection => (.error rejection, m.rateLimiter)
      | none =>
        (match firstRejection (("rate_cap", if (m.rateLimiter.wouldAllow env.now).1 then none
            else some .rateLimited) :: m.stagesAfterCap env candidate target) with
         | some rejection => .error rejection
         | none => .ok (validateSetConflict candidate target [] m.activeTargets).2.head?,
         m.rateLimiter.prune env.now) := by
  rw [verdict_eq_runChain env htarget]
  unfold runChain
  cases firstRejection (m.stagesBeforeCap env candidate target) with
  | some rejection => rfl
  | none =>
    dsimp only
    cases firstRejection (("rate_cap", if (m.rateLimiter.wouldAllow env.now).1 then none
        else some RuleRejectionReason.rateLimited) :: m.stagesAfterCap env candidate target) with
    | some rejection => rfl
    | none => rfl

/-! ## Submissions in ACTIVE mode -/

/-- What an admitted candidate went through: it had a target, passed every stage and found room. -/
theorem verdict_ok {env : Env} {candidate : CandidateRule} {upgradeOf : Option String}
    (h : (m.verdict env candidate).1 = .ok upgradeOf) :
    (∃ target, m.targetFor env candidate.toRuleFields = some target ∧
      SetAdmitted candidate target m.config m.activeTargets m.allowlist env.now env.localAddresses upgradeOf) ∧
      (m.verdict env candidate).2 = m.rateLimiter.prune env.now ∧
      (m.rateLimiter.wouldAllow env.now).1 = true ∧ m.asksCap env candidate = true := by
  obtain ⟨target, htarget, hadmitted⟩ := validateSetCandidate_ok (Prod.ext h rfl)
  refine ⟨⟨target, htarget, hadmitted⟩, ?_⟩
  unfold asksCap
  rw [verdict_some env htarget] at h ⊢
  rw [htarget, Option.any_some]
  cases hbefore : firstRejection (m.stagesBeforeCap env candidate target) with
  | some rejection =>
    rw [hbefore] at h
    exact absurd h (by simp)
  | none =>
    rw [hbefore] at h
    refine ⟨rfl, ?_, rfl⟩
    by_contra hfull
    rw [if_neg hfull] at h
    exact absurd h (by simp [firstRejection])

/-- An admitted candidate conflicts with nothing, and supersedes the first RATE_LIMIT it was found to upgrade. -/
theorem verdict_upgrade {env : Env} {candidate : CandidateRule} {upgradeOf : Option String}
    (h : (m.verdict env candidate).1 = .ok upgradeOf) {target : RuleTarget}
    (htarget : m.targetFor env candidate.toRuleFields = some target) :
    ∃ upgrades, validateSetConflict candidate target [] m.activeTargets = (none, upgrades) ∧
      upgradeOf = upgrades.head? := by
  obtain ⟨_, _, _, hasks⟩ := verdict_ok h
  unfold asksCap at hasks
  rw [htarget, Option.any_some, Option.isNone_iff_eq_none] at hasks
  have hconflict : (validateSetConflict candidate target [] m.activeTargets).1 = none :=
    firstRejection_eq_none_iff.mp hasks ("conflict", _) (by simp [stagesBeforeCap])
  refine ⟨_, Prod.ext hconflict rfl, ?_⟩
  rw [verdict_some env htarget, hasks] at h
  dsimp only at h
  split at h
  · exact absurd h (by simp)
  · exact (Except.ok.inj h).symm

/-- The manager with the budget spent and the target filed, as `deployToSets` finds it. -/
def admitted (m : FirewallManager) (env : Env) (candidate : CandidateRule) (target : RuleTarget) :
    FirewallManager :=
  { m with
    rateLimiter := (m.rateLimiter.prune env.now).record env.now
    targets := m.targets.set candidate.id target }.record candidate.id none .validating env.now
      "passed the v2 validation chain"

/-- A candidate the chain refuses leaves everything but the limiter. -/
theorem submitToSets_error (sets : FakeSetBackend) {env : Env} {candidate : CandidateRule}
    {r : ValidationRejection} (h : (m.verdict env candidate).1 = .error r) :
    m.submitToSets env sets candidate = (.ok (rejection candidate env.now (rejectionText r)),
      { m with rateLimiter := (m.verdict env candidate).2 }) := by
  unfold verdict at h ⊢
  unfold submitToSets
  dsimp only
  split
  · rename_i r' hr'
    obtain rfl := Except.error.inj (hr'.symm.trans h)
    rfl
  · rename_i hok _
    exact absurd (hok.symm.trans h) (by simp)
  · rename_i hok _
    exact absurd (hok.symm.trans h) (by simp)

/-- The VALIDATING rule of a candidate with this target. -/
def ruleFor (m : FirewallManager) (env : Env) (candidate : CandidateRule) (target : RuleTarget)
    (htarget : m.targetFor env candidate.toRuleFields = some target) : FirewallRule :=
  candidate.toRule (assignPriority candidate.threatScore) (some target) (targetFor_source htarget)

/-- What becomes of a candidate the chain lets through, mode by mode. -/
theorem submitToSets_admitted (sets : FakeSetBackend) {env : Env} {candidate : CandidateRule}
    {upgradeOf : Option String} (h : (m.verdict env candidate).1 = .ok upgradeOf) {target : RuleTarget}
    (htarget : m.targetFor env candidate.toRuleFields = some target) :
    m.submitToSets env sets candidate =
      match m.enforcementMode with
      | .shadow =>
        (.ok ((m.admitted env candidate target).shadow (m.ruleFor env candidate target htarget) env.now).1,
         ((m.admitted env candidate target).shadow (m.ruleFor env candidate target htarget) env.now).2)
      | .assisted =>
        if m.needsReview candidate then
          (.ok ((m.admitted env candidate target).holdForApproval (m.ruleFor env candidate target htarget)
             env.now).1,
           ((m.admitted env candidate target).holdForApproval (m.ruleFor env candidate target htarget)
             env.now).2)
        else
          (m.admitted env candidate target).deployToSets sets (m.ruleFor env candidate target htarget) env.now
            upgradeOf
      | .active =>
        (m.admitted env candidate target).deployToSets sets (m.ruleFor env candidate target htarget) env.now
          upgradeOf := by
  have hlimiter := (verdict_ok h).2.1
  unfold verdict at h hlimiter
  unfold submitToSets admitted
  dsimp only
  split
  · rename_i r hr
    exact absurd (hr.symm.trans h) (by simp)
  · rename_i hnone
    exact absurd (hnone.symm.trans htarget) (by simp)
  · rename_i upgradeOf' target' hup ht
    obtain rfl := Except.ok.inj (hup.symm.trans h)
    obtain rfl := Option.some.inj (ht.symm.trans htarget)
    rw [hlimiter]
    rfl

theorem submitToSets_ok (hmode : m.enforcementMode = .active) (sets : FakeSetBackend) {env : Env}
    {candidate : CandidateRule} {upgradeOf : Option String} (h : (m.verdict env candidate).1 = .ok upgradeOf)
    {target : RuleTarget} (htarget : m.targetFor env candidate.toRuleFields = some target) :
    m.submitToSets env sets candidate = (m.admitted env candidate target).deployToSets sets
      (candidate.toRule (assignPriority candidate.threatScore) (some target)
        (targetFor_source htarget)) env.now upgradeOf := by
  rw [submitToSets_admitted sets h htarget, hmode]
  rfl

/-! ## The v1 chain -/

/-- The v1 chain's verdict on a candidate, with the limiter it leaves. -/
def backendVerdict (m : FirewallManager) (env : Env) (candidate : CandidateRule) :
    ValidationOutcome × RuleCreationRateLimiter :=
  validateCandidateRule candidate m.config m.knownDecisionIds m.activeRules m.allowlist m.rateLimiter env.now
    env.localAddresses (boundMacOf env candidate.toRuleFields)

/-- The manager with the budget spent, as `deploy` finds it. -/
def backendAdmitted (m : FirewallManager) (env : Env) (candidate : CandidateRule) : FirewallManager :=
  { m with rateLimiter := (m.backendVerdict env candidate).2.record env.now }.record candidate.id none
    .validating env.now "passed full validation chain"

theorem submitToBackend_error {env : Env} {candidate : CandidateRule} {r : ValidationRejection}
    (h : (m.backendVerdict env candidate).1 = .error r) :
    m.submitToBackend env candidate = (rejection candidate env.now (rejectionText r),
      { m with rateLimiter := (m.backendVerdict env candidate).2 }) := by
  unfold submitToBackend
  unfold backendVerdict at h ⊢
  split
  · rename_i r' limiter heq
    rw [heq] at h ⊢
    obtain rfl := Except.error.inj h
    rfl
  · rename_i priority limiter heq
    rw [heq] at h
    exact absurd h (by simp)

theorem submitToBackend_admitted {env : Env} {candidate : CandidateRule} {priority : Int}
    (h : (m.backendVerdict env candidate).1 = .ok priority) :
    m.submitToBackend env candidate =
      match m.enforcementMode with
      | .shadow => (m.backendAdmitted env candidate).shadow
          (candidate.toRule priority candidate.target candidate.target_is_source) env.now
      | .assisted =>
        if m.needsReview candidate then (m.backendAdmitted env candidate).holdForApproval
          (candidate.toRule priority candidate.target candidate.target_is_source) env.now
        else (m.backendAdmitted env candidate).deploy
          (candidate.toRule priority candidate.target candidate.target_is_source) env.now
      | .active => (m.backendAdmitted env candidate).deploy
          (candidate.toRule priority candidate.target candidate.target_is_source) env.now := by
  unfold submitToBackend backendAdmitted
  unfold backendVerdict at h ⊢
  split
  · rename_i r limiter heq
    rw [heq] at h
    exact absurd h (by simp)
  · rename_i priority' limiter heq
    rw [heq] at h ⊢
    obtain rfl := Except.ok.inj h
    rfl

end FirewallManager

end Pirewall
