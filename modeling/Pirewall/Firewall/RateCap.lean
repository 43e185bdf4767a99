/-
# Pirewall.Firewall.RateCap -- how many rules a window of time can see created

The cap is asked in the middle of a chain and charged after its end, by two calls that prune a list of times each on
its own. `judged` is one submission as the limiter sees it, whichever path it takes: the chain's rejection, and the
limiter it leaves. Nothing but a submission touches the limiter.

`Logs` ties the limiter to the history of what it recorded: it has forgotten only what has left the window. So a
candidate finds room exactly when the interval that ends now has it, and no interval is ever given more (`AtMost`).

An interval that ends between two submissions is covered as well. It has no more accepted candidates than the one of
the same length that ends at the last of them, and that one was checked when the last one was accepted. This needs the
submissions to come in order of time (`Meets`): a submission whose clock has gone back would be counted in a window
that was checked already.

Both chains have the same shape around the cap, stages before it and stages after it (`runChain`), with their own
stages on each path. A candidate that a later stage refuses has been asked about and is not charged, and one that an
earlier stage refuses has not even been asked about.
-/
import Pirewall.Lib.Run
import Pirewall.Lib.Window
import Pirewall.Firewall.Verdict
import Mathlib.Algebra.Order.Group.Int

namespace Pirewall

open Lib

/-! ## The limiter as a log -/

namespace RuleCreationRateLimiter

variable {l : RuleCreationRateLimiter} {log : List Time} {last now : Time}

/-- The limiter has recorded `log`, up to `last`, and forgotten only what has left the window. -/
structure Logs (l : RuleCreationRateLimiter) (log : List Time) (last : Time) : Prop where
  sorted : log.Pairwise (· ≤ ·)
  bounded : ∀ t ∈ log, t ≤ last
  held : ∃ dropped, log = dropped ++ l.timestamps ∧ ∀ t ∈ dropped, t < last - seconds l.windowSeconds

/-- Time goes on. -/
theorem Logs.mono (h : l.Logs log last) (hle : last ≤ now) : l.Logs log now where
  sorted := h.sorted
  bounded := fun t ht => (h.bounded t ht).trans hle
  held := by
    obtain ⟨dropped, hlog, hout⟩ := h.held
    exact ⟨dropped, hlog, fun t ht => lt_of_lt_of_le (hout t ht) (Int.sub_le_sub_right hle _)⟩

/-- Forgetting what has left the window. -/
theorem Logs.prune (h : l.Logs log last) (hle : last ≤ now) : (l.prune now).Logs log now where
  sorted := h.sorted
  bounded := (h.mono hle).bounded
  held := by
    obtain ⟨dropped, hlog, hout⟩ := (h.mono hle).held
    refine ⟨dropped ++ l.timestamps.takeWhile fun t => decide (t < now - seconds l.windowSeconds), ?_, ?_⟩
    · show log = _ ++ l.timestamps.dropWhile _
      rw [List.append_assoc, List.takeWhile_append_dropWhile]
      exact hlog
    · intro t ht
      rcases List.mem_append.mp ht with hold | hnew
      · exact hout t hold
      · have hbefore : t < now - seconds l.windowSeconds := by simpa using List.mem_takeWhile_imp hnew
        exact hbefore

/-- What the limiter counts is the part of the log in the window. -/
theorem Logs.pruned (h : l.Logs log last) (hle : last ≤ now) :
    (l.prune now).timestamps = log.filter fun t => decide (now - seconds l.windowSeconds ≤ t) := by
  obtain ⟨dropped, hlog, hout⟩ := (h.mono hle).held
  have hsorted : l.timestamps.Pairwise (· ≤ ·) :=
    h.sorted.sublist (hlog ▸ List.sublist_append_right dropped _)
  have hnone : dropped.filter (fun t => decide (now - seconds l.windowSeconds ≤ t)) = [] := by
    refine List.filter_eq_nil_iff.mpr ?_
    intro t ht
    rw [decide_eq_true_eq]
    exact not_le.mpr (hout t ht)
  rw [hlog, List.filter_append, hnone, List.nil_append]
  exact dropWhile_lt_eq_filter_of_sorted hsorted

/-- Charging a unit. -/
theorem Logs.record (h : l.Logs log last) (hle : last ≤ now) : (l.record now).Logs (log ++ [now]) now where
  sorted := by
    rw [List.pairwise_append]
    refine ⟨h.sorted, List.pairwise_singleton _ _, ?_⟩
    intro t ht t' ht'
    rw [List.mem_singleton.mp ht']
    exact (h.bounded t ht).trans hle
  bounded := by
    intro t ht
    rcases List.mem_append.mp ht with hold | hnew
    · exact (h.bounded t hold).trans hle
    · exact (List.mem_singleton.mp hnew).le
  held := by
    obtain ⟨dropped, hlog, hout⟩ := (h.prune hle).held
    refine ⟨dropped, ?_, hout⟩
    show log ++ [now] = dropped ++ ((l.prune now).timestamps ++ [now])
    rw [← List.append_assoc, ← hlog]

end RuleCreationRateLimiter

/-! ## The cap in a chain -/

/-- A stage that refuses under its name is one of the stages. -/
theorem stage_of_firstRejection {stages : List (String × Option RuleRejectionReason)} {r : ValidationRejection}
    (h : firstRejection stages = some r) : (r.stage, some r.reason) ∈ stages := by
  induction stages with
  | nil => exact absurd h (by simp [firstRejection])
  | cons s rest ih =>
    obtain ⟨stage, reason⟩ := s
    cases reason with
    | none => exact List.mem_cons_of_mem _ (ih h)
    | some reason =>
      obtain rfl := Option.some.inj h
      exact List.mem_cons_self

/-- What a chain does to the limiter, and what its answer says about it. -/
theorem runChain_spec {before rest : List (String × Option RuleRejectionReason)} (limiter : RuleCreationRateLimiter)
    (now : Time) (hbefore : "rate_cap" ∉ before.map Prod.fst) (hrest : "rate_cap" ∉ rest.map Prod.fst) :
    ((runChain before limiter now rest).2 = limiter ∨ (runChain before limiter now rest).2 = limiter.prune now) ∧
      ((runChain before limiter now rest).1 = none →
        (runChain before limiter now rest).2 = limiter.prune now ∧
          (limiter.prune now).timestamps.length < limiter.maxPerWindow) ∧
      ∀ r, (runChain before limiter now rest).1 = some r → r.stage = "rate_cap" →
        limiter.maxPerWindow ≤ (limiter.prune now).timestamps.length := by
  have hnamed : ∀ {stages : List (String × Option RuleRejectionReason)} {r : ValidationRejection},
      "rate_cap" ∉ stages.map Prod.fst → firstRejection stages = some r → r.stage ≠ "rate_cap" := by
    intro stages r hstages hr hstage
    exact hstages (hstage ▸ List.mem_map_of_mem (stage_of_firstRejection hr))
  rw [runChain]
  cases hfirst : firstRejection before with
  | some r =>
    refine ⟨.inl rfl, nofun, ?_⟩
    intro r' hr' hstage
    obtain rfl := Option.some.inj hr'
    exact absurd hstage (hnamed hbefore hfirst)
  | none =>
    by_cases hroom : (limiter.prune now).timestamps.length < limiter.maxPerWindow
    · have hallowed : (limiter.wouldAllow now).1 = true := decide_eq_true hroom
      refine ⟨.inr rfl, fun _ => ⟨rfl, hroom⟩, ?_⟩
      intro r hr hstage
      simp only [hallowed, if_true, firstRejection] at hr
      exact absurd hstage (hnamed hrest hr)
    · have hrefused : ¬(limiter.wouldAllow now).1 = true := fun h => hroom (of_decide_eq_true h)
      refine ⟨.inr rfl, ?_, fun _ _ _ => not_lt.mp hroom⟩
      intro hnone
      simp only [if_neg hrefused, firstRejection] at hnone
      exact absurd hnone (by simp)

namespace FirewallManager

variable {m : FirewallManager} {env : Env} {candidate : CandidateRule} {now : Time}

/-- One submission as the limiter sees it: what its chain says, on the path the manager takes, and the limiter the
chain leaves. -/
def judged (m : FirewallManager) (env : Env) (candidate : CandidateRule) :
    Option ValidationRejection × RuleCreationRateLimiter :=
  match m.sets with
  | some _ =>
    (match (m.verdict env candidate).1 with | .error r => some r | .ok _ => none, (m.verdict env candidate).2)
  | none =>
    (match (m.backendVerdict env candidate).1 with | .error r => some r | .ok _ => none,
      (m.backendVerdict env candidate).2)

/-- The stages of the v1 chain ahead of the rate cap. -/
def backendStagesBeforeCap (m : FirewallManager) (env : Env) (candidate : CandidateRule) :
    List (String × Option RuleRejectionReason) :=
  [("schema", validateSchema candidate),
   ("network", (validateNetwork candidate).or (validateIdentity candidate (boundMacOf env candidate.toRuleFields))),
   ("allowlist", validateAllowlist candidate m.allowlist),
   ("safety", validateSafety candidate m.config env.localAddresses),
   ("conflict", validateConflict candidate m.activeRules),
   ("duplicate", validateDuplicate candidate m.activeRules)]

/-- Those after it. -/
def backendStagesAfterCap (m : FirewallManager) (candidate : CandidateRule) :
    List (String × Option RuleRejectionReason) :=
  [("priority", validatePriority candidate m.activeRules),
   ("expiration", validateExpiration candidate),
   ("authorization", validateAuthorization candidate m.knownDecisionIds)]

/-- The v1 chain, as stages around the cap. -/
theorem backendVerdict_eq_runChain (m : FirewallManager) (env : Env) (candidate : CandidateRule) :
    m.backendVerdict env candidate =
      match runChain (m.backendStagesBeforeCap env candidate) m.rateLimiter env.now
        (m.backendStagesAfterCap candidate) with
      | (some rejection, limiter) => (.error rejection, limiter)
      | (none, limiter) => (.ok (assignPriority candidate.threatScore), limiter) := by
  unfold backendVerdict validateCandidateRule
  dsimp only
  cases hrun : runChain (m.backendStagesBeforeCap env candidate) m.rateLimiter env.now
    (m.backendStagesAfterCap candidate) with
  | mk rejection limiter =>
    unfold backendStagesBeforeCap backendStagesAfterCap at hrun
    rw [hrun]
    cases rejection with
    | none => rfl
    | some rejection => rfl

/-- A submission is one chain around the cap, and the cap's name is its own. -/
theorem judged_eq_runChain (m : FirewallManager) (env : Env) (candidate : CandidateRule) :
    ∃ before rest : List (String × Option RuleRejectionReason),
      "rate_cap" ∉ before.map Prod.fst ∧ "rate_cap" ∉ rest.map Prod.fst ∧
        m.judged env candidate = runChain before m.rateLimiter env.now rest := by
  rw [judged]
  cases m.sets with
  | none =>
    refine ⟨m.backendStagesBeforeCap env candidate, m.backendStagesAfterCap candidate, ?_, ?_, ?_⟩
    · simp [backendStagesBeforeCap]
    · simp [backendStagesAfterCap]
    · rw [backendVerdict_eq_runChain]
      cases runChain (m.backendStagesBeforeCap env candidate) m.rateLimiter env.now
        (m.backendStagesAfterCap candidate) with
      | mk rejection limiter =>
        cases rejection with
        | none => rfl
        | some rejection => rfl
  | some sets =>
    cases htarget : m.targetFor env candidate.toRuleFields with
    | none =>
      refine ⟨[("schema", validateSchema candidate), ("network", some .unenforceable)], [], by simp, by simp, ?_⟩
      rw [verdict_none env htarget]
      unfold runChain validateSchema
      by_cases hscore : candidate.threatScore = none
      · simp only [hscore, if_true, firstRejection]
      · simp only [hscore, if_false, firstRejection]
    | some target =>
      refine ⟨m.stagesBeforeCap env candidate target, m.stagesAfterCap env candidate target, ?_, ?_, ?_⟩
      · simp [stagesBeforeCap]
      · simp [stagesAfterCap]
      · rw [verdict_eq_runChain env htarget]
        cases runChain (m.stagesBeforeCap env candidate target) m.rateLimiter env.now
          (m.stagesAfterCap env candidate target) with
        | mk rejection limiter =>
          cases rejection with
          | none => rfl
          | some rejection => rfl

/-- The limiter after a submission: what the chain leaves, charged when it admits the candidate. -/
theorem submitCandidate_rateLimiter (m : FirewallManager) (env : Env) (candidate : CandidateRule) :
    ((m.judged env candidate).1 ≠ none ∧
      (m.submitCandidate env candidate).2.rateLimiter = (m.judged env candidate).2) ∨
    ((m.judged env candidate).1 = none ∧
      (m.submitCandidate env candidate).2.rateLimiter = (m.judged env candidate).2.record env.now) := by
  rw [judged, submitCandidate]
  cases hsets : m.sets with
  | some sets =>
    dsimp only
    cases hverdict : (m.verdict env candidate).1 with
    | error r =>
      rw [submitToSets_error sets hverdict]
      exact .inl ⟨Option.some_ne_none _, rfl⟩
    | ok upgradeOf =>
      obtain ⟨⟨target, htarget, -⟩, hlimiter, -⟩ := verdict_ok hverdict
      refine .inr ⟨rfl, ?_⟩
      rw [submitToSets_admitted sets hverdict htarget, hlimiter]
      -- neither holding a rule nor deploying it touches the limiter
      have hdeploy := (deployToSets_frame (m.admitted env candidate target) sets
        (m.ruleFor env candidate target htarget) env.now upgradeOf (by simp [admitted, record, hsets])).1
      cases m.enforcementMode with
      | shadow => rfl
      | active => exact hdeploy
      | assisted =>
        dsimp only
        split
        · rfl
        · exact hdeploy
  | none =>
    dsimp only
    cases hverdict : (m.backendVerdict env candidate).1 with
    | error r =>
      rw [submitToBackend_error hverdict]
      exact .inl ⟨Option.some_ne_none _, rfl⟩
    | ok priority =>
      refine .inr ⟨rfl, ?_⟩
      rw [submitToBackend_admitted hverdict]
      have hdeploy : ((m.backendAdmitted env candidate).deploy
          (candidate.toRule priority candidate.target candidate.target_is_source) env.now).2.rateLimiter =
            (m.backendVerdict env candidate).2.record env.now := by
        obtain ⟨_, _, _, _, _, heq⟩ := (m.backendAdmitted env candidate).deploy_cases
          (candidate.toRule priority candidate.target candidate.target_is_source) env.now
        rw [heq]
        rfl
      cases m.enforcementMode with
      | shadow => rfl
      | active => exact hdeploy
      | assisted =>
        dsimp only
        split
        · rfl
        · exact hdeploy

/-! ## Nothing else touches the limiter -/

theorem retireRule_rateLimiter (m : FirewallManager) (ruleId : String) (toStatus : RuleStatus) (now : Time)
    (reason : String) : (m.retireRule ruleId toStatus now reason).2.rateLimiter = m.rateLimiter := by
  rcases m.retireRule_cases ruleId toStatus now reason with heq | ⟨rule, -, -, heq⟩
  · rw [heq]
  · rw [heq, (m.withdraw_frame ruleId rule now).1]
    rfl

/-- A loop over rules that leaves the limiter alone each time does so altogether. -/
theorem foldl_rateLimiter {β γ : Type} {f : β × FirewallManager → γ → β × FirewallManager}
    (hf : ∀ acc x, (f acc x).2.rateLimiter = acc.2.rateLimiter) (items : List γ) (acc : β × FirewallManager) :
    (items.foldl f acc).2.rateLimiter = acc.2.rateLimiter := by
  induction items generalizing acc with
  | nil => rfl
  | cons x items ih => exact (ih (f acc x)).trans (hf acc x)

theorem retireAllActive_rateLimiter (m : FirewallManager) (now : Time) (reason : String) :
    (m.retireAllActive now reason).2.rateLimiter = m.rateLimiter := by
  refine foldl_rateLimiter ?_ _ _
  intro acc rule
  dsimp only
  split
  · rfl
  · rfl

theorem revertToBase_rateLimiter (m : FirewallManager) (now : Time) :
    (m.revertToBase now).2.rateLimiter = m.rateLimiter := by
  rw [revertToBase]
  split
  · exact retireAllActive_rateLimiter _ now _
  · refine foldl_rateLimiter ?_ _ _
    intro acc rule
    dsimp only
    split
    · rfl
    · rfl

theorem failOpenShutdown_rateLimiter (m : FirewallManager) (now : Time) :
    (m.failOpenShutdown now).2.rateLimiter = m.rateLimiter := by
  rw [failOpenShutdown]
  split
  · exact m.revertToBase_rateLimiter now
  · exact retireAllActive_rateLimiter _ now _

theorem panic_rateLimiter (m : FirewallManager) (actor : String) (now : Time) :
    (m.panic actor now).2.rateLimiter = m.rateLimiter := by
  rw [panic]
  split
  · rfl
  · split
    · rfl
    · exact retireAllActive_rateLimiter _ now _

theorem approvePending_rateLimiter (m : FirewallManager) (ruleId : String) (now : Time) :
    (m.approvePending ruleId now).2.rateLimiter = m.rateLimiter := by
  rw [approvePending]
  split
  · rfl
  · rename_i rule _
    split
    · rfl
    · dsimp only
      split
      · rename_i sets hsets
        have hdeploy := (deployToSets_frame (m.record ruleId (some .pendingApproval) .approved now
          "approved by administrator") sets { rule with status := .approved } now
          ((m.record ruleId (some .pendingApproval) .approved now "approved by administrator").rateLimitToUpgrade
            { rule with status := .approved }) (Option.isSome_iff_exists.mpr ⟨sets, hsets⟩)).1
        split
        · rename_i heq
          rw [heq] at hdeploy
          exact hdeploy
        · rename_i heq
          rw [heq] at hdeploy
          exact hdeploy
      · obtain ⟨_, _, _, _, _, heq⟩ := (m.record ruleId (some .pendingApproval) .approved now
          "approved by administrator").deploy_cases { rule with status := .approved } now
        rw [heq]
        rfl

theorem reconcile_rateLimiter (m : FirewallManager) (now : Time) :
    (m.reconcile now).2.rateLimiter = m.rateLimiter := by
  cases hsets : m.sets with
  | none => simp only [FirewallManager.reconcile, hsets]
  | some b =>
    rcases reconcile_cases hsets now with heq | ⟨b', e, _, heq⟩ | ⟨b', live, report, _, heq⟩
    · rw [heq]
    · rw [heq]
    · rw [heq]
      refine adoptUnknown_induction (I := fun m' => m'.rateLimiter = m.rateLimiter) _ ?_ _ report ?_
      · intro m' setName key expiresIn _ _ _ hm'
        rcases m'.adopt_cases setName key expiresIn now with heq | ⟨rule, ip, transitions, _, _, _, heq⟩
        · rw [heq]
          exact hm'
        · rw [heq]
          exact hm'
      · refine foldl_rateLimiter ?_ _ _
        intro acc rule
        dsimp only
        split
        · rfl
        · split
          · rfl
          · rfl

/-- Only a submission touches the limiter. -/
theorem step_rateLimiter {op : ManagerOp} (h : ∀ candidate, op ≠ .submitCandidate candidate) :
    (m.step (env, op)).rateLimiter = m.rateLimiter := by
  by_cases hk : isHousekeeping op = true
  · obtain ⟨_, _, _, _, heq⟩ := m.step_housekeeping_frame env op hk
    rw [heq]
  cases op with
  | submitCandidate candidate => exact absurd rfl (h candidate)
  | approvePending ruleId => exact m.approvePending_rateLimiter ruleId env.now
  | rejectPending ruleId =>
    simp only [step, rejectPending]
    split
    · rfl
    · split
      · rfl
      · rfl
  | disableRule ruleId => exact m.retireRule_rateLimiter ruleId _ env.now _
  | removeRule ruleId => exact m.retireRule_rateLimiter ruleId _ env.now _
  | expireRules =>
    exact expireRules_induction (I := fun m' => m'.rateLimiter = m.rateLimiter) m env.now
      (fun m' ruleId hm' => (m'.retireRule_rateLimiter ruleId _ env.now _).trans hm') rfl
  | revertToBase => exact m.revertToBase_rateLimiter env.now
  | failOpenShutdown => exact m.failOpenShutdown_rateLimiter env.now
  | panic actor => exact m.panic_rateLimiter actor env.now
  | reconcile => exact m.reconcile_rateLimiter env.now
  | _ => exact absurd rfl hk

end FirewallManager

/-! ## Runs -/

/-- A manager, the times at which its chain has let a candidate through, and the time of the latest submission. -/
structure CapRun where
  manager : FirewallManager
  accepted : List Time
  clock : Time

namespace CapRun

/-- One call. -/
def step (s : CapRun) (call : Env × ManagerOp) : CapRun where
  manager := s.manager.step call
  accepted :=
    match call.2 with
    | .submitCandidate candidate =>
      if (s.manager.judged call.1 candidate).1 = none then s.accepted ++ [call.1.now] else s.accepted
    | _ => s.accepted
  clock :=
    match call.2 with
    | .submitCandidate _ => call.1.now
    | _ => s.clock

/-- The submissions come in order of time. -/
def Meets (s : CapRun) (call : Env × ManagerOp) : Prop :=
  ∀ candidate, call.2 = .submitCandidate candidate → s.clock ≤ call.1.now

/-- The call leaves no interval of the window's length with more than `limit` accepted candidates, and a candidate
that it refuses at the cap is refused because the interval that ends now has as many. -/
def CapKept (limit windowSeconds : Nat) (s : CapRun) (call : Env × ManagerOp) : Prop :=
  AtMost limit (seconds windowSeconds) (s.step call).accepted ∧
    ∀ candidate r, call.2 = .submitCandidate candidate → (s.manager.judged call.1 candidate).1 = some r →
      r.stage = "rate_cap" → limit ≤ s.accepted.countP fun t =>
        decide (call.1.now - seconds windowSeconds ≤ t ∧ t ≤ call.1.now)

/-- The limiter has the history's recent part, and the history keeps the cap. -/
structure Sound (limit windowSeconds : Nat) (s : CapRun) : Prop where
  cap : s.manager.rateLimiter.maxPerWindow = limit
  window : s.manager.rateLimiter.windowSeconds = windowSeconds
  logs : s.manager.rateLimiter.Logs s.accepted s.clock
  atMost : AtMost limit (seconds windowSeconds) s.accepted

variable {limit windowSeconds : Nat} {s : CapRun} {env : Env} {candidate : CandidateRule}

/-- A call that is no submission. -/
theorem Sound.other (h : s.Sound limit windowSeconds) {op : ManagerOp}
    (hop : ∀ candidate, op ≠ .submitCandidate candidate) : (s.step (env, op)).Sound limit windowSeconds := by
  have hlimiter : (s.step (env, op)).manager.rateLimiter = s.manager.rateLimiter :=
    FirewallManager.step_rateLimiter hop
  have haccepted : (s.step (env, op)).accepted = s.accepted := by
    cases op with
    | submitCandidate candidate => exact absurd rfl (hop candidate)
    | _ => rfl
  have hclock : (s.step (env, op)).clock = s.clock := by
    cases op with
    | submitCandidate candidate => exact absurd rfl (hop candidate)
    | _ => rfl
  constructor
  · rw [hlimiter]
    exact h.cap
  · rw [hlimiter]
    exact h.window
  · rw [hlimiter, haccepted, hclock]
    exact h.logs
  · rw [haccepted]
    exact h.atMost

/-- What a chain leaves of the limiter has the same history. -/
theorem Sound.judged (h : s.Sound limit windowSeconds) (hle : s.clock ≤ env.now) (candidate : CandidateRule) :
    (s.manager.judged env candidate).2.maxPerWindow = limit ∧
      (s.manager.judged env candidate).2.windowSeconds = windowSeconds ∧
      (s.manager.judged env candidate).2.Logs s.accepted env.now := by
  obtain ⟨before, rest, hbefore, hrest, heq⟩ := s.manager.judged_eq_runChain env candidate
  rw [heq]
  rcases (runChain_spec s.manager.rateLimiter env.now hbefore hrest).1 with hsame | hpruned
  · rw [hsame]
    exact ⟨h.cap, h.window, h.logs.mono hle⟩
  · rw [hpruned]
    exact ⟨h.cap, h.window, h.logs.prune hle⟩

/-- A submission. -/
theorem Sound.submit (h : s.Sound limit windowSeconds) (hle : s.clock ≤ env.now) :
    (s.step (env, .submitCandidate candidate)).Sound limit windowSeconds := by
  obtain ⟨hcap, hwindow, hlogs⟩ := h.judged hle candidate
  have haccepted : (s.step (env, .submitCandidate candidate)).accepted =
      if (s.manager.judged env candidate).1 = none then s.accepted ++ [env.now] else s.accepted := rfl
  have hmanager : (s.step (env, .submitCandidate candidate)).manager =
      (s.manager.submitCandidate env candidate).2 := rfl
  have hclock : (s.step (env, .submitCandidate candidate)).clock = env.now := rfl
  rcases s.manager.submitCandidate_rateLimiter env candidate with ⟨hrefused, hlimiter⟩ | ⟨hadmitted, hlimiter⟩
  · rw [if_neg hrefused] at haccepted
    constructor
    · rw [hmanager, hlimiter]
      exact hcap
    · rw [hmanager, hlimiter]
      exact hwindow
    · rw [hmanager, hlimiter, haccepted]
      exact hlogs
    · rw [haccepted]
      exact h.atMost
  · rw [if_pos hadmitted] at haccepted
    constructor
    · rw [hmanager, hlimiter]
      exact hcap
    · rw [hmanager, hlimiter]
      exact hwindow
    · rw [hmanager, hlimiter, haccepted]
      exact hlogs.record (le_refl env.now)
    · rw [haccepted]
      refine h.atMost.append ?_
      -- the chain found room, counting what the history has in the window
      obtain ⟨before, rest, hbefore, hrest, heq⟩ := s.manager.judged_eq_runChain env candidate
      rw [heq] at hadmitted
      have hroom := ((runChain_spec s.manager.rateLimiter env.now hbefore hrest).2.1 hadmitted).2
      rwa [h.logs.pruned hle, h.cap, h.window] at hroom

/-- The step lemma. -/
theorem sound_step (h : s.Sound limit windowSeconds) {call : Env × ManagerOp} (hcall : s.Meets call) :
    (s.step call).Sound limit windowSeconds := by
  obtain ⟨env, op⟩ := call
  by_cases hop : ∃ candidate, op = .submitCandidate candidate
  · obtain ⟨candidate, rfl⟩ := hop
    exact h.submit (hcall candidate rfl)
  · exact h.other fun candidate heq => hop ⟨candidate, heq⟩

/-- A candidate that is refused at the cap finds the window full. -/
theorem Sound.refused (h : s.Sound limit windowSeconds) (hle : s.clock ≤ env.now) {r : ValidationRejection}
    (hr : (s.manager.judged env candidate).1 = some r) (hstage : r.stage = "rate_cap") :
    limit ≤ s.accepted.countP fun t => decide (env.now - seconds windowSeconds ≤ t ∧ t ≤ env.now) := by
  obtain ⟨before, rest, hbefore, hrest, heq⟩ := s.manager.judged_eq_runChain env candidate
  rw [heq] at hr
  have hfull := (runChain_spec s.manager.rateLimiter env.now hbefore hrest).2.2 r hr hstage
  rw [h.logs.pruned hle, h.cap, h.window, ← List.countP_eq_length_filter] at hfull
  refine hfull.trans (List.countP_mono_left fun t ht hlive => ?_)
  exact decide_eq_true ⟨of_decide_eq_true hlive, (h.logs.bounded t ht).trans hle⟩

theorem sound_init (config : PirewallConfig) (backend : FakeFirewallBackend) (store : Option AllowlistStore)
    (sets : Option FakeSetBackend) (start : Time) :
    Sound config.firewall.maxAdaptiveRulesPerWindow config.firewall.rateWindowSeconds
      ⟨.init config backend store sets, [], start⟩ where
  cap := rfl
  window := rfl
  logs := ⟨List.Pairwise.nil, fun _ ht => absurd ht List.not_mem_nil, [], rfl, fun _ ht => absurd ht List.not_mem_nil⟩
  atMost := .nil _ _

end CapRun

open CapRun in
/-- Over every run whose submissions come in order of time, on either path and whatever else is called between
them, the rule-creation cap holds for every interval of the window's length, and refuses nobody without need. -/
theorem rate_cap_kept (config : PirewallConfig) (backend : FakeFirewallBackend) (store : Option AllowlistStore)
    (sets : Option FakeSetBackend) (start : Time) (calls : List (Env × ManagerOp))
    (h : Along step Meets ⟨.init config backend store sets, [], start⟩ calls) :
    Along step (CapKept config.firewall.maxAdaptiveRulesPerWindow config.firewall.rateWindowSeconds)
      ⟨.init config backend store sets, [], start⟩ calls := by
  refine Along.of_invariant (fun _ _ hs hc => sound_step hs hc) ?_ h (sound_init config backend store sets start)
  intro s call hs hcall
  refine ⟨(sound_step hs hcall).atMost, ?_⟩
  intro candidate r hop hr hstage
  exact hs.refused (hcall candidate hop) hr hstage

open CapRun in
/-- Two submissions a second apart, with an expiry sweep between them. -/
theorem rate_cap_kept_twice :
    Along step (CapKept (siteConfig .active).firewall.maxAdaptiveRulesPerWindow
        (siteConfig .active).firewall.rateWindowSeconds)
      ⟨.init (siteConfig .active) siteBackend none (some siteKernel), [], 0⟩
      [(siteEnv 0, .submitCandidate (siteCandidate "a" .block 7 900000000)), (siteEnv 500000, .expireRules),
        (siteEnv 1000000, .submitCandidate (siteCandidate "b" .block 8 900000000))] := by
  refine rate_cap_kept (siteConfig .active) siteBackend none (some siteKernel) 0 _ ?_
  refine And.intro ?_ (And.intro ?_ (And.intro ?_ trivial))
  · exact fun _ _ => le_refl (0 : Int)
  · intro candidate h
    exact absurd h (by simp)
  · intro candidate _
    exact (by decide : (0 : Int) ≤ 1000000)

end Pirewall
