/-
# Pirewall.Firewall.Activation -- when a rule may come into force

A rule is validated when it is submitted and put in force then or, if it was held for review, when an
administrator approves it. Three promises are about the moment it comes into force, not the moment it
was validated: SHADOW mode deploys nothing, the allowlist outranks enforcement, and no rule is put in
force after its own expiry. The submission chain of the set path keeps all three. `approve_pending`
checks none of them again, and the v1 chain only asks that there is an expiry.

`submit_becomesActive` and `approve_becomesActive` say how a rule comes into force; `Quiet` is what every
other call is, and what a submission is in SHADOW mode. The results are about every step of every run.
-/
import Pirewall.Firewall.Held

namespace Pirewall

open Lib NftNames

/-! ## Calls that enforce nothing -/

/-- The kernel's log grew by writes that enforce nothing. -/
def FakeSetBackend.LogsQuietly (b b' : FakeSetBackend) : Prop :=
  ∃ writes, b'.ops = b.ops ++ writes ∧ ∀ w ∈ writes, ¬ w.enforces

namespace FakeSetBackend.LogsQuietly

variable {b b' b'' : FakeSetBackend}

theorem of_ops (h : b'.ops = b.ops) : b.LogsQuietly b' := ⟨[], by simp [h], by simp⟩

theorem trans (h : b.LogsQuietly b') (h' : b'.LogsQuietly b'') : b.LogsQuietly b'' := by
  obtain ⟨w, hw, hq⟩ := h
  obtain ⟨w', hw', hq'⟩ := h'
  exact ⟨w ++ w', by rw [hw', hw, List.append_assoc], List.forall_mem_append.mpr ⟨hq, hq'⟩⟩

/-- A batch without additions. -/
theorem apply {ops : List SetOp} {now : Time} (hops : ∀ op ∈ ops, op.kind ≠ .add) :
    b.LogsQuietly (b.apply ops now).2 := by
  rcases b.apply_cases ops now with ⟨_, happlied⟩ | ⟨e, faults, heq, _⟩
  · refine ⟨_, happlied.log, ?_⟩
    rintro w hw ⟨element, _, ops', op, rfl, hop, hkind, _⟩
    split at hw
    · exact absurd hw (by simp)
    · obtain rfl := KernelWrite.apply.inj (List.mem_singleton.mp hw)
      exact hops op hop hkind
  · rw [heq]
    exact of_ops rfl

theorem flushSets (b : FakeSetBackend) (names : List String) :
    b.LogsQuietly (b.flushSets names).2 := by
  rcases b.flushSets_cases names with ⟨_, hflushed⟩ | ⟨e, faults, heq, _⟩
  · refine ⟨_, hflushed.log, ?_⟩
    rintro w hw ⟨_, _, ops, _, rfl, _⟩
    exact absurd (List.mem_singleton.mp hw) (by simp)
  · rw [heq]
    exact of_ops rfl

theorem panic (b : FakeSetBackend) : b.LogsQuietly b.panic.2 := by
  rcases b.panic_cases with ⟨_, _, _, hlog, _⟩ | ⟨e, faults, heq, _⟩
  · refine ⟨_, hlog, ?_⟩
    rintro w hw ⟨_, _, ops, _, rfl, _⟩
    exact absurd (List.mem_singleton.mp hw) (by simp)
  · rw [heq]
    exact of_ops rfl

end FakeSetBackend.LogsQuietly

namespace FirewallManager

/-- The call enforced nothing new: no addition to an enforcement set, no call of `apply_rule`; and it did
not leave SHADOW mode. -/
structure Quiet (m m' : FirewallManager) : Prop where
  applyCalls : m'.backend.applyCalls = m.backend.applyCalls
  mode : m.enforcementMode = .shadow → m'.enforcementMode = .shadow
  sets : Option.Rel FakeSetBackend.LogsQuietly m.sets m'.sets

theorem quietly_of_eq {sets sets' : Option FakeSetBackend} (h : sets' = sets) :
    Option.Rel FakeSetBackend.LogsQuietly sets sets' := by
  subst h
  cases sets' with
  | none => exact .none
  | some b => exact .some (.of_ops rfl)

namespace Quiet

variable {m m' m'' : FirewallManager}

/-- Nothing changed that enforcement could show in. -/
theorem of_eq (hbackend : m'.backend.applyCalls = m.backend.applyCalls)
    (hmode : m'.enforcementMode = m.enforcementMode) (hsets : m'.sets = m.sets) : Quiet m m' :=
  ⟨hbackend, fun h => hmode.trans h, quietly_of_eq hsets⟩

theorem refl (m : FirewallManager) : Quiet m m := of_eq rfl rfl rfl

theorem of_sets {b b' : FakeSetBackend} (hsets : m.sets = some b) (hlog : b.LogsQuietly b') :
    Quiet m { m with sets := some b' } := ⟨rfl, id, hsets ▸ .some hlog⟩

theorem trans (h : Quiet m m') (h' : Quiet m' m'') : Quiet m m'' where
  applyCalls := h'.applyCalls.trans h.applyCalls
  mode := fun hm => h'.mode (h.mode hm)
  sets := by
    have h1 := h.sets
    have h2 := h'.sets
    generalize m.sets = x at h1
    generalize m'.sets = y at h1 h2
    generalize m''.sets = z at h2
    cases h1 with
    | none =>
      cases h2
      exact .none
    | some hr =>
      cases h2 with
      | some hr' => exact .some (hr.trans hr')

theorem of_housekeeping (h : Housekeeping m m') : Quiet m m' where
  applyCalls := by rw [h.backend]
  mode := fun hm => h.enforcementMode.trans hm
  sets := by
    have hsets := h.sets
    generalize m.sets = x at hsets
    generalize m'.sets = y at hsets
    cases hsets with
    | none => exact .none
    | some hr => exact .some hr.log

/-- Demoting rules, over sets and a mode that were set quietly before. -/
theorem of_demoted {p : FirewallRule → Bool} (hd : Demoted m' m'' p) (h : Quiet m m') : Quiet m m'' :=
  h.trans (.of_eq hd.applyCalls hd.enforcementMode hd.sets)

theorem retireRule (m : FirewallManager) (ruleId : String) (toStatus : RuleStatus) (now : Time)
    (reason : String) : Quiet m (m.retireRule ruleId toStatus now reason).2 := by
  rcases m.retireRule_cases ruleId toStatus now reason with heq | ⟨rule, _, _, heq⟩
  · rw [heq]
    exact .refl m
  · obtain ⟨hframe, hcalls⟩ := m.withdraw_frame ruleId rule now
    rw [heq]
    refine ⟨hcalls, fun hm => ?_, ?_⟩
    · rw [hframe]
      exact hm
    · have hsets : (m.withdraw ruleId rule now).sets =
          m.sets.map fun sets => (sets.apply (deleteOps rule) now).2 := by
        rw [hframe]
      simp only [record, setRule, hsets]
      cases m.sets with
      | none => exact .none
      | some b =>
        refine .some (.apply fun op hop => ?_)
        rw [kind_of_mem_deleteOps hop]
        simp

theorem expireRules (m : FirewallManager) (now : Time) : Quiet m (m.expireRules now).2 :=
  expireRules_induction (I := Quiet m) m now
    (fun m' ruleId h => h.trans (.retireRule m' ruleId .expired now _)) (.refl m)

theorem rejectPending (m : FirewallManager) (ruleId : String) (now : Time) :
    Quiet m (m.rejectPending ruleId now).2 := by
  unfold FirewallManager.rejectPending
  split
  · exact .refl m
  · split
    · exact .refl m
    · exact .of_eq rfl rfl rfl

theorem revertToBase (hkeyed : Keyed m) (now : Time) : Quiet m (m.revertToBase now).2 := by
  cases hsets : m.sets with
  | some b =>
    have hguards := (FakeSetBackend.LeavesEnforcement.setGuardModes
      (b.flushSets adaptiveEnforcementSets).2 allObserve).log
    refine .of_demoted (revertToBase_demoted hsets hkeyed now) ⟨rfl, fun _ => rfl, ?_⟩
    exact hsets ▸ .some ((FakeSetBackend.LogsQuietly.flushSets b _).trans hguards)
  | none =>
    unfold FirewallManager.revertToBase
    rw [hsets]
    exact .of_demoted (revertBackend_demoted hkeyed now) ⟨rfl, fun _ => rfl, quietly_of_eq rfl⟩

theorem failOpenShutdown (hkeyed : Keyed m) (now : Time) : Quiet m (m.failOpenShutdown now).2 := by
  cases hsets : m.sets with
  | some b => exact .of_demoted (failOpenShutdown_demoted hsets hkeyed now) (.of_sets hsets (.flushSets b _))
  | none =>
    simp only [FirewallManager.failOpenShutdown, hsets]
    exact .revertToBase hkeyed now

theorem panic (hkeyed : Keyed m) (actor : String) (now : Time) : Quiet m (m.panic actor now).2 := by
  cases hsets : m.sets with
  | some b =>
    rcases panic_demoted hsets hkeyed actor now with ⟨_, _, heq⟩ | hdemoted
    · rw [heq]
      exact .of_sets hsets (.panic b)
    · exact .of_demoted hdemoted ⟨rfl, fun _ => rfl, by rw [hsets]; exact .some (.panic b)⟩
  | none =>
    simp only [FirewallManager.panic, hsets]
    exact .refl m

theorem reconcile (hkeyed : Keyed m) (now : Time) : Quiet m (m.reconcile now).2 := by
  cases hsets : m.sets with
  | none =>
    simp only [FirewallManager.reconcile, hsets]
    exact .refl m
  | some b =>
    rcases reconcile_cases hsets now with heq | ⟨b', e, hlisted, heq⟩ | ⟨b', live, report, hlisted, heq⟩
    · rw [heq]
      exact .refl m
    · rw [heq]
      exact .of_sets hsets (.of_ops hlisted.ops)
    · rw [heq]
      refine adoptUnknown_induction (I := Quiet m) _ ?_ _ report ?_
      · intro m' setName key expiresIn _ _ _ hm'
        rcases m'.adopt_cases setName key expiresIn now with heq | ⟨rule, ip, transitions, _, _, _, heq⟩
        · rw [heq]
          exact hm'
        · rw [heq]
          exact hm'.trans (.of_eq rfl rfl rfl)
      · exact .of_demoted (retireMissing_demoted (m := { m with sets := some b' }) hkeyed _ now)
          (.of_sets hsets (.of_ops hlisted.ops))

end Quiet

/-- Every call but submission and approval is quiet. -/
theorem step_quiet {m : FirewallManager} (hkeyed : Keyed m) (env : Env) (op : ManagerOp)
    (hsubmit : ∀ candidate, op ≠ .submitCandidate candidate)
    (happrove : ∀ ruleId, op ≠ .approvePending ruleId) : Quiet m (m.step (env, op)) := by
  by_cases hk : isHousekeeping op = true
  · exact .of_housekeeping (m.step_housekeeping env op hk)
  cases op with
  | submitCandidate candidate => exact absurd rfl (hsubmit candidate)
  | approvePending ruleId => exact absurd rfl (happrove ruleId)
  | reconcile => exact .reconcile hkeyed env.now
  | rejectPending ruleId => exact .rejectPending m ruleId env.now
  | disableRule ruleId => exact .retireRule m ruleId _ env.now _
  | removeRule ruleId => exact .retireRule m ruleId _ env.now _
  | expireRules => exact .expireRules m env.now
  | revertToBase => exact .revertToBase hkeyed env.now
  | failOpenShutdown => exact .failOpenShutdown hkeyed env.now
  | panic actor => exact .panic hkeyed actor env.now
  | _ => exact absurd rfl hk

/-! ## How a rule comes into force -/

/-- The additions logged between `b` and `b'` each carry a timeout with `P`. -/
def AddsWithTimeout (b b' : FakeSetBackend) (P : Int → Prop) : Prop :=
  ∃ writes, b'.ops = b.ops ++ writes ∧ ∀ ops op, .apply ops ∈ writes → op ∈ ops → op.kind = .add →
    ∃ timeout, op.timeoutSeconds = some timeout ∧ P timeout

/-- `rule` was put in force on the set path, against `target`, from the rule `base`. -/
structure SetActivation (m : FirewallManager) (b : FakeSetBackend) (base : FirewallRule) (now : Time)
    (m' : FirewallManager) (target : RuleTarget) (rule : FirewallRule) : Prop where
  filed : m'.targets.get? rule.id = some target
  allowlist : m'.allowlist = m.allowlist
  id : rule.id = base.id
  action : rule.action = base.action
  expiresAt : rule.expiresAt = base.expiresAt
  timed : ∃ b', m'.sets = some b' ∧ AddsWithTimeout b b' fun timeout => ∃ expiresAt,
    base.expiresAt = some expiresAt ∧
      timeout = elementTimeoutSeconds expiresAt now m.config.policy.maxTtlSeconds

theorem not_becomesActive_of_rules {m m' : FirewallManager} {rule : FirewallRule}
    (hrules : m'.rules = m.rules) : ¬ BecomesActive m m' rule := by
  rintro ⟨hget, _, hnew⟩
  exact hnew (hrules ▸ hget)

theorem not_becomesActive_of_set {m m' : FirewallManager} {r rule : FirewallRule}
    (hrules : m'.rules = m.rules.set r.id r) (hstatus : r.status ≠ .active) :
    ¬ BecomesActive m m' rule := by
  rintro ⟨hget, hactive, hnew⟩
  rw [hrules, Dict.get?_set] at hget
  split at hget
  · exact hstatus (Option.some.inj hget ▸ hactive)
  · exact hnew hget

section Deployment

variable {m m₀ m' : FirewallManager} {b b' : FakeSetBackend} {base rule : FirewallRule} {now : Time}
  {upgradeOf : Option String}

theorem SetDeployment.addsWithTimeout {target : RuleTarget} {additions : List SetOp}
    {metadata : Metadata} (h : SetDeployment m b base now upgradeOf m' target additions metadata b') :
    AddsWithTimeout b b' fun timeout => ∃ expiresAt, base.expiresAt = some expiresAt ∧
      timeout = elementTimeoutSeconds expiresAt now m.config.policy.maxTtlSeconds := by
  refine ⟨_, h.applied.log, ?_⟩
  intro ops op hops hop hkind
  split at hops
  · exact absurd hops (by simp)
  obtain rfl := KernelWrite.apply.inj (List.mem_singleton.mp hops)
  obtain ⟨element, expiresAt, _, hexp, rfl, _⟩ := h.added_op hop hkind
  exact ⟨_, rfl, expiresAt, hexp, rfl⟩

/-- A deployment on the set path puts only its own rule in force. -/
theorem deployToSets_becomesActive (h : BecomesActive m₀ (m.deployToSets b base now upgradeOf).2 rule)
    (hrules : m.rules = m₀.rules) (hallow : m.allowlist = m₀.allowlist) (hconfig : m.config = m₀.config) :
    ∃ target, m.targets.get? base.id = some target ∧
      SetActivation m₀ b base now (m.deployToSets b base now upgradeOf).2 target rule := by
  rcases m.deployToSets_cases b base now upgradeOf with
    heq | ⟨faults, transitions, _, heq⟩ | ⟨target, additions, metadata, b', hdeploy⟩
  · rw [heq] at h
    exact absurd h (not_becomesActive_of_rules hrules)
  · rw [heq] at h
    refine absurd h (not_becomesActive_of_set (r := { base with status := .rejected }) ?_ (by simp))
    rw [← hrules]
  · obtain ⟨transitions, hresult⟩ := hdeploy.result
    refine ⟨target, hdeploy.filed, ?_⟩
    obtain ⟨hget, hactive, hnew⟩ := h
    rw [hresult] at hget
    simp only [get?_deployedRules] at hget
    -- the only ACTIVE rule the deployment files is the one it deploys
    have hrule : rule = base.activated now metadata := by
      split at hget
      · exact (Option.some.inj hget).symm
      · split at hget
        · obtain ⟨old, _, rfl⟩ := Option.map_eq_some_iff.mp hget
          exact absurd hactive (by simp [demote])
        · exact absurd (hrules ▸ hget) hnew
    subst hrule
    refine ⟨?_, ?_, rfl, rfl, rfl, b', ?_, ?_⟩
    · rw [hresult]
      exact hdeploy.filed
    · rw [hresult]
      exact hallow
    · rw [hresult]
    · rw [← hconfig]
      exact hdeploy.addsWithTimeout

theorem deploy_becomesActive (h : BecomesActive m₀ (m.deploy base now).2 rule)
    (hrules : m.rules = m₀.rules) : rule = base.activated now base.metadata := by
  obtain ⟨backend, transitions, rule', _, hrule', heq⟩ := m.deploy_cases base now
  obtain ⟨hget, hactive, hnew⟩ := h
  rw [heq] at hget
  simp only [Dict.get?_set] at hget
  split at hget
  · obtain rfl := Option.some.inj hget
    rcases hrule' with rfl | rfl
    · exact absurd hactive (by simp)
    · rfl
  · exact absurd (hrules ▸ hget) hnew

end Deployment

theorem KeptAs.ne_active {m : FirewallManager} {candidate : CandidateRule} {status : RuleStatus}
    (h : KeptAs m candidate status) : status ≠ .active := by
  rcases h with ⟨rfl, _⟩ | ⟨rfl, _⟩
  · simp
  · simp

/-- How a submission puts a rule in force: not in SHADOW mode, and on the set path only what the whole
chain let through. -/
theorem submit_becomesActive {m : FirewallManager} {env : Env} {candidate : CandidateRule}
    {rule : FirewallRule} (h : BecomesActive m (m.step (env, .submitCandidate candidate)) rule) :
    m.enforcementMode ≠ .shadow ∧
    ((∃ b target upgradeOf base, m.sets = some b ∧
      SetAdmitted candidate target m.config m.activeTargets m.allowlist env.now env.localAddresses
        upgradeOf ∧
      base.action = candidate.action ∧ base.expiresAt = candidate.expiresAt ∧
      SetActivation m b base env.now (m.step (env, .submitCandidate candidate)) target rule) ∨
    (m.sets = none ∧ rule.expiresAt = candidate.expiresAt ∧ candidate.expiresAt.isSome = true)) := by
  cases hsets : m.sets with
  | some b =>
    simp only [step, submitCandidate, hsets] at h ⊢
    rcases m.submitToSets_cases env b candidate with
      ⟨_, heq⟩ | ⟨target, upgradeOf, base, _, hadmitted, ⟨priority, hsource, rfl⟩, hcases⟩
    · rw [heq] at h
      exact absurd h (not_becomesActive_of_rules rfl)
    rcases hcases with ⟨status, _, _, hkept, heq⟩ | ⟨hmode, rateLimiter, transitions, heq⟩
    · rw [heq] at h
      exact absurd h (not_becomesActive_of_set
        (r := { candidate.toRule priority (some target) hsource with status := status })
        rfl hkept.ne_active)
    · rw [heq] at h ⊢
      obtain ⟨target', htarget', hact⟩ := deployToSets_becomesActive h rfl rfl rfl
      have hsame : target = target' := by
        simpa [CandidateRule.toRule] using htarget'
      subst hsame
      exact ⟨hmode, .inl ⟨b, target, upgradeOf, _, rfl, hadmitted, rfl, rfl, hact⟩⟩
  | none =>
    simp only [step, submitCandidate, hsets] at h ⊢
    rcases m.submitToBackend_cases env candidate with
      ⟨_, heq⟩ | ⟨priority, rateLimiter, ⟨expiresAt, hexp⟩, ⟨status, _, hkept, heq⟩ | ⟨hmode, _, heq⟩⟩
    · rw [heq] at h
      exact absurd h (not_becomesActive_of_rules rfl)
    · rw [heq] at h
      exact absurd h (not_becomesActive_of_set
        (r := { candidate.toRule priority candidate.target candidate.target_is_source with
          status := status }) rfl hkept.ne_active)
    · rw [heq] at h
      have hrule := deploy_becomesActive h rfl
      exact ⟨hmode, .inr ⟨trivial, by rw [hrule]; rfl, by rw [hexp]; rfl⟩⟩

/-- How an approval puts a rule in force: whatever was PENDING under that id. -/
theorem approve_becomesActive {m : FirewallManager} {env : Env} {ruleId : String} {rule : FirewallRule}
    (hkeyed : Keyed m) (h : BecomesActive m (m.step (env, .approvePending ruleId)) rule) :
    ∃ pending, m.rules.get? ruleId = some pending ∧ pending.status = .pendingApproval ∧
      ((∃ b target, m.sets = some b ∧ m.targets.get? ruleId = some target ∧
        SetActivation m b { pending with status := .approved } env.now
          (m.step (env, .approvePending ruleId)) target rule) ∨
      (m.sets = none ∧ rule.expiresAt = pending.expiresAt)) := by
  simp only [step] at h ⊢
  rcases m.approvePending_cases ruleId env.now with heq | ⟨pending, hrule, hpending, hcases⟩
  · rw [heq] at h
    exact absurd h (not_becomesActive_of_rules rfl)
  refine ⟨pending, hrule, hpending, ?_⟩
  rcases hcases with ⟨b, transitions, hsets, heq⟩ | ⟨hsets, transitions, heq⟩
  · rw [heq] at h ⊢
    obtain ⟨target, htarget, hact⟩ := deployToSets_becomesActive h rfl rfl rfl
    refine .inl ⟨b, target, hsets, ?_, hact⟩
    rw [← hkeyed ruleId pending hrule]
    exact htarget
  · rw [heq] at h
    have hrule := deploy_becomesActive h rfl
    exact .inr ⟨hsets, by rw [hrule]; rfl⟩

/-- `rule` takes over an element of an IP-keyed set that the kernel holds and no ACTIVE rule records. -/
def Adopts (m : FirewallManager) (now : Time) (rule : FirewallRule) : Prop :=
  ∃ b setName key e, m.sets = some b ∧ setName ∈ ipKeyedSets ∧
    elementOf rule = some (setName, .one key) ∧
    b.expiry? (adaptiveSet setName) (.one key) = some e ∧ isLive now e = true ∧
    ∀ id other, m.rules.get? id = some other → other.status = .active →
      elementOf other ≠ some (setName, .one key)

/-- How reconcile puts a rule in force: by adopting. -/
theorem reconcile_becomesActive {m : FirewallManager} {env : Env} {rule : FirewallRule}
    (hkeyed : Keyed m) (h : BecomesActive m (m.step (env, .reconcile)) rule) :
    Adopts m env.now rule := by
  simp only [step] at h
  cases hsets : m.sets with
  | none =>
    simp only [reconcile, hsets] at h
    exact absurd h (not_becomesActive_of_rules rfl)
  | some b =>
    rcases reconcile_cases hsets env.now with heq | ⟨b', e, _, heq⟩ | ⟨b', live, report, hlisted, heq⟩
    · rw [heq] at h
      exact absurd h (not_becomesActive_of_rules rfl)
    · rw [heq] at h
      exact absurd h (not_becomesActive_of_rules rfl)
    rw [heq] at h
    -- the adoption loop only adds ACTIVE rules that adopt
    refine adoptUnknown_induction
      (I := fun m' => ∀ rule, BecomesActive m m' rule → Adopts m env.now rule) _ ?_ _ report ?_ rule h
    · intro m' setName key expiresIn hmem hunknown hset ih rule hrule
      rcases m'.adopt_cases setName key expiresIn env.now with
        heq | ⟨adopted, ip, transitions, hid, _, hel, heq⟩
      · exact ih rule (heq ▸ hrule)
      · rw [heq] at hrule
        obtain ⟨hget, hactive, hnew⟩ := hrule
        simp only [Dict.get?_set] at hget
        split at hget
        · obtain rfl := Option.some.inj hget
          rw [mem_sortedLive] at hmem
          obtain ⟨_, e, he, hlive⟩ := hlisted.sound live rfl _ hmem
          refine ⟨b, setName, key, e, hsets, hset, hel, he, hlive, ?_⟩
          intro id other hother hother_active hother_el
          exact hunknown (mem_knownElements hkeyed hother hother_active hother_el hmem)
        · exact ih rule ⟨hget, hactive, hnew⟩
    · intro rule hrule
      have hdemoted := retireMissing_demoted (m := { m with sets := some b' }) hkeyed
        (live.map Prod.fst) env.now
      have hretires : Retires m _ := hdemoted.retiresFrom (.of_eq rfl rfl rfl)
      exact absurd hrule (hretires.not_becomesActive rule)

/-! ## SHADOW deploys nothing -/

/-- The call approves a rule that is held for review. -/
def ApprovesPending (m : FirewallManager) (op : ManagerOp) : Prop :=
  ∃ ruleId rule, op = .approvePending ruleId ∧ m.rules.get? ruleId = some rule ∧
    rule.status = .pendingApproval

/-- The call deployed nothing; a rule that `allowed` does not cover did not become ACTIVE. -/
structure DeploysNothing (allowed : FirewallManager → Env × ManagerOp → FirewallRule → Prop)
    (m : FirewallManager) (call : Env × ManagerOp) : Prop where
  quiet : Quiet m (m.step call)
  activation : ∀ rule, BecomesActive m (m.step call) rule → allowed m call rule

/-- A rule that reconcile files for an element the kernel already enforces. -/
def AdoptedByReconcile (m : FirewallManager) (call : Env × ManagerOp) (rule : FirewallRule) : Prop :=
  call.2 = .reconcile ∧ Adopts m call.1.now rule

/-- In SHADOW mode a submission only files the rule. -/
theorem submit_quiet {m : FirewallManager} (hmode : m.enforcementMode = .shadow) (env : Env)
    (candidate : CandidateRule) : Quiet m (m.step (env, .submitCandidate candidate)) := by
  simp only [step, submitCandidate]
  split
  · rename_i b hsets
    rcases m.submitToSets_cases env b candidate with
      ⟨_, heq⟩ | ⟨target, upgradeOf, base, _, _, _, ⟨_, _, _, _, heq⟩ | ⟨hnot, _⟩⟩
    · rw [heq]
      exact .of_eq rfl rfl rfl
    · rw [heq]
      exact .of_eq rfl rfl rfl
    · exact absurd hmode hnot
  · rcases m.submitToBackend_cases env candidate with
      ⟨_, heq⟩ | ⟨priority, rateLimiter, _, ⟨_, _, _, heq⟩ | ⟨hnot, _⟩⟩
    · rw [heq]
      exact .of_eq rfl rfl rfl
    · rw [heq]
      exact .of_eq rfl rfl rfl
    · exact absurd hmode hnot

/-- One call in SHADOW mode, an approval of a held rule apart. -/
theorem step_deploysNothing {m : FirewallManager} (hkeyed : Keyed m) (call : Env × ManagerOp)
    (hmode : m.enforcementMode = .shadow) (happrove : ¬ ApprovesPending m call.2) :
    DeploysNothing AdoptedByReconcile m call := by
  obtain ⟨env, op⟩ := call
  by_cases hother : (∀ candidate, op ≠ .submitCandidate candidate) ∧ ∀ ruleId, op ≠ .approvePending ruleId
  · refine ⟨step_quiet hkeyed env op hother.1 hother.2, ?_⟩
    intro rule hrule
    by_cases hreconcile : op = .reconcile
    · subst hreconcile
      exact ⟨rfl, reconcile_becomesActive hkeyed hrule⟩
    · exact absurd hrule
        ((step_retires hkeyed env op hother.1 hother.2 hreconcile).not_becomesActive rule)
  cases op with
  | submitCandidate candidate =>
    refine ⟨submit_quiet hmode env candidate, ?_⟩
    intro rule hrule
    exact absurd hmode (submit_becomesActive hrule).1
  | approvePending ruleId =>
    have hsame : m.step (env, .approvePending ruleId) = m := by
      rcases m.approvePending_cases ruleId env.now with heq | ⟨rule, hrule, hpending, _⟩
      · exact heq
      · exact absurd ⟨ruleId, rule, rfl, hrule, hpending⟩ happrove
    refine ⟨by rw [hsame]; exact .refl m, ?_⟩
    intro rule hrule
    rw [hsame] at hrule
    exact absurd hrule (not_becomesActive_of_rules rfl)
  | _ => exact absurd ⟨by simp, by simp⟩ hother

/-- **SHADOW deploys nothing.** On either path, from any configuration and kernel, whatever was done
before: a call in SHADOW mode leaves the mode SHADOW, adds nothing to an enforcement set and never calls
`apply_rule`, and no rule becomes ACTIVE but those reconcile files for elements it finds in the kernel.
Approvals of rules held before SHADOW was entered are not covered. -/
theorem shadow_deploys_nothing (config : PirewallConfig) (backend : FakeFirewallBackend)
    (store : Option AllowlistStore) (sets : Option FakeSetBackend) (calls : List (Env × ManagerOp)) :
    Along step (fun m call => m.enforcementMode = .shadow → ¬ ApprovesPending m call.2 →
      DeploysNothing AdoptedByReconcile m call) (init config backend store sets) calls :=
  Along.of_invariant (G := fun _ _ => True) (I := Keyed) (fun _ call h _ => step_keyed h call)
    (fun _ call h _ => step_deploysNothing h call) (.of_forall (fun _ _ _ => trivial) _)
    (keyed_init config backend store sets)

/-- The site's kernel as a previous run left it, with `10.0.0.9` still blocked. -/
def blockedKernel : FakeSetBackend :=
  (siteKernel.apply [{ kind := .add, setName := setBlock4, key := .one "10.0.0.9",
                       timeoutSeconds := some 600 }] 0).2

/-- A BLOCK held for review when the kill switch is pulled, and approved afterwards. -/
def approvedAfterRevert : List (Env × ManagerOp) :=
  [siteDecision,
   (siteEnv 0, .submitCandidate (siteCandidate "held" .block 9 (seconds 600))),
   (siteEnv 0, .revertToBase),
   (siteEnv 0, .approvePending "held")]

/-- A manager that starts in SHADOW mode on a kernel with an element in it makes a rule ACTIVE when it
reconciles. Independently, an approval deploys in SHADOW mode, to the kernel and on the v1 path. -/
theorem shadow_rule_becomes_active :
    ¬ Along step (fun m call => m.enforcementMode = .shadow → DeploysNothing (fun _ _ _ => False) m call)
      (siteManager .shadow (some blockedKernel)) [(siteEnv 0, .reconcile)] ∧
    (∀ sets ∈ [some siteKernel, none],
      ((siteManager .assisted sets).run approvedAfterRevert).enforcementMode = .shadow ∧
      ((siteManager .assisted sets).run approvedAfterRevert).activeRules.map FirewallRule.id =
        ["held"]) := by
  refine ⟨?_, by decide +kernel⟩
  intro h
  have hactive : (((siteManager .shadow (some blockedKernel)).run [(siteEnv 0, .reconcile)]).rules.get?
      "reconciled:block4:10.0.0.9").map (fun rule => (rule.status, rule.id)) =
        some (.active, "reconciled:block4:10.0.0.9") := by
    decide +kernel
  obtain ⟨rule, hrule, hfields⟩ := Option.map_eq_some_iff.mp hactive
  simp only [Prod.mk.injEq] at hfields
  refine (h.1 rfl).activation rule ⟨by rw [hfields.2]; exact hrule, hfields.1, ?_⟩
  simp [siteManager, init]

/-! ## The allowlist outranks enforcement -/

/-- The restrictions this call puts in force are against devices that no allowlist entry protects.
What reconcile adopts was in the kernel before and is not put in force by the call. -/
def AllowlistWins (m : FirewallManager) (call : Env × ManagerOp) : Prop :=
  call.2 ≠ .reconcile → ∀ rule, BecomesActive m (m.step call) rule → rule.action.restrictive = true →
    ∃ target, (m.step call).targets.get? rule.id = some target ∧
      ∀ entry ∈ (m.step call).allowlist, entry.protects target = false

/-- An approval of a held rule finds its device off the allowlist. -/
def ApprovalUnlisted (m : FirewallManager) (call : Env × ManagerOp) : Prop :=
  ∀ ruleId rule target, call.2 = .approvePending ruleId → m.rules.get? ruleId = some rule →
    rule.status = .pendingApproval → m.targets.get? ruleId = some target →
    ∀ entry ∈ m.allowlist, entry.protects target = false

/-- Whether the manager is on the set path never changes. -/
theorem step_sets_isSome {m : FirewallManager} (hkeyed : Keyed m) (call : Env × ManagerOp) :
    (m.step call).sets.isSome = m.sets.isSome := by
  obtain ⟨env, op⟩ := call
  by_cases hother : (∀ candidate, op ≠ .submitCandidate candidate) ∧ ∀ ruleId, op ≠ .approvePending ruleId
  · have hquiet := (step_quiet hkeyed env op hother.1 hother.2).sets
    generalize (m.step (env, op)).sets = after at hquiet ⊢
    generalize m.sets = before at hquiet ⊢
    cases hquiet with
    | none => rfl
    | some _ => rfl
  cases op with
  | submitCandidate candidate =>
    simp only [step, submitCandidate]
    cases hsets : m.sets with
    | some b =>
      simp only [Option.isSome_some]
      rcases m.submitToSets_cases env b candidate with
        ⟨_, heq⟩ | ⟨target, upgradeOf, base, _, _, _, ⟨_, _, _, _, heq⟩ | ⟨_, rateLimiter, transitions, heq⟩⟩
      · simp only [heq, hsets, Option.isSome_some]
      · simp only [heq, hsets, Option.isSome_some]
      · rw [heq]
        exact (deployToSets_frame _ b base env.now upgradeOf (by simp [hsets])).2.2
    | none =>
      rcases m.submitToBackend_cases env candidate with
        ⟨_, heq⟩ | ⟨priority, rateLimiter, _, ⟨_, _, _, heq⟩ | ⟨_, transitions, heq⟩⟩
      · simp only [heq, hsets]
      · simp only [heq, hsets]
      · simp only [heq, deploy_sets, hsets]
  | approvePending ruleId =>
    simp only [step]
    rcases m.approvePending_cases ruleId env.now with
      heq | ⟨rule, _, _, ⟨b, transitions, hsets, heq⟩ | ⟨_, transitions, heq⟩⟩
    · rw [heq]
    · rw [heq, hsets, Option.isSome_some]
      exact (deployToSets_frame _ b _ env.now _ (by simp)).2.2
    · rw [heq, deploy_sets]
  | _ => exact absurd ⟨by simp, by simp⟩ hother

/-- A manager on the set path stays on it. -/
theorem step_sets {m : FirewallManager} (hkeyed : Keyed m) {b : FakeSetBackend} (hsets : m.sets = some b)
    (call : Env × ManagerOp) : ∃ b', (m.step call).sets = some b' := by
  rw [← Option.isSome_iff_exists, step_sets_isSome hkeyed call, hsets]
  rfl

theorem step_allowlistWins {m : FirewallManager} (hkeyed : Keyed m) {b : FakeSetBackend}
    (hsets : m.sets = some b) (call : Env × ManagerOp) (hclear : ApprovalUnlisted m call) :
    AllowlistWins m call := by
  obtain ⟨env, op⟩ := call
  intro hreconcile rule hrule hr
  by_cases hother : (∀ candidate, op ≠ .submitCandidate candidate) ∧ ∀ ruleId, op ≠ .approvePending ruleId
  · exact absurd hrule
      ((step_retires hkeyed env op hother.1 hother.2 hreconcile).not_becomesActive rule)
  cases op with
  | submitCandidate candidate =>
    rcases (submit_becomesActive hrule).2 with
      ⟨_, target, _, base, _, hadmitted, haction, _, hact⟩ | ⟨hnone, _⟩
    · refine ⟨target, hact.filed, ?_⟩
      rw [hact.allowlist]
      exact hadmitted.allowlist (by rw [← haction, ← hact.action]; exact hr)
    · exact absurd (hsets.symm.trans hnone) (by simp)
  | approvePending ruleId =>
    obtain ⟨pending, hpending, hstatus, hcases⟩ := approve_becomesActive hkeyed hrule
    rcases hcases with ⟨_, target, _, htarget, hact⟩ | ⟨hnone, _⟩
    · refine ⟨target, hact.filed, ?_⟩
      rw [hact.allowlist]
      exact hclear ruleId pending target rfl hpending hstatus htarget
    · exact absurd (hsets.symm.trans hnone) (by simp)
  | _ => exact absurd ⟨by simp, by simp⟩ hother

/-- **The allowlist at the moment of activation.** Along every run on the set path whose approvals each
find the device of the held rule off the allowlist, no BLOCK or RATE_LIMIT is put in force against a
device that the allowlist protects at that moment. -/
theorem allowlist_wins_at_activation (config : PirewallConfig) (backend : FakeFirewallBackend)
    (store : Option AllowlistStore) (b : FakeSetBackend) (calls : List (Env × ManagerOp))
    (hunlisted : Along step ApprovalUnlisted (init config backend store (some b)) calls) :
    Along step AllowlistWins (init config backend store (some b)) calls := by
  refine Along.of_invariant (G := ApprovalUnlisted) (I := fun m => Keyed m ∧ ∃ b, m.sets = some b)
    ?_ ?_ hunlisted ⟨keyed_init config backend store (some b), b, rfl⟩
  · rintro m call ⟨hkeyed, b', hsets⟩ _
    exact ⟨step_keyed hkeyed call, step_sets hkeyed hsets call⟩
  · rintro m call ⟨hkeyed, b', hsets⟩ hclear
    exact step_allowlistWins hkeyed hsets call hclear

/-- The administrator declares one LAN device off limits. -/
def siteEntry (device : Nat) : AllowlistEntry where
  id := "entry"
  target := .host (IPv4Address.ofOctets 10 0 0 device)
  mac := none
  port := none
  protocol := none
  reason := "phone"
  createdAt := 0
  createdBy := "admin"
  mac_names_one_device := fun _ => rfl

/-- A BLOCK held for review and approved, with an allowlist entry for `listed` added in between. -/
def listedWhileHeld (listed : Nat) : List (Env × ManagerOp) :=
  [siteDecision,
   (siteEnv 0, .submitCandidate (siteCandidate "held" .block 9 (seconds 600))),
   (siteEnv 0, .addAllowlistEntry (siteEntry listed)),
   (siteEnv 0, .approvePending "held")]

theorem allowlist_wins_at_activation_other_device :
    Along step AllowlistWins (siteManager .assisted (some siteKernel)) (listedWhileHeld 8) ∧
    ((siteManager .assisted (some siteKernel)).run (listedWhileHeld 8)).activeRules.map FirewallRule.id =
      ["held"] := by
  refine ⟨allowlist_wins_at_activation (siteConfig .assisted) siteBackend none siteKernel _ ?_,
    by decide +kernel⟩
  have hunlisted : (((siteManager .assisted (some siteKernel)).run ((listedWhileHeld 8).take 3)).allowlist.all
      fun entry => (((siteManager .assisted (some siteKernel)).run
        ((listedWhileHeld 8).take 3)).targets.get? "held").all fun target =>
          !entry.protects target) = true := by
    decide +kernel
  refine ⟨fun _ _ _ hop => ?_, fun _ _ _ hop => ?_, fun _ _ _ hop => ?_, ?_, trivial⟩
  · exact absurd hop (by simp [siteDecision])
  · exact absurd hop (by simp)
  · exact absurd hop (by simp)
  · intro ruleId rule target hop _ _ htarget entry hentry
    cases hop
    have hall := List.all_eq_true.mp hunlisted entry hentry
    have hheld : ((siteManager .assisted (some siteKernel)).run
        ((listedWhileHeld 8).take 3)).targets.get? "held" = some target := htarget
    rw [hheld] at hall
    simpa using hall

/-- The entry for `10.0.0.9` was added while its BLOCK was held; the approval blocks the device all the
same. -/
theorem allowlisted_device_blocked :
    ¬ Along step AllowlistWins (siteManager .assisted (some siteKernel)) (listedWhileHeld 9) := by
  intro h
  have hpending : (((siteManager .assisted (some siteKernel)).run ((listedWhileHeld 9).take 3)).rules.get?
      "held").map FirewallRule.status = some .pendingApproval := by
    decide +kernel
  have hactive : (((siteManager .assisted (some siteKernel)).run (listedWhileHeld 9)).rules.get?
      "held").map (fun rule => (rule.status, rule.id, rule.action)) = some (.active, "held", .block) := by
    decide +kernel
  have hlisted : (((siteManager .assisted (some siteKernel)).run (listedWhileHeld 9)).targets.get?
      "held").all (fun target => ((siteManager .assisted (some siteKernel)).run
        (listedWhileHeld 9)).allowlist.any fun entry => entry.protects target) = true := by
    decide +kernel
  obtain ⟨rule, hrule, hfields⟩ := Option.map_eq_some_iff.mp hactive
  simp only [Prod.mk.injEq] at hfields
  have hbecomes : BecomesActive ((siteManager .assisted (some siteKernel)).run ((listedWhileHeld 9).take 3))
      ((siteManager .assisted (some siteKernel)).run (listedWhileHeld 9)) rule := by
    refine ⟨by rw [hfields.2.1]; exact hrule, hfields.1, ?_⟩
    intro hold
    rw [hfields.2.1] at hold
    rw [hold, Option.map_some, hfields.1] at hpending
    exact absurd hpending (by simp)
  obtain ⟨target, htarget, hclear⟩ := h.2.2.2.1 (by simp) rule hbecomes (by rw [hfields.2.2]; rfl)
  rw [hfields.2.1] at htarget
  have hheld : ((siteManager .assisted (some siteKernel)).run (listedWhileHeld 9)).targets.get? "held" =
      some target := htarget
  rw [hheld, Option.all_some] at hlisted
  obtain ⟨entry, hentry, hprotects⟩ := List.any_eq_true.mp hlisted
  exact absurd (hprotects.symm.trans (hclear entry hentry)) (by simp)

/-! ## No rule outlives its expiry on the way into force -/

/-- Every rule held for review has an expiry. -/
def HeldExpire (m : FirewallManager) : Prop :=
  ∀ id rule, m.rules.get? id = some rule → rule.status = .pendingApproval → rule.expiresAt.isSome = true

theorem HeldExpire.step {m : FirewallManager} (h : HeldExpire m) (hkeyed : Keyed m)
    (call : Env × ManagerOp) : HeldExpire (m.step call) := by
  intro id rule hrule hpending
  rcases held_of_step hkeyed call hrule hpending with ⟨hold, _⟩ | ⟨candidate, _, hnew⟩
  · exact h id rule hold hpending
  · exact hnew.expires

/-- A rule this call puts in force expires later, and what is added for it runs out by `limit` of its
expiry and the time of the call. -/
def TimelyActivation (limit : Time → Time → Time) (m : FirewallManager) (call : Env × ManagerOp) : Prop :=
  call.2 ≠ .reconcile → ∀ rule, BecomesActive m (m.step call) rule →
    ∃ expiresAt, rule.expiresAt = some expiresAt ∧ call.1.now < expiresAt ∧
      ∀ b, m.sets = some b → ∃ b', (m.step call).sets = some b' ∧
        AddsWithTimeout b b' fun timeout => call.1.now + seconds timeout ≤ limit expiresAt call.1.now

/-- The expiry itself, as the kernel counts: whole seconds, one at least. -/
def kernelLimit (expiresAt now : Time) : Time := max expiresAt (now + seconds 1)

/-- The call deploys what has run out: a v1 submission past the candidate's expiry, or an approval past
the expiry of the held rule. -/
def DeploysExpired (m : FirewallManager) (call : Env × ManagerOp) : Prop :=
  (∃ candidate expiresAt, call.2 = .submitCandidate candidate ∧ m.sets = none ∧
    candidate.expiresAt = some expiresAt ∧ expiresAt ≤ call.1.now) ∨
  ∃ ruleId rule expiresAt, call.2 = .approvePending ruleId ∧ m.rules.get? ruleId = some rule ∧
    rule.status = .pendingApproval ∧ rule.expiresAt = some expiresAt ∧ expiresAt ≤ call.1.now

theorem seconds_elementTimeoutSeconds {expiresAt now : Int} (h : now < expiresAt) (maxTtl : Nat) :
    now + seconds (elementTimeoutSeconds expiresAt now maxTtl) ≤ kernelLimit expiresAt now := by
  have hwhole : wholeSeconds (expiresAt - now) * 1000000 ≤ expiresAt - now := by
    rw [wholeSeconds, Int.tdiv_eq_ediv_of_nonneg (by omega)]
    omega
  have hcap : elementTimeoutSeconds expiresAt now maxTtl ≤ max 1 (wholeSeconds (expiresAt - now)) :=
    max_le_max (le_refl 1) (min_le_left _ _)
  unfold kernelLimit seconds
  generalize elementTimeoutSeconds expiresAt now maxTtl = t at hcap ⊢
  generalize wholeSeconds (expiresAt - now) = w at hwhole hcap
  rcases le_total w 1 with hw | hw
  · rw [max_eq_left hw] at hcap
    refine le_trans ?_ (le_max_right _ _)
    omega
  · rw [max_eq_right hw] at hcap
    refine le_trans ?_ (le_max_left _ _)
    omega

theorem AddsWithTimeout.mono {b b' : FakeSetBackend} {P Q : Int → Prop} (h : AddsWithTimeout b b' P)
    (hPQ : ∀ t, P t → Q t) : AddsWithTimeout b b' Q := by
  obtain ⟨writes, hlog, htimed⟩ := h
  refine ⟨writes, hlog, ?_⟩
  intro ops op hops hop hkind
  obtain ⟨timeout, htimeout, hp⟩ := htimed ops op hops hop hkind
  exact ⟨timeout, htimeout, hPQ timeout hp⟩

theorem SetActivation.timely {m m' : FirewallManager} {b : FakeSetBackend} {base rule : FirewallRule}
    {now expiresAt : Time} {target : RuleTarget} (h : SetActivation m b base now m' target rule)
    (hexp : base.expiresAt = some expiresAt) (hlt : now < expiresAt) :
    ∃ b', m'.sets = some b' ∧
      AddsWithTimeout b b' fun timeout => now + seconds timeout ≤ kernelLimit expiresAt now := by
  obtain ⟨b', hsets', htimed⟩ := h.timed
  refine ⟨b', hsets', htimed.mono ?_⟩
  rintro timeout ⟨expiresAt', hexp', rfl⟩
  obtain rfl := Option.some.inj (hexp.symm.trans hexp')
  exact seconds_elementTimeoutSeconds hlt _

theorem step_timelyActivation {m : FirewallManager} (hkeyed : Keyed m) (hheld : HeldExpire m)
    (call : Env × ManagerOp) (hlive : ¬ DeploysExpired m call) : TimelyActivation kernelLimit m call := by
  obtain ⟨env, op⟩ := call
  intro hreconcile rule hrule
  by_cases hother : (∀ candidate, op ≠ .submitCandidate candidate) ∧ ∀ ruleId, op ≠ .approvePending ruleId
  · exact absurd hrule
      ((step_retires hkeyed env op hother.1 hother.2 hreconcile).not_becomesActive rule)
  cases op with
  | submitCandidate candidate =>
    rcases (submit_becomesActive hrule).2 with
      ⟨b, target, _, base, hsets, hadmitted, _, hbase, hact⟩ | ⟨hnone, hexp, hsome⟩
    · obtain ⟨expiresAt, hcandidate, hlt, _⟩ := hadmitted.expiry
      have hexp := hbase.trans hcandidate
      refine ⟨expiresAt, hact.expiresAt.trans hexp, hlt, ?_⟩
      intro b' hsets'
      obtain rfl := Option.some.inj (hsets.symm.trans hsets')
      exact hact.timely hexp hlt
    · obtain ⟨expiresAt, hcandidate⟩ := Option.isSome_iff_exists.mp hsome
      refine ⟨expiresAt, hexp.trans hcandidate, ?_, ?_⟩
      · by_contra hge
        exact hlive (.inl ⟨candidate, expiresAt, rfl, hnone, hcandidate, not_lt.mp hge⟩)
      · exact fun b hsets => absurd (hnone.symm.trans hsets) (by simp)
  | approvePending ruleId =>
    obtain ⟨pending, hpending, hstatus, hcases⟩ := approve_becomesActive hkeyed hrule
    obtain ⟨expiresAt, hexp⟩ := Option.isSome_iff_exists.mp (hheld ruleId pending hpending hstatus)
    have hlt : env.now < expiresAt := by
      by_contra hge
      exact hlive (.inr ⟨ruleId, pending, expiresAt, rfl, hpending, hstatus, hexp, not_lt.mp hge⟩)
    rcases hcases with ⟨b, target, hsets, _, hact⟩ | ⟨hnone, hrule_exp⟩
    · refine ⟨expiresAt, hact.expiresAt.trans hexp, hlt, ?_⟩
      intro b' hsets'
      obtain rfl := Option.some.inj (hsets.symm.trans hsets')
      exact hact.timely hexp hlt
    · refine ⟨expiresAt, hrule_exp.trans hexp, hlt, ?_⟩
      exact fun b hsets => absurd (hnone.symm.trans hsets) (by simp)
  | _ => exact absurd ⟨by simp, by simp⟩ hother

/-- **No rule is put in force past its expiry.** On either path, along every run: a rule that submission
or approval puts in force expires later, and what is added to the kernel for it runs out by then, or
within the one second that is the shortest timeout the kernel is given. A v1 submission past the
candidate's expiry and an approval past the held rule's are not covered. -/
theorem activations_are_timely (config : PirewallConfig) (backend : FakeFirewallBackend)
    (store : Option AllowlistStore) (sets : Option FakeSetBackend) (calls : List (Env × ManagerOp)) :
    Along step (fun m call => ¬ DeploysExpired m call → TimelyActivation kernelLimit m call)
      (init config backend store sets) calls := by
  refine Along.of_invariant (G := fun _ _ => True) (I := fun m => Keyed m ∧ HeldExpire m) ?_ ?_
    (.of_forall (fun _ _ _ => trivial) _) ⟨keyed_init config backend store sets, ?_⟩
  · rintro m call ⟨hkeyed, hheld⟩ _
    exact ⟨step_keyed hkeyed call, hheld.step hkeyed call⟩
  · rintro m call ⟨hkeyed, hheld⟩ _
    exact step_timelyActivation hkeyed hheld call
  · exact fun _ _ h => absurd h (by simp [init])

/-- A BLOCK with half a second left. -/
def briefBlock : List (Env × ManagerOp) :=
  [siteDecision, (siteEnv 0, .submitCandidate (siteCandidate "brief" .block 9 500000))]

/-- A BLOCK submitted five seconds after its expiry. -/
def lateSubmission : List (Env × ManagerOp) :=
  [siteDecision, (siteEnv (seconds 10), .submitCandidate (siteCandidate "late" .block 9 (seconds 5)))]

/-- A BLOCK held for review and approved five seconds after its expiry. -/
def lateApproval : List (Env × ManagerOp) :=
  [siteDecision,
   (siteEnv 0, .submitCandidate (siteCandidate "late" .block 9 (seconds 5))),
   (siteEnv (seconds 10), .approvePending "late")]

/-- The element of a BLOCK with half a second left is added for a whole second. Independently, a v1
submission and an approval on either path put in force a rule that expired five seconds before. -/
theorem element_outlives_its_rule :
    ¬ Along step (TimelyActivation fun expiresAt _ => expiresAt) (siteManager .active (some siteKernel))
      briefBlock ∧
    ((siteManager .active none).run lateSubmission).activeRules.map FirewallRule.id = ["late"] ∧
    ∀ sets ∈ [some siteKernel, none],
      ((siteManager .assisted sets).run lateApproval).activeRules.map FirewallRule.id = ["late"] := by
  refine ⟨?_, by decide +kernel, by decide +kernel⟩
  intro h
  have hactive : (((siteManager .active (some siteKernel)).run briefBlock).rules.get? "brief").map
      (fun rule => (rule.status, rule.id, rule.expiresAt)) = some (.active, "brief", some 500000) := by
    decide +kernel
  have hlog : ((siteManager .active (some siteKernel)).run briefBlock).sets.map FakeSetBackend.ops =
      some [.apply [{ kind := .add, setName := setBlock4, key := .one "10.0.0.9",
                      timeoutSeconds := some 1 }]] := by
    decide +kernel
  obtain ⟨rule, hrule, hfields⟩ := Option.map_eq_some_iff.mp hactive
  simp only [Prod.mk.injEq] at hfields
  obtain ⟨expiresAt, hexp, _, htimed⟩ := h.2.1 (by simp) rule
    ⟨by rw [hfields.2.1]; exact hrule, hfields.1,
      by simp [siteDecision, step, registerDecision, siteManager, init]⟩
  obtain rfl := Option.some.inj (hfields.2.2.symm.trans hexp)
  obtain ⟨b', hsets', writes, hops, hadds⟩ := htimed siteKernel rfl
  have hsets : ((siteManager .active (some siteKernel)).run briefBlock).sets = some b' := hsets'
  rw [hsets, Option.map_some, hops] at hlog
  have hwrites : writes = [.apply [{ kind := .add, setName := setBlock4, key := .one "10.0.0.9",
                                     timeoutSeconds := some 1 }]] := Option.some.inj hlog
  subst hwrites
  obtain ⟨timeout, htimeout, hle⟩ := hadds _ _ List.mem_cons_self List.mem_cons_self rfl
  obtain rfl := Option.some.inj htimeout
  exact absurd hle (by decide)

end FirewallManager

end Pirewall
