/-
# Pirewall.Firewall.Devices -- how many restrictions a device has

The chain compares a candidate with the ACTIVE rules device by device (`sameDevice`), so that a device is restricted
by one rule at a time: a second BLOCK or RATE_LIMIT is a duplicate, a RATE_LIMIT under a BLOCK is a conflict, and a
BLOCK over a RATE_LIMIT supersedes it. But `sameDevice` is not transitive: two rules that are not each other's device
can both be the candidate's, and an upgrade supersedes one. `reconcile` adopts without asking the chain at all. Where
neither happens, every state reached has at most one restriction per device.

How `sameDevice` fails to be transitive decides what the condition has to say. Two targets with a MAC are compared by
it, whatever their addresses; a target that is known by its address alone is compared by that. So a rule on an address
and a rule on a MAC that was leased another one are two devices, until the MAC is leased the first rule's address: a
candidate for it then meets both. `UpgradesOne` excludes that for a BLOCK that finds two RATE_LIMIT rules, and for no
other candidate, since every other one is refused when it finds a restriction.

`reconcile` adopts what no ACTIVE rule records, under the address that the element is keyed by. `AdoptsApart` asks
that none of these is of a device with a restriction which reconcile keeps, and that no two of them are of one device.
Approvals are not in the way here: in ACTIVE mode nothing is ever held (`NonePending`).
-/
import Pirewall.Firewall.Activation
import Pirewall.Firewall.Verdict

namespace Pirewall

open Lib

/-! ## One device -/

theorem sameDevice_comm (s t : RuleTarget) : sameDevice s t = sameDevice t s := by
  obtain ⟨sip, smac⟩ := s
  obtain ⟨tip, tmac⟩ := t
  cases smac <;> cases tmac <;> simp only [sameDevice] <;> exact Bool.beq_comm

/-- A target known by its address alone is the device of every target at that address. -/
theorem sameDevice_address {ip : IPv4Address} {t : RuleTarget} (h : sameDevice t ⟨ip, none⟩ = true) :
    t.ip = ip := by
  obtain ⟨tip, tmac⟩ := t
  cases tmac <;> simpa [sameDevice] using h

/-- The conflict stage: a RATE_LIMIT finds no BLOCK on its device, and a BLOCK lists every RATE_LIMIT. -/
theorem validateSetConflict_passed {candidate : CandidateRule} {target : RuleTarget}
    {upgradeOf upgrades : List String} {active : List ActiveTarget}
    (h : validateSetConflict candidate target upgradeOf active = (none, upgrades)) :
    (∀ id ∈ upgradeOf, id ∈ upgrades) ∧ ∀ entry ∈ active, sameDevice entry.target target = true →
      (entry.rule.action = .block → candidate.action ≠ .rateLimit) ∧
      (entry.rule.action = .rateLimit → candidate.action = .block → entry.rule.id ∈ upgrades) := by
  induction active generalizing upgradeOf with
  | nil =>
    obtain ⟨_, rfl⟩ := Prod.mk.inj h
    exact ⟨fun _ hid => hid, by simp⟩
  | cons entry rest ih =>
    unfold validateSetConflict at h
    rw [List.forall_mem_cons]
    split at h
    · rename_i hskip
      refine ⟨(ih h).1, ?_, (ih h).2⟩
      intro hsame
      rcases hskip with hdiffer | haction
      · exact absurd hsame (by simp [hdiffer])
      · refine ⟨fun hblock hrate => ?_, fun hrate hblock => ?_⟩
        · exact absurd ((hblock.symm.trans haction).trans hrate) (by simp)
        · exact absurd ((hrate.symm.trans haction).trans hblock) (by simp)
    · split at h
      · exact absurd (Prod.mk.inj h).1 (by simp)
      · rename_i hnoConflict
        have hblock : entry.rule.action = .block → candidate.action ≠ .rateLimit :=
          fun hentry hcandidate => hnoConflict ⟨hentry, hcandidate⟩
        split at h
        · refine ⟨fun id hid => (ih h).1 id (List.mem_append_left _ hid), ?_, (ih h).2⟩
          exact fun _ => ⟨hblock, fun _ _ => (ih h).1 _ (by simp)⟩
        · rename_i hno
          exact ⟨(ih h).1, fun _ => ⟨hblock, fun hrate hcandidate => absurd ⟨hrate, hcandidate⟩ hno⟩,
            (ih h).2⟩

namespace FirewallManager

variable {m m' : FirewallManager}

/-! ## The mode -/

/-- The mode stays as configured, or becomes SHADOW. -/
theorem step_mode (hkeyed : Keyed m) (call : Env × ManagerOp) :
    (m.step call).enforcementMode = m.enforcementMode ∨ (m.step call).enforcementMode = .shadow := by
  obtain ⟨env, op⟩ := call
  by_cases hk : isHousekeeping op = true
  · exact .inl (m.step_housekeeping env op hk).enforcementMode
  -- the kill switch, on either path, goes to SHADOW whatever the mode was
  have hrevert : (m.revertToBase env.now).2.enforcementMode = .shadow := by
    cases hsets : m.sets with
    | some b => exact (revertToBase_demoted hsets hkeyed env.now).enforcementMode
    | none =>
      unfold revertToBase
      rw [hsets]
      exact (revertBackend_demoted hkeyed env.now).enforcementMode
  -- retiring and deploying do not look at the mode
  have hretire : ∀ (m : FirewallManager) ruleId toStatus reason,
      (m.retireRule ruleId toStatus env.now reason).2.enforcementMode = m.enforcementMode := by
    intro m ruleId toStatus reason
    rcases m.retireRule_cases ruleId toStatus env.now reason with heq | ⟨rule, _, _, heq⟩
    · rw [heq]
    · rw [heq, (m.withdraw_frame ruleId rule env.now).1]
      rfl
  have hdeploy : ∀ (m : FirewallManager) rule, (m.deploy rule env.now).2.enforcementMode = m.enforcementMode := by
    intro m rule
    obtain ⟨backend, transitions, rule', _, _, heq⟩ := m.deploy_cases rule env.now
    rw [heq]
  cases op with
  | submitCandidate candidate =>
    refine .inl ?_
    simp only [step, submitCandidate]
    split
    · rename_i sets hsets
      rcases m.submitToSets_cases env sets candidate with
        ⟨_, heq⟩ | ⟨target, upgradeOf, base, _, _, _, ⟨_, _, _, _, heq⟩ | ⟨_, rateLimiter, transitions, heq⟩⟩
      · rw [heq]
      · rw [heq]
      · rw [heq, (deployToSets_frame _ sets base env.now upgradeOf (by simp [hsets])).2.1]
    · rcases m.submitToBackend_cases env candidate with
        ⟨_, heq⟩ | ⟨priority, rateLimiter, _, ⟨status, _, _, heq⟩ | ⟨_, transitions, heq⟩⟩
      · rw [heq]
      · rw [heq]
      · rw [heq, hdeploy]
  | approvePending ruleId =>
    refine .inl ?_
    rcases m.approvePending_cases ruleId env.now with
      heq | ⟨rule, _, _, ⟨sets, transitions, hsets, heq⟩ | ⟨_, transitions, heq⟩⟩
    · simp only [step, heq]
    · simp only [step, heq]
      rw [(deployToSets_frame _ sets _ env.now _ (by simp [hsets])).2.1]
    · simp only [step, heq]
      rw [hdeploy]
  | rejectPending ruleId =>
    refine .inl ?_
    simp only [step, rejectPending]
    split
    · rfl
    · split <;> rfl
  | disableRule ruleId => exact .inl (hretire m ruleId _ _)
  | removeRule ruleId => exact .inl (hretire m ruleId _ _)
  | expireRules =>
    exact .inl (expireRules_induction (I := fun m' => m'.enforcementMode = m.enforcementMode) m env.now
      (fun m' ruleId h => (hretire m' ruleId _ _).trans h) rfl)
  | revertToBase => exact .inr hrevert
  -- with sets the mode is kept; without, it is a kill switch
  | failOpenShutdown =>
    cases hsets : m.sets with
    | some b => exact .inl (failOpenShutdown_demoted hsets hkeyed env.now).enforcementMode
    | none =>
      simp only [step, failOpenShutdown, hsets]
      exact .inr hrevert
  | panic actor =>
    cases hsets : m.sets with
    | some b =>
      rcases panic_demoted hsets hkeyed actor env.now with ⟨_, _, heq⟩ | hdemoted
      · refine .inl ?_
        simp only [step, heq]
      · exact .inr hdemoted.enforcementMode
    | none =>
      refine .inl ?_
      simp only [step, panic, hsets]
  | reconcile =>
    refine .inl ?_
    cases hsets : m.sets with
    | none => simp only [step, reconcile, hsets]
    | some b =>
      rcases reconcile_cases hsets env.now with heq | ⟨b', e, _, heq⟩ | ⟨b', live, report, _, heq⟩
      · simp only [step, heq]
      · simp only [step, heq]
      · simp only [step, heq]
        -- neither loop of reconcile changes it: the first demotes, the second files
        refine adoptUnknown_induction (I := fun m' => m'.enforcementMode = m.enforcementMode) _ ?_ _ report
          (retireMissing_demoted (m := { m with sets := some b' }) hkeyed _ _).enforcementMode
        intro m' setName key expiresIn _ _ _ hm'
        rcases m'.adopt_cases setName key expiresIn env.now with heq | ⟨_, _, _, _, _, _, heq⟩
        · rw [heq]
          exact hm'
        · rw [heq]
          exact hm'
  | _ => exact absurd rfl hk

/-! ## Restrictions -/

/-- The rule under `id` is an ACTIVE BLOCK or RATE_LIMIT against `target`. -/
def Restricts (m : FirewallManager) (id : String) (target : RuleTarget) : Prop :=
  ∃ rule, m.rules.get? id = some rule ∧ rule.status = .active ∧ rule.action.restrictive = true ∧
    m.targets.get? id = some target

/-- No two ACTIVE restrictions are of one device. -/
def OnePerDevice (m : FirewallManager) : Prop :=
  ∀ id id' target target', m.Restricts id target → m.Restricts id' target' →
    sameDevice target target' = true → id = id'

/-- Nothing is held for review. -/
def NonePending (m : FirewallManager) : Prop :=
  ∀ id rule, m.rules.get? id = some rule → rule.status ≠ .pendingApproval

theorem OnePerDevice.of_restricts (h : OnePerDevice m)
    (hsub : ∀ id target, m'.Restricts id target → m.Restricts id target) : OnePerDevice m' :=
  fun id id' target target' hid hid' => h id id' target target' (hsub id target hid) (hsub id' target' hid')

/-- One more restriction, on a device that has no other. -/
theorem OnePerDevice.insert (h : OnePerDevice m) (new : String) (target : RuleTarget)
    (hsub : ∀ id other, m'.Restricts id other → (id ≠ new ∧ m.Restricts id other) ∨ (id = new ∧ other = target))
    (hapart : m'.Restricts new target → ∀ id other, id ≠ new → m'.Restricts id other →
      sameDevice other target = false) :
    OnePerDevice m' := by
  intro id id' t t' hid hid' hsame
  rcases hsub id t hid with ⟨hne, hold⟩ | ⟨rfl, rfl⟩
  · rcases hsub id' t' hid' with ⟨_, hold'⟩ | ⟨rfl, rfl⟩
    · exact h id id' t t' hold hold' hsame
    · exact absurd hsame (by simp [hapart hid' id t hne hid])
  · rcases hsub id' t' hid' with ⟨hne', hold'⟩ | ⟨rfl, rfl⟩
    · rw [sameDevice_comm] at hsame
      exact absurd hsame (by simp [hapart hid id' t' hne' hid'])
    · rfl

theorem Retires.restricts (h : Retires m m') {id : String} {target : RuleTarget}
    (hid : m'.Restricts id target) : m.Restricts id target := by
  obtain ⟨rule', hget, hactive, hrestrictive, htarget⟩ := hid
  obtain ⟨rule, hrule, rfl | ⟨status, hne, _, rfl⟩⟩ := h.rules id rule' hget
  · exact ⟨rule', hrule, hactive, hrestrictive, h.targets ▸ htarget⟩
  · exact absurd hactive hne

theorem Retires.nonePending (h : Retires m m') (hnone : NonePending m) : NonePending m' := by
  intro id rule' hget hpending
  obtain ⟨rule, hrule, rfl | ⟨status, _, hne, rfl⟩⟩ := h.rules id rule' hget
  · exact hnone id rule' hrule hpending
  · exact hne hpending

/-- Filing a rule that restricts nothing, with its target. -/
theorem OnePerDevice.file (h : OnePerDevice m) (rule : FirewallRule) (target : RuleTarget)
    (hrules : m'.rules = m.rules.set rule.id rule) (htargets : m'.targets = m.targets.set rule.id target)
    (hstatus : rule.status ≠ .active) : OnePerDevice m' := by
  refine h.of_restricts ?_
  rintro id other ⟨rule', hget, hactive, hrestrictive, htarget⟩
  rw [hrules, Dict.get?_set] at hget
  rw [htargets, Dict.get?_set] at htarget
  split at hget
  · obtain rfl := Option.some.inj hget
    exact absurd hactive hstatus
  · rename_i hne
    rw [if_neg hne] at htarget
    exact ⟨rule', hget, hactive, hrestrictive, htarget⟩

theorem NonePending.set (h : NonePending m) (rule : FirewallRule)
    (hrules : m'.rules = m.rules.set rule.id rule) (hstatus : rule.status ≠ .pendingApproval) :
    NonePending m' := by
  intro id rule' hget
  rw [hrules, Dict.get?_set] at hget
  split at hget
  · obtain rfl := Option.some.inj hget
    exact hstatus
  · exact h id rule' hget

/-! ## Submission -/

/-- A BLOCK the chain admits finds at most one ACTIVE RATE_LIMIT on its device. -/
def UpgradesOne (m : FirewallManager) (env : Env) (candidate : CandidateRule) : Prop :=
  candidate.action = .block → (m.verdict env candidate).1.isOk = true →
    ∀ target, m.targetFor env candidate.toRuleFields = some target →
      ∀ entry ∈ m.activeTargets, ∀ entry' ∈ m.activeTargets,
        entry.rule.action = .rateLimit → sameDevice entry.target target = true →
        entry'.rule.action = .rateLimit → sameDevice entry'.target target = true →
        entry.rule.id = entry'.rule.id

/-- A restriction the chain admits: every other one on its device is the RATE_LIMIT it supersedes. -/
theorem admitted_apart {env : Env} {candidate : CandidateRule} {upgradeOf : Option String}
    (hverdict : (m.verdict env candidate).1 = .ok upgradeOf) {target : RuleTarget}
    (htarget : m.targetFor env candidate.toRuleFields = some target)
    (hrestrictive : candidate.action.restrictive = true) (hupgrades : UpgradesOne m env candidate)
    (entry : ActiveTarget) (hentry : entry ∈ m.activeTargets) (haction : entry.rule.action.restrictive = true)
    (hsame : sameDevice entry.target target = true) : upgradeOf = some entry.rule.id := by
  obtain ⟨⟨target', htarget', hadmitted⟩, _⟩ := verdict_ok hverdict
  obtain rfl := Option.some.inj (htarget'.symm.trans htarget)
  obtain ⟨upgrades, hconflict, rfl⟩ := verdict_upgrade hverdict htarget
  have hdistinct := hadmitted.distinct entry hentry hsame
  obtain ⟨hnoBlock, hlisted⟩ := (validateSetConflict_passed hconflict).2 entry hentry hsame
  -- of the two restrictive actions the candidate has the other one, and it is the stronger
  have hactions : candidate.action = .block ∧ entry.rule.action = .rateLimit := by
    cases hcandidate : candidate.action <;> cases hrule : entry.rule.action <;>
      simp_all [FirewallAction.restrictive]
  have hmem := hlisted hactions.2 hactions.1
  cases upgrades with
  | nil => exact absurd hmem List.not_mem_nil
  | cons first rest =>
    rcases validateSetConflict_upgrades hconflict first List.mem_cons_self with
      hnil | ⟨_, other, hother, rfl, hrate, hdevice⟩
    · exact absurd hnil List.not_mem_nil
    · exact congrArg some (hupgrades hactions.1 (by rw [hverdict]; rfl) target' htarget other hother entry
        hentry hrate hdevice hactions.2 hsame)

/-- What a deployment leaves in force: the new rule, and what was in force but for the one it supersedes. -/
theorem SetDeployment.restricts {b b' : FakeSetBackend} {rule : FirewallRule} {now : Time}
    {upgradeOf : Option String} {target : RuleTarget} {additions : List SetOp} {metadata : Metadata}
    (h : SetDeployment m b rule now upgradeOf m' target additions metadata b') {id : String}
    {other : RuleTarget} (hid : m'.Restricts id other) :
    (id ≠ rule.id ∧ m.Restricts id other ∧ (m.replacedBy upgradeOf).map FirewallRule.id ≠ some id) ∨
      (id = rule.id ∧ other = target ∧ rule.action.restrictive = true) := by
  obtain ⟨transitions, rfl⟩ := h.result
  obtain ⟨rule', hget, hactive, hrestrictive, htarget⟩ := hid
  have htarget : m.targets.get? id = some other := htarget
  rw [get?_deployedRules] at hget
  split at hget
  · rename_i hsame
    obtain rfl := Option.some.inj hget
    obtain rfl : id = rule.id := hsame
    exact .inr ⟨rfl, Option.some.inj (htarget.symm.trans h.filed), hrestrictive⟩
  · rename_i hne
    split at hget
    · obtain ⟨old, _, rfl⟩ := Option.map_eq_some_iff.mp hget
      exact absurd hactive (by simp [demote])
    · rename_i hkept
      exact .inl ⟨hne, ⟨rule', hget, hactive, hrestrictive, htarget⟩, hkept⟩

/-- Filing the candidate's target moves no other restriction. -/
theorem restricts_of_admitted {env : Env} {candidate : CandidateRule} {target other : RuleTarget} {id : String}
    (hne : id ≠ candidate.id) (hid : (m.admitted env candidate target).Restricts id other) :
    m.Restricts id other := by
  obtain ⟨rule, hget, hactive, hrestrictive, hother⟩ := hid
  refine ⟨rule, hget, hactive, hrestrictive, ?_⟩
  have hother : (m.targets.set candidate.id target).get? id = some other := hother
  rw [Dict.get?_set, if_neg hne] at hother
  exact hother

/-- An admitted candidate that went into force. -/
theorem OnePerDevice.deployed (h : OnePerDevice m) (hkeyed : Keyed m) {env : Env} {candidate : CandidateRule}
    {upgradeOf : Option String} (hverdict : (m.verdict env candidate).1 = .ok upgradeOf) {target : RuleTarget}
    (htarget : m.targetFor env candidate.toRuleFields = some target) (hupgrades : UpgradesOne m env candidate)
    {b b' : FakeSetBackend} {rule : FirewallRule} (hid : rule.id = candidate.id)
    (haction : rule.action = candidate.action) {additions : List SetOp} {metadata : Metadata}
    (hdeploy : SetDeployment (m.admitted env candidate target) b rule env.now upgradeOf m' target additions
      metadata b') : OnePerDevice m' := by
  refine h.insert rule.id target ?_ ?_
  · intro id other hother
    rcases hdeploy.restricts hother with ⟨hne, hold, _⟩ | ⟨rfl, rfl, _⟩
    · exact .inl ⟨hne, restricts_of_admitted (hid ▸ hne) hold⟩
    · exact .inr ⟨rfl, rfl⟩
  · intro hnew id other hne hother
    obtain ⟨_, hold, hkept⟩ := (hdeploy.restricts hother).resolve_right fun hsame => hne hsame.1
    obtain ⟨_, _, hrestricts⟩ := (hdeploy.restricts hnew).resolve_left fun hself => hself.1 rfl
    by_contra hsame
    obtain ⟨rule', hget, hactive, hrestrictive, htarget'⟩ := restricts_of_admitted (hid ▸ hne) hold
    obtain rfl := hkeyed id rule' hget
    -- it would be the rule the BLOCK supersedes, which is not in force any more
    have hup := admitted_apart hverdict htarget (haction ▸ hrestricts) hupgrades
      ⟨rule', other⟩ ((mem_activeTargets hkeyed).mpr ⟨hget, hactive, htarget'⟩) hrestrictive
      (by simpa using hsame)
    refine hkept ?_
    show ((upgradeOf.bind m.rules.get?).filter fun old => old.status == .active).map FirewallRule.id =
      some rule'.id
    rw [hup, Option.bind_some, hget, Option.filter_some, if_pos (by simp [hactive])]
    rfl

/-- A submission in ACTIVE mode. -/
theorem OnePerDevice.submitToSets (h : OnePerDevice m) (hkeyed : Keyed m) (hmode : m.enforcementMode = .active)
    (b : FakeSetBackend) {env : Env} {candidate : CandidateRule} (hupgrades : UpgradesOne m env candidate) :
    OnePerDevice (m.submitToSets env b candidate).2 := by
  cases hverdict : (m.verdict env candidate).1 with
  | error r =>
    rw [submitToSets_error b hverdict]
    exact h
  | ok upgradeOf =>
    obtain ⟨⟨target, htarget, hadmitted⟩, _⟩ := verdict_ok hverdict
    obtain ⟨expiresAt, hexpiry, _⟩ := hadmitted.expiry
    rw [submitToSets_ok hmode b hverdict htarget]
    generalize hrule : candidate.toRule (assignPriority candidate.threatScore) (some target) _ = rule
    have hid : rule.id = candidate.id := hrule ▸ rfl
    have hfiled : (m.admitted env candidate target).targets.get? rule.id = some target := by
      rw [hid]
      exact (Dict.get?_set _ _ _ _).trans (if_pos rfl)
    have hexpires : rule.expiresAt = some expiresAt := hrule ▸ hexpiry
    rcases (m.admitted env candidate target).deployToSets_filed b rule env.now upgradeOf hfiled hexpires with
      ⟨faults, transitions, _, heq⟩ | ⟨additions, metadata, b', hdeploy⟩
    · rw [heq]
      refine h.file { rule with status := .rejected } target rfl ?_ (by simp)
      show m.targets.set candidate.id target = m.targets.set rule.id target
      rw [hid]
    · exact h.deployed hkeyed hverdict htarget hupgrades hid (hrule ▸ rfl) hdeploy

/-- In SHADOW mode a submission files nothing in force. -/
theorem OnePerDevice.shadowed (h : OnePerDevice m) (hmode : m.enforcementMode = .shadow) (env : Env)
    (b : FakeSetBackend) (candidate : CandidateRule) : OnePerDevice (m.submitToSets env b candidate).2 := by
  rcases m.submitToSets_cases env b candidate with
    ⟨_, heq⟩ | ⟨target, upgradeOf, rule, _, _, ⟨priority, hsource, rfl⟩, hcases⟩
  · rw [heq]
    exact h
  · rcases hcases with ⟨status, _, _, hkept, heq⟩ | ⟨hnot, _⟩
    · rw [heq]
      exact h.file { candidate.toRule priority (some target) hsource with status := status } target rfl rfl
        hkept.ne_active
    · exact absurd hmode hnot

theorem NonePending.submitToSets (h : NonePending m) (hmode : m.enforcementMode ≠ .assisted) (env : Env)
    (b : FakeSetBackend) (candidate : CandidateRule) : NonePending (m.submitToSets env b candidate).2 := by
  rcases m.submitToSets_cases env b candidate with
    ⟨_, heq⟩ | ⟨target, upgradeOf, rule, _, _, ⟨priority, hsource, rfl⟩, hcases⟩
  · rw [heq]
    exact h
  · rcases hcases with ⟨status, _, _, hkept, heq⟩ | ⟨_, rateLimiter, transitions, heq⟩
    · rw [heq]
      refine h.set { candidate.toRule priority (some target) hsource with status := status } rfl ?_
      rcases hkept with ⟨rfl, _⟩ | ⟨_, hassisted, _⟩
      · simp
      · exact absurd hassisted hmode
    · rw [heq]
      rcases deployToSets_cases _ b (candidate.toRule priority (some target) hsource) env.now upgradeOf with
        heq | ⟨faults, transitions, _, heq⟩ | ⟨target', additions, metadata, b', hdeploy⟩
      · rw [heq]
        exact h
      · rw [heq]
        exact h.set { candidate.toRule priority (some target) hsource with status := .rejected } rfl
          (by simp)
      · obtain ⟨transitions', hresult⟩ := hdeploy.result
        rw [hresult]
        intro id rule' hget
        rw [get?_deployedRules] at hget
        split at hget
        · obtain rfl := Option.some.inj hget
          simp [FirewallRule.activated]
        · split at hget
          · obtain ⟨old, _, rfl⟩ := Option.map_eq_some_iff.mp hget
            simp [demote]
          · exact h id rule' hget

/-! ## Reconcile -/

/-- The kernel still holds the element at `now`. -/
def LiveAt (b : FakeSetBackend) (now : Time) (location : String × ElementKey) : Prop :=
  ∃ e, b.expiry? (adaptiveSet location.1) location.2 = some e ∧ isLive now e = true

/-- A live IP-keyed element no ACTIVE rule records. `reconcile` adopts it for the device at `ip`. -/
structure Orphan (m : FirewallManager) (b : FakeSetBackend) (now : Time) (setName key : String)
    (ip : IPv4Address) : Prop where
  keyed : setName ∈ ipKeyedSets
  address : IPv4Address.ofString? key = some ip
  live : LiveAt b now (setName, .one key)
  unknown : (setName, ElementKey.one key) ∉ m.activeRules.filterMap elementOf

/-- What `reconcile` would adopt is of a device without an ACTIVE restriction that `reconcile` keeps, and
there is one such element for the device. -/
def AdoptsApart (m : FirewallManager) (now : Time) : Prop :=
  ∀ b, m.sets = some b → ∀ setName key ip, Orphan m b now setName key ip →
    (∀ entry ∈ m.activeTargets, entry.rule.action.restrictive = true →
      (∀ location, elementOf entry.rule = some location → LiveAt b now location) → entry.target.ip ≠ ip) ∧
    ∀ setName' key', Orphan m b now setName' key' ip → setName' = setName ∧ key' = key

theorem adopt_restricts {setName key : String} {expiresIn : Option Int} {now : Time} {id : String}
    {target : RuleTarget} (h : (m.adopt setName key expiresIn now).2.Restricts id target) :
    m.Restricts id target ∨
      ∃ ip, IPv4Address.ofString? key = some ip ∧ id = reconciledId setName key ∧ target = ⟨ip, none⟩ := by
  unfold adopt at h
  split at h
  · exact .inl h
  · rename_i ip hip
    obtain ⟨rule, hget, hactive, hrestrictive, htarget⟩ := h
    have hget : (m.rules.set (reconciledId setName key) _).get? id = some rule := hget
    have htarget : (m.targets.set (reconciledId setName key) ⟨ip, none⟩).get? id = some target := htarget
    rw [Dict.get?_set] at hget htarget
    by_cases hid : id = reconciledId setName key
    · rw [if_pos hid] at htarget
      exact .inr ⟨ip, hip, hid, (Option.some.inj htarget).symm⟩
    · rw [if_neg hid] at hget htarget
      exact .inl ⟨rule, hget, hactive, hrestrictive, htarget⟩

/-- What is still in force after the first loop was in force before, and its element is in the kernel. -/
theorem retireMissing_restricts (hkeyed : Keyed m) {live : List (String × ElementKey)} {now : Time}
    {id : String} {target : RuleTarget} (h : (m.retireMissing live now).2.Restricts id target) :
    ∃ entry ∈ m.activeTargets, entry.rule.id = id ∧ entry.target = target ∧
      entry.rule.action.restrictive = true ∧ ∀ location, elementOf entry.rule = some location → location ∈ live := by
  have hdemoted := retireMissing_demoted hkeyed live now
  obtain ⟨rule', hget, hactive, hrestrictive, htarget⟩ := h
  rw [hdemoted.rules] at hget
  rw [hdemoted.targets] at htarget
  obtain ⟨rule, hrule, heq⟩ := Option.map_eq_some_iff.mp hget
  split at heq
  · exact absurd hactive (by rw [← heq]; simp [demote])
  · rename_i hkept
    obtain rfl := heq
    obtain rfl := hkeyed id rule hrule
    refine ⟨⟨rule, target⟩, (mem_activeTargets hkeyed).mpr ⟨hrule, hactive, htarget⟩, rfl, rfl, hrestrictive, ?_⟩
    intro location hlocation
    by_contra hgone
    refine hkept ?_
    rw [hlocation, hactive]
    simp [hgone]

theorem OnePerDevice.reconcile (h : OnePerDevice m) (hkeyed : Keyed m) {b : FakeSetBackend}
    (hsets : m.sets = some b) {now : Time} (hadopts : AdoptsApart m now) :
    OnePerDevice (m.reconcile now).2 := by
  rcases reconcile_cases hsets now with heq | ⟨b', e, _, heq⟩ | ⟨b', live, report, hlisted, heq⟩
  · rw [heq]
    exact h
  · rw [heq]
    exact h
  · rw [heq]
    let m₁ := ({ m with sets := some b' }.retireMissing (live.map Prod.fst) now).2
    -- every restriction was kept by the first loop or adopted by the second
    have hfrom : ∀ id target, (m₁.adoptUnknown (m.knownElements (live.map Prod.fst)) now report
        (sortedLive live)).2.Restricts id target → m₁.Restricts id target ∨
          ∃ setName key ip, Orphan m b now setName key ip ∧ id = reconciledId setName key ∧
            target = ⟨ip, none⟩ := by
      refine adoptUnknown_induction (I := fun m' => ∀ id target, m'.Restricts id target →
        m₁.Restricts id target ∨ ∃ setName key ip, Orphan m b now setName key ip ∧
          id = reconciledId setName key ∧ target = ⟨ip, none⟩) _ ?_ _ report fun _ _ hid => .inl hid
      intro m' setName key expiresIn hmem hunknown hset hm' id target hid
      rcases adopt_restricts hid with hold | ⟨ip, hip, hid, htarget⟩
      · exact hm' id target hold
      · have hlive := mem_sortedLive.mp hmem
        refine .inr ⟨setName, key, ip, ⟨hset, hip, (hlisted.sound live rfl _ hlive).2, ?_⟩, hid, htarget⟩
        exact fun hrecorded => hunknown (List.mem_filter.mpr ⟨hrecorded, by simpa using hlive⟩)
    have hkept : ∀ id target, m₁.Restricts id target → ∃ entry ∈ m.activeTargets, entry.rule.id = id ∧
        entry.target = target ∧ entry.rule.action.restrictive = true ∧
        ∀ location, elementOf entry.rule = some location → LiveAt b now location := by
      intro id target hid
      obtain ⟨entry, hentry, hrest, htarget, hrestrictive, hlive⟩ :=
        retireMissing_restricts (m := { m with sets := some b' }) hkeyed hid
      exact ⟨entry, hentry, hrest, htarget, hrestrictive, fun location hlocation =>
        (hlisted.sound live rfl _ (hlive location hlocation)).2⟩
    have hapart : ∀ id target, m₁.Restricts id target → ∀ setName key ip, Orphan m b now setName key ip →
        sameDevice target ⟨ip, none⟩ ≠ true := by
      intro id target hid setName key ip horphan hsame
      obtain ⟨entry, hentry, _, rfl, hrestrictive, hlive⟩ := hkept id target hid
      exact (hadopts b hsets setName key ip horphan).1 entry hentry hrestrictive hlive
        (sameDevice_address hsame)
    intro id id' target target' hid hid' hsame
    rcases hfrom id target hid with hold | ⟨setName, key, ip, horphan, rfl, rfl⟩
    · rcases hfrom id' target' hid' with hold' | ⟨setName', key', ip', horphan', rfl, rfl⟩
      · obtain ⟨entry, hentry, rfl, rfl, hrestrictive, _⟩ := hkept id target hold
        obtain ⟨entry', hentry', rfl, rfl, hrestrictive', _⟩ := hkept id' target' hold'
        rw [mem_activeTargets hkeyed] at hentry hentry'
        exact h _ _ _ _ ⟨entry.rule, hentry.1, hentry.2.1, hrestrictive, hentry.2.2⟩
          ⟨entry'.rule, hentry'.1, hentry'.2.1, hrestrictive', hentry'.2.2⟩ hsame
      · exact absurd hsame (hapart id target hold setName' key' ip' horphan')
    · rcases hfrom id' target' hid' with hold' | ⟨setName', key', ip', horphan', rfl, rfl⟩
      · rw [sameDevice_comm] at hsame
        exact absurd hsame (hapart id' target' hold' setName key ip horphan)
      · obtain rfl : ip = ip' := sameDevice_address hsame
        obtain ⟨rfl, rfl⟩ := (hadopts b hsets setName key ip horphan).2 setName' key' horphan'
        rfl

theorem NonePending.reconcile (h : NonePending m) (hkeyed : Keyed m) {b : FakeSetBackend}
    (hsets : m.sets = some b) (now : Time) : NonePending (m.reconcile now).2 := by
  rcases reconcile_cases hsets now with heq | ⟨b', e, _, heq⟩ | ⟨b', live, report, _, heq⟩
  · rw [heq]
    exact h
  · rw [heq]
    exact h
  · rw [heq]
    refine adoptUnknown_induction (I := NonePending) _ ?_ _ report ?_
    · intro m' setName key expiresIn _ _ _ hm'
      rcases m'.adopt_cases setName key expiresIn now with heq | ⟨rule, ip, transitions, _, hactive, _, heq⟩
      · rw [heq]
        exact hm'
      · rw [heq]
        exact hm'.set rule rfl (by simp [hactive])
    · have hdemoted := retireMissing_demoted (m := { m with sets := some b' }) hkeyed (live.map Prod.fst) now
      have hretires : Retires m _ := hdemoted.retiresFrom (.of_eq rfl rfl rfl)
      exact hretires.nonePending h

/-! ## Runs -/

/-- What a call must not find: a BLOCK two RATE_LIMIT rules on its device, or `reconcile` an element to adopt
on a device that has a restriction already. -/
def KeepsApart (m : FirewallManager) (call : Env × ManagerOp) : Prop :=
  match call.2 with
  | .submitCandidate candidate => UpgradesOne m call.1 candidate
  | .reconcile => AdoptsApart m call.1.now
  | _ => True

/-- The invariant of a run that started in ACTIVE mode on the set path. -/
structure Settled (m : FirewallManager) : Prop where
  keyed : Keyed m
  path : ∃ b, m.sets = some b
  mode : m.enforcementMode ≠ .assisted
  nonePending : NonePending m
  onePerDevice : OnePerDevice m

theorem Settled.step (h : Settled m) (call : Env × ManagerOp) (hcall : KeepsApart m call) :
    Settled (m.step call) := by
  obtain ⟨b, hsets⟩ := h.path
  have hmode : (m.step call).enforcementMode ≠ .assisted := by
    rcases step_mode h.keyed call with heq | heq
    · rw [heq]
      exact h.mode
    · simp [heq]
  obtain ⟨hnone, hone⟩ : NonePending (m.step call) ∧ OnePerDevice (m.step call) := by
    obtain ⟨env, op⟩ := call
    by_cases hother : (∀ candidate, op ≠ .submitCandidate candidate) ∧
        (∀ ruleId, op ≠ .approvePending ruleId) ∧ op ≠ .reconcile
    · have hretires := step_retires h.keyed env op hother.1 hother.2.1 hother.2.2
      exact ⟨hretires.nonePending h.nonePending, h.onePerDevice.of_restricts fun _ _ => hretires.restricts⟩
    cases op with
    | submitCandidate candidate =>
      simp only [FirewallManager.step, submitCandidate, hsets]
      refine ⟨h.nonePending.submitToSets h.mode env b candidate, ?_⟩
      cases hm : m.enforcementMode with
      | assisted => exact absurd hm h.mode
      | shadow => exact h.onePerDevice.shadowed hm env b candidate
      | active => exact h.onePerDevice.submitToSets h.keyed hm b hcall
    | approvePending ruleId =>
      have hsame : m.step (env, .approvePending ruleId) = m := by
        rcases m.approvePending_cases ruleId env.now with heq | ⟨rule, hrule, hpending, _⟩
        · exact heq
        · exact absurd hpending (h.nonePending ruleId rule hrule)
      rw [hsame]
      exact ⟨h.nonePending, h.onePerDevice⟩
    | reconcile => exact ⟨h.nonePending.reconcile h.keyed hsets env.now, h.onePerDevice.reconcile h.keyed hsets hcall⟩
    | _ => exact absurd ⟨by simp, by simp, by simp⟩ hother
  exact ⟨step_keyed h.keyed call, step_sets h.keyed hsets call, hmode, hnone, hone⟩

theorem settled_init (config : PirewallConfig) (backend : FakeFirewallBackend) (store : Option AllowlistStore)
    (sets : FakeSetBackend) (hmode : config.firewall.enforcementMode = .active) :
    Settled (init config backend store (some sets)) where
  keyed := keyed_init config backend store (some sets)
  path := ⟨sets, rfl⟩
  mode := by
    show config.firewall.enforcementMode ≠ .assisted
    simp [hmode]
  nonePending := fun _ _ hget => absurd hget (by simp [init])
  onePerDevice := fun _ _ _ _ hid => absurd hid.choose_spec.1 (by simp [init])

/-- **At most one restriction per device.** A run in ACTIVE mode on the set path in which no BLOCK finds two
RATE_LIMIT rules on its device, and `reconcile` adopts nothing on a restricted one, passes only through states
in which no two ACTIVE restrictions are of one device. -/
theorem at_most_one_restriction_per_device (config : PirewallConfig) (backend : FakeFirewallBackend)
    (store : Option AllowlistStore) (sets : FakeSetBackend)
    (hmode : config.firewall.enforcementMode = .active) (calls : List (Env × ManagerOp))
    (hcalls : Along step KeepsApart (init config backend store (some sets)) calls) :
    ∀ reached later, calls = reached ++ later →
      OnePerDevice ((init config backend store (some sets)).run reached) := by
  rintro reached later rfl
  exact (Along.invariant (fun _ call h hcall => h.step call hcall) (Along.append_iff.mp hcalls).1
    (settled_init config backend store sets hmode)).onePerDevice

/-- A device is rate-limited and blocked on new evidence a second later. -/
def limitedThenBlocked : List (Env × ManagerOp) :=
  [siteDecision,
   (siteEnv 0, .submitCandidate (siteCandidate "limit" .rateLimit 9 (seconds 60))),
   (siteEnv (seconds 1), .submitCandidate (siteCandidate "block" .block 9 (seconds 60)))]

theorem at_most_one_restriction_per_device_limitedThenBlocked :
    OnePerDevice ((siteManager .active (some siteKernel)).run limitedThenBlocked) := by
  refine at_most_one_restriction_per_device (siteConfig .active) siteBackend none siteKernel rfl
    limitedThenBlocked ⟨trivial, ?_, ?_, trivial⟩ _ [] (List.append_nil _).symm
  · exact fun hblock => absurd hblock (by decide)
  · intro _ _ target _ entry hentry entry' hentry' _ _ _ _
    have honly : (((siteManager .active (some siteKernel)).run
        (limitedThenBlocked.take 2)).activeTargets.map fun entry => entry.rule.id) = ["limit"] := by
      decide +kernel
    have hid : ∀ entry ∈ ((siteManager .active (some siteKernel)).run
        (limitedThenBlocked.take 2)).activeTargets, entry.rule.id = "limit" := by
      intro entry hentry
      exact List.mem_singleton.mp (honly ▸ List.mem_map_of_mem hentry)
    exact (hid entry hentry).trans (hid entry' hentry').symm

/-- A device's MAC. -/
def roaming : Mac := ⟨"02:00:00:00:00:08", by decide⟩

/-- The site's environment when the lease of `10.0.0.<device>` is the roaming device's. -/
def leasedTo (device : Nat) (now : Time) : Env :=
  { siteEnv now with
    resolveMac := fun ip => if ip = IPv4Address.ofOctets 10 0 0 device then some roaming else none }

/-- `10.0.0.9` is limited while no lease is known for it, and the roaming device at `10.0.0.8`. The device
then takes the lease of `10.0.0.9` and is blocked there. -/
def blockedAfterMove : List (Env × ManagerOp) :=
  [siteDecision,
   (siteEnv 0, .submitCandidate (siteCandidate "limit nine" .rateLimit 9 (seconds 60))),
   (leasedTo 8 (seconds 1), .submitCandidate (siteCandidate "limit eight" .rateLimit 8 (seconds 60))),
   (leasedTo 9 (seconds 2), .submitCandidate (siteCandidate "block" .block 9 (seconds 60)))]

/-- Both RATE_LIMIT rules are of the blocked device, and the BLOCK supersedes one of them. -/
theorem blocked_device_still_limited :
    ¬ OnePerDevice ((siteManager .active (some siteKernel)).run blockedAfterMove) := by
  intro h
  have hlimit : (((siteManager .active (some siteKernel)).run blockedAfterMove).rules.get? "limit eight").map
      (fun rule => (rule.status, rule.action)) = some (.active, .rateLimit) := by decide +kernel
  have hblock : (((siteManager .active (some siteKernel)).run blockedAfterMove).rules.get? "block").map
      (fun rule => (rule.status, rule.action)) = some (.active, .block) := by decide +kernel
  obtain ⟨limit, hgetLimit, hlimitFields⟩ := Option.map_eq_some_iff.mp hlimit
  obtain ⟨block, hgetBlock, hblockFields⟩ := Option.map_eq_some_iff.mp hblock
  obtain ⟨hlimitActive, hlimitAction⟩ := Prod.mk.inj hlimitFields
  obtain ⟨hblockActive, hblockAction⟩ := Prod.mk.inj hblockFields
  have hsame := h "limit eight" "block" ⟨IPv4Address.ofOctets 10 0 0 8, some roaming⟩
    ⟨IPv4Address.ofOctets 10 0 0 9, some roaming⟩
    ⟨limit, hgetLimit, hlimitActive, by rw [hlimitAction]; rfl, by decide +kernel⟩
    ⟨block, hgetBlock, hblockActive, by rw [hblockAction]; rfl, by decide +kernel⟩ (by decide)
  exact absurd hsame (by decide)

end FirewallManager

end Pirewall
