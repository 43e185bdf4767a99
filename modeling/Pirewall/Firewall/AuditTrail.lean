/-
# Pirewall.Firewall.AuditTrail -- the recorded transitions and the lifecycle

`FirewallManager.transitions` is meant to be the audit trail of the rule lifecycle: read for one rule, it
starts from nothing, every entry starts where the one before it ended, the last one ends at the status in the
rule table, and every step is an arrow of the documented lifecycle. The table and the trail are written by
separate statements in a dozen operations, so this is a property of whole runs.

`Records` says of a call that what it appended to the trail leads from the old table to the new one, and is
proved operation by operation. The one arrow the documentation does not have is VALIDATING -> DEPLOYED, which
a rule takes that is deployed from its submission: the diagram goes through APPROVED there, as an approved rule
does. And a candidate under the id of a rule that reconcile adopted starts that rule's trail a second time.
`audit_trail_iff` says that in every run of the kind considered nothing else goes wrong.
-/
import Pirewall.Lib.Trail
import Pirewall.Firewall.Activation
import Pirewall.Firewall.Ownership
import Pirewall.Firewall.Verdict

namespace Pirewall

open Lib NftNames

/-! ## The documented lifecycle -/

/-- The arrows of the lifecycle diagram, a candidate being no rule yet, with two that are documented in words:
a rule whose deployment the backend refuses goes to REJECTED, and what reconcile adopts is filed as ACTIVE. -/
def documentedEdges : List (Option RuleStatus × RuleStatus) :=
  [(none, .validating),
   (some .validating, .rejected), (some .validating, .shadowed), (some .validating, .pendingApproval),
   (some .validating, .approved),
   (some .pendingApproval, .approved), (some .pendingApproval, .rejected),
   (some .approved, .deployed), (some .approved, .rejected),
   (some .deployed, .active),
   (some .active, .expired), (some .active, .disabled), (some .active, .removed),
   (none, .active)]

/-- The statuses a rule never leaves. -/
def RuleStatus.isTerminal : RuleStatus → Bool
  | .rejected | .shadowed | .expired | .disabled | .removed => true
  | _ => false

namespace FirewallManager

/-- The status of a rule in the rule table. -/
def statusOf (m : FirewallManager) (id : String) : Option RuleStatus :=
  (m.rules.get? id).map FirewallRule.status

/-- The recorded transitions of one rule. -/
def trailOf (m : FirewallManager) (id : String) : List RuleTransition :=
  m.transitions.filter fun t => t.ruleId = id

/-- The trail of every rule is its lifecycle. -/
structure Audited (m : FirewallManager) : Prop where
  first : ∀ id, ∀ t ∈ (m.trailOf id).head?, t.fromStatus = none
  linked : ∀ id, (m.trailOf id).IsChain fun t t' => t'.fromStatus = some t.toStatus
  last : ∀ id, (m.trailOf id).getLast?.map RuleTransition.toStatus = m.statusOf id
  edges : ∀ t ∈ m.transitions, (t.fromStatus, t.toStatus) ∈ documentedEdges

/-- After the call the trail is the lifecycle, and what was in a terminal status still is. -/
def AuditKept (m : FirewallManager) (call : Env × ManagerOp) : Prop :=
  Audited (m.step call) ∧ ∀ id status, m.statusOf id = some status → status.isTerminal = true →
    (m.step call).statusOf id = some status

/-! ## What a call records -/

/-- How a transition reads. -/
def transitionReading : Reading RuleTransition String RuleStatus :=
  ⟨RuleTransition.ruleId, RuleTransition.fromStatus, RuleTransition.toStatus⟩

/-- A documented arrow; or, if rules may be deployed directly, VALIDATING -> DEPLOYED. -/
def Edge (direct : Prop) (before : Option RuleStatus) (after : RuleStatus) : Prop :=
  (before, after) ∈ documentedEdges ∨ (direct ∧ before = some .validating ∧ after = .deployed)

section Records

variable {direct : Prop} {m₀ m m' m'' : FirewallManager} {id : String} {s : RuleStatus}

/-- What was recorded between `m` and `m'` leads from the one rule table to the other. -/
def Records (direct : Prop) (m m' : FirewallManager) : Prop :=
  ∃ journal, m'.transitions = m.transitions ++ journal ∧
    Trail transitionReading (Edge direct) m.statusOf journal m'.statusOf

/-- As `Records`, but the trail is ahead of the table: it has moved the rule `id` to `s`. -/
def RecordsAhead (direct : Prop) (m₀ m : FirewallManager) (id : String) (s : RuleStatus) : Prop :=
  ∃ journal, m.transitions = m₀.transitions ++ journal ∧
    Trail transitionReading (Edge direct) m₀.statusOf journal (Function.update m.statusOf id (some s))

/-- One transition, in the words of the trail. -/
theorem trail_single {st : String → Option RuleStatus} (t : RuleTransition)
    (hstart : st t.ruleId = t.fromStatus) (hedge : Edge direct t.fromStatus t.toStatus) :
    Trail transitionReading (Edge direct) st [t] (Function.update st t.ruleId (some t.toStatus)) :=
  .single hstart.symm hedge

theorem statusOf_set {r : FirewallRule} (hrules : m'.rules = m.rules.set id r) :
    m'.statusOf = Function.update m.statusOf id (some r.status) := by
  funext id'
  rw [statusOf, hrules, Dict.get?_set, Function.update_apply]
  split
  · rfl
  · rfl

theorem statusOf_congr (hrules : m'.rules = m.rules) : m'.statusOf = m.statusOf := by
  funext id
  rw [statusOf, hrules, statusOf]

namespace Records

theorem of_eq (hrules : m'.rules = m.rules) (htransitions : m'.transitions = m.transitions) :
    Records direct m m' :=
  ⟨[], by rw [htransitions, List.append_nil], statusOf_congr hrules ▸ .nil _⟩

theorem refl (m : FirewallManager) : Records direct m m := of_eq rfl rfl

theorem trans (h : Records direct m m') (h' : Records direct m' m'') : Records direct m m'' := by
  obtain ⟨journal, hlog, htrail⟩ := h
  obtain ⟨journal', hlog', htrail'⟩ := h'
  exact ⟨journal ++ journal', by rw [hlog', hlog, List.append_assoc], htrail.trans htrail'⟩

/-- One rule is filed with a new status, and its move recorded. -/
theorem move {r : FirewallRule} {now : Time} {reason : String} {before : Option RuleStatus}
    (hbefore : m.statusOf id = before) (hedge : (before, r.status) ∈ documentedEdges)
    (hrules : m'.rules = m.rules.set id r)
    (htransitions : m'.transitions = m.transitions ++ [⟨id, before, r.status, now, reason⟩]) :
    Records direct m m' := by
  refine ⟨_, htransitions, ?_⟩
  rw [statusOf_set hrules]
  exact trail_single ⟨id, before, r.status, now, reason⟩ hbefore (.inl hedge)

end Records

namespace RecordsAhead

/-- The move of a rule is recorded before the rule is filed. -/
theorem record {before : Option RuleStatus} (hbefore : m.statusOf id = before)
    (hedge : (before, s) ∈ documentedEdges) (hrules : m'.rules = m.rules) {now : Time} {reason : String}
    (htransitions : m'.transitions = m.transitions ++ [⟨id, before, s, now, reason⟩]) :
    RecordsAhead direct m m' id s := by
  refine ⟨_, htransitions, ?_⟩
  rw [statusOf_congr hrules]
  exact trail_single ⟨id, before, s, now, reason⟩ hbefore (.inl hedge)

/-- The rule is filed, and the table has caught up with the trail. -/
theorem settle (h : RecordsAhead direct m₀ m id s) {r : FirewallRule} {journal : List RuleTransition}
    (hrules : m'.rules = m.rules.set id r) (htransitions : m'.transitions = m.transitions ++ journal)
    (htrail : Trail transitionReading (Edge direct) (Function.update m.statusOf id (some s)) journal
      (Function.update m.statusOf id (some r.status))) : Records direct m₀ m' := by
  obtain ⟨before, hlog, hbefore⟩ := h
  refine ⟨before ++ journal, by rw [htransitions, hlog, List.append_assoc], ?_⟩
  rw [statusOf_set hrules]
  exact hbefore.trans htrail

/-- Filing with one more move. -/
theorem file (h : RecordsAhead direct m₀ m id s) {r : FirewallRule} {now : Time} {reason : String}
    (hedge : (some s, r.status) ∈ documentedEdges) (hrules : m'.rules = m.rules.set id r)
    (htransitions : m'.transitions = m.transitions ++ [⟨id, some s, r.status, now, reason⟩]) :
    Records direct m₀ m' := by
  refine h.settle hrules htransitions ?_
  have hdocumented : Edge direct (some s) r.status := .inl hedge
  have hmove := trail_single ⟨id, some s, r.status, now, reason⟩
    (Function.update_self id (some s) m.statusOf) hdocumented
  rw [Function.update_idem] at hmove
  exact hmove

end RecordsAhead

/-! ### Deploying -/

theorem shadow_records {rule : FirewallRule} (h : RecordsAhead direct m₀ m rule.id .validating) (now : Time) :
    Records direct m₀ (m.shadow rule now).2 :=
  h.file (r := { rule with status := .shadowed }) (by simp [documentedEdges]) rfl rfl

theorem holdForApproval_records {rule : FirewallRule} (h : RecordsAhead direct m₀ m rule.id .validating)
    (now : Time) : Records direct m₀ (m.holdForApproval rule now).2 :=
  h.file (r := { rule with status := .pendingApproval }) (by simp [documentedEdges]) rfl rfl

theorem deployFailed_records {rule : FirewallRule} (h : RecordsAhead direct m₀ m rule.id rule.status)
    (hedge : (some rule.status, RuleStatus.rejected) ∈ documentedEdges) (now : Time)
    (severity : EventSeverity) (error : String) :
    Records direct m₀ (m.deployFailed rule now severity error).2 :=
  h.file (r := { rule with status := .rejected }) hedge rfl rfl

/-- A deployment that went through is two moves. -/
theorem deployed_records {rule : FirewallRule} (h : RecordsAhead direct m₀ m rule.id rule.status)
    (hedge : Edge direct (some rule.status) .deployed) (now : Time) (metadata : Metadata)
    (how reason : String) : Records direct m₀ (m.deployed rule now metadata how reason).2 := by
  have hactive : Edge direct (some .deployed) .active := .inl (by simp [documentedEdges])
  have hfirst := trail_single ⟨rule.id, some rule.status, .deployed, now, how⟩
    (Function.update_self rule.id (some rule.status) m.statusOf) hedge
  have hsecond := trail_single ⟨rule.id, some .deployed, .active, now, "active"⟩
    (Function.update_self rule.id (some .deployed) m.statusOf) hactive
  rw [Function.update_idem] at hfirst hsecond
  have hboth := hfirst.trans hsecond
  refine h.settle (r := rule.activated now metadata) rfl ?_ hboth
  simp only [deployed, record, setRule, List.append_assoc]

/-- `_deploy`, if the arrow to DEPLOYED is there whenever the backend takes the rule. -/
theorem deploy_records (rule : FirewallRule) (h : RecordsAhead direct m₀ m rule.id rule.status)
    (hrejected : (some rule.status, RuleStatus.rejected) ∈ documentedEdges)
    (hdeployed : (m.backend.applyRule rule).1 = .ok () → Edge direct (some rule.status) .deployed)
    (now : Time) : Records direct m₀ (m.deploy rule now).2 := by
  unfold deploy
  split
  · rename_i e backend heq
    exact deployFailed_records (m := { m with backend }) h hrejected now .error e
  · rename_i backend heq
    exact deployed_records (m := { m with backend }) h (hdeployed (by rw [heq])) now _ _ _

/-- What an upgrade supersedes moves from ACTIVE to REMOVED. -/
theorem supersede_ahead (h : RecordsAhead direct m₀ m id s) {replaced : Option FirewallRule}
    (hold : ∀ old, replaced = some old → old.id ≠ id ∧ m.statusOf old.id = some .active) (ruleId : String)
    (now : Time) : RecordsAhead direct m₀ (m.supersede replaced ruleId now) id s := by
  cases replaced with
  | none => exact h
  | some old =>
    obtain ⟨hne, hactive⟩ := hold old rfl
    obtain ⟨journal, hlog, htrail⟩ := h
    have hremoved : Edge direct (some .active) .removed := .inl (by simp [documentedEdges])
    have hstart : Function.update m.statusOf id (some s) old.id = some .active :=
      (Function.update_of_ne hne _ _).trans hactive
    have hmove := trail_single ⟨old.id, some .active, .removed, now, "upgraded to BLOCK by rule " ++ ruleId⟩
      hstart hremoved
    have hstatus : (m.supersede (some old) ruleId now).statusOf =
        Function.update m.statusOf old.id (some .removed) :=
      statusOf_set (r := { old with status := .removed }) rfl
    have hboth := htrail.trans hmove
    -- the two moves concern different rules, so the table does not see their order
    rw [Function.update_comm hne.symm] at hboth
    refine ⟨_, ?_, hstatus ▸ hboth⟩
    simp only [supersede, record, setRule, hlog, List.append_assoc]

/-- The set backend takes the batch of this rule. -/
def SetsTake (m : FirewallManager) (sets : FakeSetBackend) (rule : FirewallRule) (target : RuleTarget)
    (now : Time) (upgradeOf : Option String) : Prop :=
  ∃ additions metadata,
    elementAddition rule target now m.config.policy.maxTtlSeconds = .ok (additions, metadata) ∧
    (sets.apply (((m.replacedBy upgradeOf).map deleteOps).getD [] ++ additions) now).1 = .ok ()

/-- `_deploy_to_sets` of a rule with a target and an expiry, if the arrow to DEPLOYED is there whenever the
backend takes its batch. -/
theorem deployToSets_records (rule : FirewallRule) (h : RecordsAhead direct m₀ m rule.id rule.status)
    {target : RuleTarget} (hfiled : m.targets.get? rule.id = some target) {expiresAt : Time}
    (hexpiry : rule.expiresAt = some expiresAt) {now : Time} {upgradeOf : Option String}
    (hold : ∀ old, m.replacedBy upgradeOf = some old →
      old.id ≠ rule.id ∧ m.statusOf old.id = some .active)
    (hrejected : (some rule.status, RuleStatus.rejected) ∈ documentedEdges) (sets : FakeSetBackend)
    (hdeployed : m.SetsTake sets rule target now upgradeOf → Edge direct (some rule.status) .deployed) :
    Records direct m₀ (m.deployToSets sets rule now upgradeOf).2 := by
  simp only [deployToSets, hfiled]
  split
  · rename_i e herror
    exact absurd herror (elementAddition_isOk hexpiry target now _ e)
  · rename_i additions metadata haddition
    split
    · rename_i e sets' heq
      exact deployFailed_records (m := { m with sets := some sets' }) h hrejected now .critical e
    · rename_i sets' heq
      have htakes : m.SetsTake sets rule target now upgradeOf := by
        refine ⟨additions, metadata, haddition, ?_⟩
        rw [replacedBy, heq]
      simp only
      have hahead : RecordsAhead direct m₀
          ({ m with sets := some sets' }.supersede (m.replacedBy upgradeOf) rule.id now) rule.id rule.status :=
        supersede_ahead (m := { m with sets := some sets' }) h hold rule.id now
      exact deployed_records hahead (hdeployed htakes) now metadata _ _

/-! ### Submission and approval -/

theorem statusOf_eq_none (h : id ∉ m.rules.keys) : m.statusOf id = none := by
  rw [statusOf, Dict.get?_eq_none_iff.mpr h, Option.map_none]

/-- What a deployment supersedes is ACTIVE, so it is no rule that is not. -/
theorem replacedBy_active (hkeyed : Keyed m) {upgradeOf : Option String} {old : FirewallRule}
    (hold : m.replacedBy upgradeOf = some old) (hid : m.statusOf id ≠ some .active) :
    old.id ≠ id ∧ m.statusOf old.id = some .active := by
  obtain ⟨hrule, hactive, _⟩ := replacedBy_some hkeyed hold
  have hstatus : m.statusOf old.id = some .active := by rw [statusOf, hrule, Option.map_some, hactive]
  exact ⟨fun hsame => hid (hsame ▸ hstatus), hstatus⟩

/-- Whether the mode sends an admitted candidate straight to the backend. -/
def deploysAtOnce (m : FirewallManager) (candidate : CandidateRule) : Bool :=
  match m.enforcementMode with
  | .shadow => false
  | .assisted => !m.needsReview candidate
  | .active => true

/-- What the mode makes of an admitted candidate: it is deployed at once, or shadowed or held. -/
theorem mode_cases {α : Type} {candidate : CandidateRule} {result shadowed held deployed : α}
    (h : result = match m.enforcementMode with
      | .shadow => shadowed
      | .assisted => if m.needsReview candidate then held else deployed
      | .active => deployed) :
    (m.deploysAtOnce candidate = true ∧ result = deployed) ∨
      (m.deploysAtOnce candidate = false ∧ (result = shadowed ∨ result = held)) := by
  unfold deploysAtOnce
  cases hmode : m.enforcementMode with
  | shadow => exact .inr ⟨rfl, .inl (by rw [h, hmode])⟩
  | active => exact .inl ⟨rfl, by rw [h, hmode]⟩
  | assisted =>
    cases hreview : m.needsReview candidate with
    | false => exact .inl ⟨rfl, by simp [h, hmode, hreview]⟩
    | true => exact .inr ⟨rfl, .inr (by simp [h, hmode, hreview])⟩

/-- The v2 chain admits the candidate, and the set backend takes its batch. -/
def TakenBySets (m : FirewallManager) (env : Env) (sets : FakeSetBackend) (candidate : CandidateRule) : Prop :=
  ∃ target upgradeOf, ∃ htarget : m.targetFor env candidate.toRuleFields = some target,
    (m.verdict env candidate).1 = .ok upgradeOf ∧
    m.SetsTake sets (m.ruleFor env candidate target htarget) target env.now upgradeOf

theorem source_of_target (candidate : CandidateRule) :
    ∀ t, candidate.target = some t → candidate.source = IPv4Network.host t.ip := candidate.target_is_source

/-- The v1 chain admits the candidate, and the rule backend takes its rule. -/
def TakenByBackend (m : FirewallManager) (env : Env) (candidate : CandidateRule) : Prop :=
  ∃ priority, (m.backendVerdict env candidate).1 = .ok priority ∧
    (m.backend.applyRule (candidate.toRule priority candidate.target (source_of_target candidate))).1 = .ok ()

theorem submitToSets_records (hkeyed : Keyed m) {env : Env} (b : FakeSetBackend) {candidate : CandidateRule}
    (hfresh : (m.verdict env candidate).1.isOk = true → candidate.id ∉ m.rules.keys)
    (hdirect : m.deploysAtOnce candidate = true → m.TakenBySets env b candidate → direct) :
    Records direct m (m.submitToSets env b candidate).2 := by
  cases hverdict : (m.verdict env candidate).1 with
  | error r =>
    rw [submitToSets_error b hverdict]
    exact .of_eq rfl rfl
  | ok upgradeOf =>
    obtain ⟨⟨target, htarget, hadmitted⟩, _⟩ := verdict_ok hverdict
    obtain ⟨expiresAt, hexpiry, _⟩ := hadmitted.expiry
    have hnone := statusOf_eq_none (hfresh (by rw [hverdict]; rfl))
    have hnot : m.statusOf candidate.id ≠ some .active := by simp [hnone]
    have hahead : RecordsAhead direct m (m.admitted env candidate target) candidate.id .validating :=
      .record hnone (by simp [documentedEdges]) rfl rfl
    have hdeploy : m.deploysAtOnce candidate = true → Records direct m ((m.admitted env candidate
        target).deployToSets b (m.ruleFor env candidate target htarget) env.now upgradeOf).2 := by
      intro honce
      refine deployToSets_records (m.ruleFor env candidate target htarget) hahead
        ((Dict.get?_set _ _ _ _).trans (if_pos rfl)) hexpiry ?_
        (by simp [documentedEdges, ruleFor, CandidateRule.toRule]) b ?_
      · exact fun old hold => replacedBy_active (m := m) hkeyed hold hnot
      · exact fun htakes => .inr ⟨hdirect honce ⟨target, upgradeOf, htarget, hverdict, htakes⟩, rfl, rfl⟩
    rcases mode_cases (submitToSets_admitted b hverdict htarget) with ⟨honce, heq⟩ | ⟨_, heq | heq⟩
    · rw [heq]
      exact hdeploy honce
    · rw [heq]
      exact shadow_records hahead env.now
    · rw [heq]
      exact holdForApproval_records hahead env.now

theorem submitToBackend_records {env : Env} {candidate : CandidateRule}
    (hfresh : (m.backendVerdict env candidate).1.isOk = true → candidate.id ∉ m.rules.keys)
    (hdirect : m.deploysAtOnce candidate = true → m.TakenByBackend env candidate → direct) :
    Records direct m (m.submitToBackend env candidate).2 := by
  cases hverdict : (m.backendVerdict env candidate).1 with
  | error r =>
    rw [submitToBackend_error hverdict]
    exact .of_eq rfl rfl
  | ok priority =>
    have hnone := statusOf_eq_none (hfresh (by rw [hverdict]; rfl))
    have hahead : RecordsAhead direct m (m.backendAdmitted env candidate) candidate.id .validating :=
      .record hnone (by simp [documentedEdges]) rfl rfl
    have hdeploy : m.deploysAtOnce candidate = true → Records direct m
        ((m.backendAdmitted env candidate).deploy
          (candidate.toRule priority candidate.target candidate.target_is_source) env.now).2 := by
      intro honce
      refine deploy_records (candidate.toRule priority candidate.target candidate.target_is_source)
        hahead (by simp [documentedEdges, CandidateRule.toRule]) ?_ env.now
      exact fun htakes => .inr ⟨hdirect honce ⟨priority, hverdict, htakes⟩, rfl, rfl⟩
    rcases mode_cases (submitToBackend_admitted hverdict) with ⟨honce, heq⟩ | ⟨_, heq | heq⟩
    · rw [heq]
      exact hdeploy honce
    · rw [heq]
      exact shadow_records hahead env.now
    · rw [heq]
      exact holdForApproval_records hahead env.now

/-- A rule that is held can be deployed: it has an expiry and, on the set path, a target. -/
def HeldReady (m : FirewallManager) : Prop :=
  ∀ id rule, m.rules.get? id = some rule → rule.status = .pendingApproval →
    rule.expiresAt.isSome = true ∧ (m.sets.isSome = true → (m.targets.get? id).isSome = true)

theorem approvePending_records (hkeyed : Keyed m) (hheld : HeldReady m) (ruleId : String) (now : Time) :
    Records direct m (m.approvePending ruleId now).2 := by
  cases hrule : m.rules.get? ruleId with
  | none =>
    simp only [approvePending, hrule]
    exact .refl m
  | some rule =>
    by_cases hpending : rule.status = .pendingApproval
    swap
    · simp only [approvePending, hrule, ne_eq, hpending, not_false_eq_true, if_true]
      exact .refl m
    have hid := hkeyed ruleId rule hrule
    have hstatus : m.statusOf ruleId = some .pendingApproval := by
      rw [statusOf, hrule, Option.map_some, hpending]
    have hahead : RecordsAhead direct m (m.record ruleId (some .pendingApproval) .approved now
        "approved by administrator") ruleId .approved :=
      .record hstatus (by simp [documentedEdges]) rfl rfl
    have hdeployed : Edge direct (some .approved) .deployed := .inl (by simp [documentedEdges])
    obtain ⟨hexpiry, hfiled⟩ := hheld ruleId rule hrule hpending
    rw [approvePending_pending now hrule hpending]
    subst hid
    cases hsets : m.sets with
    | none =>
      exact deploy_records { rule with status := .approved } hahead (by simp [documentedEdges])
        (fun _ => hdeployed) now
    | some sets =>
      obtain ⟨expiresAt, hexpiry⟩ := Option.isSome_iff_exists.mp hexpiry
      obtain ⟨target, htarget⟩ := Option.isSome_iff_exists.mp (hfiled (by rw [hsets]; rfl))
      refine deployToSets_records { rule with status := .approved } hahead htarget hexpiry ?_
        (by simp [documentedEdges]) sets fun _ => hdeployed
      exact fun old hold => replacedBy_active (m := m) hkeyed hold (by rw [hstatus]; simp)

/-! ### Retiring -/

theorem retireRule_records (m : FirewallManager) (ruleId : String) {toStatus : RuleStatus} (now : Time)
    (reason : String) (hedge : (some RuleStatus.active, toStatus) ∈ documentedEdges) :
    Records direct m (m.retireRule ruleId toStatus now reason).2 := by
  rcases m.retireRule_cases ruleId toStatus now reason with heq | ⟨rule, hrule, hactive, heq⟩
  · rw [heq]
    exact .refl m
  · rw [heq, (m.withdraw_frame ruleId rule now).1]
    refine .move (r := { rule with status := toStatus }) ?_ hedge rfl rfl
    rw [statusOf, hrule, Option.map_some, hactive]

theorem expireRules_records (m : FirewallManager) (now : Time) : Records direct m (m.expireRules now).2 := by
  refine expireRules_induction (I := Records direct m) m now ?_ (.refl m)
  intro m' ruleId h
  exact h.trans (retireRule_records m' ruleId now _ (by simp [documentedEdges]))

theorem rejectPending_records (m : FirewallManager) (ruleId : String) (now : Time) :
    Records direct m (m.rejectPending ruleId now).2 := by
  unfold rejectPending
  split
  · exact .refl m
  · rename_i rule hrule
    split
    · exact .refl m
    · rename_i hpending
      refine .move (r := { rule with status := .rejected }) ?_
        (by simp [documentedEdges]) rfl rfl
      rw [statusOf, hrule, Option.map_some, not_not.mp hpending]

section Demotion

variable {β : Type} {F : β × FirewallManager → FirewallRule → β × FirewallManager} {p : FirewallRule → Bool}

/-- A loop body that files its rule as REMOVED, and records it, when `p` holds of it. -/
structure LogsDemotions (F : β × FirewallManager → FirewallRule → β × FirewallManager)
    (p : FirewallRule → Bool) : Prop where
  active : ∀ rule, p rule = true → rule.status = .active
  moves : ∀ acc rule, p rule = true → (F acc rule).2.rules = acc.2.rules.set rule.id (demote rule) ∧
    ∃ now reason, (F acc rule).2.transitions =
      acc.2.transitions ++ [⟨rule.id, some .active, .removed, now, reason⟩]
  skips : ∀ acc rule, p rule = false → (F acc rule).2.rules = acc.2.rules ∧
    (F acc rule).2.transitions = acc.2.transitions

/-- A loop that does so with every ACTIVE rule. -/
theorem LogsDemotions.of_active {G : β × FirewallManager → FirewallRule → β × FirewallManager}
    (hmoves : ∀ acc rule, (G acc rule).2.rules = acc.2.rules.set rule.id (demote rule) ∧
      ∃ now reason, (G acc rule).2.transitions =
        acc.2.transitions ++ [⟨rule.id, some .active, .removed, now, reason⟩]) :
    LogsDemotions (fun acc rule => if rule.status == .active then G acc rule else acc)
      (fun rule => rule.status == .active) where
  active := fun _ h => beq_iff_eq.mp h
  moves := by
    intro acc rule h
    rw [if_pos h]
    exact hmoves acc rule
  skips := by
    intro acc rule h
    rw [if_neg (by simp [h])]
    exact ⟨rfl, rfl⟩

/-- The loop reads a snapshot of the rules; with distinct ids each is still filed as it was when its turn
comes. -/
theorem LogsDemotions.foldl (hF : LogsDemotions F p) (rules : List FirewallRule) (acc : β × FirewallManager)
    (hnodup : (rules.map FirewallRule.id).Nodup)
    (hfiled : ∀ rule ∈ rules, acc.2.rules.get? rule.id = some rule) :
    Records direct acc.2 (rules.foldl F acc).2 := by
  induction rules generalizing acc with
  | nil => exact .refl acc.2
  | cons rule rules ih =>
    obtain ⟨hnew, hnodup⟩ := List.nodup_cons.mp hnodup
    have hother : ∀ rule' ∈ rules, rule'.id ≠ rule.id := fun rule' h heq =>
      hnew (heq ▸ List.mem_map_of_mem h)
    cases hp : p rule with
    | false =>
      obtain ⟨hrules, htransitions⟩ := hF.skips acc rule hp
      refine Records.trans (.of_eq hrules htransitions) (ih (F acc rule) hnodup ?_)
      intro rule' h
      rw [hrules]
      exact hfiled rule' (List.mem_cons_of_mem _ h)
    | true =>
      obtain ⟨hrules, now, reason, htransitions⟩ := hF.moves acc rule hp
      have hstatus : acc.2.statusOf rule.id = some .active := by
        rw [statusOf, hfiled rule List.mem_cons_self, Option.map_some, hF.active rule hp]
      refine Records.trans (.move (r := demote rule) hstatus (by simp [documentedEdges, demote]) hrules
        htransitions) (ih (F acc rule) hnodup ?_)
      intro rule' h
      rw [hrules, Dict.get?_set, if_neg (hother rule' h)]
      exact hfiled rule' (List.mem_cons_of_mem _ h)

theorem LogsDemotions.foldl_values (hF : LogsDemotions F p) (hkeyed : Keyed m) (b : β)
    {rules : List FirewallRule} (hsub : List.Sublist rules m.rules.values) :
    Records direct m (rules.foldl F (b, m)).2 :=
  hF.foldl rules (b, m) ((values_id_nodup hkeyed).sublist (hsub.map _))
    fun _ h => get?_of_mem_values hkeyed (hsub.subset h)

end Demotion

/-- `_retire_all_active`, after a change that concerned neither the rules nor the trail. -/
theorem retireAllActive_records (hkeyed : Keyed m) (m' : FirewallManager) (hrules : m'.rules = m.rules)
    (htransitions : m'.transitions = m.transitions) (now : Time) (reason : String) :
    Records direct m (m'.retireAllActive now reason).2 := by
  have hkeyed' : Keyed m' := fun id rule hrule => hkeyed id rule (hrules ▸ hrule)
  exact Records.trans (.of_eq hrules htransitions)
    (LogsDemotions.foldl_values (.of_active fun acc rule => ⟨rfl, now, reason, rfl⟩) hkeyed' 0 (.refl _))

theorem revertBackend_records (hkeyed : Keyed m) (now : Time) : Records direct m (m.revertBackend now).2 := by
  have hkeyed' : Keyed { m with enforcementMode := .shadow } := hkeyed
  have hmode : Records direct m { m with enforcementMode := .shadow } := .of_eq rfl rfl
  exact hmode.trans
    (LogsDemotions.foldl_values (.of_active fun acc rule => ⟨rfl, now, "kill-switch", rfl⟩) hkeyed' 0 (.refl _))

theorem retireMissing_records (hkeyed : Keyed m) (live : List (String × ElementKey)) (now : Time) :
    Records direct m (m.retireMissing live now).2 := by
  unfold retireMissing activeRules
  rw [List.foldl_filter]
  refine LogsDemotions.foldl_values (p := fun rule => rule.status == .active &&
    (elementOf rule).any fun location => decide (location ∉ live)) ⟨?_, ?_, ?_⟩ hkeyed [] (.refl _)
  · intro rule h
    simp only [Bool.and_eq_true, beq_iff_eq] at h
    exact h.1
  · intro acc rule h
    simp only [Bool.and_eq_true, beq_iff_eq, Option.any_eq_true, decide_eq_true_eq] at h
    obtain ⟨hactive, location, helement, hlive⟩ := h
    simp only [hactive, beq_self_eq_true, if_true, helement, hlive, if_false]
    exact ⟨rfl, now, _, rfl⟩
  · intro acc rule h
    cases hactive : rule.status == .active with
    | false => exact ⟨rfl, rfl⟩
    | true =>
      cases helement : elementOf rule with
      | none => exact ⟨rfl, rfl⟩
      | some location =>
        have hlive : location ∈ live := by simpa [hactive, helement] using h
        simp [hlive]

/-! ### The kill switch, the shutdown and panic -/

theorem revertToBase_records (hkeyed : Keyed m) (now : Time) : Records direct m (m.revertToBase now).2 := by
  cases hsets : m.sets with
  | none =>
    simp only [revertToBase, hsets]
    exact revertBackend_records hkeyed now
  | some b =>
    simp only [revertToBase, hsets]
    exact retireAllActive_records hkeyed { m with
      sets := some ((b.flushSets adaptiveEnforcementSets).2.setGuardModes allObserve).2
      enforcementMode := .shadow } rfl rfl now _

theorem failOpenShutdown_records (hkeyed : Keyed m) (now : Time) :
    Records direct m (m.failOpenShutdown now).2 := by
  cases hsets : m.sets with
  | none =>
    simp only [failOpenShutdown, hsets]
    exact revertToBase_records hkeyed now
  | some b =>
    simp only [failOpenShutdown, hsets]
    exact retireAllActive_records hkeyed { m with sets := some (b.flushSets adaptiveEnforcementSets).2 }
      rfl rfl now _

theorem panic_records (hkeyed : Keyed m) (actor : String) (now : Time) :
    Records direct m (m.panic actor now).2 := by
  cases hsets : m.sets with
  | none =>
    simp only [panic, hsets]
    exact .refl m
  | some b =>
    simp only [panic, hsets]
    split
    · exact .of_eq rfl rfl
    · rename_i deleted b' heq
      exact retireAllActive_records hkeyed { m with sets := some b', enforcementMode := .shadow } rfl rfl
        now _

/-! ### Reconcile -/

/-- Nothing is filed under an id of reconcile's. -/
def NothingAdopted (m : FirewallManager) : Prop :=
  ∀ setName ∈ ipKeyedSets, ∀ key, m.rules.get? (reconciledId setName key) = none

theorem adopt_records {setName key : String} (hnone : m.rules.get? (reconciledId setName key) = none)
    (expiresIn : Option Int) (now : Time) : Records direct m (m.adopt setName key expiresIn now).2 := by
  unfold adopt
  split
  · exact .refl m
  · rename_i ip _
    refine .move (r := adoptedRule setName key ip (expiresIn.getD m.config.policy.maxTtlSeconds) now)
      ?_ (by simp [documentedEdges, adoptedRule]) rfl rfl
    show (m.rules.get? (reconciledId setName key)).map _ = none
    rw [hnone, Option.map_none]

/-- Different elements are adopted under different ids. -/
theorem adopt_get?_other {setName key setName' key' : String} (hset : setName ∈ ipKeyedSets)
    (hset' : setName' ∈ ipKeyedSets) (hne : (setName', ElementKey.one key') ≠ (setName, .one key))
    (expiresIn : Option Int) (now : Time) :
    (m.adopt setName key expiresIn now).2.rules.get? (reconciledId setName' key') =
      m.rules.get? (reconciledId setName' key') := by
  rcases m.adopt_cases setName key expiresIn now with heq | ⟨rule, ip, transitions, hid, _, _, heq⟩
  · rw [heq]
  · rw [heq]
    simp only [hid, Dict.get?_set]
    rw [if_neg]
    intro hsame
    obtain ⟨rfl, rfl⟩ := reconciledId_injective hset' hset hsame
    exact hne rfl

theorem adoptUnknown_records {known : List (String × ElementKey)} {now : Time}
    (live : List ((String × ElementKey) × Option Int)) (hnodup : (live.map Prod.fst).Nodup)
    (report : ReconcileReport) (hfree : ∀ setName ∈ ipKeyedSets, ∀ key,
      (setName, ElementKey.one key) ∈ live.map Prod.fst → m.rules.get? (reconciledId setName key) = none) :
    Records direct m (m.adoptUnknown known now report live).2 := by
  induction live generalizing m report with
  | nil => exact .refl m
  | cons entry rest ih =>
    obtain ⟨⟨setName, key⟩, expiresIn⟩ := entry
    obtain ⟨hnew, hdistinct⟩ := List.nodup_cons.mp hnodup
    have hrest : ∀ setName' ∈ ipKeyedSets, ∀ key', (setName', ElementKey.one key') ∈ rest.map Prod.fst →
        m.rules.get? (reconciledId setName' key') = none :=
      fun setName' hset' key' hmem => hfree setName' hset' key' (List.mem_cons_of_mem _ hmem)
    unfold adoptUnknown
    split
    · exact ih hdistinct report hrest
    · split
      · exact ih hdistinct _ hrest
      · rename_i text _
        split
        · exact ih hdistinct _ hrest
        · rename_i hset
          have hset := not_not.mp hset
          have hrecords : Records direct m (m.adopt setName text expiresIn now).2 :=
            adopt_records (hfree setName hset text (by simp)) expiresIn now
          -- what is adopted next is another element
          have hother : ∀ setName' ∈ ipKeyedSets, ∀ key',
              (setName', ElementKey.one key') ∈ rest.map Prod.fst →
              (m.adopt setName text expiresIn now).2.rules.get? (reconciledId setName' key') = none := by
            intro setName' hset' key' hmem
            rw [adopt_get?_other hset hset' (ne_of_mem_of_not_mem hmem hnew) expiresIn now]
            exact hrest setName' hset' key' hmem
          split
          · rename_i e m' heq
            rw [heq] at hrecords
            exact hrecords
          · rename_i ruleId m' heq
            rw [heq] at hrecords hother
            exact hrecords.trans (ih hdistinct _ hother)

theorem reconcile_records (hkeyed : Keyed m) (hfree : NothingAdopted m) (now : Time) :
    Records direct m (m.reconcile now).2 := by
  cases hsets : m.sets with
  | none =>
    simp only [reconcile, hsets]
    exact .refl m
  | some b =>
    simp only [reconcile, hsets]
    split
    · exact .refl m
    · split
      · exact .of_eq rfl rfl
      · rename_i live b' heq
        have hlisted : Records direct m { m with sets := some b' } := .of_eq rfl rfl
        have hkeyed' : Keyed { m with sets := some b' } := hkeyed
        have hdemoted := retireMissing_demoted hkeyed' (live.map Prod.fst) now
        have hnodup : ((sortedLive live).map Prod.fst).Nodup :=
          ((List.perm_insertionSort _ live).map Prod.fst).nodup_iff.mpr
            (listLive_nodup (by decide) (congrArg Prod.fst heq))
        refine (hlisted.trans (retireMissing_records hkeyed' (live.map Prod.fst) now)).trans
          (adoptUnknown_records (sortedLive live) hnodup _ ?_)
        intro setName hset key _
        rw [hdemoted.rules]
        show (m.rules.get? _).map _ = none
        rw [hfree setName hset key, Option.map_none]

/-! ### Every call -/

/-- Housekeeping records nothing. -/
theorem housekeeping_records (m : FirewallManager) (env : Env) (op : ManagerOp)
    (hk : isHousekeeping op = true) : Records direct m (m.step (env, op)) := by
  obtain ⟨_, _, _, _, heq⟩ := m.step_housekeeping_frame env op hk
  rw [heq]
  exact .of_eq rfl rfl

/-- The chain admits the candidate. -/
def Admits (m : FirewallManager) (env : Env) (candidate : CandidateRule) : Prop :=
  match m.sets with
  | some _ => (m.verdict env candidate).1.isOk = true
  | none => (m.backendVerdict env candidate).1.isOk = true

/-- The call deploys a rule straight from its submission: the mode does not have it wait, its chain admits it,
and the backend takes it. -/
def DeploysUnapproved (m : FirewallManager) (call : Env × ManagerOp) : Prop :=
  ∃ candidate, call.2 = .submitCandidate candidate ∧ m.deploysAtOnce candidate = true ∧
    match m.sets with
    | some sets => m.TakenBySets call.1 sets candidate
    | none => m.TakenByBackend call.1 candidate

/-- The call submits a candidate that its chain admits under the id of a rule reconcile adopted. -/
def TakesAdoptedId (m : FirewallManager) (call : Env × ManagerOp) : Prop :=
  ∃ candidate, call.2 = .submitCandidate candidate ∧ m.Admits call.1 candidate ∧
    IsReconciledId candidate.id ∧ candidate.id ∈ m.rules.keys

/-- Every call records what it does to the rule table, if it files no rule under an id in use. -/
theorem step_records (hkeyed : Keyed m) (hheld : HeldReady m) (call : Env × ManagerOp)
    (hfresh : ∀ candidate, call.2 = .submitCandidate candidate → m.Admits call.1 candidate →
      candidate.id ∉ m.rules.keys)
    (hfree : call.2 = .reconcile → NothingAdopted m) :
    Records (DeploysUnapproved m call) m (m.step call) := by
  obtain ⟨env, op⟩ := call
  by_cases hk : isHousekeeping op = true
  · exact housekeeping_records m env op hk
  cases op with
  | submitCandidate candidate =>
    have hfresh := hfresh candidate rfl
    simp only [step, submitCandidate]
    cases hsets : m.sets with
    | some sets =>
      refine submitToSets_records hkeyed sets
        (fun hok => hfresh (by simpa only [Admits, hsets] using hok)) ?_
      exact fun honce htaken => ⟨candidate, rfl, honce, by simpa only [hsets] using htaken⟩
    | none =>
      refine submitToBackend_records (fun hok => hfresh (by simpa only [Admits, hsets] using hok)) ?_
      exact fun honce htaken => ⟨candidate, rfl, honce, by simpa only [hsets] using htaken⟩
  | approvePending ruleId => exact approvePending_records hkeyed hheld ruleId env.now
  | rejectPending ruleId => exact rejectPending_records m ruleId env.now
  | disableRule ruleId => exact retireRule_records m ruleId env.now _ (by simp [documentedEdges])
  | removeRule ruleId => exact retireRule_records m ruleId env.now _ (by simp [documentedEdges])
  | expireRules => exact expireRules_records m env.now
  | revertToBase => exact revertToBase_records hkeyed env.now
  | failOpenShutdown => exact failOpenShutdown_records hkeyed env.now
  | panic actor => exact panic_records hkeyed actor env.now
  | reconcile => exact reconcile_records hkeyed (hfree rfl) env.now
  | _ => exact absurd rfl hk

/-! ## The invariant -/

theorem HeldReady.step (h : HeldReady m) (hkeyed : Keyed m) (call : Env × ManagerOp) :
    HeldReady (m.step call) := by
  intro id rule hrule hpending
  rw [step_sets_isSome hkeyed call]
  rcases held_of_step hkeyed call hrule hpending with ⟨hold, htarget⟩ | ⟨candidate, _, hnew⟩
  · rw [htarget]
    exact h id rule hold hpending
  · refine ⟨hnew.expires, fun hsets => ?_⟩
    obtain ⟨b, hb⟩ := Option.isSome_iff_exists.mp hsets
    obtain ⟨target, _, _, _, hfiled⟩ := hnew.target b hb
    rw [← step_keyed hkeyed call id rule hrule, hfiled]
    rfl

end Records

/-- The trail from the very beginning leads to the rule table. -/
def Faithful (direct : Prop) (m : FirewallManager) : Prop :=
  Trail transitionReading (Edge direct) (fun _ => none) m.transitions m.statusOf

namespace Faithful

variable {direct : Prop} {m m' : FirewallManager}

theorem records (h : Faithful direct m) (hstep : Records direct m m') : Faithful direct m' := by
  obtain ⟨journal, hlog, htrail⟩ := hstep
  unfold Faithful
  rw [hlog]
  exact h.trans htrail

/-- A trail of documented arrows is all the audit asks for. -/
theorem audited (h : Faithful False m) : Audited m where
  first := fun _ _ ht => Trail.first h ht
  linked := fun id => Trail.linked h id
  last := by
    intro id
    rw [Trail.last h id, Option.or_none]
    rfl
  edges := by
    intro t ht
    rcases Trail.edges h ht with hedge | ⟨hfalse, _⟩
    · exact hedge
    · exact absurd hfalse not_false

end Faithful

/-- No documented arrow leaves a terminal status. -/
theorem not_edge_of_terminal {status : RuleStatus} (h : status.isTerminal = true) (after : RuleStatus) :
    ¬ Edge False (some status) after := by
  rintro (hedge | ⟨hfalse, _⟩)
  · cases status <;> simp_all [RuleStatus.isTerminal, documentedEdges]
  · exact hfalse

/-! ## What the trail gives away -/

section Shows

variable {m m' m'' : FirewallManager}

/-- What `m` has recorded is the beginning of what `m'` has. -/
def Extends (m m' : FirewallManager) : Prop :=
  ∃ journal, m'.transitions = m.transitions ++ journal

theorem Extends.trans (h : Extends m m') (h' : Extends m' m'') : Extends m m'' := by
  obtain ⟨journal, hlog⟩ := h
  obtain ⟨journal', hlog'⟩ := h'
  exact ⟨journal ++ journal', by rw [hlog', hlog, List.append_assoc]⟩

theorem supersede_extends (m : FirewallManager) (replaced : Option FirewallRule) (ruleId : String)
    (now : Time) : Extends m (m.supersede replaced ruleId now) := by
  cases replaced with
  | none => exact ⟨[], (List.append_nil _).symm⟩
  | some old => exact ⟨_, rfl⟩

theorem deployed_extends (m : FirewallManager) (rule : FirewallRule) (now : Time) (metadata : Metadata)
    (how reason : String) : Extends m (m.deployed rule now metadata how reason).2 :=
  ⟨_, List.append_assoc ..⟩

theorem deploy_extends (m : FirewallManager) (rule : FirewallRule) (now : Time) :
    Extends m (m.deploy rule now).2 := by
  unfold deploy
  split
  · exact ⟨_, rfl⟩
  · rename_i backend heq
    exact deployed_extends { m with backend } rule now _ _ _

theorem deployToSets_extends (m : FirewallManager) (sets : FakeSetBackend) (rule : FirewallRule) (now : Time)
    (upgradeOf : Option String) : Extends m (m.deployToSets sets rule now upgradeOf).2 := by
  unfold deployToSets
  split
  · exact ⟨[], (List.append_nil _).symm⟩
  · rename_i target htarget
    simp only
    split
    · exact ⟨[], (List.append_nil _).symm⟩
    · split
      · exact ⟨_, rfl⟩
      · rename_i sets' heq
        simp only
        exact (supersede_extends { m with sets := some sets' } _ rule.id now).trans
          (deployed_extends _ rule now _ _ _)

theorem exists_of_isOk {ε α : Type} {r : Except ε α} (h : r.isOk = true) : ∃ a, r = .ok a := by
  cases r with
  | ok a => exact ⟨a, rfl⟩
  | error e => exact absurd h (by simp [Except.isOk, Except.toBool])

/-- An admitted candidate is recorded as a new rule, whatever becomes of it. -/
theorem submission_recorded {env : Env} {candidate : CandidateRule} (hadmits : m.Admits env candidate) :
    ∃ reason, Extends (m.record candidate.id none .validating env.now reason)
      (m.step (env, .submitCandidate candidate)) := by
  unfold Admits at hadmits
  cases hsets : m.sets with
  | some sets =>
    simp only [hsets] at hadmits
    simp only [step, submitCandidate, hsets]
    obtain ⟨upgradeOf, hverdict⟩ := exists_of_isOk hadmits
    obtain ⟨⟨target, htarget, _⟩, _⟩ := verdict_ok hverdict
    have hrecorded : ∀ m', Extends (m.admitted env candidate target) m' →
        Extends (m.record candidate.id none .validating env.now "passed the v2 validation chain") m' :=
      fun _ h => h
    refine ⟨_, hrecorded _ ?_⟩
    rcases mode_cases (submitToSets_admitted sets hverdict htarget) with ⟨_, heq⟩ | ⟨_, heq | heq⟩
    · rw [heq]
      exact deployToSets_extends _ _ _ _ _
    · rw [heq]
      exact ⟨_, rfl⟩
    · rw [heq]
      exact ⟨_, rfl⟩
  | none =>
    simp only [hsets] at hadmits
    simp only [step, submitCandidate, hsets]
    obtain ⟨priority, hverdict⟩ := exists_of_isOk hadmits
    have hrecorded : ∀ m', Extends (m.backendAdmitted env candidate) m' →
        Extends (m.record candidate.id none .validating env.now "passed full validation chain") m' :=
      fun _ h => h
    refine ⟨_, hrecorded _ ?_⟩
    rcases mode_cases (submitToBackend_admitted hverdict) with ⟨_, heq⟩ | ⟨_, heq | heq⟩
    · rw [heq]
      exact deploy_extends _ _ _
    · rw [heq]
      exact ⟨_, rfl⟩
    · rw [heq]
      exact ⟨_, rfl⟩

theorem deployed_shows (m : FirewallManager) (rule : FirewallRule) (now : Time) (metadata : Metadata)
    (how reason : String) : ⟨rule.id, some rule.status, .deployed, now, how⟩ ∈
      (m.deployed rule now metadata how reason).2.transitions := by
  simp [deployed, record, setRule]

theorem deployToSets_shows (sets : FakeSetBackend) {rule : FirewallRule} {target : RuleTarget}
    (hfiled : m.targets.get? rule.id = some target) {now : Time} {upgradeOf : Option String}
    (htakes : m.SetsTake sets rule target now upgradeOf) :
    ∃ how, ⟨rule.id, some rule.status, .deployed, now, how⟩ ∈
      (m.deployToSets sets rule now upgradeOf).2.transitions := by
  obtain ⟨additions, metadata, haddition, htakes⟩ := htakes
  simp only [deployToSets, hfiled, haddition]
  split
  · rename_i e sets' heq
    rw [replacedBy, heq] at htakes
    exact absurd htakes (by simp)
  · simp only
    exact ⟨_, deployed_shows _ rule now metadata _ _⟩

theorem deploy_shows {rule : FirewallRule} (htakes : (m.backend.applyRule rule).1 = .ok ()) (now : Time) :
    ∃ how, ⟨rule.id, some rule.status, .deployed, now, how⟩ ∈ (m.deploy rule now).2.transitions := by
  unfold deploy
  split
  · rename_i e backend heq
    rw [heq] at htakes
    exact absurd htakes (by simp)
  · exact ⟨_, deployed_shows _ rule now _ _ _⟩

/-- The missing arrow is in the trail of a rule that was deployed straight from its submission. -/
theorem DeploysUnapproved.shows {call : Env × ManagerOp} (h : DeploysUnapproved m call) :
    ∃ t ∈ (m.step call).transitions, t.fromStatus = some .validating ∧ t.toStatus = .deployed := by
  obtain ⟨env, op⟩ := call
  obtain ⟨candidate, hop, honce, htaken⟩ := h
  obtain rfl : op = .submitCandidate candidate := hop
  cases hsets : m.sets with
  | some sets =>
    simp only [hsets] at htaken
    simp only [step, submitCandidate, hsets]
    obtain ⟨target, upgradeOf, htarget, hverdict, htakes⟩ := htaken
    rcases mode_cases (submitToSets_admitted sets hverdict htarget) with ⟨_, heq⟩ | ⟨hnot, _⟩
    · obtain ⟨how, hmem⟩ := deployToSets_shows (m := m.admitted env candidate target) sets
        ((Dict.get?_set _ _ _ _).trans (if_pos rfl)) htakes
      rw [heq]
      exact ⟨_, hmem, rfl, rfl⟩
    · exact absurd honce (by simp [hnot])
  | none =>
    simp only [hsets] at htaken
    simp only [step, submitCandidate, hsets]
    obtain ⟨priority, hverdict, htakes⟩ := htaken
    rcases mode_cases (submitToBackend_admitted hverdict) with ⟨_, heq⟩ | ⟨hnot, _⟩
    · obtain ⟨how, hmem⟩ := deploy_shows (m := m.backendAdmitted env candidate) htakes env.now
      rw [heq]
      exact ⟨_, hmem, rfl, rfl⟩
    · exact absurd honce (by simp [hnot])

/-- A rule filed before is not started again in a trail that is linked. -/
theorem not_audited_of_restart (hfaithful : Faithful False m) {id : String} (hid : id ∈ m.rules.keys)
    {now : Time} {reason : String} (h : Extends (m.record id none .validating now reason) m') :
    ¬ Audited m' := by
  intro haudited
  obtain ⟨journal, hlog⟩ := h
  obtain ⟨status, hstatus⟩ : ∃ status, m.statusOf id = some status := by
    obtain ⟨rule, hrule⟩ := Option.ne_none_iff_exists'.mp fun hnone => Dict.get?_eq_none_iff.mp hnone hid
    exact ⟨rule.status, by rw [statusOf, hrule, Option.map_some]⟩
  obtain ⟨t, ht, _⟩ := Option.map_eq_some_iff.mp ((hfaithful.audited.last id).trans hstatus)
  have hlinked := haudited.linked id
  rw [trailOf, hlog, record, List.append_assoc, List.filter_append] at hlinked
  have hrestart := (List.isChain_append.mp hlinked).2.2 t ht
  simp at hrestart

end Shows

/-! ## Whole runs -/

/-- What the audit rests on. -/
structure Auditable (m : FirewallManager) : Prop where
  keyed : Keyed m
  held : HeldReady m
  faithful : Faithful False m

/-- The calls considered: a submitted id in use is one of reconcile's, and reconcile has nothing adopted yet. -/
def InOrder (m : FirewallManager) (call : Env × ManagerOp) : Prop :=
  (∀ candidate, call.2 = .submitCandidate candidate → candidate.id ∈ m.rules.keys →
    IsReconciledId candidate.id) ∧
  (call.2 = .reconcile → NothingAdopted m)

section Runs

variable {m : FirewallManager} {call : Env × ManagerOp}

theorem Auditable.records (h : Auditable m) (horder : InOrder m call) (hdirect : ¬ DeploysUnapproved m call)
    (hadopted : ¬ TakesAdoptedId m call) : Records False m (m.step call) := by
  have hrecords := step_records h.keyed h.held call (fun candidate hop hadmits hfiled =>
    hadopted ⟨candidate, hop, hadmits, horder.1 candidate hop hfiled, hfiled⟩) horder.2
  rw [eq_false hdirect] at hrecords
  exact hrecords

theorem Auditable.step (h : Auditable m) (horder : InOrder m call) (hdirect : ¬ DeploysUnapproved m call)
    (hadopted : ¬ TakesAdoptedId m call) : Auditable (m.step call) where
  keyed := step_keyed h.keyed call
  held := h.held.step h.keyed call
  faithful := h.faithful.records (h.records horder hdirect hadopted)

/-- What fails the audit is one of the two. -/
theorem step_auditKept_iff (h : Auditable m) (horder : InOrder m call) :
    AuditKept m call ↔ ¬ DeploysUnapproved m call ∧ ¬ TakesAdoptedId m call := by
  constructor
  · intro hkept
    refine ⟨?_, ?_⟩
    · intro hdirect
      -- the trail has the arrow VALIDATING -> DEPLOYED
      obtain ⟨t, ht, hbefore, hafter⟩ := hdirect.shows
      have hedge := hkept.1.edges t ht
      rw [hbefore, hafter] at hedge
      simp [documentedEdges] at hedge
    · rintro ⟨candidate, hop, hadmits, _, hfiled⟩
      obtain ⟨env, op⟩ := call
      obtain rfl : op = .submitCandidate candidate := hop
      -- the adopted rule has a trail, and its next entry starts from nothing
      obtain ⟨reason, hrecorded⟩ := submission_recorded hadmits
      exact not_audited_of_restart h.faithful hfiled hrecorded hkept.1
  · rintro ⟨hdirect, hadopted⟩
    refine ⟨(h.step horder hdirect hadopted).faithful.audited, ?_⟩
    intro id status hstatus hterminal
    obtain ⟨journal, _, htrail⟩ := h.records horder hdirect hadopted
    exact htrail.settled hstatus (not_edge_of_terminal hterminal)

/-- Only submissions can fail it. -/
theorem no_fault_of_not_submission (h : ∀ candidate, call.2 ≠ .submitCandidate candidate) :
    ¬ DeploysUnapproved m call ∧ ¬ TakesAdoptedId m call :=
  ⟨fun ⟨candidate, hop, _⟩ => h candidate hop, fun ⟨candidate, hop, _⟩ => h candidate hop⟩

end Runs

/-- In every run with distinct candidate ids and reconcile at most as its first call, on either path and with
whatever failures: the audit holds after every call exactly if no call deploys a rule straight from its
submission and none takes the id of an adopted rule. -/
theorem audit_trail_iff (config : PirewallConfig) (backend : FakeFirewallBackend)
    (store : Option AllowlistStore) (sets : Option FakeSetBackend) (calls : List (Env × ManagerOp))
    (hdistinct : (candidateIds calls).Nodup) (hfirst : ∀ call ∈ calls.tail, call.2 ≠ .reconcile) :
    Along step AuditKept (init config backend store sets) calls ↔
      Along step (fun m call => ¬ DeploysUnapproved m call ∧ ¬ TakesAdoptedId m call)
        (init config backend store sets) calls := by
  have hkeyed := keyed_init config backend store sets
  have hids := filedId_along (P := IsReconciledId) hdistinct (.inr fun _ _ h => h) hkeyed
    (fun _ _ hmem => absurd hmem List.not_mem_nil)
  have hfree : Along step (fun m call => call.2 = .reconcile → NothingAdopted m)
      (init config backend store sets) calls := by
    cases calls with
    | nil => trivial
    | cons call calls =>
      -- the first call finds no rules, and no later one is reconcile
      refine ⟨fun _ setName _ key => by simp [init], .of_forall ?_ _⟩
      exact fun later hlater _ hop => absurd hop (hfirst later hlater)
  refine Along.iff_of_invariant (I := Auditable) (fun m call h horder => step_auditKept_iff h horder)
    (fun m call h horder hgood => h.step horder hgood.1 hgood.2) (hids.and hfree) ⟨hkeyed, ?_, ?_⟩
  · exact fun _ _ hrule => absurd hrule (by simp [init])
  · exact .nil _

/-- A restart on an empty kernel, and a BLOCK that is reviewed, approved and disabled. -/
def reviewedCalls : List (Env × ManagerOp) :=
  [(siteEnv 0, .reconcile),
   siteDecision,
   (siteEnv 0, .submitCandidate (siteCandidate "held" .block 9 (seconds 600))),
   (siteEnv (seconds 60), .approvePending "held"),
   (siteEnv (seconds 120), .disableRule "held")]

/-- The trail of the reviewed rule is its lifecycle, with an element in the kernel and with a rule in the v1
backend. -/
theorem audit_trail_iff_reviewedCalls :
    (∀ sets ∈ [some siteKernel, none], Along step AuditKept (siteManager .assisted sets) reviewedCalls) ∧
    ∀ sets ∈ [some siteKernel, none], ((siteManager .assisted sets).run reviewedCalls).transitions.map
      (fun t => (t.fromStatus, t.toStatus)) =
        [(none, .validating), (some .validating, .pendingApproval), (some .pendingApproval, .approved),
         (some .approved, .deployed), (some .deployed, .active), (some .active, .disabled)] := by
  have hheld : ∀ sets ∈ [some siteKernel, none],
      ((siteManager .assisted sets).run (reviewedCalls.take 2)).deploysAtOnce
        (siteCandidate "held" .block 9 (seconds 600)) = false ∧
      ((siteManager .assisted sets).run (reviewedCalls.take 2)).rules.keys = [] := by
    decide +kernel
  refine ⟨?_, by decide +kernel⟩
  intro sets hsets
  obtain ⟨honce, hkeys⟩ := hheld sets hsets
  refine (audit_trail_iff (siteConfig .assisted) siteBackend none sets reviewedCalls (by decide)
    (by simp [reviewedCalls, siteDecision])).mpr ?_
  refine ⟨no_fault_of_not_submission (by simp), no_fault_of_not_submission (by simp [siteDecision]), ⟨?_, ?_⟩,
    no_fault_of_not_submission (by simp), no_fault_of_not_submission (by simp), trivial⟩
  · rintro ⟨candidate, hop, hdeploys, _⟩
    obtain rfl := ManagerOp.submitCandidate.inj hop
    exact absurd (hdeploys.symm.trans honce) (by simp)
  · rintro ⟨candidate, hop, _, _, hfiled⟩
    obtain rfl := ManagerOp.submitCandidate.inj hop
    exact absurd (hkeys ▸ hfiled) List.not_mem_nil

/-- A BLOCK submitted in ACTIVE mode. -/
def directCalls : List (Env × ManagerOp) :=
  [siteDecision, (siteEnv 0, .submitCandidate (siteCandidate "direct" .block 9 (seconds 600)))]

/-- A restart that adopts an element, and a candidate under the id it was adopted under. -/
def restartedCalls : List (Env × ManagerOp) :=
  [(siteEnv 0, .reconcile),
   siteDecision,
   (siteEnv 0, .submitCandidate (siteCandidate "reconciled:block4:10.0.0.9" .block 8 (seconds 600)))]

/-- The BLOCK goes from VALIDATING to DEPLOYED, on both paths, which no diagram has; and in SHADOW mode the
adopted rule's trail starts from nothing twice. -/
theorem audit_trail_breaks :
    (∀ calls ∈ [directCalls, restartedCalls], (candidateIds calls).Nodup ∧
      ∀ call ∈ calls.tail, call.2 ≠ .reconcile) ∧
    (∀ sets ∈ [some siteKernel, none], ¬ Along step AuditKept (siteManager .active sets) directCalls) ∧
    ¬ Along step AuditKept (siteManager .shadow (some blockedKernel)) restartedCalls := by
  have hskips : ∀ sets ∈ [some siteKernel, none],
      ((siteManager .active sets).run directCalls).transitions.any
        (fun t => t.fromStatus == some .validating && t.toStatus == .deployed) = true := by
    decide +kernel
  have hrestarts : ¬ (((siteManager .shadow (some blockedKernel)).run restartedCalls).trailOf
      "reconciled:block4:10.0.0.9").IsChain (fun t t' => t'.fromStatus = some t.toStatus) := by
    decide +kernel
  refine ⟨by simp [-Prod.forall, candidateIds, candidateId, directCalls, restartedCalls, siteDecision], ?_, ?_⟩
  · intro sets hsets hkept
    obtain ⟨t, ht, hskip⟩ := List.any_eq_true.mp (hskips sets hsets)
    simp only [Bool.and_eq_true, beq_iff_eq] at hskip
    have haudited : Audited ((siteManager .active sets).run directCalls) := hkept.2.1.1
    have hedge := haudited.edges t ht
    rw [hskip.1, hskip.2] at hedge
    simp [documentedEdges] at hedge
  · intro hkept
    have haudited : Audited ((siteManager .shadow (some blockedKernel)).run restartedCalls) := hkept.2.2.1.1
    exact hrestarts (haudited.linked _)

end FirewallManager

end Pirewall
