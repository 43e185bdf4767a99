/-
# Pirewall.Firewall.Manager -- the single orchestrator of the rule lifecycle

`firewall/manager.py`, both paths. Without a set backend (v1) a rule is deployed to the rule backend;
with one (v2) a validated rule becomes one element of an adaptive set, an upgrade is one atomic delete
and add, the kill switch flushes, panic deletes the tables and reconcile rebuilds rule state from what
the kernel holds. The same manager writes the anti-spoof bindings and the allowlist's meter exemption.

A method that may raise returns `Except String`; the text is the exception's. What the code reads from
outside on each call (the clock, the binding table behind `mac_resolver`, the host's own addresses) is
an `Env`. The kernel's clock is the operation's `now`. Of the read-only views only those the portal asks
for are here; the portal's own grants are modelled beside its sessions.
-/
import Pirewall.Firewall.FakeSets
import Pirewall.Firewall.Validator

namespace Pirewall

open Lib NftNames

/-! ## The v1 rule backend -/

/-- `FakeFirewallBackend`, with `faults` scripting `fail_on_apply` and `fail_on_remove` call by call. -/
structure FakeFirewallBackend where
  deployedRules : Dict String FirewallRule
  applyCalls : Nat
  removeCalls : Nat
  faults : List Bool

namespace FakeFirewallBackend

/-- `apply_rule`. -/
def applyRule (b : FakeFirewallBackend) (rule : FirewallRule) :
    Except String Unit × FakeFirewallBackend :=
  let failed := b.faults.head? = some true
  let b := { b with applyCalls := b.applyCalls + 1, faults := b.faults.tail }
  if failed then (.error ("simulated apply failure for rule " ++ rule.id), b)
  else (.ok (), { b with deployedRules := b.deployedRules.set rule.id rule })

/-- `remove_rule`. -/
def removeRule (b : FakeFirewallBackend) (ruleId : String) :
    Except String Unit × FakeFirewallBackend :=
  let failed := b.faults.head? = some true
  let b := { b with removeCalls := b.removeCalls + 1, faults := b.faults.tail }
  if failed then (.error ("simulated remove failure for rule " ++ ruleId), b)
  else (.ok (), { b with deployedRules := b.deployedRules.erase ruleId })

end FakeFirewallBackend

/-! ## The persistent allowlist -/

/-- `AllowlistStore`: the entries added at runtime, in memory and on disk, with scripted write
failures. -/
structure AllowlistStore where
  entries : Dict String AllowlistEntry
  file : List AllowlistEntry
  faults : List Bool

namespace AllowlistStore

/-- `list_entries`: id-sorted. -/
def listEntries (s : AllowlistStore) : List AllowlistEntry :=
  s.entries.values.insertionSort fun x y => x.id ≤ y.id

/-- `_persist`: the whole file is replaced, or it stays as it was. -/
def persist (s : AllowlistStore) : Except String Unit × AllowlistStore :=
  let failed := s.faults.head? = some true
  let s := { s with faults := s.faults.tail }
  if failed then (.error "could not write allowlist store", s)
  else (.ok (), { s with file := s.listEntries })

/-- `add`. -/
def add (s : AllowlistStore) (entry : AllowlistEntry) : Except String Unit × AllowlistStore :=
  persist { s with entries := s.entries.set entry.id entry }

/-- `remove`. -/
def remove (s : AllowlistStore) (entryId : String) : Except String Bool × AllowlistStore :=
  if s.entries.contains entryId then
    match persist { s with entries := s.entries.erase entryId } with
    | (.error e, s) => (.error e, s)
    | (.ok (), s) => (.ok true, s)
  else (.ok false, s)

end AllowlistStore

/-! ## State -/

/-- One lifecycle transition, for the audit trail. -/
structure RuleTransition where
  ruleId : String
  fromStatus : Option RuleStatus
  toStatus : RuleStatus
  atTime : Time
  reason : String
  deriving DecidableEq

/-- What happened when a candidate was submitted. -/
structure SubmissionResult where
  rule : Option FirewallRule
  event : SecurityEvent

/-- What `reconcile` found in the kernel. -/
structure ReconcileReport where
  adopted : List String := []
  retired : List String := []
  unattributed : List (String × String) := []
  missingTables : List (String × String) := []

/-- What `panic` did. -/
structure PanicResult where
  deletedTables : List String
  restoreCommand : String
  actor : String
  performedAt : Time

/-- What one call reads from outside the manager. -/
structure Env where
  now : Time
  /-- `mac_resolver`, constantly `none` when the manager has none. -/
  resolveMac : IPv4Address → Option Mac
  /-- `local_addresses`, or the kernel's own table. -/
  localAddresses : LocalAddresses

structure FirewallManager where
  config : PirewallConfig
  backend : FakeFirewallBackend
  sets : Option FakeSetBackend
  targets : Dict String RuleTarget
  rules : Dict String FirewallRule
  knownDecisionIds : List String
  transitions : List RuleTransition
  rateLimiter : RuleCreationRateLimiter
  enforcementMode : EnforcementMode
  allowlistStore : Option AllowlistStore
  allowlist : List AllowlistEntry

def managerSubsystem : String := "firewall.manager"

/-- Rule metadata keys recording where a v2 rule's element lives. -/
def metaSet : String := "v2_set"
def metaKey : String := "v2_key"
def reconciledPrefix : String := "reconciled"
def restoreCommand : String := "sudo pirewall-start"

/-- `_ACTION_FOR_SET`. -/
def actionForSet (setName : String) : FirewallAction :=
  if setName = setBlockMac ∨ setName = setBlock4 then .block else .rateLimit

def ipKeyedSets : List String := [setBlock4, setRatelimit4]

/-- Where the binding pairs live: the inet guard table and its arp companion. -/
def bindingTables : List (String × String) := [(inetFamily, staticTable), (arpFamily, staticArpTable)]

/-- Both copies of the allowlist pairs. -/
def allowBoundTables : List String := [staticTable, adaptiveTable]

/-- `ALL_OBSERVE`. -/
def allObserve : List (GuardName × GuardMode) :=
  [(.raw, .observe), (.input, .observe), (.forward, .observe)]

/-! ## Set ops -/

/-- `_element_of`: where a rule's element lives, from its metadata. -/
def elementOf (rule : FirewallRule) : Option (String × ElementKey) :=
  match rule.metadata.get? metaSet, rule.metadata.get? metaKey with
  | some setName, some key => some (setName, .one key)
  | _, _ => none

/-- `_delete_ops`. -/
def deleteOps (rule : FirewallRule) : List SetOp :=
  match elementOf rule with
  | none => []
  | some (setName, key) => [{ kind := .delete, setName, key }]

/-- `_binding_ops`: one binding's elements in both binding tables. -/
def bindingOps (kind : SetOpKind) (binding : Binding) (timeout : Option Int) : List SetOp :=
  let ip := IPv4Address.str binding.ip
  bindingTables.flatMap fun (family, table) =>
    [{ kind, setName := setBound4, key := .one ip, timeoutSeconds := timeout, table, family },
     { kind, setName := setMacbind, key := .pair ip binding.mac.text, timeoutSeconds := timeout, table,
       family }]

/-- `_allow_bound_pair`: the `allow_bound` key (MAC . IP) an entry pins. -/
def allowBoundPair (entry : AllowlistEntry) : Option (String × String) :=
  match entry.mac with
  | none => none
  | some mac =>
    if entry.target.prefixlen ≠ 32 then none
    else some (mac.text, IPv4Address.str entry.target.networkAddress)

/-- `_allow_bound_ops`. -/
def allowBoundOps (kind : SetOpKind) (pair : String × String) : List SetOp :=
  allowBoundTables.map fun table =>
    { kind, setName := setAllowBound, key := .pair pair.1 pair.2, table }

/-- The addition a rule makes on the set path, with the metadata that records it. -/
def elementAddition (rule : FirewallRule) (target : RuleTarget) (now : Time) (maxTtlSeconds : Nat) :
    Except String (List SetOp × Metadata) :=
  match enforcementSetFor rule.action target with
  | none => .ok ([], rule.metadata)
  | some setName =>
    match elementKey setName target, rule.expiresAt with
    | .error e, _ => .error e
    | .ok _, none => .error "AssertionError"
    | .ok key, some expiresAt =>
      .ok ([{ kind := .add, setName, key := .one key,
              timeoutSeconds := some (elementTimeoutSeconds expiresAt now maxTtlSeconds) }],
           (rule.metadata.set metaSet setName).set metaKey key)

/-! ## Candidates to rules -/

/-- The VALIDATING rule a candidate becomes, against `target`. -/
def CandidateRule.toRule (candidate : CandidateRule) (priority : Int) (target : Option RuleTarget)
    (h : ∀ t, target = some t → candidate.source = IPv4Network.host t.ip) : FirewallRule where
  toRuleFields := { candidate.toRuleFields with target := target, target_is_source := h }
  id := candidate.id
  priority := priority
  status := .validating
  createdAt := candidate.createdAt
  expiresAt := candidate.expiresAt
  deployedAt := none

/-- The rule as it stands once deployed at `now`. -/
def FirewallRule.activated (rule : FirewallRule) (now : Time) (metadata : Metadata) : FirewallRule :=
  { rule with
    toRuleFields := { rule.toRuleFields with metadata := metadata }
    status := .active
    deployedAt := some now }

namespace FirewallManager

/-- `_record`. -/
def record (m : FirewallManager) (ruleId : String) (fromStatus : Option RuleStatus)
    (toStatus : RuleStatus) (atTime : Time) (reason : String) : FirewallManager :=
  { m with transitions := m.transitions ++ [⟨ruleId, fromStatus, toStatus, atTime, reason⟩] }

/-- `self._rules[rule_id] = rule`. -/
def setRule (m : FirewallManager) (ruleId : String) (rule : FirewallRule) : FirewallManager :=
  { m with rules := m.rules.set ruleId rule }

/-- `active_rules`. -/
def activeRules (m : FirewallManager) : List FirewallRule :=
  m.rules.values.filter fun rule => rule.status == .active

/-- `_active_targets`. -/
def activeTargets (m : FirewallManager) : List ActiveTarget :=
  m.activeRules.filterMap fun rule => (m.targets.get? rule.id).map fun target => ⟨rule, target⟩

/-- `rules_targeting`: the restrictive rules a side of which names LAN addresses and covers the client. -/
def rulesTargeting (rules : List FirewallRule) (clientIp : IPv4Address) (protectedNetwork : IPv4Network) :
    List FirewallRule :=
  let targets (network : IPv4Network) : Bool := network.contains clientIp && network.subnetOf protectedNetwork
  rules.filter fun rule => rule.action.restrictive && (targets rule.source || targets rule.destination)

/-- `_element_restricts`: a rule with an element restricts what the element keys. -/
def elementRestricts (m : FirewallManager) (rule : FirewallRule) (clientIp : IPv4Address)
    (clientMac : Option Mac) : Bool :=
  match elementOf rule with
  | none => !(rulesTargeting [rule] clientIp m.config.network.protectedNetwork).isEmpty
  | some (setName, key) =>
    if ipKeyedSets.contains setName then key == .one (IPv4Address.str clientIp)
    else
      match clientMac with
      | some mac => key == .one mac.text
      | none => (m.targets.get? rule.id).any fun target => target.ip == clientIp

/-- `restrictive_rules_matching`. -/
def restrictiveRulesMatching (m : FirewallManager) (resolveMac : IPv4Address → Option Mac)
    (clientIp : IPv4Address) : List FirewallRule :=
  if m.sets.isNone then rulesTargeting m.activeRules clientIp m.config.network.protectedNetwork
  else
    m.activeRules.filter fun rule =>
      rule.action.restrictive && m.elementRestricts rule clientIp (resolveMac clientIp)

/-- `blocking_rules_matching`: the active BLOCK rules that cut off the device at `clientIp`. -/
def blockingRulesMatching (m : FirewallManager) (resolveMac : IPv4Address → Option Mac)
    (clientIp : IPv4Address) : List FirewallRule :=
  (m.restrictiveRulesMatching resolveMac clientIp).filter fun rule => rule.action == .block

/-- `_bound_mac_of`. -/
def boundMacOf (env : Env) (rule : RuleFields) : Option Mac :=
  if rule.source.prefixlen ≠ 32 then none else env.resolveMac rule.source.networkAddress

/-- `_target_for`: the candidate's own target MAC, else the binding's. -/
def targetFor (m : FirewallManager) (env : Env) (rule : RuleFields) : Option RuleTarget :=
  let mac := (rule.target.bind RuleTarget.mac).or (boundMacOf env rule)
  deviceTarget rule m.config.network.protectedNetwork mac

/-- The device a candidate is filed against is its source. -/
theorem targetFor_source {m : FirewallManager} {env : Env} {candidate : CandidateRule} {target : RuleTarget}
    (htarget : m.targetFor env candidate.toRuleFields = some target) :
    ∀ t, some target = some t → candidate.source = IPv4Network.host t.ip :=
  fun _ h => Option.some.inj h ▸ deviceTarget_source htarget

/-- `_needs_review`. -/
def needsReview (m : FirewallManager) (candidate : CandidateRule) : Bool :=
  candidate.action == .block
    && decide (m.config.firewall.assistedReviewThreshold ≤ candidate.threatScore.getD 0)

/-! ## Deploying -/

/-- `_shadow`. -/
def shadow (m : FirewallManager) (rule : FirewallRule) (now : Time) :
    SubmissionResult × FirewallManager :=
  let shadowed := { rule with status := .shadowed }
  let m := (m.setRule rule.id shadowed).record rule.id (some .validating) .shadowed now "shadow mode"
  (⟨some shadowed,
    { timestamp := now, severity := .info, eventType := .ruleCreated, subsystem := managerSubsystem,
      ruleId := some rule.id, threatScore := rule.threatScore, decision := some rule.action,
      reason := some ("[shadow mode] would have " ++ rule.action.value ++ "ed this traffic") }⟩, m)

/-- `_hold_for_approval`. -/
def holdForApproval (m : FirewallManager) (rule : FirewallRule) (now : Time) :
    SubmissionResult × FirewallManager :=
  let pending := { rule with status := .pendingApproval }
  let m := (m.setRule rule.id pending).record rule.id (some .validating) .pendingApproval now
    "assisted mode review"
  (⟨some pending,
    { timestamp := now, severity := .warning, eventType := .ruleCreated, subsystem := managerSubsystem,
      ruleId := some rule.id, threatScore := rule.threatScore, decision := some rule.action,
      reason := some "pending human approval (assisted mode, high-confidence BLOCK)" }⟩, m)

/-- A deployment the backend refused: the rule is REJECTED, and the refusal reported. -/
def deployFailed (m : FirewallManager) (rule : FirewallRule) (now : Time) (severity : EventSeverity)
    (error : String) : SubmissionResult × FirewallManager :=
  let failed := { rule with status := .rejected }
  let m := (m.setRule rule.id failed).record rule.id (some rule.status) .rejected now
    ("deploy failed: " ++ error)
  (⟨some failed,
    { timestamp := now, severity, eventType := .firewallError, subsystem := managerSubsystem,
      ruleId := some rule.id, reason := some error }⟩, m)

/-- A deployment that went through: the rule is ACTIVE from now on. -/
def deployed (m : FirewallManager) (rule : FirewallRule) (now : Time) (metadata : Metadata)
    (how reason : String) : SubmissionResult × FirewallManager :=
  let active := rule.activated now metadata
  let m := m.setRule rule.id active
  let m := m.record rule.id (some rule.status) .deployed now how
  let m := m.record rule.id (some .deployed) .active now "active"
  let isBlock := rule.action == .block
  (⟨some active,
    { timestamp := now, severity := if isBlock then .warning else .info,
      eventType := if isBlock then .firewallBlock else .ruleDeployed, subsystem := managerSubsystem,
      ruleId := some rule.id, threatScore := rule.threatScore, decision := some rule.action,
      reason := some reason }⟩, m)

/-- `_deploy`: the v1 path. -/
def deploy (m : FirewallManager) (rule : FirewallRule) (now : Time) :
    SubmissionResult × FirewallManager :=
  match m.backend.applyRule rule with
  | (.error e, backend) => { m with backend }.deployFailed rule now .error e
  | (.ok (), backend) =>
    { m with backend }.deployed rule now rule.metadata "deployed to backend" rule.reason

/-- The rule an upgrade supersedes is REMOVED. -/
def supersede (m : FirewallManager) (replaced : Option FirewallRule) (ruleId : String) (now : Time) :
    FirewallManager :=
  match replaced with
  | none => m
  | some old =>
    (m.setRule old.id { old with status := .removed }).record old.id (some .active) .removed now
      ("upgraded to BLOCK by rule " ++ ruleId)

/-- `_deploy_to_sets`: one atomic batch, the superseded element's deletion and the new addition. -/
def deployToSets (m : FirewallManager) (sets : FakeSetBackend) (rule : FirewallRule) (now : Time)
    (upgradeOf : Option String) : Except String SubmissionResult × FirewallManager :=
  match m.targets.get? rule.id with
  | none => (.error ("KeyError: " ++ rule.id), m)
  | some target =>
    let superseded := upgradeOf.bind m.rules.get?
    let replaced := superseded.filter fun old => old.status == .active
    match elementAddition rule target now m.config.policy.maxTtlSeconds with
    | .error e => (.error e, m)
    | .ok (additions, metadata) =>
      let deletions := (replaced.map deleteOps).getD []
      match sets.apply (deletions ++ additions) now with
      | (.error e, sets) =>
        let (result, m) := { m with sets := some sets }.deployFailed rule now .critical e
        (.ok result, m)
      | (.ok (), sets) =>
        let m := { m with sets := some sets }.supersede replaced rule.id now
        let how := "element added to " ++ (enforcementSetFor rule.action target).getD "None"
        let reason :=
          if superseded.isNone then rule.reason else rule.reason ++ " (upgraded from RATE_LIMIT)"
        let (result, m) := m.deployed rule now metadata how reason
        (.ok result, m)

/-! ## Submission and approval -/

/-- A candidate the chain refused. -/
def rejection (candidate : CandidateRule) (now : Time) (reason : String) : SubmissionResult :=
  ⟨none,
    { timestamp := now, severity := .info, eventType := .ruleRejected, subsystem := managerSubsystem,
      ruleId := some candidate.id, threatScore := candidate.threatScore,
      decision := some candidate.action, reason := some reason }⟩

def rejectionText (r : ValidationRejection) : String := r.stage ++ ":" ++ r.reason.value

/-- `_submit_to_sets`: the v2 path. -/
def submitToSets (m : FirewallManager) (env : Env) (sets : FakeSetBackend) (candidate : CandidateRule) :
    Except String SubmissionResult × FirewallManager :=
  let (outcome, rateLimiter) := validateSetCandidate candidate (m.targetFor env candidate.toRuleFields)
    m.config m.knownDecisionIds m.activeTargets m.allowlist m.rateLimiter env.now env.localAddresses
  match outcome, htarget : m.targetFor env candidate.toRuleFields with
  | .error r, _ => (.ok (rejection candidate env.now (rejectionText r)), { m with rateLimiter })
  | .ok _, none => (.ok (rejection candidate env.now "unknown"), { m with rateLimiter })
  | .ok upgradeOf, some target =>
    let rule := candidate.toRule (assignPriority candidate.threatScore) (some target)
      (targetFor_source htarget)
    let m := { m with
      rateLimiter := rateLimiter.record env.now
      targets := m.targets.set rule.id target }
    let m := m.record rule.id none .validating env.now "passed the v2 validation chain"
    match m.enforcementMode with
    | .shadow =>
      let (result, m) := m.shadow rule env.now
      (.ok result, m)
    | .assisted =>
      if m.needsReview candidate then
        let (result, m) := m.holdForApproval rule env.now
        (.ok result, m)
      else m.deployToSets sets rule env.now upgradeOf
    | .active => m.deployToSets sets rule env.now upgradeOf

/-- The v1 path of `submit_candidate`. -/
def submitToBackend (m : FirewallManager) (env : Env) (candidate : CandidateRule) :
    SubmissionResult × FirewallManager :=
  match validateCandidateRule candidate m.config m.knownDecisionIds m.activeRules m.allowlist
      m.rateLimiter env.now env.localAddresses (boundMacOf env candidate.toRuleFields) with
  | (.error r, rateLimiter) =>
    (rejection candidate env.now (rejectionText r), { m with rateLimiter })
  | (.ok priority, rateLimiter) =>
    let rule := candidate.toRule priority candidate.target candidate.target_is_source
    let m := { m with rateLimiter := rateLimiter.record env.now }
    let m := m.record rule.id none .validating env.now "passed full validation chain"
    match m.enforcementMode with
    | .shadow => m.shadow rule env.now
    | .assisted =>
      if m.needsReview candidate then m.holdForApproval rule env.now else m.deploy rule env.now
    | .active => m.deploy rule env.now

/-- `submit_candidate`. -/
def submitCandidate (m : FirewallManager) (env : Env) (candidate : CandidateRule) :
    Except String SubmissionResult × FirewallManager :=
  match m.sets with
  | some sets => m.submitToSets env sets candidate
  | none =>
    let (result, m) := m.submitToBackend env candidate
    (.ok result, m)

/-- `register_decision`. -/
def registerDecision (m : FirewallManager) (decision : FirewallDecision) : FirewallManager :=
  { m with knownDecisionIds := decision.id :: m.knownDecisionIds }

/-- `_rate_limit_to_upgrade`: for a BLOCK approved later, the ACTIVE RATE_LIMIT on the same device. -/
def rateLimitToUpgrade (m : FirewallManager) (rule : FirewallRule) : Option String :=
  match m.targets.get? rule.id with
  | none => none
  | some target =>
    if rule.action ≠ .block then none
    else
      (m.activeTargets.find? fun entry =>
        entry.rule.action == .rateLimit && sameDevice entry.target target).map fun entry =>
          entry.rule.id

/-- `approve_pending`. -/
def approvePending (m : FirewallManager) (ruleId : String) (now : Time) :
    Except String (Option SubmissionResult) × FirewallManager :=
  match m.rules.get? ruleId with
  | none => (.ok none, m)
  | some rule =>
    if rule.status ≠ .pendingApproval then (.ok none, m)
    else
      let approved := { rule with status := .approved }
      let m := m.record ruleId (some .pendingApproval) .approved now "approved by administrator"
      match m.sets with
      | some sets =>
        match m.deployToSets sets approved now (m.rateLimitToUpgrade approved) with
        | (.error e, m) => (.error e, m)
        | (.ok result, m) => (.ok (some result), m)
      | none =>
        let (result, m) := m.deploy approved now
        (.ok (some result), m)

/-- `reject_pending`. -/
def rejectPending (m : FirewallManager) (ruleId : String) (now : Time) :
    Option FirewallRule × FirewallManager :=
  match m.rules.get? ruleId with
  | none => (none, m)
  | some rule =>
    if rule.status ≠ .pendingApproval then (none, m)
    else
      let rejected := { rule with status := .rejected }
      (some rejected, (m.setRule ruleId rejected).record ruleId (some .pendingApproval) .rejected now
        "rejected by administrator")

/-! ## Retirement -/

/-- The kernel side of retiring a rule; a failure is suppressed. -/
def withdraw (m : FirewallManager) (ruleId : String) (rule : FirewallRule) (now : Time) :
    FirewallManager :=
  match m.sets with
  | some sets => { m with sets := some (sets.apply (deleteOps rule) now).2 }
  | none => { m with backend := (m.backend.removeRule ruleId).2 }

/-- `_retire_rule`. -/
def retireRule (m : FirewallManager) (ruleId : String) (toStatus : RuleStatus) (now : Time)
    (reason : String) : Option FirewallRule × FirewallManager :=
  match m.rules.get? ruleId with
  | none => (none, m)
  | some rule =>
    if rule.status ≠ .active then (none, m)
    else
      let updated := { rule with status := toStatus }
      (some updated, ((m.withdraw ruleId rule now).setRule ruleId updated).record ruleId (some .active)
        toStatus now reason)

/-- `disable_rule`. -/
def disableRule (m : FirewallManager) (ruleId : String) (now : Time) :
    Option FirewallRule × FirewallManager :=
  m.retireRule ruleId .disabled now "disabled by administrator"

/-- `remove_rule`. -/
def removeRule (m : FirewallManager) (ruleId : String) (now : Time) :
    Option FirewallRule × FirewallManager :=
  m.retireRule ruleId .removed now "removed by administrator"

/-- Whether `expire_rules` retires a rule. -/
def isExpired (rule : FirewallRule) (now : Time) : Bool :=
  rule.status == .active && rule.expiresAt.any fun expiresAt => decide (expiresAt ≤ now)

/-- `expire_rules`. -/
def expireRules (m : FirewallManager) (now : Time) : List FirewallRule × FirewallManager :=
  m.rules.values.foldl
    (fun (expired, m) rule =>
      if isExpired rule now then
        let (retired, m) := m.retireRule rule.id .expired now "rule TTL elapsed"
        (expired ++ retired.toList, m)
      else (expired, m))
    ([], m)

/-- `_retire_all_active`: every ACTIVE rule to REMOVED, without touching the kernel. -/
def retireAllActive (m : FirewallManager) (now : Time) (reason : String) : Nat × FirewallManager :=
  m.rules.values.foldl
    (fun (removed, m) rule =>
      if rule.status == .active then
        (removed + 1, (m.setRule rule.id { rule with status := .removed }).record rule.id (some .active)
          .removed now reason)
      else (removed, m))
    (0, m)

/-- `_kill_switch_sets`: SHADOW, the enforcement sets flushed, every guard to observe. -/
def killSwitchSets (m : FirewallManager) (sets : FakeSetBackend) (now : Time) :
    SecurityEvent × FirewallManager :=
  let m := { m with enforcementMode := .shadow }
  let (flushed, sets) := sets.flushSets adaptiveEnforcementSets
  let (guarded, sets) := sets.setGuardModes allObserve
  let problems :=
    (match flushed with | .error e => ["flushing the adaptive sets failed: " ++ e] | .ok () => [])
    ++ (match guarded with | .error e => ["setting the guards to observe failed: " ++ e] | .ok () => [])
  let (removed, m) := { m with sets := some sets }.retireAllActive now "kill-switch"
  let reason := "kill-switch activated: " ++ toString removed
    ++ " active rule(s) reverted, adaptive sets flushed, every static guard set to observe, "
    ++ "mode set to SHADOW"
  ({ timestamp := now, severity := if problems = [] then .warning else .critical,
     eventType := .systemWarning, subsystem := managerSubsystem,
     reason := some (if problems = [] then reason else reason ++ "; " ++ "; ".intercalate problems) }, m)

/-- The v1 kill switch: SHADOW, then every ACTIVE rule taken off the backend. -/
def revertBackend (m : FirewallManager) (now : Time) : SecurityEvent × FirewallManager :=
  let m := { m with enforcementMode := .shadow }
  let (removed, m) := m.rules.values.foldl
    (fun ((removed, m) : Nat × FirewallManager) rule =>
      if rule.status == .active then
        let m := { m with backend := (m.backend.removeRule rule.id).2 }
        (removed + 1, (m.setRule rule.id { rule with status := .removed }).record rule.id (some .active)
          .removed now "kill-switch")
      else (removed, m))
    (0, m)
  ({ timestamp := now, severity := .warning, eventType := .systemWarning, subsystem := managerSubsystem,
     reason := some ("kill-switch activated: " ++ toString removed
       ++ " active rule(s) reverted, mode set to SHADOW") }, m)

/-- `revert_to_base`. -/
def revertToBase (m : FirewallManager) (now : Time) : SecurityEvent × FirewallManager :=
  match m.sets with
  | some sets => m.killSwitchSets sets now
  | none => m.revertBackend now

/-- `fail_open_shutdown`. -/
def failOpenShutdown (m : FirewallManager) (now : Time) : SecurityEvent × FirewallManager :=
  match m.sets with
  | none => m.revertToBase now
  | some sets =>
    let (flushed, sets) := sets.flushSets adaptiveEnforcementSets
    let problem :=
      match flushed with | .error e => "; flushing the adaptive sets failed: " ++ e | .ok () => ""
    let (removed, m) := { m with sets := some sets }.retireAllActive now "fail-open shutdown"
    ({ timestamp := now, severity := if problem = "" then .info else .error,
       eventType := .systemWarning, subsystem := managerSubsystem,
       reason := some ("fail-open shutdown: " ++ toString removed
         ++ " adaptive rule(s) removed; static guards left as they were" ++ problem) }, m)

/-- `panic`: the v2 tables deleted, SHADOW, every rule REMOVED. -/
def panic (m : FirewallManager) (actor : String) (now : Time) :
    Except String (PanicResult × SecurityEvent) × FirewallManager :=
  match m.sets with
  | none => (.error "panic needs the v2 set backend", m)
  | some sets =>
    match sets.panic with
    | (.error e, sets) => (.error e, { m with sets := some sets })
    | (.ok deleted, sets) =>
      let (removed, m) := { m with sets := some sets, enforcementMode := .shadow }.retireAllActive now
        ("panic by " ++ actor)
      let deletedTables := deleted.map fun (family, table) => family ++ " " ++ table
      (.ok (⟨deletedTables, restoreCommand, actor, now⟩,
        { timestamp := now, severity := .critical, eventType := .systemWarning,
          subsystem := managerSubsystem,
          reason := some ("panic by " ++ actor ++ ": deleted " ++ ", ".intercalate deletedTables
            ++ "; " ++ toString removed ++ " rule(s) removed; mode SHADOW. Restore with: "
            ++ restoreCommand) }), m)

/-- `set_guard_mode`. -/
def setGuardMode (m : FirewallManager) (guard : GuardName) (mode : GuardMode) (actor : String)
    (now : Time) : Except String SecurityEvent × FirewallManager :=
  match m.sets with
  | none => (.error "guard modes need the v2 set backend", m)
  | some sets =>
    match sets.setGuardModes [(guard, mode)] with
    | (.error e, sets) => (.error e, { m with sets := some sets })
    | (.ok (), sets) =>
      (.ok { timestamp := now, severity := .warning, eventType := .systemWarning,
             subsystem := managerSubsystem,
             reason := some ("guard " ++ guard.value ++ " set to " ++ mode.value ++ " by " ++ actor) },
       { m with sets := some sets })

/-! ## Reconciling with the kernel -/

/-- `missing_tables`. -/
def missingTables (m : FirewallManager) : List (String × String) :=
  match m.sets with
  | none => []
  | some sets => panicTables.filter fun location => !sets.tableExists location

/-- The live elements of some adaptive sets, set by set, and the sets after listing them. -/
def listLive (sets : FakeSetBackend) (now : Time) :
    List String → Except String (List ((String × ElementKey) × Option Int)) × FakeSetBackend
  | [] => (.ok [], sets)
  | name :: names =>
    match sets.listSet (adaptiveSet name) now with
    | (.error e, sets) => (.error e, sets)
    | (.ok elements, sets) =>
      match listLive sets now names with
      | (.error e, sets) => (.error e, sets)
      | (.ok rest, sets) =>
        (.ok (elements.map (fun el => ((name, el.key), el.expiresInSeconds)) ++ rest), sets)

/-- The first loop of `reconcile`: an ACTIVE rule whose element is gone is REMOVED. -/
def retireMissing (m : FirewallManager) (live : List (String × ElementKey)) (now : Time) :
    List String × FirewallManager :=
  m.activeRules.foldl
    (fun (retired, m) rule =>
      match elementOf rule with
      | none => (retired, m)
      | some location =>
        if location ∈ live then (retired, m)
        else
          (retired ++ [rule.id],
            (m.setRule rule.id { rule with status := .removed }).record rule.id (some .active) .removed
              now "element not in the kernel at reconcile"))
    ([], m)

/-- The id `_adopt` gives the rule of an element. -/
def reconciledId (setName key : String) : String := reconciledPrefix ++ ":" ++ setName ++ ":" ++ key

/-- The ACTIVE rule `_adopt` files for an IP-keyed element that runs out in `ttl` seconds. -/
def adoptedRule (setName key : String) (ip : IPv4Address) (ttl : Int) (now : Time) : FirewallRule where
  action := actionForSet setName
  direction := .inbound
  source := .host ip
  destination := .wholeInternet
  protocol := .any
  sourcePort := none
  destinationPort := none
  reason := "reconciled from the kernel at startup (" ++ setName ++ " element left by a previous run)"
  threatScore := none
  evidence := []
  metadata := (Dict.empty.set metaSet setName).set metaKey key
  target := none
  target_is_source := fun _ h => nomatch h
  id := reconciledId setName key
  priority := 0
  status := .active
  createdAt := now
  expiresAt := some (now + seconds ttl)
  deployedAt := some now

/-- `_adopt`: take over an element a previous run left. -/
def adopt (m : FirewallManager) (setName key : String) (expiresIn : Option Int) (now : Time) :
    Except String String × FirewallManager :=
  match IPv4Address.ofString? key with
  | none => (.error ("ValueError: " ++ key), m)
  | some ip =>
    let ttl := expiresIn.getD m.config.policy.maxTtlSeconds
    let rule := adoptedRule setName key ip ttl now
    let m := { m.setRule rule.id rule with targets := m.targets.set rule.id ⟨ip, none⟩ }
    (.ok rule.id, m.record rule.id none .active now "reconciled from live set contents")

/-- The second loop of `reconcile`: adopt what is IP-keyed and unknown, report what is MAC-keyed. -/
def adoptUnknown (m : FirewallManager) (known : List (String × ElementKey)) (now : Time) :
    ReconcileReport → List ((String × ElementKey) × Option Int) →
      Except String ReconcileReport × FirewallManager
  | report, [] => (.ok report, m)
  | report, ((setName, key), expiresIn) :: rest =>
    if (setName, key) ∈ known then adoptUnknown m known now report rest
    else
      match key with
      | .pair _ _ =>
        adoptUnknown m known now
          { report with unattributed := report.unattributed ++ [(setName, key.text)] } rest
      | .one text =>
        if setName ∉ ipKeyedSets then
          adoptUnknown m known now
            { report with unattributed := report.unattributed ++ [(setName, text)] } rest
        else
          match m.adopt setName text expiresIn now with
          | (.error e, m) => (.error e, m)
          | (.ok ruleId, m) =>
            adoptUnknown m known now { report with adopted := report.adopted ++ [ruleId] } rest

/-- `sorted(live.items(), key=lambda item: (item[0][0], str(item[0][1])))`. -/
def sortedLive (live : List ((String × ElementKey) × Option Int)) :
    List ((String × ElementKey) × Option Int) :=
  live.insertionSort fun x y =>
    x.1.1 < y.1.1 ∨ (x.1.1 = y.1.1 ∧ x.1.2.text ≤ y.1.2.text)

/-- `reconcile`. -/
def reconcile (m : FirewallManager) (now : Time) : Except String ReconcileReport × FirewallManager :=
  match m.sets with
  | none => (.ok {}, m)
  | some sets =>
    let missing := m.missingTables
    if (inetFamily, adaptiveTable) ∈ missing then (.ok { missingTables := missing }, m)
    else
      match listLive sets now adaptiveEnforcementSets with
      | (.error e, sets) => (.error e, { m with sets := some sets })
      | (.ok live, sets) =>
        let m := { m with sets := some sets }
        let locations := live.map Prod.fst
        let known := (m.activeRules.filterMap elementOf).filter fun location =>
          decide (location ∈ locations)
        let (retired, m) := m.retireMissing locations now
        m.adoptUnknown known now { retired, missingTables := missing } (sortedLive live)

/-! ## Allowlist -/

/-- `_allow_bound_pairs`. -/
def allowBoundPairs (allowlist : List AllowlistEntry) (exclude : Option String) :
    List (String × String) :=
  (allowlist.filter fun entry => some entry.id ≠ exclude).filterMap allowBoundPair

/-- The store's part of an allowlist change, when there is a store. -/
def storing (m : FirewallManager) (f : AllowlistStore → Except String Unit × AllowlistStore) :
    Except String Unit × FirewallManager :=
  match m.allowlistStore with
  | none => (.ok (), m)
  | some store =>
    let (result, store) := f store
    (result, { m with allowlistStore := some store })

/-- `add_allowlist_entry`. -/
def addAllowlistEntry (m : FirewallManager) (entry : AllowlistEntry) (now : Time) :
    Except String Unit × FirewallManager :=
  match { m with allowlist := m.allowlist ++ [entry] }.storing fun store => store.add entry with
  | (.error e, m) => (.error e, m)
  | (.ok (), m) =>
    match allowBoundPair entry, m.sets with
    | some pair, some sets =>
      if pair ∈ allowBoundPairs m.allowlist (some entry.id) then (.ok (), m)
      else
        let (result, sets) := sets.apply (allowBoundOps .add pair) now
        (result, { m with sets := some sets })
    | _, _ => (.ok (), m)

/-- `remove_allowlist_entry`. -/
def removeAllowlistEntry (m : FirewallManager) (entryId : String) (now : Time) :
    Except String Bool × FirewallManager :=
  match m.allowlist.find? fun entry => entry.id == entryId with
  | none => (.ok false, m)
  | some entry =>
    let rest := m.allowlist.eraseP fun entry => entry.id == entryId
    let removal (store : AllowlistStore) : Except String Unit × AllowlistStore :=
      let (result, store) := store.remove entryId
      (result.map fun _ => (), store)
    match { m with allowlist := rest }.storing removal with
    | (.error e, m) => (.error e, m)
    | (.ok (), m) =>
      match allowBoundPair entry, m.sets with
      | some pair, some sets =>
        -- another entry may pin the same pair; the element stays while one does
        if pair ∈ allowBoundPairs m.allowlist none then (.ok true, m)
        else (.ok true, { m with sets := some (sets.apply (allowBoundOps .delete pair) now).2 })
      | _, _ => (.ok true, m)

/-- `sorted(..)` of (MAC, IP) text pairs. -/
def sortedPairs (pairs : List (String × String)) : List (String × String) :=
  pairs.dedup.insertionSort fun x y => x.1 < y.1 ∨ (x.1 = y.1 ∧ x.2 ≤ y.2)

/-- The ops that make one `allow_bound` set hold `wanted`. -/
def allowBoundDiff (table : String) (wanted live : List (String × String)) : List SetOp :=
  let op (kind : SetOpKind) (pair : String × String) : SetOp :=
    { kind, setName := setAllowBound, key := .pair pair.1 pair.2, table }
  (sortedPairs (live.filter (· ∉ wanted))).map (op .delete)
    ++ (sortedPairs (wanted.filter (· ∉ live))).map (op .add)

/-- The ops of `sync_allowlist`, table by table, and the sets after listing them. -/
def allowlistOps (sets : FakeSetBackend) (wanted : List (String × String)) (now : Time) :
    List String → Except String (List SetOp) × FakeSetBackend
  | [] => (.ok [], sets)
  | table :: tables =>
    match sets.listSet ⟨inetFamily, table, setAllowBound⟩ now with
    | (.error e, sets) => (.error e, sets)
    | (.ok elements, sets) =>
      let live := elements.filterMap fun el =>
        match el.key with | .pair mac ip => some (mac, ip) | .one _ => none
      match allowlistOps sets wanted now tables with
      | (.error e, sets) => (.error e, sets)
      | (.ok rest, sets) => (.ok (allowBoundDiff table wanted live ++ rest), sets)

/-- `sync_allowlist`. -/
def syncAllowlist (m : FirewallManager) (now : Time) : Except String Nat × FirewallManager :=
  match m.sets with
  | none => (.ok 0, m)
  | some sets =>
    match allowlistOps sets (allowBoundPairs m.allowlist none) now allowBoundTables with
    | (.error e, sets) => (.error e, { m with sets := some sets })
    | (.ok ops, sets) =>
      let (result, sets) := sets.apply ops now
      (result.map fun _ => ops.length, { m with sets := some sets })

/-! ## Bindings -/

/-- `_binding_timeout`: a lease element outlives its lease by the grace period. -/
def bindingTimeout (m : FirewallManager) (binding : Binding) (now : Time) : Option Int :=
  match binding.source, binding.expiresAt with
  | .lease, some expiresAt =>
    some (max 1 (wholeSeconds (expiresAt - now) + m.config.antispoof.graceSeconds))
  | _, _ => none

/-- `sync_bindings`: one change to the kernel binding sets, removals before additions. `clock` is the
kernel's own time, `now` the caller's. -/
def syncBindings (m : FirewallManager) (change : BindingChange) (now clock : Time) :
    Except String Nat × FirewallManager :=
  match m.sets with
  | none => (.ok 0, m)
  | some sets =>
    if change.removed = [] ∧ change.added = [] then (.ok 0, m)
    else
      let ops := change.removed.flatMap (fun binding => bindingOps .delete binding none)
        ++ change.added.flatMap fun binding => bindingOps .add binding (m.bindingTimeout binding now)
      let (result, sets) := sets.apply ops clock
      (result.map fun _ => ops.length, { m with sets := some sets })

/-- The deletions of what the kernel holds and `wanted` does not, over these binding sets. -/
def staleOps (sets : FakeSetBackend) (wanted : String → ElementKey → Bool) (clock : Time) :
    List SetAddress → Except String (List SetOp) × FakeSetBackend
  | [] => (.ok [], sets)
  | a :: rest =>
    match sets.listSet a clock with
    | (.error e, sets) => (.error e, sets)
    | (.ok elements, sets) =>
      let stale := (elements.map ElementState.key).filter fun key => !wanted a.setName key
      match staleOps sets wanted clock rest with
      | (.error e, sets) => (.error e, sets)
      | (.ok ops, sets) =>
        (.ok (stale.map (fun key =>
          { kind := .delete, setName := a.setName, key, table := a.table, family := a.family }) ++ ops),
         sets)

/-- The binding sets, in the order `replace_bindings` lists them. -/
def bindingSets : List SetAddress :=
  bindingTables.flatMap fun (family, table) => [⟨family, table, setMacbind⟩, ⟨family, table, setBound4⟩]

/-- Whether a binding set's element belongs to one of `bindings`. -/
def isWanted (bindings : List Binding) (setName : String) (key : ElementKey) : Bool :=
  bindings.any fun binding =>
    if setName = setMacbind then key == .pair (IPv4Address.str binding.ip) binding.mac.text
    else key == .one (IPv4Address.str binding.ip)

/-- `replace_bindings`: make the kernel binding sets hold exactly `bindings`. -/
def replaceBindings (m : FirewallManager) (bindings : List Binding) (now clock : Time) :
    Except String Nat × FirewallManager :=
  match m.sets with
  | none => (.ok 0, m)
  | some sets =>
    match staleOps sets (isWanted bindings) clock bindingSets with
    | (.error e, sets) => (.error e, { m with sets := some sets })
    | (.ok stale, sets) =>
      let ops := stale
        ++ bindings.flatMap (fun binding => bindingOps .delete binding none)
        ++ bindings.flatMap fun binding => bindingOps .add binding (m.bindingTimeout binding now)
      let (result, sets) := sets.apply ops clock
      (result.map fun _ => ops.length, { m with sets := some sets })

end FirewallManager

end Pirewall
