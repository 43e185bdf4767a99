/-
# Pirewall.Core.Models -- the domain models and the configuration they are read under

The finite vocabularies (`core/enums.py`), the rule, allowlist, binding and event models
(`core/models/`) and the configuration fields the modelled code reads (`config/models.py`). A model
whose constructor validates carries the validated fact as a field: a rule's target is its `/32`
source, a MAC-pinned allowlist entry names one address, a lease binding has an expiry.

A time is a whole number of microseconds since the epoch, the resolution of `datetime`; scores are
rationals, since the code only ever compares them. The random ids of events are left out.
-/
import Mathlib.Data.Rat.Defs
import Mathlib.Algebra.Order.Ring.Unbundled.Rat
import Pirewall.Core.Net
import Pirewall.Lib.Dict

namespace Pirewall

/-! ## Time -/

/-- An aware `datetime`, in microseconds since the epoch. -/
abbrev Time := Int

/-- `timedelta(seconds=n)`. -/
def seconds (n : Int) : Int := n * 1000000

/-- `int(delta.total_seconds())`: truncation toward zero. -/
def wholeSeconds (delta : Int) : Int := delta.tdiv 1000000

/-! ## Vocabulary -/

inductive FirewallAction where
  | allow | monitor | rateLimit | block
  deriving DecidableEq, Repr

/-- The enum's string value. -/
def FirewallAction.value : FirewallAction → String
  | .allow => "allow"
  | .monitor => "monitor"
  | .rateLimit => "rate_limit"
  | .block => "block"

/-- `_RESTRICTIVE_ACTIONS`: the actions that put an element or a rule in the kernel. -/
def FirewallAction.restrictive (a : FirewallAction) : Bool := a == .block || a == .rateLimit

inductive RuleStatus where
  | candidate | validating | rejected | shadowed | pendingApproval | approved | deployed | active
  | expired | disabled | removed
  deriving DecidableEq, Repr

inductive RuleDirection where
  | inbound | outbound
  deriving DecidableEq, Repr

inductive Protocol where
  | tcp | udp | icmp | icmpv6 | other | any
  deriving DecidableEq, Repr

inductive EnforcementMode where
  | shadow | assisted | active
  deriving DecidableEq, Repr

inductive EventSeverity where
  | info | warning | error | critical
  deriving DecidableEq, Repr

inductive SecurityEventType where
  | threatDetected | firewallBlock | ruleCreated | ruleDeployed | ruleRejected | ruleExpired
  | firewallError | systemWarning | policyDecision
  deriving DecidableEq, Repr

inductive RuleRejectionReason where
  | invalidSchema | invalidNetwork | allowlisted | unsafeTarget | conflict | duplicate | rateLimited
  | shadowed | missingExpiration | unauthorized | unenforceable | expirationTooLong | noNewEvidence
  | spoofedSource
  deriving DecidableEq, Repr

def RuleRejectionReason.value : RuleRejectionReason → String
  | .invalidSchema => "invalid_schema"
  | .invalidNetwork => "invalid_network"
  | .allowlisted => "allowlisted"
  | .unsafeTarget => "unsafe"
  | .conflict => "conflict"
  | .duplicate => "duplicate"
  | .rateLimited => "rate_limited"
  | .shadowed => "shadowed"
  | .missingExpiration => "missing_expiration"
  | .unauthorized => "unauthorized"
  | .unenforceable => "unenforceable"
  | .expirationTooLong => "expiration_too_long"
  | .noNewEvidence => "no_new_evidence"
  | .spoofedSource => "spoofed_source"

inductive GuardName where
  | raw | input | forward
  deriving DecidableEq, Repr

def GuardName.value : GuardName → String
  | .raw => "raw"
  | .input => "input"
  | .forward => "forward"

inductive GuardMode where
  | observe | enforce
  deriving DecidableEq, Repr

def GuardMode.value : GuardMode → String
  | .observe => "observe"
  | .enforce => "enforce"

inductive BindingSource where
  | lease | static
  deriving DecidableEq, Repr

/-! ## Devices, rules, allowlist entries -/

/-- The device an adaptive action is about: its address and, when known, its MAC. -/
structure RuleTarget where
  ip : IPv4Address
  mac : Option Mac
  deriving DecidableEq

/-- A rule's free-form annotations, `dict[str, str]`. -/
abbrev Metadata := Lib.Dict String String

/-- Ports wrap around at 65536, which is not 0. -/
instance portsNeZero : NeZero (65536 : Nat) := ⟨by decide⟩

/-- Fields shared by `CandidateRule` and `FirewallRule`. -/
structure RuleFields where
  action : FirewallAction
  direction : RuleDirection
  source : IPv4Network
  destination : IPv4Network
  protocol : Protocol
  sourcePort : Option (Fin 65536)
  destinationPort : Option (Fin 65536)
  reason : String
  threatScore : Option Rat
  evidence : List String
  metadata : Metadata
  target : Option RuleTarget
  /-- `_check_target_is_the_source`. -/
  target_is_source : ∀ t, target = some t → source = IPv4Network.host t.ip

/-- A not-yet-validated rule proposed by the candidate rule generator. -/
structure CandidateRule extends RuleFields where
  id : String
  decisionId : String
  createdAt : Time
  expiresAt : Option Time

/-- A validated rule, with its place in the lifecycle. -/
structure FirewallRule extends RuleFields where
  id : String
  priority : Int
  status : RuleStatus
  createdAt : Time
  expiresAt : Option Time
  deployedAt : Option Time

/-- An admin-declared target that adaptive restrictions may never touch. -/
structure AllowlistEntry where
  id : String
  target : IPv4Network
  port : Option (Fin 65536)
  protocol : Option Protocol
  reason : String
  createdAt : Time
  createdBy : String
  mac : Option Mac
  /-- `_check_mac_names_one_device`. -/
  mac_names_one_device : mac ≠ none → target.prefixlen = 32
  deriving DecidableEq

/-- One IP-MAC pair the anti-spoof guard treats as legitimate. -/
structure Binding where
  ip : IPv4Address
  mac : Mac
  source : BindingSource
  expiresAt : Option Time
  /-- `_check_expiry_matches_source`: a lease carries an expiry, a static entry none. -/
  expiry_matches_source : source = .lease ↔ expiresAt.isSome
  deriving DecidableEq

/-- What one `apply_leases` call changed; `removed` reaches the kernel before `added`. -/
structure BindingChange where
  removed : List Binding
  added : List Binding

/-- A decision of the engine. Only its id is read by the firewall manager. -/
structure FirewallDecision where
  id : String
  deriving DecidableEq

/-- One auditable event, without its random id. -/
structure SecurityEvent where
  timestamp : Time
  severity : EventSeverity
  eventType : SecurityEventType
  subsystem : String
  source : Option IPv4Address := none
  threatScore : Option Rat := none
  decision : Option FirewallAction := none
  ruleId : Option String := none
  reason : Option String := none
  mac : Option Mac := none
  policyDecisionId : Option String := none
  evidenceIds : List String := []
  requiresApproval : Option Bool := none
  deriving DecidableEq

/-- Every address this host holds, and the broadcast addresses of its subnets. -/
structure LocalAddresses where
  host : List IPv4Address
  broadcast : List IPv4Address

/-! ## Configuration -/

structure NetworkConfig where
  protectedNetwork : IPv4Network
  upstreamGateway : IPv4Address
  pirewallLanIp : IPv4Address

structure AdminConfig where
  adminPcIp : IPv4Address
  adminPcMac : Option Mac

structure FirewallConfig where
  enforcementMode : EnforcementMode
  assistedReviewThreshold : Rat
  maxAdaptiveRulesPerWindow : Nat
  rateWindowSeconds : Nat
  allowlist : List AllowlistEntry
  minRulePrefixLength : Nat

structure AntispoofConfig where
  graceSeconds : Nat

structure PolicyConfig where
  rateLimitTtlSeconds : Nat
  blockTtlSeconds : Nat
  escalationTtlMultiplier : Nat
  maxTtlSeconds : Nat
  sustainedPolls : Nat
  maxTrackedDevices : Nat
  maxEvidenceIdsPerDevice : Nat
  rateLimitTtl_pos : 0 < rateLimitTtlSeconds
  blockTtl_pos : 0 < blockTtlSeconds
  multiplier_pos : 1 ≤ escalationTtlMultiplier
  maxTtl_pos : 0 < maxTtlSeconds
  maxTtl_le : maxTtlSeconds ≤ 3600
  sustainedPolls_ge : 2 ≤ sustainedPolls
  maxTrackedDevices_pos : 0 < maxTrackedDevices
  maxEvidenceIds_pos : 0 < maxEvidenceIdsPerDevice
  /-- `_check_ttls_within_cap`. -/
  ttls_within_cap : max rateLimitTtlSeconds blockTtlSeconds ≤ maxTtlSeconds

/-- The `[policy]` section as it ships. -/
def defaultPolicyConfig : PolicyConfig where
  rateLimitTtlSeconds := 300
  blockTtlSeconds := 300
  escalationTtlMultiplier := 2
  maxTtlSeconds := 3600
  sustainedPolls := 2
  maxTrackedDevices := 4096
  maxEvidenceIdsPerDevice := 256
  rateLimitTtl_pos := by decide
  blockTtl_pos := by decide
  multiplier_pos := by decide
  maxTtl_pos := by decide
  maxTtl_le := by decide
  sustainedPolls_ge := by decide
  maxTrackedDevices_pos := by decide
  maxEvidenceIds_pos := by decide
  ttls_within_cap := by decide

/-- The configuration tree, cut to what the modelled code reads. -/
structure PirewallConfig where
  network : NetworkConfig
  admin : AdminConfig
  firewall : FirewallConfig
  antispoof : AntispoofConfig
  policy : PolicyConfig

end Pirewall
