/-
# Pirewall.Policy.Evidence -- the four kinds of evidence, and what a decision says

The evidence variants of the v2 pipeline and `PolicyDecision`. A model whose constructor validates carries
the validated fact as a field: a kernel offender names the guard its code belongs to, a classifier's verdict
is the comparison it was made by. Probabilities, scores and measured values are rationals: they are compared
and copied, never computed with. Nothing downstream of `evidenceId` reads anything but equality of ids.
-/
import Mathlib.Data.List.Dedup
import Mathlib.Tactic
import Pirewall.Core.Models

namespace Pirewall

/-! ## Vocabulary -/

inductive D1Detector where
  | verticalScan | horizontalScan | failedHandshake | bruteForce | slowRateDos | fanIn | newMacRate
  | newLeaseRate | portalAuthFailures
  deriving DecidableEq, Repr

def D1Detector.value : D1Detector → String
  | .verticalScan => "vertical_scan"
  | .horizontalScan => "horizontal_scan"
  | .failedHandshake => "failed_handshake"
  | .bruteForce => "brute_force"
  | .slowRateDos => "slow_rate_dos"
  | .fanIn => "fan_in"
  | .newMacRate => "new_mac_rate"
  | .newLeaseRate => "new_lease_rate"
  | .portalAuthFailures => "portal_auth_failures"

/-- The `inet_service` half of an `@offenders` element: which meter a MAC exceeded. -/
inductive OffenderCode where
  | synPps | udpLocalPps | icmpPps | localPps | closedPort | newconn | newconnDst | udpFwd | unbound
  | dnsQps | dhcp | portalConcurrency
  deriving DecidableEq, Repr

namespace OffenderCode

def value : OffenderCode → Nat
  | .synPps => 1
  | .udpLocalPps => 2
  | .icmpPps => 3
  | .localPps => 4
  | .closedPort => 5
  | .newconn => 6
  | .newconnDst => 7
  | .udpFwd => 8
  | .unbound => 10
  | .dnsQps => 53
  | .dhcp => 67
  | .portalConcurrency => 8080

/-- `OffenderCode(value)`, `none` where it raises. -/
def ofValue? : Nat → Option OffenderCode
  | 1 => some .synPps
  | 2 => some .udpLocalPps
  | 3 => some .icmpPps
  | 4 => some .localPps
  | 5 => some .closedPort
  | 6 => some .newconn
  | 7 => some .newconnDst
  | 8 => some .udpFwd
  | 10 => some .unbound
  | 53 => some .dnsQps
  | 67 => some .dhcp
  | 8080 => some .portalConcurrency
  | _ => none

theorem ofValue?_value (code : OffenderCode) : ofValue? code.value = some code := by
  cases code <;> rfl

/-- `OFFENDER_GUARD`: the guard whose verdict chain the meter rule of a code jumps to. -/
def guard : OffenderCode → GuardName
  | .synPps | .udpLocalPps | .icmpPps | .localPps | .unbound | .dhcp => .raw
  | .closedPort | .dnsQps | .portalConcurrency => .input
  | .newconn | .newconnDst | .udpFwd => .forward

end OffenderCode

/-! ## Evidence -/

/-- A MAC seen in `@offenders` by the kernel poller. -/
structure KernelGuardEvidence where
  id : String
  code : OffenderCode
  mac : Mac
  guard : GuardName
  guardMode : GuardMode
  sustainedPolls : Nat
  observedAt : Time
  sustainedPolls_pos : 1 ≤ sustainedPolls
  /-- `_check_guard_matches_code`. -/
  guard_matches_code : guard = code.guard

/-- One D1 detector firing for one device over one window. -/
structure D1Evidence where
  id : String
  detector : D1Detector
  windowSeconds : Nat
  value : Rat
  threshold : Rat
  mac : Option Mac
  observedAt : Time
  deriving DecidableEq

/-- Isolation Forest output for one flow. -/
structure AnomalyEvidence where
  flowId : String
  anomalyScore : Rat
  isAnomaly : Bool
  generatedAt : Time

/-- LightGBM output for one flow. -/
structure ClassifierEvidence where
  id : String
  flowId : String
  mac : Option Mac
  attackProbability : Rat
  operatingThreshold : Rat
  isAttack : Bool
  family : Option String
  generatedAt : Time
  /-- `_check_consistency`. -/
  isAttack_eq : isAttack = decide (operatingThreshold ≤ attackProbability)

inductive Evidence where
  | kernel (item : KernelGuardEvidence)
  | d1 (item : D1Evidence)
  | anomaly (item : AnomalyEvidence)
  | classifier (item : ClassifierEvidence)

namespace Evidence

/-- `evidence_id`: the v1 anomaly model has no id of its own, so it is named by its flow. -/
def id : Evidence → String
  | .kernel item => item.id
  | .d1 item => item.id
  | .anomaly item => "anomaly:" ++ item.flowId
  | .classifier item => item.id

def kernel? : Evidence → Option KernelGuardEvidence
  | .kernel item => some item
  | _ => none

def d1? : Evidence → Option D1Evidence
  | .d1 item => some item
  | _ => none

/-- Anomaly or classifier evidence. -/
def isMl : Evidence → Bool
  | .anomaly _ | .classifier _ => true
  | _ => false

/-- The model's own yes: `is_anomaly`, `is_attack`. -/
def isMlHit : Evidence → Bool
  | .anomaly item => item.isAnomaly
  | .classifier item => item.isAttack
  | _ => false

theorem isMl_of_isMlHit {item : Evidence} (h : item.isMlHit = true) : item.isMl = true := by
  cases item with
  | kernel _ => exact absurd h (by simp [isMlHit])
  | d1 _ => exact absurd h (by simp [isMlHit])
  | anomaly _ => rfl
  | classifier _ => rfl

end Evidence

/-- Everything known about one device right now. -/
structure EvidenceBundle where
  target : RuleTarget
  evidence : List Evidence

/-- `evidence_id` over a bundle, each id once, in order (`dict.fromkeys`). -/
def EvidenceBundle.ids (bundle : EvidenceBundle) : List String :=
  (bundle.evidence.map Evidence.id).eraseDups

theorem EvidenceBundle.mem_ids {bundle : EvidenceBundle} {id : String} :
    id ∈ bundle.ids ↔ ∃ item ∈ bundle.evidence, item.id = id := by
  rw [EvidenceBundle.ids, List.mem_eraseDups, List.mem_map]

/-! ## Decisions -/

/-- A line of a decision's `reasons`: what `_reason` puts into words. -/
inductive Reason where
  | heldForApproval
  | kernelGuard (guard : GuardName) (mode : GuardMode) (code : OffenderCode) (polls : Nat)
  | d1 (detector : D1Detector) (windowSeconds : Nat) (value threshold : Rat)
  | classifier (family : Option String) (attackProbability : Rat)
  | anomaly (score : Rat)
  deriving DecidableEq

/-- `_reason`. -/
def Evidence.reason : Evidence → Reason
  | .kernel item => .kernelGuard item.guard item.guardMode item.code item.sustainedPolls
  | .d1 item => .d1 item.detector item.windowSeconds item.value item.threshold
  | .classifier item => .classifier item.family item.attackProbability
  | .anomaly item => .anomaly item.anomalyScore

/-- What the policy table decided for one device. Its random id and the threat level derived from the action
are left out. -/
structure PolicyDecision where
  target : RuleTarget
  action : FirewallAction
  ttlSeconds : Option Nat
  reasons : List Reason
  evidenceIds : List String
  requiresApproval : Bool
  decidedAt : Time
  deriving DecidableEq

/-- The field bounds and `_check_consistency` of `PolicyDecision`. -/
structure PolicyDecision.Valid (d : PolicyDecision) : Prop where
  reasons : d.reasons ≠ []
  ttl_range : ∀ ttl, d.ttlSeconds = some ttl → 0 < ttl ∧ ttl ≤ 3600
  ttl_iff : d.ttlSeconds.isSome = d.action.restrictive
  evidence : d.action.restrictive = true → d.evidenceIds ≠ []
  approval : d.requiresApproval = true → d.action = .block

end Pirewall
