/-
# Pirewall.Firewall.Sets -- the set-backend contract and the rule-to-element translation

The names of the v2 kernel objects (`core/nft_names.py`), the operations that cross the boundary to a
set backend, the single-writer table with the checks every backend applies before it writes
(`validate_element`), and how a validated rule becomes one element (`firewall/sets.py`).

An error is the text of the `FirewallError` the code raises.
-/
import Pirewall.Core.Models

namespace Pirewall

/-- Pairs of names are compared by equality. -/
instance lawfulNamePairs : LawfulBEq (String × String) := inferInstance

/-! ## Names -/

namespace NftNames

def inetFamily : String := "inet"
def arpFamily : String := "arp"
def staticTable : String := "pirewall_static"
def adaptiveTable : String := "pirewall_adaptive"
def staticArpTable : String := "pirewall_static_arp"
def baseTable : String := "pirewall_base"
def portalTable : String := "pirewall_portal"

def setBound4 : String := "bound4"
def setMacbind : String := "macbind"
def setAllowBound : String := "allow_bound"
def setOffenders : String := "offenders"
def setBlockMac : String := "block_mac"
def setBlock4 : String := "block4"
def setRatelimitMac : String := "ratelimit_mac"
def setRatelimit4 : String := "ratelimit4"

/-- The tables panic deletes, in this order. -/
def panicTables : List (String × String) :=
  [(inetFamily, adaptiveTable), (inetFamily, staticTable), (arpFamily, staticArpTable)]

/-- The four sets enforcement elements live in, in sorted order. -/
def adaptiveEnforcementSets : List String := [setBlock4, setBlockMac, setRatelimit4, setRatelimitMac]

end NftNames

open NftNames

/-! ## Elements and operations -/

/-- A set element's key: one normalised value, or a two-part concatenation. -/
inductive ElementKey where
  | one (value : String)
  | pair (first second : String)
  deriving DecidableEq, Repr

/-- `str(key)`, the order elements are listed in. -/
def ElementKey.text : ElementKey → String
  | .one value => value
  | .pair first second => "('" ++ first ++ "', '" ++ second ++ "')"

/-- `repr(key)`, as error texts show it. -/
def ElementKey.quoted : ElementKey → String
  | .one value => "'" ++ value ++ "'"
  | key => key.text

inductive KeyType where
  | ipv4 | mac | ipv4Mac | macIpv4
  deriving DecidableEq, Repr

def KeyType.value : KeyType → String
  | .ipv4 => "ipv4_addr"
  | .mac => "ether_addr"
  | .ipv4Mac => "ipv4_addr . ether_addr"
  | .macIpv4 => "ether_addr . ipv4_addr"

/-- A set the manager may write: its key type, and whether elements must carry a timeout. -/
structure WritableSet where
  keyType : KeyType
  timeoutRequired : Bool
  deriving DecidableEq

/-- Where a set lives: family, table and name. -/
structure SetAddress where
  family : String
  table : String
  setName : String
  deriving DecidableEq, Repr

/-- An adaptive set's address. -/
def adaptiveSet (setName : String) : SetAddress := ⟨inetFamily, adaptiveTable, setName⟩

/-- The single-writer table: the only sets core may put elements into. -/
def managerWritableSets : List (SetAddress × WritableSet) :=
  [(adaptiveSet setBlockMac, ⟨.mac, true⟩),
   (adaptiveSet setBlock4, ⟨.ipv4, true⟩),
   (adaptiveSet setRatelimitMac, ⟨.mac, true⟩),
   (adaptiveSet setRatelimit4, ⟨.ipv4, true⟩),
   (adaptiveSet setAllowBound, ⟨.macIpv4, false⟩),
   (⟨inetFamily, staticTable, setAllowBound⟩, ⟨.macIpv4, false⟩),
   (⟨inetFamily, staticTable, setBound4⟩, ⟨.ipv4, false⟩),
   (⟨inetFamily, staticTable, setMacbind⟩, ⟨.ipv4Mac, false⟩),
   (⟨arpFamily, staticArpTable, setBound4⟩, ⟨.ipv4, false⟩),
   (⟨arpFamily, staticArpTable, setMacbind⟩, ⟨.ipv4Mac, false⟩)]

/-- Every adaptive element expires within an hour. -/
def maxElementTimeoutSeconds : Int := 3600

inductive SetOpKind where
  | add | delete
  deriving DecidableEq, Repr

/-- Add or delete one element; `timeoutSeconds` is for additions only. -/
structure SetOp where
  kind : SetOpKind
  setName : String
  key : ElementKey
  timeoutSeconds : Option Int := none
  table : String := adaptiveTable
  family : String := inetFamily
  deriving DecidableEq, Repr

def SetOp.address (op : SetOp) : SetAddress := ⟨op.family, op.table, op.setName⟩

/-- One element as the kernel reports it. -/
structure ElementState where
  key : ElementKey
  expiresInSeconds : Option Int
  deriving DecidableEq, Repr

/-! ## The checks before a write -/

/-- `_ipv4`: the canonical text of an address key. -/
def normaliseIpv4 (key : ElementKey) : Except String String :=
  match key with
  | .one value =>
    match IPv4Address.ofString? value with
    | some a => .ok (IPv4Address.str a)
    | none => .error ("expected an IPv4 address, got " ++ key.quoted)
  | .pair _ _ => .error ("expected an IPv4 address, got " ++ key.quoted)

/-- `_mac`: the canonical text of a MAC key. -/
def normaliseMacKey (key : ElementKey) : Except String String :=
  match key with
  | .one value =>
    match Mac.ofString? value with
    | some m => .ok m.text
    | none => .error ("expected a unicast MAC address, got " ++ key.quoted)
  | .pair _ _ => .error ("expected a MAC address, got " ++ key.quoted)

/-- `normalise_key`: the canonical form of `key` for `keyType`. -/
def normaliseKey (keyType : KeyType) (key : ElementKey) : Except String ElementKey :=
  match keyType, key with
  | .ipv4, key => (normaliseIpv4 key).map .one
  | .mac, key => (normaliseMacKey key).map .one
  | .ipv4Mac, .pair first second => do
      let ip ← normaliseIpv4 (.one first)
      let mac ← normaliseMacKey (.one second)
      pure (.pair ip mac)
  | .macIpv4, .pair first second => do
      let mac ← normaliseMacKey (.one first)
      let ip ← normaliseIpv4 (.one second)
      pure (.pair mac ip)
  | keyType, key => .error (keyType.value ++ " needs a two-part key, got " ++ key.quoted)

/-- The text of an address is its own canonical key. -/
@[simp] theorem normaliseIpv4_str (a : IPv4Address) :
    normaliseIpv4 (.one (IPv4Address.str a)) = .ok (IPv4Address.str a) := by
  simp only [normaliseIpv4, IPv4Address.ofString?_str]

@[simp] theorem normaliseMacKey_text (m : Mac) : normaliseMacKey (.one m.text) = .ok m.text := by
  simp only [normaliseMacKey, Mac.ofString?_text]

/-- The timeout half of `validate_element`, for an addition to a set of shape `shape`. -/
def validateTimeout (shape : WritableSet) (op : SetOp) : Except String Unit :=
  match op.timeoutSeconds with
  | none =>
    if shape.timeoutRequired then
      .error ("refusing an element without a timeout in " ++ op.setName ++ " (D1)")
    else .ok ()
  | some timeout =>
    if timeout ≤ 0 then .error ("element timeout " ++ toString timeout ++ "s must be positive")
    else if shape.timeoutRequired ∧ maxElementTimeoutSeconds < timeout then
      .error ("element timeout " ++ toString timeout ++ "s outside 1.."
        ++ toString maxElementTimeoutSeconds ++ "s")
    else .ok ()

/-- `validate_element`: refuse an op a backend must never send. -/
def validateElement (op : SetOp) : Except String Unit :=
  match managerWritableSets.lookup op.address with
  | none =>
    .error ("refusing to write " ++ op.family ++ " " ++ op.table ++ " " ++ op.setName
      ++ ": core is not this set's writer (D1)")
  | some shape =>
    match normaliseKey shape.keyType op.key with
    | .error e => .error e
    | .ok key =>
      if key ≠ op.key then
        .error ("key " ++ op.key.quoted ++ " is not a normalised " ++ shape.keyType.value)
      else
        match op.kind with
        | .delete => .ok ()
        | .add => validateTimeout shape op

/-- A canonical key, in a set that asks for no timeout. -/
theorem validateElement_untimed {op : SetOp} {s : WritableSet}
    (hset : managerWritableSets.lookup op.address = some s)
    (hkey : normaliseKey s.keyType op.key = .ok op.key) (hfree : s.timeoutRequired = false)
    (htimeout : ∀ t, op.timeoutSeconds = some t → 0 < t) : validateElement op = .ok () := by
  have hadd : validateTimeout s op = .ok () := by
    unfold validateTimeout
    cases ht : op.timeoutSeconds with
    | none => simp [hfree]
    | some t => simp [hfree, not_le.mpr (htimeout t ht)]
  simp only [validateElement, hset, hkey, ne_eq, not_true, if_false]
  cases op.kind with
  | delete => rfl
  | add => exact hadd

/-- `writable_set`: the shape of a manager-writable set. -/
def writableSet (address : SetAddress) : Except String WritableSet :=
  match managerWritableSets.lookup address with
  | some shape => .ok shape
  | none =>
    .error (address.family ++ " " ++ address.table ++ " " ++ address.setName
      ++ " is not a manager-writable set")

/-! ## Rule to element -/

/-- `device_target`: the LAN device a rule's enforcement keys on. -/
def deviceTarget (rule : RuleFields) (protectedNetwork : IPv4Network) (mac : Option Mac) :
    Option RuleTarget :=
  if rule.source.prefixlen ≠ 32 ∨ rule.source.subnetOf protectedNetwork = false then none
  else some ⟨rule.source.networkAddress, mac⟩

/-- `enforcement_set_for`: which adaptive set enforces `action` on `target`. -/
def enforcementSetFor (action : FirewallAction) (target : RuleTarget) : Option String :=
  match action with
  | .block => some (if target.mac.isSome then setBlockMac else setBlock4)
  | .rateLimit => some (if target.mac.isSome then setRatelimitMac else setRatelimit4)
  | .allow => none
  | .monitor => none

/-- `element_key`: the key `target` has in `setName`, its MAC for a MAC set and its IP otherwise. -/
def elementKey (setName : String) (target : RuleTarget) : Except String String :=
  match writableSet (adaptiveSet setName) with
  | .error e => .error e
  | .ok shape =>
    if shape.keyType = .mac then
      match target.mac with
      | none => .error (setName ++ " needs a MAC, and the target has none")
      | some mac => .ok mac.text
    else .ok (IPv4Address.str target.ip)

/-- `element_timeout_seconds`: whole seconds, at least 1, capped. -/
def elementTimeoutSeconds (expiresAt now : Time) (maxTtlSeconds : Nat) : Int :=
  max 1 (min (wholeSeconds (expiresAt - now)) (min (maxTtlSeconds : Int) maxElementTimeoutSeconds))

/-- Where a target's element lives: the set the action enforces in and the key in it. -/
def elementFor (action : FirewallAction) (target : RuleTarget) : Option (String × ElementKey) :=
  match enforcementSetFor action target with
  | none => none
  | some setName =>
    match elementKey setName target with
    | .error _ => none
    | .ok key => some (setName, .one key)

/-! ## What the translation gives -/

/-- A device target is its rule's source address. -/
theorem deviceTarget_source {rule : RuleFields} {protectedNetwork : IPv4Network} {mac : Option Mac}
    {target : RuleTarget} (h : deviceTarget rule protectedNetwork mac = some target) :
    rule.source = IPv4Network.host target.ip := by
  unfold deviceTarget at h
  split at h
  · exact absurd h (by simp)
  · rename_i hcond
    obtain rfl := Option.some.inj h
    exact IPv4Network.eq_host (not_not.mp fun hp => hcond (.inl hp))

/-- The key of an enforcement set is always there: `element_key` never raises on it. -/
theorem elementKey_enforcementSet {action : FirewallAction} {target : RuleTarget} {setName : String}
    (h : enforcementSetFor action target = some setName) :
    ∃ key, elementKey setName target = .ok key := by
  obtain ⟨ip, mac⟩ := target
  cases action with
  | allow => simp [enforcementSetFor] at h
  | monitor => simp [enforcementSetFor] at h
  | block =>
    simp only [enforcementSetFor, Option.some.injEq] at h
    subst h
    cases mac with
    | none => exact ⟨IPv4Address.str ip, rfl⟩
    | some m => exact ⟨m.text, rfl⟩
  | rateLimit =>
    simp only [enforcementSetFor, Option.some.injEq] at h
    subst h
    cases mac with
    | none => exact ⟨IPv4Address.str ip, rfl⟩
    | some m => exact ⟨m.text, rfl⟩

/-- A restrictive action on a device has exactly one element: keyed by the MAC when there is one, by
the address otherwise. -/
theorem elementFor_eq_some_iff {action : FirewallAction} {target : RuleTarget}
    {element : String × ElementKey} :
    elementFor action target = some element ↔
      (action = .block ∧ ∃ m, target.mac = some m ∧ element = (setBlockMac, .one m.text)) ∨
      (action = .block ∧ target.mac = none ∧
        element = (setBlock4, .one (IPv4Address.str target.ip))) ∨
      (action = .rateLimit ∧ ∃ m, target.mac = some m ∧ element = (setRatelimitMac, .one m.text)) ∨
      (action = .rateLimit ∧ target.mac = none ∧
        element = (setRatelimit4, .one (IPv4Address.str target.ip))) := by
  obtain ⟨ip, mac⟩ := target
  -- the translation computes on each action and each shape of target
  have hcompute : elementFor action ⟨ip, mac⟩ =
      match action, mac with
      | .block, some m => some (setBlockMac, .one m.text)
      | .block, none => some (setBlock4, .one (IPv4Address.str ip))
      | .rateLimit, some m => some (setRatelimitMac, .one m.text)
      | .rateLimit, none => some (setRatelimit4, .one (IPv4Address.str ip))
      | _, _ => none := by
    cases action <;> cases mac <;> rfl
  rw [hcompute]
  cases action <;> cases mac <;> simp [eq_comm]

theorem elementFor_isSome {action : FirewallAction} (h : action.restrictive = true)
    (target : RuleTarget) : ∃ element, elementFor action target = some element := by
  obtain ⟨ip, mac⟩ := target
  simp only [elementFor_eq_some_iff]
  cases action <;> cases mac <;> simp_all [FirewallAction.restrictive]

theorem elementFor_restrictive {action : FirewallAction} {target : RuleTarget}
    {element : String × ElementKey} (h : elementFor action target = some element) :
    action.restrictive = true := by
  rcases elementFor_eq_some_iff.mp h with ⟨rfl, _⟩ | ⟨rfl, _⟩ | ⟨rfl, _⟩ | ⟨rfl, _⟩ <;> rfl

/-- An element lies in one of the four enforcement sets. -/
theorem elementFor_mem_sets {action : FirewallAction} {target : RuleTarget}
    {element : String × ElementKey} (h : elementFor action target = some element) :
    element.1 ∈ adaptiveEnforcementSets := by
  rcases elementFor_eq_some_iff.mp h with
    ⟨_, m, _, rfl⟩ | ⟨_, _, rfl⟩ | ⟨_, m, _, rfl⟩ | ⟨_, _, rfl⟩ <;>
    simp [adaptiveEnforcementSets]

/-- The action can be read off the set, so one element belongs to one action. -/
theorem elementFor_action {a b : FirewallAction} {s t : RuleTarget} {element : String × ElementKey}
    (ha : elementFor a s = some element) (hb : elementFor b t = some element) : a = b := by
  have hset : ∀ {c : FirewallAction} {u : RuleTarget}, elementFor c u = some element →
      (element.1 ∈ [setBlockMac, setBlock4] ∧ c = .block) ∨
        (element.1 ∈ [setRatelimitMac, setRatelimit4] ∧ c = .rateLimit) := by
    intro c u h
    rcases elementFor_eq_some_iff.mp h with
      ⟨rfl, m, _, rfl⟩ | ⟨rfl, _, rfl⟩ | ⟨rfl, m, _, rfl⟩ | ⟨rfl, _, rfl⟩ <;> simp
  -- the block sets and the rate-limit sets have no name in common
  have hdisjoint : ∀ name, name ∈ [setBlockMac, setBlock4] → name ∉ [setRatelimitMac, setRatelimit4] := by
    decide
  rcases hset ha with ⟨hs, rfl⟩ | ⟨hs, rfl⟩ <;> rcases hset hb with ⟨ht, rfl⟩ | ⟨ht, rfl⟩
  · rfl
  · exact absurd ht (hdisjoint _ hs)
  · exact absurd hs (hdisjoint _ ht)
  · rfl

end Pirewall
