/-
# Pirewall.Firewall.WellFormedOps -- which ops the manager builds

Every op is built from something that was checked before: a target, a binding or an allowlist entry, whose texts are
canonical by their types, or a key the kernel listed. One is not. A rule's element is found again through its
metadata, and a candidate brings metadata of its own: an action that has no element is deployed with it as it came,
and when the rule is retired, what it says is deleted. `DeploysForged` is the submissions this happens to.

`Tidy` is what any other call keeps: the kernel holds canonical keys, and what a rule would delete passes the checks,
unless it is not in force and would record an element of its own before it is.

A batch is refused as a whole, so one bad op would take the good ones with it: a block that is to replace a rate limit
would not come into force because the limit cannot be deleted. That is why the statement is about every op of every
batch (`HandsAccepted`), and why the invariant has to speak of rules that are only held. A PENDING rule keeps the
metadata of its candidate; if its action has an element, a deployment overwrites them (`Withdrawable`).

The kernel is part of the invariant because two calls delete what they find there. `sync_allowlist` and
`replace_bindings` make ops of the keys a listing reports, and these pass the checks if the kernel holds normal forms,
which it does as long as only such keys are added (`Canonical.apply`).
-/
import Pirewall.Firewall.AllowBound
import Pirewall.Firewall.Handed
import Pirewall.Firewall.Verdict

namespace Pirewall

open Lib NftNames

/-! ## Accepted ops -/

/-- The op passes `validate_element`: it names a set the manager may write, its key is in the normal form of the set,
and an addition has a timeout the set takes. -/
structure SetOp.Accepted (op : SetOp) (shape : WritableSet) : Prop where
  passes : validateElement op = .ok ()
  writable : managerWritableSets.lookup op.address = some shape
  normalised : normaliseKey shape.keyType op.key = .ok op.key
  expires : op.kind = .add → shape.timeoutRequired = true →
    ∃ t, op.timeoutSeconds = some t ∧ 1 ≤ t ∧ t ≤ maxElementTimeoutSeconds
  positive : op.kind = .add → ∀ t, op.timeoutSeconds = some t → 0 < t

theorem validateTimeout_ok {shape : WritableSet} {op : SetOp} (h : validateTimeout shape op = .ok ()) :
    (shape.timeoutRequired = true →
        ∃ t, op.timeoutSeconds = some t ∧ 1 ≤ t ∧ t ≤ maxElementTimeoutSeconds) ∧
      ∀ t, op.timeoutSeconds = some t → 0 < t := by
  unfold validateTimeout at h
  cases htimeout : op.timeoutSeconds with
  | none =>
    rw [htimeout] at h
    dsimp only at h
    split_ifs at h with hrequired
    exact ⟨fun hyes => absurd hyes hrequired, fun t ht => nomatch ht⟩
  | some timeout =>
    rw [htimeout] at h
    dsimp only at h
    split_ifs at h with hpositive hcap
    have hpos : 0 < timeout := not_le.mp hpositive
    refine ⟨fun hrequired => ⟨timeout, rfl, hpos, ?_⟩, fun t ht => Option.some.inj ht ▸ hpos⟩
    exact not_lt.mp fun hlt => hcap ⟨hrequired, hlt⟩

/-- That is all the check asks for. -/
theorem validateElement_ok {op : SetOp} (h : validateElement op = .ok ()) : ∃ shape, op.Accepted shape := by
  have hpasses := h
  unfold validateElement at h
  cases hlookup : managerWritableSets.lookup op.address with
  | none =>
    rw [hlookup] at h
    cases h
  | some shape =>
    rw [hlookup] at h
    dsimp only at h
    cases hkey : normaliseKey shape.keyType op.key with
    | error e =>
      rw [hkey] at h
      cases h
    | ok key =>
      rw [hkey] at h
      dsimp only at h
      split_ifs at h with hsame
      rw [not_not.mp hsame] at hkey
      refine ⟨shape, hpasses, hlookup, hkey, fun hkind => ?_, fun hkind => ?_⟩
      · rw [hkind] at h
        exact (validateTimeout_ok h).1
      · rw [hkind] at h
        exact (validateTimeout_ok h).2

/-- A key in normal form can be deleted. -/
theorem validateElement_delete {op : SetOp} {shape : WritableSet} (hkind : op.kind = .delete)
    (hset : managerWritableSets.lookup op.address = some shape)
    (hkey : normaliseKey shape.keyType op.key = .ok op.key) : validateElement op = .ok () := by
  simp only [validateElement, hset, hkey, ne_eq, not_true, if_false, hkind]

/-! ## Ops on enforcement sets -/

/-- The element of an action on a target is in the normal form of its set. -/
theorem elementFor_normalised {action : FirewallAction} {target : RuleTarget} {element : String × ElementKey}
    (h : elementFor action target = some element) :
    ∃ shape, managerWritableSets.lookup (adaptiveSet element.1) = some shape ∧
      normaliseKey shape.keyType element.2 = .ok element.2 := by
  rcases elementFor_eq_some_iff.mp h with
    ⟨-, m, -, rfl⟩ | ⟨-, -, rfl⟩ | ⟨-, m, -, rfl⟩ | ⟨-, -, rfl⟩
  · exact ⟨⟨.mac, true⟩, rfl, by simp [normaliseKey, Except.map]⟩
  · exact ⟨⟨.ipv4, true⟩, rfl, by simp [normaliseKey, Except.map]⟩
  · exact ⟨⟨.mac, true⟩, rfl, by simp [normaliseKey, Except.map]⟩
  · exact ⟨⟨.ipv4, true⟩, rfl, by simp [normaliseKey, Except.map]⟩

theorem elementTimeoutSeconds_bounds (expiresAt now : Time) (maxTtlSeconds : Nat) :
    1 ≤ elementTimeoutSeconds expiresAt now maxTtlSeconds ∧
      elementTimeoutSeconds expiresAt now maxTtlSeconds ≤ maxElementTimeoutSeconds := by
  unfold elementTimeoutSeconds maxElementTimeoutSeconds
  omega

/-- A key in normal form can be added for an hour at most. -/
theorem validateElement_timed {op : SetOp} {shape : WritableSet} {timeout : Int}
    (hset : managerWritableSets.lookup op.address = some shape)
    (hkey : normaliseKey shape.keyType op.key = .ok op.key) (htimeout : op.timeoutSeconds = some timeout)
    (hlow : 1 ≤ timeout) (hhigh : timeout ≤ maxElementTimeoutSeconds) : validateElement op = .ok () := by
  have hadd : validateTimeout shape op = .ok () := by
    unfold validateTimeout
    rw [htimeout]
    dsimp only
    rw [if_neg (by omega), if_neg (by omega)]
  simp only [validateElement, hset, hkey, ne_eq, not_true, if_false]
  cases op.kind with
  | delete => rfl
  | add => exact hadd

/-- The addition of an element with the timeout of a rule. -/
theorem validateElement_enforcement {action : FirewallAction} {target : RuleTarget} {element : String × ElementKey}
    (h : elementFor action target = some element) (expiresAt now : Time) (maxTtlSeconds : Nat) :
    validateElement { kind := .add, setName := element.1, key := element.2,
                      timeoutSeconds := some (elementTimeoutSeconds expiresAt now maxTtlSeconds) } = .ok () := by
  obtain ⟨shape, hset, hkey⟩ := elementFor_normalised h
  obtain ⟨hlow, hhigh⟩ := elementTimeoutSeconds_bounds expiresAt now maxTtlSeconds
  exact validateElement_timed hset hkey rfl hlow hhigh

/-- Its deletion. -/
theorem validateElement_withdrawal {action : FirewallAction} {target : RuleTarget} {element : String × ElementKey}
    (h : elementFor action target = some element) :
    validateElement { kind := .delete, setName := element.1, key := element.2 } = .ok () := by
  obtain ⟨shape, hset, hkey⟩ := elementFor_normalised h
  exact validateElement_delete rfl hset hkey

/-! ## What the kernel holds -/

namespace FakeSetBackend

/-- The keys in the sets the manager may write are in normal form. -/
def Canonical (b : FakeSetBackend) : Prop :=
  ∀ a shape, managerWritableSets.lookup a = some shape → ∀ k e, b.expiry? a k = some e →
    normaliseKey shape.keyType k = .ok k

/-- Nothing is held that was not. -/
def Shrinks (b b' : FakeSetBackend) : Prop := ∀ a k e, b'.expiry? a k = some e → ∃ e, b.expiry? a k = some e

namespace Shrinks

variable {b b' b'' : FakeSetBackend}

theorem refl (b : FakeSetBackend) : b.Shrinks b := fun _ _ e he => ⟨e, he⟩

theorem trans (h : b.Shrinks b') (h' : b'.Shrinks b'') : b.Shrinks b'' := by
  intro a k e he
  obtain ⟨e', he'⟩ := h' a k e he
  exact h a k e' he'

theorem canonical (h : b.Shrinks b') (hcanonical : b.Canonical) : b'.Canonical := by
  intro a shape hset k e he
  obtain ⟨e', he'⟩ := h a k e he
  exact hcanonical a shape hset k e' he'

theorem listSet (b : FakeSetBackend) (a : SetAddress) (now : Time) : b.Shrinks (b.listSet a now).2 := by
  cases hlist : (b.listSet a now).1 with
  | error _ =>
    have hsame : (b.listSet a now).2 = b := by
      unfold FakeSetBackend.listSet at hlist ⊢
      cases hat : b.setAt a with
      | error _ => rfl
      | ok fake =>
        rw [hat] at hlist
        cases hlist
    rw [hsame]
    exact refl b
  | ok elements =>
    intro a' k e he
    rw [(listSet_ok hlist).2] at he
    split_ifs at he with heq
    · rw [heq]
      exact ⟨e, (Option.filter_eq_some_iff.mp he).1⟩
    · exact ⟨e, he⟩

theorem flushSets (b : FakeSetBackend) (names : List String) : b.Shrinks (b.flushSets names).2 := by
  rcases b.flushSets_cases names with ⟨-, hflushed⟩ | ⟨_, faults, heq, -⟩
  · intro a k e he
    rw [hflushed.expiry] at he
    split_ifs at he
    exact ⟨e, he⟩
  · rw [heq]
    exact refl b

theorem setGuardModes (b : FakeSetBackend) (modes : List (GuardName × GuardMode)) :
    b.Shrinks (b.setGuardModes modes).2 := by
  unfold FakeSetBackend.setGuardModes
  rcases hbegin : b.begin with ⟨result, b₁⟩
  obtain ⟨hb₁, -⟩ := begin_faults hbegin
  rw [hb₁]
  cases result with
  | error _ => exact refl b
  | ok _ =>
    dsimp only
    split_ifs <;> exact refl b

theorem panic (b : FakeSetBackend) : b.Shrinks b.panic.2 := by
  unfold FakeSetBackend.panic
  rcases hbegin : b.begin with ⟨result, b₁⟩
  obtain ⟨hb₁, -⟩ := begin_faults hbegin
  rw [hb₁]
  cases result with
  | error _ => exact refl b
  | ok _ =>
    intro a k e he
    refine ⟨e, ?_⟩
    simp only [expiry?, find?, panicTables, List.foldl_cons, List.foldl_nil, Dict.get?_erase] at he ⊢
    split_ifs at he
    · cases he
    · cases he
    · cases he
    · exact he

end Shrinks

/-- A batch adds keys in normal form, or is refused. -/
theorem Canonical.apply {b : FakeSetBackend} (h : b.Canonical) (ops : List SetOp) (now : Time) :
    (b.apply ops now).2.Canonical := by
  rcases b.apply_cases ops now with ⟨-, happlied⟩ | ⟨_, faults, heq, -⟩
  · intro a shape hset k e he
    rw [happlied.expiry] at he
    -- a key of a touched set was added by the batch, which was validated, or was there before
    split_ifs at he with htouched
    · by_cases hadded : ∃ op ∈ ops, op.kind = .add ∧ op.address = a ∧ op.key = k
      · obtain ⟨op, hop, -, rfl, rfl⟩ := hadded
        obtain ⟨shape', haccepted⟩ := validateElement_ok (happlied.validated op hop)
        cases hset.symm.trans haccepted.writable
        exact haccepted.normalised
      · have hold := keyResult_eq_some (fun op hop hkind hon => hadded ⟨op, hop, hkind, hon⟩) he
        exact h a shape hset k e hold.1
    · exact h a shape hset k e he
  · rw [heq]
    exact h

theorem Canonical.applyAll {b : FakeSetBackend} (h : b.Canonical) (batches : List (List SetOp)) (now : Time) :
    (b.applyAll batches now).Canonical := by
  induction batches generalizing b with
  | nil => exact h
  | cons ops rest ih => exact ih (h.apply ops now)

/-- A key that the kernel holds can be deleted. -/
theorem Canonical.delete {b : FakeSetBackend} (h : b.Canonical) {op : SetOp} {now : Time} {shape : WritableSet}
    (hkind : op.kind = .delete) (hset : managerWritableSets.lookup op.address = some shape)
    (hheld : b.holds now op.address op.key = true) : validateElement op = .ok () := by
  obtain ⟨e, he, -⟩ := (Option.any_eq_true _ _).mp hheld
  exact validateElement_delete hkind hset (h op.address shape hset op.key e he)

/-- Every set of the table is empty. -/
def Bare (sets : Dict String FakeSet) : Prop := ∀ name fake, sets.get? name = some fake → fake.elements = Dict.empty

theorem bare_empty : Bare Dict.empty := fun _ _ hget => nomatch hget

theorem Bare.declared {sets : Dict String FakeSet} (h : Bare sets) (size : Option Nat) (names : List String) :
    Bare (names.foldl (fun sets name => sets.set name ⟨size, Dict.empty⟩) sets) := by
  induction names generalizing sets with
  | nil => exact h
  | cons first names ih =>
    apply ih
    intro name fake hget
    rw [Dict.get?_set] at hget
    split_ifs at hget
    · rw [← Option.some.inj hget]
    · exact h name fake hget

/-- Sets that were just loaded are empty. -/
theorem expiry?_load (adaptiveSize bindingSize : Option Nat) (guards : GuardName → GuardMode) (a : SetAddress)
    (k : ElementKey) : (load adaptiveSize bindingSize guards).expiry? a k = none := by
  have hbare : ∀ location sets,
      (load adaptiveSize bindingSize guards).tables.get? location = some sets → Bare sets := by
    intro location sets hget
    simp only [load, Dict.get?_set] at hget
    split_ifs at hget <;> cases hget
    · exact bare_empty.declared _ _
    · exact (bare_empty.declared _ _).declared _ _
    · exact (bare_empty.declared _ _).declared _ _
    · exact bare_empty
    · exact bare_empty
  cases hexpiry : (load adaptiveSize bindingSize guards).expiry? a k with
  | none => rfl
  | some e =>
    obtain ⟨fake, hfind, he⟩ := Option.bind_eq_some_iff.mp hexpiry
    obtain ⟨sets, hsets, hget⟩ := Option.bind_eq_some_iff.mp hfind
    rw [hbare _ sets hsets _ fake hget] at he
    cases he

theorem canonical_load (adaptiveSize bindingSize : Option Nat) (guards : GuardName → GuardMode) :
    (load adaptiveSize bindingSize guards).Canonical := by
  intro a shape _ k e he
  rw [expiry?_load] at he
  cases he

end FakeSetBackend

namespace FirewallManager

/-! ## The loops that list -/

theorem shrinks_allowlistOps (b : FakeSetBackend) (wanted : List (String × String)) (now : Time)
    (tables : List String) : b.Shrinks (allowlistOps b wanted now tables).2 := by
  induction tables generalizing b with
  | nil => exact .refl b
  | cons table tables ih =>
    have hlist := FakeSetBackend.Shrinks.listSet b ⟨inetFamily, table, setAllowBound⟩ now
    unfold allowlistOps
    split
    · rename_i e b₁ heq
      rw [heq] at hlist
      exact hlist
    · rename_i elements b₁ heq
      rw [heq] at hlist
      have hrest := hlist.trans (ih b₁)
      dsimp only
      split
      · rename_i e b₂ heq₂
        rw [heq₂] at hrest
        exact hrest
      · rename_i rest b₂ heq₂
        rw [heq₂] at hrest
        exact hrest

theorem shrinks_staleOps (b : FakeSetBackend) (wanted : String → ElementKey → Bool) (clock : Time)
    (addresses : List SetAddress) : b.Shrinks (staleOps b wanted clock addresses).2 := by
  induction addresses generalizing b with
  | nil => exact .refl b
  | cons a rest ih =>
    have hlist := FakeSetBackend.Shrinks.listSet b a clock
    unfold staleOps
    split
    · rename_i e b₁ heq
      rw [heq] at hlist
      exact hlist
    · rename_i elements b₁ heq
      rw [heq] at hlist
      have hrest := hlist.trans (ih b₁)
      dsimp only
      split
      · rename_i e b₂ heq₂
        rw [heq₂] at hrest
        exact hrest
      · rename_i ops b₂ heq₂
        rw [heq₂] at hrest
        exact hrest

theorem shrinks_listLive (b : FakeSetBackend) (now : Time) (names : List String) :
    b.Shrinks (listLive b now names).2 := fun _ _ e he => ⟨e, (listLive_listed b now names).of_some he⟩

/-- Reading, flushing and deleting put nothing into a set. -/
theorem shrinks_beforeHanding (m : FirewallManager) (b : FakeSetBackend) (call : Env × ManagerOp) :
    b.Shrinks (m.beforeHanding b call) := by
  obtain ⟨env, op⟩ := call
  cases op with
  | revertToBase => exact (FakeSetBackend.Shrinks.flushSets b _).trans (.setGuardModes _ _)
  | failOpenShutdown => exact .flushSets b _
  | panic actor => exact .panic b
  | setGuardMode guard mode actor => exact .setGuardModes b _
  | reconcile =>
    show b.Shrinks (if _ then b else _)
    split_ifs
    · exact .refl b
    · exact shrinks_listLive b env.now _
  | syncAllowlist => exact shrinks_allowlistOps b _ env.now _
  | replaceBindings bindings => exact shrinks_staleOps b _ env.now _
  | _ => exact .refl b

/-! ## Batches -/

/-- Every op of every batch passes `validate_element`. -/
def AllPass (batches : List (List SetOp)) : Prop := ∀ ops ∈ batches, ∀ op ∈ ops, validateElement op = .ok ()

theorem AllPass.nil : AllPass [] := List.forall_mem_nil _

theorem AllPass.one {ops : List SetOp} (h : ∀ op ∈ ops, validateElement op = .ok ()) : AllPass [ops] :=
  List.forall_mem_singleton.mpr h

theorem AllPass.append {first rest : List (List SetOp)} (h : AllPass first) (h' : AllPass rest) :
    AllPass (first ++ rest) := List.forall_mem_append.mpr ⟨h, h'⟩

/-! ## Ops on the static tables -/

theorem lookup_bindingSets {a : SetAddress} (h : a ∈ bindingSets) :
    ∃ shape, managerWritableSets.lookup a = some shape := by
  obtain ⟨⟨family, table⟩, hlocation, ha⟩ := mem_bindingSets.mp h
  simp only [bindingTables, List.mem_cons, List.not_mem_nil, or_false, Prod.mk.injEq] at hlocation
  rcases hlocation with ⟨rfl, rfl⟩ | ⟨rfl, rfl⟩ <;> rcases ha with rfl | rfl <;> exact ⟨_, rfl⟩

/-- The ops of `sync_allowlist`: a pair the allowlist pins is added, and one that was listed is deleted. -/
theorem syncAllowlist_accepted {m : FirewallManager} {b : FakeSetBackend} (h : b.Canonical) (now : Time) :
    AllPass (m.syncAllowlistBatches b now) := by
  unfold syncAllowlistBatches
  cases hops : (allowlistOps b (allowBoundPairs m.allowlist none) now allowBoundTables).1 with
  | error e => exact .nil
  | ok ops =>
    refine .one fun op hop => ?_
    obtain ⟨table, htable, pair, ⟨hheld, -, rfl⟩ | ⟨-, hwanted, rfl⟩⟩ :=
      ((allowlistOps_spec hops).2 op).mp hop
    · exact h.delete rfl (lookup_allowBound htable) hheld
    · obtain ⟨entry, -, pair', hpair, hsame⟩ := pinned_iff_mem.mpr hwanted
      obtain rfl : pair = pair' := Prod.ext (ElementKey.pair.inj hsame).1 (ElementKey.pair.inj hsame).2
      exact ((allowBoundOps_spec hpair .add).1 _ (List.mem_map.mpr ⟨table, htable, rfl⟩)).2.2.1

/-- The ops of bindings. -/
theorem flatMap_bindingOps_accepted {kind : SetOpKind} (bindings : List Binding) (timeout : Binding → Option Int)
    (h : ∀ binding t, timeout binding = some t → 0 < t) :
    ∀ op ∈ bindings.flatMap fun binding => bindingOps kind binding (timeout binding),
      validateElement op = .ok () := by
  intro op hop
  obtain ⟨binding, -, hop⟩ := List.mem_flatMap.mp hop
  exact (bindingOps_valid (h binding) hop).1

theorem syncBindings_accepted (m : FirewallManager) (change : BindingChange) (now : Time) :
    AllPass (m.syncBindingsBatches change now) := by
  unfold syncBindingsBatches
  split_ifs
  · exact .nil
  · refine .one fun op hop => ?_
    rcases List.mem_append.mp hop with hdelete | hadd
    · exact flatMap_bindingOps_accepted change.removed (fun _ => none) (fun _ _ ht => nomatch ht) op hdelete
    · exact flatMap_bindingOps_accepted change.added _ (fun _ _ => bindingTimeout_pos) op hadd

theorem replaceBindings_accepted {m : FirewallManager} {b : FakeSetBackend} (h : b.Canonical)
    (bindings : List Binding) (now : Time) :
    AllPass (m.replaceBindingsBatches b bindings now) := by
  unfold replaceBindingsBatches
  cases hstale : (staleOps b (isWanted bindings) now bindingSets).1 with
  | error e => exact .nil
  | ok stale =>
    obtain ⟨hkinds, hheld⟩ := (staleOps_spec (isWanted bindings) now bindingSets b).2 stale hstale
    refine .one fun op hop => ?_
    rw [List.mem_append, List.mem_append] at hop
    rcases hop with (hstale | hdelete) | hadd
    · obtain ⟨hset, hlive, -⟩ := (hheld op.address op.key).mp ⟨op, hstale, rfl, rfl⟩
      obtain ⟨shape, hlookup⟩ := lookup_bindingSets hset
      exact h.delete (hkinds op hstale) hlookup hlive
    · exact flatMap_bindingOps_accepted bindings (fun _ => none) (fun _ _ ht => nomatch ht) op hdelete
    · exact flatMap_bindingOps_accepted bindings _ (fun _ _ => bindingTimeout_pos) op hadd

theorem addAllowlist_accepted (m : FirewallManager) (entry : AllowlistEntry) :
    AllPass (m.addAllowlistBatches entry) := by
  unfold addAllowlistBatches
  split
  · exact .nil
  · cases hpair : allowBoundPair entry with
    | none => exact .nil
    | some pair =>
      dsimp only
      split_ifs
      · exact .nil
      · exact .one fun op hop => ((allowBoundOps_spec hpair .add).1 op hop).2.2.1

theorem removeAllowlist_accepted (m : FirewallManager) (entryId : String) :
    AllPass (m.removeAllowlistBatches entryId) := by
  unfold removeAllowlistBatches
  cases m.allowlist.find? fun entry => entry.id == entryId with
  | none => exact .nil
  | some entry =>
    dsimp only
    split
    · exact .nil
    · cases hpair : allowBoundPair entry with
      | none => exact .nil
      | some pair =>
        dsimp only
        split_ifs
        · exact .nil
        · exact .one fun op hop => ((allowBoundOps_spec hpair .delete).1 op hop).2.2.1

/-! ## What a retirement deletes -/

/-- What the rule deletes when it is retired passes the checks. -/
def DeletesValid (rule : FirewallRule) : Prop := ∀ op ∈ deleteOps rule, validateElement op = .ok ()

/-- It does, or the rule is not in force and will not be before it has recorded an element of its own. -/
def Withdrawable (rule : FirewallRule) : Prop :=
  (rule.status ≠ .active ∧ (rule.status = .pendingApproval → rule.action.restrictive = true)) ∨
    DeletesValid rule

/-- The candidate's action has an element, or its metadata names none that could not be deleted. -/
def Unforged (candidate : CandidateRule) : Prop :=
  candidate.action.restrictive = true ∨ ∀ setName key, candidate.metadata.get? metaSet = some setName →
    candidate.metadata.get? metaKey = some key →
      validateElement { kind := .delete, setName, key := .one key } = .ok ()

theorem deletesValid_of_elementOf {rule : FirewallRule} {element : String × ElementKey}
    (h : elementOf rule = some element)
    (hvalid : validateElement { kind := .delete, setName := element.1, key := element.2 } = .ok ()) :
    DeletesValid rule := by
  intro op hop
  rw [deleteOps, h] at hop
  rw [List.mem_singleton.mp hop]
  exact hvalid

theorem deletesValid_of_metadata {rule : FirewallRule}
    (h : ∀ setName key, rule.metadata.get? metaSet = some setName → rule.metadata.get? metaKey = some key →
      validateElement { kind := .delete, setName, key := .one key } = .ok ()) : DeletesValid rule := by
  intro op hop
  unfold deleteOps elementOf at hop
  cases hset : rule.metadata.get? metaSet with
  | none =>
    rw [hset] at hop
    cases hop
  | some setName =>
    cases hkey : rule.metadata.get? metaKey with
    | none =>
      rw [hset, hkey] at hop
      cases hop
    | some key =>
      rw [hset, hkey] at hop
      rw [List.mem_singleton.mp hop]
      exact h setName key hset hkey

theorem Withdrawable.retired (rule : FirewallRule) {status : RuleStatus} (hactive : status ≠ .active)
    (hpending : status ≠ .pendingApproval) : Withdrawable { rule with status := status } :=
  .inl ⟨hactive, fun h => absurd h hpending⟩

theorem Withdrawable.active {rule : FirewallRule} (h : Withdrawable rule) (hactive : rule.status = .active) :
    DeletesValid rule := h.resolve_left fun hr => hr.1 hactive

/-- Every rule the manager has on file. -/
def AllWithdrawable (m : FirewallManager) : Prop :=
  ∀ id rule, m.rules.get? id = some rule → Withdrawable rule

namespace AllWithdrawable

variable {m m' : FirewallManager}

theorem set (h : AllWithdrawable m) {r : FirewallRule} (hr : Withdrawable r)
    (hrules : m'.rules = m.rules.set r.id r) : AllWithdrawable m' := by
  intro id other hother
  rw [hrules, Dict.get?_set] at hother
  split_ifs at hother
  · exact Option.some.inj hother ▸ hr
  · exact h id other hother

/-- Retiring rules changes no metadata. -/
theorem retires (h : AllWithdrawable m) (hretires : Retires m m') : AllWithdrawable m' := by
  intro id rule' hrule'
  obtain ⟨rule, hrule, rfl | ⟨status, hactive, hpending, rfl⟩⟩ := hretires.rules id rule' hrule'
  · exact h id rule' hrule
  · exact .retired rule hactive hpending

theorem replaced (h : AllWithdrawable m) {upgradeOf : Option String} {old : FirewallRule}
    (hold : m.replacedBy upgradeOf = some old) : Withdrawable old ∧ old.status = .active := by
  obtain ⟨hget, hactive⟩ := Option.filter_eq_some_iff.mp hold
  obtain ⟨id, -, hrule⟩ := Option.bind_eq_some_iff.mp hget
  exact ⟨h id old hrule, beq_iff_eq.mp hactive⟩

/-- Whatever rule `_deploy_to_sets` is given, its batch passes. -/
theorem deployBatches (h : AllWithdrawable m) (rule : FirewallRule) (now : Time) (upgradeOf : Option String) :
    AllPass (m.deployBatches rule now upgradeOf) := by
  unfold FirewallManager.deployBatches
  cases m.targets.get? rule.id with
  | none => exact .nil
  | some target =>
    dsimp only
    cases haddition : elementAddition rule target now m.config.policy.maxTtlSeconds with
    | error e => exact .nil
    | ok pair =>
      refine .one fun op hop => ?_
      rcases List.mem_append.mp hop with hdelete | hadd
      · -- what an upgrade deletes is the element of an ACTIVE rule
        cases hold : m.replacedBy upgradeOf with
        | none =>
          rw [hold] at hdelete
          cases hdelete
        | some old =>
          rw [hold] at hdelete
          obtain ⟨hrule, hactive⟩ := h.replaced hold
          exact hrule.active hactive op hdelete
      · rcases elementAddition_ok haddition with ⟨-, hnil, -⟩ | ⟨element, expiresAt, hfor, -, hone, -⟩
        · rw [hnil] at hadd
          cases hadd
        · rw [hone] at hadd
          rw [List.mem_singleton.mp hadd]
          exact validateElement_enforcement hfor expiresAt now _

theorem submitBatches (h : AllWithdrawable m) (env : Env) (candidate : CandidateRule) :
    AllPass (m.submitBatches env candidate) := by
  unfold FirewallManager.submitBatches
  split
  · rename_i upgradeOf target houtcome htarget
    have hdeploy := deployBatches (m := { m with targets := m.targets.set candidate.id target }) h
    dsimp only
    split
    · exact .nil
    · split_ifs
      · exact .nil
      · exact hdeploy _ env.now upgradeOf
    · exact hdeploy _ env.now upgradeOf
  · exact .nil

theorem approveBatches (h : AllWithdrawable m) (ruleId : String) (now : Time) :
    AllPass (m.approveBatches ruleId now) := by
  unfold FirewallManager.approveBatches
  split
  · exact .nil
  · split_ifs
    · exact .nil
    · exact h.deployBatches _ now _

theorem retireBatches (h : AllWithdrawable m) (ruleId : String) : AllPass (m.retireBatches ruleId) := by
  unfold FirewallManager.retireBatches
  split
  · exact .nil
  · rename_i rule hrule
    split_ifs with hactive
    · exact .nil
    · exact .one ((h ruleId rule hrule).active (not_not.mp hactive))

theorem expireBatches (h : AllWithdrawable m) (now : Time) : AllPass (m.expireBatches now) := by
  unfold FirewallManager.expireBatches
  refine (List.foldlRecOn (motive := fun acc : List (List SetOp) × FirewallManager =>
    AllPass acc.1 ∧ AllWithdrawable acc.2) _ _ ⟨.nil, h⟩ ?_).1
  rintro ⟨batches, m'⟩ ⟨hbatches, hm'⟩ rule -
  dsimp only
  split_ifs
  · exact ⟨hbatches.append (hm'.retireBatches rule.id),
      hm'.retires (.retireRule m' rule.id now _ (by simp) (by simp))⟩
  · exact ⟨hbatches, hm'⟩

/-- A rule that is put in force records its own element, or keeps what its metadata said. -/
theorem deployToSets (h : AllWithdrawable m) (sets : FakeSetBackend) (rule : FirewallRule) (now : Time)
    (upgradeOf : Option String) (hrule : rule.action.restrictive = true ∨ DeletesValid rule) :
    AllWithdrawable (m.deployToSets sets rule now upgradeOf).2 := by
  rcases m.deployToSets_cases sets rule now upgradeOf with
    heq | ⟨faults, transitions, -, heq⟩ | ⟨target, additions, metadata, sets', hdeploy⟩
  · rw [heq]
    exact h
  · rw [heq]
    exact h.set (r := { rule with status := .rejected }) (.retired rule (by simp) (by simp)) rfl
  · obtain ⟨transitions, heq⟩ := hdeploy.result
    rw [heq]
    intro id other hother
    rw [get?_deployedRules] at hother
    split_ifs at hother with hid hreplaced
    · -- the deployed rule itself
      rw [← Option.some.inj hother]
      refine .inr ?_
      rcases elementAddition_ok hdeploy.addition with
        ⟨hunrestrictive, -, rfl⟩ | ⟨element, _, hfor, -, -, hrecorded⟩
      · exact hrule.resolve_left fun hr => by simp [hunrestrictive] at hr
      · exact deletesValid_of_elementOf hrecorded (validateElement_withdrawal hfor)
    · obtain ⟨old, hold, rfl⟩ := Option.map_eq_some_iff.mp hother
      exact .retired old (by simp) (by simp)
    · exact h id other hother

/-- What `reconcile` adopts, it was told by the kernel. -/
theorem reconcile (h : AllWithdrawable m) (hkeyed : Keyed m) {b : FakeSetBackend} (hsets : m.sets = some b)
    (hcanonical : b.Canonical) (now : Time) : AllWithdrawable (m.reconcile now).2 := by
  rcases reconcile_cases hsets now with heq | ⟨b', e, -, heq⟩ | ⟨b', live, report, hlisted, heq⟩
  · rw [heq]
    exact h
  · rw [heq]
    exact h
  · rw [heq]
    refine adoptUnknown_induction (I := AllWithdrawable) _ ?_ _ report ?_
    · intro m' setName key expiresIn hlive _ hset hm'
      rcases m'.adopt_cases setName key expiresIn now with heq | ⟨rule, ip, transitions, -, -, hel, heq⟩
      · rw [heq]
        exact hm'
      · rw [heq]
        refine hm'.set (r := rule) (.inr (deletesValid_of_elementOf hel ?_)) rfl
        -- what is adopted was listed, so the kernel held it
        obtain ⟨-, e, he, -⟩ := hlisted.sound live rfl _ (mem_sortedLive.mp hlive)
        have hshape : ∃ shape, managerWritableSets.lookup (adaptiveSet setName) = some shape := by
          simp only [ipKeyedSets, List.mem_cons, List.not_mem_nil, or_false] at hset
          rcases hset with rfl | rfl
          · exact ⟨_, rfl⟩
          · exact ⟨_, rfl⟩
        obtain ⟨shape, hshape⟩ := hshape
        exact validateElement_delete rfl hshape
          (hcanonical (adaptiveSet setName) shape hshape (.one key) e he)
    · have hdemoted := retireMissing_demoted (m := { m with sets := some b' }) hkeyed (live.map Prod.fst) now
      exact h.retires (hdemoted.retiresFrom (.of_eq rfl rfl rfl))

end AllWithdrawable

/-! ## Runs -/

/-- What a run keeps. -/
structure Tidy (m : FirewallManager) : Prop where
  keyed : Keyed m
  canonical : ∃ b, m.sets = some b ∧ b.Canonical
  rules : AllWithdrawable m

/-- The call puts a forged candidate in force: its chain admits it, and the mode is not SHADOW. -/
def DeploysForged (m : FirewallManager) (call : Env × ManagerOp) : Prop :=
  ∃ candidate, call.2 = .submitCandidate candidate ∧ ¬ Unforged candidate ∧ m.enforcementMode ≠ .shadow ∧
    (m.verdict call.1 candidate).1.isOk = true

/-- Every op of every batch that the call hands to `apply`. -/
def HandsAccepted (m : FirewallManager) (call : Env × ManagerOp) : Prop :=
  ∀ ops ∈ m.handed call, ∀ op ∈ ops, ∃ shape, op.Accepted shape

theorem Tidy.handed {m : FirewallManager} (h : Tidy m) (call : Env × ManagerOp) : HandsAccepted m call := by
  obtain ⟨b, hsets, hcanonical⟩ := h.canonical
  suffices hpass : AllPass (m.handed call) from fun ops hmem op hop => validateElement_ok (hpass ops hmem op hop)
  obtain ⟨env, op⟩ := call
  unfold FirewallManager.handed
  rw [hsets]
  cases op with
  | submitCandidate candidate => exact h.rules.submitBatches env candidate
  | approvePending ruleId => exact h.rules.approveBatches ruleId env.now
  | disableRule ruleId => exact h.rules.retireBatches ruleId
  | removeRule ruleId => exact h.rules.retireBatches ruleId
  | expireRules => exact h.rules.expireBatches env.now
  | addAllowlistEntry entry => exact addAllowlist_accepted m entry
  | removeAllowlistEntry entryId => exact removeAllowlist_accepted m entryId
  | syncAllowlist => exact syncAllowlist_accepted hcanonical env.now
  | syncBindings change => exact syncBindings_accepted m change env.now
  | replaceBindings bindings => exact replaceBindings_accepted hcanonical bindings env.now
  | _ => exact .nil

/-- A submission: an admitted rule waits under what its candidate said, or is put in force. -/
theorem AllWithdrawable.submitToSets {m : FirewallManager} (h : AllWithdrawable m) (env : Env) (b : FakeSetBackend)
    {candidate : CandidateRule} (hforged : ¬ DeploysForged m (env, .submitCandidate candidate)) :
    AllWithdrawable (m.submitToSets env b candidate).2 := by
  cases hverdict : (m.verdict env candidate).1 with
  | error r =>
    rw [submitToSets_error b hverdict]
    exact h
  | ok _ =>
    rcases m.submitToSets_cases env b candidate with
      ⟨_, heq⟩ | ⟨target, upgradeOf, rule, _, _, ⟨priority, hsource, rfl⟩, hcases⟩
    · rw [heq]
      exact h
    · rcases hcases with ⟨status, _, _, hkept, heq⟩ | ⟨hmode, rateLimiter, transitions, heq⟩
      · rw [heq]
        refine h.set (r := { candidate.toRule priority (some target) hsource with status := status })
          (.inl ?_) rfl
        -- a shadowed rule stays out of force, and only a BLOCK is held for review
        rcases hkept with ⟨rfl, -⟩ | ⟨rfl, -, hblock⟩
        · exact ⟨by simp, fun hpending => nomatch hpending⟩
        · refine ⟨by simp, fun _ => ?_⟩
          show candidate.action.restrictive = true
          rw [hblock]
          rfl
      · rw [heq]
        have hunforged : Unforged candidate := by
          by_contra hnot
          exact hforged ⟨candidate, rfl, hnot, hmode, by rw [hverdict]; rfl⟩
        exact AllWithdrawable.deployToSets (m := { m with
          rateLimiter, transitions
          targets := m.targets.set candidate.id target }) h b _ env.now upgradeOf
          (hunforged.imp_right fun hmetadata => deletesValid_of_metadata hmetadata)

/-- An approval: what was held had an element to come, or metadata that can stay. -/
theorem AllWithdrawable.approvePending {m : FirewallManager} (h : AllWithdrawable m) {b : FakeSetBackend}
    (hsets : m.sets = some b) (ruleId : String) (now : Time) : AllWithdrawable (m.approvePending ruleId now).2 := by
  rcases m.approvePending_cases ruleId now with heq | ⟨rule, hrule, hpending, hcases⟩
  · rw [heq]
    exact h
  · have hheld : rule.action.restrictive = true ∨ DeletesValid rule :=
      (h ruleId rule hrule).imp_left fun hwaits => hwaits.2 hpending
    rcases hcases with ⟨sets, transitions, _, heq⟩ | ⟨hnone, _⟩
    · rw [heq]
      exact AllWithdrawable.deployToSets (m := { m with transitions }) h sets { rule with status := .approved } now _
        hheld
    · exact nomatch hnone.symm.trans hsets

theorem AllWithdrawable.step {m : FirewallManager} (h : Tidy m) (call : Env × ManagerOp)
    (hforged : ¬ DeploysForged m call) : AllWithdrawable (m.step call) := by
  obtain ⟨b, hsets, hcanonical⟩ := h.canonical
  obtain ⟨env, op⟩ := call
  by_cases hother : (∀ candidate, op ≠ .submitCandidate candidate) ∧
      (∀ ruleId, op ≠ .approvePending ruleId) ∧ op ≠ .reconcile
  · exact h.rules.retires (step_retires h.keyed env op hother.1 hother.2.1 hother.2.2)
  cases op with
  | submitCandidate candidate =>
    simp only [FirewallManager.step, submitCandidate, hsets]
    exact h.rules.submitToSets env b hforged
  | approvePending ruleId => exact h.rules.approvePending hsets ruleId env.now
  | reconcile => exact h.rules.reconcile h.keyed hsets hcanonical env.now
  | _ => exact absurd ⟨by simp, by simp, by simp⟩ hother

theorem Tidy.step {m : FirewallManager} (h : Tidy m) (call : Env × ManagerOp) (hforged : ¬ DeploysForged m call) :
    Tidy (m.step call) := by
  obtain ⟨b, hsets, hcanonical⟩ := h.canonical
  refine ⟨step_keyed h.keyed call, ⟨_, step_applyAll h.keyed hsets call, ?_⟩, .step h call hforged⟩
  exact ((shrinks_beforeHanding m b call).canonical hcanonical).applyAll _ _

theorem tidy_init (config : PirewallConfig) (backend : FakeFirewallBackend) (store : Option AllowlistStore)
    {b : FakeSetBackend} (h : b.Canonical) : Tidy (init config backend store (some b)) := by
  refine ⟨keyed_init config backend store (some b), ⟨b, rfl, h⟩, ?_⟩
  intro id rule hrule
  exact absurd hrule (by simp [init])

/-- No op is refused: from a kernel that holds canonical keys, along every run that puts no forged candidate in force,
every op handed to `apply` passes `validate_element`. -/
theorem ops_accepted (config : PirewallConfig) (backend : FakeFirewallBackend) (store : Option AllowlistStore)
    (b : FakeSetBackend) (calls : List (Env × ManagerOp)) (hcanonical : b.Canonical)
    (hforged : Along step (fun m call => ¬ DeploysForged m call) (init config backend store (some b)) calls) :
    Along step HandsAccepted (init config backend store (some b)) calls :=
  hforged.of_invariant (fun _ call hm hcall => hm.step call hcall) (fun _ call hm _ => hm.handed call)
    (tidy_init config backend store hcanonical)

theorem siteCandidate_unforged (id : String) (action : FirewallAction) (device : Nat) (expiresAt : Time) :
    Unforged (siteCandidate id action device expiresAt) := .inr fun _ _ hset => nomatch hset

/-- A rate limit that a block supersedes, a rule that is only watched, and what becomes of them. -/
def handledCalls : List (Env × ManagerOp) :=
  [siteDecision,
   (siteEnv 0, .submitCandidate (siteCandidate "limit" .rateLimit 9 (seconds 600))),
   (siteEnv 1, .submitCandidate (siteCandidate "watch" .monitor 10 (seconds 600))),
   (siteEnv 2, .submitCandidate (siteCandidate "block" .block 9 (seconds 600))),
   (siteEnv 3, .disableRule "watch"),
   (siteEnv 4, .syncAllowlist),
   (siteEnv (seconds 900), .expireRules)]

theorem ops_accepted_handled :
    Along step HandsAccepted (siteManager .active (some siteKernel)) handledCalls := by
  refine ops_accepted (siteConfig .active) siteBackend none siteKernel handledCalls
    (FakeSetBackend.canonical_load _ _ _) ?_
  refine Along.of_forall ?_ _
  rintro call hcall m ⟨candidate, hop, hnot, -⟩
  refine hnot ?_
  simp only [handledCalls, siteDecision, List.mem_cons, List.not_mem_nil, or_false] at hcall
  rcases hcall with rfl | rfl | rfl | rfl | rfl | rfl | rfl <;> cases hop
  · exact siteCandidate_unforged _ _ _ _
  · exact siteCandidate_unforged _ _ _ _
  · exact siteCandidate_unforged _ _ _ _

/-- A rule that is only watched, with metadata that name an element of `allow_bound`. -/
def forgedCandidate : CandidateRule :=
  { siteCandidate "watch" .monitor 9 (seconds 600) with
    metadata := (Dict.empty.set metaSet setAllowBound).set metaKey "10.0.0.50" }

/-- When it is disabled, `_delete_ops` hands over what its metadata say: half of a pair. -/
theorem forged_metadata_refused :
    siteKernel.Canonical ∧
    ¬ Along step HandsAccepted (siteManager .active (some siteKernel))
      [siteDecision, (siteEnv 0, .submitCandidate forgedCandidate), (siteEnv 1, .disableRule "watch")] := by
  refine ⟨FakeSetBackend.canonical_load _ _ _, fun h => ?_⟩
  have hhanded : ((siteManager .active (some siteKernel)).run
      [siteDecision, (siteEnv 0, .submitCandidate forgedCandidate)]).handed (siteEnv 1, .disableRule "watch") =
        [[{ kind := .delete, setName := setAllowBound, key := .one "10.0.0.50" }]] := by
    decide +kernel
  have hlast : HandsAccepted ((siteManager .active (some siteKernel)).run
      [siteDecision, (siteEnv 0, .submitCandidate forgedCandidate)]) (siteEnv 1, .disableRule "watch") := h.2.2.1
  unfold HandsAccepted at hlast
  rw [hhanded] at hlast
  obtain ⟨shape, haccepted⟩ := hlast _ List.mem_cons_self _ List.mem_cons_self
  exact absurd haccepted.passes (by decide)

end FirewallManager

end Pirewall
