/-
# Pirewall.Firewall.AllowBound -- the meter exemption follows the allowlist

An allowlist entry with a MAC and a /32 pins one (MAC . IP) pair, and both `allow_bound` sets are to hold exactly the
pinned pairs. Several entries may pin one pair and entry ids may repeat, and the code keeps no count: an addition is
skipped when an entry with another id pins the pair already, and a removal deletes the pair unless an entry that is
left still pins it. `InStep` is the invariant that both tests maintain.

The sets are declared `type ether_addr . ipv4_addr` without a timeout, so an element of theirs is a pair and never
runs out: `Untimed`. A deletion on a loaded set cannot be refused for lack of room, which is what makes the error that
`remove_allowlist_entry` suppresses one the kernel never raises by itself.

`sync_allowlist` does not rest on the invariant. It lists what the sets hold and sends the difference to what is
pinned, so it brings the sets in step from whatever state a restart has found them in, and the invariant starts there.
The order of its ops does not matter, since each pair of each set has one op at most: it is wanted and missing, or
held and not wanted (`synced_iff`).

A call that raises changes nothing that counts. The store is written first and the kernel last, so where the store
fails nothing was sent; and where the kernel refuses an addition the call has raised, which the run lemma excludes by
asking for calls that go through.
-/
import Pirewall.Lib.Run
import Pirewall.Firewall.BindingSets
import Pirewall.Firewall.Lifecycle

namespace Pirewall

open Lib NftNames

/-! ## Elements without a timeout -/

namespace FakeSetBackend

/-- No element of the set has an expiry. -/
def Untimed (b : FakeSetBackend) (a : SetAddress) : Prop :=
  ∀ k e, b.expiry? a k = some e → e = none

/-- An element without an expiry is there at every time or at none. -/
theorem Untimed.holds_iff {b : FakeSetBackend} {a : SetAddress} (h : b.Untimed a) (clock : Time)
    (k : ElementKey) : b.holds clock a k = true ↔ (b.expiry? a k).isSome := by
  unfold holds
  cases hexp : b.expiry? a k with
  | none => simp
  | some e =>
    obtain rfl := h k e hexp
    simp [isLive]

theorem foldl_keyStep_untimed {now : Time} {ops : List SetOp} (hops : ∀ op ∈ ops, op.timeoutSeconds = none)
    {current : Option (Option Time)} (hcurrent : ∀ e, current = some e → e = none) :
    ∀ e, ops.foldl (keyStep now) current = some e → e = none := by
  induction ops generalizing current with
  | nil => exact hcurrent
  | cons op ops ih =>
    obtain ⟨htimeout, hops⟩ := List.forall_mem_cons.mp hops
    refine ih hops ?_
    intro e he
    unfold keyStep at he
    split at he
    · exact absurd he (by simp)
    · split at he
      · rename_i expires
        exact hcurrent e he
      · simpa [htimeout] using he.symm

theorem Applied.untimed {b b' : FakeSetBackend} {ops : List SetOp} {now : Time}
    (h : b.Applied ops now b') (hops : ∀ op ∈ ops, op.timeoutSeconds = none) {a : SetAddress}
    (ha : b.Untimed a) : b'.Untimed a := by
  intro k e he
  rw [h.expiry] at he
  split at he
  · refine foldl_keyStep_untimed (fun op hop => hops op (List.mem_of_mem_filter hop)) ?_ e he
    intro e' he'
    exact ha k e' (Option.filter_eq_some_iff.mp he').1
  · exact ha k e he

/-- What a batch leaves of an element depends on the ops on that element only. -/
theorem keyResult_opsOn (now : Time) (ops : List SetOp) (a : SetAddress) (k : ElementKey)
    (before : Option (Option Time)) :
    keyResult now (opsOn ops a k) a k before = keyResult now ops a k before := by
  simp only [keyResult, opsOn, List.filter_filter, Bool.and_self]

/-- A batch whose ops on an element are all additions, or all deletions. -/
theorem Applied.holds_of_kind {b b' : FakeSetBackend} {ops : List SetOp} {now : Time}
    (h : b.Applied ops now b') (huntimed : ∀ op ∈ ops, op.timeoutSeconds = none) {a : SetAddress}
    {k : ElementKey} (kind : SetOpKind)
    (hkind : ∀ op ∈ ops, op.address = a ∧ op.key = k → op.kind = kind) :
    b'.holds now a k = true ↔ (kind = .add ∧ ∃ op ∈ ops, op.address = a ∧ op.key = k) ∨
      (b.holds now a k = true ∧ (kind = .delete → ∀ op ∈ ops, ¬ (op.address = a ∧ op.key = k))) := by
  have hmem : ∀ op, op ∈ opsOn ops a k ↔ op ∈ ops ∧ op.address = a ∧ op.key = k := by
    intro op
    simp [opsOn]
  have hresult : b'.holds now a k = true ↔
      (keyResult now (opsOn ops a k) a k (b.expiry? a k)).any (isLive now) = true := by
    rw [keyResult_opsOn, holds, h.expiry]
    split
    · exact Iff.rfl
    · rename_i hout
      rw [keyResult_untouched _ fun op hop hon => hout (List.mem_map.mpr ⟨op, hop, hon.1⟩),
        holds_of_filter (.inr rfl)]
  rw [hresult]
  cases kind with
  | add =>
    have hadds : ∀ op ∈ opsOn ops a k, op.kind = .add ∧ ∀ t, op.timeoutSeconds = some t → 0 < t := by
      intro op hop
      obtain ⟨hop, hon⟩ := (hmem op).mp hop
      exact ⟨hkind op hop hon, fun t ht => absurd ((huntimed op hop).symm.trans ht) (by simp)⟩
    have hnil : ∀ op ∈ ([] : List SetOp), op.kind = .delete := by simp
    rw [← List.nil_append (opsOn ops a k), keyResult_live_iff hnil hadds]
    simp [hmem, holds]
  | delete =>
    have hdels : ∀ op ∈ opsOn ops a k, op.kind = .delete := by
      intro op hop
      obtain ⟨hop, hon⟩ := (hmem op).mp hop
      exact hkind op hop hon
    have hnil : ∀ op ∈ ([] : List SetOp),
        op.kind = .add ∧ ∀ t, op.timeoutSeconds = some t → 0 < t := by simp
    rw [← List.append_nil (opsOn ops a k), keyResult_live_iff hdels hnil]
    refine or_congr (by simp) (and_congr_right fun _ => ?_)
    constructor
    · exact fun hnone _ op hop hon => hnone op ((hmem op).mpr ⟨hop, hon⟩) hon
    · exact fun hnone op hop => hnone rfl op ((hmem op).mp hop).1

end FakeSetBackend

namespace FirewallManager

/-! ## What an allowlist pins -/

/-- Both `allow_bound` sets. -/
def allowBoundSets : List SetAddress := allowBoundTables.map fun table => ⟨inetFamily, table, setAllowBound⟩

/-- The entries of the allowlist pin this element. -/
def Pinned (allowlist : List AllowlistEntry) (k : ElementKey) : Prop :=
  ∃ entry ∈ allowlist, ∃ pair, allowBoundPair entry = some pair ∧ k = .pair pair.1 pair.2

theorem pinned_iff_mem {allowlist : List AllowlistEntry} {pair : String × String} :
    Pinned allowlist (.pair pair.1 pair.2) ↔ pair ∈ allowBoundPairs allowlist none := by
  simp only [Pinned, allowBoundPairs, ElementKey.pair.injEq, List.mem_filterMap, List.mem_filter]
  constructor
  · rintro ⟨entry, hentry, pair', hpair, h1, h2⟩
    obtain rfl : pair = pair' := Prod.ext h1 h2
    exact ⟨entry, ⟨hentry, by simp⟩, hpair⟩
  · rintro ⟨entry, ⟨hentry, _⟩, hpair⟩
    exact ⟨entry, hentry, pair, hpair, rfl, rfl⟩

/-- A pair pinned by an entry with another id is pinned. -/
theorem pinned_of_mem_exclude {allowlist : List AllowlistEntry} {entry : AllowlistEntry}
    {pair : String × String} (h : pair ∈ allowBoundPairs (allowlist ++ [entry]) (some entry.id)) :
    Pinned allowlist (.pair pair.1 pair.2) := by
  obtain ⟨other, hother, hpair⟩ := List.mem_filterMap.mp h
  obtain ⟨hmem, hid⟩ := List.mem_filter.mp hother
  rcases List.mem_append.mp hmem with hmem | hmem
  · exact ⟨other, hmem, pair, hpair, rfl⟩
  · -- the entry itself has the excluded id
    rw [List.mem_singleton.mp hmem] at hid
    exact absurd hid (by simp)

theorem pinned_append {allowlist : List AllowlistEntry} {entry : AllowlistEntry} {k : ElementKey} :
    Pinned (allowlist ++ [entry]) k ↔ Pinned allowlist k ∨
      ∃ pair, allowBoundPair entry = some pair ∧ k = .pair pair.1 pair.2 := by
  simp only [Pinned, List.mem_append, List.mem_singleton, or_and_right, exists_or, exists_eq_left]

/-- Removing the entry `find?` finds unpins its pair at most. -/
theorem pinned_eraseP {allowlist : List AllowlistEntry} {p : AllowlistEntry → Bool}
    {entry : AllowlistEntry} (h : allowlist.find? p = some entry) {k : ElementKey} :
    Pinned allowlist k ↔ Pinned (allowlist.eraseP p) k ∨
      ∃ pair, allowBoundPair entry = some pair ∧ k = .pair pair.1 pair.2 := by
  obtain ⟨hp, before, after, rfl, hbefore⟩ := List.find?_eq_some_iff_append.mp h
  have herase : (before ++ entry :: after).eraseP p = before ++ after := by
    rw [List.eraseP_append_right _ (fun b hb => by simpa using hbefore b hb), List.eraseP_cons_of_pos hp]
  rw [herase]
  simp only [Pinned, List.mem_append, List.mem_cons]
  constructor
  · rintro ⟨other, hother | rfl | hother, hpair⟩
    · exact .inl ⟨other, .inl hother, hpair⟩
    · exact .inr hpair
    · exact .inl ⟨other, .inr hother, hpair⟩
  · rintro (⟨other, hother | hother, hpair⟩ | hpair)
    · exact ⟨other, .inl hother, hpair⟩
    · exact ⟨other, .inr (.inr hother), hpair⟩
    · exact ⟨entry, .inr (.inl rfl), hpair⟩

theorem lookup_allowBound {table : String} (h : table ∈ allowBoundTables) :
    managerWritableSets.lookup ⟨inetFamily, table, setAllowBound⟩ = some ⟨.macIpv4, false⟩ := by
  simp only [allowBoundTables, List.mem_cons, List.not_mem_nil, or_false] at h
  rcases h with rfl | rfl
  · rfl
  · rfl

/-- The ops of one pair: one in each set, on that pair, and valid. -/
theorem allowBoundOps_spec {entry : AllowlistEntry} {pair : String × String}
    (hpair : allowBoundPair entry = some pair) (kind : SetOpKind) :
    (∀ op ∈ allowBoundOps kind pair, op.kind = kind ∧ op.timeoutSeconds = none ∧
      validateElement op = .ok () ∧ op.address ∈ allowBoundSets) ∧
    ∀ a ∈ allowBoundSets, ∀ k,
      (∃ op ∈ allowBoundOps kind pair, op.address = a ∧ op.key = k) ↔ k = .pair pair.1 pair.2 := by
  constructor
  · intro op hop
    obtain ⟨table, htable, rfl⟩ := List.mem_map.mp hop
    refine ⟨rfl, rfl, ?_, List.mem_map.mpr ⟨table, htable, rfl⟩⟩
    unfold allowBoundPair at hpair
    split at hpair
    · exact absurd hpair (by simp)
    rename_i mac _
    split at hpair
    · exact absurd hpair (by simp)
    obtain rfl := Option.some.inj hpair
    exact validateElement_untimed (s := ⟨.macIpv4, false⟩) (lookup_allowBound htable)
      (by simp [normaliseKey, bind, Except.bind, pure, Except.pure]) rfl (fun t ht => absurd ht (by simp))
  · intro a ha k
    obtain ⟨table, htable, rfl⟩ := List.mem_map.mp ha
    constructor
    · rintro ⟨op, hop, _, hkey⟩
      obtain ⟨_, _, rfl⟩ := List.mem_map.mp hop
      exact hkey.symm
    · rintro rfl
      exact ⟨_, List.mem_map.mpr ⟨table, htable, rfl⟩, rfl, rfl⟩

/-! ## The invariant -/

/-- Both `allow_bound` sets hold exactly what the allowlist pins, and the backend takes what it can. -/
structure InStep (m : FirewallManager) (b : FakeSetBackend) : Prop where
  sets : m.sets = some b
  faults : b.faults = []
  loaded : ∀ a ∈ allowBoundSets, (b.find? a).isSome
  untimed : ∀ a ∈ allowBoundSets, b.Untimed a
  held : ∀ a ∈ allowBoundSets, ∀ k, (b.expiry? a k).isSome ↔ Pinned m.allowlist k

theorem InStep.holds_iff {m : FirewallManager} {b : FakeSetBackend} (h : InStep m b) {a : SetAddress}
    (ha : a ∈ allowBoundSets) (clock : Time) (k : ElementKey) :
    b.holds clock a k = true ↔ Pinned m.allowlist k :=
  ((h.untimed a ha).holds_iff clock k).trans (h.held a ha k)

/-- A batch of ops of one kind on one pair, from a state that is in step with another allowlist. -/
theorem InStep.apply {m m' : FirewallManager} {b : FakeSetBackend} (h : InStep m b)
    {entry : AllowlistEntry} {pair : String × String} (hpair : allowBoundPair entry = some pair)
    {kind : SetOpKind} {now : Time} (hok : (b.apply (allowBoundOps kind pair) now).1 = .ok ())
    (hsets : m'.sets = some (b.apply (allowBoundOps kind pair) now).2)
    (hpinned : ∀ k, Pinned m'.allowlist k ↔ (kind = .add ∧ k = .pair pair.1 pair.2) ∨
      (Pinned m.allowlist k ∧ (kind = .delete → k ≠ .pair pair.1 pair.2))) :
    InStep m' (b.apply (allowBoundOps kind pair) now).2 := by
  obtain ⟨hops, hon⟩ := allowBoundOps_spec hpair kind
  rcases b.apply_cases (allowBoundOps kind pair) now with ⟨_, happlied⟩ | ⟨_, _, herror, _⟩
  swap
  · rw [herror] at hok
    exact absurd hok (by simp)
  have huntimed : ∀ a ∈ allowBoundSets, (b.apply (allowBoundOps kind pair) now).2.Untimed a :=
    fun a ha => happlied.untimed (fun op hop => (hops op hop).2.1) (h.untimed a ha)
  refine ⟨hsets, happlied.faults h.faults, ?_, huntimed, ?_⟩
  · intro a ha
    rw [happlied.loaded]
    exact h.loaded a ha
  · intro a ha k
    rw [← (huntimed a ha).holds_iff now k,
      happlied.holds_of_kind (fun op hop => (hops op hop).2.1) kind (fun op hop _ => (hops op hop).1),
      hon a ha k, h.holds_iff ha, hpinned]
    refine or_congr Iff.rfl (and_congr_right fun _ => forall_congr' fun _ => ?_)
    rw [ne_eq, ← hon a ha k]
    simp

/-! ## Adding and removing -/

theorem InStep.addAllowlistEntry {m : FirewallManager} {b : FakeSetBackend} (h : InStep m b)
    (entry : AllowlistEntry) (now : Time) (hok : (m.addAllowlistEntry entry now).1 = .ok ()) :
    ∃ b', InStep (m.addAllowlistEntry entry now).2 b' := by
  unfold FirewallManager.addAllowlistEntry at hok ⊢
  split at hok
  · exact absurd hok (by simp)
  rename_i m₁ hstoring
  obtain ⟨store, hstored⟩ := storing_frame hstoring
  have hsets : m₁.sets = some b := by rw [hstored]; exact h.sets
  have hallowlist : m₁.allowlist = m.allowlist ++ [entry] := by rw [hstored]
  cases hpair : allowBoundPair entry with
  | none =>
    -- the entry pins nothing, so nothing is written
    simp only
    refine ⟨b, hsets, h.faults, h.loaded, h.untimed, ?_⟩
    intro a ha k
    rw [h.held a ha, hallowlist, pinned_append]
    simp [hpair]
  | some pair =>
    simp only [hpair, hsets] at hok ⊢
    split
    · rename_i hpinned
      rw [hallowlist] at hpinned
      refine ⟨b, hsets, h.faults, h.loaded, h.untimed, ?_⟩
      intro a ha k
      rw [h.held a ha, hallowlist, pinned_append]
      constructor
      · exact .inl
      · rintro (hk | ⟨pair', hpair', rfl⟩)
        · exact hk
        · obtain rfl := Option.some.inj (hpair.symm.trans hpair')
          exact pinned_of_mem_exclude hpinned
    · rename_i hunpinned
      rw [if_neg hunpinned] at hok
      refine ⟨_, h.apply hpair hok rfl ?_⟩
      intro k
      show Pinned m₁.allowlist k ↔ _
      rw [hallowlist, pinned_append]
      simp [hpair, or_comm]

theorem InStep.removeAllowlistEntry {m : FirewallManager} {b : FakeSetBackend} (h : InStep m b)
    (entryId : String) (now : Time) {removed : Bool}
    (hok : (m.removeAllowlistEntry entryId now).1 = .ok removed) :
    ∃ b', InStep (m.removeAllowlistEntry entryId now).2 b' := by
  unfold FirewallManager.removeAllowlistEntry at hok ⊢
  cases hfind : m.allowlist.find? fun entry => entry.id == entryId with
  | none => exact ⟨b, h⟩
  | some entry =>
    simp only [hfind] at hok ⊢
    split at hok
    · exact absurd hok (by simp)
    rename_i m₁ hstoring
    obtain ⟨store, hstored⟩ := storing_frame hstoring
    have hsets : m₁.sets = some b := by rw [hstored]; exact h.sets
    have hallowlist : m₁.allowlist = m.allowlist.eraseP fun entry => entry.id == entryId := by rw [hstored]
    -- what is pinned without the entry
    have hpinned := @pinned_eraseP _ _ _ hfind
    rw [← hallowlist] at hpinned
    cases hpair : allowBoundPair entry with
    | none =>
      simp only
      refine ⟨b, hsets, h.faults, h.loaded, h.untimed, ?_⟩
      intro a ha k
      rw [h.held a ha, hpinned]
      simp [hpair]
    | some pair =>
      simp only [hsets]
      split
      · -- an entry that is left pins the pair too
        rename_i hstill
        refine ⟨b, hsets, h.faults, h.loaded, h.untimed, ?_⟩
        intro a ha k
        rw [h.held a ha, hpinned]
        constructor
        · rintro (hk | ⟨pair', hpair', rfl⟩)
          · exact hk
          · obtain rfl := Option.some.inj (hpair.symm.trans hpair')
            exact pinned_iff_mem.mpr hstill
        · exact .inl
      · rename_i hgone
        obtain ⟨hops, _⟩ := allowBoundOps_spec hpair .delete
        -- the deletion cannot be refused: no fault is scripted, and the sets are loaded
        have hdelete : (b.apply (allowBoundOps .delete pair) now).1 = .ok () :=
          FakeSetBackend.apply_deletes_ok now h.faults (fun op hop => (hops op hop).1)
            (fun op hop => (hops op hop).2.2.1) fun op hop => h.loaded _ (hops op hop).2.2.2
        -- with its last entry gone, the pair is pinned no more and held no more
        refine ⟨_, h.apply hpair hdelete rfl ?_⟩
        intro k
        show Pinned m₁.allowlist k ↔ _
        rw [hpinned]
        constructor
        · intro hk
          refine .inr ⟨.inl hk, ?_⟩
          rintro _ rfl
          exact hgone (pinned_iff_mem.mp hk)
        · rintro (⟨hadd, _⟩ | ⟨hk | ⟨pair', hpair', rfl⟩, hne⟩)
          · exact absurd hadd (by simp)
          · exact hk
          · obtain rfl := Option.some.inj (hpair.symm.trans hpair')
            exact absurd rfl (hne rfl)

/-! ## Synchronising -/

theorem mem_sortedPairs {pairs : List (String × String)} {pair : String × String} :
    pair ∈ sortedPairs pairs ↔ pair ∈ pairs := by
  rw [sortedPairs, (List.perm_insertionSort _ _).mem_iff, List.mem_dedup]

/-- The op of one pair in one set. -/
def allowBoundOp (kind : SetOpKind) (table : String) (pair : String × String) : SetOp :=
  { kind, setName := setAllowBound, key := .pair pair.1 pair.2, table }

theorem mem_allowBoundDiff {table : String} {wanted live : List (String × String)} {op : SetOp} :
    op ∈ allowBoundDiff table wanted live ↔
      (∃ pair, (pair ∈ live ∧ pair ∉ wanted) ∧ allowBoundOp .delete table pair = op) ∨
      ∃ pair, (pair ∈ wanted ∧ pair ∉ live) ∧ allowBoundOp .add table pair = op := by
  simp only [allowBoundDiff, List.mem_append, List.mem_map, mem_sortedPairs, List.mem_filter,
    decide_eq_true_eq]
  rfl

/-- The `allow_bound` sets as their declaration makes them: each element is a pair, without a timeout. -/
structure PairKernel (b : FakeSetBackend) : Prop where
  untimed : ∀ a ∈ allowBoundSets, b.Untimed a
  pairs : ∀ a ∈ allowBoundSets, ∀ text, b.expiry? a (.one text) = none

/-- Some sets were listed: what had run out may be gone, and nothing else. -/
structure AfterListing (b : FakeSetBackend) (now : Time) (b' : FakeSetBackend) : Prop where
  holds : ∀ a k, b'.holds now a k = b.holds now a k
  untimed : ∀ a, b.Untimed a → b'.Untimed a
  loaded : ∀ a, (b'.find? a).isSome = (b.find? a).isSome
  faults : b'.faults = b.faults

theorem AfterListing.refl (b : FakeSetBackend) (now : Time) : AfterListing b now b :=
  ⟨fun _ _ => rfl, fun _ h => h, fun _ => rfl, rfl⟩

theorem AfterListing.trans {b₁ b₂ b₃ : FakeSetBackend} {now : Time} (h : AfterListing b₁ now b₂)
    (h' : AfterListing b₂ now b₃) : AfterListing b₁ now b₃ where
  holds a k := (h'.holds a k).trans (h.holds a k)
  untimed a ha := h'.untimed a (h.untimed a ha)
  loaded a := (h'.loaded a).trans (h.loaded a)
  faults := h'.faults.trans h.faults

theorem AfterListing.listSet (b : FakeSetBackend) (a : SetAddress) (now : Time) :
    AfterListing b now (b.listSet a now).2 := by
  obtain ⟨_, _, hfaults, hloaded, _⟩ := b.listSet_frame a now
  refine ⟨b.listSet_holds a now, ?_, hloaded, hfaults⟩
  intro a' ha' k e he
  cases hlist : (b.listSet a now).1 with
  | error err =>
    have hsame : (b.listSet a now).2 = b := by
      unfold FakeSetBackend.listSet at hlist ⊢
      split at hlist
      · rfl
      · exact absurd hlist (by simp)
    rw [hsame] at he
    exact ha' k e he
  | ok elements =>
    rw [(FakeSetBackend.listSet_ok hlist).2] at he
    split at he
    · rename_i heq
      subst heq
      exact ha' k e (Option.filter_eq_some_iff.mp he).1
    · exact ha' k e he

theorem allowlistOps_listed (wanted : List (String × String)) (now : Time) (tables : List String)
    (sets : FakeSetBackend) : AfterListing sets now (allowlistOps sets wanted now tables).2 := by
  induction tables generalizing sets with
  | nil => exact .refl sets now
  | cons table tables ih =>
    have hlist := AfterListing.listSet sets ⟨inetFamily, table, setAllowBound⟩ now
    unfold allowlistOps
    split
    · rename_i e sets₁ heq
      rw [heq] at hlist
      exact hlist
    · rename_i elements sets₁ heq
      rw [heq] at hlist
      have hrest := hlist.trans (ih sets₁)
      simp only
      split
      · rename_i e sets₂ heq₂
        rw [heq₂] at hrest
        exact hrest
      · rename_i rest sets₂ heq₂
        rw [heq₂] at hrest
        exact hrest

/-- The pairs a listing of one set reports. -/
theorem mem_listedPairs {b : FakeSetBackend} {a : SetAddress} {now : Time} {elements : List ElementState}
    (h : (b.listSet a now).1 = .ok elements) {pair : String × String} :
    (pair ∈ elements.filterMap fun el =>
      match el.key with | .pair mac ip => some (mac, ip) | .one _ => none) ↔
      b.holds now a (.pair pair.1 pair.2) = true := by
  have hkey := (FakeSetBackend.listSet_ok h).1 (.pair pair.1 pair.2)
  rw [FakeSetBackend.holds, Option.any_eq_true, ← hkey, List.mem_filterMap, List.mem_map]
  refine exists_congr fun el => and_congr_right fun _ => ?_
  cases el.key with
  | one text => simp
  | pair mac ip => simp [Prod.ext_iff]

/-- The ops of a synchronisation: in each set, what is held and not wanted is deleted and what is wanted
and not held is added. -/
def SyncsTo (b : FakeSetBackend) (wanted : List (String × String)) (now : Time) (tables : List String)
    (ops : List SetOp) : Prop :=
  ∀ op, op ∈ ops ↔ ∃ table ∈ tables, ∃ pair : String × String,
    (b.holds now ⟨inetFamily, table, setAllowBound⟩ (.pair pair.1 pair.2) = true ∧ pair ∉ wanted ∧
      allowBoundOp .delete table pair = op) ∨
    (b.holds now ⟨inetFamily, table, setAllowBound⟩ (.pair pair.1 pair.2) = false ∧ pair ∈ wanted ∧
      allowBoundOp .add table pair = op)

theorem allowlistOps_spec {wanted : List (String × String)} {now : Time} {tables : List String}
    {sets : FakeSetBackend} {ops : List SetOp} (hok : (allowlistOps sets wanted now tables).1 = .ok ops) :
    (∀ table ∈ tables, (sets.find? ⟨inetFamily, table, setAllowBound⟩).isSome) ∧
    SyncsTo sets wanted now tables ops := by
  induction tables generalizing sets ops with
  | nil =>
    obtain rfl := Except.ok.inj hok
    simp [SyncsTo]
  | cons table tables ih =>
    have hlist := AfterListing.listSet sets ⟨inetFamily, table, setAllowBound⟩ now
    unfold allowlistOps at hok
    split at hok
    · exact absurd hok (by simp)
    rename_i elements sets₁ heq
    rw [heq] at hlist
    have hfst : (sets.listSet ⟨inetFamily, table, setAllowBound⟩ now).1 = .ok elements := by rw [heq]
    simp only at hok
    split at hok
    · exact absurd hok (by simp)
    rename_i rest sets₂ heq₂
    obtain rfl := Except.ok.inj hok
    have hrest : (allowlistOps sets₁ wanted now tables).1 = .ok rest := by rw [heq₂]
    obtain ⟨hloaded, hops⟩ := ih hrest
    constructor
    · intro table' htable'
      rcases List.mem_cons.mp htable' with rfl | htable'
      · unfold FakeSetBackend.listSet at hfst
        split at hfst
        · exact absurd hfst (by simp)
        · rename_i fake hfake
          rw [FakeSetBackend.setAt_eq_ok_iff.mp hfake]
          rfl
      · rw [← hlist.loaded]
        exact hloaded table' htable'
    · intro op
      rw [List.mem_append, mem_allowBoundDiff, hops]
      simp only [hlist.holds, List.mem_cons, exists_eq_or_imp]
      refine or_congr ?_ Iff.rfl
      rw [← exists_or]
      refine exists_congr fun pair => or_congr ?_ ?_
      · rw [and_assoc]
        exact and_congr (mem_listedPairs hfst) Iff.rfl
      · rw [and_assoc, and_left_comm, ← Bool.not_eq_true]
        exact and_congr (not_congr (mem_listedPairs hfst)) Iff.rfl

/-! ## A run of allowlist calls -/

/-- What the batch of a synchronisation leaves in a set: each pair is wanted, and then at most added, or
not wanted, and then deleted where it is held. -/
theorem synced_iff {m : FirewallManager} {b b₁ b₂ : FakeSetBackend} {ops : List SetOp} {now : Time}
    (happlied : b₁.Applied ops now b₂) (huntimed : ∀ op ∈ ops, op.timeoutSeconds = none)
    (hlisted : AfterListing b now b₁) (hkernel : PairKernel b)
    (hops : SyncsTo b (allowBoundPairs m.allowlist none) now allowBoundTables ops)
    {a : SetAddress} (ha : a ∈ allowBoundSets) (k : ElementKey) :
    b₂.holds now a k = true ↔ Pinned m.allowlist k := by
  obtain ⟨table, htable, rfl⟩ := List.mem_map.mp ha
  by_cases hk : Pinned m.allowlist k
  · obtain ⟨_, _, pair, _, rfl⟩ := id hk
    have hwanted := pinned_iff_mem.mp hk
    have hadds : ∀ op ∈ ops, op.address = ⟨inetFamily, table, setAllowBound⟩ ∧
        op.key = .pair pair.1 pair.2 → op.kind = .add := by
      rintro op hop ⟨_, hkey⟩
      obtain ⟨_, _, pair', ⟨_, hunwanted, rfl⟩ | ⟨_, _, rfl⟩⟩ := (hops op).mp hop
      · obtain ⟨h1, h2⟩ := ElementKey.pair.inj hkey
        obtain rfl : pair' = pair := Prod.ext h1 h2
        exact absurd hwanted hunwanted
      · rfl
    rw [happlied.holds_of_kind huntimed .add hadds, hlisted.holds]
    refine iff_of_true ?_ hk
    cases hheld : b.holds now ⟨inetFamily, table, setAllowBound⟩ (.pair pair.1 pair.2) with
    | true => exact .inr ⟨rfl, fun h => absurd h (by simp)⟩
    | false =>
      refine .inl ⟨rfl, allowBoundOp .add table pair, ?_, rfl, rfl⟩
      exact (hops _).mpr ⟨table, htable, pair, .inr ⟨hheld, hwanted, rfl⟩⟩
  · have hdeletes : ∀ op ∈ ops, op.address = ⟨inetFamily, table, setAllowBound⟩ ∧ op.key = k →
        op.kind = .delete := by
      rintro op hop ⟨_, hkey⟩
      obtain ⟨_, _, pair', ⟨_, _, rfl⟩ | ⟨_, hwanted, rfl⟩⟩ := (hops op).mp hop
      · rfl
      · exact absurd (hkey ▸ pinned_iff_mem.mpr hwanted) hk
    rw [happlied.holds_of_kind huntimed .delete hdeletes, hlisted.holds]
    refine iff_of_false ?_ hk
    rintro (⟨hadd, _⟩ | ⟨hheld, hkept⟩)
    · exact absurd hadd (by simp)
    · -- what is held is a pair, and the batch deletes it
      cases k with
      | one text =>
        have hnone := hkernel.pairs _ ha text
        simp [FakeSetBackend.holds, hnone] at hheld
      | pair mac ip =>
        have hunwanted : (mac, ip) ∉ allowBoundPairs m.allowlist none := fun h =>
          hk (pinned_iff_mem.mpr h)
        have hdelete := (hops (allowBoundOp .delete table (mac, ip))).mpr
          ⟨table, htable, (mac, ip), .inl ⟨hheld, hunwanted, rfl⟩⟩
        exact hkept rfl _ hdelete ⟨rfl, rfl⟩

/-- `sync_allowlist` puts the sets in step with the allowlist, whatever they held. -/
theorem InStep.syncAllowlist {m : FirewallManager} {b : FakeSetBackend} (hsets : m.sets = some b)
    (hfaults : b.faults = []) (hkernel : PairKernel b) {now : Time} {n : Nat}
    (hok : (m.syncAllowlist now).1 = .ok n) : ∃ b', InStep (m.syncAllowlist now).2 b' := by
  unfold FirewallManager.syncAllowlist at hok ⊢
  simp only [hsets] at hok ⊢
  have hlisted := allowlistOps_listed (allowBoundPairs m.allowlist none) now allowBoundTables b
  cases hlist : allowlistOps b (allowBoundPairs m.allowlist none) now allowBoundTables with
  | mk r b₁ =>
  rw [hlist] at hok hlisted
  cases r with
  | error e => exact absurd hok (by simp)
  | ok ops =>
    simp only at hok ⊢
    have hfst : (allowlistOps b (allowBoundPairs m.allowlist none) now allowBoundTables).1 = .ok ops := by
      rw [hlist]
    obtain ⟨hloaded, hops⟩ := allowlistOps_spec hfst
    rcases b₁.apply_cases ops now with ⟨_, happlied⟩ | ⟨_, _, herror, _⟩
    swap
    · rw [herror] at hok
      exact absurd hok (by simp [Except.map])
    have huntimedOps : ∀ op ∈ ops, op.timeoutSeconds = none := by
      intro op hop
      obtain ⟨_, _, _, ⟨_, _, rfl⟩ | ⟨_, _, rfl⟩⟩ := (hops op).mp hop
      · rfl
      · rfl
    have huntimed : ∀ a ∈ allowBoundSets, (b₁.apply ops now).2.Untimed a := fun a ha =>
      happlied.untimed huntimedOps (hlisted.untimed a (hkernel.untimed a ha))
    refine ⟨_, rfl, happlied.faults (hlisted.faults.trans hfaults), ?_, huntimed, ?_⟩
    · intro a ha
      obtain ⟨table, htable, rfl⟩ := List.mem_map.mp ha
      rw [happlied.loaded, hlisted.loaded]
      exact hloaded table htable
    · intro a ha k
      rw [← (huntimed a ha).holds_iff now k]
      exact synced_iff happlied huntimedOps hlisted hkernel hops ha k

/-- One allowlist call. -/
inductive AllowlistCall where
  | add (entry : AllowlistEntry)
  | remove (entryId : String)

/-- An allowlist call at its time: whether it raised, and the manager after it. -/
def allowlistCall (m : FirewallManager) (call : Time × AllowlistCall) : Except String Unit × FirewallManager :=
  match call.2 with
  | .add entry => m.addAllowlistEntry entry call.1
  | .remove entryId =>
    let (result, m) := m.removeAllowlistEntry entryId call.1
    (result.map fun _ => (), m)

/-- The manager after one call. -/
def allowlistStep (m : FirewallManager) (call : Time × AllowlistCall) : FirewallManager :=
  (m.allowlistCall call).2

theorem InStep.allowlistCall {m : FirewallManager} {b : FakeSetBackend} (h : InStep m b)
    {call : Time × AllowlistCall} (hok : (m.allowlistCall call).1 = .ok ()) :
    ∃ b', InStep (m.allowlistCall call).2 b' := by
  obtain ⟨now, call⟩ := call
  cases call with
  | add entry => exact h.addAllowlistEntry entry now hok
  | remove entryId =>
    have hok : (m.removeAllowlistEntry entryId now).1.map (fun _ => ()) = .ok () := hok
    cases hresult : (m.removeAllowlistEntry entryId now).1 with
    | error e =>
      rw [hresult] at hok
      exact absurd hok (by simp [Except.map])
    | ok removed => exact h.removeAllowlistEntry entryId now hresult

/-- After `sync_allowlist` and any calls that go through, both `allow_bound` sets hold at every time
exactly the (MAC . IP) pairs of the allowlist entries with a MAC and a /32 target. -/
theorem allow_bound_in_step (m : FirewallManager) (b : FakeSetBackend) (hsets : m.sets = some b)
    (hfaults : b.faults = []) (hkernel : PairKernel b) (now : Time) (n : Nat)
    (hsync : (m.syncAllowlist now).1 = .ok n) (calls : List (Time × AllowlistCall))
    (hcalls : Along allowlistStep (fun m call => (m.allowlistCall call).1 = .ok ())
      (m.syncAllowlist now).2 calls) :
    ∃ b', (Lib.run allowlistStep (m.syncAllowlist now).2 calls).sets = some b' ∧
      ∀ table ∈ allowBoundTables, ∀ clock k,
        b'.holds clock ⟨inetFamily, table, setAllowBound⟩ k = true ↔
          ∃ entry ∈ (Lib.run allowlistStep (m.syncAllowlist now).2 calls).allowlist,
            ∃ mac, entry.mac = some mac ∧ entry.target.prefixlen = 32 ∧
              k = .pair mac.text (IPv4Address.str entry.target.networkAddress) := by
  have hstart : ∃ b', InStep (m.syncAllowlist now).2 b' :=
    InStep.syncAllowlist hsets hfaults hkernel hsync
  obtain ⟨b', hin⟩ := Along.invariant (I := fun m => ∃ b, InStep m b)
    (fun _ _ ⟨_, h⟩ hok => h.allowlistCall hok) hcalls hstart
  refine ⟨b', hin.sets, ?_⟩
  intro table htable clock k
  rw [hin.holds_iff (List.mem_map.mpr ⟨table, htable, rfl⟩)]
  refine exists_congr fun entry => and_congr_right fun _ => ?_
  unfold allowBoundPair
  cases entry.mac with
  | none => simp
  | some mac => simp [and_comm]

def pinnedMac : Mac := ⟨"02:00:00:00:00:09", by decide⟩

/-- A phone's entry: its address pinned to one MAC. -/
def phoneEntry (id : String) : AllowlistEntry where
  id := id
  target := .host (IPv4Address.ofOctets 10 0 0 9)
  mac := some pinnedMac
  port := none
  protocol := none
  reason := "phone"
  createdAt := 0
  createdBy := "admin"
  mac_names_one_device := fun _ => rfl

/-- Two entries pin one phone, one of them added twice under its id, and one is removed again. -/
def phoneCalls : List (Time × AllowlistCall) :=
  [(0, .add (phoneEntry "first")), (1, .add (phoneEntry "first")), (2, .add (phoneEntry "second")),
   (3, .remove "first")]

theorem allow_bound_in_step_phone :
    ∃ b', (Lib.run allowlistStep ((siteManager .assisted (some siteKernel)).syncAllowlist 0).2 phoneCalls).sets
        = some b' ∧
      ∀ table ∈ allowBoundTables, ∀ clock k,
        b'.holds clock ⟨inetFamily, table, setAllowBound⟩ k = true ↔
          ∃ entry ∈ (Lib.run allowlistStep ((siteManager .assisted (some siteKernel)).syncAllowlist 0).2
              phoneCalls).allowlist,
            ∃ mac, entry.mac = some mac ∧ entry.target.prefixlen = 32 ∧
              k = .pair mac.text (IPv4Address.str entry.target.networkAddress) := by
  have hempty : ∀ a ∈ allowBoundSets, siteKernel.find? a = some ⟨some 1024, Dict.empty⟩ := by
    intro a ha
    simp only [allowBoundSets, allowBoundTables, List.map_cons, List.map_nil, List.mem_cons,
      List.not_mem_nil, or_false] at ha
    rcases ha with rfl | rfl
    · rfl
    · rfl
  have hnone : ∀ a ∈ allowBoundSets, ∀ k, siteKernel.expiry? a k = none := by
    intro a ha k
    rw [FakeSetBackend.expiry?, hempty a ha]
    rfl
  refine allow_bound_in_step _ siteKernel rfl rfl ⟨?_, ?_⟩ 0 0 rfl _ ⟨rfl, rfl, rfl, rfl, trivial⟩
  · intro a ha k e he
    rw [hnone a ha k] at he
    exact absurd he (by simp)
  · exact fun a ha text => hnone a ha (.one text)

end FirewallManager

end Pirewall
