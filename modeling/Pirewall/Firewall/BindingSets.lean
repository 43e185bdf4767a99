/-
# Pirewall.Firewall.BindingSets -- what the binding writes leave in the kernel

`sync_bindings` sends a difference, `replace_bindings` lists what is there and replaces it. Both are one batch with
every removal before every addition, so what is in a binding set afterwards is settled key by key:
`Applied.holds_iff`. A batch that is refused leaves the sets as they were, except that what had run out may be gone.

The kernel's clock is a separate argument of both writes. Read at one fixed `clock`, an element that was added stays,
which is how the sets are compared with the table when timeouts are left out of account.

A binding has one element in each of its two sets, and `bindingKey` is injective in the address. A batch that removes
one binding of an address and adds another therefore ends with the one that was added, in whichever set the two keys
agree; and a change whose removals and additions come from two tables of one binding an address leaves the second
table (`syncBindings_cases`). `replace_bindings` does not know the first table and finds it in the kernel
(`staleOps_spec`).
-/
import Pirewall.Firewall.Manager

namespace Pirewall

open Lib NftNames

namespace FakeSetBackend

/-- The element is in the set and has not run out by `clock`. -/
def holds (b : FakeSetBackend) (clock : Time) (a : SetAddress) (k : ElementKey) : Bool :=
  (b.expiry? a k).any (isLive clock)

/-- Dropping what has run out drops nothing that is held. -/
theorem holds_of_filter {before after : Option (Option Time)} {clock : Time}
    (h : after = before ∨ after = before.filter (isLive clock)) :
    after.any (isLive clock) = before.any (isLive clock) := by
  rcases h with rfl | rfl
  · rfl
  · cases before with
    | none => rfl
    | some e => cases he : isLive clock e <;> simp [Option.filter, he]

/-- After a batch of deletions and then additions: what was added is held, and what was held and not deleted. -/
theorem Applied.holds_iff {b b' : FakeSetBackend} {dels adds : List SetOp} {clock : Time}
    (h : b.Applied (dels ++ adds) clock b') (hdels : ∀ op ∈ dels, op.kind = .delete)
    (hadds : ∀ op ∈ adds, op.kind = .add ∧ ∀ t, op.timeoutSeconds = some t → 0 < t) (a : SetAddress)
    (k : ElementKey) :
    b'.holds clock a k = true ↔ (∃ op ∈ adds, op.address = a ∧ op.key = k) ∨
      (b.holds clock a k = true ∧ ∀ op ∈ dels, ¬ (op.address = a ∧ op.key = k)) := by
  unfold holds
  rw [h.expiry]
  split
  · exact keyResult_live_iff hdels hadds a k _
  · rename_i hout
    -- no op of the batch is on this set
    have hnone : ∀ op ∈ dels ++ adds, ¬ (op.address = a ∧ op.key = k) := fun op hop hon =>
      hout (List.mem_map.mpr ⟨op, hop, hon.1⟩)
    constructor
    · exact fun hlive => .inr ⟨hlive, fun op hop => hnone op (List.mem_append_left _ hop)⟩
    · rintro (⟨op, hop, hon⟩ | ⟨hlive, _⟩)
      · exact absurd hon (hnone op (List.mem_append_right _ hop))
      · exact hlive

/-- A batch that is refused changes nothing. -/
theorem apply_error_holds {b : FakeSetBackend} {ops : List SetOp} {clock : Time} {e : String}
    (h : (b.apply ops clock).1 = .error e) (a : SetAddress) (k : ElementKey) :
    (b.apply ops clock).2.holds clock a k = b.holds clock a k := by
  rcases b.apply_cases ops clock with ⟨hok, _⟩ | ⟨_, faults, heq, _⟩
  · rw [hok] at h
    exact absurd h (by simp)
  · rw [heq]
    rfl

/-- Listing a set drops what has run out and nothing else. -/
theorem listSet_holds (b : FakeSetBackend) (a : SetAddress) (clock : Time) (a' : SetAddress)
    (k : ElementKey) : (b.listSet a clock).2.holds clock a' k = b.holds clock a' k := by
  cases hlist : (b.listSet a clock).1 with
  | ok elements =>
    refine holds_of_filter ?_
    rw [(listSet_ok hlist).2]
    split
    · rename_i heq
      exact .inr (by rw [heq])
    · exact .inl rfl
  | error e =>
    have hsame : (b.listSet a clock).2 = b := by
      unfold listSet at hlist ⊢
      split at hlist
      · rfl
      · exact absurd hlist (by simp)
    rw [hsame]

end FakeSetBackend

namespace FirewallManager

/-! ## The ops of a binding write -/

/-- The sets of the bindings, two in each table that has them. -/
theorem mem_bindingSets {a : SetAddress} : a ∈ bindingSets ↔
    ∃ location ∈ bindingTables, a = ⟨location.1, location.2, setMacbind⟩ ∨
      a = ⟨location.1, location.2, setBound4⟩ := by
  simp [bindingSets, List.mem_flatMap]

/-- The key a binding has in a binding set. -/
def bindingKey (setName : String) (binding : Binding) : ElementKey :=
  if setName = setMacbind then .pair (IPv4Address.str binding.ip) binding.mac.text
  else .one (IPv4Address.str binding.ip)

/-- An element is wanted if it is some binding's. -/
theorem isWanted_iff {bindings : List Binding} {setName : String} {k : ElementKey} :
    isWanted bindings setName k = true ↔ ∃ binding ∈ bindings, bindingKey setName binding = k := by
  simp only [isWanted, List.any_eq_true, bindingKey]
  refine exists_congr fun binding => and_congr_right fun _ => ?_
  split
  · rw [beq_iff_eq, eq_comm]
  · rw [beq_iff_eq, eq_comm]

/-- Bindings of one key are of one address. -/
theorem bindingKey_ip {setName : String} {x y : Binding} (h : bindingKey setName x = bindingKey setName y) :
    x.ip = y.ip := by
  unfold bindingKey at h
  split at h
  · exact IPv4Address.str_injective (ElementKey.pair.inj h).1
  · exact IPv4Address.str_injective (ElementKey.one.inj h)

/-- The ops of a list of bindings touch exactly the keys of these bindings. -/
theorem bindingOps_on {bindings : List Binding} (kind : SetOpKind) (timeout : Binding → Option Int)
    {a : SetAddress} (ha : a ∈ bindingSets) (k : ElementKey) :
    (∃ op ∈ bindings.flatMap fun binding => bindingOps kind binding (timeout binding),
      op.address = a ∧ op.key = k) ↔ isWanted bindings a.setName k = true := by
  obtain ⟨⟨family, table⟩, hlocation, hset⟩ := mem_bindingSets.mp ha
  have hne : setBound4 ≠ setMacbind := by decide
  rw [isWanted_iff]
  constructor
  · rintro ⟨op, hop, haddr, hkey⟩
    obtain ⟨binding, hbinding, hop⟩ := List.mem_flatMap.mp hop
    obtain ⟨⟨family', table'⟩, _, hop⟩ := List.mem_flatMap.mp hop
    refine ⟨binding, hbinding, ?_⟩
    simp only [List.mem_cons, List.not_mem_nil, or_false] at hop
    rcases hop with rfl | rfl
    · simpa [← haddr, bindingKey, SetOp.address, hne] using hkey
    · simpa [← haddr, bindingKey, SetOp.address] using hkey
  · rintro ⟨binding, hbinding, hkey⟩
    rcases hset with rfl | rfl
    · refine ⟨{ kind, setName := setMacbind, key := k, timeoutSeconds := timeout binding, table, family },
        List.mem_flatMap.mpr ⟨binding, hbinding, List.mem_flatMap.mpr ⟨(family, table), hlocation, ?_⟩⟩,
        rfl, rfl⟩
      simp [← hkey, bindingKey]
    · refine ⟨{ kind, setName := setBound4, key := k, timeoutSeconds := timeout binding, table, family },
        List.mem_flatMap.mpr ⟨binding, hbinding, List.mem_flatMap.mpr ⟨(family, table), hlocation, ?_⟩⟩,
        rfl, rfl⟩
      simp [← hkey, bindingKey, hne]

/-- An op of a list of bindings, and its timeout, are one binding's. -/
theorem mem_bindingOps {bindings : List Binding} {kind : SetOpKind} (timeout : Binding → Option Int)
    {op : SetOp} (h : op ∈ bindings.flatMap fun binding => bindingOps kind binding (timeout binding)) :
    op.kind = kind ∧ ∃ binding ∈ bindings, op.timeoutSeconds = timeout binding := by
  obtain ⟨binding, hbinding, hop⟩ := List.mem_flatMap.mp h
  obtain ⟨_, _, hop⟩ := List.mem_flatMap.mp hop
  simp only [List.mem_cons, List.not_mem_nil, or_false] at hop
  rcases hop with rfl | rfl
  · exact ⟨rfl, binding, hbinding, rfl⟩
  · exact ⟨rfl, binding, hbinding, rfl⟩

/-- No binding is added with a timeout that has passed. -/
theorem bindingTimeout_pos {m : FirewallManager} {binding : Binding} {now : Time} {t : Int}
    (h : m.bindingTimeout binding now = some t) : 0 < t := by
  unfold bindingTimeout at h
  split at h
  · obtain rfl := Option.some.inj h
    exact lt_of_lt_of_le Int.one_pos (le_max_left _ _)
  · exact absurd h (by simp)

/-- Every op of a binding is one its binding sets take. -/
theorem bindingOps_valid {kind : SetOpKind} {binding : Binding} {timeout : Option Int}
    (h : ∀ t, timeout = some t → 0 < t) {op : SetOp} (hop : op ∈ bindingOps kind binding timeout) :
    validateElement op = .ok () ∧ op.address ∈ bindingSets := by
  obtain ⟨⟨family, table⟩, hlocation, hop⟩ := List.mem_flatMap.mp hop
  simp only [List.mem_cons, List.not_mem_nil, or_false] at hop
  have haddress : op.address ∈ bindingSets := by
    refine mem_bindingSets.mpr ⟨(family, table), hlocation, ?_⟩
    rcases hop with rfl | rfl
    · exact .inr rfl
    · exact .inl rfl
  refine ⟨?_, haddress⟩
  have hip := normaliseIpv4_str binding.ip
  have hmac := normaliseMacKey_text binding.mac
  simp only [bindingTables, List.mem_cons, List.not_mem_nil, or_false, Prod.mk.injEq] at hlocation
  rcases hlocation with ⟨rfl, rfl⟩ | ⟨rfl, rfl⟩ <;> rcases hop with rfl | rfl
  · exact validateElement_untimed (s := ⟨.ipv4, false⟩) rfl (by simp [normaliseKey, hip, Except.map]) rfl h
  · exact validateElement_untimed (s := ⟨.ipv4Mac, false⟩) rfl
      (by simp [normaliseKey, hip, hmac, bind, Except.bind, pure, Except.pure]) rfl h
  · exact validateElement_untimed (s := ⟨.ipv4, false⟩) rfl (by simp [normaliseKey, hip, Except.map]) rfl h
  · exact validateElement_untimed (s := ⟨.ipv4Mac, false⟩) rfl
      (by simp [normaliseKey, hip, hmac, bind, Except.bind, pure, Except.pure]) rfl h

/-- The additions of a binding write. -/
theorem bindingOps_add (m : FirewallManager) (bindings : List Binding) (now : Time) :
    ∀ op ∈ bindings.flatMap fun binding => bindingOps .add binding (m.bindingTimeout binding now),
      op.kind = .add ∧ ∀ t, op.timeoutSeconds = some t → 0 < t := by
  intro op hop
  obtain ⟨hkind, binding, _, htimeout⟩ := mem_bindingOps _ hop
  exact ⟨hkind, fun t ht => bindingTimeout_pos (htimeout.symm.trans ht)⟩

/-! ## Replacing -/

/-- What listing the binding sets for stale elements finds. -/
theorem staleOps_spec (wanted : String → ElementKey → Bool) (clock : Time) (addresses : List SetAddress)
    (sets : FakeSetBackend) :
    (∀ a k, (staleOps sets wanted clock addresses).2.holds clock a k = sets.holds clock a k) ∧
    ∀ ops, (staleOps sets wanted clock addresses).1 = .ok ops →
      (∀ op ∈ ops, op.kind = .delete) ∧ ∀ a k, (∃ op ∈ ops, op.address = a ∧ op.key = k) ↔
        a ∈ addresses ∧ sets.holds clock a k = true ∧ wanted a.setName k = false := by
  -- set by set; a listing that fails ends the loop, and what it dropped had run out
  induction addresses generalizing sets with
  | nil =>
    refine ⟨fun _ _ => rfl, ?_⟩
    intro ops h
    obtain rfl := Except.ok.inj h
    simp
  | cons a rest ih =>
    have hlist := FakeSetBackend.listSet_holds sets a clock
    unfold staleOps
    split
    · rename_i e sets₁ heq
      rw [heq] at hlist
      exact ⟨hlist, fun ops h => absurd h (by simp)⟩
    rename_i elements sets₁ heq
    rw [heq] at hlist
    obtain ⟨hrest, hops⟩ := ih sets₁
    simp only
    split
    · rename_i e sets₂ heq₂
      rw [heq₂] at hrest
      exact ⟨fun a' k => (hrest a' k).trans (hlist a' k), fun ops h => absurd h (by simp)⟩
    rename_i tail sets₂ heq₂
    rw [heq₂] at hrest hops
    refine ⟨fun a' k => (hrest a' k).trans (hlist a' k), ?_⟩
    intro ops h
    obtain rfl := Except.ok.inj h
    obtain ⟨hkinds, htail⟩ := hops tail rfl
    -- what the set reports is what it holds
    have hlisted : ∀ k, k ∈ elements.map ElementState.key ↔ sets.holds clock a k = true := by
      intro k
      have hfst : (sets.listSet a clock).1 = .ok elements := by rw [heq]
      rw [(FakeSetBackend.listSet_ok hfst).1, FakeSetBackend.holds, Option.any_eq_true]
    constructor
    · intro op hop
      rcases List.mem_append.mp hop with hop | hop
      · obtain ⟨key, _, rfl⟩ := List.mem_map.mp hop
        rfl
      · exact hkinds op hop
    · intro a' k
      constructor
      -- an op deletes a stale element of this set, or of one further on
      · rintro ⟨op, hop, haddr, hkey⟩
        rcases List.mem_append.mp hop with hop | hop
        · obtain ⟨key, hmem, rfl⟩ := List.mem_map.mp hop
          obtain ⟨hmem, hstale⟩ := List.mem_filter.mp hmem
          obtain rfl : a = a' := haddr
          obtain rfl : key = k := hkey
          exact ⟨List.mem_cons_self, (hlisted key).mp hmem, by simpa using hstale⟩
        · obtain ⟨hmem, hlive, hstale⟩ := (htail a' k).mp ⟨op, hop, haddr, hkey⟩
          exact ⟨List.mem_cons_of_mem _ hmem, (hlist a' k) ▸ hlive, hstale⟩
      -- and every stale element has such an op
      · rintro ⟨hmem, hlive, hstale⟩
        rcases List.mem_cons.mp hmem with rfl | hmem
        · refine ⟨{ kind := .delete, setName := a'.setName, key := k, table := a'.table,
                    family := a'.family }, List.mem_append_left _ (List.mem_map.mpr ⟨k, ?_, rfl⟩), rfl, rfl⟩
          exact List.mem_filter.mpr ⟨(hlisted k).mpr hlive, by simp [hstale]⟩
        · obtain ⟨op, hop, hon⟩ := (htail a' k).mpr ⟨hmem, (hlist a' k).trans hlive, hstale⟩
          exact ⟨op, List.mem_append_right _ hop, hon⟩

/-- The binding sets hold exactly `bindings`. -/
def BindingSetsHold (m : FirewallManager) (clock : Time) (bindings : List Binding) : Prop :=
  ∃ b, m.sets = some b ∧ ∀ a ∈ bindingSets, ∀ k,
    b.holds clock a k = true ↔ isWanted bindings a.setName k = true

/-- The binding sets hold the same in both states. -/
def SameBindingSets (m m' : FirewallManager) (clock : Time) : Prop :=
  ∃ b b', m.sets = some b ∧ m'.sets = some b' ∧ ∀ a ∈ bindingSets, ∀ k,
    b'.holds clock a k = b.holds clock a k

/-- Sets that hold the same hold the same bindings. -/
theorem BindingSetsHold.congr {m m' : FirewallManager} {clock : Time} {bindings : List Binding}
    (hsame : SameBindingSets m m' clock) :
    BindingSetsHold m' clock bindings ↔ BindingSetsHold m clock bindings := by
  obtain ⟨b, b', hb, hb', hsame⟩ := hsame
  constructor
  · rintro ⟨b₁, hb₁, h⟩
    obtain rfl := Option.some.inj (hb'.symm.trans hb₁)
    exact ⟨b, hb, fun a ha k => by rw [← hsame a ha k]; exact h a ha k⟩
  · rintro ⟨b₁, hb₁, h⟩
    obtain rfl := Option.some.inj (hb.symm.trans hb₁)
    exact ⟨b', hb', fun a ha k => by rw [hsame a ha k]; exact h a ha k⟩

/-- `replace_bindings` makes the binding sets hold exactly its bindings, or leaves them as they were. -/
theorem replaceBindings_cases {m : FirewallManager} {b : FakeSetBackend} (hsets : m.sets = some b)
    (bindings : List Binding) (now clock : Time) :
    (∃ n, (m.replaceBindings bindings now clock).1 = .ok n ∧
      BindingSetsHold (m.replaceBindings bindings now clock).2 clock bindings) ∨
    ∃ e, (m.replaceBindings bindings now clock).1 = .error e ∧
      SameBindingSets m (m.replaceBindings bindings now clock).2 clock := by
  obtain ⟨hsame, hstale⟩ := staleOps_spec (isWanted bindings) clock bindingSets b
  unfold replaceBindings
  rw [hsets]
  simp only
  split
  · rename_i e b₁ heq
    rw [heq] at hsame
    exact .inr ⟨e, rfl, b, b₁, hsets, rfl, fun a _ k => hsame a k⟩
  rename_i stale b₁ heq
  rw [heq] at hsame hstale
  obtain ⟨hkinds, hstale⟩ := hstale stale rfl
  generalize hops : stale ++ bindings.flatMap (fun binding => bindingOps .delete binding none)
    ++ bindings.flatMap (fun binding => bindingOps .add binding (m.bindingTimeout binding now)) = ops
  cases hresult : (b₁.apply ops clock).1 with
  | error e =>
    refine .inr ⟨e, by simp [Except.map], b, _, hsets, rfl, ?_⟩
    intro a _ k
    rw [FakeSetBackend.apply_error_holds hresult, hsame]
  | ok u =>
    refine .inl ⟨ops.length, by simp [Except.map], _, rfl, ?_⟩
    intro a ha k
    rcases b₁.apply_cases ops clock with ⟨_, happlied⟩ | ⟨_, _, herror, _⟩
    · rw [← hops] at happlied ⊢
      have hdels : ∀ op ∈ stale ++ bindings.flatMap (fun binding => bindingOps .delete binding none),
          op.kind = .delete := by
        intro op hop
        rcases List.mem_append.mp hop with hop | hop
        · exact hkinds op hop
        · exact (mem_bindingOps (fun _ => none) hop).1
      rw [happlied.holds_iff hdels (bindingOps_add m bindings now), hsame]
      constructor
      · rintro (hadd | ⟨hlive, hkept⟩)
        · exact (bindingOps_on _ _ ha k).mp hadd
        · -- a live element that nothing deleted is not stale
          by_contra hunwanted
          obtain ⟨op, hop, hon⟩ := (hstale a k).mpr ⟨ha, hlive, Bool.eq_false_iff.mpr hunwanted⟩
          exact hkept op (List.mem_append_left _ hop) hon
      · exact fun hwanted => .inl ((bindingOps_on _ _ ha k).mpr hwanted)
    · rw [herror] at hresult
      exact absurd hresult (by simp)

/-! ## Sending a difference -/

/-- `sync_bindings` removes and adds what the change says, or leaves the sets as they were. -/
theorem syncBindings_cases {m : FirewallManager} {b : FakeSetBackend} (hsets : m.sets = some b)
    (change : BindingChange) (now clock : Time) :
    (∃ n b', (m.syncBindings change now clock).1 = .ok n ∧
      (m.syncBindings change now clock).2.sets = some b' ∧
      ∀ a ∈ bindingSets, ∀ k, b'.holds clock a k = true ↔ isWanted change.added a.setName k = true ∨
        (b.holds clock a k = true ∧ isWanted change.removed a.setName k = false)) ∨
    ∃ e, (m.syncBindings change now clock).1 = .error e ∧
      SameBindingSets m (m.syncBindings change now clock).2 clock := by
  unfold syncBindings
  rw [hsets]
  simp only
  split
  · rename_i hempty
    refine .inl ⟨0, b, rfl, hsets, ?_⟩
    intro a _ k
    rw [hempty.1, hempty.2]
    simp [isWanted]
  generalize hops : change.removed.flatMap (fun binding => bindingOps .delete binding none)
    ++ change.added.flatMap (fun binding => bindingOps .add binding (m.bindingTimeout binding now)) = ops
  cases hresult : (b.apply ops clock).1 with
  | error e =>
    refine .inr ⟨e, by simp [Except.map], b, _, hsets, rfl, ?_⟩
    exact fun a _ k => FakeSetBackend.apply_error_holds hresult a k
  | ok u =>
    refine .inl ⟨ops.length, _, by simp [Except.map], rfl, ?_⟩
    intro a ha k
    rcases b.apply_cases ops clock with ⟨_, happlied⟩ | ⟨_, _, herror, _⟩
    · rw [← hops] at happlied ⊢
      rw [happlied.holds_iff (fun op hop => (mem_bindingOps (fun _ => none) hop).1)
        (bindingOps_add m change.added now), bindingOps_on _ _ ha]
      refine or_congr Iff.rfl (and_congr_right fun _ => ?_)
      rw [← Bool.not_eq_true, ← bindingOps_on .delete (fun _ => none) ha]
      simp
    · rw [herror] at hresult
      exact absurd hresult (by simp)

end FirewallManager

end Pirewall
