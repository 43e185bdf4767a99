/-
# Pirewall.Lib.Dict -- insertion-ordered dictionaries

An executable model of the dictionaries of a scripting language: unique keys, iteration in insertion order, and an
update of a key that is already there keeps its place. The uniqueness of the keys is a field, so an ill-formed
dictionary cannot be built and `get?` and `values` can never disagree.

Ordered (LRU) dictionaries add `moveToEnd` and `popFirst`. Everything is structural recursion over the entry list, so
a closed dictionary evaluates in the kernel. Nothing here names the program.

`get?` is the view that proofs use: each update has one equation that says what every key has afterwards, and what is
known of entries, keys and values is derived from look-ups (`mem_entries_iff`, `mem_values_iff`). Iteration order is
spoken of where a program depends on it, by `entries` and `keys`; two dictionaries with the same look-ups may differ
there.
-/
import Mathlib.Data.List.Nodup
import Mathlib.Data.List.Basic
import Mathlib.Data.List.Forall2
import Mathlib.Data.List.Perm.Subperm
import Mathlib.Order.MinMax

namespace Pirewall.Lib

universe u v w

/-- A dictionary: its entries in insertion order, each key once. -/
structure Dict (α : Type u) (β : Type v) where
  entries : List (α × β)
  nodup : (entries.map Prod.fst).Nodup

namespace Dict

variable {α : Type u} {β : Type v} {γ : Type w}

@[ext]
theorem ext {d e : Dict α β} (h : d.entries = e.entries) : d = e := by
  cases d
  cases e
  cases h
  rfl

/-- The dictionary with no entries. -/
def empty : Dict α β := ⟨[], List.nodup_nil⟩

/-- Keys, in insertion order. -/
def keys (d : Dict α β) : List α := d.entries.map Prod.fst

/-- Values, in insertion order. -/
def values (d : Dict α β) : List β := d.entries.map Prod.snd

/-- Number of entries. -/
def size (d : Dict α β) : Nat := d.entries.length

/-- Keep the entries that satisfy `p`, in order. -/
def filter (d : Dict α β) (p : α → β → Bool) : Dict α β where
  entries := d.entries.filter fun e => p e.1 e.2
  nodup := d.nodup.sublist (List.filter_sublist.map _)

/-- Drop the oldest entry (`popitem(last=False)`). -/
def popFirst (d : Dict α β) : Dict α β where
  entries := d.entries.tail
  nodup := d.nodup.sublist ((List.tail_sublist _).map _)

/-- Drop the oldest entries until at most `limit` are left (`popitem(last=False)` in a loop). -/
def keepLast (d : Dict α β) (limit : Nat) : Dict α β where
  entries := d.entries.drop (d.size - limit)
  nodup := d.nodup.sublist ((List.drop_sublist _ _).map _)

theorem keepLast_of_le {d : Dict α β} {limit : Nat} (h : d.size ≤ limit) : d.keepLast limit = d := by
  apply ext
  show d.entries.drop (d.size - limit) = d.entries
  rw [Nat.sub_eq_zero_of_le h, List.drop_zero]

/-- Replace every value, keeping keys and order. -/
def mapValues (d : Dict α β) (f : α → β → γ) : Dict α γ where
  entries := d.entries.map fun e => (e.1, f e.1 e.2)
  nodup := by
    rw [List.map_map]
    exact d.nodup

section Lookup

variable [DecidableEq α]

/-- The value stored under `k`. -/
def get? (d : Dict α β) (k : α) : Option β := d.entries.lookup k

/-- Whether `k` has an entry. -/
def contains (d : Dict α β) (k : α) : Bool := (d.get? k).isSome

/-- Remove `k`, keeping the order of the others. -/
def erase (d : Dict α β) (k : α) : Dict α β := d.filter fun k' _ => k' ≠ k

/-- A present key keeps its place and takes the new value; an absent one goes last. -/
def setEntries (es : List (α × β)) (k : α) (v : β) : List (α × β) :=
  if k ∈ es.map Prod.fst then es.map fun e => if e.1 = k then (k, v) else e
  else es ++ [(k, v)]

theorem setEntries_keys (es : List (α × β)) (k : α) (v : β) :
    (setEntries es k v).map Prod.fst =
      if k ∈ es.map Prod.fst then es.map Prod.fst else es.map Prod.fst ++ [k] := by
  unfold setEntries
  split
  · rw [List.map_map]
    apply List.map_congr_left
    intro e _
    by_cases he : e.1 = k
    · simp [he]
    · simp [he]
  · simp

/-- `d[k] = v`. -/
def set (d : Dict α β) (k : α) (v : β) : Dict α β where
  entries := setEntries d.entries k v
  nodup := by
    rw [setEntries_keys]
    split
    · exact d.nodup
    · rename_i hk
      rw [List.nodup_append]
      refine ⟨d.nodup, List.nodup_singleton k, ?_⟩
      intro a ha b hb hab
      rw [List.mem_singleton] at hb
      subst hb
      subst hab
      exact hk ha

/-- Mark `k` as the most recent entry, if it is there (`move_to_end`). -/
def moveToEnd (d : Dict α β) (k : α) : Dict α β :=
  match d.get? k with
  | none => d
  | some v => (d.erase k).set k v

/-! ## Lookup lemmas -/

@[simp] theorem get?_empty (k : α) : (empty : Dict α β).get? k = none := rfl

theorem lookup_eq_some_iff {es : List (α × β)} (hn : (es.map Prod.fst).Nodup) {k : α} {v : β} :
    es.lookup k = some v ↔ (k, v) ∈ es := by
  induction es with
  | nil => simp
  | cons e es ih =>
    obtain ⟨k', v'⟩ := e
    rw [List.map_cons, List.nodup_cons] at hn
    rw [List.lookup_cons]
    by_cases hk : k = k'
    · subst hk
      have habs : (k, v) ∉ es := fun hm => hn.1 (List.mem_map.mpr ⟨(k, v), hm, rfl⟩)
      simp [habs, eq_comm]
    · simp only [beq_eq_false_iff_ne.mpr hk]
      rw [ih hn.2]
      simp [hk]

theorem mem_entries_iff {d : Dict α β} {k : α} {v : β} :
    (k, v) ∈ d.entries ↔ d.get? k = some v :=
  (lookup_eq_some_iff d.nodup).symm

/-- Dropping the oldest entry adds none. -/
theorem get?_of_popFirst {d : Dict α β} {k : α} {v : β} (h : d.popFirst.get? k = some v) :
    d.get? k = some v :=
  mem_entries_iff.mp (List.mem_of_mem_tail (mem_entries_iff.mpr h))

theorem mem_values_iff {d : Dict α β} {v : β} : v ∈ d.values ↔ ∃ k, d.get? k = some v := by
  simp only [values, List.mem_map, Prod.exists, exists_eq_right, mem_entries_iff]

theorem mem_keys_iff {d : Dict α β} {k : α} : k ∈ d.keys ↔ ∃ v, d.get? k = some v := by
  simp only [keys, List.mem_map, Prod.exists, exists_and_right, exists_eq_right, mem_entries_iff]

theorem get?_eq_none_iff {d : Dict α β} {k : α} : d.get? k = none ↔ k ∉ d.keys := by
  rw [mem_keys_iff, Option.eq_none_iff_forall_ne_some]
  simp

@[simp] theorem get?_filter (d : Dict α β) (p : α → β → Bool) (k : α) :
    (d.filter p).get? k = (d.get? k).filter (p k) := by
  cases hk : d.get? k with
  | none =>
    rw [get?_eq_none_iff] at hk
    refine get?_eq_none_iff.mpr ?_
    intro hm
    obtain ⟨e, he, rfl⟩ := List.mem_map.mp hm
    exact hk (List.mem_map.mpr ⟨e, (List.mem_filter.mp he).1, rfl⟩)
  | some v =>
    have hmem := mem_entries_iff.mpr hk
    cases hp : p k v with
    | true =>
      simp only [Option.filter, hp, if_true]
      exact mem_entries_iff.mp (List.mem_filter.mpr ⟨hmem, hp⟩)
    | false =>
      simp only [Option.filter, hp]
      rw [if_neg Bool.false_ne_true, get?_eq_none_iff]
      intro hm
      obtain ⟨w, hw⟩ := mem_keys_iff.mp hm
      have hw' := List.mem_filter.mp (mem_entries_iff.mpr hw)
      have hwv : w = v := by
        have := mem_entries_iff.mp hw'.1
        rw [hk] at this
        exact (Option.some.inj this).symm
      subst hwv
      rw [hp] at hw'
      exact Bool.false_ne_true hw'.2

@[simp] theorem get?_erase (d : Dict α β) (k k' : α) :
    (d.erase k).get? k' = if k' = k then none else d.get? k' := by
  rw [erase, get?_filter]
  by_cases hk : k' = k
  · subst hk
    cases d.get? k' <;> simp
  · cases d.get? k' <;> simp [hk]

/-- Removing an absent key does nothing. -/
theorem erase_of_none {d : Dict α β} {k : α} (h : d.get? k = none) : d.erase k = d := by
  apply ext
  refine List.filter_eq_self.mpr ?_
  intro e he
  rw [decide_eq_true_eq]
  rintro rfl
  exact get?_eq_none_iff.mp h (List.mem_map.mpr ⟨e, he, rfl⟩)

theorem erase_eq_self_iff {d : Dict α β} {k : α} : d.erase k = d ↔ d.get? k = none := by
  refine ⟨fun h => ?_, erase_of_none⟩
  rw [← h, get?_erase, if_pos rfl]

/-- Removing several keys, one after the other. -/
theorem foldl_erase (d : Dict α β) (ks : List α) :
    ks.foldl (fun d k => d.erase k) d = d.filter fun k _ => k ∉ ks := by
  induction ks generalizing d with
  | nil =>
    apply ext
    exact (List.filter_eq_self.mpr fun e _ => by simp).symm
  | cons k ks ih =>
    rw [List.foldl_cons, ih]
    apply ext
    show (d.entries.filter _).filter _ = d.entries.filter _
    rw [List.filter_filter]
    refine List.filter_congr ?_
    intro e _
    by_cases hk : e.1 = k
    · simp [hk]
    · simp [hk]

/-- Filters that agree on the entries agree. -/
theorem filter_congr {d : Dict α β} {p q : α → β → Bool}
    (h : ∀ k v, d.get? k = some v → p k v = q k v) : d.filter p = d.filter q := by
  apply ext
  exact List.filter_congr fun e he => h e.1 e.2 (mem_entries_iff.mp he)

/-- Overwriting the entries of `k` where they are. -/
theorem lookup_overwrite (es : List (α × β)) (k k' : α) (v : β) :
    (es.map fun e => if e.1 = k then (k, v) else e).lookup k' =
      if k' = k then (es.lookup k).map fun _ => v else es.lookup k' := by
  induction es with
  | nil => simp
  | cons e es ih =>
    obtain ⟨l, w⟩ := e
    rw [List.map_cons]
    by_cases hl : l = k
    · subst hl
      by_cases hk : k' = l
      · simp [hk]
      · simpa [List.lookup_cons, hk, beq_false_of_ne hk] using ih
    · simp only [if_neg hl, List.lookup_cons, ih]
      by_cases hk : k' = k
      · subst hk
        simp [beq_false_of_ne (Ne.symm hl)]
      · simp [hk]

theorem lookup_setEntries (es : List (α × β)) (k k' : α) (v : β) :
    (setEntries es k v).lookup k' = if k' = k then some v else es.lookup k' := by
  unfold setEntries
  split <;> rename_i hin
  · obtain ⟨w, hw⟩ : ∃ w, es.lookup k = some w := by
      obtain ⟨e, he, rfl⟩ := List.mem_map.mp hin
      exact Option.isSome_iff_exists.mp (List.lookup_isSome_iff.mpr ⟨e, he, by simp⟩)
    rw [lookup_overwrite, hw]
    rfl
  · have hnone : es.lookup k = none := List.lookup_eq_none_iff.mpr fun e he => by
      simpa using fun hek => hin (List.mem_map.mpr ⟨e, he, hek.symm⟩)
    by_cases hk : k' = k
    · subst hk
      simp [List.lookup_append, hnone]
    · simp [List.lookup_append, List.lookup_cons, beq_false_of_ne hk, hk]

@[simp] theorem get?_set (d : Dict α β) (k k' : α) (v : β) :
    (d.set k v).get? k' = if k' = k then some v else d.get? k' :=
  lookup_setEntries d.entries k k' v

/-- Writing the value a key has changes nothing, and any other value changes the dictionary. -/
theorem set_eq_self_iff {d : Dict α β} {k : α} {v : β} : d.set k v = d ↔ d.get? k = some v := by
  constructor
  · intro h
    rw [← h, get?_set, if_pos rfl]
  · intro h
    have hmem := mem_entries_iff.mpr h
    apply ext
    show setEntries d.entries k v = d.entries
    rw [setEntries, if_pos (List.mem_map.mpr ⟨(k, v), hmem, rfl⟩)]
    have hsame : ∀ e ∈ d.entries, (if e.1 = k then (k, v) else e) = e := by
      rintro ⟨k', v'⟩ he
      by_cases hk : k' = k
      · subst hk
        have hv : some v = some v' := h.symm.trans (mem_entries_iff.mp he)
        rw [if_pos rfl, Option.some.inj hv]
      · exact if_neg hk
    exact (List.map_congr_left hsame).trans (List.map_id _)

theorem keys_set (d : Dict α β) (k : α) (v : β) :
    (d.set k v).keys = if k ∈ d.keys then d.keys else d.keys ++ [k] :=
  setEntries_keys d.entries k v

omit [DecidableEq α] in
theorem filter_eq_self {d : Dict α β} {p : α → Bool} (h : ∀ k ∈ d.keys, p k = true) :
    (d.filter fun k _ => p k) = d := by
  apply ext
  exact List.filter_eq_self.mpr fun e he => h e.1 (List.mem_map_of_mem he)

/-- Setting a key that a filter on keys keeps. -/
theorem filter_set_of_pos {d : Dict α β} {p : α → Bool} {k : α} (hp : p k = true) (v : β) :
    (d.set k v).filter (fun k _ => p k) = (d.filter fun k _ => p k).set k v := by
  apply ext
  show (setEntries d.entries k v).filter (fun e => p e.1) = setEntries (d.entries.filter fun e => p e.1) k v
  have hkeys : k ∈ (d.entries.filter fun e => p e.1).map Prod.fst ↔ k ∈ d.entries.map Prod.fst := by
    constructor
    · intro hmem
      exact (List.filter_sublist.map Prod.fst).subset hmem
    · intro hmem
      obtain ⟨e, he, rfl⟩ := List.mem_map.mp hmem
      exact List.mem_map.mpr ⟨e, List.mem_filter.mpr ⟨he, hp⟩, rfl⟩
  unfold setEntries
  rw [if_congr hkeys rfl rfl]
  split
  · rw [List.filter_map]
    refine congrArg _ (List.filter_congr ?_)
    intro e _
    show p (if e.1 = k then (k, v) else e).1 = p e.1
    split
    · rename_i heq
      rw [heq]
    · rfl
  · rw [List.filter_append]
    simp [hp]

/-- Setting a key that a filter on keys drops. -/
theorem filter_set_of_neg {d : Dict α β} {p : α → Bool} {k : α} (hp : p k = false) (v : β) :
    (d.set k v).filter (fun k _ => p k) = d.filter fun k _ => p k := by
  apply ext
  show (setEntries d.entries k v).filter (fun e => p e.1) = d.entries.filter fun e => p e.1
  unfold setEntries
  split
  · rw [List.filter_map]
    have hsame : d.entries.filter ((fun e => p e.1) ∘ fun e => if e.1 = k then (k, v) else e) =
        d.entries.filter fun e => p e.1 := by
      refine List.filter_congr ?_
      intro e _
      show p (if e.1 = k then (k, v) else e).1 = p e.1
      split
      · rename_i heq
        rw [heq]
      · rfl
    rw [hsame]
    refine (List.map_congr_left ?_).trans (List.map_id _)
    intro e he
    refine if_neg ?_
    rintro rfl
    rw [(List.mem_filter.mp he).2] at hp
    exact absurd hp (by simp)
  · rw [List.filter_append]
    simp [hp]

/-- A new key goes to the end. -/
theorem entries_set_of_none {d : Dict α β} {k : α} (h : d.get? k = none) (v : β) :
    (d.set k v).entries = d.entries ++ [(k, v)] := if_neg (get?_eq_none_iff.mp h)

theorem size_set_of_none {d : Dict α β} {k : α} (h : d.get? k = none) (v : β) :
    (d.set k v).size = d.size + 1 := by
  rw [size, entries_set_of_none h, List.length_append]
  rfl

theorem size_set_of_some {d : Dict α β} {k : α} {w : β} (h : d.get? k = some w) (v : β) :
    (d.set k v).size = d.size := by
  have hkeys := keys_set d k v
  rw [if_pos (mem_keys_iff.mpr ⟨w, h⟩)] at hkeys
  have hlength := congrArg List.length hkeys
  rwa [keys, keys, List.length_map, List.length_map] at hlength

/-- The entries around a key, once it is gone. -/
theorem filter_ne_of_nodup {l r : List (α × β)} {k : α} {v : β}
    (h : ((l ++ (k, v) :: r).map Prod.fst).Nodup) :
    (l ++ (k, v) :: r).filter (fun e => decide (e.1 ≠ k)) = l ++ r := by
  rw [List.map_append, List.map_cons, List.nodup_middle, List.nodup_cons, ← List.map_append] at h
  have hkeep : ∀ e ∈ l ++ r, decide (e.1 ≠ k) = true := fun e he =>
    decide_eq_true fun hk => h.1 (List.mem_map.mpr ⟨e, he, hk⟩)
  rw [List.filter_append, List.filter_cons_of_neg (by simp), ← List.filter_append,
    List.filter_eq_self.mpr hkeep]

/-- A stored entry, set apart from the others. -/
theorem entries_perm_of_some {d : Dict α β} {k : α} {v : β} (h : d.get? k = some v) :
    d.entries.Perm ((k, v) :: (d.erase k).entries) := by
  obtain ⟨l, r, hlr⟩ := List.append_of_mem (mem_entries_iff.mpr h)
  have hn := d.nodup
  rw [hlr] at hn
  have herase : (d.erase k).entries = l ++ r := by
    rw [← filter_ne_of_nodup hn, ← hlr]
    rfl
  rw [herase, hlr]
  exact List.perm_middle

theorem values_perm_of_some {d : Dict α β} {k : α} {v : β} (h : d.get? k = some v) :
    d.values.Perm (v :: (d.erase k).values) := (entries_perm_of_some h).map Prod.snd

theorem size_erase_of_some {d : Dict α β} {k : α} {v : β} (h : d.get? k = some v) :
    (d.erase k).size + 1 = d.size := (entries_perm_of_some h).length_eq.symm

/-- Removing a key that was just set. -/
theorem erase_set (d : Dict α β) (k : α) (v : β) : (d.set k v).erase k = d.erase k :=
  filter_set_of_neg (p := fun k' => decide (k' ≠ k)) (by simp) v

theorem erase_moveToEnd (d : Dict α β) (k : α) : (d.moveToEnd k).erase k = d.erase k := by
  unfold moveToEnd
  split
  · rfl
  · rw [erase_set, erase_of_none (by simp)]

/-- A refreshed key goes to the end, the others keep their order. -/
theorem entries_moveToEnd {d : Dict α β} {k : α} {v : β} (h : d.get? k = some v) :
    (d.moveToEnd k).entries = d.entries.filter (fun e => decide (e.1 ≠ k)) ++ [(k, v)] := by
  unfold moveToEnd
  rw [h]
  exact entries_set_of_none (by simp) v

theorem keys_moveToEnd {d : Dict α β} {k : α} (h : k ∈ d.keys) :
    (d.moveToEnd k).keys = d.keys.filter (· ≠ k) ++ [k] := by
  obtain ⟨v, hv⟩ := mem_keys_iff.mp h
  rw [keys, entries_moveToEnd hv, List.map_append, keys, List.filter_map]
  rfl

/-- A refreshed key with a new value. -/
theorem entries_set_moveToEnd {d : Dict α β} {k : α} {v : β} (h : d.get? k = some v) (w : β) :
    ((d.moveToEnd k).set k w).entries = d.entries.filter (fun e => decide (e.1 ≠ k)) ++ [(k, w)] := by
  have hkept : ∀ e ∈ d.entries.filter (fun e => decide (e.1 ≠ k)),
      (if e.1 = k then (k, w) else e) = e := fun e he =>
    if_neg (of_decide_eq_true (List.mem_filter.mp he).2)
  show setEntries (d.moveToEnd k).entries k w = _
  rw [setEntries, entries_moveToEnd h, if_pos (by simp), List.map_append, List.map_congr_left hkept,
    List.map_id']
  simp

@[simp] theorem get?_moveToEnd (d : Dict α β) (k k' : α) : (d.moveToEnd k).get? k' = d.get? k' := by
  unfold moveToEnd
  split
  · rfl
  · rename_i v hv
    rw [get?_set, get?_erase]
    split
    · rename_i heq
      rw [heq, hv]
    · rfl

theorem mapValues_set (d : Dict α β) (k : α) (v : β) (f : β → γ) :
    (d.set k v).mapValues (fun _ => f) = (d.mapValues fun _ => f).set k (f v) := by
  apply ext
  show (setEntries d.entries k v).map (fun e => (e.1, f e.2)) =
    setEntries (d.entries.map fun e => (e.1, f e.2)) k (f v)
  have hkeys : (d.entries.map fun e => (e.1, f e.2)).map Prod.fst = d.entries.map Prod.fst := by
    rw [List.map_map]
    rfl
  unfold setEntries
  rw [hkeys]
  split
  · rw [List.map_map, List.map_map]
    refine List.map_congr_left ?_
    intro e _
    show ((if e.1 = k then (k, v) else e).1, f (if e.1 = k then (k, v) else e).2) =
      if e.1 = k then (k, f v) else (e.1, f e.2)
    split <;> rfl
  · rw [List.map_append]
    rfl

@[simp] theorem get?_mapValues (d : Dict α β) (f : β → γ) (k : α) :
    (d.mapValues fun _ => f).get? k = (d.get? k).map f := by
  show (d.entries.map fun e => (e.1, f e.2)).lookup k = (d.entries.lookup k).map f
  induction d.entries with
  | nil => rfl
  | cons e es ih =>
    rw [List.map_cons, List.lookup_cons, List.lookup_cons, ih]
    cases k == e.1 <;> rfl

theorem mem_keys_set {d : Dict α β} {k k' : α} {v : β} :
    k' ∈ (d.set k v).keys ↔ k' = k ∨ k' ∈ d.keys := by
  rw [keys_set]
  split
  · rename_i hk
    constructor
    · exact Or.inr
    · rintro (rfl | h)
      · exact hk
      · exact h
  · rw [List.mem_append, List.mem_singleton, or_comm]

/-- Dictionaries that hold the same under every key have the same entries, in some order. -/
theorem entries_perm_of_get? {d d' : Dict α β} (h : ∀ k, d.get? k = d'.get? k) : d.entries.Perm d'.entries := by
  refine (List.perm_ext_iff_of_nodup (.of_map _ d.nodup) (.of_map _ d'.nodup)).mpr ?_
  rintro ⟨k, v⟩
  rw [mem_entries_iff, mem_entries_iff, h k]

/-- The value of an entry that a `set` leaves in place. -/
theorem mem_values_set {d : Dict α β} {k : α} {v w : β} (h : w ∈ (d.set k v).values) :
    w = v ∨ w ∈ d.values := by
  obtain ⟨k', hk'⟩ := mem_values_iff.mp h
  rw [get?_set] at hk'
  split at hk'
  · exact Or.inl (Option.some.inj hk').symm
  · exact Or.inr (mem_values_iff.mpr ⟨k', hk'⟩)

end Lookup

/-- The keys of a smaller dictionary are among those of a larger one. -/
theorem size_le_of_keys {d : Dict α β} {d' : Dict α γ} (h : ∀ k ∈ d.keys, k ∈ d'.keys) :
    d.size ≤ d'.size := by
  have hlength := (List.Nodup.subperm d.nodup fun k hk => h k hk).length_le
  rwa [List.length_map, keys, List.length_map] at hlength

/-! ## From pairs, and equality -/

section Pairs

variable [DecidableEq α]

/-- `dict(pairs)`: a later pair replaces an earlier one with its key. -/
def ofPairs (pairs : List (α × β)) : Dict α β := pairs.foldl (fun d e => d.set e.1 e.2) empty

theorem entries_foldl_set {pairs : List (α × β)} {d : Dict α β} (h : (d.keys ++ pairs.map Prod.fst).Nodup) :
    (pairs.foldl (fun d e => d.set e.1 e.2) d).entries = d.entries ++ pairs := by
  induction pairs generalizing d with
  | nil => exact (List.append_nil _).symm
  | cons e pairs ih =>
    rw [List.map_cons] at h
    have hnew : d.get? e.1 = none := get?_eq_none_iff.mpr fun hmem =>
      (List.nodup_append.mp h).2.2 e.1 hmem e.1 List.mem_cons_self rfl
    have hentries : (d.set e.1 e.2).entries = d.entries ++ [e] := entries_set_of_none hnew e.2
    rw [List.foldl_cons, ih, hentries, List.append_assoc, List.singleton_append]
    rw [keys, hentries, List.map_append, List.append_assoc]
    exact h

/-- Pairs with different keys are its entries. -/
theorem entries_ofPairs {pairs : List (α × β)} (h : (pairs.map Prod.fst).Nodup) : (ofPairs pairs).entries = pairs :=
  entries_foldl_set h

theorem mem_keys_ofPairs {pairs : List (α × β)} {k : α} : k ∈ (ofPairs pairs).keys ↔ k ∈ pairs.map Prod.fst := by
  have hfold : ∀ (pairs : List (α × β)) (d : Dict α β),
      k ∈ (pairs.foldl (fun d e => d.set e.1 e.2) d).keys ↔ k ∈ d.keys ∨ k ∈ pairs.map Prod.fst := by
    intro pairs
    induction pairs with
    | nil => simp
    | cons e pairs ih =>
      intro d
      rw [List.foldl_cons, ih, mem_keys_set, List.map_cons, List.mem_cons]
      tauto
  rw [ofPairs, hfold]
  simp [keys, empty]

/-- `d == d'`: as many entries, and an equal one in `d'` for each of `d`. -/
def eqBy (eq : β → γ → Bool) (d : Dict α β) (d' : Dict α γ) : Bool :=
  d.size = d'.size && d.entries.all fun e => (d'.get? e.1).any (eq e.2)

theorem eqBy_of_perm {eq : β → β → Bool} {d d' : Dict α β} (h : d.entries.Perm d'.entries)
    (heq : ∀ v ∈ d.values, eq v v = true) : eqBy eq d d' = true := by
  rw [eqBy, Bool.and_eq_true, decide_eq_true_eq, List.all_eq_true]
  refine ⟨h.length_eq, fun e he => ?_⟩
  have hget : d'.get? e.1 = some e.2 := mem_entries_iff.mp (h.mem_iff.mp he)
  rw [hget]
  exact heq e.2 (List.mem_map_of_mem he)

theorem get?_of_eqBy {eq : β → γ → Bool} {d : Dict α β} {d' : Dict α γ} (h : eqBy eq d d' = true) {k : α} {v : β}
    (hv : d.get? k = some v) : ∃ w, d'.get? k = some w ∧ eq v w = true := by
  rw [eqBy, Bool.and_eq_true, List.all_eq_true] at h
  have hany := h.2 (k, v) (mem_entries_iff.mpr hv)
  cases hw : d'.get? k with
  | none => simp [hw] at hany
  | some w => exact ⟨w, rfl, by simpa [hw] using hany⟩

end Pairs

/-! ## Grouping -/

section GroupBy

variable [DecidableEq α] (key : β → α)

/-- One item more: it goes to the end of its key's group. -/
def addTo (d : Dict α (List β)) (item : β) : Dict α (List β) :=
  d.set (key item) ((d.get? (key item)).getD [] ++ [item])

/-- The items by their key, in the order given (`defaultdict(list)` with an `append` an item). -/
def groupBy (items : List β) : Dict α (List β) := items.foldl (addTo key) empty

theorem getD_get?_addTo (d : Dict α (List β)) (item : β) (k : α) :
    ((d.addTo key item).get? k).getD [] =
      (d.get? k).getD [] ++ [item].filter fun item => decide (key item = k) := by
  unfold addTo
  rw [get?_set]
  by_cases hk : k = key item
  · subst hk
    simp
  · simp [hk, Ne.symm hk]

/-- Adding items one after the other: each group grows by the items with its key, in their order. -/
theorem getD_get?_foldl_addTo (d : Dict α (List β)) (items : List β) (k : α) :
    ((items.foldl (addTo key) d).get? k).getD [] =
      (d.get? k).getD [] ++ items.filter fun item => decide (key item = k) := by
  induction items generalizing d with
  | nil => exact (List.append_nil _).symm
  | cons item items ih =>
    rw [List.foldl_cons, ih, getD_get?_addTo, List.append_assoc, ← List.filter_append, List.singleton_append]

/-- The group of a key: the items with that key, in their order. -/
theorem getD_get?_groupBy (items : List β) (k : α) :
    ((groupBy key items).get? k).getD [] = items.filter fun item => decide (key item = k) :=
  getD_get?_foldl_addTo key empty items k

theorem mem_keys_groupBy {items : List β} {k : α} : k ∈ (groupBy key items).keys ↔ ∃ item ∈ items, key item = k := by
  have hfold : ∀ (items : List β) (d : Dict α (List β)),
      k ∈ (items.foldl (addTo key) d).keys ↔ k ∈ d.keys ∨ ∃ item ∈ items, key item = k := by
    intro items
    induction items with
    | nil => simp
    | cons item items ih =>
      intro d
      rw [List.foldl_cons, ih, addTo, mem_keys_set]
      simp only [List.exists_mem_cons_iff, eq_comm (a := k)]
      tauto
  refine (hfold items empty).trans (or_iff_right ?_)
  exact List.not_mem_nil

/-- What a dictionary of groups holds, with one group set apart. -/
theorem flatten_values_perm (d : Dict α (List β)) (k : α) :
    d.values.flatten.Perm ((d.get? k).getD [] ++ (d.erase k).values.flatten) := by
  cases hk : d.get? k with
  | none => rw [erase_of_none hk, Option.getD_none, List.nil_append]
  | some group => exact (values_perm_of_some hk).flatten

/-- Grouping keeps every item. -/
theorem flatten_values_groupBy (items : List β) : (groupBy key items).values.flatten.Perm items := by
  have hfold : ∀ (items : List β) (d : Dict α (List β)),
      (items.foldl (addTo key) d).values.flatten.Perm (d.values.flatten ++ items) := by
    intro items
    induction items with
    | nil =>
      intro d
      rw [List.append_nil]
      exact List.Perm.refl _
    | cons item items ih =>
      intro d
      have hnew := flatten_values_perm (d.addTo key item) (key item)
      rw [addTo, get?_set, if_pos rfl, Option.getD_some, erase_set, ← addTo] at hnew
      have hold := (flatten_values_perm d (key item)).append_right [item]
      have hstep : (d.addTo key item).values.flatten.Perm (d.values.flatten ++ [item]) := by
        refine hnew.trans (List.Perm.trans ?_ hold.symm)
        rw [List.append_assoc, List.append_assoc]
        exact List.perm_append_comm.append_left _
      refine (ih _).trans ?_
      rw [List.append_cons d.values.flatten]
      exact hstep.append_right items
  exact hfold items empty

/-- Grouping what items are mapped to is grouping the items, and mapping the groups. -/
theorem groupBy_map (f : γ → β) (items : List γ) :
    groupBy key (items.map f) = (groupBy (fun item => key (f item)) items).mapValues fun _ => List.map f := by
  have hstep : ∀ (d : Dict α (List γ)) (item : γ), (d.mapValues fun _ => List.map f).addTo key (f item) =
      (d.addTo (fun item => key (f item)) item).mapValues fun _ => List.map f := by
    intro d item
    rw [addTo, addTo, mapValues_set, get?_mapValues, List.map_append]
    cases d.get? (key (f item)) <;> rfl
  have hfold : ∀ (items : List γ) (d : Dict α (List γ)),
      (items.map f).foldl (addTo key) (d.mapValues fun _ => List.map f) =
        (items.foldl (addTo fun item => key (f item)) d).mapValues fun _ => List.map f := by
    intro items
    induction items with
    | nil => exact fun d => rfl
    | cons item items ih =>
      intro d
      rw [List.map_cons, List.foldl_cons, List.foldl_cons, hstep, ih]
  exact hfold items empty

end GroupBy

/-! ## Related dictionaries -/

/-- The same keys in the same order, with related values. -/
def Rel (R : β → γ → Prop) (d : Dict α β) (d' : Dict α γ) : Prop :=
  List.Forall₂ (fun e e' => e.1 = e'.1 ∧ R e.2 e'.2) d.entries d'.entries

section Rel

variable {R : β → γ → Prop} {d : Dict α β} {d' : Dict α γ}

theorem Rel.empty : Rel R (Dict.empty : Dict α β) Dict.empty := .nil

theorem Rel.keys_eq (h : Rel R d d') : d.keys = d'.keys := by
  have hrel : ∀ {es : List (α × β)} {es' : List (α × γ)},
      List.Forall₂ (fun e e' => e.1 = e'.1 ∧ R e.2 e'.2) es es' →
      es.map Prod.fst = es'.map Prod.fst := by
    intro es es' hes
    induction hes with
    | nil => rfl
    | cons he _ ih => rw [List.map_cons, List.map_cons, he.1, ih]
  exact hrel h

variable [DecidableEq α]

theorem Rel.get? (h : Rel R d d') (k : α) :
    (d.get? k = none ∧ d'.get? k = none) ∨ ∃ v v', d.get? k = some v ∧ d'.get? k = some v' ∧ R v v' := by
  have hrel : ∀ {es : List (α × β)} {es' : List (α × γ)},
      List.Forall₂ (fun e e' => e.1 = e'.1 ∧ R e.2 e'.2) es es' →
      (es.lookup k = none ∧ es'.lookup k = none) ∨
        ∃ v v', es.lookup k = some v ∧ es'.lookup k = some v' ∧ R v v' := by
    intro es es' hes
    induction hes with
    | nil => exact .inl ⟨rfl, rfl⟩
    | @cons e e' _ _ he _ ih =>
      rw [List.lookup_cons, List.lookup_cons, ← he.1]
      cases k == e.1 with
      | true => exact .inr ⟨e.2, e'.2, rfl, rfl, he.2⟩
      | false => exact ih
  exact hrel h

theorem Rel.set (h : Rel R d d') (k : α) {v : β} {v' : γ} (hv : R v v') :
    Rel R (d.set k v) (d'.set k v') := by
  have hkeys : d.entries.map Prod.fst = d'.entries.map Prod.fst := h.keys_eq
  show List.Forall₂ _ (setEntries d.entries k v) (setEntries d'.entries k v')
  unfold setEntries
  rw [hkeys]
  split
  · rw [List.forall₂_map_left_iff, List.forall₂_map_right_iff]
    refine h.imp ?_
    intro e e' he
    rw [← he.1]
    split
    · exact ⟨rfl, hv⟩
    · exact he
  · exact List.rel_append h (.cons ⟨rfl, hv⟩ .nil)

end Rel

end Dict

/-! ## Selecting from a list -/

section FirstMin

variable {α : Type u} {β : Type v}

/-- `min(items, key=key)`: the first of the items whose key is least. -/
def firstMin [LT β] [DecidableLT β] (key : α → β) : List α → Option α
  | [] => none
  | x :: rest => some (rest.foldl (fun best y => if key y < key best then y else best) x)

theorem firstMin_mem [LT β] [DecidableLT β] {key : α → β} {items : List α} {x : α}
    (h : firstMin key items = some x) : x ∈ items := by
  cases items with
  | nil => exact absurd h (by simp [firstMin])
  | cons first rest =>
    obtain rfl := Option.some.inj h
    have hfold : ∀ (rest : List α) (best : α),
        rest.foldl (fun best y => if key y < key best then y else best) best ∈ best :: rest := by
      intro rest
      induction rest with
      | nil => exact fun best => List.mem_singleton_self best
      | cons y rest ih =>
        intro best
        rcases List.mem_cons.mp (ih (if key y < key best then y else best)) with hbest | hrest
        · rw [List.foldl_cons, hbest]
          split
          · exact List.mem_cons_of_mem _ List.mem_cons_self
          · exact List.mem_cons_self
        · exact List.mem_cons_of_mem _ (List.mem_cons_of_mem _ hrest)
    exact hfold rest first

/-- No item has a smaller key. -/
theorem firstMin_le [LinearOrder β] {key : α → β} {items : List α} {x : α} (h : firstMin key items = some x) :
    ∀ y ∈ items, key x ≤ key y := by
  cases items with
  | nil => exact absurd h (by simp [firstMin])
  | cons first rest =>
    obtain rfl := Option.some.inj h
    have hfold : ∀ (rest : List α) (best : α), ∀ y ∈ best :: rest,
        key (rest.foldl (fun best y => if key y < key best then y else best) best) ≤ key y := by
      intro rest
      induction rest with
      | nil =>
        intro best y hy
        rw [List.mem_singleton.mp hy]
        exact le_refl _
      | cons z rest ih =>
        intro best y hy
        rw [List.foldl_cons]
        have hnext : key (if key z < key best then z else best) ≤ min (key z) (key best) := by
          split
          · rename_i hlt
            exact le_min (le_refl _) hlt.le
          · rename_i hge
            exact le_min (not_lt.mp hge) (le_refl _)
        have hhead := ih (if key z < key best then z else best) _ List.mem_cons_self
        rcases List.mem_cons.mp hy with rfl | hy
        · exact hhead.trans (hnext.trans (min_le_right _ _))
        · rcases List.mem_cons.mp hy with rfl | hy
          · exact hhead.trans (hnext.trans (min_le_left _ _))
          · exact ih _ y (List.mem_cons_of_mem _ hy)
    exact hfold rest first

theorem exists_firstMin [LT β] [DecidableLT β] (key : α → β) {items : List α} (h : items ≠ []) :
    ∃ x, firstMin key items = some x := by
  cases items with
  | nil => exact absurd rfl h
  | cons first rest => exact ⟨_, rfl⟩

end FirstMin

end Pirewall.Lib
