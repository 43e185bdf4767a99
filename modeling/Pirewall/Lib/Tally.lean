/-
# Pirewall.Lib.Tally -- bounded dictionaries of counts

A dictionary counts the keys of a stream that something remembers and forgets. A key that is not counted yet is taken
in while there is room for it; a key that is forgotten is counted down, and its entry goes with its last count.
`Tally` says what the dictionary holds: for every key how often it occurs among the keys taken in, and no entry where
that is never. Counting up keeps it at the end of the stream, counting down at its front, so a log that grows at one
end and forgets at the other can be shown by one.

`Grouped` is the same for keys of two parts, counted by the second within the first.
-/
import Pirewall.Lib.Dict
import Pirewall.Lib.Window
import Mathlib.Algebra.BigOperators.Group.List.Lemmas
import Mathlib.Algebra.GroupWithZero.Nat

namespace Pirewall.Lib

section

variable {κ μ : Type} [DecidableEq κ] [DecidableEq μ]

/-! ## One dictionary -/

/-- Count a key up. -/
def countUp (counts : Dict κ Nat) (k : κ) : Dict κ Nat := counts.set k ((counts.get? k).getD 0 + 1)

/-- Count a key down; the entry goes with the last count. -/
def countDown (counts : Dict κ Nat) (k : κ) : Dict κ Nat :=
  let remaining := (counts.get? k).getD 0 - 1
  if 0 < remaining then counts.set k remaining else counts.erase k

/-- Whether a key is counted already or there is room for it. -/
def hasRoom {β : Type} (d : Dict κ β) (cap : Nat) (k : κ) : Bool := d.contains k || decide (d.size < cap)

/-- What a dictionary of counts holds for a key that occurs so often. -/
def entryOf (n : Nat) : Option Nat := if n = 0 then none else some n

/-- The counts are those of the keys. -/
def Tally (counts : Dict κ Nat) (keys : List κ) : Prop := ∀ k, counts.get? k = entryOf (keys.count k)

theorem getD_entryOf (n : Nat) : (entryOf n).getD 0 = n := by
  rw [entryOf]
  split
  · rename_i h
    exact h.symm
  · rfl

theorem entryOf_of_pos {n : Nat} (h : 0 < n) : entryOf n = some n := if_neg (Nat.pos_iff_ne_zero.mp h)

theorem entryOf_eq_some_iff {n m : Nat} : entryOf n = some m ↔ n = m ∧ 0 < m := by
  rw [entryOf]
  split
  · rename_i h
    subst h
    exact iff_of_false (by simp) (by omega)
  · rename_i h
    rw [Option.some_inj]
    exact ⟨fun hnm => ⟨hnm, by omega⟩, And.left⟩

theorem mem_of_entryOf_isSome {keys : List κ} {k : κ} (h : (entryOf (keys.count k)).isSome) : k ∈ keys := by
  obtain ⟨n, hn⟩ := Option.isSome_iff_exists.mp h
  obtain ⟨hcount, hpos⟩ := entryOf_eq_some_iff.mp hn
  exact List.count_pos_iff.mp (hcount ▸ hpos)

namespace Tally

variable {counts : Dict κ Nat} {keys : List κ} {k : κ}

theorem empty : Tally (Dict.empty : Dict κ Nat) [] := fun _ => rfl

theorem getD_get? (h : Tally counts keys) (k : κ) : (counts.get? k).getD 0 = keys.count k := by
  rw [h k, getD_entryOf]

theorem mem_keys_iff (h : Tally counts keys) : k ∈ counts.keys ↔ k ∈ keys := by
  constructor
  · intro hk
    obtain ⟨n, hn⟩ := Dict.mem_keys_iff.mp hk
    rw [h k] at hn
    exact mem_of_entryOf_isSome (by rw [hn]; rfl)
  · intro hk
    have hcount := h k
    rw [entryOf_of_pos (List.count_pos_iff.mpr hk)] at hcount
    exact Dict.mem_keys_iff.mpr ⟨_, hcount⟩

/-- A key taken in. -/
theorem countUp (h : Tally counts keys) (k : κ) : Tally (countUp counts k) (keys ++ [k]) := by
  intro k'
  rw [Lib.countUp, Dict.get?_set, List.count_append]
  by_cases hk : k' = k
  · subst hk
    rw [if_pos rfl, h.getD_get?, List.count_singleton_self, entryOf_of_pos (Nat.succ_pos _)]
  · rw [if_neg hk, h k', List.count_singleton, if_neg (by simpa using fun he => hk he.symm), Nat.add_zero]

/-- The oldest key forgotten. -/
theorem countDown (h : Tally counts (k :: keys)) : Tally (countDown counts k) keys := by
  intro k'
  have hremaining : (counts.get? k).getD 0 - 1 = keys.count k := by
    rw [h.getD_get?, List.count_cons_self, Nat.add_sub_cancel]
  -- the other groups lose nothing
  have hother : ∀ k', k' ≠ k → counts.get? k' = entryOf (keys.count k') := by
    intro k' hk
    rw [h k', List.count_cons_of_ne hk.symm]
  simp only [Lib.countDown, hremaining]
  by_cases hk : k' = k
  · subst hk
    split
    · rename_i hpos
      rw [Dict.get?_set, if_pos rfl, entryOf_of_pos hpos]
    -- the last of its group goes, and the group with it
    · rename_i hzero
      rw [Dict.get?_erase, if_pos rfl, Nat.eq_zero_of_not_pos hzero]
      rfl
  · split
    · rw [Dict.get?_set, if_neg hk, hother k' hk]
    · rw [Dict.get?_erase, if_neg hk, hother k' hk]

/-- The counts do not depend on the order of the keys. -/
theorem perm (h : Tally counts keys) {keys' : List κ} (hperm : keys.Perm keys') : Tally counts keys' := by
  intro k
  rw [h k, hperm.count_eq]

/-- The same keys are counted the same. -/
theorem get?_congr {counts' : Dict κ Nat} {keys' : List κ} (h : Tally counts keys) (h' : Tally counts' keys')
    (hcount : ∀ k, keys.count k = keys'.count k) (k : κ) : counts.get? k = counts'.get? k := by
  rw [h k, h' k, hcount k]

/-- A key taken in if a flag says so. -/
theorem countUpIf (h : Tally counts keys) (taken : Bool) (k : κ) :
    Tally (if taken then Lib.countUp counts k else counts) (keys ++ (if taken then some k else none).toList) := by
  cases taken with
  | true => exact h.countUp k
  | false => exact (List.append_nil keys).symm ▸ h

/-- The oldest key forgotten, if the flag says that it was taken in. -/
theorem countDownIf {taken : Bool} (h : Tally counts ((if taken then some k else none).toList ++ keys)) :
    Tally (if taken then Lib.countDown counts k else counts) keys := by
  cases taken with
  | true => exact Tally.countDown h
  | false => exact h

end Tally

omit [DecidableEq κ] in
/-- The keys of a stream, one item at a time. -/
theorem filterMap_cons_toList {α : Type} (f : α → Option κ) (a : α) (items : List α) :
    (a :: items).filterMap f = (f a).toList ++ items.filterMap f := by
  rw [List.filterMap_cons]
  cases f a <;> rfl

omit [DecidableEq κ] in
theorem filterMap_concat_toList {α : Type} (f : α → Option κ) (items : List α) (a : α) :
    (items ++ [a]).filterMap f = items.filterMap f ++ (f a).toList := by
  rw [List.filterMap_append, filterMap_cons_toList, List.filterMap_nil, List.append_nil]

/-! ## Room -/

/-- A key taken in where there is room keeps the cap. -/
theorem size_set_le {β : Type} {d : Dict κ β} {cap : Nat} {k : κ} (hroom : hasRoom d cap k = true)
    (hsize : d.size ≤ cap) (v : β) : (d.set k v).size ≤ cap := by
  cases hget : d.get? k with
  | some w => rw [Dict.size_set_of_some hget]; exact hsize
  | none =>
    have hlt : d.size < cap := by simpa [hasRoom, Dict.contains, hget] using hroom
    rw [Dict.size_set_of_none hget]
    exact hlt

theorem size_erase_le {β : Type} (d : Dict κ β) (k : κ) : (d.erase k).size ≤ d.size :=
  List.length_filter_le _ _

/-- Counting down never takes a key in. -/
theorem size_countDown_le (counts : Dict κ Nat) (k : κ) : (countDown counts k).size ≤ counts.size := by
  simp only [countDown]
  split
  · rename_i hpos
    cases hget : counts.get? k with
    | some n => exact Nat.le_of_eq (Dict.size_set_of_some hget _)
    | none => rw [hget] at hpos; exact absurd hpos (Nat.lt_irrefl 0)
  · exact size_erase_le counts k

/-! ## Keys of two parts -/

/-- Count a key of two parts up. -/
def countUpIn (groups : Dict κ (Dict μ Nat)) (k : κ) (m : μ) : Dict κ (Dict μ Nat) :=
  groups.set k (countUp ((groups.get? k).getD Dict.empty) m)

/-- Count a key of two parts down; a group goes with its last entry. -/
def countDownIn (groups : Dict κ (Dict μ Nat)) (k : κ) (m : μ) : Dict κ (Dict μ Nat) :=
  match groups.get? k with
  | none => groups
  | some counts =>
    let counts := countDown counts m
    if counts.size = 0 then groups.erase k else groups.set k counts

/-- The second parts that come with a first part. -/
def within (pairs : List (κ × μ)) (k : κ) : List μ := (pairs.filter fun pair => pair.1 = k).map Prod.snd

/-- Each group counts the second parts that come with its key, and there is no empty group. -/
structure Grouped (groups : Dict κ (Dict μ Nat)) (pairs : List (κ × μ)) : Prop where
  tally : ∀ k, Tally ((groups.get? k).getD Dict.empty) (within pairs k)
  size_ne_zero : ∀ k counts, groups.get? k = some counts → counts.size ≠ 0

omit [DecidableEq μ] in
theorem within_append (front back : List (κ × μ)) (k : κ) :
    within (front ++ back) k = within front k ++ within back k := by
  rw [within, List.filter_append, List.map_append]
  rfl

omit [DecidableEq μ] in
theorem within_cons_self (k : κ) (m : μ) (pairs : List (κ × μ)) : within ((k, m) :: pairs) k = m :: within pairs k := by
  rw [within, List.filter_cons_of_pos (by simp)]
  rfl

omit [DecidableEq μ] in
theorem within_cons_of_ne {k k' : κ} (h : k ≠ k') (m : μ) (pairs : List (κ × μ)) :
    within ((k, m) :: pairs) k' = within pairs k' := by
  rw [within, List.filter_cons_of_neg (by simpa using h)]
  rfl

theorem count_within (pairs : List (κ × μ)) (k : κ) (m : μ) : (within pairs k).count m = pairs.count (k, m) := by
  induction pairs with
  | nil => rfl
  | cons pair pairs ih =>
    obtain ⟨k', m'⟩ := pair
    by_cases hk : k' = k
    · subst hk
      rw [within_cons_self, List.count_cons, List.count_cons, ih]
      simp
    · rw [within_cons_of_ne hk, ih, List.count_cons_of_ne]
      exact fun h => hk (Prod.mk.inj h).1

theorem get?_eq_none_of_size_eq_zero {β : Type} {d : Dict κ β} (h : d.size = 0) (k : κ) : d.get? k = none := by
  have hentries : d.entries = [] := List.length_eq_zero_iff.mp h
  rw [Dict.get?, hentries]
  rfl

/-- A dictionary that holds something is not of size zero. -/
theorem size_set_ne_zero {β : Type} (d : Dict κ β) (k : κ) (v : β) : (d.set k v).size ≠ 0 := by
  intro h
  have hget := get?_eq_none_of_size_eq_zero h k
  rw [Dict.get?_set, if_pos rfl] at hget
  exact absurd hget (Option.some_ne_none v)

namespace Grouped

variable {groups : Dict κ (Dict μ Nat)} {pairs : List (κ × μ)} {k : κ} {m : μ}

theorem empty : Grouped (Dict.empty : Dict κ (Dict μ Nat)) [] := ⟨fun _ => Tally.empty, by simp⟩

/-- The count of a key of two parts. -/
theorem get? (h : Grouped groups pairs) (k : κ) (m : μ) :
    ((groups.get? k).bind fun counts => counts.get? m) = entryOf (pairs.count (k, m)) := by
  rw [← count_within, ← h.tally k m]
  cases groups.get? k <;> rfl

theorem countUp (h : Grouped groups pairs) (k : κ) (m : μ) :
    Grouped (countUpIn groups k m) (pairs ++ [(k, m)]) := by
  constructor
  · intro k'
    rw [countUpIn, Dict.get?_set, within_append]
    by_cases hk : k' = k
    · subst hk
      rw [if_pos rfl, within_cons_self]
      exact (h.tally k').countUp m
    · rw [if_neg hk, within_cons_of_ne (Ne.symm hk)]
      simpa [within] using h.tally k'
  · intro k' counts hget
    rw [countUpIn, Dict.get?_set] at hget
    split at hget
    · obtain rfl := Option.some.inj hget
      exact size_set_ne_zero _ _ _
    · exact h.size_ne_zero k' counts hget

theorem countDown (h : Grouped groups ((k, m) :: pairs)) : Grouped (countDownIn groups k m) pairs := by
  have hother : ∀ k', k' ≠ k → Tally ((groups.get? k').getD Dict.empty) (within pairs k') := by
    intro k' hk
    rw [← within_cons_of_ne hk.symm m pairs]
    exact h.tally k'
  have hself := h.tally k
  rw [within_cons_self] at hself
  rw [countDownIn]
  cases hget : groups.get? k with
  | none =>
    rw [hget] at hself
    exact absurd (hself.mem_keys_iff.mpr List.mem_cons_self) List.not_mem_nil
  | some counts =>
    rw [hget, Option.getD_some] at hself
    have hdown := hself.countDown
    simp only
    split
    · rename_i hzero
      constructor
      · intro k'
        rw [Dict.get?_erase]
        by_cases hk : k' = k
        · subst hk
          rw [if_pos rfl]
          intro m'
          rw [← hdown m', get?_eq_none_of_size_eq_zero hzero]
          rfl
        · rw [if_neg hk]
          exact hother k' hk
      · intro k' counts' hget'
        rw [Dict.get?_erase] at hget'
        split at hget'
        · exact absurd hget' (by simp)
        · exact h.size_ne_zero k' counts' hget'
    · rename_i hsize
      constructor
      · intro k'
        rw [Dict.get?_set]
        by_cases hk : k' = k
        · subst hk
          rw [if_pos rfl]
          exact hdown
        · rw [if_neg hk]
          exact hother k' hk
      · intro k' counts' hget'
        rw [Dict.get?_set] at hget'
        split at hget'
        · exact Option.some.inj hget' ▸ hsize
        · exact h.size_ne_zero k' counts' hget'

/-- A group has something to count. -/
theorem exists_mem_of_mem_keys (h : Grouped groups pairs) (hk : k ∈ groups.keys) : ∃ m, (k, m) ∈ pairs := by
  obtain ⟨counts, hget⟩ := Dict.mem_keys_iff.mp hk
  obtain ⟨entry, hentry⟩ := List.exists_mem_of_length_pos (Nat.pos_of_ne_zero (h.size_ne_zero k counts hget))
  have htally := h.tally k
  rw [hget, Option.getD_some] at htally
  have hmem := htally.mem_keys_iff.mp (List.mem_map_of_mem hentry)
  rw [← List.count_pos_iff, count_within, List.count_pos_iff] at hmem
  exact ⟨entry.1, hmem⟩

end Grouped

/-- Counting down never makes a group grow. -/
theorem get?_countDownIn {groups : Dict κ (Dict μ Nat)} {k k' : κ} {m : μ} {counts : Dict μ Nat}
    (h : (countDownIn groups k m).get? k' = some counts) :
    ∃ before, groups.get? k' = some before ∧ counts.size ≤ before.size := by
  rw [countDownIn] at h
  cases hget : groups.get? k with
  | none =>
    rw [hget] at h
    exact ⟨counts, h, Nat.le_refl _⟩
  | some before =>
    rw [hget] at h
    simp only at h
    split at h
    · rw [Dict.get?_erase] at h
      split at h
      · exact absurd h (by simp)
      · exact ⟨counts, h, Nat.le_refl _⟩
    · rw [Dict.get?_set] at h
      split at h
      · rename_i hk
        subst hk
        exact ⟨before, hget, Option.some.inj h ▸ size_countDown_le before m⟩
      · exact ⟨counts, h, Nat.le_refl _⟩

/-! ## What is read off the counts -/

/-- How often the most frequent key occurs. -/
def largestCount (keys : List κ) : Nat := (keys.map keys.count).foldr max 0

/-- The greatest number of different second parts that come with one first part. -/
def greatestBreadth (pairs : List (κ × μ)) : Nat :=
  (pairs.map fun pair => (within pairs pair.1).dedup.length).foldr max 0

theorem Tally.foldr_max_values {counts : Dict κ Nat} {keys : List κ} (h : Tally counts keys) :
    counts.values.foldr max 0 = largestCount keys := by
  refine foldr_max_congr fun n => ?_
  rw [Dict.mem_values_iff, List.mem_map]
  constructor
  · rintro ⟨k, hk⟩
    refine ⟨k, h.mem_keys_iff.mp (Dict.mem_keys_iff.mpr ⟨n, hk⟩), ?_⟩
    rw [h k] at hk
    exact (entryOf_eq_some_iff.mp hk).1
  · rintro ⟨k, hk, rfl⟩
    exact ⟨k, (h k).trans (entryOf_of_pos (List.count_pos_iff.mpr hk))⟩

/-- There is an entry for every key that occurs. -/
theorem Tally.size_eq {counts : Dict κ Nat} {keys : List κ} (h : Tally counts keys) :
    counts.size = keys.dedup.length := by
  have hperm : counts.keys.Perm keys.dedup :=
    (List.perm_ext_iff_of_nodup counts.nodup keys.nodup_dedup).mpr fun k => by
      rw [List.mem_dedup]
      exact h.mem_keys_iff
  rw [← hperm.length_eq, Dict.keys, List.length_map]
  rfl

/-- The counts add up to the number of keys. -/
theorem Tally.sum_values {counts : Dict κ Nat} {keys : List κ} (h : Tally counts keys) :
    counts.values.sum = keys.length := by
  have hvalues : counts.values = counts.keys.map fun k => keys.count k := by
    rw [Dict.values, Dict.keys, List.map_map]
    apply List.map_congr_left
    rintro ⟨k, n⟩ hmem
    have hget := Dict.mem_entries_iff.mp hmem
    rw [h k] at hget
    exact (entryOf_eq_some_iff.mp hget).1.symm
  have hperm : counts.keys.Perm keys.dedup :=
    (List.perm_ext_iff_of_nodup counts.nodup keys.nodup_dedup).mpr fun k => by
      rw [List.mem_dedup]
      exact h.mem_keys_iff
  rw [hvalues, (hperm.map _).sum_eq]
  exact List.sum_map_count_dedup_eq_length keys

theorem Grouped.foldr_max_size {groups : Dict κ (Dict μ Nat)} {pairs : List (κ × μ)} (h : Grouped groups pairs) :
    (groups.values.map Dict.size).foldr max 0 = greatestBreadth pairs := by
  have hsize : ∀ k counts, groups.get? k = some counts → counts.size = (within pairs k).dedup.length := by
    intro k counts hget
    have htally := h.tally k
    rw [hget, Option.getD_some] at htally
    exact htally.size_eq
  refine foldr_max_congr fun n => ?_
  rw [List.mem_map, List.mem_map]
  constructor
  · rintro ⟨counts, hcounts, rfl⟩
    obtain ⟨k, hget⟩ := Dict.mem_values_iff.mp hcounts
    obtain ⟨m, hm⟩ := h.exists_mem_of_mem_keys (Dict.mem_keys_iff.mpr ⟨counts, hget⟩)
    exact ⟨(k, m), hm, (hsize k counts hget).symm⟩
  · rintro ⟨⟨k, m⟩, hm, rfl⟩
    cases hget : groups.get? k with
    | none =>
      have hcount := h.get? k m
      rw [hget, entryOf_of_pos (List.count_pos_iff.mpr hm)] at hcount
      exact absurd hcount (by simp)
    | some counts => exact ⟨counts, Dict.mem_values_iff.mpr ⟨k, hget⟩, hsize k counts hget⟩

end

end Pirewall.Lib
