/-
# Pirewall.Lib.Rank -- what stands where in a sorted list

The rank of an element is how many elements of a finite set are smaller. In ascending order without repetition
every element stands at its rank, so what a program selects by position (a tail, every fourth) is a condition on
ranks. Nothing here names the program.
-/
import Mathlib.Data.Finset.Card
import Mathlib.Data.List.Sort

namespace Pirewall.Lib

universe u
variable {α : Type u} [LinearOrder α]

/-- How many of `s` are smaller than `a`. -/
def rank (s : Finset α) (a : α) : Nat := (s.filter fun b => b < a).card

theorem rank_lt_card {s : Finset α} {a : α} (ha : a ∈ s) : rank s a < s.card :=
  Finset.card_lt_card (Finset.filter_ssubset.mpr ⟨a, ha, lt_irrefl a⟩)

/-- In ascending order without repetition, an element stands at its rank. -/
theorem rank_getElem {l : List α} (h : l.SortedLT) {i : Nat} (hi : i < l.length) : rank l.toFinset l[i] = i := by
  have hsmaller : l.toFinset.filter (fun b => b < l[i]) = (l.take i).toFinset := by
    ext b
    rw [Finset.mem_filter, List.mem_toFinset, List.mem_toFinset, List.mem_take_iff_getElem, List.mem_iff_getElem]
    constructor
    · rintro ⟨⟨j, hj, rfl⟩, hlt⟩
      have hji := h.getElem_lt_getElem_iff.mp hlt
      exact ⟨j, by omega, rfl⟩
    · rintro ⟨j, hj, rfl⟩
      exact ⟨⟨j, by omega, rfl⟩, h.getElem_lt_getElem_iff.mpr (by omega)⟩
  have hnodup : (l.take i).Nodup := (List.take_sublist i l).nodup h.nodup
  rw [rank, hsmaller, List.toFinset_card_of_nodup hnodup, List.length_take, Nat.min_eq_left hi.le]

theorem mem_drop_iff {l : List α} (h : l.SortedLT) {a : α} {n : Nat} :
    a ∈ l.drop n ↔ a ∈ l ∧ n ≤ rank l.toFinset a := by
  constructor
  · intro ha
    obtain ⟨i, hi, rfl⟩ := List.getElem_of_mem ha
    rw [List.length_drop] at hi
    rw [List.getElem_drop, rank_getElem h (by omega)]
    exact ⟨List.getElem_mem _, by omega⟩
  · rintro ⟨ha, hn⟩
    obtain ⟨i, hi, rfl⟩ := List.getElem_of_mem ha
    rw [rank_getElem h hi] at hn
    exact List.mem_drop_iff_getElem.mpr ⟨i - n, by omega, by simp only [Nat.add_sub_cancel' hn]⟩

/-- The items at the positions that `n` divides. -/
def everyNth (n : Nat) (items : List α) : List α :=
  (items.zipIdx.filter fun item => item.2 % n = 0).map Prod.fst

theorem mem_everyNth_iff {l : List α} (h : l.SortedLT) {a : α} {n : Nat} :
    a ∈ everyNth n l ↔ a ∈ l ∧ rank l.toFinset a % n = 0 := by
  simp only [everyNth, List.mem_map, List.mem_filter, decide_eq_true_eq, Prod.exists, exists_and_right,
    exists_eq_right, List.mk_mem_zipIdx_iff_getElem?]
  constructor
  · rintro ⟨i, hi, hdvd⟩
    obtain ⟨hlt, rfl⟩ := List.getElem?_eq_some_iff.mp hi
    rw [rank_getElem h hlt]
    exact ⟨List.getElem_mem hlt, hdvd⟩
  · rintro ⟨ha, hdvd⟩
    obtain ⟨i, hi, rfl⟩ := List.getElem_of_mem ha
    rw [rank_getElem h hi] at hdvd
    exact ⟨i, List.getElem?_eq_getElem hi, hdvd⟩

/-- `sorted(items)`. -/
def sorted (items : List α) : List α := items.insertionSort fun a b => a ≤ b

@[simp] theorem mem_sorted {items : List α} {a : α} : a ∈ sorted items ↔ a ∈ items := List.mem_insertionSort _

@[simp] theorem length_sorted (items : List α) : (sorted items).length = items.length :=
  List.length_insertionSort _ items

theorem sortedLT_sorted {items : List α} (h : items.Nodup) : (sorted items).SortedLT :=
  List.sortedLE_insertionSort.sortedLT_of_nodup ((List.perm_insertionSort _ items).nodup_iff.mpr h)

theorem toFinset_sorted (items : List α) : (sorted items).toFinset = items.toFinset :=
  List.toFinset_eq_of_perm _ _ (List.perm_insertionSort _ _)
end Pirewall.Lib
