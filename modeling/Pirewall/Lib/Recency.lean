/-
# Pirewall.Lib.Recency -- the values seen most recently

`recent n l` are the last `n` distinct values of a list, each at its last appearance, oldest first. A memory that
moves what it sees to its end and drops its oldest value when it holds too many computes just this list from the one
before (`recent_snoc`). Nothing here names the program.
-/
import Mathlib.Data.List.Dedup
import Mathlib.Data.List.DropRight
import Mathlib.Algebra.BigOperators.Group.Finset.Basic

namespace Pirewall.Lib

variable {α : Type} [DecidableEq α]

/-- The last `n` distinct values of `l`, in the order of their last appearance. -/
def recent (n : Nat) (l : List α) : List α := l.dedup.rtake n

@[simp] theorem recent_nil (n : Nat) : recent n ([] : List α) = [] := List.rtake_nil n

theorem nodup_recent (n : Nat) (l : List α) : (recent n l).Nodup :=
  l.nodup_dedup.sublist (List.drop_sublist _ _)

theorem length_recent (n : Nat) (l : List α) : (recent n l).length = min l.dedup.length n := by
  show (l.dedup.drop _).length = _
  rw [List.length_drop]
  omega

/-- Nothing is forgotten while there is room for all. -/
theorem recent_of_le {n : Nat} {l : List α} (h : l.dedup.length ≤ n) : recent n l = l.dedup := by
  show l.dedup.drop _ = _
  rw [Nat.sub_eq_zero_of_le h, List.drop_zero]

/-! ## One value more -/

theorem dedup_snoc (l : List α) (k : α) : (l ++ [k]).dedup = l.dedup.filter (· ≠ k) ++ [k] := by
  induction l with
  | nil => rfl
  | cons a l ih =>
    rw [List.cons_append]
    by_cases ha : a ∈ l
    · rw [List.dedup_cons_of_mem ha, List.dedup_cons_of_mem (List.mem_append_left _ ha), ih]
    · rw [List.dedup_cons_of_notMem ha]
      by_cases hk : a = k
      · subst hk
        rw [List.dedup_cons_of_mem (by simp), ih, List.filter_cons_of_neg (by simp)]
      · rw [List.dedup_cons_of_notMem (by simp [ha, hk]), ih, List.filter_cons_of_pos (by simpa using hk)]
        rfl

theorem length_filter_ne {l : List α} {k : α} (hn : l.Nodup) (hk : k ∈ l) :
    (l.filter (· ≠ k)).length + 1 = l.length := by
  have herase : l.erase k = l.filter (· ≠ k) :=
    (hn.erase_eq_filter k).trans (List.filter_congr fun x _ => by rw [Bool.eq_iff_iff]; simp)
  rw [← herase, List.length_erase_of_mem hk]
  have hpos := List.length_pos_of_mem hk
  omega

omit [DecidableEq α] in
/-- The last `n` values, where they are known. -/
theorem rtake_append {n : Nat} {older l : List α} (hle : l.length ≤ n) (hroom : l.length < n → older = []) :
    (older ++ l).rtake n = l := by
  show (older ++ l).drop ((older ++ l).length - n) = l
  rcases Nat.lt_or_eq_of_le hle with hlt | heq
  · rw [hroom hlt, List.nil_append, Nat.sub_eq_zero_of_le hle, List.drop_zero]
  · rw [List.length_append, heq, Nat.add_sub_cancel, List.drop_left]

/-- The distinct values, set apart where the remembered ones begin. -/
theorem exists_older (n : Nat) (l : List α) :
    ∃ older, l.dedup = older ++ recent n l ∧ ((recent n l).length < n → older = []) := by
  refine ⟨l.dedup.take (l.dedup.length - n), (List.take_append_drop _ _).symm, ?_⟩
  intro hlt
  rw [length_recent] at hlt
  rw [Nat.sub_eq_zero_of_le (by omega), List.take_zero]

/-- A value that is remembered goes to the end; any other one is added there, and the oldest value leaves if there is
one too many. -/
theorem recent_snoc {n : Nat} (hn : 0 < n) (l : List α) (k : α) :
    recent n (l ++ [k]) =
      if k ∈ recent n l then (recent n l).filter (· ≠ k) ++ [k]
      else if n ≤ (recent n l).length then (recent n l).tail ++ [k]
      else recent n l ++ [k] := by
  obtain ⟨older, hsplit, hroom⟩ := exists_older n l
  have hle : (recent n l).length ≤ n := by
    rw [length_recent]
    exact Nat.min_le_right _ _
  have hsnoc : recent n (l ++ [k]) = (older.filter (· ≠ k) ++ ((recent n l).filter (· ≠ k) ++ [k])).rtake n := by
    rw [recent, dedup_snoc, hsplit, List.filter_append, List.append_assoc]
  rw [hsnoc]
  split
  · -- `k` stands among the remembered values: as many stay
    rename_i hk
    have hcount := length_filter_ne (nodup_recent n l) hk
    have hlength : ((recent n l).filter (· ≠ k) ++ [k]).length = (recent n l).length := by
      rw [List.length_append, List.length_singleton, hcount]
    refine rtake_append (hlength.le.trans hle) ?_
    intro hlt
    rw [hroom (hlength ▸ hlt), List.filter_nil]
  · rename_i hk
    have hkept : (recent n l).filter (· ≠ k) = recent n l :=
      List.filter_eq_self.mpr fun x hx => decide_eq_true fun h => hk (h ▸ hx)
    rw [hkept]
    split
    · -- no room: the first of the remembered values joins the older ones
      rename_i hfull
      obtain ⟨oldest, rest, hrest⟩ := List.exists_cons_of_length_pos (show 0 < (recent n l).length by omega)
      rw [hrest] at hfull hle ⊢
      rw [List.cons_append, List.append_cons, List.tail_cons]
      rw [List.length_cons] at hfull hle
      refine rtake_append ?_ ?_
      · rw [List.length_append, List.length_singleton]
        omega
      · intro hlt
        rw [List.length_append, List.length_singleton] at hlt
        omega
    · rename_i hfull
      rw [hroom (by omega), List.filter_nil]
      refine rtake_append ?_ fun _ => rfl
      rw [List.length_append, List.length_singleton]
      omega

/-! ## What is forgotten -/

/-- How often, along the list, a value that was remembered is not any more. -/
def forgotten (n : Nat) (l : List α) : Nat :=
  ∑ i ∈ Finset.range l.length, ((recent n (l.take i)).filter (· ∉ recent n (l.take (i + 1)))).length

@[simp] theorem forgotten_nil (n : Nat) : forgotten n ([] : List α) = 0 := rfl

/-- A value leaves when a new one finds no room. -/
theorem forgotten_snoc {n : Nat} (hn : 0 < n) (l : List α) (k : α) :
    forgotten n (l ++ [k]) =
      forgotten n l + if k ∉ recent n l ∧ n ≤ (recent n l).length then 1 else 0 := by
  have hearlier : ∀ i ∈ Finset.range l.length,
      ((recent n ((l ++ [k]).take i)).filter (· ∉ recent n ((l ++ [k]).take (i + 1)))).length =
        ((recent n (l.take i)).filter (· ∉ recent n (l.take (i + 1)))).length := by
    intro i hi
    rw [Finset.mem_range] at hi
    rw [List.take_append_of_le_length (by omega), List.take_append_of_le_length (by omega)]
  have hlast : ((recent n l).filter (· ∉ recent n (l ++ [k]))).length =
      if k ∉ recent n l ∧ n ≤ (recent n l).length then 1 else 0 := by
    rw [recent_snoc hn]
    by_cases hk : k ∈ recent n l
    · rw [if_pos hk, if_neg (by simp [hk]), List.length_eq_zero_iff, List.filter_eq_nil_iff]
      intro x hx
      by_cases hxk : x = k <;> simp [hxk, hx]
    · by_cases hfull : n ≤ (recent n l).length
      · rw [if_neg hk, if_pos hfull, if_pos ⟨hk, hfull⟩]
        obtain ⟨oldest, rest, hrest⟩ := List.exists_cons_of_length_pos (show 0 < (recent n l).length by omega)
        have hnodup := nodup_recent n l
        rw [hrest] at hnodup hk ⊢
        rw [List.nodup_cons] at hnodup
        rw [List.mem_cons, not_or] at hk
        rw [List.tail_cons, List.filter_cons_of_pos (by simp [hnodup.1, Ne.symm hk.1])]
        rw [List.filter_eq_nil_iff.mpr fun x hx => by simp [hx]]
        rfl
      · rw [if_neg hk, if_neg hfull, if_neg fun h => hfull h.2, List.length_eq_zero_iff, List.filter_eq_nil_iff]
        intro x hx
        simp [hx]
  rw [forgotten, List.length_append, List.length_singleton, Finset.sum_range_succ, Finset.sum_congr rfl hearlier,
    List.take_append_of_le_length (Nat.le_refl _), List.take_length, List.take_of_length_le (by simp), hlast]
  rfl

end Pirewall.Lib
