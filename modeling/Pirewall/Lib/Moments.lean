/-
# Pirewall.Lib.Moments -- the mean of a list and the squares around it

`average` and `squaredDeviations` of a list over an ordered field, and what one value more makes of them: the mean
moves by its share of the distance, the squares grow by the product of the distances from the old and from the new
mean. Nothing here names the program.
-/
import Mathlib.Algebra.BigOperators.Group.List.Basic
import Mathlib.Algebra.Order.BigOperators.Group.List
import Mathlib.Algebra.Order.Field.Basic
import Mathlib.Data.List.Induction
import Mathlib.Tactic.FieldSimp
import Mathlib.Tactic.Ring

namespace Pirewall.Lib

variable {F : Type} [Field F]

/-- The sum over the number. -/
def average (xs : List F) : F := xs.sum / xs.length

/-- The sum of the squared distances from a point. -/
def squaresAround (m : F) (xs : List F) : F := (xs.map fun x => (x - m) ^ 2).sum

/-- The sum of the squared deviations from the mean. -/
def squaredDeviations (xs : List F) : F := squaresAround (average xs) xs

theorem squaresAround_nonneg [LinearOrder F] [IsStrictOrderedRing F] (m : F) (xs : List F) :
    0 ≤ squaresAround m xs := by
  refine List.sum_nonneg ?_
  intro y hy
  obtain ⟨x, _, rfl⟩ := List.mem_map.mp hy
  exact sq_nonneg _

theorem squaresAround_snoc (m : F) (xs : List F) (x : F) :
    squaresAround m (xs ++ [x]) = squaresAround m xs + (x - m) ^ 2 := by
  rw [squaresAround, List.map_append, List.sum_append]
  simp [squaresAround]

/-- The squares around one point from those around another. -/
theorem squaresAround_eq (m c : F) (xs : List F) :
    squaresAround m xs = squaresAround c xs + 2 * (c - m) * (xs.sum - xs.length * c) + xs.length * (c - m) ^ 2 := by
  induction xs using List.reverseRecOn with
  | nil => simp [squaresAround]
  | append_singleton xs x ih =>
    rw [squaresAround_snoc, squaresAround_snoc, ih, List.sum_append, List.length_append, List.length_singleton,
      List.sum_singleton]
    push_cast
    ring

/-! ## Around the mean -/

variable [CharZero F]

theorem average_mul_length (xs : List F) : average xs * xs.length = xs.sum := by
  cases xs with
  | nil => simp
  | cons x xs =>
    have hn : ((x :: xs).length : F) ≠ 0 := Nat.cast_ne_zero.mpr (Nat.succ_ne_zero _)
    exact div_mul_cancel₀ _ hn

/-- Any other point adds the square of its distance once per value. -/
theorem squaresAround_eq_deviations (m : F) (xs : List F) :
    squaresAround m xs = squaredDeviations xs + xs.length * (average xs - m) ^ 2 := by
  have hsum := average_mul_length xs
  rw [squaresAround_eq m (average xs) xs, squaredDeviations, ← hsum]
  ring

theorem average_snoc (xs : List F) (x : F) :
    average (xs ++ [x]) = average xs + (x - average xs) / (xs.length + 1 : ℕ) := by
  have hn : ((xs.length + 1 : ℕ) : F) ≠ 0 := Nat.cast_ne_zero.mpr (Nat.succ_ne_zero _)
  have hsum := average_mul_length xs
  rw [average, List.length_append, List.length_singleton, List.sum_append, List.sum_singleton, div_eq_iff hn, add_mul,
    div_mul_cancel₀ _ hn, ← hsum]
  push_cast
  ring

/-- The squares grow by the product of the distances from the old mean and from the new one. -/
theorem squaredDeviations_snoc (xs : List F) (x : F) :
    squaredDeviations (xs ++ [x]) =
      squaredDeviations xs + (x - average xs) * (x - average (xs ++ [x])) := by
  have hn : ((xs.length + 1 : ℕ) : F) ≠ 0 := Nat.cast_ne_zero.mpr (Nat.succ_ne_zero _)
  rw [squaredDeviations, squaresAround_snoc, squaresAround_eq_deviations, average_snoc, add_assoc]
  refine congrArg (squaredDeviations xs + ·) ?_
  field_simp
  push_cast
  ring

end Pirewall.Lib
