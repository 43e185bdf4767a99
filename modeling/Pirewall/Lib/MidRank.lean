/-
# Pirewall.Lib.MidRank -- pairs won, with ties shared

In a comparison of two values the larger one gets the credit, and equal ones share it. `credits xs v` is what `v` gets
against the values of `xs`; half a credit more is its rank among them, ties ranked by their average. Nothing here
names the program.
-/
import Mathlib.Algebra.BigOperators.Group.List.Basic
import Mathlib.Algebra.Order.BigOperators.Group.List
import Mathlib.Data.Rat.Cast.Order
import Mathlib.Order.Monotone.Basic
import Mathlib.Tactic.FieldSimp
import Mathlib.Tactic.Linarith
import Mathlib.Tactic.Ring

namespace Pirewall.Lib

variable {α β : Type} [LinearOrder α] [LinearOrder β]

/-- What `v` gets against `w`. -/
def credit (v w : α) : ℚ := if w < v then 1 else if v = w then 1 / 2 else 0

/-- What `v` gets against the values of a list. -/
def credits (xs : List α) (v : α) : ℚ := (xs.map (credit v)).sum

theorem credit_self (v : α) : credit v v = 1 / 2 := by
  rw [credit, if_neg (lt_irrefl v), if_pos rfl]

/-- The two sides of a comparison share one credit. -/
theorem credit_add_swap (v w : α) : credit v w + credit w v = 1 := by
  rcases lt_trichotomy v w with hlt | rfl | hgt
  · rw [credit, if_neg (not_lt.mpr hlt.le), if_neg hlt.ne, credit, if_pos hlt, zero_add]
  · rw [credit_self]
    norm_num
  · rw [credit, if_pos hgt, credit, if_neg (not_lt.mpr hgt.le), if_neg hgt.ne, add_zero]

/-! ## Lists -/

@[simp] theorem credits_nil (v : α) : credits [] v = 0 := rfl

theorem credits_cons (w : α) (xs : List α) (v : α) : credits (w :: xs) v = credit v w + credits xs v := by
  rw [credits, List.map_cons, List.sum_cons, credits]

theorem credits_append (xs ys : List α) (v : α) : credits (xs ++ ys) v = credits xs v + credits ys v := by
  rw [credits, List.map_append, List.sum_append, credits, credits]

theorem credits_perm {xs ys : List α} (h : xs.Perm ys) (v : α) : credits xs v = credits ys v :=
  (h.map (credit v)).sum_eq

/-- Against values that all compare alike. -/
theorem credits_of_forall {xs : List α} {v : α} {c : ℚ} (h : ∀ w ∈ xs, credit v w = c) :
    credits xs v = xs.length * c := by
  rw [credits, List.map_congr_left h, List.map_const', List.sum_replicate, nsmul_eq_mul]

theorem credits_of_lt {xs : List α} {v : α} (h : ∀ w ∈ xs, w < v) : credits xs v = xs.length := by
  rw [credits_of_forall fun w hw => if_pos (h w hw), mul_one]

theorem credits_of_eq {xs : List α} {v : α} (h : ∀ w ∈ xs, w = v) : credits xs v = xs.length / 2 := by
  rw [credits_of_forall fun w hw => by rw [h w hw, credit_self], mul_one_div]

theorem credits_of_gt {xs : List α} {v : α} (h : ∀ w ∈ xs, v < w) : credits xs v = 0 := by
  rw [credits_of_forall fun w hw => (if_neg (not_lt.mpr (h w hw).le)).trans (if_neg (h w hw).ne), mul_zero]

/-- All the comparisons within a list. -/
theorem sum_credits_self (xs : List α) : (xs.map (credits xs)).sum = (xs.length : ℚ) ^ 2 / 2 := by
  have hcolumn : ∀ (x : α) (ys : List α), (ys.map fun v => credit v x).sum + credits ys x = ys.length := by
    intro x ys
    induction ys with
    | nil => simp
    | cons y ys ih =>
      have hshare := credit_add_swap x y
      rw [List.map_cons, List.sum_cons, credits_cons, List.length_cons]
      push_cast
      linarith
  induction xs with
  | nil => simp
  | cons x xs ih =>
    have hrows : (xs.map (credits (x :: xs))).sum = (xs.map fun v => credit v x).sum + (xs.map (credits xs)).sum := by
      rw [← List.sum_map_add]
      exact congrArg List.sum (List.map_congr_left fun v _ => credits_cons x xs v)
    rw [List.map_cons, List.sum_cons, credits_cons, credit_self, hrows, ih, List.length_cons]
    have := hcolumn x xs
    push_cast
    linarith

/-! ## Maps -/

theorem credit_strictMono {f : α → β} {s : Set α} (hf : StrictMonoOn f s) {v w : α} (hv : v ∈ s) (hw : w ∈ s) :
    credit (f v) (f w) = credit v w := by
  rw [credit, credit, if_congr (hf.lt_iff_lt hw hv) rfl (if_congr (hf.injOn.eq_iff hv hw) rfl rfl)]

theorem credit_strictAnti {f : α → β} {s : Set α} (hf : StrictAntiOn f s) {v w : α} (hv : v ∈ s) (hw : w ∈ s) :
    credit (f v) (f w) = credit w v := by
  rw [credit, credit, if_congr (hf.lt_iff_gt hw hv) rfl (if_congr ((hf.injOn.eq_iff hv hw).trans eq_comm) rfl rfl)]

end Pirewall.Lib
