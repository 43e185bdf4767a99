/-
# Pirewall.Lib.Ledger -- items booked to exactly one account

A stream of items is split over accounts, each item to one of them, and an account shows only a total of
what its items weigh. `Ledger w items totals` says that the totals are those of such a split: nothing is
counted twice and nothing is left out. Items and totals are multisets, so that accounts may be reordered,
and moved between the open and the closed ones, for free.

The two postings keep it: an item opens an account, or joins one.
-/
import Mathlib.Algebra.BigOperators.Group.Multiset.Basic
import Mathlib.Data.Multiset.Bind

namespace Pirewall.Lib

section

variable {α M : Type} [AddCommMonoid M] {w : α → M} {items : Multiset α} {totals : Multiset M}

/-- The totals are those of a split of the items into groups. -/
def Ledger (w : α → M) (items : Multiset α) (totals : Multiset M) : Prop :=
  ∃ groups : Multiset (Multiset α), groups.join = items ∧ groups.map (fun g => (g.map w).sum) = totals

namespace Ledger

theorem zero (w : α → M) : Ledger w 0 0 := ⟨0, rfl, rfl⟩

/-- An item opens an account of its own. -/
theorem opened (h : Ledger w items totals) (a : α) : Ledger w (a ::ₘ items) (w a ::ₘ totals) := by
  obtain ⟨groups, hitems, htotals⟩ := h
  refine ⟨{a} ::ₘ groups, ?_, ?_⟩
  · rw [Multiset.join_cons, hitems, Multiset.singleton_add]
  · rw [Multiset.map_cons, htotals, Multiset.map_singleton, Multiset.sum_singleton]

/-- An item joins an account. -/
theorem posted {t : M} (h : Ledger w items (t ::ₘ totals)) (a : α) :
    Ledger w (a ::ₘ items) ((t + w a) ::ₘ totals) := by
  obtain ⟨groups, hitems, htotals⟩ := h
  obtain ⟨g, hg, hgt⟩ : ∃ g ∈ groups, (g.map w).sum = t := by
    rw [← Multiset.mem_map, htotals]
    exact Multiset.mem_cons_self t totals
  obtain ⟨rest, rfl⟩ := Multiset.exists_cons_of_mem hg
  rw [Multiset.map_cons, hgt, Multiset.cons_inj_right] at htotals
  rw [Multiset.join_cons] at hitems
  refine ⟨(a ::ₘ g) ::ₘ rest, ?_, ?_⟩
  · rw [Multiset.join_cons, Multiset.cons_add, hitems]
  · rw [Multiset.map_cons, htotals, Multiset.map_cons, Multiset.sum_cons, hgt, add_comm]

/-- The totals add up to the weight of the items. -/
theorem sum_eq (h : Ledger w items totals) : totals.sum = (items.map w).sum := by
  obtain ⟨groups, rfl, rfl⟩ := h
  induction groups using Multiset.induction with
  | empty => simp
  | cons g groups ih =>
    rw [Multiset.map_cons, Multiset.sum_cons, ih, Multiset.join_cons, Multiset.map_add, Multiset.sum_add]

end Ledger

end

end Pirewall.Lib
