/-
# Pirewall.Lib.Traverse -- loops that fail at the first element that fails

`mapM` in `Option` gives the results of the elements, in their order, or nothing if one of them has none. It succeeds
with some results exactly if they are those of the elements (`mapM_eq_some_iff`); the rest are ways to use this: which
results there are, what they are images of, and what becomes of them in a second loop.
-/
import Mathlib.Data.List.Forall2

namespace Pirewall.Lib

universe u v w

variable {α : Type u} {β : Type v} {γ : Type w} {f : α → Option β} {as : List α} {bs : List β}

theorem mapM_cons_eq_some {a : α} :
    (a :: as).mapM f = some bs ↔ ∃ b rest, f a = some b ∧ as.mapM f = some rest ∧ b :: rest = bs := by
  rw [List.mapM_cons]
  constructor
  · intro h
    obtain ⟨b, hb, h⟩ := Option.bind_eq_some_iff.mp h
    obtain ⟨rest, hrest, h⟩ := Option.bind_eq_some_iff.mp h
    exact ⟨b, rest, hb, hrest, Option.some.inj h⟩
  · rintro ⟨b, rest, hb, hrest, rfl⟩
    rw [hb, hrest]
    rfl

/-- **The results of a loop** are those of the elements. -/
theorem mapM_eq_some_iff : as.mapM f = some bs ↔ List.Forall₂ (fun a b => f a = some b) as bs := by
  induction as generalizing bs with
  | nil => exact ⟨fun h => Option.some.inj h ▸ .nil, fun h => (List.forall₂_nil_left_iff.mp h) ▸ rfl⟩
  | cons a as ih =>
    rw [mapM_cons_eq_some, List.forall₂_cons_left_iff]
    simp only [ih, eq_comm]

/-- It succeeds if each element has a result. -/
theorem mapM_isSome : (as.mapM f).isSome = true ↔ ∀ a ∈ as, (f a).isSome = true := by
  induction as with
  | nil => simp
  | cons a as ih =>
    rw [List.mapM_cons, List.forall_mem_cons, ← ih]
    cases f a <;> cases as.mapM f <;> simp

/-! ## What the results are -/

theorem mem_of_mapM (h : as.mapM f = some bs) {b : β} (hb : b ∈ bs) : ∃ a ∈ as, f a = some b := by
  induction mapM_eq_some_iff.mp h with
  | nil => cases hb
  | @cons a c as bs hc hrest ih =>
    rcases List.mem_cons.mp hb with rfl | hb
    · exact ⟨a, List.mem_cons_self, hc⟩
    · obtain ⟨a', ha', hf⟩ := ih (mapM_eq_some_iff.mpr hrest) hb
      exact ⟨a', List.mem_cons_of_mem _ ha', hf⟩

/-- An element and its result, where the result is related to an image of the element. -/
theorem forall₂_of_mapM {g : α → γ} {R : β → γ → Prop} (h : as.mapM f = some bs)
    (hR : ∀ a ∈ as, ∀ b, f a = some b → R b (g a)) : List.Forall₂ R bs (as.map g) := by
  induction mapM_eq_some_iff.mp h with
  | nil => exact .nil
  | @cons a b as bs hb hrest ih =>
    exact .cons (hR a List.mem_cons_self b hb)
      (ih (mapM_eq_some_iff.mpr hrest) fun a ha => hR a (List.mem_cons_of_mem _ ha))

theorem mapM_of_some {k : α → β} (h : ∀ a ∈ as, f a = some (k a)) : as.mapM f = some (as.map k) :=
  mapM_eq_some_iff.mpr (List.forall₂_map_right_iff.mpr (List.forall₂_same.mpr h))

theorem results_of_mapM {k : α → β} (h : as.mapM f = some bs) (hk : ∀ a b, f a = some b → b = k a) :
    bs = as.map k := by
  have hsame := forall₂_of_mapM h fun a _ b hb => hk a b hb
  rwa [List.forall₂_eq_eq_eq] at hsame

/-- What the results tell the elements by. -/
theorem elements_of_mapM {g : β → α} (h : as.mapM f = some bs) (hg : ∀ a b, f a = some b → a = g b) :
    as = bs.map g := by
  have hsame := forall₂_of_mapM (g := id) h fun a _ b hb => (hg a b hb).symm
  rw [List.map_id, ← List.forall₂_map_left_iff, List.forall₂_eq_eq_eq] at hsame
  exact hsame.symm

/-- A second loop over the results. -/
theorem mapM_map_some {g : β → Option γ} {back : α → γ} (h : as.mapM f = some bs)
    (hback : ∀ a ∈ as, ∀ b, f a = some b → g b = some (back a)) : bs.mapM g = some (as.map back) :=
  mapM_eq_some_iff.mpr (forall₂_of_mapM h hback)

/-- Each result as a list of one. -/
theorem mapM_singleton (f : α → Option β) (as : List α) :
    as.mapM (fun a => (f a).map fun b => [b]) = (as.mapM f).map (List.map fun b => [b]) := by
  induction as with
  | nil => rfl
  | cons a as ih =>
    rw [List.mapM_cons, List.mapM_cons, ih]
    cases f a <;> cases as.mapM f <;> rfl

theorem forall₂_filterMap (h : ∀ a ∈ as, (f a).isSome = true) :
    List.Forall₂ (fun a b => f a = some b) as (as.filterMap f) := by
  induction as with
  | nil => exact .nil
  | cons a as ih =>
    obtain ⟨b, hb⟩ := Option.isSome_iff_exists.mp (h a List.mem_cons_self)
    rw [List.filterMap_cons_some hb]
    exact .cons hb (ih fun c hc => h c (List.mem_cons_of_mem a hc))

end Pirewall.Lib
