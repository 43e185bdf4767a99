/-
# Pirewall.Lib.Lockstep -- two ports of one program, step by step

A program that fails with an error or panics, beside one that only fails. `Lockstep` says that the first does not
panic and that both end alike: with related errors, or with related results. Its rules follow the shape of the two
programs, so a proof walks through both at once; a read that is known to succeed is rewritten to `pure` on either
side. Nothing here names the program.
-/
import Mathlib.Tactic

namespace Pirewall.Lib

/-- A program that may fail with an error, and panics where it is `none`. -/
abbrev Panicking (ε : Type) : Type → Type := ExceptT ε Option

/-- A step that panics without a value: an index, a slice, a subtraction. -/
def Panicking.ofOption {ε α : Type} (value : Option α) : Panicking ε α := ExceptT.mk (value.map .ok)

section Lockstep

variable {ε ε' α α' β β' : Type} {E : ε → ε' → Prop} {R : α → α' → Prop}

/-- Both programs end, and alike. -/
def Lockstep (E : ε → ε' → Prop) (R : α → α' → Prop) (x : Panicking ε α) (y : Except ε' α') : Prop :=
  match x.run, y with
  | some (.ok a), .ok b => R a b
  | some (.error e), .error e' => E e e'
  | _, _ => False

namespace Lockstep

theorem pure {a : α} {b : α'} (h : R a b) : Lockstep E R (Pure.pure a) (Pure.pure b) := h

theorem throw {e : ε} {e' : ε'} (h : E e e') :
    Lockstep E R (MonadExcept.throw e : Panicking ε α) (MonadExcept.throw e') := h

/-- One step of each, then the rest from related results. -/
theorem bind {S : β → β' → Prop} {x : Panicking ε α} {y : Except ε' α'} {f : α → Panicking ε β}
    {g : α' → Except ε' β'} (h : Lockstep E R x y) (hrest : ∀ a b, R a b → Lockstep E S (f a) (g b)) :
    Lockstep E S (x >>= f) (y >>= g) := by
  unfold Lockstep at h
  split at h
  · rename_i a b hx
    obtain rfl : x = Pure.pure a := hx
    rw [pure_bind]
    exact hrest a b h
  · rename_i e e' hx
    obtain rfl : x = MonadExcept.throw e := hx
    exact h
  · exact h.elim

/-- The same test on both sides. -/
theorem ite {c c' : Prop} [Decidable c] [Decidable c'] {x u : Panicking ε α} {y v : Except ε' α'} (hc : c ↔ c')
    (hthen : c → Lockstep E R x y) (helse : ¬c → Lockstep E R u v) :
    Lockstep E R (if c then x else u) (if c' then y else v) := by
  by_cases h : c
  · rw [if_pos h, if_pos (hc.mp h)]
    exact hthen h
  · rw [if_neg h, if_neg (fun h' => h (hc.mpr h'))]
    exact helse h

/-- Both programs reject: one with one error for two reasons, the other with an error for each. -/
theorem reject {c d : Prop} [Decidable c] [Decidable d] {e : ε} {e₁ e₂ : ε'} {u : Panicking ε α} {v : Except ε' α'}
    (h₁ : E e e₁) (h₂ : E e e₂) (helse : ¬c → ¬d → Lockstep E R u v) :
    Lockstep E R (if c ∨ d then MonadExcept.throw e else u)
      (if c then MonadExcept.throw e₁ else if d then MonadExcept.throw e₂ else v) := by
  by_cases hc : c
  · rw [if_pos (.inl hc), if_pos hc]
    exact h₁
  · by_cases hd : d
    · rw [if_pos (.inr hd), if_neg hc, if_pos hd]
      exact h₂
    · rw [if_neg (not_or.mpr ⟨hc, hd⟩), if_neg hc, if_neg hd]
      exact helse hc hd

/-- The first program does not panic. -/
theorem returns {x : Panicking ε α} {y : Except ε' α'} (h : Lockstep E R x y) : ∃ result, x.run = some result := by
  unfold Lockstep at h
  split at h
  · rename_i a b hx
    exact ⟨_, hx⟩
  · rename_i e e' hx
    exact ⟨_, hx⟩
  · exact h.elim

/-- One program succeeds when the other does. -/
theorem ok_iff {x : Panicking ε α} {y : Except ε' α'} (h : Lockstep E R x y) :
    (∃ a, x.run = some (.ok a)) ↔ ∃ b, y = .ok b := by
  unfold Lockstep at h
  split at h
  · rename_i a b hx
    exact iff_of_true ⟨a, hx⟩ ⟨b, rfl⟩
  · rename_i e e' hx
    refine iff_of_false ?_ ?_
    · rintro ⟨a, ha⟩
      rw [hx] at ha
      cases ha
    · rintro ⟨b, hb⟩
      cases hb
  · exact h.elim

theorem related {x : Panicking ε α} {y : Except ε' α'} (h : Lockstep E R x y) {a : α} {b : α'}
    (hx : x.run = some (.ok a)) (hy : y = .ok b) : R a b := by
  subst hy
  unfold Lockstep at h
  rw [hx] at h
  exact h

theorem errors_related {x : Panicking ε α} {y : Except ε' α'} (h : Lockstep E R x y) {e : ε} {e' : ε'}
    (hx : x.run = some (.error e)) (hy : y = .error e') : E e e' := by
  subst hy
  unfold Lockstep at h
  rw [hx] at h
  exact h

end Lockstep

end Lockstep

end Pirewall.Lib
