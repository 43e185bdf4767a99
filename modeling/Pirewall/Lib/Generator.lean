/-
# Pirewall.Lib.Generator -- loops that yield, stop or raise

A generator is a loop over a state. One turn of it ends the loop, raises out of it, or yields something and goes on
in another state. `generate` runs the loop with a bound on the number of turns, `Generates` says what it generates
without one. Where every turn that goes on makes some number smaller, the bound is no restriction
(`generate_total`), and what is generated is proved by induction on `Generates`, one case for each way a turn ends.
-/
import Mathlib.Tactic

namespace Pirewall.Lib

section

variable {σ ε ρ : Type}

/-- One turn of a generator's loop. -/
inductive Turn (σ ε ρ : Type) where
  | stop (s : σ)
  | raise (e : ε) (s : σ)
  | next (out : List ρ) (s : σ)

/-- What a generator makes: what it yields, the exception it ends in if it does, and the state it leaves. -/
structure Generated (σ ε ρ : Type) where
  yielded : List ρ
  error : Option ε
  final : σ

/-- The loop, for at most so many turns. -/
def generate (turn : σ → Turn σ ε ρ) : Nat → σ → Option (Generated σ ε ρ)
  | 0, _ => none
  | turns + 1, s =>
    match turn s with
    | .stop s' => some ⟨[], none, s'⟩
    | .raise e s' => some ⟨[], some e, s'⟩
    | .next out s' => (generate turn turns s').map fun g => ⟨out ++ g.yielded, g.error, g.final⟩

/-- The loop, turn by turn. -/
inductive Generates (turn : σ → Turn σ ε ρ) : σ → Generated σ ε ρ → Prop where
  | stop {s s' : σ} (h : turn s = .stop s') : Generates turn s ⟨[], none, s'⟩
  | raise {s s' : σ} {e : ε} (h : turn s = .raise e s') : Generates turn s ⟨[], some e, s'⟩
  | next {s s' : σ} {out : List ρ} {g : Generated σ ε ρ} (h : turn s = .next out s') (rest : Generates turn s' g) :
      Generates turn s ⟨out ++ g.yielded, g.error, g.final⟩

variable {turn : σ → Turn σ ε ρ}

theorem generates_of_generate {turns : Nat} {s : σ} {g : Generated σ ε ρ} (h : generate turn turns s = some g) :
    Generates turn s g := by
  induction turns generalizing s g with
  | zero => exact nomatch h
  | succ turns ih =>
    rw [generate] at h
    cases hturn : turn s with
    | stop s' =>
      rw [hturn] at h
      exact Option.some.inj h ▸ .stop hturn
    | raise e s' =>
      rw [hturn] at h
      exact Option.some.inj h ▸ .raise hturn
    | next out s' =>
      rw [hturn] at h
      obtain ⟨rest, hrest, rfl⟩ := Option.map_eq_some_iff.mp h
      exact .next hturn (ih hrest)

/-- A turn that goes on makes `size` smaller. -/
def Advances (turn : σ → Turn σ ε ρ) (size : σ → Nat) : Prop :=
  ∀ s out s', turn s = .next out s' → size s' < size s

/-- A turn that goes on from a state with `inv` keeps it, and makes `size` smaller. -/
def AdvancesIn (turn : σ → Turn σ ε ρ) (inv : σ → Prop) (size : σ → Nat) : Prop :=
  ∀ s out s', inv s → turn s = .next out s' → inv s' ∧ size s' < size s

theorem Advances.in {size : σ → Nat} (h : Advances turn size) : AdvancesIn turn (fun _ => True) size :=
  fun s out s' _ hturn => ⟨trivial, h s out s' hturn⟩

theorem generate_isSome {inv : σ → Prop} {size : σ → Nat} (hsize : AdvancesIn turn inv size) {turns : Nat} {s : σ}
    (hinv : inv s) (h : size s < turns) : ∃ g, generate turn turns s = some g := by
  induction turns generalizing s with
  | zero => exact absurd h (Nat.not_lt_zero _)
  | succ turns ih =>
    rw [generate]
    cases hturn : turn s with
    | stop s' => exact ⟨_, rfl⟩
    | raise e s' => exact ⟨_, rfl⟩
    | next out s' =>
      obtain ⟨hinv', hless⟩ := hsize s out s' hinv hturn
      obtain ⟨rest, hrest⟩ := ih hinv' (by omega)
      exact ⟨_, congrArg (Option.map _) hrest⟩

/-- A loop that advances ends, and generates one thing. -/
theorem generate_total {inv : σ → Prop} {size : σ → Nat} (hsize : AdvancesIn turn inv size) {turns : Nat} {s : σ}
    (hinv : inv s) (h : size s < turns) : ∃ g, generate turn turns s = some g ∧ Generates turn s g := by
  obtain ⟨g, hg⟩ := generate_isSome hsize hinv h
  exact ⟨g, hg, generates_of_generate hg⟩

theorem Generates.unique {s : σ} {g g' : Generated σ ε ρ} (h : Generates turn s g) (h' : Generates turn s g') :
    g = g' := by
  induction h generalizing g' with
  | stop hturn =>
    cases h' with
    | stop hturn' => cases hturn.symm.trans hturn'; rfl
    | raise hturn' => exact nomatch hturn.symm.trans hturn'
    | next hturn' _ => exact nomatch hturn.symm.trans hturn'
  | raise hturn =>
    cases h' with
    | stop hturn' => exact nomatch hturn.symm.trans hturn'
    | raise hturn' => cases hturn.symm.trans hturn'; rfl
    | next hturn' _ => exact nomatch hturn.symm.trans hturn'
  | next hturn _ ih =>
    cases h' with
    | stop hturn' => exact nomatch hturn.symm.trans hturn'
    | raise hturn' => exact nomatch hturn.symm.trans hturn'
    | next hturn' rest' =>
      cases hturn.symm.trans hturn'
      rw [ih rest']

/-- With turns enough, the loop generates what it generates. -/
theorem Generates.generate {size : σ → Nat} (hsize : Advances turn size) {turns : Nat} {s : σ} {g : Generated σ ε ρ}
    (h : Generates turn s g) (hturns : size s < turns) : Lib.generate turn turns s = some g := by
  obtain ⟨g', hg', hgen⟩ := generate_total hsize.in trivial hturns
  rw [hg', hgen.unique h]

end

end Pirewall.Lib
