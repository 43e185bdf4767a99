/-
# Pirewall.Lib.Run -- deterministic runs and properties along them

A state machine here is a function `step : σ → α → σ` and a run is the fold of a list of inputs. Two
kinds of statement are made about a run: what holds in the state it ends in (and so, the list being
arbitrary, in every state it passes through), and what holds of every step on the way. `Along P` is the
second kind. `Along.invariant` and `Along.of_invariant` are the two induction rules, each with a
condition `G` that every step of the run is assumed to meet. `Along.of_final` is the rule for the other
direction: from the state a run ends in back to what its steps were.
-/

namespace Pirewall.Lib

section

variable {σ α : Type}

/-- The state after a list of inputs. -/
def run (step : σ → α → σ) (s : σ) (inputs : List α) : σ := inputs.foldl step s

@[simp] theorem run_nil (step : σ → α → σ) (s : σ) : run step s [] = s := rfl

@[simp] theorem run_cons (step : σ → α → σ) (s : σ) (a : α) (rest : List α) :
    run step s (a :: rest) = run step (step s a) rest := rfl

theorem run_append (step : σ → α → σ) (s : σ) (first rest : List α) :
    run step s (first ++ rest) = run step (run step s first) rest := List.foldl_append

/-- `P` holds of every step of the run: of the state before it and its input. -/
def Along (step : σ → α → σ) (P : σ → α → Prop) : σ → List α → Prop
  | _, [] => True
  | s, a :: rest => P s a ∧ Along step P (step s a) rest

namespace Along

variable {step : σ → α → σ} {G P Q : σ → α → Prop} {I : σ → Prop}

theorem mono (h : ∀ s a, P s a → Q s a) {s : σ} {inputs : List α} (hp : Along step P s inputs) :
    Along step Q s inputs := by
  induction inputs generalizing s with
  | nil => trivial
  | cons a rest ih => exact ⟨h s a hp.1, ih hp.2⟩

theorem and {s : σ} {inputs : List α} (hp : Along step P s inputs) (hq : Along step Q s inputs) :
    Along step (fun s a => P s a ∧ Q s a) s inputs := by
  induction inputs generalizing s with
  | nil => trivial
  | cons a rest ih => exact ⟨⟨hp.1, hq.1⟩, ih hp.2 hq.2⟩

/-- A property of every step of two runs, one after the other. -/
theorem append_iff {s : σ} {first rest : List α} :
    Along step P s (first ++ rest) ↔ Along step P s first ∧ Along step P (run step s first) rest := by
  induction first generalizing s with
  | nil => exact ⟨fun h => ⟨trivial, h⟩, fun h => h.2⟩
  | cons a first ih =>
    show P s a ∧ Along step P (step s a) (first ++ rest) ↔ _
    rw [ih]
    exact and_assoc.symm

/-- What an input does from any state, it does wherever it stands in a run. -/
theorem of_forall {inputs : List α} (h : ∀ a ∈ inputs, ∀ s, P s a) (s : σ) : Along step P s inputs := by
  induction inputs generalizing s with
  | nil => trivial
  | cons a rest ih =>
    exact ⟨h a List.mem_cons_self s, ih (fun b hb => h b (List.mem_cons_of_mem _ hb)) (step s a)⟩

/-- What good steps keep holds at the end of a run of good steps. -/
theorem invariant (hstep : ∀ s a, I s → G s a → I (step s a)) {s : σ} {inputs : List α}
    (h : Along step G s inputs) (hs : I s) : I (run step s inputs) := by
  induction inputs generalizing s with
  | nil => exact hs
  | cons a rest ih => exact ih h.2 (hstep s a hs h.1)

/-- What a good step does from a state with the invariant, every step of a run of good steps does. -/
theorem of_invariant (hstep : ∀ s a, I s → G s a → I (step s a))
    (hP : ∀ s a, I s → G s a → P s a) {s : σ} {inputs : List α}
    (h : Along step G s inputs) (hs : I s) : Along step P s inputs := by
  induction inputs generalizing s with
  | nil => trivial
  | cons a rest ih => exact ⟨hP s a hs h.1, ih h.2 (hstep s a hs h.1)⟩

/-- Two properties of a step that agree wherever the invariant holds, and of which the second keeps it, hold
along the same runs. -/
theorem iff_of_invariant (hPQ : ∀ s a, I s → G s a → (P s a ↔ Q s a))
    (hstep : ∀ s a, I s → G s a → Q s a → I (step s a)) {s : σ} {inputs : List α}
    (h : Along step G s inputs) (hs : I s) : Along step P s inputs ↔ Along step Q s inputs := by
  induction inputs generalizing s with
  | nil => exact Iff.rfl
  | cons a rest ih =>
    show P s a ∧ Along step P (step s a) rest ↔ Q s a ∧ Along step Q (step s a) rest
    rw [hPQ s a hs h.1]
    exact and_congr_right fun hq => ih h.2 (hstep s a hs h.1 hq)

/-- What no step can bring about holds at the start of a run that ends with it. -/
theorem start_of_final (hback : ∀ s a, I (step s a) → I s) {s : σ} {inputs : List α}
    (h : I (run step s inputs)) : I s := by
  induction inputs generalizing s with
  | nil => exact h
  | cons a rest ih => exact hback s a (ih h)

/-- What no step can bring about, and a step only leaves in place when it is good: a run that ends with it took
good steps. -/
theorem of_final (hback : ∀ s a, I (step s a) → I s) (hP : ∀ s a, I (step s a) → P s a) {s : σ}
    {inputs : List α} (h : I (run step s inputs)) : Along step P s inputs := by
  induction inputs generalizing s with
  | nil => trivial
  | cons a rest ih => exact ⟨hP s a (start_of_final hback h), ih h⟩

end Along

end

end Pirewall.Lib
