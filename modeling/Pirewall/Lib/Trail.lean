/-
# Pirewall.Lib.Trail -- journals that tell what happened

A system keeps a status for each of its keys, and a journal: every entry names a key and the statuses it
moved between. The journal is true to the system if replaying it, entry by entry, leads from the statuses at
the start to those at the end, along edges that are allowed. `Trail` is that replay.

A trail is put together from its parts (`nil`, `single`, `trans`), which is how an operation's entries are
shown to be true. What an auditor reads off the entries of one key then follows once and for all: the first
entry starts where the key stood (`first`), each starts where the one before it ended (`linked`), the last
ends where the key stands (`last`), and a key in a status without a way out has not moved (`settled`).
-/
import Mathlib.Data.List.Chain
import Mathlib.Logic.Function.Basic

namespace Pirewall.Lib

/-- How an entry of a journal reads: whose move it is, from where and to where. -/
structure Reading (τ ι σ : Type) where
  key : τ → ι
  before : τ → Option σ
  after : τ → σ

section

variable {τ ι σ : Type} [DecidableEq ι] {r : Reading τ ι σ} {E : Option σ → σ → Prop}

/-- Replaying the journal leads from the first statuses to the last, along edges of `E`. -/
inductive Trail (r : Reading τ ι σ) (E : Option σ → σ → Prop) :
    (ι → Option σ) → List τ → (ι → Option σ) → Prop
  | nil (st : ι → Option σ) : Trail r E st [] st
  | cons {st st' : ι → Option σ} {t : τ} {journal : List τ} (start : r.before t = st (r.key t))
      (edge : E (r.before t) (r.after t))
      (rest : Trail r E (Function.update st (r.key t) (some (r.after t))) journal st') :
      Trail r E st (t :: journal) st'

/-- The entries of one key. -/
def Reading.of (r : Reading τ ι σ) (key : ι) (journal : List τ) : List τ :=
  journal.filter fun t => r.key t = key

namespace Trail

variable {st st' st'' : ι → Option σ} {journal journal' : List τ}

theorem single {t : τ} (start : r.before t = st (r.key t)) (edge : E (r.before t) (r.after t)) :
    Trail r E st [t] (Function.update st (r.key t) (some (r.after t))) :=
  .cons start edge (.nil _)

theorem trans (h : Trail r E st journal st') (h' : Trail r E st' journal' st'') :
    Trail r E st (journal ++ journal') st'' := by
  induction h with
  | nil st => exact h'
  | cons start edge _ ih => exact .cons start edge (ih h')

/-! ## What an auditor reads off -/

theorem edges (h : Trail r E st journal st') {t : τ} (ht : t ∈ journal) : E (r.before t) (r.after t) := by
  induction h with
  | nil st => exact absurd ht List.not_mem_nil
  | cons _ edge _ ih =>
    rcases List.mem_cons.mp ht with rfl | ht
    · exact edge
    · exact ih ht

/-- The first entry of a key starts where the key stood. -/
theorem first (h : Trail r E st journal st') {key : ι} {t : τ}
    (ht : t ∈ (r.of key journal).head?) : r.before t = st key := by
  induction h with
  | nil st => exact absurd ht (by simp [Reading.of])
  | @cons st st' t₀ journal start edge rest ih =>
    rw [Reading.of, List.filter_cons] at ht
    split at ht
    · rename_i hkey
      obtain rfl := Option.some.inj ht
      rw [start, of_decide_eq_true hkey]
    · rename_i hkey
      rw [ih ht, Function.update_of_ne]
      exact fun hsame => hkey (decide_eq_true hsame.symm)

/-- Each entry of a key starts where the one before it ended. -/
theorem linked (h : Trail r E st journal st') (key : ι) :
    (r.of key journal).IsChain fun t t' => r.before t' = some (r.after t) := by
  induction h with
  | nil st => exact .nil
  | @cons st st' t journal start edge rest ih =>
    rw [Reading.of, List.filter_cons]
    split
    · rename_i hkey
      refine List.isChain_cons.mpr ⟨?_, ih⟩
      intro t' ht'
      rw [rest.first ht', ← of_decide_eq_true hkey, Function.update_self]
    · exact ih

/-- The last entry of a key ends where the key stands; without entries it stands where it stood. -/
theorem last (h : Trail r E st journal st') (key : ι) :
    st' key = ((r.of key journal).getLast?.map r.after).or (st key) := by
  induction h with
  | nil st => rfl
  | @cons st st' t journal start edge rest ih =>
    rw [ih, Reading.of, Reading.of, List.filter_cons]
    split
    · rename_i hkey
      rw [← of_decide_eq_true hkey, Function.update_self, List.getLast?_cons]
      cases (journal.filter fun t' => decide (r.key t' = r.key t)).getLast? with
      | none => rfl
      | some t' => rfl
    · rename_i hkey
      rw [Function.update_of_ne]
      exact fun hsame => hkey (decide_eq_true hsame.symm)

/-- A key in a status without a way out has not moved. -/
theorem settled (h : Trail r E st journal st') {key : ι} {s : σ} (hs : st key = some s)
    (hfinal : ∀ after, ¬ E (some s) after) : st' key = some s := by
  induction h with
  | nil st => exact hs
  | @cons st st' t journal start edge rest ih =>
    apply ih
    rw [Function.update_of_ne, hs]
    rintro rfl
    rw [start, hs] at edge
    exact hfinal _ edge

end Trail

end

end Pirewall.Lib
