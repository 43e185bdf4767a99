/-
# Pirewall.Lib.Chain -- doubly linked chains

A doubly linked list kept in some store: every slot that is in use has a link to the slot before it and
one to the slot after it. `Seg links p chain n` says that the slots of `chain` are linked in that order,
the first back to `p` and the last on to `n`. A chain is cut in two by `seg_append`; the two surgeries of
a linked list, taking a slot out of the middle and putting one at the end, are `seg_unlink` and
`seg_linkLast`.

The store is only a function here, so any representation of it can use these lemmas.
-/
import Mathlib.Data.List.Basic
import Mathlib.Data.List.Nodup

namespace Pirewall.Lib

universe u

/-- The links of each slot in use: the slot before it and the slot after it. -/
abbrev Links (σ : Type u) := σ → Option (Option σ × Option σ)

variable {σ : Type u}

/-- The slots of the list are linked in its order, from `p` on to `n`. -/
def Seg (links : Links σ) (p : Option σ) : List σ → Option σ → Prop
  | [], _ => True
  | s :: rest, n => links s = some (p, rest.head?.or n) ∧ Seg links (some s) rest n

/-- Follow the links onwards from a slot; `none` if a link leads to a slot not in use, or if the walk
is longer than `fuel`. -/
def walk (links : Links σ) : Nat → Option σ → Option (List σ)
  | _, none => some []
  | 0, some _ => none
  | fuel + 1, some s => (links s).bind fun link => (walk links fuel link.2).map (s :: ·)

section Seg

variable {links links' : Links σ} {p n : Option σ} {l r : List σ}

theorem seg_append : Seg links p (l ++ r) n ↔
    Seg links p l (r.head?.or n) ∧ Seg links (l.getLast?.or p) r n := by
  induction l generalizing p with
  | nil => simp [Seg]
  | cons s l ih =>
    have hlast : (s :: l).getLast?.or p = l.getLast?.or (some s) := by
      cases l with
      | nil => rfl
      | cons t l => simp [List.getLast?_cons]
    rw [hlast, List.cons_append, Seg, Seg, ih, List.head?_append, Option.or_assoc, and_assoc]

theorem seg_congr (h : ∀ s ∈ l, links' s = links s) (hseg : Seg links p l n) : Seg links' p l n := by
  induction l generalizing p with
  | nil => trivial
  | cons s l ih =>
    obtain ⟨hs, hl⟩ := hseg
    exact ⟨(h s List.mem_cons_self).trans hs, ih (fun t ht => h t (List.mem_cons_of_mem s ht)) hl⟩

/-- Every slot of a chain is in use. -/
theorem seg_isSome (hseg : Seg links p l n) {s : σ} (hs : s ∈ l) : (links s).isSome = true := by
  induction l generalizing p with
  | nil => exact absurd hs List.not_mem_nil
  | cons t l ih =>
    rcases List.mem_cons.mp hs with rfl | hs
    · simp [hseg.1]
    · exact ih hseg.2 hs

/-- The links of a slot are its neighbours. -/
theorem seg_at {s : σ} (hseg : Seg links none (l ++ s :: r) none) :
    links s = some (l.getLast?, r.head?) := by
  obtain ⟨_, hs, _⟩ := seg_append.mp hseg
  simpa using hs

/-- The links of a chain do not lead out of it. -/
theorem seg_next_mem {s t : σ} (hseg : Seg links none l none) (hs : s ∈ l) (h : (links s).bind Prod.snd = some t) :
    t ∈ l := by
  obtain ⟨before, after, rfl⟩ := List.append_of_mem hs
  rw [seg_at hseg, Option.bind_some] at h
  exact List.mem_append_right before (List.mem_cons_of_mem s (List.mem_of_head? h))

theorem seg_prev_mem {s t : σ} (hseg : Seg links none l none) (hs : s ∈ l) (h : (links s).bind Prod.fst = some t) :
    t ∈ l := by
  obtain ⟨before, after, rfl⟩ := List.append_of_mem hs
  rw [seg_at hseg, Option.bind_some] at h
  exact List.mem_append_left _ (List.mem_of_getLast? h)

/-- One slot leads on to another exactly when the other leads back to it. -/
theorem seg_next_iff {s t : σ} (hseg : Seg links none l none) (hs : s ∈ l) (ht : t ∈ l) :
    (links s).bind Prod.snd = some t ↔ (links t).bind Prod.fst = some s := by
  constructor
  · intro hnext
    obtain ⟨before, after, rfl⟩ := List.append_of_mem hs
    rw [seg_at hseg, Option.bind_some] at hnext
    obtain ⟨rest, rfl⟩ := List.head?_eq_some_iff.mp hnext
    rw [List.append_cons] at hseg
    rw [seg_at hseg, Option.bind_some, List.getLast?_concat]
  · intro hprev
    obtain ⟨before, after, rfl⟩ := List.append_of_mem ht
    rw [seg_at hseg, Option.bind_some] at hprev
    obtain ⟨rest, rfl⟩ := List.getLast?_eq_some_iff.mp hprev
    rw [List.append_assoc, List.singleton_append] at hseg
    rw [seg_at hseg, Option.bind_some, List.head?_cons]

/-- The first slot, and no other, has none before it. -/
theorem seg_first_iff {s : σ} (hseg : Seg links none l none) (hs : s ∈ l) :
    (links s).bind Prod.fst = none ↔ l.head? = some s := by
  constructor
  · intro hprev
    obtain ⟨before, after, rfl⟩ := List.append_of_mem hs
    rw [seg_at hseg, Option.bind_some] at hprev
    rw [List.getLast?_eq_none_iff.mp hprev, List.nil_append, List.head?_cons]
  · intro hfirst
    obtain ⟨rest, rfl⟩ := List.head?_eq_some_iff.mp hfirst
    rw [seg_at (l := []) hseg, Option.bind_some, List.getLast?_nil]

/-- The last slot, and no other, has none after it. -/
theorem seg_last_iff {s : σ} (hseg : Seg links none l none) (hs : s ∈ l) :
    (links s).bind Prod.snd = none ↔ l.getLast? = some s := by
  constructor
  · intro hnext
    obtain ⟨before, after, rfl⟩ := List.append_of_mem hs
    rw [seg_at hseg, Option.bind_some] at hnext
    rw [List.head?_eq_none_iff.mp hnext, List.getLast?_concat]
  · intro hlast
    obtain ⟨rest, rfl⟩ := List.getLast?_eq_some_iff.mp hlast
    rw [seg_at hseg, Option.bind_some, List.head?_nil]

/-- A walk from the head of a chain visits it and stops at its end. -/
theorem walk_seg (hseg : Seg links p l none) {fuel : Nat} (h : l.length ≤ fuel) :
    walk links fuel l.head? = some l := by
  induction l generalizing p fuel with
  | nil => cases fuel <;> rfl
  | cons s l ih =>
    obtain ⟨fuel, rfl⟩ : ∃ k, fuel = k + 1 := ⟨fuel - 1, by
      rw [List.length_cons] at h
      omega⟩
    have hl : l.length ≤ fuel := by
      rw [List.length_cons] at h
      omega
    rw [List.head?_cons, walk, hseg.1, Option.bind_some, Option.or_none, ih hseg.2 hl]
    rfl

end Seg

section Surgery

variable [DecidableEq σ] {links : Links σ} {p n : Option σ} {l r : List σ}

/-- Redirect the onward link of slot `i`. -/
def setNext (links : Links σ) (i : σ) (x : Option σ) : Links σ := fun s =>
  if s = i then (links i).map fun link => (link.1, x) else links s

/-- Redirect the backward link of slot `i`. -/
def setPrev (links : Links σ) (i : σ) (x : Option σ) : Links σ := fun s =>
  if s = i then (links i).map fun link => (x, link.2) else links s

theorem setNext_of_ne {i s : σ} (h : s ≠ i) (x : Option σ) : setNext links i x s = links s := if_neg h

theorem setPrev_of_ne {i s : σ} (h : s ≠ i) (x : Option σ) : setPrev links i x s = links s := if_neg h

/-- Redirect the last slot of a segment, if it has one. -/
def setLast (links : Links σ) (last : Option σ) (x : Option σ) : Links σ :=
  match last with
  | none => links
  | some i => setNext links i x

/-- Redirect the first slot of a segment, if it has one. -/
def setFirst (links : Links σ) (first : Option σ) (x : Option σ) : Links σ :=
  match first with
  | none => links
  | some i => setPrev links i x

/-- The last slot of a segment now leads on to `x`. -/
theorem seg_setLast (hl : l.Nodup) (hseg : Seg links p l n) (x : Option σ) :
    Seg (setLast links l.getLast? x) p l x := by
  rcases List.eq_nil_or_concat l with rfl | ⟨l, a, rfl⟩
  · trivial
  · have ha : a ∉ l := by
      rw [List.concat_eq_append, List.nodup_append] at hl
      exact fun h => hl.2.2 a h a List.mem_cons_self rfl
    rw [List.concat_eq_append] at hseg ⊢
    obtain ⟨hinit, hlast, _⟩ := seg_append.mp hseg
    rw [List.getLast?_concat]
    refine seg_append.mpr ⟨seg_congr (fun s hs => setNext_of_ne (ne_of_mem_of_not_mem hs ha) x) hinit, ?_, trivial⟩
    simp [setLast, setNext, hlast]

/-- The first slot of a segment now leads back to `x`. -/
theorem seg_setFirst (hr : r.Nodup) (hseg : Seg links p r n) (x : Option σ) :
    Seg (setFirst links r.head? x) x r n := by
  cases r with
  | nil => trivial
  | cons b r =>
    obtain ⟨hb, hrest⟩ := hseg
    rw [List.nodup_cons] at hr
    refine ⟨?_, seg_congr (fun s hs => setPrev_of_ne (ne_of_mem_of_not_mem hs hr.1) x) hrest⟩
    simp [setFirst, setPrev, hb]

theorem setLast_of_notMem {s : σ} (h : s ∉ l) (x : Option σ) : setLast links l.getLast? x s = links s := by
  cases hlast : l.getLast? with
  | none => rfl
  | some a => exact setNext_of_ne (ne_of_mem_of_not_mem (List.mem_of_getLast? hlast) h).symm x

theorem setFirst_of_notMem {s : σ} (h : s ∉ r) (x : Option σ) : setFirst links r.head? x s = links s := by
  cases hhead : r.head? with
  | none => rfl
  | some b => exact setPrev_of_ne (ne_of_mem_of_not_mem (List.mem_of_head? hhead) h).symm x

/-- Taking a slot out: its neighbours are linked to each other. -/
theorem seg_unlink {s : σ} (hnodup : (l ++ s :: r).Nodup) (hseg : Seg links none (l ++ s :: r) none) :
    Seg (setFirst (setLast links l.getLast? r.head?) r.head? l.getLast?) none (l ++ r) none := by
  obtain ⟨hl, hsr, hdisj⟩ := List.nodup_append.mp hnodup
  have hr := (List.nodup_cons.mp hsr).2
  have hlr : ∀ a ∈ l, a ∉ r := fun a ha har => hdisj a ha a (List.mem_cons_of_mem s har) rfl
  obtain ⟨hfront, _, hback⟩ := seg_append.mp hseg
  refine seg_append.mpr ⟨?_, ?_⟩
  · rw [Option.or_none]
    exact seg_congr (fun a ha => setFirst_of_notMem (hlr a ha) _) (seg_setLast hl hfront r.head?)
  · rw [Option.or_none]
    exact seg_setFirst hr (seg_congr (fun b hb => setLast_of_notMem (fun hl => hlr b hl hb) _) hback)
      l.getLast?

/-- Putting a slot at the end: the old last slot leads on to it. -/
theorem seg_linkLast {s : σ} (hl : l.Nodup) (hs : s ∉ l) (hseg : Seg links none l none)
    {links' : Links σ} (hnew : links' s = some (l.getLast?, none)) (hsame : ∀ a ∈ l, links' a = links a) :
    Seg (setLast links' l.getLast? (some s)) none (l ++ [s]) none := by
  refine seg_append.mpr ⟨?_, ?_, trivial⟩
  · exact seg_setLast hl (seg_congr hsame hseg) (some s)
  · rw [setLast_of_notMem hs, hnew, Option.or_none]
    rfl

end Surgery

end Pirewall.Lib
