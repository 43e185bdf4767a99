/-
# Pirewall.Lib.FairShare -- a bounded log that evicts from its largest holder

Entries carry a key and arrive in the order of their sequence numbers. At most `max` of them are held: when one more
finds no room, the oldest entry of a key that holds the most leaves, and of several such keys the one whose oldest
entry is oldest gives it up (`IsVictim`). `Follows` says what is held of a log; `Appended.keeps_of_share` and
`Appended.keeps_smaller` say who loses nothing. Nothing here names the program.
-/
import Mathlib.Algebra.BigOperators.Group.Finset.Basic
import Mathlib.Algebra.Order.BigOperators.Group.Finset
import Mathlib.Data.List.DropRight

namespace Pirewall.Lib.FairShare

/-- An item, the number it was recorded under and the key it counts for. -/
structure Entry (κ τ : Type) where
  sequence : Nat
  key : κ
  item : τ
  deriving DecidableEq

variable {κ τ : Type}

/-! ## Entries in order -/

/-- Every entry is later than those before it. -/
def Ordered (held : List (Entry κ τ)) : Prop := held.Pairwise fun a b => a.sequence < b.sequence

/-- An entry leaves. -/
def remove (held : List (Entry κ τ)) (e : Entry κ τ) : List (Entry κ τ) :=
  held.filter fun a => a.sequence ≠ e.sequence

theorem mem_remove {held : List (Entry κ τ)} {a e : Entry κ τ} :
    a ∈ remove held e ↔ a ∈ held ∧ a.sequence ≠ e.sequence := by
  rw [remove, List.mem_filter, decide_eq_true_eq]

namespace Ordered

variable {held log : List (Entry κ τ)}

theorem nodup_sequences (h : Ordered held) : (held.map Entry.sequence).Nodup :=
  List.pairwise_map.mpr (h.imp fun hlt => hlt.ne)

theorem eq_of_sequence (h : Ordered held) {a b : Entry κ τ} (ha : a ∈ held) (hb : b ∈ held)
    (hab : a.sequence = b.sequence) : a = b :=
  List.inj_on_of_nodup_map h.nodup_sequences ha hb hab

theorem snoc (h : Ordered held) {e : Entry κ τ} (hlast : ∀ a ∈ held, a.sequence < e.sequence) :
    Ordered (held ++ [e]) := by
  refine List.pairwise_append.mpr ⟨h, List.pairwise_singleton _ _, ?_⟩
  intro a ha b hb
  rw [List.mem_singleton.mp hb]
  exact hlast a ha

/-- What is held of a log is told by the numbers held. -/
theorem filter_mem (h : Ordered log) (hsub : held.Sublist log) :
    log.filter (fun e => e.sequence ∈ held.map Entry.sequence) = held := by
  induction hsub with
  | slnil => rfl
  | @cons held log e hsub ih =>
    obtain ⟨hfirst, hrest⟩ := List.pairwise_cons.mp h
    have hout : e.sequence ∉ held.map Entry.sequence := by
      intro hmem
      obtain ⟨a, ha, heq⟩ := List.mem_map.mp hmem
      have := hfirst a (hsub.subset ha)
      omega
    rw [List.filter_cons_of_neg (by simpa using hout), ih hrest]
  | @cons_cons held log e hsub ih =>
    obtain ⟨hfirst, hrest⟩ := List.pairwise_cons.mp h
    rw [List.filter_cons_of_pos (by simp)]
    refine congrArg (e :: ·) (Eq.trans (List.filter_congr ?_) (ih hrest))
    intro a ha
    have := hfirst a ha
    simp only [List.map_cons, List.mem_cons, decide_eq_decide]
    exact or_iff_right (by omega)

end Ordered

/-! ## Shares -/

variable [DecidableEq κ]

/-- The entries of a key. -/
def of (held : List (Entry κ τ)) (k : κ) : List (Entry κ τ) := held.filter fun a => a.key = k

/-- How many entries a key holds. -/
def share (held : List (Entry κ τ)) (k : κ) : Nat := (of held k).length

theorem mem_of {held : List (Entry κ τ)} {a : Entry κ τ} {k : κ} : a ∈ of held k ↔ a ∈ held ∧ a.key = k := by
  rw [of, List.mem_filter, decide_eq_true_eq]

theorem of_append (first rest : List (Entry κ τ)) (k : κ) : of (first ++ rest) k = of first k ++ of rest k :=
  List.filter_append _ _

theorem of_singleton_of_ne {e : Entry κ τ} {k : κ} (h : e.key ≠ k) : of [e] k = [] :=
  List.filter_cons_of_neg (by simpa using h)

theorem share_eq_count (held : List (Entry κ τ)) (k : κ) : share held k = (held.map Entry.key).count k := by
  rw [share, of, ← List.countP_eq_length_filter, List.count, List.countP_map]
  refine List.countP_congr fun a _ => ?_
  simp

/-- The shares of all keys make up what is held. -/
theorem sum_share (held : List (Entry κ τ)) :
    ∑ k ∈ (held.map Entry.key).toFinset, share held k = held.length := by
  simp only [share_eq_count]
  rw [List.sum_toFinset_count_eq_length, List.length_map]

/-! ## Eviction -/

/-- The oldest entry of a key that holds the most; of several such keys, of the one whose oldest entry is oldest. -/
structure IsVictim (held : List (Entry κ τ)) (e : Entry κ τ) : Prop where
  mem : e ∈ held
  largest : ∀ a ∈ held, share held a.key ≤ share held e.key
  oldest : ∀ a ∈ held, share held a.key = share held e.key → e.sequence ≤ a.sequence

/-- One entry more is held, and one is evicted for it if there is no room. -/
inductive Appended (max : Nat) (held : List (Entry κ τ)) (new : Entry κ τ) : List (Entry κ τ) → Prop
  | room : held.length < max → Appended max held new (held ++ [new])
  | evict {e : Entry κ τ} : max ≤ held.length → IsVictim held e → Appended max held new (remove held e ++ [new])

variable {held held' log : List (Entry κ τ)} {new e : Entry κ τ} {max : Nat}

/-- Removing an entry takes nothing from another key. -/
theorem of_remove_of_ne (h : Ordered held) (he : e ∈ held) {k : κ} (hk : e.key ≠ k) :
    of (remove held e) k = of held k := by
  rw [of, remove, List.filter_filter]
  refine List.filter_congr ?_
  intro a ha
  by_cases hak : a.key = k
  · have hne : a.sequence ≠ e.sequence := fun hseq => hk (h.eq_of_sequence ha he hseq ▸ hak)
    simp [hak, hne]
  · simp [hak]

/-- The victim is the first entry of its key. -/
theorem IsVictim.of_eq_cons (hv : IsVictim held e) (h : Ordered held) :
    of held e.key = e :: of (remove held e) e.key := by
  have hof : Ordered (of held e.key) := List.Pairwise.filter _ h
  obtain ⟨first, rest, hsplit⟩ : ∃ first rest, of held e.key = first :: rest :=
    List.exists_cons_of_ne_nil (List.ne_nil_of_mem (mem_of.mpr ⟨hv.mem, rfl⟩))
  have hfirst : first ∈ held ∧ first.key = e.key := mem_of.mp (hsplit ▸ List.mem_cons_self)
  rw [hsplit] at hof
  obtain ⟨hlater, hrest⟩ := List.pairwise_cons.mp hof
  -- the victim is no later than the first entry, so it is that entry
  have hle := hv.oldest first hfirst.1 (by rw [hfirst.2])
  have heq : first = e := by
    rcases List.mem_cons.mp (hsplit ▸ mem_of.mpr ⟨hv.mem, rfl⟩ : e ∈ first :: rest) with rfl | hmem
    · rfl
    · have := hlater e hmem
      omega
  subst heq
  have hremove : of (remove held first) first.key =
      (of held first.key).filter fun a => a.sequence ≠ first.sequence := by
    rw [of, remove, of, List.filter_filter, List.filter_filter]
    exact List.filter_congr fun a _ => Bool.and_comm _ _
  rw [hremove, hsplit, List.filter_cons_of_neg (by simp)]
  refine congrArg (first :: ·) (List.filter_eq_self.mpr ?_).symm
  intro a ha
  have := hlater a ha
  exact decide_eq_true (by omega)

theorem IsVictim.length_remove (hv : IsVictim held e) (h : Ordered held) :
    (remove held e).length + 1 = held.length := by
  have hperm : held.Perm (e :: remove held e) := by
    obtain ⟨l, r, rfl⟩ := List.append_of_mem hv.mem
    have hremove : remove (l ++ e :: r) e = l ++ r := by
      have hne : ∀ a ∈ l ++ r, decide (a.sequence ≠ e.sequence) = true := by
        intro a ha
        have hnodup := h.nodup_sequences
        rw [List.map_append, List.map_cons, List.nodup_middle, List.nodup_cons, ← List.map_append] at hnodup
        exact decide_eq_true fun heq => hnodup.1 (List.mem_map.mpr ⟨a, ha, heq⟩)
      rw [remove, List.filter_append, List.filter_cons_of_neg (by simp), ← List.filter_append,
        List.filter_eq_self.mpr hne]
    rw [hremove]
    exact List.perm_middle
  exact hperm.length_eq.symm

/-! ## Logs -/

/-- What is held of a log: as much as there is room for, and of each key its last entries. -/
structure Follows (max : Nat) (log held : List (Entry κ τ)) : Prop where
  ordered : Ordered log
  sublist : held.Sublist log
  suffix : ∀ k, of held k <:+ of log k
  count : held.length = min log.length max

namespace Follows

theorem nil (max : Nat) : Follows max ([] : List (Entry κ τ)) [] :=
  ⟨.nil, .slnil, fun _ => List.suffix_rfl, (Nat.zero_min _).symm⟩

theorem ordered_held (h : Follows max log held) : Ordered held := List.Pairwise.sublist h.sublist h.ordered

/-- One append keeps it. -/
theorem append (h : Follows max log held) (hlast : ∀ a ∈ log, a.sequence < new.sequence)
    (happ : Appended max held new held') : Follows max (log ++ [new]) held' := by
  have hcount := h.count
  cases happ with
  | room hroom =>
    refine ⟨h.ordered.snoc hlast, h.sublist.append (.refl _), ?_, ?_⟩
    · intro k
      rw [of_append, of_append]
      exact List.suffix_append_self_iff.mpr (h.suffix k)
    · rw [List.length_append, List.length_append, List.length_singleton]
      omega
  | @evict e hfull hv =>
    refine ⟨h.ordered.snoc hlast, (List.filter_sublist.trans h.sublist).append (.refl _), ?_, ?_⟩
    · intro k
      rw [of_append, of_append]
      refine List.suffix_append_self_iff.mpr ?_
      by_cases hk : e.key = k
      · subst hk
        have hsuffix := h.suffix e.key
        rw [hv.of_eq_cons h.ordered_held] at hsuffix
        exact (List.suffix_cons _ _).trans hsuffix
      · rw [of_remove_of_ne h.ordered_held hv.mem hk]
        exact h.suffix k
    · have hlength := hv.length_remove h.ordered_held
      rw [List.length_append, List.length_append, List.length_singleton]
      omega

/-- With one key, what is held is the end of the log. -/
theorem eq_rtake (h : Follows max log held) {k : κ} (hone : ∀ a ∈ log, a.key = k) : held = log.rtake max := by
  have hlog : of log k = log := List.filter_eq_self.mpr fun a ha => decide_eq_true (hone a ha)
  have hheld : of held k = held :=
    List.filter_eq_self.mpr fun a ha => decide_eq_true (hone a (h.sublist.subset ha))
  have hsuffix := h.suffix k
  rw [hlog, hheld] at hsuffix
  rw [List.suffix_iff_eq_drop.mp hsuffix, h.count]
  exact congrArg (log.drop ·) (by omega)

end Follows

/-! ## Who loses nothing -/

theorem Appended.keeps_of_ne (happ : Appended max held new held') (h : Ordered held) {k : κ}
    (hne : ∀ e, IsVictim held e → max ≤ held.length → e.key ≠ k) : of held' k = of held k ++ of [new] k := by
  cases happ with
  | room _ => exact of_append _ _ _
  | evict hfull hv => rw [of_append, of_remove_of_ne h hv.mem (hne _ hv hfull)]

/-- A key that holds less than an equal share loses nothing. -/
theorem Appended.keeps_of_share (happ : Appended max held new held') (h : Ordered held) {k : κ}
    (hless : share held k * (held.map Entry.key).toFinset.card < max) : of held' k = of held k ++ of [new] k := by
  refine happ.keeps_of_ne h ?_
  rintro e hv hfull rfl
  have hsum : held.length ≤ (held.map Entry.key).toFinset.card * share held e.key := by
    rw [← sum_share held]
    refine Finset.sum_le_card_nsmul _ _ _ ?_
    intro k hk
    obtain ⟨a, ha, rfl⟩ := List.mem_map.mp (List.mem_toFinset.mp hk)
    exact hv.largest a ha
  rw [Nat.mul_comm] at hsum
  omega

/-- A key that holds less than another one loses nothing. -/
theorem Appended.keeps_smaller (happ : Appended max held new held') (h : Ordered held) {j k : κ}
    (hless : share held j < share held k) : of held' j = of held j ++ of [new] j := by
  refine happ.keeps_of_ne h ?_
  rintro e hv _ rfl
  obtain ⟨a, ha⟩ := List.exists_mem_of_length_pos (show 0 < (of held k).length from Nat.zero_lt_of_lt hless)
  have hmem := mem_of.mp ha
  have hle := hv.largest a hmem.1
  rw [hmem.2] at hle
  omega

/-- Appending to a key leaves it no smaller. -/
theorem Appended.share_le (happ : Appended max held new held') (h : Ordered held) :
    share held new.key ≤ share held' new.key := by
  have hnew : (of [new] new.key).length = 1 := by rw [of, List.filter_cons_of_pos (by simp)]; rfl
  cases happ with
  | room _ =>
    rw [share, share, of_append, List.length_append]
    omega
  | @evict e hfull hv =>
    rw [share, share, of_append, List.length_append, hnew]
    by_cases hk : e.key = new.key
    · rw [← hk, hv.of_eq_cons h]
      exact Nat.le_refl _
    · rw [of_remove_of_ne h hv.mem hk]
      omega

end Pirewall.Lib.FairShare
