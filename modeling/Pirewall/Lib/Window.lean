/-
# Pirewall.Lib.Window -- logs that are read through windows

A log grows at its end and is only ever read through a window that ends now: what is in a window is decided item by
item, by a family of tests. A log that forgets from its front what no window of any later time holds is then as good
as the whole one. `SameWindows` says that two logs show the same from some time on; the three rules keep it when
both grow, when time passes, and when one of them forgets.

`StaleFirst` says when forgetting from the front forgets everything that is too old, and `Recent` what a bounded log
of ordered times still tells about the whole one: whether it has as many recent times as the bound.

`AtMost` bounds how many times lie within any interval of one width, and says when one more may be added.

A count of distinct things sees an item once, however often it is logged: the last section says so for the number of
distinct items and for a maximum.
-/
import Mathlib.Algebra.Order.Group.Unbundled.Basic
import Mathlib.Algebra.Order.Monoid.Defs
import Mathlib.Data.List.Dedup
import Mathlib.Data.List.MinMax
import Mathlib.Data.List.TakeWhile
import Mathlib.Order.Nat

namespace Pirewall.Lib

section

variable {α ι τ : Type} [Preorder τ] {I : ι → Prop} {inside : ι → τ → α → Bool} {last now : τ}
  {kept full : List α}

/-- Dropping from the front what a filter refuses anyway changes nothing it keeps. -/
theorem filter_dropWhile {p q : α → Bool} (h : ∀ x, p x = true → q x = false) (l : List α) :
    (l.dropWhile p).filter q = l.filter q := by
  induction l with
  | nil => rfl
  | cons x l ih =>
    rw [List.dropWhile_cons]
    split
    · rename_i hx
      rw [ih, List.filter_cons, h x hx]
      rfl
    · rfl

/-- From `last` on, every window in use shows the same of both logs. -/
def SameWindows (I : ι → Prop) (inside : ι → τ → α → Bool) (last : τ) (kept full : List α) : Prop :=
  ∀ i, I i → ∀ now, last ≤ now → kept.filter (inside i now) = full.filter (inside i now)

namespace SameWindows

theorem refl (log : List α) : SameWindows I inside last log log := fun _ _ _ _ => rfl

/-- Time passes. -/
theorem later (h : SameWindows I inside last kept full) (hle : last ≤ now) : SameWindows I inside now kept full :=
  fun i hi t ht => h i hi t (le_trans hle ht)

/-- Both logs grow. -/
theorem append (h : SameWindows I inside last kept full) (items : List α) :
    SameWindows I inside last (kept ++ items) (full ++ items) := by
  intro i hi now hnow
  rw [List.filter_append, List.filter_append, h i hi now hnow]

/-- One of them forgets from its front what is in no window from now on. -/
theorem dropWhile (h : SameWindows I inside last kept full) {stale : α → Bool}
    (hstale : ∀ i, I i → ∀ now, last ≤ now → ∀ x, stale x = true → inside i now x = false) :
    SameWindows I inside last (kept.dropWhile stale) full := by
  intro i hi now hnow
  rw [filter_dropWhile (hstale i hi now hnow), h i hi now hnow]

end SameWindows

end

/-! ## Forgetting from the front only -/

section

variable {τ : Type} [LinearOrder τ] {horizon horizon' : τ} {times more : List τ}

/-- No time before the horizon stands behind one that is not. -/
def StaleFirst (horizon : τ) (times : List τ) : Prop :=
  times.Pairwise fun earlier later => later < horizon → earlier < horizon

/-- Dropping what is before the horizon from the front leaves nothing before it exactly when all of it was there. -/
theorem forall_dropWhile_iff :
    (∀ t ∈ times.dropWhile (fun t => decide (t < horizon)), horizon ≤ t) ↔ StaleFirst horizon times := by
  induction times with
  | nil => simp [StaleFirst]
  | cons t times ih =>
    rw [StaleFirst, List.pairwise_cons, List.dropWhile_cons]
    by_cases ht : t < horizon
    · rw [if_pos (decide_eq_true ht), ih]
      exact ⟨fun h => ⟨fun _ _ _ => ht, h⟩, And.right⟩
    · rw [if_neg (by simpa using ht)]
      constructor
      · intro h
        refine ⟨fun later hlater hlt => absurd hlt (not_lt.mpr (h later (List.mem_cons_of_mem t hlater))), ?_⟩
        rw [List.pairwise_iff_forall_sublist]
        intro earlier later hsub hlt
        have hmem : later ∈ t :: times := List.mem_cons_of_mem t (hsub.subset (by simp))
        exact absurd hlt (not_lt.mpr (h later hmem))
      · rintro ⟨h, -⟩ later hlater
        rcases List.mem_cons.mp hlater with rfl | hlater
        · exact not_lt.mp ht
        · exact not_lt.mp fun hlt => ht (h later hlater hlt)

/-- What an earlier horizon dropped makes no difference to a later one. -/
theorem staleFirst_dropWhile_append (hle : horizon ≤ horizon') :
    StaleFirst horizon' (times.dropWhile (fun t => decide (t < horizon)) ++ more) ↔
      StaleFirst horizon' (times ++ more) := by
  induction times with
  | nil => exact Iff.rfl
  | cons t times ih =>
    rw [List.dropWhile_cons]
    by_cases ht : t < horizon
    · rw [if_pos (decide_eq_true ht), ih, StaleFirst, StaleFirst, List.cons_append, List.pairwise_cons]
      exact ⟨fun h => ⟨fun _ _ _ => lt_of_lt_of_le ht hle, h⟩, And.right⟩
    · rw [if_neg (by simpa using ht)]

theorem staleFirst_dropWhile (hle : horizon ≤ horizon') :
    StaleFirst horizon' (times.dropWhile (fun t => decide (t < horizon))) ↔ StaleFirst horizon' times := by
  have h := @staleFirst_dropWhile_append τ _ horizon horizon' times [] hle
  rwa [List.append_nil, List.append_nil] at h

end

/-! ## The latest of an ordered log -/

section

variable {τ : Type} [LinearOrder τ] {limit : Nat} {cutoff cutoff' : τ} {full kept : List τ}

/-- Of an ordered log, what a test that holds of all that is older drops from the front it drops altogether. -/
theorem dropWhile_eq_filter_not {stale : τ → Bool} (hdown : ∀ a b, a ≤ b → stale b = true → stale a = true)
    (h : full.Pairwise (· ≤ ·)) : full.dropWhile stale = full.filter fun t => !stale t := by
  induction full with
  | nil => rfl
  | cons t full ih =>
    rw [List.pairwise_cons] at h
    rw [List.dropWhile_cons, List.filter_cons]
    cases ht : stale t with
    | true =>
      rw [if_pos rfl, Bool.not_true, if_neg Bool.false_ne_true, ih h.2]
    | false =>
      rw [if_neg Bool.false_ne_true, Bool.not_false, if_pos rfl]
      congr 1
      refine (List.filter_eq_self.mpr fun later hlater => ?_).symm
      cases hlate : stale later with
      | true => exact absurd (hdown t later (h.1 later hlater) hlate) (by simp [ht])
      | false => rfl

theorem dropWhile_eq_filter_of_sorted (h : full.Pairwise (· ≤ ·)) :
    full.dropWhile (fun t => decide (t ≤ cutoff)) = full.filter fun t => cutoff < t := by
  rw [dropWhile_eq_filter_not (fun a b hab hb => decide_eq_true (hab.trans (of_decide_eq_true hb))) h]
  exact List.filter_congr fun t _ => by rw [← decide_not, decide_eq_decide, not_le]

theorem dropWhile_lt_eq_filter_of_sorted (h : full.Pairwise (· ≤ ·)) :
    full.dropWhile (fun t => decide (t < cutoff)) = full.filter fun t => cutoff ≤ t := by
  rw [dropWhile_eq_filter_not (fun a b hab hb => decide_eq_true (hab.trans_lt (of_decide_eq_true hb))) h]
  exact List.filter_congr fun t _ => by rw [← decide_not, decide_eq_decide, not_lt]

/-- What is kept of a log that forgets from its front: nothing that could matter is gone, since all that is gone is
too old or as many as matter are kept. -/
structure Recent (limit : Nat) (cutoff : τ) (full kept : List τ) : Prop where
  split : ∃ gone, full = gone ++ kept ∧ ((∀ t ∈ gone, t ≤ cutoff) ∨ kept.length = limit)
  length_le : kept.length ≤ limit

namespace Recent

/-- Of a log that is too old nothing need be kept. -/
theorem of_old (h : ∀ t ∈ full, t ≤ cutoff) : Recent limit cutoff full [] :=
  ⟨⟨full, by rw [List.append_nil], .inl h⟩, Nat.zero_le _⟩

theorem sorted (h : Recent limit cutoff full kept) (hsorted : full.Pairwise (· ≤ ·)) : kept.Pairwise (· ≤ ·) := by
  obtain ⟨⟨gone, rfl, -⟩, -⟩ := h
  exact (List.pairwise_append.mp hsorted).2.1

/-- Time passes. -/
theorem later (h : Recent limit cutoff full kept) (hle : cutoff ≤ cutoff') : Recent limit cutoff' full kept := by
  obtain ⟨⟨gone, hsplit, hgone⟩, hlength⟩ := h
  exact ⟨⟨gone, hsplit, hgone.imp_left fun hold t ht => le_trans (hold t ht) hle⟩, hlength⟩

/-- What is too old is forgotten. What went before it need not be as old, but not much newer. -/
theorem prune_lagging (h : Recent limit cutoff' full kept) (hle : cutoff ≤ cutoff')
    (hlag : full.Pairwise fun earlier later => later ≤ cutoff → earlier ≤ cutoff') :
    Recent limit cutoff' full (kept.dropWhile fun t => decide (t ≤ cutoff)) := by
  obtain ⟨⟨gone, rfl, hgone⟩, hlength⟩ := h
  obtain ⟨pruned, hpruned⟩ := List.dropWhile_suffix (l := kept) fun t => decide (t ≤ cutoff)
  have hold : ∀ t ∈ pruned, t ≤ cutoff := by
    intro t ht
    have htake : pruned = kept.takeWhile fun t => decide (t ≤ cutoff) := by
      have hboth := List.takeWhile_append_dropWhile (p := fun t => decide (t ≤ cutoff)) (l := kept)
      exact List.append_cancel_right (hpruned.trans hboth.symm)
    rw [htake] at ht
    simpa using List.mem_takeWhile_imp ht
  refine ⟨⟨gone ++ pruned, by rw [List.append_assoc, hpruned], ?_⟩, ?_⟩
  · cases pruned with
    | nil =>
      rw [List.nil_append] at hpruned
      rwa [List.append_nil, hpruned]
    | cons first pruned =>
      refine .inl fun t ht => ?_
      rcases List.mem_append.mp ht with hfront | hback
      · have hmem : first ∈ kept := hpruned ▸ List.mem_append_left _ List.mem_cons_self
        exact (List.pairwise_append.mp hlag).2.2 t hfront first hmem (hold first List.mem_cons_self)
      · exact le_trans (hold t hback) hle
  · exact (List.dropWhile_suffix _).length_le.trans hlength

/-- Of an ordered log, what is too old is forgotten. -/
theorem prune (h : Recent limit cutoff full kept) (hsorted : full.Pairwise (· ≤ ·)) :
    Recent limit cutoff full (kept.dropWhile fun t => decide (t ≤ cutoff)) :=
  h.prune_lagging le_rfl (hsorted.imp fun hle hold => le_trans hle hold)

/-- A new time goes to the end, and what is beyond the limit goes from the front. -/
theorem append (h : Recent limit cutoff full kept) (t : τ) :
    Recent limit cutoff (full ++ [t]) ((kept ++ [t]).drop ((kept ++ [t]).length - limit)) := by
  obtain ⟨⟨gone, rfl, hgone⟩, hlength⟩ := h
  refine ⟨⟨gone ++ (kept ++ [t]).take ((kept ++ [t]).length - limit), ?_, ?_⟩, ?_⟩
  · rw [List.append_assoc, List.append_assoc, List.take_append_drop]
  · by_cases hroom : kept.length < limit
    · have hzero : (kept ++ [t]).length - limit = 0 := by
        rw [List.length_append, List.length_singleton]
        omega
      rw [hzero, List.take_zero, List.append_nil, List.drop_zero]
      refine hgone.imp_right fun hfull => ?_
      omega
    · right
      rw [List.length_drop, List.length_append, List.length_singleton]
      omega
  · rw [List.length_drop, List.length_append, List.length_singleton]
    omega

/-- Whether as many as some number up to the limit are recent can be told from what is kept. -/
theorem le_filter_iff (h : Recent limit cutoff full kept) (hsorted : full.Pairwise (· ≤ ·)) {n : Nat}
    (hn : n ≤ limit) :
    n ≤ (kept.filter fun t => cutoff < t).length ↔ n ≤ (full.filter fun t => cutoff < t).length := by
  obtain ⟨⟨gone, rfl, hgone⟩, hlength⟩ := h
  have hgoneSorted := (List.pairwise_append.mp hsorted).2.2
  have hall : (∀ t ∈ gone, t ≤ cutoff) → (gone.filter fun t => cutoff < t) = [] := fun hold =>
    List.filter_eq_nil_iff.mpr fun t ht => by simpa using hold t ht
  rw [List.filter_append, List.length_append]
  rcases hgone with hold | hfull
  · rw [hall hold, List.length_nil, Nat.zero_add]
  · by_cases hlive : ∀ t ∈ kept, cutoff < t
    · rw [List.filter_eq_self.mpr fun t ht => decide_eq_true (hlive t ht)]
      omega
    · obtain ⟨t, ht, htold⟩ : ∃ t ∈ kept, t ≤ cutoff := by simpa using hlive
      rw [hall fun other hother => le_trans (hgoneSorted other hother t ht) htold, List.length_nil, Nat.zero_add]

/-- Whether as many as the limit are recent. -/
theorem limit_le_iff (h : Recent limit cutoff full kept) (hsorted : full.Pairwise (· ≤ ·)) :
    limit ≤ (kept.dropWhile fun t => decide (t ≤ cutoff)).length ↔
      limit ≤ (full.filter fun t => cutoff < t).length := by
  rw [dropWhile_eq_filter_of_sorted (h.sorted hsorted)]
  exact h.le_filter_iff hsorted (Nat.le_refl limit)

/-- What is kept can be forgotten once the newest of it is too old. -/
theorem forget (h : Recent limit cutoff full kept) (hsorted : full.Pairwise (· ≤ ·)) {newest : τ}
    (hnewest : kept.getLast? = some newest) (hold : newest ≤ cutoff) : Recent limit cutoff full [] := by
  have hnil : kept.dropWhile (fun t => decide (t ≤ cutoff)) = [] := by
    rw [List.dropWhile_eq_nil_iff]
    intro t ht
    obtain ⟨older, rfl⟩ := List.getLast?_eq_some_iff.mp hnewest
    refine decide_eq_true (le_trans ?_ hold)
    rcases List.mem_append.mp ht with holder | hlast
    · exact (List.pairwise_append.mp (h.sorted hsorted)).2.2 t holder newest (by simp)
    · exact le_of_eq (List.mem_singleton.mp hlast)
  exact hnil ▸ h.prune hsorted

/-- The limit is reached until the oldest of as many as the limit is too old. -/
theorem limit_le_filter_iff {oldest : τ} {newer : List τ} (h : Recent limit cutoff full (oldest :: newer))
    (hsorted : full.Pairwise (· ≤ ·)) (hlength : (oldest :: newer).length = limit) (cutoff' : τ) :
    limit ≤ (full.filter fun t => cutoff' < t).length ↔ cutoff' < oldest := by
  obtain ⟨⟨gone, rfl, -⟩, -⟩ := h
  obtain ⟨-, hkept, hbefore⟩ := List.pairwise_append.mp hsorted
  rw [List.pairwise_cons] at hkept
  constructor
  · intro hle
    by_contra hold
    have hgone : (gone.filter fun t => cutoff' < t) = [] := List.filter_eq_nil_iff.mpr fun t ht => by
      simpa using le_trans (hbefore t ht oldest List.mem_cons_self) (not_lt.mp hold)
    have hnewer := List.length_filter_le (fun t => decide (cutoff' < t)) newer
    rw [List.filter_append, hgone, List.nil_append, List.filter_cons_of_neg (by simpa using hold)] at hle
    rw [List.length_cons] at hlength
    omega
  · intro hlt
    have hall : ((oldest :: newer).filter fun t => cutoff' < t) = oldest :: newer := by
      refine List.filter_eq_self.mpr fun t ht => decide_eq_true ?_
      rcases List.mem_cons.mp ht with rfl | ht
      · exact hlt
      · exact lt_of_lt_of_le hlt (hkept.1 t ht)
    rw [List.filter_append, hall, List.length_append]
    omega

end Recent

end

/-! ## At most so many at a time -/

section

variable {τ : Type} [AddCommGroup τ] [LinearOrder τ] {limit : Nat} {width now : τ} {times : List τ}

/-- No closed interval of this width holds more than `limit` of the times. -/
def AtMost (limit : Nat) (width : τ) (times : List τ) : Prop :=
  ∀ start, times.countP (fun t => decide (start ≤ t ∧ t ≤ start + width)) ≤ limit

theorem AtMost.nil (limit : Nat) (width : τ) : AtMost limit width [] := fun _ => Nat.zero_le _

/-- One time more, when the interval that ends with it has room: an interval that holds it reaches back no further. -/
theorem AtMost.append [IsOrderedAddMonoid τ] (h : AtMost limit width times)
    (hroom : (times.filter fun t => decide (now - width ≤ t)).length < limit) :
    AtMost limit width (times ++ [now]) := by
  intro start
  rw [List.countP_append, List.countP_singleton]
  split
  · rename_i hnow
    have hend : now ≤ start + width := (of_decide_eq_true hnow).2
    have hle : times.countP (fun t => decide (start ≤ t ∧ t ≤ start + width)) ≤
        times.countP fun t => decide (now - width ≤ t) := by
      refine List.countP_mono_left fun t _ ht => decide_eq_true ?_
      exact (sub_le_iff_le_add.mpr hend).trans (of_decide_eq_true ht).1
    rw [← List.countP_eq_length_filter] at hroom
    omega
  · exact h start

end

/-! ## What sees an item once -/

section

variable {α : Type}

theorem length_dedup_congr [DecidableEq α] {l l' : List α} (h : ∀ x, x ∈ l ↔ x ∈ l') :
    l.dedup.length = l'.dedup.length := by
  refine List.Perm.length_eq ((List.perm_ext_iff_of_nodup l.nodup_dedup l'.nodup_dedup).mpr fun x => ?_)
  rw [List.mem_dedup, List.mem_dedup]
  exact h x

theorem le_foldr_max_iff {n : Nat} {l : List Nat} : n ≤ l.foldr max 0 ↔ n = 0 ∨ ∃ m ∈ l, n ≤ m := by
  induction l with
  | nil => simp
  | cons m l ih =>
    rw [List.foldr_cons, le_max_iff, ih]
    simp only [List.mem_cons, exists_eq_or_imp]
    tauto

theorem foldr_max_congr {l l' : List Nat} (h : ∀ n, n ∈ l ↔ n ∈ l') : l.foldr max 0 = l'.foldr max 0 := by
  have hle : ∀ {l l' : List Nat}, (∀ n ∈ l, n ∈ l') → l.foldr max 0 ≤ l'.foldr max 0 := by
    intro l l' hsub
    refine List.max_le_of_forall_le l _ fun n hn => ?_
    exact List.le_max_of_le (hsub n hn) (le_refl n)
  exact le_antisymm (hle fun n hn => (h n).mp hn) (hle fun n hn => (h n).mpr hn)

end

end Pirewall.Lib
