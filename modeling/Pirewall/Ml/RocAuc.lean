/-
# Pirewall.Ml.RocAuc -- the area under the ROC curve

`roc_auc` sorts the scores, gives the rows of a tie the average of their ranks, and subtracts from the rank sum of the
positives what they would have among themselves. A run of equal scores is found by an inner loop; `averageRanks` is
the outer one, with a bound on its turns.

Each row ends with the credit of its score against all scores, and half a credit more (`averageRanks_eq`). What is
left of the rank sum is the credit of the positives against the negatives: the fraction of pairs in which the positive
scores higher, ties counting a half.

Ranks and credits are rationals here, with nothing rounded. Whatever order the sort leaves ties in, the ranks of a tie
add up to the same and are shared evenly, so the area does not depend on it.
-/
import Mathlib.Data.Bool.Count
import Mathlib.Data.List.TakeWhile
import Pirewall.Lib.MidRank
import Pirewall.Ml.AveragePrecision

namespace Pirewall.Ml

open Lib

/-! ## The code -/

section Code

variable {α : Type} [LinearOrder α]

/-- `values[order]` and `order` of `np.argsort(values, kind="mergesort")`, row by row. -/
def argsort (values : List α) : List (α × Nat) := values.zipIdx.insertionSort fun a b => a.1 ≤ b.1

/-- The inner loop: where the run of `value` ends. The list is what stands from `stop` on. -/
def runEnd (value : α) : List α → Nat → Nat
  | [], stop => stop
  | x :: rest, stop => if x = value then runEnd value rest (stop + 1) else stop

/-- `ranks[positions] = rank`. -/
def assign (ranks : Nat → ℚ) (positions : List Nat) (rank : ℚ) (i : Nat) : ℚ :=
  if i ∈ positions then rank else ranks i

/-- The outer loop, for so many turns. -/
def averageRanks (sortedValues : List α) (order : List Nat) : Nat → Nat → (Nat → ℚ) → Nat → ℚ
  | 0, _, ranks => ranks
  | turns + 1, index, ranks =>
    match sortedValues.drop index with
    | [] => ranks
    | value :: rest =>
      let stop := runEnd value rest (index + 1)
      averageRanks sortedValues order turns stop
        (assign ranks ((order.take stop).drop index) (((index + 1 + stop : ℕ) : ℚ) / 2))

/-- `roc_auc`, in exact arithmetic. `unset` is what `np.empty` leaves in the array. -/
def rocAuc (unset : Nat → ℚ) (scores : List α) (labels : List Bool) : Except ValueError ℚ :=
  if scores.length ≠ labels.length then .error ⟨"scores and labels must have the same length"⟩
  else
    let positiveCount := labels.count true
    let negativeCount := scores.length - positiveCount
    if positiveCount = 0 ∨ negativeCount = 0 then .ok (1 / 2)
    else
      let sorted := argsort scores
      let ranks := averageRanks (sorted.map Prod.fst) (sorted.map Prod.snd) scores.length 0 unset
      let positiveRankSum := ((labels.zipIdx.filter fun row => row.1).map fun row => ranks row.2).sum
      .ok ((positiveRankSum - positiveCount * (positiveCount + 1) / 2) / (positiveCount * negativeCount))

end Code

example : rocAuc (fun _ => 7) [(3 : ℚ), 1, 3, 2] [true, false, false, true] = .ok (5 / 8) := by decide +kernel

/-! ## Pairs -/

section Pairs

variable {α : Type} [LinearOrder α]

/-- The scores of the rows with a label. -/
def scoresOf (label : Bool) (rows : List (α × Bool)) : List α := (rows.filter fun row => row.2 = label).map Prod.fst

/-- The fraction of the pairs of a positive and a negative row in which the positive scores higher, a tie counting one
half. -/
def mannWhitney (rows : List (α × Bool)) : ℚ :=
  ((scoresOf true rows).map fun p => ((scoresOf false rows).map fun q =>
      if q < p then (1 : ℚ) else if p = q then 1 / 2 else 0).sum).sum /
    ((scoresOf true rows).length * (scoresOf false rows).length)

omit [LinearOrder α] in
theorem scoresOf_perm {rows rows' : List (α × Bool)} (h : rows.Perm rows') (label : Bool) :
    (scoresOf label rows).Perm (scoresOf label rows') := (h.filter _).map _

omit [LinearOrder α] in
/-- A row is positive or negative. -/
theorem scores_perm (rows : List (α × Bool)) :
    (rows.map Prod.fst).Perm (scoresOf true rows ++ scoresOf false rows) := by
  have hfalse : (rows.filter fun row => row.2 = false) = rows.filter fun row => !decide (row.2 = true) :=
    List.filter_congr fun row _ => by cases row.2 <;> rfl
  rw [scoresOf, scoresOf, ← List.map_append, hfalse]
  exact (List.filter_append_perm _ rows).symm.map Prod.fst

theorem mannWhitney_perm {rows rows' : List (α × Bool)} (h : rows.Perm rows') :
    mannWhitney rows = mannWhitney rows' := by
  have htrue := scoresOf_perm h true
  have hfalse := scoresOf_perm h false
  have hcredits : ∀ p, credits (scoresOf false rows) p = credits (scoresOf false rows') p := credits_perm hfalse
  show ((scoresOf true rows).map (credits (scoresOf false rows))).sum / _ =
    ((scoresOf true rows').map (credits (scoresOf false rows'))).sum / _
  rw [funext hcredits, (htrue.map _).sum_eq, htrue.length_eq, hfalse.length_eq]

end Pairs

/-! ## Runs of ties -/

section Runs

variable {α : Type} [LinearOrder α]

theorem runEnd_eq (value : α) (rest : List α) (stop : Nat) :
    runEnd value rest stop = stop + (rest.takeWhile (· = value)).length := by
  induction rest generalizing stop with
  | nil => rfl
  | cons x rest ih =>
    rw [runEnd]
    split
    · rename_i hx
      rw [ih, List.takeWhile_cons_of_pos (by simpa using hx), List.length_cons]
      omega
    · rename_i hx
      rw [List.takeWhile_cons_of_neg (by simpa using hx)]
      rfl

/-- The rows done are below the others, and have the rank of their score. -/
structure Ranked (all : List α) (done rest : List (α × Nat)) (ranks : Nat → ℚ) : Prop where
  below : ∀ e ∈ done, ∀ e' ∈ rest, e.1 < e'.1
  ranked : ∀ e ∈ done, ranks e.2 = credits all e.1 + 1 / 2

/-- In a sorted list, what follows the run of the first value is greater. -/
theorem lt_of_mem_dropWhile {first : α × Nat} {rest : List (α × Nat)}
    (h : (first :: rest).Pairwise fun a b => a.1 ≤ b.1) {e : α × Nat}
    (he : e ∈ rest.dropWhile fun e => e.1 = first.1) : first.1 < e.1 := by
  induction rest with
  | nil => cases he
  | cons next rest ih =>
    obtain ⟨hfirst, hrest⟩ := List.pairwise_cons.mp h
    by_cases hnext : next.1 = first.1
    · rw [List.dropWhile_cons_of_pos (by simpa using hnext)] at he
      exact ih (h.sublist (by simp)) he
    · rw [List.dropWhile_cons_of_neg (by simpa using hnext)] at he
      have hlt : first.1 < next.1 := lt_of_le_of_ne (hfirst next List.mem_cons_self) (Ne.symm hnext)
      rcases List.mem_cons.mp he with rfl | hmem
      · exact hlt
      · exact hlt.trans_le ((List.pairwise_cons.mp hrest).1 e hmem)

/-- The credit of a run's value: one for each row done, a half for each of the run. -/
theorem credits_of_run {done run rest : List (α × Nat)} {value : α} (hdone : ∀ e ∈ done, e.1 < value)
    (hrun : ∀ e ∈ run, e.1 = value) (hrest : ∀ e ∈ rest, value < e.1) :
    credits ((done ++ (run ++ rest)).map Prod.fst) value = done.length + (run.length : ℚ) / 2 := by
  have hmem : ∀ {l : List (α × Nat)} {P : α → Prop}, (∀ e ∈ l, P e.1) → ∀ w ∈ l.map Prod.fst, P w := by
    intro l P h w hw
    obtain ⟨e, he, rfl⟩ := List.mem_map.mp hw
    exact h e he
  rw [List.map_append, List.map_append, credits_append, credits_append, credits_of_lt (hmem hdone),
    credits_of_eq (hmem hrun), credits_of_gt (hmem hrest), List.length_map, List.length_map, add_zero]

/-- One turn ranks one run. -/
theorem Ranked.turn {done rest : List (α × Nat)} {first : α × Nat} {ranks : Nat → ℚ}
    (hsorted : (done ++ first :: rest).Pairwise fun a b => a.1 ≤ b.1)
    (hnodup : ((done ++ first :: rest).map Prod.snd).Nodup)
    (h : Ranked ((done ++ first :: rest).map Prod.fst) done (first :: rest) ranks) {run later : List (α × Nat)}
    (hrun : run = first :: rest.takeWhile fun e => e.1 = first.1)
    (hlater : later = rest.dropWhile fun e => e.1 = first.1) :
    Ranked ((done ++ first :: rest).map Prod.fst) (done ++ run) later
      (assign ranks (run.map Prod.snd) (((done.length + 1 + (done.length + run.length) : ℕ) : ℚ) / 2)) := by
  have hsplit : first :: rest = run ++ later := by
    rw [hrun, hlater, List.cons_append, List.takeWhile_append_dropWhile]
  have hvalue : ∀ e ∈ run, e.1 = first.1 := by
    intro e he
    rw [hrun] at he
    rcases List.mem_cons.mp he with rfl | htake
    · rfl
    · simpa using List.mem_takeWhile_imp htake
  have hgreater : ∀ e ∈ later, first.1 < e.1 := fun e he =>
    lt_of_mem_dropWhile (List.pairwise_append.mp hsorted).2.1 (hlater ▸ he)
  have hless : ∀ e ∈ done, e.1 < first.1 := fun e he => h.below e he first List.mem_cons_self
  have hcredits := credits_of_run hless hvalue hgreater
  rw [← hsplit] at hcredits
  refine ⟨?_, ?_⟩
  · intro e he e' he'
    rcases List.mem_append.mp he with hold | hnew
    · exact (hless e hold).trans (hgreater e' he')
    · rw [hvalue e hnew]
      exact hgreater e' he'
  · intro e he
    rcases List.mem_append.mp he with hold | hnew
    · -- its position is not one of the run
      have hout : e.2 ∉ run.map Prod.snd := by
        intro hin
        rw [hsplit, List.map_append, List.map_append, List.nodup_append] at hnodup
        exact hnodup.2.2 e.2 (List.mem_map_of_mem hold) e.2 (List.mem_append_left _ hin) rfl
      rw [assign, if_neg hout]
      exact h.ranked e hold
    · rw [assign, if_pos (List.mem_map_of_mem hnew), hvalue e hnew, hcredits]
      push_cast
      ring

/-- After enough turns every row has its rank. -/
theorem averageRanks_spec {sorted : List (α × Nat)} (hsorted : sorted.Pairwise fun a b => a.1 ≤ b.1)
    (hnodup : (sorted.map Prod.snd).Nodup) (turns : Nat) {done rest : List (α × Nat)} {ranks : Nat → ℚ}
    (hsplit : sorted = done ++ rest) (hturns : rest.length ≤ turns) (h : Ranked (sorted.map Prod.fst) done rest ranks) :
    ∀ e ∈ sorted, averageRanks (sorted.map Prod.fst) (sorted.map Prod.snd) turns done.length ranks e.2 =
      credits (sorted.map Prod.fst) e.1 + 1 / 2 := by
  induction turns generalizing done rest ranks with
  | zero =>
    rw [List.length_eq_zero_iff.mp (Nat.le_zero.mp hturns), List.append_nil] at hsplit
    subst hsplit
    exact h.ranked
  | succ turns ih =>
    have hdrop : (sorted.map Prod.fst).drop done.length = rest.map Prod.fst := by
      rw [← List.map_drop, hsplit, List.drop_left]
    cases rest with
    | nil =>
      rw [averageRanks, hdrop, List.map_nil]
      rw [List.append_nil] at hsplit
      subst hsplit
      exact h.ranked
    | cons first rest =>
      rw [averageRanks, hdrop, List.map_cons]
      dsimp only
      obtain ⟨run, hrun⟩ : ∃ run, run = first :: rest.takeWhile fun e => e.1 = first.1 := ⟨_, rfl⟩
      obtain ⟨later, hlater⟩ : ∃ later, later = rest.dropWhile fun e => e.1 = first.1 := ⟨_, rfl⟩
      have hrest : first :: rest = run ++ later := by
        rw [hrun, hlater, List.cons_append, List.takeWhile_append_dropWhile]
      have hstop : runEnd first.1 (rest.map Prod.fst) (done.length + 1) = done.length + run.length := by
        rw [runEnd_eq, List.takeWhile_map, List.length_map, hrun, List.length_cons]
        show done.length + 1 + (rest.takeWhile fun e => e.1 = first.1).length = _
        omega
      have hpositions : ((sorted.map Prod.snd).take (done.length + run.length)).drop done.length =
          run.map Prod.snd := by
        rw [hsplit, hrest, ← List.append_assoc, List.map_append, List.map_append,
          List.take_left' (by simp), List.drop_left' (by simp)]
      have hfew : later.length ≤ turns := by
        have hlength := congrArg List.length hrest
        rw [List.length_append, hrun, List.length_cons, List.length_cons] at hlength
        rw [List.length_cons] at hturns
        omega
      subst hsplit
      have hranked := h.turn hsorted hnodup hrun hlater
      rw [← List.length_append] at hranked
      have hnext : done ++ first :: rest = (done ++ run) ++ later := by rw [hrest, List.append_assoc]
      rw [hstop, hpositions, ← List.length_append]
      exact ih hnext hfew hranked

end Runs

/-! ## The rank sum -/

section RankSum

variable {α : Type} [LinearOrder α]

theorem argsort_perm (values : List α) : (argsort values).Perm values.zipIdx := List.perm_insertionSort _ _

/-- Each row has the credit of its score, and a half more. -/
theorem averageRanks_eq (scores : List α) (unset : Nat → ℚ) :
    ∀ e ∈ scores.zipIdx,
      averageRanks ((argsort scores).map Prod.fst) ((argsort scores).map Prod.snd) scores.length 0 unset e.2 =
        credits scores e.1 + 1 / 2 := by
  have hperm := argsort_perm scores
  have hsorted : (argsort scores).Pairwise fun a b => a.1 ≤ b.1 := by
    have := List.pairwise_insertionSort (fun a b : α × Nat => a.1 ≤ b.1) scores.zipIdx
    exact this
  have hnodup : ((argsort scores).map Prod.snd).Nodup := by
    rw [(hperm.map Prod.snd).nodup_iff, List.zipIdx_map_snd]
    exact List.nodup_range'
  have hlength : (argsort scores).length ≤ scores.length := by
    rw [hperm.length_eq, List.length_zipIdx]
  have hscores : ((argsort scores).map Prod.fst).Perm scores := by
    have := hperm.map Prod.fst
    rwa [List.zipIdx_map_fst] at this
  have hstart : Ranked ((argsort scores).map Prod.fst) [] (argsort scores) unset :=
    ⟨fun _ h => absurd h List.not_mem_nil, fun _ h => absurd h List.not_mem_nil⟩
  intro e he
  have hspec := averageRanks_spec hsorted hnodup scores.length rfl hlength hstart e (hperm.mem_iff.mpr he)
  rw [credits_perm hscores] at hspec
  exact hspec

omit [LinearOrder α] in
/-- The positions of the positives, and their scores. -/
theorem map_positives {ranks : Nat → ℚ} {g : α → ℚ} (scores : List α) (labels : List Bool) (start : Nat)
    (hlength : scores.length = labels.length) (h : ∀ e ∈ scores.zipIdx start, ranks e.2 = g e.1) :
    (((labels.zipIdx start).filter fun row => row.1).map fun row => ranks row.2) =
      (scoresOf true (scores.zip labels)).map g := by
  induction scores generalizing labels start with
  | nil =>
    rw [List.length_eq_zero_iff.mp hlength.symm]
    rfl
  | cons score scores ih =>
    obtain ⟨label, labels, rfl⟩ := List.exists_cons_of_length_eq_add_one hlength.symm
    rw [List.zipIdx_cons] at h ⊢
    have htail := ih labels (start + 1) (Nat.succ.inj hlength) fun e he => h e (List.mem_cons_of_mem _ he)
    have hhead : ranks start = g score := h (score, start) List.mem_cons_self
    cases label with
    | false => exact htail
    | true =>
      rw [List.filter_cons_of_pos rfl, List.map_cons, htail, hhead]
      rfl

omit [LinearOrder α] in
theorem length_scoresOf {scores : List α} {labels : List Bool} (hlength : scores.length = labels.length)
    (label : Bool) : (scoresOf label (scores.zip labels)).length = labels.count label := by
  have hlabels : (scores.zip labels).map Prod.snd = labels := List.map_snd_zip hlength.ge
  conv_rhs => rw [← hlabels]
  rw [scoresOf, List.length_map, List.count, List.countP_map, List.countP_eq_length_filter]
  refine congrArg List.length (List.filter_congr fun row _ => ?_)
  cases label <;> cases hrow : row.2 <;> simp [hrow]

/-- The rank sum of the positives: their credit against the negatives, and what they have among themselves. -/
theorem rank_sum (rows : List (α × Bool)) :
    ((scoresOf true rows).map fun p => credits (rows.map Prod.fst) p + 1 / 2).sum =
      ((scoresOf true rows).map (credits (scoresOf false rows))).sum +
        ((scoresOf true rows).length : ℚ) * ((scoresOf true rows).length + 1) / 2 := by
  have hsplit : ∀ p, credits (rows.map Prod.fst) p + 1 / 2 =
      credits (scoresOf true rows) p + (credits (scoresOf false rows) p + 1 / 2) := by
    intro p
    rw [credits_perm (scores_perm rows), credits_append, add_assoc]
  rw [List.map_congr_left fun p _ => hsplit p, List.sum_map_add, List.sum_map_add, sum_credits_self, List.map_const',
    List.sum_replicate, nsmul_eq_mul]
  ring

end RankSum

/-! ## The statistic -/

section Statistic

variable {α β : Type} [LinearOrder α] [LinearOrder β]

/-- `roc_auc` of lists of one length, by their rows. -/
theorem rocAuc_eq (unset : Nat → ℚ) {scores : List α} {labels : List Bool} (hlength : scores.length = labels.length) :
    rocAuc unset scores labels = .ok (
      if true ∈ labels ∧ false ∈ labels then mannWhitney (scores.zip labels) else 1 / 2) := by
  have hcounts := List.count_true_add_count_false labels
  have habsent : labels.count true = 0 ∨ scores.length - labels.count true = 0 ↔
      ¬ (true ∈ labels ∧ false ∈ labels) := by
    rw [not_and_or, ← List.count_eq_zero, ← List.count_eq_zero]
    omega
  rw [rocAuc, if_neg (not_not.mpr hlength)]
  dsimp only
  by_cases hboth : true ∈ labels ∧ false ∈ labels
  · have hnegatives : ((scores.length - labels.count true : ℕ) : ℚ) = (scoresOf false (scores.zip labels)).length := by
      rw [length_scoresOf hlength]
      exact congrArg Nat.cast (by omega)
    have hall : (scores.zip labels).map Prod.fst = scores := List.map_fst_zip hlength.le
    have hsum := rank_sum (scores.zip labels)
    rw [hall] at hsum
    have hranks := map_positives (g := fun x => credits scores x + 1 / 2) scores labels 0 hlength
      (averageRanks_eq scores unset)
    rw [if_neg fun h => habsent.mp h hboth, if_pos hboth, hranks, hsum, hnegatives,
      ← length_scoresOf hlength true, add_sub_cancel_right]
    rfl
  · rw [if_pos (habsent.mpr hboth), if_neg hboth]

omit [LinearOrder α] [LinearOrder β] in
theorem scoresOf_map (f : α → β) (label : Bool) (rows : List (α × Bool)) :
    scoresOf label (rows.map fun row => (f row.1, row.2)) = (scoresOf label rows).map f := by
  rw [scoresOf, scoresOf, List.filter_map, List.map_map, List.map_map]
  rfl

omit [LinearOrder α] in
theorem mem_of_mem_scoresOf {label : Bool} {rows : List (α × Bool)} {x : α} (h : x ∈ scoresOf label rows) :
    x ∈ rows.map Prod.fst := (List.filter_sublist.map Prod.fst).subset h

omit [LinearOrder α] in
/-- The statistic of mapped scores, comparison by comparison. -/
theorem mannWhitney_map (f : α → β) (rows : List (α × Bool)) :
    mannWhitney (rows.map fun row => (f row.1, row.2)) =
      ((scoresOf true rows).map fun p => ((scoresOf false rows).map fun q => credit (f p) (f q)).sum).sum /
        ((scoresOf true rows).length * (scoresOf false rows).length) := by
  rw [mannWhitney, scoresOf_map, scoresOf_map, List.length_map, List.length_map, List.map_map]
  refine congrArg (· / _) (congrArg List.sum (List.map_congr_left fun p _ => ?_))
  rw [Function.comp_apply, List.map_map]
  rfl

/-- A strictly increasing map keeps every comparison. -/
theorem mannWhitney_map_strictMono {f : α → β} {rows : List (α × Bool)}
    (hf : StrictMonoOn f {x | x ∈ rows.map Prod.fst}) :
    mannWhitney (rows.map fun row => (f row.1, row.2)) = mannWhitney rows := by
  rw [mannWhitney_map]
  refine congrArg (· / _) (congrArg List.sum (List.map_congr_left fun p hp => ?_))
  exact congrArg List.sum (List.map_congr_left fun q hq =>
    credit_strictMono hf (mem_of_mem_scoresOf hp) (mem_of_mem_scoresOf hq))

/-- A strictly decreasing map turns every comparison around. -/
theorem mannWhitney_map_strictAnti {f : α → β} {rows : List (α × Bool)}
    (hf : StrictAntiOn f {x | x ∈ rows.map Prod.fst}) (htrue : scoresOf true rows ≠ [])
    (hfalse : scoresOf false rows ≠ []) :
    mannWhitney (rows.map fun row => (f row.1, row.2)) = 1 - mannWhitney rows := by
  have hshared : ∀ p ∈ scoresOf true rows,
      ((scoresOf false rows).map fun q => credit (f p) (f q)).sum + credits (scoresOf false rows) p =
        (scoresOf false rows).length := by
    intro p hp
    have hone : ∀ q ∈ scoresOf false rows, credit (f p) (f q) + credit p q = 1 := by
      intro q hq
      rw [credit_strictAnti hf (mem_of_mem_scoresOf hp) (mem_of_mem_scoresOf hq), credit_add_swap]
    rw [credits, ← List.sum_map_add, List.map_congr_left hone, List.map_const', List.sum_replicate, nsmul_eq_mul,
      mul_one]
  have htotal : ((scoresOf true rows).map fun p => ((scoresOf false rows).map fun q => credit (f p) (f q)).sum).sum +
      ((scoresOf true rows).map (credits (scoresOf false rows))).sum =
        (scoresOf true rows).length * (scoresOf false rows).length := by
    rw [← List.sum_map_add, List.map_congr_left hshared, List.map_const', List.sum_replicate, nsmul_eq_mul]
  have hpairs : ((scoresOf true rows).length * (scoresOf false rows).length : ℚ) ≠ 0 :=
    mul_ne_zero (Nat.cast_ne_zero.mpr fun h => htrue (List.length_eq_zero_iff.mp h))
      (Nat.cast_ne_zero.mpr fun h => hfalse (List.length_eq_zero_iff.mp h))
  rw [mannWhitney_map, eq_sub_iff_add_eq]
  refine (add_div _ _ _).symm.trans ?_
  exact (congrArg (· / _) htotal).trans (div_self hpairs)

end Statistic

theorem map_zip_labels {α β : Type} (f : α → β) (scores : List α) (labels : List Bool) :
    (scores.map f).zip labels = (scores.zip labels).map fun row => (f row.1, row.2) := by
  rw [List.zip_map_left]
  rfl

/-- With both classes present, `roc_auc` is the fraction of pairs the positive wins, whatever the array held before.
Any order of the rows gives the same, and so does a strictly increasing map of the scores; negated scores give one
minus it. -/
theorem roc_auc_is_mann_whitney (unset : Nat → ℚ) {scores : List ℚ} {labels : List Bool}
    (hlength : scores.length = labels.length) (htrue : true ∈ labels) (hfalse : false ∈ labels) :
    rocAuc unset scores labels = .ok (mannWhitney (scores.zip labels)) ∧
    (∀ (unset' : Nat → ℚ) (scores' : List ℚ) (labels' : List Bool), scores'.length = labels'.length →
      (scores'.zip labels').Perm (scores.zip labels) →
      rocAuc unset' scores' labels' = rocAuc unset scores labels) ∧
    (∀ (unset' : Nat → ℚ) (β : Type) [LinearOrder β] (f : ℚ → β), StrictMonoOn f {x | x ∈ scores} →
      rocAuc unset' (scores.map f) labels = rocAuc unset scores labels) ∧
    ∀ unset' : Nat → ℚ, rocAuc unset' (scores.map fun x => -x) labels =
      .ok (1 - mannWhitney (scores.zip labels)) := by
  have hauc : ∀ {β : Type} [LinearOrder β] (unset : Nat → ℚ) {xs : List β}, xs.length = labels.length →
      rocAuc unset xs labels = .ok (mannWhitney (xs.zip labels)) := by
    intro β _ unset xs hxs
    rw [rocAuc_eq unset hxs, if_pos ⟨htrue, hfalse⟩]
  have hscores : (scores.zip labels).map Prod.fst = scores := List.map_fst_zip hlength.le
  refine ⟨hauc unset hlength, ?_, ?_, ?_⟩
  · intro unset' scores' labels' hlength' hperm
    have hlabels : labels'.Perm labels := by
      have := hperm.map Prod.snd
      rwa [List.map_snd_zip hlength'.ge, List.map_snd_zip hlength.ge] at this
    rw [rocAuc_eq unset' hlength', hauc unset hlength, if_pos ⟨hlabels.mem_iff.mpr htrue, hlabels.mem_iff.mpr hfalse⟩,
      mannWhitney_perm hperm]
  · intro unset' β _ f hf
    rw [hauc unset' (by rwa [List.length_map]), hauc unset hlength, map_zip_labels,
      mannWhitney_map_strictMono (by rwa [hscores])]
  · intro unset'
    have hclass : ∀ label ∈ labels, scoresOf label (scores.zip labels) ≠ [] := by
      intro label hlabel hnil
      have hcount := length_scoresOf hlength label
      rw [hnil] at hcount
      exact List.count_eq_zero.mp hcount.symm hlabel
    rw [hauc unset' (by rwa [List.length_map]), map_zip_labels,
      mannWhitney_map_strictAnti (fun x _ y _ hxy => neg_lt_neg hxy) (hclass true htrue) (hclass false hfalse)]

/-- Three positives and two negatives, with a tie across the classes. -/
theorem roc_auc_is_mann_whitney_tied :
    rocAuc (fun _ => 0) ([3, 1, 2, 2, 5] : List ℚ) [true, false, false, true, true] = .ok (11 / 12) := by
  have hlength : ([3, 1, 2, 2, 5] : List ℚ).length = [true, false, false, true, true].length := rfl
  have hauc := (roc_auc_is_mann_whitney (fun _ => 0) hlength (by decide) (by decide)).1
  have hpairs : mannWhitney (([3, 1, 2, 2, 5] : List ℚ).zip [true, false, false, true, true]) = 11 / 12 := by
    decide +kernel
  rw [hauc, hpairs]

end Pirewall.Ml
