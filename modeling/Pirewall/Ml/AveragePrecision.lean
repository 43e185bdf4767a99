/-
# Pirewall.Ml.AveragePrecision -- average precision and tied scores

`average_precision` sorts the rows by falling score, stably, and adds up the precision after each positive, weighted
by the recall that positive adds. Rows of one score are visited in the order they were given in, so the sum may
depend on that order. The definition it stands for lets all rows of one score enter together (`tieAware`).

Both are sums over the positives. `sumOver` walks a list and adds a weight per positive; the two differ in the
weight only, the precision just after the row against the precision of its whole score. Comparing the weights
position by position, for the two extreme arrangements of every tie, gives `order_free_iff`: which lists of rows
have a value of their own.
-/
import Mathlib.Tactic

namespace Pirewall.Ml

/-! ## The code -/

/-- `AveragePrecision`. -/
structure AveragePrecision where
  value : ℚ
  prevalence : ℚ
  positives : Nat
  rows : Nat
  deriving DecidableEq

/-- `ValueError`, with its message. -/
structure ValueError where
  message : String
  deriving DecidableEq

/-- `np.cumsum`, from a start. -/
def cumsum (start : Nat) : List Nat → List Nat
  | [] => []
  | n :: rest => (start + n) :: cumsum (start + n) rest

variable {α : Type} [LinearOrder α]

/-- The labels in the order of `np.argsort(-values, kind="mergesort")`, which is stable. -/
def sortedPositives (scores : List α) (labels : List Bool) : List Bool :=
  ((scores.zip labels).insertionSort fun a b => b.1 ≤ a.1).map Prod.snd

/-- `average_precision`, in exact arithmetic. -/
def averagePrecision (scores : List α) (labels : List Bool) : Except ValueError AveragePrecision :=
  if scores.length ≠ labels.length then .error ⟨"scores and labels must have the same length"⟩
  else
    let positiveCount := labels.count true
    if positiveCount = 0 then .ok ⟨0, 0, 0, scores.length⟩
    else
      let positives := sortedPositives scores labels
      let cumulativeTrue := cumsum 0 (positives.map Bool.toNat)
      let cumulativeFalse := cumsum 0 (positives.map fun positive => (!positive).toNat)
      let precision := List.zipWith (fun (t f : Nat) => (t : ℚ) / (max (t + f) 1 : Nat)) cumulativeTrue cumulativeFalse
      let recalls := cumulativeTrue.map fun (t : Nat) => (t : ℚ) / positiveCount
      let previousRecalls := 0 :: recalls.dropLast
      let weights := List.zipWith (· - ·) recalls previousRecalls
      .ok ⟨(List.zipWith (· * ·) precision weights).sum, positiveCount / scores.length, positiveCount,
        scores.length⟩

example : averagePrecision [(9 / 10 : ℚ), 8 / 10, 7 / 10, 6 / 10] [true, false, true, false] =
    .ok ⟨(1 + 2 / 3) / 2, 1 / 2, 2, 4⟩ := by decide +kernel

/-! ## The tie-aware definition -/

/-- A row: its score and whether it is positive. -/
abbrev Row (α : Type) := α × Bool

/-- The positives among some rows. -/
def truePositives (rows : List (Row α)) : Nat := rows.countP fun row => row.2

/-- The negatives among some rows. -/
def falsePositives (rows : List (Row α)) : Nat := rows.countP fun row => !row.2

/-- The rows that fire at a threshold. -/
def atLeast (rows : List (Row α)) (score : α) : List (Row α) := rows.filter fun row => score ≤ row.1

/-- The rows that fire above it. -/
def above (rows : List (Row α)) (score : α) : List (Row α) := rows.filter fun row => score < row.1

/-- The precision at a threshold. -/
def precisionAt (rows : List (Row α)) (score : α) : ℚ :=
  truePositives (atLeast rows score) / (truePositives (atLeast rows score) + falsePositives (atLeast rows score))

/-- The recall among some of the rows. -/
def recallOf (rows some : List (Row α)) : ℚ := truePositives some / truePositives rows

/-- Average precision with the rows of one score entering together: over the scores, the recall each adds times the
precision at it. -/
def tieAware (rows : List (Row α)) : ℚ :=
  ∑ score ∈ (rows.map Prod.fst).toFinset,
    (recallOf rows (atLeast rows score) - recallOf rows (above rows score)) * precisionAt rows score

/-! ## Sums over the positives -/

/-- The sum of a weight over the positives of `rest`, given the rows visited before. -/
def sumOver (weight : List (Row α) → α → ℚ) (visited : List (Row α)) : List (Row α) → ℚ
  | [] => 0
  | (score, true) :: rest => weight visited score + sumOver weight (visited ++ [(score, true)]) rest
  | (score, false) :: rest => sumOver weight (visited ++ [(score, false)]) rest

/-- The precision just after a positive, the rows visited before it given. -/
def precisionAfter (visited : List (Row α)) (_score : α) : ℚ :=
  (truePositives visited + 1) / (truePositives visited + 1 + falsePositives visited)

omit [LinearOrder α] in
/-- Weights that are nowhere larger have no larger sum, and an equal one only when they are equal. -/
theorem sumOver_le {u v : List (Row α) → α → ℚ} {visited rest : List (Row α)}
    (h : ∀ inner score after, rest = inner ++ (score, true) :: after →
      u (visited ++ inner) score ≤ v (visited ++ inner) score) :
    sumOver u visited rest ≤ sumOver v visited rest ∧
      (sumOver u visited rest = sumOver v visited rest → ∀ inner score after,
        rest = inner ++ (score, true) :: after → u (visited ++ inner) score = v (visited ++ inner) score) := by
  induction rest generalizing visited with
  | nil =>
    refine ⟨le_refl _, ?_⟩
    intro _ inner score after hrest
    exact absurd hrest (by simp)
  | cons row rest ih =>
    have htail := @ih (visited ++ [row]) (by
      intro inner score after hrest
      have hrow := h (row :: inner) score after (by rw [hrest, List.cons_append])
      rwa [List.append_assoc, List.singleton_append])
    -- a visit of the whole list is of its head, or of the rest with the head among the visited
    have hvisit : ∀ inner score after, row :: rest = inner ++ (score, true) :: after →
        (inner = [] ∧ row = (score, true)) ∨
          ∃ inner', inner = row :: inner' ∧ rest = inner' ++ (score, true) :: after := by
      intro inner score after hrest
      cases inner with
      | nil => exact .inl ⟨rfl, (List.cons.inj hrest).1⟩
      | cons head inner' =>
        obtain ⟨rfl, hrest'⟩ := List.cons.inj hrest
        exact .inr ⟨inner', rfl, hrest'⟩
    obtain ⟨score, positive⟩ := row
    cases positive with
    | false =>
      refine ⟨htail.1, ?_⟩
      intro hsum inner score' after hrest
      rcases hvisit inner score' after hrest with ⟨_, hrow⟩ | ⟨inner', rfl, hrest'⟩
      · cases hrow
      · have hequal := htail.2 hsum inner' score' after hrest'
        rwa [List.append_assoc, List.singleton_append] at hequal
    | true =>
      have hhead := h [] score rest rfl
      rw [List.append_nil] at hhead
      simp only [sumOver]
      refine ⟨add_le_add hhead htail.1, ?_⟩
      intro hsum inner score' after hrest
      rcases hvisit inner score' after hrest with ⟨rfl, hrow⟩ | ⟨inner', rfl, hrest'⟩
      · cases hrow
        rw [List.append_nil]
        linarith [htail.1]
      · have hequal := htail.2 (by linarith [htail.1]) inner' score' after hrest'
        rwa [List.append_assoc, List.singleton_append] at hequal

omit [LinearOrder α] in
/-- Along a whole list. -/
theorem sumOver_whole_le {u v : List (Row α) → α → ℚ} {rows : List (Row α)}
    (h : ∀ visited score after, rows = visited ++ (score, true) :: after → u visited score ≤ v visited score) :
    sumOver u [] rows ≤ sumOver v [] rows ∧
      (sumOver u [] rows = sumOver v [] rows → ∀ visited score after, rows = visited ++ (score, true) :: after →
        u visited score = v visited score) :=
  sumOver_le h

omit [LinearOrder α] in
theorem sumOver_congr {u v : List (Row α) → α → ℚ} {rows : List (Row α)}
    (h : ∀ visited score after, rows = visited ++ (score, true) :: after → u visited score = v visited score) :
    sumOver u [] rows = sumOver v [] rows :=
  le_antisymm (sumOver_whole_le fun visited score after hrows => (h visited score after hrows).le).1
    (sumOver_whole_le fun visited score after hrows => (h visited score after hrows).ge).1

omit [LinearOrder α] in
/-- A weight that does not look at the visited rows is summed over the scores of the positives. -/
theorem sumOver_const (weight : α → ℚ) (visited rest : List (Row α)) :
    sumOver (fun _ score => weight score) visited rest =
      (((rest.filter fun row => row.2).map Prod.fst).map weight).sum := by
  induction rest generalizing visited with
  | nil => rfl
  | cons row rest ih =>
    obtain ⟨score, positive⟩ := row
    cases positive with
    | false => simp [sumOver, ih]
    | true => simp [sumOver, ih]

/-! ## The code as such a sum -/

theorem zipWith_dropLast {f : ℚ → ℚ → ℚ} (l : List ℚ) (x : ℚ) :
    List.zipWith f l (x :: l.dropLast) = List.zipWith f l (x :: l) := by
  induction l generalizing x with
  | nil => rfl
  | cons y l ih =>
    cases l with
    | nil => rfl
    | cons z l => exact congrArg (f y x :: ·) (ih y)

omit [LinearOrder α] in
@[simp] theorem truePositives_nil : truePositives ([] : List (Row α)) = 0 := rfl

omit [LinearOrder α] in
@[simp] theorem falsePositives_nil : falsePositives ([] : List (Row α)) = 0 := rfl

omit [LinearOrder α] in
@[simp] theorem truePositives_concat (rows : List (Row α)) (score : α) (positive : Bool) :
    truePositives (rows ++ [(score, positive)]) = truePositives rows + positive.toNat := by
  cases positive <;> simp [truePositives]

omit [LinearOrder α] in
@[simp] theorem falsePositives_concat (rows : List (Row α)) (score : α) (positive : Bool) :
    falsePositives (rows ++ [(score, positive)]) = falsePositives rows + (!positive).toNat := by
  cases positive <;> simp [falsePositives]

omit [LinearOrder α] in
/-- The accumulated sum of the code: the precision after each positive, over the number of positives. -/
theorem accumulated_eq_sumOver (positiveCount : Nat) (visited rest : List (Row α)) :
    let positives := rest.map Prod.snd
    let cumulativeTrue := cumsum (truePositives visited) (positives.map Bool.toNat)
    let cumulativeFalse := cumsum (falsePositives visited) (positives.map fun positive => (!positive).toNat)
    let precision := List.zipWith (fun (t f : Nat) => (t : ℚ) / (max (t + f) 1 : Nat)) cumulativeTrue cumulativeFalse
    let recalls := cumulativeTrue.map fun (t : Nat) => (t : ℚ) / positiveCount
    let weights := List.zipWith (· - ·) recalls ((truePositives visited : ℚ) / positiveCount :: recalls)
    (List.zipWith (· * ·) precision weights).sum = sumOver precisionAfter visited rest / positiveCount := by
  induction rest generalizing visited with
  | nil => simp [sumOver, cumsum]
  | cons row rest ih =>
    obtain ⟨score, positive⟩ := row
    have htail := ih (visited ++ [(score, positive)])
    simp only [truePositives_concat, falsePositives_concat] at htail
    simp only [List.map_cons, cumsum, List.zipWith_cons_cons, List.sum_cons]
    rw [htail]
    cases positive with
    | false => simp [sumOver]
    | true =>
      have hmax : max (truePositives visited + 1 + falsePositives visited) 1 =
          truePositives visited + 1 + falsePositives visited := by omega
      simp only [sumOver, precisionAfter, Bool.toNat_true, Bool.not_true, Bool.toNat_false, Nat.add_zero, hmax]
      push_cast
      ring

/-- The rows in the order they are visited in. -/
def byScore (rows : List (Row α)) : List (Row α) := rows.insertionSort fun a b => b.1 ≤ a.1

omit [LinearOrder α] in
theorem truePositives_perm {rows rows' : List (Row α)} (h : rows.Perm rows') :
    truePositives rows = truePositives rows' := h.countP_eq _

omit [LinearOrder α] in
theorem falsePositives_perm {rows rows' : List (Row α)} (h : rows.Perm rows') :
    falsePositives rows = falsePositives rows' := h.countP_eq _

omit [LinearOrder α] in
theorem count_true (rows : List (Row α)) : (rows.map Prod.snd).count true = truePositives rows := by
  rw [List.count, List.countP_map]
  exact List.countP_congr fun row _ => by simp

/-- What `average_precision` returns for a list of rows; without positives it is zero, as the quotients are. -/
theorem averagePrecision_rows (rows : List (Row α)) :
    averagePrecision (rows.map Prod.fst) (rows.map Prod.snd) =
      .ok ⟨sumOver precisionAfter [] (byScore rows) / truePositives rows, truePositives rows / rows.length,
        truePositives rows, rows.length⟩ := by
  have hzip : (rows.map Prod.fst).zip (rows.map Prod.snd) = rows := by
    rw [List.zip_map']
    exact List.map_id rows
  unfold averagePrecision
  simp only [List.length_map, count_true, ne_eq, not_true_eq_false, if_false]
  by_cases hnone : truePositives rows = 0
  · rw [if_pos hnone, hnone]
    simp
  · have hsum := accumulated_eq_sumOver (truePositives rows) [] (byScore rows)
    rw [if_neg hnone, sortedPositives, hzip, zipWith_dropLast]
    simp only [truePositives_nil, falsePositives_nil, Nat.cast_zero, zero_div] at hsum
    rw [show (rows.insertionSort fun a b => b.1 ≤ a.1) = byScore rows from rfl, hsum]

/-! ## The definition as such a sum -/

/-- The scores of the positives. -/
def positiveScores (rows : List (Row α)) : List α := (rows.filter fun row => row.2).map Prod.fst

/-- The positives that enter at a score are those of that score. -/
theorem truePositives_atLeast (rows : List (Row α)) (score : α) :
    truePositives (atLeast rows score) = truePositives (above rows score) + (positiveScores rows).count score := by
  induction rows with
  | nil => rfl
  | cons row rows ih =>
    obtain ⟨other, positive⟩ := row
    simp only [truePositives, atLeast, above, positiveScores] at ih ⊢
    rcases lt_trichotomy score other with hlt | rfl | hgt
    · cases positive <;> simp [hlt, hlt.le, hlt.ne', ih, Nat.add_right_comm]
    · cases positive <;> simp [ih, Nat.add_assoc]
    · cases positive <;> simp [hgt.not_ge, hgt.not_gt, hgt.ne, ih]

/-- Each positive has the precision of its score. -/
theorem tieAware_eq (rows : List (Row α)) :
    tieAware rows = ((positiveScores rows).map (precisionAt rows)).sum / truePositives rows := by
  have hsubset : (positiveScores rows).toFinset ⊆ (rows.map Prod.fst).toFinset := by
    intro score hscore
    rw [List.mem_toFinset, positiveScores] at hscore
    rw [List.mem_toFinset]
    obtain ⟨row, hrow, rfl⟩ := List.mem_map.mp hscore
    exact List.mem_map_of_mem (List.mem_filter.mp hrow).1
  have hentering : ∀ score, recallOf rows (atLeast rows score) - recallOf rows (above rows score) =
      (positiveScores rows).count score / truePositives rows := by
    intro score
    rw [recallOf, recallOf, truePositives_atLeast, ← sub_div]
    push_cast
    ring
  rw [Finset.sum_list_map_count, tieAware, Finset.sum_div]
  simp only [hentering, nsmul_eq_mul]
  rw [← Finset.sum_subset hsubset]
  · exact Finset.sum_congr rfl fun score _ => by ring
  · -- a score of no positive adds no recall
    intro score _ hscore
    rw [List.mem_toFinset] at hscore
    rw [List.count_eq_zero.mpr hscore]
    simp

/-! ## The two weights at one position -/

/-- The rows fall in score. -/
def Falling (rows : List (Row α)) : Prop := rows.Pairwise fun a b => b.1 ≤ a.1

/-- At a positive of a sorted list, the rows of its score are the visited ones and its ties after it. -/
theorem atLeast_split {visited after : List (Row α)} {score : α}
    (hfalling : Falling (visited ++ (score, true) :: after)) :
    truePositives (atLeast (visited ++ (score, true) :: after) score) =
        truePositives visited + 1 + after.count (score, true) ∧
      falsePositives (atLeast (visited ++ (score, true) :: after) score) =
        falsePositives visited + after.count (score, false) := by
  obtain ⟨_, hafter, hvisited⟩ := List.pairwise_append.mp hfalling
  have hkept : atLeast visited score = visited := by
    refine List.filter_eq_self.mpr ?_
    intro row hrow
    exact decide_eq_true (hvisited row hrow _ List.mem_cons_self)
  have hties : ∀ positive, (atLeast after score).countP (fun row => row.2 == positive) =
      after.count (score, positive) := by
    intro positive
    rw [atLeast, List.countP_filter]
    refine List.countP_congr ?_
    intro row hrow
    have hle := (List.pairwise_cons.mp hafter).1 row hrow
    have hsame : score ≤ row.1 ↔ row.1 = score := ⟨fun hge => le_antisymm hle hge, fun heq => heq.ge⟩
    simp only [Bool.and_eq_true, beq_iff_eq, decide_eq_true_eq, hsame, Prod.ext_iff]
    exact And.comm
  have hsplit : atLeast (visited ++ (score, true) :: after) score =
      visited ++ [(score, true)] ++ atLeast after score := by
    have hself : atLeast ((score, true) :: after) score = (score, true) :: atLeast after score :=
      List.filter_cons_of_pos (decide_eq_true (le_refl score))
    rw [List.append_assoc, List.singleton_append, ← hself]
    conv_rhs => rw [← hkept]
    exact List.filter_append _ _
  rw [hsplit, ← hties, ← hties]
  constructor
  · simp only [truePositives, List.countP_append, List.countP_singleton, if_true, beq_true]
  · simp [falsePositives, List.countP_append]

/-- The precision of a score, at one of its positives in a sorted list. -/
theorem precisionAt_split {visited after : List (Row α)} {score : α}
    (hfalling : Falling (visited ++ (score, true) :: after)) :
    precisionAt (visited ++ (score, true) :: after) score =
      (truePositives visited + 1 + after.count (score, true) : ℚ) /
        (truePositives visited + 1 + after.count (score, true) +
          (falsePositives visited + after.count (score, false))) := by
  obtain ⟨htrue, hfalse⟩ := atLeast_split hfalling
  rw [precisionAt, htrue, hfalse]
  push_cast
  rfl

omit [LinearOrder α] in
theorem falsePositives_eq_zero_iff {rows : List (Row α)} :
    falsePositives rows = 0 ↔ ∀ score, (score, false) ∉ rows := by
  rw [falsePositives, List.countP_eq_zero]
  constructor
  · intro h score hin
    exact h _ hin rfl
  · rintro h ⟨score, positive⟩ hrow
    cases positive with
    | true => exact Bool.false_ne_true
    | false => exact absurd hrow (h score)

/-! ## Which rows have a value of their own -/

/-- A score of a positive is the score of no negative, and one of several positives lies above all negatives. -/
structure TiesHarmless (rows : List (Row α)) : Prop where
  unmixed : ∀ score, (score, true) ∈ rows → (score, false) ∉ rows
  repeated : ∀ score, 2 ≤ rows.count (score, true) → ∀ other, (other, false) ∈ rows → other < score

theorem TiesHarmless.perm {rows rows' : List (Row α)} (h : TiesHarmless rows) (hperm : rows'.Perm rows) :
    TiesHarmless rows' := by
  refine ⟨?_, ?_⟩
  · intro score hpositive hnegative
    exact h.unmixed score (hperm.mem_iff.mp hpositive) (hperm.mem_iff.mp hnegative)
  · intro score hcount other hnegative
    exact h.repeated score (hperm.count_eq _ ▸ hcount) other (hperm.mem_iff.mp hnegative)

/-- With harmless ties, both weights agree at every positive of a sorted list. -/
theorem TiesHarmless.weights_agree {visited after : List (Row α)} {score : α}
    (h : TiesHarmless (visited ++ (score, true) :: after))
    (hfalling : Falling (visited ++ (score, true) :: after)) :
    precisionAfter visited score = precisionAt (visited ++ (score, true) :: after) score := by
  have hin : (score, true) ∈ visited ++ (score, true) :: after := by simp
  have hunmixed : after.count (score, false) = 0 := by
    rw [List.count_eq_zero]
    intro hnegative
    exact h.unmixed score hin (by simp [hnegative])
  rw [precisionAt_split hfalling, precisionAfter, hunmixed]
  rcases Nat.eq_zero_or_pos (after.count (score, true)) with hsingle | htied
  · rw [hsingle]
    push_cast
    ring_nf
  · -- a tie of positives lies above all negatives, so none has been visited
    have htwo : 2 ≤ (visited ++ (score, true) :: after).count (score, true) := by
      rw [List.count_append, List.count_cons_self]
      omega
    have hclean : falsePositives visited = 0 := by
      rw [falsePositives_eq_zero_iff]
      intro other hnegative
      have hlt := h.repeated score htwo other (List.mem_append_left _ hnegative)
      have hle := (List.pairwise_append.mp hfalling).2.2 _ hnegative _ List.mem_cons_self
      exact absurd hlt (not_lt.mpr hle)
    have hpos : ∀ n : ℕ, (truePositives visited : ℚ) + 1 + n ≠ 0 := by
      intro n
      positivity
    rw [hclean]
    have hone := hpos 0
    have hmany := hpos (after.count (score, true))
    simp only [Nat.cast_zero, add_zero] at hone ⊢
    rw [div_self hone, div_self hmany]

/-! ## The two extreme arrangements -/

/-- A row may stand before another: it has the higher score, or in a tie the label that comes first. -/
def Before (first : Bool) (a b : Row α) : Prop := b.1 < a.1 ∨ (b.1 = a.1 ∧ (b.2 = first → a.2 = first))

instance (first : Bool) (a b : Row α) : Decidable (Before first a b) := inferInstanceAs (Decidable (_ ∨ _))

/-- Every list of rows can be arranged so that in each tie one label comes first. -/
theorem exists_arrangement (first : Bool) (rows : List (Row α)) :
    ∃ arranged : List (Row α), arranged.Perm rows ∧ arranged.Pairwise (Before first) := by
  let le : Row α → Row α → Bool := fun a b => decide (Before first a b)
  have htrans : ∀ a b c, le a b = true → le b c = true → le a c = true := by
    intro a b c hab hbc
    simp only [le, decide_eq_true_eq] at hab hbc ⊢
    rcases hab with hab | ⟨hab, hlabel⟩
    · exact .inl (hbc.elim (fun h => h.trans hab) fun h => h.1 ▸ hab)
    · rcases hbc with hbc | ⟨hbc, hlabel'⟩
      · exact .inl (hab ▸ hbc)
      · exact .inr ⟨hbc.trans hab, fun hc => hlabel (hlabel' hc)⟩
  have htotal : ∀ a b, (le a b || le b a) = true := by
    intro a b
    simp only [le, Bool.or_eq_true, decide_eq_true_eq]
    rcases lt_trichotomy a.1 b.1 with hlt | heq | hgt
    · exact .inr (.inl hlt)
    · by_cases hlabel : b.2 = first → a.2 = first
      · exact .inl (.inr ⟨heq.symm, hlabel⟩)
      · exact .inr (.inr ⟨heq, fun _ => (Classical.not_imp.mp hlabel).1⟩)
    · exact .inl (.inl hgt)
  refine ⟨rows.mergeSort le, List.mergeSort_perm rows le, ?_⟩
  exact (List.pairwise_mergeSort htrans htotal rows).imp fun h => of_decide_eq_true h

theorem falling_of_before {first : Bool} {rows : List (Row α)} (h : rows.Pairwise (Before first)) : Falling rows :=
  h.imp fun hab => hab.elim (fun hlt => hlt.le) fun heq => heq.1.le

/-- In a tie, no row of the label that comes first follows one of the other. -/
theorem not_mem_after {first : Bool} {visited after : List (Row α)} {row : Row α}
    (h : (visited ++ row :: after).Pairwise (Before first)) (hrow : row.2 ≠ first) : (row.1, first) ∉ after := by
  intro hin
  rcases (List.pairwise_cons.mp (List.pairwise_append.mp h).2.1).1 _ hin with hlt | ⟨_, hlabel⟩
  · exact lt_irrefl _ hlt
  · exact hrow (hlabel rfl)

theorem not_mem_visited {first : Bool} {visited after : List (Row α)} {row : Row α}
    (h : (visited ++ row :: after).Pairwise (Before first)) (hrow : row.2 = first) {label : Bool}
    (hlabel : label ≠ first) : (row.1, label) ∉ visited := by
  intro hin
  rcases (List.pairwise_append.mp h).2.2 _ hin row List.mem_cons_self with hlt | ⟨_, hfirst⟩
  · exact lt_irrefl _ hlt
  · exact hlabel (hfirst hrow)

/-! ## The value of a list of rows -/

theorem precisionAt_perm {rows rows' : List (Row α)} (h : rows.Perm rows') :
    precisionAt rows = precisionAt rows' := by
  funext score
  have hfiring : (atLeast rows score).Perm (atLeast rows' score) := h.filter _
  rw [precisionAt, precisionAt, truePositives_perm hfiring, falsePositives_perm hfiring]

/-- The value of some rows does not depend on their order, and is the tie-aware one. -/
def OrderFree (rows : List (Row α)) : Prop :=
  ∃ result, averagePrecision (rows.map Prod.fst) (rows.map Prod.snd) = .ok result ∧
    result.value = tieAware rows ∧
    ∀ rows' : List (Row α), rows'.Perm rows → averagePrecision (rows'.map Prod.fst) (rows'.map Prod.snd) = .ok result

theorem byScore_falling (rows : List (Row α)) : Falling (byScore rows) := by
  have htotal : Std.Total fun a b : Row α => b.1 ≤ a.1 := ⟨fun a b => le_total b.1 a.1⟩
  have htrans : IsTrans (Row α) fun a b => b.1 ≤ a.1 := ⟨fun a b c hab hbc => hbc.trans hab⟩
  exact List.pairwise_insertionSort _ rows

/-- The tie-aware value as a sum along any arrangement of the rows. -/
theorem tieAware_eq_sumOver {rows arranged : List (Row α)} (h : arranged.Perm rows) :
    tieAware rows = sumOver (fun _ score => precisionAt arranged score) [] arranged / truePositives rows := by
  have hscores : (positiveScores arranged).Perm (positiveScores rows) := (h.filter _).map _
  rw [tieAware_eq, sumOver_const, precisionAt_perm h, ← (hscores.map (precisionAt rows)).sum_eq]
  rfl

/-- Rows with harmless ties have a value of their own. -/
theorem TiesHarmless.orderFree {rows : List (Row α)} (h : TiesHarmless rows) : OrderFree rows := by
  -- whatever the order, both weights agree along the sorted list
  have hvalue : ∀ rows' : List (Row α), rows'.Perm rows →
      averagePrecision (rows'.map Prod.fst) (rows'.map Prod.snd) =
        .ok ⟨tieAware rows, truePositives rows / rows.length, truePositives rows, rows.length⟩ := by
    intro rows' hperm
    have hsorted : (byScore rows').Perm rows := (List.perm_insertionSort _ _).trans hperm
    have hweights : sumOver precisionAfter [] (byScore rows') =
        sumOver (fun _ score => precisionAt (byScore rows') score) [] (byScore rows') := by
      refine sumOver_congr ?_
      intro visited score after hsplit
      have hharmless := h.perm hsorted
      have hfalling := byScore_falling rows'
      rw [hsplit] at hharmless hfalling ⊢
      exact hharmless.weights_agree hfalling
    rw [averagePrecision_rows, hweights, tieAware_eq_sumOver hsorted, truePositives_perm hperm, hperm.length_eq]
  exact ⟨_, hvalue rows (List.Perm.refl rows), rfl, hvalue⟩

/-- Rows with a value of their own: along any arrangement that falls in score, the two sums are the same. -/
theorem OrderFree.sums_agree {rows arranged : List (Row α)} (h : OrderFree rows) (hperm : arranged.Perm rows)
    (hfalling : Falling arranged) (hpositive : truePositives rows ≠ 0) :
    sumOver precisionAfter [] arranged = sumOver (fun _ score => precisionAt arranged score) [] arranged := by
  obtain ⟨result, _, hvalue, hsame⟩ := h
  have hresult := hsame arranged hperm
  have hsorted : byScore arranged = arranged := hfalling.insertionSort_eq
  rw [averagePrecision_rows, hsorted, Except.ok.injEq] at hresult
  have hquotients : sumOver precisionAfter [] arranged / (truePositives arranged : ℚ) = tieAware rows :=
    (congrArg AveragePrecision.value hresult).trans hvalue
  rw [tieAware_eq_sumOver hperm, truePositives_perm hperm] at hquotients
  have hne : (truePositives rows : ℚ) ≠ 0 := Nat.cast_ne_zero.mpr hpositive
  exact (div_left_inj' hne).mp hquotients

omit [LinearOrder α] in
theorem truePositives_ne_zero {rows : List (Row α)} {score : α} (h : (score, true) ∈ rows) :
    truePositives rows ≠ 0 := by
  rw [truePositives, Ne, List.countP_eq_zero]
  intro hnone
  exact hnone _ h rfl

/-- Negatives first: a positive's own precision is at most that of its score, and less when a negative came before
it and a positive of its score comes after. So positives of one score lie above all negatives. -/
theorem OrderFree.repeated {rows : List (Row α)} (h : OrderFree rows) {score : α}
    (htwo : 2 ≤ rows.count (score, true)) {other : α} (hnegative : (other, false) ∈ rows) : other < score := by
  obtain ⟨arranged, hperm, hbefore⟩ := exists_arrangement false rows
  have hfalling := falling_of_before hbefore
  have hin : (score, true) ∈ rows := List.count_pos_iff.mp (by omega)
  have hsums := h.sums_agree hperm hfalling (truePositives_ne_zero hin)
  have hnone : ∀ visited score after, arranged = visited ++ (score, true) :: after →
      after.count (score, false) = 0 := by
    rintro visited score after rfl
    exact List.count_eq_zero.mpr (not_mem_after hbefore (by simp))
  have hle : ∀ visited score after, arranged = visited ++ (score, true) :: after →
      precisionAfter visited score ≤ precisionAt arranged score := by
    rintro visited score after rfl
    rw [precisionAt_split hfalling, precisionAfter, hnone visited score after rfl]
    push_cast
    rw [div_le_div_iff₀ (by positivity) (by positivity)]
    have hproduct : (0 : ℚ) ≤ falsePositives visited * after.count (score, true) := by positivity
    linarith
  -- the first positive of the score
  obtain ⟨visited, after, rfl, hfresh⟩ := List.eq_append_cons_of_mem (hperm.mem_iff.mpr hin)
  have hweights := (sumOver_whole_le hle).2 hsums visited score after rfl
  have hafter : after.count (score, true) ≠ 0 := by
    have hcount := hperm.count_eq (score, true)
    rw [List.count_append, List.count_cons_self, List.count_eq_zero.mpr hfresh] at hcount
    omega
  have hclean : falsePositives visited = 0 := by
    rw [precisionAt_split hfalling, precisionAfter, hnone visited score after rfl] at hweights
    push_cast at hweights
    rw [div_eq_div_iff (by positivity) (by positivity)] at hweights
    have hproduct : (falsePositives visited : ℚ) * after.count (score, true) = 0 := by linarith
    exact Nat.cast_eq_zero.mp ((mul_eq_zero.mp hproduct).resolve_right (Nat.cast_ne_zero.mpr hafter))
  -- the negative follows it, and not in a tie
  rcases List.mem_append.mp (hperm.mem_iff.mpr hnegative) with hbefore' | hafter'
  · exact absurd hbefore' (falsePositives_eq_zero_iff.mp hclean other)
  · rcases List.mem_cons.mp hafter' with hsame | hlater
    · cases hsame
    · refine lt_of_le_of_ne ((List.pairwise_cons.mp (List.pairwise_append.mp hfalling).2.1).1 _ hlater) ?_
      rintro rfl
      exact absurd (List.count_pos_iff.mpr hlater) (by rw [hnone visited other after rfl]; decide)

/-- Positives first: a positive's own precision is at least that of its score, once positives of one score lie above
all negatives, and more when a negative of its score comes after. So no negative shares a score with a positive. -/
theorem OrderFree.unmixed {rows : List (Row α)} (h : OrderFree rows) {score : α} (hpositive : (score, true) ∈ rows) :
    (score, false) ∉ rows := by
  obtain ⟨arranged, hperm, hbefore⟩ := exists_arrangement true rows
  have hfalling := falling_of_before hbefore
  have hsums := h.sums_agree hperm hfalling (truePositives_ne_zero hpositive)
  have hsplit : ∀ visited score after, arranged = visited ++ (score, true) :: after →
      after.count (score, true) = 0 ∨ (falsePositives visited = 0 ∧ after.count (score, false) = 0) := by
    rintro visited score after rfl
    rcases Nat.eq_zero_or_pos (after.count (score, true)) with hsingle | htied
    · exact .inl hsingle
    · have htwo : 2 ≤ rows.count (score, true) := by
        rw [← hperm.count_eq, List.count_append, List.count_cons_self]
        omega
      have hbelow : ∀ other, (other, false) ∈ visited ++ (score, true) :: after → other < score :=
        fun other hin => h.repeated htwo (hperm.mem_iff.mp hin)
      refine .inr ⟨falsePositives_eq_zero_iff.mpr ?_, List.count_eq_zero.mpr ?_⟩
      · intro other hin
        have hle := (List.pairwise_append.mp hfalling).2.2 _ hin _ List.mem_cons_self
        exact absurd (hbelow other (List.mem_append_left _ hin)) (not_lt.mpr hle)
      · intro hin
        exact lt_irrefl score (hbelow score (List.mem_append_right _ (List.mem_cons_of_mem _ hin)))
  have hge : ∀ visited score after, arranged = visited ++ (score, true) :: after →
      precisionAt arranged score ≤ precisionAfter visited score := by
    rintro visited score after rfl
    rw [precisionAt_split hfalling, precisionAfter, div_le_div_iff₀ (by positivity) (by positivity)]
    rcases hsplit visited score after rfl with hsingle | ⟨hclean, hnone⟩
    · rw [hsingle]
      have hproduct : (0 : ℚ) ≤ (truePositives visited + 1) * after.count (score, false) := by positivity
      push_cast
      linarith
    · rw [hclean, hnone]
      push_cast
      linarith
  intro hnegative
  obtain ⟨visited, after, rfl⟩ := List.append_of_mem (hperm.mem_iff.mpr hpositive)
  have hweights := (sumOver_whole_le hge).2 hsums.symm visited score after rfl
  -- the negative of the score can only come after the positive
  have hlater : after.count (score, false) ≠ 0 := by
    rw [Ne, List.count_eq_zero, not_not]
    rcases List.mem_append.mp (hperm.mem_iff.mpr hnegative) with hvisited | hafter
    · exact absurd hvisited (not_mem_visited hbefore rfl (by simp))
    · rcases List.mem_cons.mp hafter with hsame | hafter
      · cases hsame
      · exact hafter
  rcases hsplit visited score after rfl with hsingle | ⟨_, hnone⟩
  · rw [precisionAt_split hfalling, precisionAfter, hsingle, div_eq_div_iff (by positivity) (by positivity)] at hweights
    push_cast at hweights
    have hproduct : ((truePositives visited : ℚ) + 1) * after.count (score, false) = 0 := by linarith
    rcases mul_eq_zero.mp hproduct with hzero | hzero
    · exact absurd hzero (by positivity)
    · exact hlater (Nat.cast_eq_zero.mp hzero)
  · exact hlater hnone

/-- **Which rows have an average precision of their own**: the value is the same for every order of the rows, and
the tie-aware one, exactly when no positive shares its score with a negative, nor with another positive unless they
lie above all negatives. -/
theorem order_free_iff (rows : List (Row α)) : OrderFree rows ↔ TiesHarmless rows := by
  constructor
  · intro h
    exact ⟨fun score hpositive => h.unmixed hpositive, fun score htwo other hnegative => h.repeated htwo hnegative⟩
  · exact TiesHarmless.orderFree

/-! ## Two rows of one score -/

/-- A positive and a negative of one score: the value is 1 in this order and 1/2 in the other. -/
theorem tied_rows_not_order_free : ¬OrderFree [((1 / 2 : ℚ), true), (1 / 2, false)] := by
  rintro ⟨result, hresult, _, hsame⟩
  have hvalue : averagePrecision [(1 / 2 : ℚ), 1 / 2] [true, false] = .ok ⟨1, 1 / 2, 1, 2⟩ := by decide +kernel
  have hswapped : averagePrecision [(1 / 2 : ℚ), 1 / 2] [false, true] = .ok ⟨1 / 2, 1 / 2, 1, 2⟩ := by decide +kernel
  have hother := hsame [(1 / 2, false), (1 / 2, true)] (List.Perm.swap _ _ _)
  have hfirst := hvalue.symm.trans hresult
  have hsecond := hswapped.symm.trans hother
  have hvalues := hfirst.trans hsecond.symm
  simp at hvalues

end Pirewall.Ml
