/-
# Pirewall.Ml.Threshold -- the operating threshold and its false-positive budget

`threshold_for_fpr` sorts the benign scores and takes an order statistic: with a budget of `allowed` rows, the score
at index `allowed` when low scores fire (`score < threshold`), the one at index `count - allowed` when high scores
do (`score >= threshold`). A budget of no row puts the threshold beyond the most extreme score instead.

Below its own index a sorted list has few scores, and above it many (`countP_le_of_ge`, `lt_countP_of_le`).
The strict test therefore stays within the budget whatever is tied. The other test fires on the threshold itself
and on all its ties, of which only those above the index are budgeted for.

The budget is computed in floats, `floor(target_fpr * count + 1e-12)` (`allowedRows`). Rounding is monotone and leaves
whole numbers as they are, so the budget is never less than the whole part of the exact product; it is more than the
product by no more than the tolerance and the two roundings (`allowedRows_bounds`).
-/
import Pirewall.Lib.Float

namespace Pirewall.Ml

open Lib

variable {α : Type} [LinearOrder α]

/-! ## Order statistics -/

/-- A predicate that fails from the `i`-th element of a sorted list on holds of at most `i`. -/
theorem countP_le_of_ge {l : List α} (hsorted : l.Pairwise (· ≤ ·)) {i : Nat} (hi : i < l.length) {p : α → Bool}
    (hp : ∀ x, l[i] ≤ x → p x = false) : l.countP p ≤ i := by
  have hlate : (l.drop i).countP p = 0 := by
    rw [List.countP_eq_zero]
    intro x hx
    rw [List.drop_eq_getElem_cons hi] at hx
    have hge : l[i] ≤ x := by
      rcases List.mem_cons.mp hx with rfl | hx
      · exact le_refl _
      · have htail := List.Pairwise.sublist (List.drop_sublist i l) hsorted
        rw [List.drop_eq_getElem_cons hi] at htail
        exact List.rel_of_pairwise_cons htail hx
    rw [hp x hge]
    decide
  rw [← List.take_append_drop i l, List.countP_append, hlate, Nat.add_zero]
  exact List.countP_le_length.trans (List.length_take_le i l)

/-- A predicate that holds up to the `i`-th element holds of more than `i`. -/
theorem lt_countP_of_le {l : List α} (hsorted : l.Pairwise (· ≤ ·)) {i : Nat} (hi : i < l.length) {p : α → Bool}
    (hp : ∀ x, x ≤ l[i] → p x = true) : i < l.countP p := by
  have hearly : (l.take (i + 1)).countP p = i + 1 := by
    have hall : (l.take (i + 1)).countP p = (l.take (i + 1)).length := by
      rw [List.countP_eq_length]
      intro x hx
      rw [List.take_succ_eq_append_getElem hi] at hx
      refine hp x ?_
      rcases List.mem_append.mp hx with hx | hx
      · have hhead := List.Pairwise.sublist (List.take_sublist (i + 1) l) hsorted
        rw [List.take_succ_eq_append_getElem hi] at hhead
        exact (List.pairwise_append.mp hhead).2.2 x hx _ (List.mem_singleton_self _)
      · exact (List.mem_singleton.mp hx).le
    rw [hall, List.length_take]
    omega
  rw [← List.take_append_drop (i + 1) l, List.countP_append, hearly]
  omega

/-! ## The code -/

/-- `math.nextafter` towards either infinity. -/
structure NextAfter (α : Type) where
  below : α → α
  above : α → α

/-- `ThresholdChoice`. -/
structure ThresholdChoice (α : Type) where
  threshold : α
  targetFpr : ℚ
  achievedFpr : ℚ
  benignRows : Nat
  benignFlagged : Nat
  deriving DecidableEq

inductive ThresholdError
  | valueError (message : String)
  | indexError
  deriving DecidableEq

/-- Indexing a Python list: a negative index counts from the end. -/
def pyIndex {β : Type} (l : List β) (i : Int) : Option β :=
  if 0 ≤ i then l[i.toNat]?
  else if 0 ≤ l.length + i then l[(l.length + i).toNat]?
  else none

/-- Whether a score fires at a threshold. -/
def fires (lowerIsAttack : Bool) (threshold score : α) : Bool :=
  if lowerIsAttack then score < threshold else threshold ≤ score

/-- The threshold that `threshold_for_fpr` takes from the sorted scores, `none` where the index is out of range. -/
def thresholdOf (nextAfter : NextAfter α) (ordered : List α) (allowed : Int) (lowerIsAttack : Bool) : Option α :=
  if lowerIsAttack then
    if allowed ≤ 0 then ordered.head?.map nextAfter.below else pyIndex ordered allowed
  else
    if allowed ≤ 0 then ordered.getLast?.map nextAfter.above else pyIndex ordered (ordered.length - allowed)

/-- `math.floor(target_fpr * count + 1e-12)`: the count becomes a float, and the product and the sum are rounded. -/
def allowedRows (targetFpr : ℚ) (count : Nat) : Int :=
  ⌊toDouble (toDouble (targetFpr * toDouble count) + toDouble (1 / 10 ^ 12))⌋

/-- `threshold_for_fpr`. -/
def thresholdForFpr (nextAfter : NextAfter α) (benignScores : List α) (targetFpr : ℚ) (lowerIsAttack : Bool) :
    Except ThresholdError (ThresholdChoice α) :=
  if benignScores.isEmpty then
    .error (.valueError "cannot choose an operating point without benign validation rows")
  else if ¬(0 ≤ targetFpr ∧ targetFpr < 1) then .error (.valueError "target_fpr must be in [0, 1)")
  else
    let ordered := benignScores.insertionSort (· ≤ ·)
    let count := ordered.length
    let allowed := allowedRows targetFpr count
    match thresholdOf nextAfter ordered allowed lowerIsAttack with
    | none => .error .indexError
    | some threshold =>
      let flagged := ordered.countP (fires lowerIsAttack threshold)
      .ok ⟨threshold, targetFpr, flagged / count, count, flagged⟩

/-! ## What a threshold is asked for -/

/-- How many of the scores fire. -/
def firing (lowerIsAttack : Bool) (scores : List α) (threshold : α) : Nat :=
  scores.countP (fires lowerIsAttack threshold)

/-- A threshold at which more may fire. -/
def MorePermissive (lowerIsAttack : Bool) (threshold other : α) : Prop :=
  if lowerIsAttack then other < threshold else threshold < other

/-- The choice reports what fires, keeps to the bound, and no score would be a more permissive threshold that does. -/
structure Operating (lowerIsAttack : Bool) (scores : List α) (bound : ℚ) (choice : ThresholdChoice α) : Prop where
  reported : choice.benignFlagged = firing lowerIsAttack scores choice.threshold
  within : (firing lowerIsAttack scores choice.threshold : ℚ) ≤ bound
  most : ∀ score ∈ scores, MorePermissive lowerIsAttack score choice.threshold →
    bound < firing lowerIsAttack scores score

/-- The choice fires on none of the scores: it is the float beyond the most extreme of them. -/
structure BeyondAll (nextAfter : NextAfter α) (lowerIsAttack : Bool) (scores : List α) (choice : ThresholdChoice α) :
    Prop where
  threshold : ∃ extreme ∈ scores, if lowerIsAttack then
      choice.threshold = nextAfter.below extreme ∧ ∀ score ∈ scores, extreme ≤ score
    else choice.threshold = nextAfter.above extreme ∧ ∀ score ∈ scores, score ≤ extreme
  reported : choice.benignFlagged = 0
  none : firing lowerIsAttack scores choice.threshold = 0

section

variable {scores : List α} {target : ℚ} {nextAfter : NextAfter α}

theorem ordered_sorted (scores : List α) : (scores.insertionSort (· ≤ ·)).Pairwise (· ≤ ·) :=
  List.pairwise_insertionSort _ scores

theorem ordered_perm (scores : List α) : (scores.insertionSort (· ≤ ·)).Perm scores :=
  List.perm_insertionSort _ scores

theorem firing_ordered (lowerIsAttack : Bool) (scores : List α) (threshold : α) :
    (scores.insertionSort (· ≤ ·)).countP (fires lowerIsAttack threshold) = firing lowerIsAttack scores threshold :=
  (ordered_perm scores).countP_eq _

/-- What fires at or above a threshold is what does not lie below it. -/
theorem firing_false_add_true (scores : List α) (threshold : α) :
    firing false scores threshold + firing true scores threshold = scores.length := by
  have hcomplement : firing false scores threshold =
      scores.countP fun score => decide ¬fires true threshold score = true := by
    refine List.countP_congr ?_
    intro score _
    simp [fires]
  rw [hcomplement, firing, Nat.add_comm]
  exact (List.length_eq_countP_add_countP _).symm

/-- Below a higher threshold lies everything below a score, and the score itself. -/
theorem firing_true_lt {score threshold : α} (hscore : score ∈ scores) (hlt : score < threshold) :
    firing true scores score < firing true scores threshold := by
  have hmono : ∀ l : List α, l.countP (fires true score) ≤ l.countP (fires true threshold) := by
    intro l
    refine List.countP_mono_left ?_
    intro other _ hother
    simp only [fires, if_true, decide_eq_true_eq] at hother ⊢
    exact hother.trans hlt
  obtain ⟨before, after, rfl⟩ := List.append_of_mem hscore
  have hself : fires true score score = false := by simp [fires]
  have hin : fires true threshold score = true := by simpa [fires] using hlt
  have hbefore := hmono before
  have hafter := hmono after
  simp only [firing, List.countP_append, List.countP_cons, hself, hin]
  simp only [Bool.false_eq_true, if_false, if_true]
  omega

/-! ## The budget -/

/-- The budget in rows against the exact product: not below its whole part, and above it by the tolerance and two
roundings at most. -/
theorem allowedRows_bounds {count : Nat} (htarget : 0 ≤ target ∧ target < 1) (hcount : count ≤ 2 ^ 53) :
    ⌊target * count⌋ ≤ allowedRows target count ∧
      (allowedRows target count : ℚ) ≤ (target * count + 1 / 10 ^ 12) * (1 + 1 / 2 ^ 51) := by
  have hproduct : 0 ≤ target * count := mul_nonneg htarget.1 (Nat.cast_nonneg count)
  have htolerance : (0 : ℚ) ≤ 1 / 10 ^ 12 := by norm_num
  unfold allowedRows
  rw [toDouble_natCast hcount]
  have hrounded : 0 ≤ toDouble (target * count) := toDouble_nonneg_iff.mpr hproduct
  have hadded : (0 : ℚ) ≤ toDouble (1 / 10 ^ 12) := toDouble_nonneg_iff.mpr htolerance
  constructor
  · -- the whole part is a float, so no rounding goes below it
    have hwhole : |⌊target * count⌋| ≤ 2 ^ 53 := by
      rw [abs_of_nonneg (Int.floor_nonneg.mpr hproduct)]
      have hle : target * count ≤ ((2 ^ 53 : Int) : ℚ) := by
        have hcast : (count : ℚ) ≤ 2 ^ 53 := by exact_mod_cast hcount
        push_cast
        nlinarith [htarget.2, Nat.cast_nonneg (α := ℚ) count]
      exact Int.cast_le.mp ((Int.floor_le _).trans hle)
    have hexact : toDouble ((⌊target * count⌋ : Int) : ℚ) = (⌊target * count⌋ : Int) := toDouble_intCast hwhole
    have hfirst : ((⌊target * count⌋ : Int) : ℚ) ≤ toDouble (target * count) := by
      rw [← hexact]
      exact toDouble_mono (Int.floor_le _)
    apply Int.le_floor.mpr
    rw [← hexact]
    exact toDouble_mono (hfirst.trans (le_add_of_nonneg_right hadded))
  · have hfirst := (abs_le.mp (toDouble_relative hproduct)).2
    have hsecond := (abs_le.mp (toDouble_relative htolerance)).2
    have hsum := (abs_le.mp (toDouble_relative (add_nonneg hrounded hadded))).2
    refine (Int.floor_le _).trans ?_
    linarith

/-! ## A budget of some rows -/

/-- Strict: the score at the budget's index, whatever is tied. -/
theorem operating_strict {i : Nat} (hi : i < (scores.insertionSort (· ≤ ·)).length) {choice : ThresholdChoice α}
    (hthreshold : choice.threshold = (scores.insertionSort (· ≤ ·))[i])
    (hreported : choice.benignFlagged = firing true scores choice.threshold) :
    Operating true scores i choice := by
  refine ⟨hreported, ?_, ?_⟩
  · rw [← firing_ordered, hthreshold, Nat.cast_le]
    refine countP_le_of_ge (ordered_sorted scores) hi ?_
    intro score hge
    simpa [fires] using hge
  · intro score hscore hpermissive
    have hlt : choice.threshold < score := hpermissive
    rw [hthreshold] at hlt
    rw [← firing_ordered, Nat.cast_lt]
    refine lt_countP_of_le (ordered_sorted scores) hi ?_
    intro other hle
    simpa [fires] using hle.trans_lt hlt

/-- Non-strict: when a score has exactly the budget at or above it, the score at the budget's index from the end is
that one. -/
theorem operating_inclusive {n : Nat} {cut : α} (hcut : cut ∈ scores) (hfiring : firing false scores cut = n)
    (hi : scores.length - n < (scores.insertionSort (· ≤ ·)).length) {choice : ThresholdChoice α}
    (hthreshold : choice.threshold = (scores.insertionSort (· ≤ ·))[scores.length - n])
    (hreported : choice.benignFlagged = firing false scores choice.threshold) :
    Operating false scores n choice := by
  have htotal := firing_false_add_true scores
  have hbelow : firing true scores cut = scores.length - n := by
    have hcount := htotal cut
    omega
  -- a score above the cut has the cut below it, and the index has no more below it than it says
  have hsame : choice.threshold = cut := by
    rcases lt_trichotomy choice.threshold cut with hlt | heq | hgt
    · have hmany : scores.length - n < firing true scores cut := by
        rw [← firing_ordered]
        refine lt_countP_of_le (ordered_sorted scores) hi ?_
        intro other hle
        rw [← hthreshold] at hle
        simpa [fires] using hle.trans_lt hlt
      omega
    · exact heq
    · have hfew : firing true scores choice.threshold ≤ scores.length - n := by
        rw [← firing_ordered]
        refine countP_le_of_ge (ordered_sorted scores) hi ?_
        intro other hge
        rw [← hthreshold] at hge
        simpa [fires] using hge
      have hmore := firing_true_lt hcut hgt
      omega
  refine ⟨hreported, ?_, ?_⟩
  · rw [hsame, hfiring]
  · intro score hscore hpermissive
    have hlt : score < cut := hsame ▸ hpermissive
    have hless := firing_true_lt hscore hlt
    have hcount := htotal score
    have hcount' := htotal cut
    rw [Nat.cast_lt]
    omega

/-! ## The choice -/

/-- With benign rows and a target below one, the threshold decides whether there is a choice. -/
theorem thresholdForFpr_eq (hne : scores ≠ []) (htarget : 0 ≤ target ∧ target < 1) {lowerIsAttack : Bool}
    {threshold : α} (hthreshold : thresholdOf nextAfter (scores.insertionSort (· ≤ ·))
      (allowedRows target scores.length) lowerIsAttack = some threshold) :
    ∃ choice, thresholdForFpr nextAfter scores target lowerIsAttack = .ok choice ∧
      choice.threshold = threshold ∧ choice.benignFlagged = firing lowerIsAttack scores choice.threshold := by
  have hempty : scores.isEmpty = false := by simpa using hne
  refine ⟨⟨threshold, target, firing lowerIsAttack scores threshold / scores.length, scores.length,
    firing lowerIsAttack scores threshold⟩, ?_, rfl, rfl⟩
  unfold thresholdForFpr
  simp only [hempty, Bool.false_eq_true, if_false, htarget, and_self, not_true_eq_false, List.length_insertionSort,
    hthreshold, firing_ordered]

theorem pyIndex_of_lt {β : Type} {l : List β} {i : Nat} (hi : i < l.length) : pyIndex l i = some l[i] := by
  rw [pyIndex, if_pos (Int.natCast_nonneg i), Int.toNat_natCast]
  exact List.getElem?_eq_getElem hi

/-- The least and the greatest of some scores, as the ends of the sorted list. -/
theorem head_ordered (hne : scores ≠ []) :
    ∃ least ∈ scores, (scores.insertionSort (· ≤ ·)).head? = some least ∧ ∀ score ∈ scores, least ≤ score := by
  cases hordered : scores.insertionSort (· ≤ ·) with
  | nil =>
    have hperm := ordered_perm scores
    rw [hordered] at hperm
    exact absurd hperm.symm.eq_nil hne
  | cons least rest =>
    have hmem : ∀ score, score ∈ scores ↔ score ∈ least :: rest := by
      intro score
      rw [← hordered]
      exact (ordered_perm scores).mem_iff.symm
    have hsorted := ordered_sorted scores
    rw [hordered] at hsorted
    refine ⟨least, (hmem least).mpr List.mem_cons_self, rfl, ?_⟩
    intro score hscore
    rcases List.mem_cons.mp ((hmem score).mp hscore) with rfl | hin
    · exact le_refl _
    · exact List.rel_of_pairwise_cons hsorted hin

theorem getLast_ordered (hne : scores ≠ []) :
    ∃ greatest ∈ scores, (scores.insertionSort (· ≤ ·)).getLast? = some greatest ∧
      ∀ score ∈ scores, score ≤ greatest := by
  have hperm := ordered_perm scores
  have hnonempty : scores.insertionSort (· ≤ ·) ≠ [] := by
    intro hnil
    rw [hnil] at hperm
    exact hne hperm.symm.eq_nil
  have hsplit := List.dropLast_append_getLast hnonempty
  have hsorted := ordered_sorted scores
  rw [← hsplit] at hsorted
  refine ⟨_, hperm.mem_iff.mp (List.getLast_mem hnonempty), List.getLast?_eq_getLast_of_ne_nil hnonempty, ?_⟩
  intro score hscore
  have hin : score ∈ _ := hperm.mem_iff.mpr hscore
  rw [← hsplit] at hin
  rcases List.mem_append.mp hin with hin | hin
  · exact (List.pairwise_append.mp hsorted).2.2 score hin _ (List.mem_singleton_self _)
  · exact (List.mem_singleton.mp hin).le

/-- A budget of no row: the float beyond the most extreme score. -/
theorem beyondAll_of_zero (hne : scores ≠ []) (htarget : 0 ≤ target ∧ target < 1)
    (hnext : ∀ score ∈ scores, nextAfter.below score < score ∧ score < nextAfter.above score)
    (hzero : allowedRows target scores.length ≤ 0) (lowerIsAttack : Bool) :
    ∃ choice, thresholdForFpr nextAfter scores target lowerIsAttack = .ok choice ∧
      choice.benignFlagged = firing lowerIsAttack scores choice.threshold ∧
      BeyondAll nextAfter lowerIsAttack scores choice := by
  cases lowerIsAttack with
  | true =>
    obtain ⟨least, hleast, hhead, hle⟩ := head_ordered hne
    have hthreshold : thresholdOf nextAfter (scores.insertionSort (· ≤ ·)) (allowedRows target scores.length) true =
        some (nextAfter.below least) := by
      rw [thresholdOf, if_pos rfl, if_pos hzero, hhead, Option.map_some]
    obtain ⟨choice, hchoice, hbelow, hreported⟩ := thresholdForFpr_eq hne htarget hthreshold
    have hnone : firing true scores choice.threshold = 0 := by
      rw [firing, List.countP_eq_zero]
      intro score hscore
      have hlt := (hnext least hleast).1.trans_le (hle score hscore)
      simpa [fires, hbelow] using hlt.le
    exact ⟨choice, hchoice, hreported, ⟨⟨least, hleast, hbelow, hle⟩, hreported.trans hnone, hnone⟩⟩
  | false =>
    obtain ⟨greatest, hgreatest, hlast, hle⟩ := getLast_ordered hne
    have hthreshold : thresholdOf nextAfter (scores.insertionSort (· ≤ ·)) (allowedRows target scores.length) false =
        some (nextAfter.above greatest) := by
      rw [thresholdOf, if_neg Bool.false_ne_true, if_pos hzero, hlast, Option.map_some]
    obtain ⟨choice, hchoice, habove, hreported⟩ := thresholdForFpr_eq hne htarget hthreshold
    have hnone : firing false scores choice.threshold = 0 := by
      rw [firing, List.countP_eq_zero]
      intro score hscore
      have hlt := (hle score hscore).trans_lt (hnext greatest hgreatest).2
      simpa [fires, habove] using hlt
    exact ⟨choice, hchoice, hreported, ⟨⟨greatest, hgreatest, habove, hle⟩, hreported.trans hnone, hnone⟩⟩

/-- **The operating threshold keeps to its budget** of `allowed` rows, the whole number of rows in
`target_fpr * n + 1e-12`: as many as `target_fpr * n` has, or one more where that is a hair below a whole number.
Without a row in the budget the threshold is the float beyond the most extreme score and fires on none. Otherwise it
is a score: the strict test keeps to the budget whatever is tied, the other one when the budget does not cut through
a tie; and no score is a more permissive threshold that does. -/
theorem threshold_keeps_budget (hne : scores ≠ []) (htarget : 0 ≤ target ∧ target < 1)
    (hnext : ∀ score ∈ scores, nextAfter.below score < score ∧ score < nextAfter.above score) :
    (scores.length ≤ 2 ^ 53 → ⌊target * scores.length⌋ ≤ allowedRows target scores.length ∧
      (allowedRows target scores.length : ℚ) ≤ (target * scores.length + 1 / 10 ^ 12) * (1 + 1 / 2 ^ 51)) ∧
    (allowedRows target scores.length ≤ 0 →
      (∃ choice, thresholdForFpr nextAfter scores target true = .ok choice ∧
        BeyondAll nextAfter true scores choice) ∧
      ∃ choice, thresholdForFpr nextAfter scores target false = .ok choice ∧
        BeyondAll nextAfter false scores choice ∧ Operating false scores 0 choice) ∧
    ∀ allowed : Nat, 0 < allowed → allowedRows target scores.length = allowed →
      (allowed < scores.length → ∃ choice,
        thresholdForFpr nextAfter scores target true = .ok choice ∧ Operating true scores allowed choice) ∧
      ((∃ cut ∈ scores, firing false scores cut = allowed) → ∃ choice,
        thresholdForFpr nextAfter scores target false = .ok choice ∧
          Operating false scores allowed choice) := by
  have hlength : (scores.insertionSort (· ≤ ·)).length = scores.length := List.length_insertionSort _ _
  refine ⟨allowedRows_bounds htarget, ?_, ?_⟩
  · intro hzero
    refine ⟨?_, ?_⟩
    · obtain ⟨choice, hchoice, _, hbeyond⟩ := beyondAll_of_zero hne htarget hnext hzero true
      exact ⟨choice, hchoice, hbeyond⟩
    · obtain ⟨choice, hchoice, hreported, hbeyond⟩ := beyondAll_of_zero hne htarget hnext hzero false
      refine ⟨choice, hchoice, hbeyond, hreported, by rw [hbeyond.none, Nat.cast_zero], ?_⟩
      -- every score fires at itself
      intro score hscore _
      have hself : 0 < firing false scores score :=
        List.countP_pos_iff.mpr ⟨score, hscore, by simp [fires]⟩
      exact Nat.cast_pos.mpr hself
  · intro allowed hpos hallowed
    have hsome : ¬((allowed : Int) ≤ 0) := by omega
    refine ⟨?_, ?_⟩
    -- low scores fire: the threshold is the first score over the budget
    · intro hlt
      have hi : allowed < (scores.insertionSort (· ≤ ·)).length := by omega
      have hthreshold : thresholdOf nextAfter (scores.insertionSort (· ≤ ·)) (allowedRows target scores.length) true =
          some (scores.insertionSort (· ≤ ·))[allowed] := by
        rw [thresholdOf, if_pos rfl, hallowed, if_neg hsome, pyIndex_of_lt hi]
      obtain ⟨choice, hchoice, hindex, hreported⟩ := thresholdForFpr_eq hne htarget hthreshold
      exact ⟨choice, hchoice, operating_strict hi hindex hreported⟩
    -- high scores fire: it is the last one within it
    · rintro ⟨cut, hcut, hfiring⟩
      have hle : allowed ≤ scores.length := hfiring ▸ List.countP_le_length
      have hi : scores.length - allowed < (scores.insertionSort (· ≤ ·)).length := by omega
      have hindex : ((scores.insertionSort (· ≤ ·)).length : Int) - allowed =
          ((scores.length - allowed : Nat) : Int) := by
        omega
      have hthreshold : thresholdOf nextAfter (scores.insertionSort (· ≤ ·)) (allowedRows target scores.length) false =
          some (scores.insertionSort (· ≤ ·))[scores.length - allowed] := by
        rw [thresholdOf, if_neg Bool.false_ne_true, hallowed, if_neg hsome, hindex, pyIndex_of_lt hi]
      obtain ⟨choice, hchoice, hindex, hreported⟩ := thresholdForFpr_eq hne htarget hthreshold
      exact ⟨choice, hchoice, operating_inclusive hcut hfiring hi hindex hreported⟩

end

/-! ## Concrete rows -/

/-- The floats next to `1/4` below and next to `1/2` above; every other score here is at least as far from its own. -/
def quarterNext : NextAfter ℚ := ⟨fun x => x - 1 / 2 ^ 55, fun x => x + 1 / 2 ^ 53⟩

/-- Four rows, two of them tied: a budget of two ends between scores. -/
def fourScores : List ℚ := [1 / 4, 1 / 4, 1 / 2, 3 / 4]

theorem threshold_keeps_budget_four :
    (∃ choice, thresholdForFpr quarterNext fourScores (1 / 2) true = .ok choice ∧
      Operating true fourScores 2 choice) ∧
    ∃ choice, thresholdForFpr quarterNext fourScores (1 / 2) false = .ok choice ∧
      Operating false fourScores 2 choice := by
  have hnext : ∀ score ∈ fourScores, quarterNext.below score < score ∧ score < quarterNext.above score := by
    intro score _
    exact ⟨sub_lt_self _ (by norm_num), lt_add_of_pos_right _ (by norm_num)⟩
  have hbudget : allowedRows (1 / 2) fourScores.length = ((2 : Nat) : Int) := by decide +kernel
  obtain ⟨hstrict, hinclusive⟩ := (threshold_keeps_budget (by decide : fourScores ≠ [])
    (by norm_num : (0 : ℚ) ≤ 1 / 2 ∧ (1 / 2 : ℚ) < 1) hnext).2.2 2 (by decide) hbudget
  exact ⟨hstrict (by decide), hinclusive ⟨1 / 2, by decide +kernel, by decide +kernel⟩⟩

/-- Ten rows with a score of their own. -/
def tenScores : List ℚ := [1, 2, 3, 4, 5, 6, 7, 8, 9, 10]

/-- The float written `0.3`, a little less than it. -/
def threeTenths : ℚ := 5404319552844595 / 2 ^ 54

/-- A target of zero: the threshold below both rows fires on none, and neither would the lower row. And a target of
`0.3`: three of ten rows fire, which is more than ten times the float. -/
theorem threshold_off_target :
    (∃ choice, thresholdForFpr quarterNext [1 / 4, 1 / 2] 0 true = .ok choice ∧
      ¬Operating true [1 / 4, 1 / 2] (0 * 2) choice) ∧
    ∃ choice, thresholdForFpr quarterNext tenScores threeTenths true = .ok choice ∧
      ¬Operating true tenScores (threeTenths * 10) choice := by
  refine ⟨⟨⟨1 / 4 - 1 / 2 ^ 55, 0, 0, 2, 0⟩, by decide +kernel, ?_⟩,
    ⟨⟨4, threeTenths, 3 / 10, 10, 3⟩, by decide +kernel, ?_⟩⟩
  · intro hoperating
    have hpermissive : MorePermissive true (1 / 4 : ℚ) (1 / 4 - 1 / 2 ^ 55) :=
      show (1 / 4 - 1 / 2 ^ 55 : ℚ) < 1 / 4 by norm_num
    have hmost := hoperating.most (1 / 4) List.mem_cons_self hpermissive
    have hnone : firing true [1 / 4, 1 / 2] (1 / 4 : ℚ) = 0 := by decide +kernel
    rw [hnone] at hmost
    norm_num at hmost
  · intro hoperating
    have hwithin := hoperating.within
    have hthree : firing true tenScores (4 : ℚ) = 3 := by decide +kernel
    rw [show firing true tenScores (⟨4, threeTenths, 3 / 10, 10, 3⟩ : ThresholdChoice ℚ).threshold = 3 from hthree]
      at hwithin
    norm_num [threeTenths] at hwithin

/-- A budget that cuts through a tie: the inclusive test fires on both rows. -/
example : (thresholdForFpr quarterNext [1 / 2, 1 / 2] (1 / 2) false).toOption.map
    ThresholdChoice.benignFlagged = some 2 := by decide +kernel

end Pirewall.Ml
