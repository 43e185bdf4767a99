/-
# Pirewall.Ml.StratifiedSplit -- a split that keeps every class

The rows of a class are shuffled and cut in three: first the test rows, then the validation rows, the rest for
training. The cuts are rounded, and clamped so that a training row is left. A class of one row is for training only.
The three lists are shuffled at the end.

What a class gives to each list depends on its size alone (`splitClass_lengths`), whatever the generator does. The
loop over the classes adds these up (`splitClasses_count`), and loses and repeats no row (`splitClasses_perm`).

The generator is a parameter of which it is known that it rearranges what it is given, and the arithmetic on fractions
is one of which the sign of a product is known. So a share of a class is some rounded product (`share`), and the sizes
of the parts are stated with it as it is: that a training row is left in every class comes from the clamps alone.

Counting is done for one class at a time. A class is where its rows agree on a label (`Uniform`), so that what a part
of it has of a label is its whole length or nothing (`countP_of_uniform`), and the counts of the three lists come out
of the lengths of the cuts.
-/
import Pirewall.Flow.Packet
import Pirewall.Lib.Dict
import Pirewall.Ml.AveragePrecision

namespace Pirewall.Ml

open Lib

/-! ## The code -/

/-- `random.Random`: a generator from a seed, and `shuffle`, which rearranges a list. -/
structure Random (σ : Type) where
  seeded : Int → σ
  shuffle : σ → List Nat → List Nat × σ
  shuffle_perm : ∀ rng rows, (shuffle rng rows).1.Perm rows

/-- Floats: a sum, and a float times an int. No product of two numbers that are not negative is negative. -/
structure FloatArith where
  sum : ℚ → ℚ → ℚ
  product : ℚ → Int → ℚ
  product_nonneg : ∀ {x n}, 0 ≤ x → 0 ≤ n → 0 ≤ product x n

/-- The three lists of row positions. -/
structure Parts where
  train : List Nat
  val : List Nat
  test : List Nat

/-- `round(n * fraction)`, which is not negative where the fraction is not. -/
def share (floats : FloatArith) (fraction : ℚ) (n : Nat) : Nat := (pyRound (floats.product fraction n)).toNat

def testSize (floats : FloatArith) (testFraction : ℚ) (n : Nat) : Nat :=
  if n ≤ 1 then 0 else min (share floats testFraction n) (n - 1)

def valSize (floats : FloatArith) (valFraction testFraction : ℚ) (n : Nat) : Nat :=
  if n ≤ 1 then 0 else min (share floats valFraction n) (n - 1 - testSize floats testFraction n)

/-- The rows of one class, shuffled, added to the three lists. -/
def splitClass (floats : FloatArith) (valFraction testFraction : ℚ) (parts : Parts) (shuffled : List Nat) : Parts :=
  let n := shuffled.length
  if n ≤ 1 then { parts with train := parts.train ++ shuffled }
  else
    let nTest := min (share floats testFraction n) (n - 1)
    let nVal := min (share floats valFraction n) (n - 1 - nTest)
    { test := parts.test ++ shuffled.take nTest
      val := parts.val ++ (shuffled.take (nTest + nVal)).drop nTest
      train := parts.train ++ shuffled.drop (nTest + nVal) }

/-- The loop over the classes. -/
def splitClasses {σ : Type} (random : Random σ) (floats : FloatArith) (valFraction testFraction : ℚ) :
    List (List Nat) → Parts × σ → Parts × σ
  | [], state => state
  | rows :: rest, (parts, rng) =>
    let (shuffled, rng) := random.shuffle rng rows
    splitClasses random floats valFraction testFraction rest
      (splitClass floats valFraction testFraction parts shuffled, rng)

/-- `by_label`: the positions of each label, in order. -/
def byLabel (labels : List String) : Dict String (List Nat) :=
  Dict.groupBy (fun i => labels.getD i "") (List.range labels.length)

/-- `split_indices_train_val_test`. -/
def splitIndicesTrainValTest {σ : Type} (random : Random σ) (floats : FloatArith) (labels : List String)
    (valFraction testFraction : ℚ) (seed : Int) : Except ValueError Parts :=
  if valFraction < 0 ∨ testFraction < 0 ∨ floats.sum valFraction testFraction ≥ 1 then
    .error ⟨"val_fraction and test_fraction must be >= 0 and sum to < 1.0"⟩
  else
    let (parts, rng) := splitClasses random floats valFraction testFraction (byLabel labels).values
      (⟨[], [], []⟩, random.seeded seed)
    let (train, rng) := random.shuffle rng parts.train
    let (val, rng) := random.shuffle rng parts.val
    let (test, _) := random.shuffle rng parts.test
    .ok ⟨train, val, test⟩

/-- `ThreeWaySplit`: the rows and labels of each part. -/
structure ThreeWaySplit (α : Type) where
  xTrain : List α
  yTrain : List String
  xVal : List α
  yVal : List String
  xTest : List α
  yTest : List String

/-- `[rows[i] for i in indices]`; no index of a split is out of range. -/
def gather {α : Type} (rows : List α) (indices : List Nat) : List α := indices.filterMap (rows[·]?)

/-- `split_train_val_test`. -/
def splitTrainValTest {σ α : Type} (random : Random σ) (floats : FloatArith) (features : List α) (labels : List String)
    (valFraction testFraction : ℚ) (seed : Int) : Except ValueError (ThreeWaySplit α) :=
  if valFraction < 0 ∨ testFraction < 0 ∨ floats.sum valFraction testFraction ≥ 1 then
    .error ⟨"val_fraction and test_fraction must be >= 0 and sum to < 1.0"⟩
  else if features.length ≠ labels.length then .error ⟨"features and labels must have the same length"⟩
  else do
    let parts ← splitIndicesTrainValTest random floats labels valFraction testFraction seed
    .ok ⟨gather features parts.train, gather labels parts.train, gather features parts.val, gather labels parts.val,
      gather features parts.test, gather labels parts.test⟩

/-! ## One class -/

section Class

def trainSize (floats : FloatArith) (valFraction testFraction : ℚ) (n : Nat) : Nat :=
  n - testSize floats testFraction n - valSize floats valFraction testFraction n

/-- The sizes make up the class, and leave a training row. -/
theorem sizes (floats : FloatArith) (valFraction testFraction : ℚ) (n : Nat) :
    trainSize floats valFraction testFraction n + valSize floats valFraction testFraction n +
      testSize floats testFraction n = n ∧ (0 < n → 0 < trainSize floats valFraction testFraction n) := by
  unfold trainSize valSize testSize
  split
  · omega
  · omega

/-- Two cuts make three parts. -/
theorem cut_in_three (rows : List Nat) (a b : Nat) :
    rows.take a ++ ((rows.take (a + b)).drop a ++ rows.drop (a + b)) = rows := by
  rw [List.drop_take, Nat.add_sub_cancel_left, ← List.drop_drop, List.take_append_drop, List.take_append_drop]

/-- What a class adds to the lists. -/
theorem splitClass_parts (floats : FloatArith) (valFraction testFraction : ℚ) (parts : Parts) (shuffled : List Nat) :
    ∃ train val test, splitClass floats valFraction testFraction parts shuffled =
        ⟨parts.train ++ train, parts.val ++ val, parts.test ++ test⟩ ∧
      test ++ (val ++ train) = shuffled ∧
      test.length = testSize floats testFraction shuffled.length ∧
      val.length = valSize floats valFraction testFraction shuffled.length := by
  unfold splitClass
  dsimp only
  split
  · rename_i hsmall
    refine ⟨shuffled, [], [], by simp, rfl, ?_, ?_⟩
    · exact (if_pos hsmall).symm
    · exact (if_pos hsmall).symm
  · rename_i hlarge
    have htest : testSize floats testFraction shuffled.length =
        min (share floats testFraction shuffled.length) (shuffled.length - 1) := if_neg hlarge
    have hval : valSize floats valFraction testFraction shuffled.length =
        min (share floats valFraction shuffled.length)
          (shuffled.length - 1 - testSize floats testFraction shuffled.length) := if_neg hlarge
    have hsizes := sizes floats valFraction testFraction shuffled.length
    rw [trainSize] at hsizes
    rw [← htest, ← hval]
    refine ⟨_, _, _, rfl, ?_, ?_, ?_⟩
    · exact cut_in_three _ _ _
    · rw [List.length_take]
      omega
    · rw [List.length_drop, List.length_take]
      omega

end Class

/-! ## All classes -/

section Classes

variable {σ : Type} {random : Random σ} {floats : FloatArith} {valFraction testFraction : ℚ}

/-- How many rows of each list meet a condition. -/
def Parts.count (parts : Parts) (p : Nat → Bool) : Nat × Nat × Nat :=
  (parts.train.countP p, parts.val.countP p, parts.test.countP p)

/-- What a class of rows gives to each list, if all of them meet the condition. -/
def given (floats : FloatArith) (valFraction testFraction : ℚ) (p : Nat → Bool) (rows : List Nat) : Nat × Nat × Nat :=
  if rows.all p then
    (trainSize floats valFraction testFraction rows.length, valSize floats valFraction testFraction rows.length,
      testSize floats testFraction rows.length)
  else (0, 0, 0)

/-- All rows meet the condition, or none does. -/
def Uniform (p : Nat → Bool) (rows : List Nat) : Prop := (∀ i ∈ rows, p i = true) ∨ ∀ i ∈ rows, ¬ p i = true

/-- Rows that agree on a label count as a whole, or not at all. -/
theorem countP_of_uniform {p : Nat → Bool} {rows part : List Nat} (h : Uniform p rows) (hsub : part ⊆ rows) :
    part.countP p = if rows.all p then part.length else 0 := by
  rcases h with hall | hnone
  · rw [if_pos (List.all_eq_true.mpr hall)]
    exact List.countP_eq_length.mpr fun i hi => hall i (hsub hi)
  · rw [List.countP_eq_zero.mpr fun i hi => hnone i (hsub hi)]
    split
    · rename_i hall
      -- no row at all
      have hnil : rows = [] := List.eq_nil_iff_forall_not_mem.mpr fun i hi =>
        hnone i hi (List.all_eq_true.mp hall i hi)
      subst hnil
      exact (List.length_eq_zero_iff.mpr (List.subset_nil.mp hsub)).symm
    · rfl

theorem splitClass_count (parts : Parts) {rows shuffled : List Nat} (hperm : shuffled.Perm rows) {p : Nat → Bool}
    (h : Uniform p rows) :
    (splitClass floats valFraction testFraction parts shuffled).count p =
      parts.count p + given floats valFraction testFraction p rows := by
  obtain ⟨train, val, test, heq, hsplit, htest, hval⟩ :=
    splitClass_parts floats valFraction testFraction parts shuffled
  have hsub : ∀ part, part ⊆ shuffled → part ⊆ rows := fun part hpart => List.Subset.trans hpart hperm.subset
  have htrain := countP_of_uniform h (hsub train (hsplit ▸ by simp))
  have hval' := countP_of_uniform h (hsub val (hsplit ▸ by simp))
  have htest' := countP_of_uniform h (hsub test (hsplit ▸ List.subset_append_left _ _))
  have hsizes := sizes floats valFraction testFraction rows.length
  have hlength := congrArg List.length hsplit
  rw [List.length_append, List.length_append, htest, hval, hperm.length_eq] at hlength
  rw [hperm.length_eq] at htest hval
  rw [heq, Parts.count, Parts.count, List.countP_append, List.countP_append, List.countP_append, htrain, hval', htest',
    htest, hval, given]
  have htrainLength : train.length = trainSize floats valFraction testFraction rows.length := by omega
  rw [htrainLength]
  split <;> rfl

/-- No row is lost or repeated. -/
theorem splitClasses_perm (random : Random σ) (floats : FloatArith) (valFraction testFraction : ℚ)
    (groups : List (List Nat)) (parts : Parts) (rng : σ) :
    let split := (splitClasses random floats valFraction testFraction groups (parts, rng)).1
    (split.test ++ (split.val ++ split.train)).Perm (parts.test ++ (parts.val ++ parts.train) ++ groups.flatten) := by
  induction groups generalizing parts rng with
  | nil =>
    dsimp only [splitClasses]
    rw [List.flatten_nil, List.append_nil]
  | cons rows rest ih =>
    obtain ⟨train, val, test, heq, hsplit, _, _⟩ :=
      splitClass_parts floats valFraction testFraction parts (random.shuffle rng rows).1
    have hrest := ih (splitClass floats valFraction testFraction parts (random.shuffle rng rows).1)
      (random.shuffle rng rows).2
    refine List.Perm.trans hrest ?_
    have hassoc : parts.test ++ (parts.val ++ parts.train) ++ (rows ++ rest.flatten) =
        (parts.test ++ (parts.val ++ parts.train) ++ rows) ++ rest.flatten := (List.append_assoc _ _ _).symm
    rw [heq, List.flatten_cons, hassoc]
    refine List.Perm.append_right _ ?_
    refine List.Perm.trans ?_ (List.Perm.append_left _ (random.shuffle_perm rng rows))
    rw [← hsplit]
    refine List.perm_iff_count.mpr fun i => ?_
    simp only [List.count_append]
    omega

/-- What the classes give to each list adds up. -/
theorem splitClasses_count (random : Random σ) (floats : FloatArith) (valFraction testFraction : ℚ)
    (groups : List (List Nat)) (parts : Parts) (rng : σ) {p : Nat → Bool} (h : ∀ rows ∈ groups, Uniform p rows) :
    (splitClasses random floats valFraction testFraction groups (parts, rng)).1.count p =
      parts.count p + (groups.map (given floats valFraction testFraction p)).sum := by
  induction groups generalizing parts rng with
  | nil => exact (add_zero _).symm
  | cons rows rest ih =>
    rw [splitClasses]
    dsimp only
    rw [ih _ _ fun g hg => h g (List.mem_cons_of_mem _ hg),
      splitClass_count parts (random.shuffle_perm rng rows) (h rows List.mem_cons_self), List.map_cons, List.sum_cons,
      add_assoc]

end Classes

/-! ## The classes of a label list -/

/-- The row has the label. -/
def isOf (labels : List String) (label : String) (i : Nat) : Bool := labels[i]? = some label

/-- The label of a row. -/
theorem isOf_iff {labels : List String} {label : String} {i : Nat} (hi : i < labels.length) :
    isOf labels label i = true ↔ labels.getD i "" = label := by
  rw [isOf, decide_eq_true_eq, List.getD_eq_getElem?_getD, List.getElem?_eq_getElem hi, Option.getD_some,
    Option.some_inj]

/-- The rows of a label. -/
def rowsOf (labels : List String) (label : String) : List Nat :=
  (List.range labels.length).filter (isOf labels label)

/-- A class has as many rows as its label occurs. -/
theorem length_rowsOf (labels : List String) (label : String) : (rowsOf labels label).length = labels.count label := by
  have hlabels : labels = (List.range labels.length).map fun i => labels.getD i "" := by
    refine List.ext_getElem (by simp) ?_
    intro i hi _
    simp [hi]
  conv_rhs => rw [hlabels]
  rw [rowsOf, ← List.countP_eq_length_filter, List.count, List.countP_map]
  refine List.countP_congr fun i hi => ?_
  rw [isOf_iff (List.mem_range.mp hi), Function.comp_apply, beq_iff_eq]

/-- The rows that are grouped under a label are those of its class. -/
theorem get?_byLabel {labels : List String} {label : String} {rows : List Nat}
    (h : (byLabel labels).get? label = some rows) : rows = rowsOf labels label := by
  have hgroup := Dict.getD_get?_groupBy (fun i => labels.getD i "") (List.range labels.length) label
  change ((byLabel labels).get? label).getD [] = _ at hgroup
  rw [h, Option.getD_some] at hgroup
  rw [hgroup]
  refine List.filter_congr fun i hi => ?_
  rw [Bool.eq_iff_iff, isOf_iff (List.mem_range.mp hi), decide_eq_true_eq]

theorem exists_get?_byLabel {labels : List String} {label : String} (h : label ∈ labels) :
    (byLabel labels).get? label = some (rowsOf labels label) := by
  obtain ⟨i, hi, hlabel⟩ := List.getElem_of_mem h
  have hkey : label ∈ (byLabel labels).keys :=
    (Dict.mem_keys_groupBy _).mpr ⟨i, List.mem_range.mpr hi, by simp [List.getD_eq_getElem?_getD, hi, hlabel]⟩
  obtain ⟨rows, hrows⟩ := Dict.mem_keys_iff.mp hkey
  rw [hrows, get?_byLabel hrows]

/-- No row of one label has another. -/
theorem not_isOf_of_mem_rowsOf {labels : List String} {label other : String} (hne : other ≠ label) {i : Nat}
    (hi : i ∈ rowsOf labels other) : ¬ isOf labels label i = true := by
  intro hlabel
  have hother := (List.mem_filter.mp hi).2
  rw [isOf, decide_eq_true_eq] at hother hlabel
  exact hne (Option.some.inj (hother.symm.trans hlabel))

theorem uniform_byLabel (labels : List String) (label : String) :
    ∀ rows ∈ (byLabel labels).values, Uniform (isOf labels label) rows := by
  intro rows hrows
  obtain ⟨other, hother⟩ := Dict.mem_values_iff.mp hrows
  rw [get?_byLabel hother]
  by_cases heq : other = label
  · subst heq
    exact Or.inl fun i hi => (List.mem_filter.mp hi).2
  · exact Or.inr fun i hi => not_isOf_of_mem_rowsOf heq hi

/-- Only the class of a label gives rows of that label. -/
theorem sum_given (floats : FloatArith) (valFraction testFraction : ℚ) {labels : List String} {label : String}
    (h : label ∈ labels) :
    ((byLabel labels).values.map (given floats valFraction testFraction (isOf labels label))).sum =
      (trainSize floats valFraction testFraction (labels.count label),
        valSize floats valFraction testFraction (labels.count label),
        testSize floats testFraction (labels.count label)) := by
  have hget := exists_get?_byLabel h
  have hothers : ∀ rows ∈ ((byLabel labels).erase label).values,
      given floats valFraction testFraction (isOf labels label) rows = 0 := by
    intro rows hrows
    obtain ⟨other, hother⟩ := Dict.mem_values_iff.mp hrows
    rw [Dict.get?_erase] at hother
    split at hother
    · cases hother
    · rename_i hne
      have hnone : ∀ i ∈ rows, ¬ isOf labels label i = true := by
        rw [get?_byLabel hother]
        exact fun i hi => not_isOf_of_mem_rowsOf hne hi
      rw [given]
      split
      · rename_i hall
        have hnil : rows = [] := List.eq_nil_iff_forall_not_mem.mpr fun i hi =>
          hnone i hi (List.all_eq_true.mp hall i hi)
        subst hnil
        rfl
      · rfl
  have hall : (rowsOf labels label).all (isOf labels label) = true :=
    List.all_eq_true.mpr fun i hi => (List.mem_filter.mp hi).2
  rw [((Dict.values_perm_of_some hget).map _).sum_eq, List.map_cons, List.sum_cons,
    List.sum_eq_zero fun x hx => by obtain ⟨rows, hrows, rfl⟩ := List.mem_map.mp hx; exact hothers rows hrows, add_zero,
    given, if_pos hall, length_rowsOf]

/-! ## The split -/

theorem not_rejected {floats : FloatArith} {valFraction testFraction : ℚ}
    (h : 0 ≤ valFraction ∧ 0 ≤ testFraction ∧ floats.sum valFraction testFraction < 1) :
    ¬ (valFraction < 0 ∨ testFraction < 0 ∨ floats.sum valFraction testFraction ≥ 1) := by
  rintro (hneg | hneg | hsum)
  · exact absurd hneg (not_lt.mpr h.1)
  · exact absurd hneg (not_lt.mpr h.2.1)
  · exact absurd h.2.2 (not_lt.mpr hsum)

/-- The indices of an admissible split: those of the loop over the classes, each list rearranged. -/
theorem splitIndices_eq {σ : Type} (random : Random σ) (floats : FloatArith) (labels : List String)
    {valFraction testFraction : ℚ} (seed : Int)
    (h : 0 ≤ valFraction ∧ 0 ≤ testFraction ∧ floats.sum valFraction testFraction < 1) :
    ∃ parts, splitIndicesTrainValTest random floats labels valFraction testFraction seed = .ok parts ∧
      (parts.test ++ (parts.val ++ parts.train)).Perm (List.range labels.length) ∧
      ∀ label ∈ labels, parts.count (isOf labels label) =
        (trainSize floats valFraction testFraction (labels.count label),
          valSize floats valFraction testFraction (labels.count label),
          testSize floats testFraction (labels.count label)) := by
  obtain ⟨⟨cut, rng⟩, hrun⟩ : ∃ state, state = splitClasses random floats valFraction testFraction
      (byLabel labels).values (⟨[], [], []⟩, random.seeded seed) := ⟨_, rfl⟩
  have hperm := splitClasses_perm random floats valFraction testFraction (byLabel labels).values ⟨[], [], []⟩
    (random.seeded seed)
  have hcount := fun label => splitClasses_count random floats valFraction testFraction (byLabel labels).values
    ⟨[], [], []⟩ (random.seeded seed) (uniform_byLabel labels label)
  rw [← hrun] at hperm hcount
  dsimp only at hperm
  rw [splitIndicesTrainValTest, if_neg (not_rejected h), ← hrun]
  refine ⟨_, rfl, ?_, ?_⟩
  · -- each list is rearranged, and together they are the rows of all classes
    refine List.Perm.trans ((random.shuffle_perm _ cut.test).append
      ((random.shuffle_perm _ cut.val).append (random.shuffle_perm _ cut.train))) (hperm.trans ?_)
    exact Dict.flatten_values_groupBy _ _
  · intro label hlabel
    have hcounts := hcount label
    rw [sum_given floats valFraction testFraction hlabel] at hcounts
    have hsame : ∀ parts : Parts, parts.train.Perm cut.train → parts.val.Perm cut.val → parts.test.Perm cut.test →
        parts.count (isOf labels label) = cut.count (isOf labels label) := by
      intro parts htrain hval htest
      rw [Parts.count, Parts.count, htrain.countP_eq, hval.countP_eq, htest.countP_eq]
    rw [hsame _ (random.shuffle_perm _ _) (random.shuffle_perm _ _) (random.shuffle_perm _ _)]
    exact hcounts.trans (zero_add _)

/-- Every admissible split is a partition of the rows. A class of two rows or more has as many test and validation
rows as its rounded and clamped shares, and no class is left without a training row. -/
theorem stratified_split_is_partition {σ : Type} (random : Random σ) (floats : FloatArith) (labels : List String)
    {valFraction testFraction : ℚ} (seed : Int)
    (h : 0 ≤ valFraction ∧ 0 ≤ testFraction ∧ floats.sum valFraction testFraction < 1) :
    ∃ parts, splitIndicesTrainValTest random floats labels valFraction testFraction seed = .ok parts ∧
      (parts.train ++ (parts.val ++ parts.test)).Perm (List.range labels.length) ∧
      (parts.train ++ (parts.val ++ parts.test)).Nodup ∧
      (∀ label, 2 ≤ labels.count label →
        (parts.test.countP (isOf labels label) : Int) =
          min (pyRound (floats.product testFraction (labels.count label))) (labels.count label - 1) ∧
        (parts.val.countP (isOf labels label) : Int) =
          min (pyRound (floats.product valFraction (labels.count label)))
            (labels.count label - 1 - parts.test.countP (isOf labels label))) ∧
      ∀ label ∈ labels, ∃ i ∈ parts.train, labels[i]? = some label := by
  obtain ⟨parts, hsplit, hperm, hcount⟩ := splitIndices_eq random floats labels seed h
  have hrows : (parts.train ++ (parts.val ++ parts.test)).Perm (List.range labels.length) := by
    refine List.Perm.trans (List.perm_iff_count.mpr fun i => ?_) hperm
    simp only [List.count_append]
    omega
  refine ⟨parts, hsplit, hrows, hrows.nodup_iff.mpr List.nodup_range, ?_, ?_⟩
  · intro label htwo
    obtain ⟨_, hvalTest⟩ := Prod.ext_iff.mp (hcount label (List.count_pos_iff.mp (by omega)))
    obtain ⟨hval, htest⟩ := Prod.ext_iff.mp hvalTest
    have hshare : ∀ {fraction : ℚ}, 0 ≤ fraction → (share floats fraction (labels.count label) : Int) =
        pyRound (floats.product fraction (labels.count label)) := fun hfraction =>
      Int.toNat_of_nonneg (pyRound_nonneg (floats.product_nonneg hfraction (Int.natCast_nonneg _)))
    have htestShare := hshare h.2.1
    have hvalShare := hshare h.1
    change parts.val.countP _ = valSize floats valFraction testFraction (labels.count label) at hval
    change parts.test.countP _ = testSize floats testFraction (labels.count label) at htest
    rw [← htestShare, ← hvalShare, hval, htest, valSize, testSize, if_neg (by omega), if_neg (by omega)]
    omega
  · intro label hlabel
    have htrain : parts.train.countP (isOf labels label) =
        trainSize floats valFraction testFraction (labels.count label) := congrArg Prod.fst (hcount label hlabel)
    have hpos := (sizes floats valFraction testFraction (labels.count label)).2 (List.count_pos_iff.mpr hlabel)
    obtain ⟨i, hi, hof⟩ := List.countP_pos_iff.mp (htrain ▸ hpos)
    exact ⟨i, hi, of_decide_eq_true hof⟩

/-- Half of a class of two is one test row; what is left of it, and the class of one, are for training. -/
theorem stratified_split_is_partition_small :
    ∃ parts, splitIndicesTrainValTest (⟨fun _ => (), fun _ rows => (rows, ()), fun _ rows => .refl rows⟩ : Random Unit)
      ⟨fun x y => x + y, fun x n => x * n, fun hx hn => mul_nonneg hx (Int.cast_nonneg hn)⟩ ["a", "a", "b"]
        (1 / 4) (1 / 2) 0 = .ok parts ∧ (parts.test.countP (isOf ["a", "a", "b"] "a") : Int) = 1 := by
  have hfractions : (0 : ℚ) ≤ 1 / 4 ∧ (0 : ℚ) ≤ 1 / 2 ∧ (1 / 4 : ℚ) + 1 / 2 < 1 := by norm_num
  obtain ⟨parts, hsplit, _, _, hsizes, _⟩ := stratified_split_is_partition
    (⟨fun _ => (), fun _ rows => (rows, ()), fun _ rows => .refl rows⟩ : Random Unit)
    ⟨fun x y => x + y, fun x n => x * n, fun hx hn => mul_nonneg hx (Int.cast_nonneg hn)⟩ ["a", "a", "b"] 0 hfractions
  refine ⟨parts, hsplit, (hsizes "a" (by decide)).1.trans ?_⟩
  decide +kernel

/-! ## The rows of a split -/

theorem gather_append {α : Type} (rows : List α) (first rest : List Nat) :
    gather rows (first ++ rest) = gather rows first ++ gather rows rest := List.filterMap_append

/-- A row keeps its label. -/
theorem gather_zip {α : Type} {features : List α} {labels : List String} (hlength : features.length = labels.length)
    {indices : List Nat} (h : ∀ i ∈ indices, i < labels.length) :
    (gather features indices).zip (gather labels indices) = gather (features.zip labels) indices := by
  induction indices with
  | nil => rfl
  | cons i rest ih =>
    have hi := h i List.mem_cons_self
    have hrest := ih fun j hj => h j (List.mem_cons_of_mem _ hj)
    have hzip : (features.zip labels)[i]? = some (features[i], labels[i]) := by
      rw [List.getElem?_eq_getElem (by simp; omega), List.getElem_zip]
    rw [gather, gather, gather, List.filterMap_cons_some (List.getElem?_eq_getElem (by omega)),
      List.filterMap_cons_some (List.getElem?_eq_getElem hi), List.filterMap_cons_some hzip, List.zip_cons_cons]
    exact congrArg ((features[i], labels[i]) :: ·) hrest

/-- All rows, in their order. -/
theorem gather_range {α : Type} (rows : List α) : gather rows (List.range rows.length) = rows := by
  induction rows using List.reverseRecOn with
  | nil => rfl
  | append_singleton rows row ih =>
    have hfirst : gather (rows ++ [row]) (List.range rows.length) = gather rows (List.range rows.length) :=
      List.filterMap_congr fun i hi => List.getElem?_append_left (List.mem_range.mp hi)
    have hlast : gather (rows ++ [row]) [rows.length] = [row] := by
      rw [gather, List.filterMap_cons_some List.getElem?_concat_length, List.filterMap_nil]
    rw [List.length_append, List.length_singleton, List.range_succ, gather_append, hfirst, ih, hlast]

/-- The labelled rows of the three parts are the labelled rows given, each as often. -/
theorem split_keeps_rows {σ α : Type} (random : Random σ) (floats : FloatArith) {features : List α}
    {labels : List String} {valFraction testFraction : ℚ} (seed : Int)
    (h : 0 ≤ valFraction ∧ 0 ≤ testFraction ∧ floats.sum valFraction testFraction < 1)
    (hlength : features.length = labels.length) :
    ∃ split, splitTrainValTest random floats features labels valFraction testFraction seed = .ok split ∧
      (split.xTest.zip split.yTest ++ (split.xVal.zip split.yVal ++ split.xTrain.zip split.yTrain)).Perm
        (features.zip labels) := by
  obtain ⟨parts, hsplit, hperm, _⟩ := splitIndices_eq random floats labels seed h
  have hin : ∀ part, part ⊆ parts.test ++ (parts.val ++ parts.train) → ∀ i ∈ part, i < labels.length :=
    fun part hpart i hi => List.mem_range.mp (hperm.subset (hpart hi))
  have hrows : splitTrainValTest random floats features labels valFraction testFraction seed =
      .ok ⟨gather features parts.train, gather labels parts.train, gather features parts.val, gather labels parts.val,
        gather features parts.test, gather labels parts.test⟩ := by
    rw [splitTrainValTest, if_neg (not_rejected h), if_neg (not_not.mpr hlength), hsplit]
    rfl
  refine ⟨_, hrows, ?_⟩
  dsimp only
  rw [gather_zip hlength (hin parts.test (by simp)), gather_zip hlength (hin parts.val (by simp)),
    gather_zip hlength (hin parts.train (by simp)), ← gather_append, ← gather_append]
  refine (hperm.filterMap _).trans ?_
  have hrange := gather_range (features.zip labels)
  rw [List.length_zip, hlength, Nat.min_self] at hrange
  exact List.Perm.of_eq hrange

end Pirewall.Ml
