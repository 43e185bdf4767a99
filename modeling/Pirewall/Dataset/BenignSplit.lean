/-
# Pirewall.Dataset.BenignSplit -- the temporal split of the benign rows

`_split_benign` of `scripts/dataset/build_dataset.py`: three boundaries cut the capture into four blocks, a
connection whose rows touch more than one block is dropped whole, and every other row goes to the split its
first packet lies in.

A connection is identified by its endpoints in the order the record names them, and a record names the sender of
its first packet as the source (`FlowState.opening`). A long connection that the active timeout cuts into
several records may therefore be two keys to the crossing test. `benign_splits_keep_connections_iff` says exactly
when a connection ends up in two splits; `benign_splits_separated` says that the splits are apart in time.
-/
import Pirewall.Flow.Packet
import Pirewall.Lib.Dict
import Mathlib.Data.Finset.Card
import Mathlib.Order.Interval.Finset.Nat

namespace Pirewall.Dataset

open Lib

/-! ## Rows and boundaries -/

/-- A row of `flows.csv`: the columns the split reads. The reader has checked that both times are integers, and
nothing else about them. -/
structure Row where
  sourceIp : String
  sourcePort : String
  destinationIp : String
  destinationPort : String
  protocol : String
  firstSeenUs : Int
  lastSeenUs : Int
  deriving DecidableEq

/-- What `_connection_key` returns, in its order. -/
structure ConnectionKey where
  sourceIp : String
  sourcePort : String
  destinationIp : String
  destinationPort : String
  protocol : String
  deriving DecidableEq

/-- `_connection_key`. -/
def connectionKey (row : Row) : ConnectionKey :=
  ⟨row.sourceIp, row.sourcePort, row.destinationIp, row.destinationPort, row.protocol⟩

/-- The key of the same endpoints, recorded from the other side. -/
def ConnectionKey.reversed (key : ConnectionKey) : ConnectionKey :=
  ⟨key.destinationIp, key.destinationPort, key.sourceIp, key.sourcePort, key.protocol⟩

/-- The three boundaries; `gap_end` and `test_start` are one. -/
structure Boundaries where
  trainEnd : Int
  validationEnd : Int
  gapEnd : Int
  deriving DecidableEq

namespace Boundaries

/-- `boundaries` of `_split_benign`. -/
def toList (boundaries : Boundaries) : List Int :=
  [boundaries.trainEnd, boundaries.validationEnd, boundaries.gapEnd]

/-- The block an instant lies in: how many boundaries it has passed. -/
def block (boundaries : Boundaries) (at' : Int) : Nat :=
  boundaries.toList.countP fun boundary => decide (boundary ≤ at')

end Boundaries

inductive SplitName
  | benignTrain
  | benignValidation
  | benignGap
  | benignTest
  deriving DecidableEq

namespace SplitName

def text : SplitName → String
  | .benignTrain => "benign_train"
  | .benignValidation => "benign_validation"
  | .benignGap => "benign_gap"
  | .benignTest => "benign_test"

end SplitName

/-- The split of a row that is kept: the `if` chain over its `first_seen_us`. -/
def splitOf (boundaries : Boundaries) (row : Row) : SplitName :=
  if row.firstSeenUs < boundaries.trainEnd then .benignTrain
  else if row.firstSeenUs < boundaries.validationEnd then .benignValidation
  else if row.firstSeenUs < boundaries.gapEnd then .benignGap
  else .benignTest

/-- Instants of one block have passed the same boundaries, wherever the three boundaries lie. -/
theorem passed_iff_of_block {boundaries : Boundaries} {s t : Int} (h : boundaries.block s = boundaries.block t) :
    ∀ boundary ∈ boundaries.toList, boundary ≤ s ↔ boundary ≤ t := by
  simp only [Boundaries.block, Boundaries.toList, List.countP_cons, List.countP_nil, decide_eq_true_eq] at h
  -- the count is monotone, so equal counts mean that no boundary lies between the two instants
  simp only [Boundaries.toList, List.mem_cons, List.not_mem_nil, or_false]
  rintro boundary (rfl | rfl | rfl) <;> split_ifs at h <;> omega

/-- Rows that start in one block start in one split. -/
theorem splitOf_eq_of_block {boundaries : Boundaries} {a b : Row}
    (h : boundaries.block a.firstSeenUs = boundaries.block b.firstSeenUs) :
    splitOf boundaries a = splitOf boundaries b := by
  have hsame := passed_iff_of_block h
  simp only [Boundaries.toList, List.mem_cons, List.not_mem_nil, or_false, forall_eq_or_imp, forall_eq] at hsame
  obtain ⟨htrain, hvalidation, hgap⟩ := hsame
  unfold splitOf
  simp only [← Int.not_le, htrain, hvalidation, hgap]

/-! ## Crossing connections -/

/-- `_row_blocks`: every block the interval of a row touches. A row that ends in an earlier block than it starts
in touches none. -/
def rowBlocks (row : Row) (boundaries : Boundaries) : Finset Nat :=
  Finset.Icc (boundaries.block row.firstSeenUs) (boundaries.block row.lastSeenUs)

/-- One turn of the loop of `_crossing_connections`. -/
def noteBlocks (boundaries : Boundaries) (blocks : Dict ConnectionKey (Finset Nat)) (row : Row) :
    Dict ConnectionKey (Finset Nat) :=
  blocks.set (connectionKey row) ((blocks.get? (connectionKey row)).getD ∅ ∪ rowBlocks row boundaries)

/-- The blocks of every connection. -/
def connectionBlocks (rows : List Row) (boundaries : Boundaries) : Dict ConnectionKey (Finset Nat) :=
  rows.foldl (noteBlocks boundaries) Dict.empty

/-- `_crossing_connections`. -/
def crossingConnections (rows : List Row) (boundaries : Boundaries) : List ConnectionKey :=
  ((connectionBlocks rows boundaries).filter fun _ found => decide (1 < found.card)).keys

theorem subset_noteBlocks (boundaries : Boundaries) (blocks : Dict ConnectionKey (Finset Nat)) (row : Row)
    (key : ConnectionKey) :
    (blocks.get? key).getD ∅ ⊆ ((noteBlocks boundaries blocks row).get? key).getD ∅ := by
  unfold noteBlocks
  rw [Dict.get?_set]
  split_ifs with hkey
  · subst hkey
    exact Finset.subset_union_left
  · exact Finset.Subset.refl _

theorem subset_foldl_noteBlocks (boundaries : Boundaries) (rows : List Row)
    (blocks : Dict ConnectionKey (Finset Nat)) (key : ConnectionKey) :
    (blocks.get? key).getD ∅ ⊆ ((rows.foldl (noteBlocks boundaries) blocks).get? key).getD ∅ := by
  induction rows generalizing blocks with
  | nil => exact Finset.Subset.refl _
  | cons row rows ih => exact (subset_noteBlocks boundaries blocks row key).trans (ih _)

/-- The loop loses no row: what a row touches is in its connection's blocks. -/
theorem rowBlocks_subset {rows : List Row} {boundaries : Boundaries} {row : Row} (hrow : row ∈ rows) :
    rowBlocks row boundaries ⊆
      ((connectionBlocks rows boundaries).get? (connectionKey row)).getD ∅ := by
  obtain ⟨before, after, rfl⟩ := List.append_of_mem hrow
  unfold connectionBlocks
  rw [List.foldl_append, List.foldl_cons]
  refine Finset.Subset.trans ?_ (subset_foldl_noteBlocks boundaries after _ _)
  unfold noteBlocks
  rw [Dict.get?_set, if_pos rfl]
  exact Finset.subset_union_right

/-- A connection that is not dropped touches at most one block. -/
theorem card_blocks_le {rows : List Row} {boundaries : Boundaries} {key : ConnectionKey}
    (hkept : key ∉ crossingConnections rows boundaries) :
    (((connectionBlocks rows boundaries).get? key).getD ∅).card ≤ 1 := by
  cases hfound : (connectionBlocks rows boundaries).get? key with
  | none => exact Nat.zero_le 1
  | some found =>
    by_contra hcard
    apply hkept
    rw [crossingConnections, Dict.mem_keys_iff]
    refine ⟨found, ?_⟩
    rw [← Dict.mem_entries_iff]
    exact List.mem_filter.mpr ⟨Dict.mem_entries_iff.mpr hfound,
      decide_eq_true (not_le.mp hcard)⟩

/-- Two rows of one kept key start in one block, when each ends no earlier than it starts. -/
theorem block_eq_of_kept {rows : List Row} {boundaries : Boundaries} {a b : Row} (ha : a ∈ rows) (hb : b ∈ rows)
    (hkey : connectionKey a = connectionKey b) (hkept : connectionKey a ∉ crossingConnections rows boundaries)
    (hforward : boundaries.block a.firstSeenUs ≤ boundaries.block a.lastSeenUs)
    (hforward' : boundaries.block b.firstSeenUs ≤ boundaries.block b.lastSeenUs) :
    boundaries.block a.firstSeenUs = boundaries.block b.firstSeenUs := by
  have hin : boundaries.block a.firstSeenUs ∈
      ((connectionBlocks rows boundaries).get? (connectionKey a)).getD ∅ :=
    rowBlocks_subset ha (Finset.mem_Icc.mpr ⟨le_refl _, hforward⟩)
  have hin' : boundaries.block b.firstSeenUs ∈
      ((connectionBlocks rows boundaries).get? (connectionKey a)).getD ∅ := by
    rw [hkey]
    exact rowBlocks_subset hb (Finset.mem_Icc.mpr ⟨le_refl _, hforward'⟩)
  exact Finset.card_le_one.mp (card_blocks_le hkept) _ hin _ hin'

/-! ## The split -/

/-- What the split does in floating point, as far as it is not the exact result rounded: a float times an int,
and the two numbers in its message. -/
structure Floats where
  product : ℚ → Int → ℚ
  /-- A quotient with three decimals (`:.3f`). -/
  fixed : Int → Int → String
  /-- `:g`. -/
  general : ℚ → String

/-- `DatasetError`, with its message. -/
structure DatasetError where
  message : String
  deriving DecidableEq

/-- The first `first_seen_us` of the rows. -/
def firstUs (rows : List Row) : Int := ((rows.map Row.firstSeenUs).min?).getD 0

/-- The last `last_seen_us` of the rows. -/
def lastUs (rows : List Row) : Int := ((rows.map Row.lastSeenUs).max?).getD 0

/-- `gap_us`. -/
def gapUs (floats : Floats) (gapHours : ℚ) : Int := pyRound (floats.product gapHours 3600000000)

/-- The boundaries of a capture: 60% and 75% of the usable span, and the gap after the second. -/
def benignBoundaries (floats : Floats) (rows : List Row) (gapHours : ℚ) : Boundaries :=
  let usable := lastUs rows - firstUs rows - gapUs floats gapHours
  let validationEnd := firstUs rows + pyRound (floats.product (75 / 100) usable)
  ⟨firstUs rows + pyRound (floats.product (60 / 100) usable), validationEnd,
    validationEnd + gapUs floats gapHours⟩

/-- The `bounds` that are reported. -/
structure Bounds where
  firstUs : Int
  lastUs : Int
  trainEndUs : Int
  validationEndUs : Int
  gapEndUs : Int
  testStartUs : Int
  gapUs : Int
  droppedCrossingConnections : Nat
  deriving DecidableEq

/-- The splits: the rows under each name. -/
abbrev Splits := SplitName → List Row

/-- One turn of the loop that hands out the rows. -/
def place (boundaries : Boundaries) (droppedKeys : List ConnectionKey) (splits : Splits) (row : Row) : Splits :=
  if connectionKey row ∈ droppedKeys then splits
  else Function.update splits (splitOf boundaries row) (splits (splitOf boundaries row) ++ [row])

/-- `_split_benign`. -/
def splitBenign (floats : Floats) (rows : List Row) (gapHours : ℚ) :
    Except DatasetError (Splits × Bounds × Nat) :=
  if rows.isEmpty then .error ⟨"no benign rows"⟩
  else
    let gap := gapUs floats gapHours
    let span := lastUs rows - firstUs rows
    if span ≤ gap then
      .error ⟨"benign span " ++ floats.fixed span 3600000000 ++ " h is not longer than the " ++
        floats.general gapHours ++ " h gap; capture more benign traffic"⟩
    else
      let boundaries := benignBoundaries floats rows gapHours
      let droppedKeys := crossingConnections rows boundaries
      let splits := rows.foldl (place boundaries droppedKeys) fun _ => []
      match [SplitName.benignTrain, .benignValidation, .benignTest].find? (fun name => (splits name).isEmpty) with
      | some name =>
        .error ⟨name.text ++ " is empty after the temporal/gap split; capture more benign traffic " ++
          "or shorten --benign-gap-hours"⟩
      | none =>
        .ok (splits, ⟨firstUs rows, lastUs rows, boundaries.trainEnd, boundaries.validationEnd,
          boundaries.gapEnd, boundaries.gapEnd, gap, droppedKeys.length⟩, droppedKeys.length)

theorem place_apply (boundaries : Boundaries) (droppedKeys : List ConnectionKey) (splits : Splits) (row : Row)
    (name : SplitName) :
    place boundaries droppedKeys splits row name =
      splits name ++
        [row].filter fun row => decide (connectionKey row ∉ droppedKeys ∧ splitOf boundaries row = name) := by
  unfold place
  split_ifs with hdropped
  · simp [hdropped]
  · by_cases hname : splitOf boundaries row = name
    · subst hname
      simp [hdropped]
    · rw [Function.update_of_ne (Ne.symm hname)]
      simp [hname]

/-- The rows of a split: the rows of the kept connections that start in it, in their order. -/
theorem foldl_place (boundaries : Boundaries) (droppedKeys : List ConnectionKey) (rows : List Row)
    (splits : Splits) (name : SplitName) :
    rows.foldl (place boundaries droppedKeys) splits name =
      splits name ++
        rows.filter fun row => decide (connectionKey row ∉ droppedKeys ∧ splitOf boundaries row = name) := by
  induction rows generalizing splits with
  | nil => exact (List.append_nil _).symm
  | cons row rows ih =>
    rw [List.foldl_cons, ih, place_apply, List.append_assoc, ← List.filter_append, List.singleton_append]

/-- What a split that succeeds has done: the usable span is positive, and every split is the kept rows that start
in it. -/
structure SplitResult (floats : Floats) (rows : List Row) (gapHours : ℚ) (splits : Splits) (bounds : Bounds) :
    Prop where
  usable : 0 < lastUs rows - firstUs rows - gapUs floats gapHours
  splits : ∀ name, splits name = rows.filter fun row =>
    decide (connectionKey row ∉ crossingConnections rows (benignBoundaries floats rows gapHours) ∧
      splitOf (benignBoundaries floats rows gapHours) row = name)
  validationEnd : bounds.validationEndUs = (benignBoundaries floats rows gapHours).validationEnd
  gap : bounds.gapUs = gapUs floats gapHours

theorem splitBenign_ok {floats : Floats} {rows : List Row} {gapHours : ℚ} {splits : Splits} {bounds : Bounds}
    {dropped : Nat} (hsplit : splitBenign floats rows gapHours = .ok (splits, bounds, dropped)) :
    SplitResult floats rows gapHours splits bounds := by
  unfold splitBenign at hsplit
  simp only at hsplit
  split_ifs at hsplit with hempty hspan
  split at hsplit
  · cases hsplit
  · simp only [Except.ok.injEq, Prod.mk.injEq] at hsplit
    obtain ⟨rfl, rfl, _⟩ := hsplit
    refine ⟨by omega, ?_, rfl, rfl⟩
    intro name
    rw [foldl_place]
    exact List.nil_append _

/-- A row of a split: an input row of a kept connection that starts in it. -/
theorem mem_splitBenign {floats : Floats} {rows : List Row} {gapHours : ℚ} {splits : Splits} {bounds : Bounds}
    {dropped : Nat} (hsplit : splitBenign floats rows gapHours = .ok (splits, bounds, dropped)) {row : Row}
    {name : SplitName} :
    row ∈ splits name ↔
      row ∈ rows ∧ connectionKey row ∉ crossingConnections rows (benignBoundaries floats rows gapHours) ∧
        splitOf (benignBoundaries floats rows gapHours) row = name := by
  rw [(splitBenign_ok hsplit).splits, List.mem_filter, decide_eq_true_eq]

/-! ## Separation in time -/

/-- A product is that of its operands as floats, rounded: rounding to a float is monotone and keeps zero. -/
def Floats.RoundsProducts (floats : Floats) : Prop :=
  ∃ float : ℚ → ℚ, Monotone float ∧ float 0 = 0 ∧ ∀ c n, floats.product c n = float (float c * float n)

theorem Floats.RoundsProducts.product_le {floats : Floats} (h : floats.RoundsProducts) {c c' : ℚ} (hc : c ≤ c')
    {n : Int} (hn : 0 ≤ n) : floats.product c n ≤ floats.product c' n := by
  obtain ⟨float, hmono, hzero, hproduct⟩ := h
  have hn' : 0 ≤ float n := hzero ▸ hmono (Int.cast_nonneg hn)
  rw [hproduct, hproduct]
  exact hmono (mul_le_mul_of_nonneg_right (hmono hc) hn')

/-- Training ends no later than validation. -/
theorem trainEnd_le_validationEnd {floats : Floats} (hfloats : floats.RoundsProducts) {rows : List Row}
    {gapHours : ℚ} (husable : 0 < lastUs rows - firstUs rows - gapUs floats gapHours) :
    (benignBoundaries floats rows gapHours).trainEnd ≤ (benignBoundaries floats rows gapHours).validationEnd := by
  have hproduct := hfloats.product_le (show (60 / 100 : ℚ) ≤ 75 / 100 by norm_num) husable.le
  exact Int.add_le_add_left (pyRound_mono hproduct) _

/-- A kept row that ends no earlier than it starts ends before every boundary it starts before. -/
theorem last_lt_of_kept {rows : List Row} {boundaries : Boundaries} {row : Row} (hrow : row ∈ rows)
    (hforward : row.firstSeenUs ≤ row.lastSeenUs) (hkept : connectionKey row ∉ crossingConnections rows boundaries)
    {boundary : Int} (hboundary : boundary ∈ boundaries.toList) (hfirst : row.firstSeenUs < boundary) :
    row.lastSeenUs < boundary := by
  have hmono : boundaries.block row.firstSeenUs ≤ boundaries.block row.lastSeenUs := by
    refine List.countP_mono_left ?_
    intro boundary _ hpassed
    exact decide_eq_true ((of_decide_eq_true hpassed).trans hforward)
  -- both ends of the row are blocks of its connection, which touches one block only
  have hfound : rowBlocks row boundaries ⊆ _ := rowBlocks_subset hrow
  have hblock := Finset.card_le_one.mp (card_blocks_le hkept) _ (hfound (Finset.left_mem_Icc.mpr hmono)) _
    (hfound (Finset.right_mem_Icc.mpr hmono))
  have hpassed := passed_iff_of_block hblock boundary hboundary
  omega

/-- The splits are separated in time. -/
structure SeparatedInTime (splits : Splits) (bounds : Bounds) : Prop where
  training : ∀ a ∈ splits .benignTrain, ∀ name ≠ .benignTrain, ∀ b ∈ splits name, a.lastSeenUs < b.firstSeenUs
  validation : ∀ a ∈ splits .benignValidation, a.lastSeenUs < bounds.validationEndUs
  test : ∀ a, a ∈ splits .benignTrain ∨ a ∈ splits .benignValidation → ∀ b ∈ splits .benignTest,
    a.lastSeenUs + bounds.gapUs ≤ b.firstSeenUs

/-- Every input row is of a dropped connection and in no split, or in exactly one split, as often as in the input;
and the splits have no other rows. -/
structure EachRowOnce (rows : List Row) (droppedKeys : List ConnectionKey) (splits : Splits) : Prop where
  dropped : ∀ row ∈ rows, connectionKey row ∈ droppedKeys → ∀ name, row ∉ splits name
  kept : ∀ row ∈ rows, connectionKey row ∉ droppedKeys →
    ∃ name, (splits name).count row = rows.count row ∧ ∀ other ≠ name, row ∉ splits other
  only : ∀ name, ∀ row ∈ splits name, row ∈ rows

/-- **The benign splits are separated in time**, when no row ends before it starts: training ends before anything
else starts, validation before its end, and the test block starts a gap after both. Every row is in one split, or
its connection was dropped. -/
theorem benign_splits_separated {floats : Floats} (hfloats : floats.RoundsProducts) {rows : List Row}
    (hforward : ∀ row ∈ rows, row.firstSeenUs ≤ row.lastSeenUs) {gapHours : ℚ} {splits : Splits} {bounds : Bounds}
    {dropped : Nat} (hsplit : splitBenign floats rows gapHours = .ok (splits, bounds, dropped)) :
    SeparatedInTime splits bounds ∧
      EachRowOnce rows (crossingConnections rows (benignBoundaries floats rows gapHours)) splits := by
  have hresult := splitBenign_ok hsplit
  have horder := trainEnd_le_validationEnd hfloats hresult.usable
  have hgapEnd : (benignBoundaries floats rows gapHours).gapEnd =
    (benignBoundaries floats rows gapHours).validationEnd + gapUs floats gapHours := rfl
  have hvalidationEnd := hresult.validationEnd
  have hgap := hresult.gap
  have hsplits := hresult.splits
  have hmem : ∀ {row : Row} {name : SplitName}, row ∈ splits name → _ := fun hrow => (mem_splitBenign hsplit).mp hrow
  clear hresult
  generalize benignBoundaries floats rows gapHours = boundaries at *
  -- where the rows of each split start and end
  have htrain : ∀ a ∈ splits .benignTrain, a.lastSeenUs < boundaries.trainEnd := by
    intro a ha
    obtain ⟨harow, hkept, hname⟩ := hmem ha
    refine last_lt_of_kept harow (hforward a harow) hkept List.mem_cons_self ?_
    unfold splitOf at hname
    split_ifs at hname with hfirst
    exact hfirst
  have hvalidation : ∀ a ∈ splits .benignValidation, a.lastSeenUs < boundaries.validationEnd := by
    intro a ha
    obtain ⟨harow, hkept, hname⟩ := hmem ha
    refine last_lt_of_kept harow (hforward a harow) hkept (List.mem_cons_of_mem _ List.mem_cons_self) ?_
    unfold splitOf at hname
    split_ifs at hname with _ hfirst
    exact hfirst
  have htest : ∀ b ∈ splits .benignTest, boundaries.gapEnd ≤ b.firstSeenUs := by
    intro b hb
    obtain ⟨_, _, hname⟩ := hmem hb
    unfold splitOf at hname
    split_ifs at hname with _ _ hfirst
    exact Int.not_lt.mp hfirst
  refine ⟨⟨?_, ?_, ?_⟩, ⟨?_, ?_, ?_⟩⟩
  · intro a ha name hother b hb
    have hlast := htrain a ha
    have hfirst : boundaries.trainEnd ≤ b.firstSeenUs := by
      by_contra hlt
      obtain ⟨_, _, hname⟩ := hmem hb
      rw [splitOf, if_pos (not_le.mp hlt)] at hname
      exact hother hname.symm
    omega
  · intro a ha
    have hlast := hvalidation a ha
    omega
  · intro a ha b hb
    have hfirst := htest b hb
    rcases ha with ha | ha
    · have hlast := htrain a ha
      omega
    · have hlast := hvalidation a ha
      omega
  · intro row _ hdropped name hin
    exact (hmem hin).2.1 hdropped
  · intro row _ hkept
    refine ⟨splitOf boundaries row, ?_, ?_⟩
    · rw [hsplits]
      exact List.count_filter (decide_eq_true ⟨hkept, rfl⟩)
    · intro other hother hin
      exact hother (hmem hin).2.2.symm
  · intro name row hin
    exact (hmem hin).1

/-! ## Connections -/

/-- The row is about a TCP or UDP connection. -/
def Row.Transport (row : Row) : Prop := row.protocol = "tcp" ∨ row.protocol = "udp"

/-- One connection: the same protocol and the same two endpoints, whichever the row names as its source. -/
def SameConnection (a b : Row) : Prop :=
  connectionKey b = connectionKey a ∨ connectionKey b = (connectionKey a).reversed

/-- No TCP or UDP connection has rows in two splits. -/
def KeepConnections (splits : Splits) : Prop :=
  ∀ a b name name', a ∈ splits name → b ∈ splits name' → a.Transport → SameConnection a b → name = name'

/-- The rows the crossing test does not link although they are of one connection start in one split: rows of two
keys that are each other's reverse, and rows of one key of which one ends in an earlier block than it starts.
Rows of a connection that is dropped do not matter. -/
structure UnlinkedRowsAgree (rows : List Row) (boundaries : Boundaries) : Prop where
  reversed : ∀ a ∈ rows, ∀ b ∈ rows, a.Transport → connectionKey b = (connectionKey a).reversed →
    connectionKey a ∉ crossingConnections rows boundaries →
    connectionKey b ∉ crossingConnections rows boundaries → splitOf boundaries a = splitOf boundaries b
  backward : ∀ a ∈ rows, ∀ b ∈ rows, a.Transport → connectionKey b = connectionKey a →
    connectionKey a ∉ crossingConnections rows boundaries →
    boundaries.block a.lastSeenUs < boundaries.block a.firstSeenUs → splitOf boundaries a = splitOf boundaries b

/-- Rows of one key that is not dropped start in one split, given that of the backward ones. -/
theorem UnlinkedRowsAgree.of_key {rows : List Row} {boundaries : Boundaries}
    (h : UnlinkedRowsAgree rows boundaries) {a b : Row} (ha : a ∈ rows) (hb : b ∈ rows) (htransport : a.Transport)
    (hkey : connectionKey b = connectionKey a) (hkept : connectionKey a ∉ crossingConnections rows boundaries) :
    splitOf boundaries a = splitOf boundaries b := by
  rcases Nat.lt_or_ge (boundaries.block a.lastSeenUs) (boundaries.block a.firstSeenUs) with hback | hforward
  · exact h.backward a ha b hb htransport hkey hkept hback
  rcases Nat.lt_or_ge (boundaries.block b.lastSeenUs) (boundaries.block b.firstSeenUs) with hback | hforward'
  · have hprotocol : b.protocol = a.protocol := congrArg ConnectionKey.protocol hkey
    have htransport' : b.Transport := by
      unfold Row.Transport
      rw [hprotocol]
      exact htransport
    exact (h.backward b hb a ha htransport' hkey.symm (hkey ▸ hkept) hback).symm
  · exact splitOf_eq_of_block (block_eq_of_kept ha hb hkey.symm hkept hforward hforward')

/-- A split that succeeds keeps every connection within one split exactly when the rows its crossing test does
not link happen to agree. -/
theorem benign_splits_keep_connections_iff (floats : Floats) {rows : List Row} {gapHours : ℚ} {splits : Splits}
    {bounds : Bounds} {dropped : Nat}
    (hsplit : splitBenign floats rows gapHours = .ok (splits, bounds, dropped)) :
    KeepConnections splits ↔ UnlinkedRowsAgree rows (benignBoundaries floats rows gapHours) := by
  constructor
  · intro hkeep
    refine ⟨?_, ?_⟩
    · intro a ha b hb htransport hkey hkept hkept'
      exact hkeep a b _ _ ((mem_splitBenign hsplit).mpr ⟨ha, hkept, rfl⟩)
        ((mem_splitBenign hsplit).mpr ⟨hb, hkept', rfl⟩) htransport (.inr hkey)
    · intro a ha b hb htransport hkey hkept _
      exact hkeep a b _ _ ((mem_splitBenign hsplit).mpr ⟨ha, hkept, rfl⟩)
        ((mem_splitBenign hsplit).mpr ⟨hb, by rw [hkey]; exact hkept, rfl⟩) htransport (.inl hkey)
  · intro hagree a b name name' ha hb htransport hsame
    obtain ⟨harow, hkept, rfl⟩ := (mem_splitBenign hsplit).mp ha
    obtain ⟨hbrow, hkept', rfl⟩ := (mem_splitBenign hsplit).mp hb
    rcases hsame with hkey | hkey
    · exact hagree.of_key harow hbrow htransport hkey hkept
    · exact hagree.reversed a harow b hbrow htransport hkey hkept hkept'

/-! ## A connection in two splits -/

/-- An hour of microseconds. -/
def hourUs : Int := 3600000000

/-- Products that are exact, which those below are. -/
def exactFloats : Floats := ⟨fun c n => c * n, fun _ _ => "", fun _ => ""⟩

/-- A connection of 21 hours, idle between its records: the client sent the first packet of one record, the server
that of the next. -/
def longConnection : List Row :=
  [⟨"10.0.0.2", "50000", "1.1.1.1", "443", "tcp", 0, 60000000⟩,
    ⟨"10.0.0.3", "50001", "1.1.1.1", "443", "tcp", 13 * hourUs, 13 * hourUs + 60000000⟩,
    ⟨"1.1.1.1", "443", "10.0.0.2", "50000", "tcp", 21 * hourUs - 60000000, 21 * hourUs⟩]

/-- A result that is not an error, and what a test says of it. -/
theorem exists_ok_of_any {ε α : Type} {result : Except ε α} {p : α → Bool} (h : result.toOption.any p = true) :
    ∃ a, result = .ok a ∧ p a = true := by
  cases result with
  | error e => cases h
  | ok a => exact ⟨a, rfl, h⟩

theorem longConnection_split :
    ∃ splits bounds, splitBenign exactFloats longConnection 1 = .ok (splits, bounds, 0) := by
  obtain ⟨⟨splits, bounds, dropped⟩, hsplit, hdropped⟩ := exists_ok_of_any
    (show (splitBenign exactFloats longConnection 1).toOption.any (fun result => decide (result.2.2 = 0)) = true by
      decide +kernel)
  obtain rfl : dropped = 0 := of_decide_eq_true hdropped
  exact ⟨splits, bounds, hsplit⟩

theorem benign_splits_keep_connections_iff_long :
    ∃ splits bounds, splitBenign exactFloats longConnection 1 = .ok (splits, bounds, 0) ∧
      (KeepConnections splits ↔
        UnlinkedRowsAgree longConnection (benignBoundaries exactFloats longConnection 1)) := by
  obtain ⟨splits, bounds, hsplit⟩ := longConnection_split
  exact ⟨splits, bounds, hsplit, benign_splits_keep_connections_iff exactFloats hsplit⟩

theorem exactFloats_roundsProducts : exactFloats.RoundsProducts :=
  ⟨id, monotone_id, rfl, fun _ _ => rfl⟩

theorem benign_splits_separated_long :
    (∀ row ∈ longConnection, row.firstSeenUs ≤ row.lastSeenUs) ∧
      ∃ splits bounds, splitBenign exactFloats longConnection 1 = .ok (splits, bounds, 0) ∧
        SeparatedInTime splits bounds ∧
        EachRowOnce longConnection
          (crossingConnections longConnection (benignBoundaries exactFloats longConnection 1)) splits := by
  have hforward : ∀ row ∈ longConnection, row.firstSeenUs ≤ row.lastSeenUs := by decide
  obtain ⟨splits, bounds, hsplit⟩ := longConnection_split
  exact ⟨hforward, splits, bounds, hsplit,
    benign_splits_separated exactFloats_roundsProducts hforward hsplit⟩

/-- The connection is in the training and in the test split. -/
theorem long_connection_in_two_splits :
    ∃ splits bounds, splitBenign exactFloats longConnection 1 = .ok (splits, bounds, 0) ∧
      ¬KeepConnections splits := by
  obtain ⟨splits, bounds, hsplit⟩ := longConnection_split
  refine ⟨splits, bounds, hsplit, ?_⟩
  intro hkeep
  have hsame := hkeep ⟨"10.0.0.2", "50000", "1.1.1.1", "443", "tcp", 0, 60000000⟩
    ⟨"1.1.1.1", "443", "10.0.0.2", "50000", "tcp", 21 * hourUs - 60000000, 21 * hourUs⟩ .benignTrain .benignTest
    ((mem_splitBenign hsplit).mpr (by decide +kernel)) ((mem_splitBenign hsplit).mpr (by decide +kernel))
    (.inl rfl) (.inr rfl)
  cases hsame

end Pirewall.Dataset
