/-
# Pirewall.Dataset.AttackSplit -- the split of the attack rows by run

`_split_attacks` of `scripts/dataset/build_dataset.py`: the rows are grouped by run, and whole runs go to the five
splits. Runs of the held-out tool and runs with the parameter suffix are set aside; of every other tool a fifth of
the runs, the last in order, is held out for testing; every fourth of the rest validates, and what is left trains.

A run may mix the rows of several tools (its name defaults to that of the capture), but the tool holdout looks at
its first row only: `tool_left_out_iff` says when the held-out tool is left out. The stride of the validation runs
over the runs of all tools together: `tools_keep_training_iff` says when every tool keeps a run to train on.
-/
import Pirewall.Dataset.BenignSplit
import Pirewall.Lib.Rank
import Mathlib.Data.String.Basic

namespace Pirewall.Dataset

open Lib

/-! ## Rows and options -/

/-- An attack row: what the split reads of it. The reader sets all four; `get` has defaults for three. -/
structure AttackRow extends Row where
  runId : String
  tool : Option String
  label : Option String
  family : Option String
  deriving DecidableEq

inductive AttackSplit
  | attackTrain
  | attackValidation
  | attackTestRunHoldout
  | attackTestLeaveOneToolOut
  | attackTestParameterHoldout
  deriving DecidableEq

namespace AttackSplit

/-- In the order of the `splits` dictionary. -/
def all : List AttackSplit :=
  [.attackTrain, .attackValidation, .attackTestRunHoldout, .attackTestLeaveOneToolOut, .attackTestParameterHoldout]

def text : AttackSplit → String
  | .attackTrain => "attack_train"
  | .attackValidation => "attack_validation"
  | .attackTestRunHoldout => "attack_test_run_holdout"
  | .attackTestLeaveOneToolOut => "attack_test_leave_one_tool_out"
  | .attackTestParameterHoldout => "attack_test_parameter_holdout"

end AttackSplit

/-- The two options of `_split_attacks`. -/
structure AttackOptions where
  heldOutTool : String
  parameterSuffix : String

/-- What the split asks of Python's texts: `str.lower`, and how a key and a list of names print. -/
structure Texts where
  lower : String → String
  key : ConnectionKey → String
  names : List String → String

/-- `_held_out_tool`. -/
def heldOutTool (texts : Texts) (tool : String) (row : AttackRow) : Bool :=
  [row.tool.getD "", row.label.getD "", row.runId, row.family.getD ""].any fun text =>
    decide ((texts.lower tool).toList <:+: (texts.lower text).toList)

/-- The label ends in the parameter suffix. -/
def hasSuffix (texts : Texts) (suffix : String) (row : AttackRow) : Bool :=
  decide ((texts.lower suffix).toList <:+ (texts.lower (row.label.getD "")).toList)

/-- What the split raises: its own error, or the `KeyError` of a run without an assignment. -/
inductive SplitFailure
  | dataset (error : DatasetError)
  | key (run : String)
  deriving DecidableEq

/-! ## Which run goes where -/

/-- `by_run`. -/
def byRun (rows : List AttackRow) : Dict String (List AttackRow) := Dict.groupBy AttackRow.runId rows

/-- `by_run[run]`, of a run that has rows. -/
def runRows (rows : List AttackRow) (run : String) : List AttackRow := ((byRun rows).get? run).getD []

/-- `run_tool[run]`: the tool that the first row of a run names. -/
def runTool (rows : List AttackRow) (run : String) : String :=
  ((runRows rows run).head?.bind AttackRow.tool).getD "unknown"

/-- `runs`. -/
def runs (rows : List AttackRow) : List String := sorted (byRun rows).keys

/-- How many of `n` runs of a tool are held out: a fifth, at least one and never all. -/
def holdoutCount (floats : Floats) (n : Nat) : Nat :=
  (min (max 1 (pyRound (floats.product (20 / 100) n))) (n - 1 : Int)).toNat

/-- The runs of one tool that the run holdout takes: the last of them. -/
def heldOutRuns (floats : Floats) (toolRuns : List String) : List String :=
  let ordered := sorted toolRuns
  -- a tool's only run is never held out
  if ordered.length < 2 then [] else ordered.drop (ordered.length - holdoutCount floats ordered.length)

section Assignment

variable (floats : Floats) (texts : Texts) (options : AttackOptions) (rows : List AttackRow)

/-- `tool_holdout`: decided by the first row of a run. -/
def toolHoldout : List String :=
  (runs rows).filter fun run => (runRows rows run).head?.any (heldOutTool texts options.heldOutTool)

/-- `parameter_holdout`: decided by any row of a run. -/
def parameterHoldout : List String :=
  (runs rows).filter fun run => decide (run ∉ toolHoldout texts options rows) &&
    (runRows rows run).any (hasSuffix texts options.parameterSuffix)

/-- `remaining`. -/
def remaining : List String :=
  (runs rows).filter fun run =>
    decide (run ∉ toolHoldout texts options rows ∧ run ∉ parameterHoldout texts options rows)

/-- `by_tool`. -/
def byTool : Dict String (List String) := Dict.groupBy (runTool rows) (remaining texts options rows)

/-- `run_holdout`. -/
def runHoldout : List String :=
  (sorted (byTool texts options rows).keys).flatMap fun tool =>
    heldOutRuns floats (((byTool texts options rows).get? tool).getD [])

/-- `training_candidates`. -/
def trainingCandidates : List String :=
  (remaining texts options rows).filter fun run => decide (run ∉ runHoldout floats texts options rows)

/-- `validation`. -/
def validationRuns : List String := everyNth 4 (sorted (trainingCandidates floats texts options rows))

/-- `training`. -/
def trainingRuns : List String :=
  (trainingCandidates floats texts options rows).filter fun run =>
    decide (run ∉ validationRuns floats texts options rows)

/-- One of the loops that fill `assignment`. -/
def assign (name : AttackSplit) (assignment : Dict String AttackSplit) (names : List String) :
    Dict String AttackSplit :=
  names.foldl (fun assignment run => assignment.set run name) assignment

/-- `assignment`: a later loop overwrites an earlier one. -/
def assignment : Dict String AttackSplit :=
  let tools := assign .attackTestLeaveOneToolOut Dict.empty (toolHoldout texts options rows)
  let parameters := assign .attackTestParameterHoldout tools (parameterHoldout texts options rows)
  let tests := assign .attackTestRunHoldout parameters (runHoldout floats texts options rows)
  let validation := assign .attackValidation tests (validationRuns floats texts options rows)
  assign .attackTrain validation (trainingRuns floats texts options rows)

end Assignment

/-! ## The split -/

/-- The splits: the rows under each name, no name for an empty input. -/
abbrev AttackSplits := Dict AttackSplit (List AttackRow)

/-- `splits[name]`. -/
def splitRows (splits : AttackSplits) (name : AttackSplit) : List AttackRow := (splits.get? name).getD []

/-- The five empty splits. -/
def emptySplits : AttackSplits := AttackSplit.all.foldl (fun splits name => splits.set name []) Dict.empty

/-- One turn of the loop over `by_run.items()`. -/
def placeRun (assignment : Dict String AttackSplit) (splits : AttackSplits) (entry : String × List AttackRow) :
    Except SplitFailure AttackSplits :=
  match assignment.get? entry.1 with
  | none => .error (.key entry.1)
  | some name => .ok (splits.set name (splitRows splits name ++ entry.2))

/-- `owners[_connection_key(row)].add(name)`. -/
def addOwner (name : AttackSplit) (owners : Dict ConnectionKey (List AttackSplit)) (row : AttackRow) :
    Dict ConnectionKey (List AttackSplit) :=
  let names := (owners.get? (connectionKey row.toRow)).getD []
  owners.set (connectionKey row.toRow) (if name ∈ names then names else names ++ [name])

/-- `owners`: the splits of every connection. -/
def owners (splits : AttackSplits) : Dict ConnectionKey (List AttackSplit) :=
  splits.entries.foldl (fun owners entry => entry.2.foldl (addOwner entry.1) owners) Dict.empty

/-- `leaked`. -/
def leaked (splits : AttackSplits) : Dict ConnectionKey (List String) :=
  ((owners splits).filter fun _ names => decide (1 < names.length)).mapValues fun _ names =>
    sorted (names.map AttackSplit.text)

/-- The runs of each group, as they are reported. -/
structure RunGroups where
  toolHoldoutRuns : List String
  parameterHoldoutRuns : List String
  runHoldoutRuns : List String
  validationRuns : List String
  trainingRuns : List String
  deriving DecidableEq

/-- The policy that is reported; an empty input has no groups. -/
structure AttackPolicy where
  runs : Nat
  groups : Option RunGroups
  deriving DecidableEq

/-- `_split_attacks`. -/
def splitAttacks (floats : Floats) (texts : Texts) (options : AttackOptions) (rows : List AttackRow) :
    Except SplitFailure (AttackSplits × AttackPolicy) :=
  if rows.isEmpty then .ok (Dict.empty, ⟨0, none⟩)
  else if (remaining texts options rows).isEmpty then
    .error (.dataset ⟨"no attack runs left for training after the tool/parameter holdouts"⟩)
  else if (trainingRuns floats texts options rows).isEmpty then
    .error (.dataset ⟨"no attack runs left for training; add more runs"⟩)
  else do
    let splits ← (byRun rows).entries.foldlM (placeRun (assignment floats texts options rows)) emptySplits
    match (leaked splits).entries.head? with
    | some (key, names) =>
      .error (.dataset ⟨"a connection spans attack splits (" ++ texts.key key ++ " -> " ++ texts.names names ++
        "); this should be impossible with run grouping"⟩)
    | none =>
      .ok (splits, ⟨(runs rows).length, some ⟨sorted (toolHoldout texts options rows),
        sorted (parameterHoldout texts options rows), sorted (runHoldout floats texts options rows),
        sorted (validationRuns floats texts options rows), sorted (trainingRuns floats texts options rows)⟩⟩)

/-! ## Runs and their rows -/

/-- The first row of a run. -/
def firstRow (rows : List AttackRow) (run : String) : Option AttackRow :=
  rows.find? fun row => decide (row.runId = run)

theorem runRows_eq (rows : List AttackRow) (run : String) :
    runRows rows run = rows.filter fun row => decide (row.runId = run) :=
  Dict.getD_get?_groupBy AttackRow.runId rows run

theorem mem_runRows {rows : List AttackRow} {run : String} {row : AttackRow} :
    row ∈ runRows rows run ↔ row ∈ rows ∧ row.runId = run := by
  rw [runRows_eq, List.mem_filter, decide_eq_true_eq]

theorem head?_runRows (rows : List AttackRow) (run : String) : (runRows rows run).head? = firstRow rows run := by
  rw [runRows_eq, List.head?_filter, firstRow]

theorem mem_runs {rows : List AttackRow} {run : String} : run ∈ runs rows ↔ ∃ row ∈ rows, row.runId = run := by
  rw [runs, mem_sorted]
  exact Dict.mem_keys_groupBy AttackRow.runId

theorem nodup_runs (rows : List AttackRow) : (runs rows).Nodup :=
  (sortedLT_sorted (byRun rows).nodup).nodup

/-! ## What a run is assigned -/

theorem get?_assign (name : AttackSplit) (assignment : Dict String AttackSplit) (names : List String)
    (run : String) :
    (assign name assignment names).get? run = if run ∈ names then some name else assignment.get? run := by
  induction names generalizing assignment with
  | nil => rfl
  | cons other names ih =>
    show (assign name (assignment.set other name) names).get? run = _
    rw [ih, Dict.get?_set]
    by_cases hother : run = other
    · simp [hother]
    · simp [hother]

section Assignment

variable {floats : Floats} {texts : Texts} {options : AttackOptions} {rows : List AttackRow} {run : String}

theorem get?_assignment :
    (assignment floats texts options rows).get? run =
      if run ∈ trainingRuns floats texts options rows then some .attackTrain
      else if run ∈ validationRuns floats texts options rows then some .attackValidation
      else if run ∈ runHoldout floats texts options rows then some .attackTestRunHoldout
      else if run ∈ parameterHoldout texts options rows then some .attackTestParameterHoldout
      else if run ∈ toolHoldout texts options rows then some .attackTestLeaveOneToolOut
      else none := by
  simp only [assignment, get?_assign, Dict.get?_empty]

theorem mem_toolHoldout :
    run ∈ toolHoldout texts options rows ↔
      run ∈ runs rows ∧ (firstRow rows run).any (heldOutTool texts options.heldOutTool) = true := by
  rw [toolHoldout, List.mem_filter, head?_runRows]

theorem mem_parameterHoldout :
    run ∈ parameterHoldout texts options rows ↔
      run ∈ runs rows ∧ run ∉ toolHoldout texts options rows ∧
        ∃ row ∈ rows, row.runId = run ∧ hasSuffix texts options.parameterSuffix row = true := by
  simp only [parameterHoldout, List.mem_filter, Bool.and_eq_true, decide_eq_true_eq, List.any_eq_true,
    mem_runRows, and_assoc]

theorem mem_remaining :
    run ∈ remaining texts options rows ↔
      run ∈ runs rows ∧ run ∉ toolHoldout texts options rows ∧ run ∉ parameterHoldout texts options rows := by
  rw [remaining, List.mem_filter, decide_eq_true_eq]

theorem nodup_remaining : (remaining texts options rows).Nodup := (nodup_runs rows).filter _

/-- The remaining runs of a tool. -/
theorem byTool_get? (tool : String) :
    ((byTool texts options rows).get? tool).getD [] =
      (remaining texts options rows).filter fun run => decide (runTool rows run = tool) :=
  Dict.getD_get?_groupBy (runTool rows) _ tool

theorem mem_of_mem_heldOutRuns {toolRuns : List String} (h : run ∈ heldOutRuns floats toolRuns) :
    run ∈ toolRuns := by
  unfold heldOutRuns at h
  dsimp only at h
  split_ifs at h
  · cases h
  · exact mem_sorted.mp (List.mem_of_mem_drop h)

/-- A run that is held out is among those of its own tool. -/
theorem mem_runHoldout :
    run ∈ runHoldout floats texts options rows ↔
      run ∈ heldOutRuns floats
        ((remaining texts options rows).filter fun other => decide (runTool rows other = runTool rows run)) := by
  simp only [runHoldout, List.mem_flatMap, mem_sorted, byTool_get?]
  constructor
  · rintro ⟨tool, _, hheld⟩
    have htool := of_decide_eq_true (List.mem_filter.mp (mem_of_mem_heldOutRuns hheld)).2
    rw [htool]
    exact hheld
  · intro hheld
    refine ⟨runTool rows run, ?_, hheld⟩
    exact (Dict.mem_keys_groupBy (runTool rows)).mpr
      ⟨run, (List.mem_filter.mp (mem_of_mem_heldOutRuns hheld)).1, rfl⟩

theorem mem_remaining_of_runHoldout (h : run ∈ runHoldout floats texts options rows) :
    run ∈ remaining texts options rows :=
  (List.mem_filter.mp (mem_of_mem_heldOutRuns (mem_runHoldout.mp h))).1

theorem mem_trainingCandidates :
    run ∈ trainingCandidates floats texts options rows ↔
      run ∈ remaining texts options rows ∧ run ∉ runHoldout floats texts options rows := by
  rw [trainingCandidates, List.mem_filter, decide_eq_true_eq]

theorem nodup_trainingCandidates : (trainingCandidates floats texts options rows).Nodup :=
  nodup_remaining.filter _

theorem mem_validationRuns :
    run ∈ validationRuns floats texts options rows ↔
      run ∈ trainingCandidates floats texts options rows ∧
        rank (trainingCandidates floats texts options rows).toFinset run % 4 = 0 := by
  rw [validationRuns, mem_everyNth_iff (sortedLT_sorted nodup_trainingCandidates), mem_sorted, toFinset_sorted]

theorem mem_trainingRuns :
    run ∈ trainingRuns floats texts options rows ↔
      run ∈ trainingCandidates floats texts options rows ∧ run ∉ validationRuns floats texts options rows := by
  rw [trainingRuns, List.mem_filter, decide_eq_true_eq]

/-- Every run is assigned, so the lookup of the placing loop cannot fail. -/
theorem exists_assignment (floats : Floats) (texts : Texts) (options : AttackOptions) (hrun : run ∈ runs rows) :
    ∃ name, (assignment floats texts options rows).get? run = some name := by
  rw [get?_assignment]
  split_ifs with htraining hvalidation hheld hparameter htool
  · exact ⟨_, rfl⟩
  · exact ⟨_, rfl⟩
  · exact ⟨_, rfl⟩
  · exact ⟨_, rfl⟩
  · exact ⟨_, rfl⟩
  · have hcandidate := mem_trainingCandidates.mpr ⟨mem_remaining.mpr ⟨hrun, htool, hparameter⟩, hheld⟩
    exact absurd (mem_trainingRuns.mpr ⟨hcandidate, hvalidation⟩) htraining

/-- The leave-one-tool-out split has the runs of the tool holdout: no later loop takes one of them. -/
theorem assigned_leftOut_iff (floats : Floats) :
    (assignment floats texts options rows).get? run = some .attackTestLeaveOneToolOut ↔
      run ∈ toolHoldout texts options rows := by
  rw [get?_assignment]
  constructor
  · intro h
    split_ifs at h <;> first | assumption | cases h
  · intro htool
    have hremaining : run ∉ remaining texts options rows := fun h => (mem_remaining.mp h).2.1 htool
    have hcandidate : run ∉ trainingCandidates floats texts options rows :=
      fun h => hremaining (mem_trainingCandidates.mp h).1
    rw [if_neg (fun h => hcandidate (mem_trainingRuns.mp h).1),
      if_neg (fun h => hcandidate (mem_validationRuns.mp h).1),
      if_neg (fun h => hremaining (mem_remaining_of_runHoldout h)),
      if_neg (fun h => (mem_parameterHoldout.mp h).2.1 htool), if_pos htool]

theorem assigned_train_iff :
    (assignment floats texts options rows).get? run = some .attackTrain ↔
      run ∈ trainingRuns floats texts options rows := by
  rw [get?_assignment]
  constructor
  · intro h
    split_ifs at h <;> first | assumption | cases h
  · exact fun h => if_pos h

end Assignment

/-! ## The rows of the splits -/

theorem splitRows_set (splits : AttackSplits) (name other : AttackSplit) (group : List AttackRow) :
    splitRows (splits.set name (splitRows splits name ++ group)) other =
      splitRows splits other ++ if other = name then group else [] := by
  unfold splitRows
  rw [Dict.get?_set]
  split_ifs with hname
  · rw [hname]
    rfl
  · exact (List.append_nil _).symm

theorem splitRows_emptySplits (name : AttackSplit) : splitRows emptySplits name = [] := by
  cases name <;> rfl

/-- What one turn of the placing loop does. -/
theorem placeRun_ok {assignment : Dict String AttackSplit} {splits splits' : AttackSplits}
    {entry : String × List AttackRow} (h : placeRun assignment splits entry = .ok splits') :
    ∃ name, assignment.get? entry.1 = some name ∧
      ∀ other, splitRows splits' other = splitRows splits other ++ if other = name then entry.2 else [] := by
  unfold placeRun at h
  split at h
  · cases h
  · rename_i name hname
    cases h
    exact ⟨name, hname, fun other => splitRows_set splits name other entry.2⟩

/-- The loop adds to each split the groups of its runs. -/
theorem foldlM_placeRun_ok {assignment : Dict String AttackSplit} {entries : List (String × List AttackRow)}
    {splits splits' : AttackSplits} (h : entries.foldlM (placeRun assignment) splits = .ok splits')
    (name : AttackSplit) :
    splitRows splits' name = splitRows splits name ++
      (entries.filter fun entry => decide (assignment.get? entry.1 = some name)).flatMap Prod.snd := by
  induction entries generalizing splits with
  | nil =>
    cases h
    exact (List.append_nil _).symm
  | cons entry entries ih =>
    rw [List.foldlM_cons] at h
    cases hstep : placeRun assignment splits entry with
    | error e =>
      rw [hstep] at h
      cases h
    | ok next =>
      rw [hstep] at h
      obtain ⟨found, hfound, hrows⟩ := placeRun_ok hstep
      rw [ih h, hrows, List.append_assoc]
      by_cases hname : name = found
      · subst hname
        simp [hfound]
      · simp [hfound, hname, Ne.symm hname]

/-- The loop loses no row and repeats none. -/
theorem foldlM_placeRun_perm {assignment : Dict String AttackSplit} {entries : List (String × List AttackRow)}
    {splits splits' : AttackSplits} (h : entries.foldlM (placeRun assignment) splits = .ok splits') :
    (AttackSplit.all.flatMap (splitRows splits')).Perm
      (AttackSplit.all.flatMap (splitRows splits) ++ entries.flatMap Prod.snd) := by
  induction entries generalizing splits with
  | nil =>
    cases h
    rw [List.flatMap_nil, List.append_nil]
  | cons entry entries ih =>
    rw [List.foldlM_cons] at h
    cases hstep : placeRun assignment splits entry with
    | error e =>
      rw [hstep] at h
      cases h
    | ok next =>
      rw [hstep] at h
      obtain ⟨found, _, hrows⟩ := placeRun_ok hstep
      have hone : AttackSplit.all.flatMap (fun other => if other = found then entry.2 else []) = entry.2 := by
        cases found <;> simp [AttackSplit.all]
      have hnext := List.flatMap_append_perm AttackSplit.all (splitRows splits)
        fun other => if other = found then entry.2 else []
      rw [hone, ← funext hrows] at hnext
      rw [List.flatMap_cons, ← List.append_assoc]
      exact (ih h).trans (hnext.symm.append_right _)

/-- What a split that succeeds has done: a split has the groups of its runs, so that every row is in the split of its
run, once. -/
structure AttackResult (floats : Floats) (texts : Texts) (options : AttackOptions) (rows : List AttackRow)
    (splits : AttackSplits) : Prop where
  groups : ∀ name, splitRows splits name = ((byRun rows).entries.filter fun entry =>
    decide ((assignment floats texts options rows).get? entry.1 = some name)).flatMap Prod.snd
  mem : ∀ name row, row ∈ splitRows splits name ↔
    row ∈ rows ∧ (assignment floats texts options rows).get? row.runId = some name
  eachOnce : (AttackSplit.all.flatMap (splitRows splits)).Perm rows

theorem splitAttacks_ok {floats : Floats} {texts : Texts} {options : AttackOptions} {rows : List AttackRow}
    {splits : AttackSplits} {policy : AttackPolicy}
    (hsplit : splitAttacks floats texts options rows = .ok (splits, policy)) :
    AttackResult floats texts options rows splits := by
  unfold splitAttacks at hsplit
  split_ifs at hsplit with hempty _ _
  · obtain rfl := List.isEmpty_iff.mp hempty
    cases hsplit
    exact ⟨fun name => rfl, fun name row => by simp [splitRows], List.Perm.refl _⟩
  · cases hloop : (byRun rows).entries.foldlM (placeRun (assignment floats texts options rows)) emptySplits with
    | error e =>
      rw [hloop] at hsplit
      cases hsplit
    | ok found =>
      rw [hloop] at hsplit
      dsimp only [bind, Except.bind] at hsplit
      split at hsplit
      · cases hsplit
      cases hsplit
      have hgroups : ∀ name, splitRows splits name = ((byRun rows).entries.filter fun entry =>
          decide ((assignment floats texts options rows).get? entry.1 = some name)).flatMap Prod.snd := by
        intro name
        rw [foldlM_placeRun_ok hloop, splitRows_emptySplits, List.nil_append]
      refine ⟨hgroups, ?_, ?_⟩
      · intro name row
        rw [hgroups]
        simp only [List.mem_flatMap, List.mem_filter, decide_eq_true_eq, Prod.exists, Dict.mem_entries_iff]
        constructor
        · rintro ⟨run, group, ⟨hgroup, hname⟩, hrow⟩
          have hrows : row ∈ runRows rows run := by
            rw [runRows, hgroup]
            exact hrow
          obtain ⟨hmem, rfl⟩ := mem_runRows.mp hrows
          exact ⟨hmem, hname⟩
        · rintro ⟨hmem, hname⟩
          obtain ⟨group, hgroup⟩ := Dict.mem_keys_iff.mp
            ((Dict.mem_keys_groupBy AttackRow.runId).mpr ⟨row, hmem, rfl⟩)
          have hrow : row ∈ runRows rows row.runId := mem_runRows.mpr ⟨hmem, rfl⟩
          rw [runRows, byRun, hgroup] at hrow
          exact ⟨row.runId, group, ⟨hgroup, hname⟩, hrow⟩
      · have hperm := foldlM_placeRun_perm hloop
        have hnone : AttackSplit.all.flatMap (splitRows emptySplits) = [] := rfl
        rw [hnone, List.nil_append, List.flatMap_def] at hperm
        exact hperm.trans (Dict.flatten_values_groupBy AttackRow.runId rows)

/-- A loop over runs that are all assigned ends. -/
theorem exists_foldlM_placeRun {assignment : Dict String AttackSplit} {entries : List (String × List AttackRow)}
    (h : ∀ entry ∈ entries, ∃ name, assignment.get? entry.1 = some name) (splits : AttackSplits) :
    ∃ splits', entries.foldlM (placeRun assignment) splits = .ok splits' := by
  induction entries generalizing splits with
  | nil => exact ⟨splits, rfl⟩
  | cons entry entries ih =>
    obtain ⟨name, hname⟩ := h entry List.mem_cons_self
    obtain ⟨splits', hrest⟩ := ih (fun other hother => h other (List.mem_cons_of_mem _ hother))
      (splits.set name (splitRows splits name ++ entry.2))
    refine ⟨splits', ?_⟩
    rw [List.foldlM_cons, placeRun, hname]
    exact hrest

/-- The split fails with its own error only: no run is without an assignment. -/
theorem splitAttacks_ne_key (floats : Floats) (texts : Texts) (options : AttackOptions) (rows : List AttackRow)
    (run : String) : splitAttacks floats texts options rows ≠ .error (.key run) := by
  intro hsplit
  have hassigned : ∀ entry ∈ (byRun rows).entries,
      ∃ name, (assignment floats texts options rows).get? entry.1 = some name := by
    intro entry hentry
    exact exists_assignment floats texts options (mem_sorted.mpr (List.mem_map_of_mem hentry))
  obtain ⟨splits, hloop⟩ := exists_foldlM_placeRun hassigned emptySplits
  unfold splitAttacks at hsplit
  split_ifs at hsplit
  · cases hsplit
  · cases hsplit
  · rw [hloop] at hsplit
    dsimp only [bind, Except.bind] at hsplit
    split at hsplit <;> cases hsplit

/-! ## Leaving one tool out -/

/-- The held-out tool is left out: no row that names it is in another split, every run is in one split, and every
row of the input is in the splits once. -/
structure ToolLeftOut (texts : Texts) (options : AttackOptions) (rows : List AttackRow) (splits : AttackSplits) :
    Prop where
  leftOut : ∀ name ≠ .attackTestLeaveOneToolOut, ∀ row ∈ splitRows splits name,
    heldOutTool texts options.heldOutTool row = false
  oneSplit : ∀ run ∈ rows.map AttackRow.runId, ∃! name, ∃ row ∈ splitRows splits name, row.runId = run
  eachOnce : (AttackSplit.all.flatMap (splitRows splits)).Perm rows

/-- **The held-out tool is left out exactly when the first row of every run speaks for the run**: it names the tool
whenever some row of the run does. -/
theorem tool_left_out_iff {floats : Floats} {texts : Texts} {options : AttackOptions} {rows : List AttackRow}
    {splits : AttackSplits} {policy : AttackPolicy}
    (hsplit : splitAttacks floats texts options rows = .ok (splits, policy)) :
    ToolLeftOut texts options rows splits ↔
      ∀ row ∈ rows, heldOutTool texts options.heldOutTool row = true →
        (firstRow rows row.runId).any (heldOutTool texts options.heldOutTool) = true := by
  have hresult := splitAttacks_ok hsplit
  constructor
  · intro hleft row hrow hheld
    have hrun : row.runId ∈ runs rows := mem_runs.mpr ⟨row, hrow, rfl⟩
    obtain ⟨name, hname⟩ := exists_assignment floats texts options hrun
    by_cases hout : name = .attackTestLeaveOneToolOut
    · subst hout
      exact (mem_toolHoldout.mp ((assigned_leftOut_iff floats).mp hname)).2
    · have hkept := hleft.leftOut name hout row ((hresult.mem name row).mpr ⟨hrow, hname⟩)
      rw [hheld] at hkept
      cases hkept
  · intro hfirst
    refine ⟨?_, ?_, hresult.eachOnce⟩
    · intro name hout row hin
      obtain ⟨hrow, hname⟩ := (hresult.mem name row).mp hin
      by_contra hheld
      have hheld' := hfirst row hrow (Bool.eq_true_of_not_eq_false hheld)
      have hassigned := (assigned_leftOut_iff floats).mpr
        (mem_toolHoldout.mpr ⟨mem_runs.mpr ⟨row, hrow, rfl⟩, hheld'⟩)
      rw [hassigned] at hname
      exact hout (Option.some.inj hname).symm
    · intro run hrun
      obtain ⟨row, hrow, rfl⟩ := List.mem_map.mp hrun
      obtain ⟨name, hname⟩ := exists_assignment floats texts options
        (mem_runs.mpr ⟨row, hrow, rfl⟩)
      refine ⟨name, ⟨row, (hresult.mem name row).mpr ⟨hrow, hname⟩, rfl⟩, ?_⟩
      rintro other ⟨row', hin, hsame⟩
      have hother := ((hresult.mem other row').mp hin).2
      rw [hsame, hname] at hother
      exact (Option.some.inj hother).symm

/-! ### A run of two tools -/

/-- Lowering of texts in ASCII, as those below are. -/
def asciiTexts : Texts :=
  ⟨fun text => String.ofList (text.toList.map Char.toLower), fun _ => "", fun _ => ""⟩

/-- The options of the command line. -/
def defaultOptions : AttackOptions := ⟨"masscan", "random"⟩

/-- A run of nmap and a run of hydra. -/
def twoTools : List AttackRow :=
  [⟨⟨"10.0.0.66", "40000", "10.0.0.9", "80", "tcp", 0, 1000⟩, "a-nmap", some "nmap", some "nmap", some "scan"⟩,
    ⟨⟨"10.0.0.66", "40001", "10.0.0.9", "22", "tcp", 2000, 3000⟩, "b-lab", some "hydra", some "hydra",
      some "bruteforce"⟩]

/-- A row of masscan in the capture that hydra was run in first. -/
def masscanRow : AttackRow :=
  ⟨⟨"10.0.0.66", "40002", "10.0.0.9", "443", "tcp", 4000, 5000⟩, "b-lab", some "masscan", some "masscan",
    some "scan"⟩

theorem tool_left_out_iff_mixed :
    ∃ splits policy, splitAttacks exactFloats asciiTexts defaultOptions (twoTools ++ [masscanRow]) =
        .ok (splits, policy) ∧
      (ToolLeftOut asciiTexts defaultOptions (twoTools ++ [masscanRow]) splits ↔
        ∀ row ∈ twoTools ++ [masscanRow], heldOutTool asciiTexts "masscan" row = true →
          (firstRow (twoTools ++ [masscanRow]) row.runId).any (heldOutTool asciiTexts "masscan") = true) := by
  obtain ⟨⟨splits, policy⟩, hsplit, _⟩ := exists_ok_of_any
    (show (splitAttacks exactFloats asciiTexts defaultOptions (twoTools ++ [masscanRow])).toOption.any
      (fun _ => true) = true by decide +kernel)
  exact ⟨splits, policy, hsplit, tool_left_out_iff hsplit⟩

/-- The row of the held-out tool trains. -/
theorem held_out_tool_trained :
    ∃ splits policy, splitAttacks exactFloats asciiTexts defaultOptions (twoTools ++ [masscanRow]) =
        .ok (splits, policy) ∧
      masscanRow ∈ splitRows splits .attackTrain ∧
      ¬ToolLeftOut asciiTexts defaultOptions (twoTools ++ [masscanRow]) splits := by
  obtain ⟨⟨splits, policy⟩, hsplit, htrain⟩ := exists_ok_of_any
    (show (splitAttacks exactFloats asciiTexts defaultOptions (twoTools ++ [masscanRow])).toOption.any
      (fun result => decide (masscanRow ∈ splitRows result.1 .attackTrain)) = true by decide +kernel)
  have hmem : masscanRow ∈ splitRows splits .attackTrain := of_decide_eq_true htrain
  refine ⟨splits, policy, hsplit, hmem, ?_⟩
  intro hleft
  have hkept := hleft.leftOut .attackTrain (by decide) masscanRow hmem
  have hheld : heldOutTool asciiTexts defaultOptions.heldOutTool masscanRow = true := by decide +kernel
  rw [hheld] at hkept
  cases hkept

/-! ## A training run for every tool

The runs each step selects, told by ranks instead of positions in sorted lists. -/

/-- The runs outside the tool and the parameter holdout. -/
def freeRuns (texts : Texts) (options : AttackOptions) (rows : List AttackRow) : Finset String :=
  (rows.map AttackRow.runId).toFinset.filter fun run =>
    (firstRow rows run).any (heldOutTool texts options.heldOutTool) = false ∧
      ∀ row ∈ rows, row.runId = run → hasSuffix texts options.parameterSuffix row = false

/-- The free runs of the tool of a run. -/
def peers (texts : Texts) (options : AttackOptions) (rows : List AttackRow) (run : String) : Finset String :=
  (freeRuns texts options rows).filter fun other => runTool rows other = runTool rows run

/-- How many of `n` runs of a tool the run holdout takes; none of a single one. -/
def takenCount (floats : Floats) (n : Nat) : Nat := if n < 2 then 0 else holdoutCount floats n

/-- The free runs that the run holdout leaves. -/
def keptRuns (floats : Floats) (texts : Texts) (options : AttackOptions) (rows : List AttackRow) : Finset String :=
  (freeRuns texts options rows).filter fun run =>
    rank (peers texts options rows run) run <
      (peers texts options rows run).card - takenCount floats (peers texts options rows run).card

section Ranks

variable {floats : Floats} {texts : Texts} {options : AttackOptions} {rows : List AttackRow} {run : String}

theorem mem_remaining_iff : run ∈ remaining texts options rows ↔ run ∈ freeRuns texts options rows := by
  rw [mem_remaining, mem_parameterHoldout, mem_toolHoldout, mem_runs, freeRuns, Finset.mem_filter,
    List.mem_toFinset, List.mem_map]
  constructor
  · rintro ⟨hrun, htool, hparameter⟩
    refine ⟨hrun, Bool.eq_false_iff.mpr fun hheld => htool ⟨hrun, hheld⟩, ?_⟩
    intro row hrow hsame
    exact Bool.eq_false_iff.mpr fun hsuffix => hparameter ⟨hrun, htool, row, hrow, hsame, hsuffix⟩
  · rintro ⟨hrun, htool, hparameter⟩
    refine ⟨hrun, fun hheld => Bool.eq_false_iff.mp htool hheld.2, ?_⟩
    rintro ⟨_, _, row, hrow, hsame, hsuffix⟩
    exact Bool.eq_false_iff.mp (hparameter row hrow hsame) hsuffix

/-- The last runs of a tool, by rank. -/
theorem mem_heldOutRuns {toolRuns : List String} (h : toolRuns.Nodup) :
    run ∈ heldOutRuns floats toolRuns ↔
      run ∈ toolRuns ∧
        toolRuns.toFinset.card - takenCount floats toolRuns.toFinset.card ≤ rank toolRuns.toFinset run := by
  have hcard := List.toFinset_card_of_nodup h
  unfold heldOutRuns takenCount
  dsimp only
  rw [length_sorted, hcard]
  split_ifs
  · constructor
    · exact fun hin => absurd hin List.not_mem_nil
    · rintro ⟨hin, hrank⟩
      have hlt := rank_lt_card (List.mem_toFinset.mpr hin)
      omega
  · rw [mem_drop_iff (sortedLT_sorted h), mem_sorted, toFinset_sorted]

/-- The training candidates are the kept runs. -/
theorem toFinset_trainingCandidates :
    (trainingCandidates floats texts options rows).toFinset = keptRuns floats texts options rows := by
  ext run
  have hpeers : ((remaining texts options rows).filter
      fun other => decide (runTool rows other = runTool rows run)).toFinset = peers texts options rows run := by
    ext other
    simp only [peers, List.mem_toFinset, List.mem_filter, decide_eq_true_eq, Finset.mem_filter, mem_remaining_iff]
  rw [List.mem_toFinset, mem_trainingCandidates, mem_runHoldout, mem_heldOutRuns (nodup_remaining.filter _), hpeers,
    keptRuns, Finset.mem_filter, mem_remaining_iff]
  refine and_congr_right ?_
  intro hfree
  simp only [List.mem_filter, mem_remaining_iff, hfree, decide_true, and_true, true_and, not_le]

/-- A run trains when it is kept and its rank among the kept runs is no multiple of four. -/
theorem mem_trainingRuns_iff :
    run ∈ trainingRuns floats texts options rows ↔
      run ∈ keptRuns floats texts options rows ∧ rank (keptRuns floats texts options rows) run % 4 ≠ 0 := by
  rw [mem_trainingRuns, mem_validationRuns, toFinset_trainingCandidates, ← List.mem_toFinset,
    toFinset_trainingCandidates]
  tauto

end Ranks

/-- Every tool with a free run has a row to train on; a run's tool is the one its first row names. -/
def ToolsKeepTraining (texts : Texts) (options : AttackOptions) (rows : List AttackRow) (splits : AttackSplits) :
    Prop :=
  ∀ tool, (∃ run ∈ freeRuns texts options rows, runTool rows run = tool) →
    ∃ row ∈ splitRows splits .attackTrain, runTool rows row.runId = tool

/-- **Every tool keeps a run to train on exactly when some kept run of it misses the validation stride**: the number
of kept runs that sort before it, over all tools, is no multiple of four. -/
theorem tools_keep_training_iff {floats : Floats} {texts : Texts} {options : AttackOptions} {rows : List AttackRow}
    {splits : AttackSplits} {policy : AttackPolicy}
    (hsplit : splitAttacks floats texts options rows = .ok (splits, policy)) :
    ToolsKeepTraining texts options rows splits ↔
      ∀ tool, (∃ run ∈ freeRuns texts options rows, runTool rows run = tool) →
        ∃ run ∈ keptRuns floats texts options rows, runTool rows run = tool ∧
          rank (keptRuns floats texts options rows) run % 4 ≠ 0 := by
  have hresult := splitAttacks_ok hsplit
  refine forall₂_congr ?_
  intro tool _
  constructor
  · rintro ⟨row, hin, htool⟩
    have hassigned := ((hresult.mem _ row).mp hin).2
    obtain ⟨hkept, hrank⟩ := mem_trainingRuns_iff.mp (assigned_train_iff.mp hassigned)
    exact ⟨row.runId, hkept, htool, hrank⟩
  · rintro ⟨run, hkept, htool, hrank⟩
    have hassigned := assigned_train_iff.mpr (mem_trainingRuns_iff.mpr ⟨hkept, hrank⟩)
    -- a kept run has a row
    have hfree : run ∈ freeRuns texts options rows := (Finset.mem_filter.mp hkept).1
    obtain ⟨row, hrow, rfl⟩ := mem_runs.mp (mem_remaining.mp (mem_remaining_iff.mpr hfree)).1
    exact ⟨row, (hresult.mem _ row).mpr ⟨hrow, hassigned⟩, htool⟩

theorem tools_keep_training_iff_two :
    ∃ splits policy, splitAttacks exactFloats asciiTexts defaultOptions twoTools = .ok (splits, policy) ∧
      (ToolsKeepTraining asciiTexts defaultOptions twoTools splits ↔
        ∀ tool, (∃ run ∈ freeRuns asciiTexts defaultOptions twoTools, runTool twoTools run = tool) →
          ∃ run ∈ keptRuns exactFloats asciiTexts defaultOptions twoTools, runTool twoTools run = tool ∧
            rank (keptRuns exactFloats asciiTexts defaultOptions twoTools) run % 4 ≠ 0) := by
  obtain ⟨⟨splits, policy⟩, hsplit, _⟩ := exists_ok_of_any
    (show (splitAttacks exactFloats asciiTexts defaultOptions twoTools).toOption.any (fun _ => true) = true by
      decide +kernel)
  exact ⟨splits, policy, hsplit, tools_keep_training_iff hsplit⟩

/-- The only run of nmap validates, and nothing of nmap trains. -/
theorem only_run_not_trained :
    ∃ splits policy, splitAttacks exactFloats asciiTexts defaultOptions twoTools = .ok (splits, policy) ∧
      ¬ToolsKeepTraining asciiTexts defaultOptions twoTools splits := by
  obtain ⟨⟨splits, policy⟩, hsplit, htrain⟩ := exists_ok_of_any
    (show (splitAttacks exactFloats asciiTexts defaultOptions twoTools).toOption.any
      (fun result => decide (splitRows result.1 .attackTrain = twoTools.drop 1)) = true by decide +kernel)
  refine ⟨splits, policy, hsplit, ?_⟩
  intro hkeep
  have hfree : "a-nmap" ∈ freeRuns asciiTexts defaultOptions twoTools := by decide +kernel
  obtain ⟨row, hin, htool⟩ := hkeep _ ⟨"a-nmap", hfree, rfl⟩
  rw [of_decide_eq_true htrain] at hin
  obtain rfl := List.mem_singleton.mp hin
  revert htool
  decide +kernel

end Pirewall.Dataset
