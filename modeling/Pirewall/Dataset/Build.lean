/-
# Pirewall.Dataset.Build -- building a dataset into a directory

`build` of `scripts/dataset/build_dataset.py`, from the inputs it has read to the split files and the ledger of test
sets in the output directory. The first half checks the inputs, caps the rows of each run, splits them and collects the
columns; the second half compares the dataset with the ledger, and only then writes. The manifest, which nothing reads
back, is left out.

The ledger holds digests. A digest function is given with its collision-freeness, for each kind of thing that is
hashed.
-/
import Pirewall.Dataset.AttackSplit
import Pirewall.Lib.Text
import Mathlib.Data.Prod.Lex

namespace Pirewall.Dataset

open Lib

/-! ## Rows and inputs -/

/-- A row, with its two times, which the reader has parsed. -/
structure DataRow where
  cells : Dict String String
  firstSeenUs : Int
  lastSeenUs : Int

namespace DataRow

/-- `row.get(name, "")`. -/
def cell (row : DataRow) (name : String) : String := (row.cells.get? name).getD ""

/-- What the splits read of a row. -/
def view (row : DataRow) : AttackRow where
  sourceIp := row.cell "source_ip"
  sourcePort := row.cell "source_port"
  destinationIp := row.cell "destination_ip"
  destinationPort := row.cell "destination_port"
  protocol := row.cell "protocol"
  firstSeenUs := row.firstSeenUs
  lastSeenUs := row.lastSeenUs
  runId := row.cell "run_id"
  tool := row.cells.get? "tool"
  label := row.cells.get? "label"
  family := row.cells.get? "family"

def isBenign (row : DataRow) : Bool := row.cell "label" == "benign"

end DataRow

/-- `_Input`, what a directory was read as. -/
structure Input where
  envTag : String
  rows : List DataRow

/-- The role of an input. -/
def Input.isBenign (input : Input) : Bool := input.rows.all DataRow.isBenign

/-- The options of `build`. -/
structure BuildOptions where
  allowMixedBenign : List String
  maxRowsPerRun : Int
  seed : Int
  benignGapHours : ℚ
  attacks : AttackOptions
  allowTestRewrite : Bool

/-- What `build` asks of Python: floats, texts, and `random.Random(seed).sample(rows, n)`. -/
structure Python where
  floats : Floats
  texts : Texts
  sample : String → List DataRow → Nat → List DataRow

/-! ## Checks and caps -/

/-- The values of `EnvTag`. -/
def envTags : List String := ["pi-live", "pi-scripted", "sandbox", "mock"]

/-- The checks of the environment tags. -/
def checkTags (py : Python) (options : BuildOptions) (inputs : List Input) : Except DatasetError Unit :=
  let tags := sorted (inputs.map Input.envTag).dedup
  let allowed := sorted ((options.allowMixedBenign.map strip).filter (· ≠ "")).dedup
  let unknown := allowed.filter fun tag => decide (tag ∉ envTags)
  let benignTags := sorted ((inputs.filter Input.isBenign).map Input.envTag).dedup
  if unknown ≠ [] then .error ⟨"unknown --allow-mixed-benign tags " ++ py.texts.names unknown⟩
  else if 1 < tags.length then
    if allowed = [] ∨ ¬∀ tag ∈ tags, tag ∈ allowed then
      .error ⟨"inputs mix env tags " ++ py.texts.names tags ++ "; build each tag separately or pass " ++
        "--allow-mixed-benign " ++ ",".intercalate tags ++ " (benign only)"⟩
    else if ¬∀ tag ∈ benignTags, tag ∈ allowed then
      .error ⟨"benign inputs mix tags " ++ py.texts.names benignTags ++ " not covered by " ++
        "--allow-mixed-benign " ++ ",".intercalate allowed⟩
    else .ok ()
  else .ok ()

/-- The order of the rows of a run before they are sampled. -/
def rowOrder (row : DataRow) : Int ×ₗ String ×ₗ String ×ₗ String ×ₗ String :=
  toLex (row.firstSeenUs, toLex (row.cell "source_ip", toLex (row.cell "source_port",
    toLex (row.cell "destination_ip", row.cell "destination_port"))))

/-- The rows of one run that `_cap_per_run` keeps. -/
def capRun (py : Python) (maxRows : Nat) (seed : Int) (runId : String) (group : List DataRow) : List DataRow :=
  let ordered := group.insertionSort fun a b => rowOrder a ≤ rowOrder b
  if ordered.length ≤ maxRows then ordered
  else (py.sample (toString seed ++ ":" ++ runId) ordered maxRows).insertionSort fun a b =>
    a.firstSeenUs ≤ b.firstSeenUs

/-- `_cap_per_run`, without the counts. -/
def capPerRun (py : Python) (options : BuildOptions) (rows : List DataRow) : List DataRow :=
  if options.maxRowsPerRun ≤ 0 then rows
  else
    let grouped := Dict.groupBy (fun row : DataRow => row.cell "run_id") rows
    (sorted grouped.keys).flatMap fun runId =>
      capRun py options.maxRowsPerRun.toNat options.seed runId ((grouped.get? runId).getD [])

/-! ## All splits -/

/-- A `SplitName`. -/
inductive DataSplit
  | benign (name : SplitName)
  | attack (name : AttackSplit)
  deriving DecidableEq

def DataSplit.text : DataSplit → String
  | .benign name => name.text
  | .attack name => name.text

/-- `TEST_SPLITS`. -/
def testSplits : List DataSplit :=
  [.benign .benignTest, .attack .attackTestRunHoldout, .attack .attackTestLeaveOneToolOut,
    .attack .attackTestParameterHoldout]

/-- The rows under each name. -/
abbrev DataSplits := Dict DataSplit (List DataRow)

/-- The splits of these names, with nothing in them. -/
def noRows (names : List DataSplit) : DataSplits := names.foldl (fun splits name => splits.set name []) Dict.empty

/-- `_split_benign`, dealing out whole rows. -/
def dealBenign (py : Python) (options : BuildOptions) (rows : List DataRow) : Except DatasetError DataSplits :=
  let seen := rows.map fun row => row.view.toRow
  match splitBenign py.floats seen options.benignGapHours with
  | .error failure => .error failure
  | .ok _ =>
    let boundaries := benignBoundaries py.floats seen options.benignGapHours
    let kept := rows.filter fun row =>
      decide (connectionKey row.view.toRow ∉ crossingConnections seen boundaries)
    .ok (kept.foldl (Dict.addTo fun row => DataSplit.benign (splitOf boundaries row.view.toRow))
      (noRows ([SplitName.benignTrain, .benignValidation, .benignGap, .benignTest].map DataSplit.benign)))

/-- One turn of the loop of `_split_attacks` over the runs, with whole rows. -/
def dealRun (assigned : Dict String AttackSplit) (splits : DataSplits) (entry : String × List DataRow) : DataSplits :=
  match assigned.get? entry.1 with
  -- every run has been assigned
  | none => splits
  | some name => splits.set (.attack name) ((splits.get? (.attack name)).getD [] ++ entry.2)

/-- `_split_attacks`, dealing out whole rows; nothing is dealt of an empty input. -/
def dealAttacks (py : Python) (options : BuildOptions) (rows : List DataRow) : Except SplitFailure DataSplits :=
  let seen := rows.map DataRow.view
  match splitAttacks py.floats py.texts options.attacks seen with
  | .error failure => .error failure
  | .ok _ =>
    if rows.isEmpty then .ok Dict.empty
    else .ok ((Dict.groupBy (fun row => row.view.runId) rows).entries.foldl
      (dealRun (assignment py.floats py.texts options.attacks seen)) (noRows (AttackSplit.all.map DataSplit.attack)))

/-- `SPLIT_COLUMNS`, and the names that are asked for once more after them. -/
def splitColumns : List String :=
  ["run_id", "tool", "family", "env_tag", "split", "label", "run_id", "tool", "family", "env_tag", "split"]

/-- A column is added once. -/
def addColumn (columns : List String) (name : String) : List String :=
  if name ∈ columns then columns else columns ++ [name]

/-- `columns`: those of the first row of each input, then those of the splits. -/
def columnsOf (inputs : List Input) : List String :=
  let named := inputs.flatMap fun input => (input.rows.head?.map fun row => row.cells.keys).getD []
  (named ++ splitColumns).foldl addColumn []

theorem dealRun_get? (assigned : Dict String AttackSplit) (splits : DataSplits) (entry : String × List DataRow)
    (name : AttackSplit) :
    ((dealRun assigned splits entry).get? (.attack name)).getD [] =
      (splits.get? (.attack name)).getD [] ++ if assigned.get? entry.1 = some name then entry.2 else [] := by
  unfold dealRun
  split
  · rename_i hnone
    rw [hnone, if_neg (by simp), List.append_nil]
  · rename_i other hother
    rw [hother, Dict.get?_set]
    by_cases hname : name = other
    · subst hname
      simp
    · simp [hname, Ne.symm hname]

theorem foldl_dealRun_get? (assigned : Dict String AttackSplit) (splits : DataSplits)
    (entries : List (String × List DataRow)) (name : AttackSplit) :
    ((entries.foldl (dealRun assigned) splits).get? (.attack name)).getD [] =
      (splits.get? (.attack name)).getD [] ++
        (entries.filter fun entry => decide (assigned.get? entry.1 = some name)).flatMap Prod.snd := by
  induction entries generalizing splits with
  | nil => exact (List.append_nil _).symm
  | cons entry entries ih =>
    rw [List.foldl_cons, ih, dealRun_get?, List.append_assoc]
    by_cases hname : assigned.get? entry.1 = some name
    · simp [hname]
    · simp [hname]

/-- What is dealt of the benign rows is what `_split_benign` returns of what it reads. -/
theorem dealBenign_view {py : Python} {options : BuildOptions} {rows : List DataRow} {dealt : DataSplits}
    {splits : Splits} {bounds : Bounds} {dropped : Nat} (hdeal : dealBenign py options rows = .ok dealt)
    (hsplit : splitBenign py.floats (rows.map fun row => row.view.toRow) options.benignGapHours =
      .ok (splits, bounds, dropped)) (name : SplitName) :
    ((dealt.get? (.benign name)).getD []).map (fun row => row.view.toRow) = splits name := by
  rw [dealBenign, hsplit] at hdeal
  cases hdeal
  have hempty : ((noRows ([SplitName.benignTrain, .benignValidation, .benignGap, .benignTest].map
      DataSplit.benign)).get? (.benign name)).getD [] = [] := by cases name <;> rfl
  rw [Dict.getD_get?_foldl_addTo, hempty, List.nil_append, List.filter_filter, (splitBenign_ok hsplit).splits,
    List.filter_map]
  refine congrArg _ (List.filter_congr ?_)
  intro row _
  simp [Bool.and_comm]

/-- What is dealt of the attack rows is what `_split_attacks` returns of what it reads. -/
theorem dealAttacks_view {py : Python} {options : BuildOptions} {rows : List DataRow} {dealt : DataSplits}
    {splits : AttackSplits} {policy : AttackPolicy} (hdeal : dealAttacks py options rows = .ok dealt)
    (hsplit : splitAttacks py.floats py.texts options.attacks (rows.map DataRow.view) = .ok (splits, policy))
    (name : AttackSplit) :
    ((dealt.get? (.attack name)).getD []).map DataRow.view = splitRows splits name := by
  rw [(splitAttacks_ok hsplit).groups, byRun, Dict.groupBy_map]
  rw [dealAttacks, hsplit] at hdeal
  dsimp only at hdeal
  split_ifs at hdeal with hrows
  · obtain rfl := List.isEmpty_iff.mp hrows
    cases hdeal
    rfl
  · cases hdeal
    have hempty : ((noRows (AttackSplit.all.map DataSplit.attack)).get? (.attack name)).getD [] = [] := by
      cases name <;> rfl
    rw [foldl_dealRun_get?, hempty, List.nil_append, Dict.mapValues, List.filter_map, List.flatMap_map,
      List.map_flatMap]
    rfl

/-- `all_splits` and `columns`: what the second half writes. -/
structure Prepared where
  splits : DataSplits
  columns : List String

/-- The first half of `build`, from the inputs as they were read. -/
def prepare (py : Python) (options : BuildOptions) (inputs : List Input) : Except SplitFailure Prepared :=
  if inputs.isEmpty then .error (.dataset ⟨"give at least one pcap_to_flows output directory"⟩)
  else if options.benignGapHours ≤ 0 then .error (.dataset ⟨"--benign-gap-hours must be positive"⟩)
  else if options.maxRowsPerRun < 0 then
    .error (.dataset ⟨"--max-rows-per-run must be >= 0 (0 disables the cap)"⟩)
  else do
    (checkTags py options inputs).mapError SplitFailure.dataset
    let rows := inputs.flatMap Input.rows
    let benignRows := capPerRun py options (rows.filter DataRow.isBenign)
    let attackRows := capPerRun py options (rows.filter fun row => !row.isBenign)
    if benignRows.isEmpty then .error (.dataset ⟨"no benign rows in the inputs"⟩)
    else do
      let benignSplits ← (dealBenign py options benignRows).mapError SplitFailure.dataset
      let attackSplits ← dealAttacks py options attackRows
      let allSplits := attackSplits.entries.foldl (fun splits entry => splits.set entry.1 entry.2) benignSplits
      return ⟨allSplits, columnsOf inputs⟩

/-! ## Files -/

/-- A field as `csv` writes it: in quotes, if a separator, a quote or a line break is in it. -/
def csvField (text : String) : String :=
  if text.toList.any fun c => c == ',' || c == '"' || c == '\r' || c == '\n' then
    "\"" ++ String.ofList (text.toList.flatMap fun c => if c = '"' then ['"', '"'] else [c]) ++ "\""
  else text

/-- A line as `csv` writes it. -/
def csvLine (fields : List String) : String := ",".intercalate (fields.map csvField) ++ "\r\n"

/-- What `_write_split` writes, after the rows were given the name of their split. -/
def splitText (columns : List String) (name : DataSplit) (rows : List DataRow) : String :=
  String.join (csvLine columns :: rows.map fun row =>
    csvLine (columns.map fun column => ((row.cells.set "split" name.text).get? column).getD ""))

/-! ## The ledger -/

/-- What the dataset id takes of a row. -/
structure RowIdentity where
  runId : String
  firstSeenUs : String
  label : String
  connectionKey : ConnectionKey
  deriving DecidableEq

def DataRow.identity (row : DataRow) : RowIdentity :=
  ⟨row.cell "run_id", row.cell "first_seen_us", row.cell "label", connectionKey row.view.toRow⟩

/-- SHA-256, of a file, of the JSON of a list of identities and of the JSON of the digests of the splits: no two of
one kind have one digest. -/
structure Sha256 where
  FileDigest : Type
  SplitDigest : Type
  DatasetId : Type
  file : String → FileDigest
  split : List RowIdentity → SplitDigest
  dataset : List (DataSplit × SplitDigest) → DatasetId
  file_injective : Function.Injective file
  split_injective : Function.Injective split
  dataset_injective : Function.Injective dataset
  decEqFile : DecidableEq FileDigest
  decEqId : DecidableEq DatasetId

instance (sha : Sha256) : DecidableEq sha.FileDigest := sha.decEqFile

instance (sha : Sha256) : DecidableEq sha.DatasetId := sha.decEqId

inductive LedgerAction
  | written
  | rewritten
  deriving DecidableEq

/-- An entry of `test_access_ledger.jsonl`. -/
structure LedgerEntry (sha : Sha256) where
  timestamp : String
  action : LedgerAction
  datasetId : sha.DatasetId
  split : DataSplit
  sha256 : sha.FileDigest
  rows : Nat
  envTags : List String
  builderVersion : String
  allowTestRewrite : Bool

/-- The output directory. -/
structure Directory (sha : Sha256) where
  path : String
  ledger : List (LedgerEntry sha)
  files : Dict DataSplit String

/-- `sorted(all_splits.items())`. -/
def Prepared.sortedSplits (prepared : Prepared) : List (DataSplit × List DataRow) :=
  prepared.splits.entries.insertionSort fun a b => a.1.text ≤ b.1.text

/-- The identities of the rows of every split that has rows. -/
def Prepared.identities (prepared : Prepared) : List (DataSplit × List RowIdentity) :=
  (prepared.sortedSplits.filter fun entry => !entry.2.isEmpty).map fun entry =>
    (entry.1, entry.2.map DataRow.identity)

/-- `dataset_id`. -/
def Prepared.datasetId (sha : Sha256) (prepared : Prepared) : sha.DatasetId :=
  sha.dataset (prepared.identities.map fun entry => (entry.1, sha.split entry.2))

/-- `previous_tests`: the dataset of each split, as it was recorded last. -/
def previousTests {sha : Sha256} (ledger : List (LedgerEntry sha)) : Dict DataSplit sha.DatasetId :=
  ledger.foldl (fun previous entry => previous.set entry.split entry.datasetId) Dict.empty

/-- `changed`. -/
def changedSplits {sha : Sha256} (ledger : List (LedgerEntry sha)) (datasetId : sha.DatasetId) : List DataSplit :=
  testSplits.filter fun name => ((previousTests ledger).get? name).any fun recorded => decide (recorded ≠ datasetId)

/-- `BUILDER_VERSION`. -/
def builderVersion : String := "1.0.0"

/-- The ledger entry of a test split that was written. -/
def ledgerEntry (sha : Sha256) (prepared : Prepared) (options : BuildOptions) (now : String)
    (changed : List DataSplit) (name : DataSplit) (rows : List DataRow) : LedgerEntry sha where
  timestamp := now
  action := if name ∈ changed then .rewritten else .written
  datasetId := prepared.datasetId sha
  split := name
  sha256 := sha.file (splitText prepared.columns name rows)
  rows := rows.length
  envTags := sorted ((rows.map fun row => row.cell "env_tag").dedup)
  builderVersion := builderVersion
  allowTestRewrite := options.allowTestRewrite

/-- `ledger_entries`. -/
def ledgerEntries (sha : Sha256) (prepared : Prepared) (options : BuildOptions) (now : String)
    (changed : List DataSplit) : List (LedgerEntry sha) :=
  testSplits.filterMap fun name =>
    (prepared.splits.get? name).map (ledgerEntry sha prepared options now changed name)

/-- The second half of `build`: what it raises, and the directory it leaves. -/
def publish {sha : Sha256} (py : Python) (options : BuildOptions) (now : String) (prepared : Prepared)
    (directory : Directory sha) : Except SplitFailure Unit × Directory sha :=
  let changed := changedSplits directory.ledger (prepared.datasetId sha)
  if changed ≠ [] ∧ options.allowTestRewrite = false then
    (.error (.dataset ⟨directory.path ++ "/test_access_ledger.jsonl already records a different test dataset for " ++
      py.texts.names (sorted (changed.map DataSplit.text)) ++ "; use a new --out directory or pass " ++
      "--allow-test-rewrite (the override is recorded)"⟩), directory)
  else
    let files := prepared.sortedSplits.foldl
      (fun files entry => files.set entry.1 (splitText prepared.columns entry.1 entry.2)) directory.files
    (.ok (), { directory with
      files := files
      ledger := directory.ledger ++ ledgerEntries sha prepared options now changed })

/-- A call of `build`: what its input directories were read as, or what reading them raised. -/
structure BuildCall where
  inputs : Except DatasetError (List Input)
  options : BuildOptions
  now : String

/-- The first half of a call. -/
def BuildCall.prepared (py : Python) (call : BuildCall) : Except SplitFailure Prepared :=
  match call.inputs with
  | .error failure => .error (.dataset failure)
  | .ok inputs => prepare py call.options inputs

/-- `build`. -/
def build {sha : Sha256} (py : Python) (directory : Directory sha) (call : BuildCall) :
    Except SplitFailure Unit × Directory sha :=
  match call.prepared py with
  | .error failure => (.error failure, directory)
  | .ok prepared => publish py call.options call.now prepared directory

end Pirewall.Dataset
