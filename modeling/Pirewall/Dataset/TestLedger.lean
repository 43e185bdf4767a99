/-
# Pirewall.Dataset.TestLedger -- what the ledger of test sets notices

A run is any sequence of calls of `build` into one directory. Beside the directory it remembers, for the statements
only, which datasets were written: the ledger keeps of each split the dataset and the file it was written with last
(`Recorded`).

The ledger check compares datasets by the identities of their rows, over all splits together, and not the files.
`test_sets_change_openly_iff` says in which runs that is enough.
-/
import Pirewall.Dataset.Build
import Pirewall.Lib.Run

namespace Pirewall.Dataset

open Lib

variable {sha : Sha256}

/-! ## The entry that was recorded last -/

/-- The last entry of a split. -/
def lastEntry (ledger : List (LedgerEntry sha)) (name : DataSplit) : Option (LedgerEntry sha) :=
  (ledger.filter fun entry => decide (entry.split = name)).getLast?

theorem lastEntry_append (ledger new : List (LedgerEntry sha)) (name : DataSplit) :
    lastEntry (ledger ++ new) name = (lastEntry new name).or (lastEntry ledger name) := by
  rw [lastEntry, List.filter_append, List.getLast?_append]
  rfl

/-- `previous_tests` has the dataset of the last entry. -/
theorem get?_previousTests (ledger : List (LedgerEntry sha)) (name : DataSplit) :
    (previousTests ledger).get? name = (lastEntry ledger name).map LedgerEntry.datasetId := by
  induction ledger using List.reverseRecOn with
  | nil => rfl
  | append_singleton ledger entry ih =>
    rw [previousTests, List.foldl_append, List.foldl_cons, List.foldl_nil, Dict.get?_set, lastEntry_append]
    by_cases hname : name = entry.split
    · simp [hname, lastEntry]
    · rw [if_neg hname, ← previousTests, ih]
      simp [lastEntry, Ne.symm hname]

theorem mem_changedSplits {ledger : List (LedgerEntry sha)} {datasetId : sha.DatasetId} {name : DataSplit} :
    name ∈ changedSplits ledger datasetId ↔
      name ∈ testSplits ∧ ∃ entry, lastEntry ledger name = some entry ∧ entry.datasetId ≠ datasetId := by
  rw [changedSplits, List.mem_filter, get?_previousTests]
  cases lastEntry ledger name <;> simp

/-- Of names that differ, each has at most one entry. -/
theorem filter_filterMap_split {names : List DataSplit} (h : names.Nodup)
    {entryOf : DataSplit → Option (LedgerEntry sha)}
    (hsplit : ∀ name entry, entryOf name = some entry → entry.split = name) (name : DataSplit) :
    (names.filterMap entryOf).filter (fun entry => decide (entry.split = name)) =
      if name ∈ names then (entryOf name).toList else [] := by
  induction names with
  | nil => rfl
  | cons other names ih =>
    rw [List.nodup_cons] at h
    have hrest := ih h.2
    by_cases hname : name = other
    · subst hname
      rw [if_neg h.1] at hrest
      cases hentry : entryOf name with
      | none => simp [hentry, hrest]
      | some entry => simp [hentry, hrest, hsplit name entry hentry]
    · cases hentry : entryOf other with
      | none => simp [hentry, hrest, hname]
      | some entry =>
        have hother : entry.split ≠ name := fun h => hname (h.symm.trans (hsplit other entry hentry))
        simp [hentry, hrest, hname, hother]

/-- What a build adds to the ledger about a test split it writes. -/
theorem lastEntry_ledgerEntries (sha : Sha256) (prepared : Prepared) (options : BuildOptions) (now : String)
    (changed : List DataSplit) {name : DataSplit} (hname : name ∈ testSplits) :
    lastEntry (ledgerEntries sha prepared options now changed) name =
      (prepared.splits.get? name).map (ledgerEntry sha prepared options now changed name) := by
  have hsplit : ∀ name entry,
      (prepared.splits.get? name).map (ledgerEntry sha prepared options now changed name) = some entry →
        entry.split = name := by
    intro name entry hentry
    obtain ⟨rows, _, rfl⟩ := Option.map_eq_some_iff.mp hentry
    rfl
  rw [lastEntry, ledgerEntries, filter_filterMap_split (by decide) hsplit, if_pos hname]
  cases prepared.splits.get? name <;> rfl

/-! ## Runs of builds -/

/-- What is written under a name. -/
def Prepared.text (prepared : Prepared) (name : DataSplit) : String :=
  splitText prepared.columns name ((prepared.splits.get? name).getD [])

/-- Different identities have different ids. -/
theorem datasetId_eq_iff {a b : Prepared} : a.datasetId sha = b.datasetId sha ↔ a.identities = b.identities := by
  constructor
  · intro h
    refine List.map_injective_iff.mpr ?_ (sha.dataset_injective h)
    rintro ⟨name, ids⟩ ⟨name', ids'⟩ hpair
    obtain ⟨hname, hids⟩ := Prod.mk.inj hpair
    exact Prod.ext hname (sha.split_injective hids)
  · intro h
    rw [Prepared.datasetId, h, ← Prepared.datasetId]

/-- The directory, with the datasets that were written into it, oldest first. -/
structure Builds (sha : Sha256) where
  directory : Directory sha
  published : List Prepared

/-- An empty directory. -/
def Builds.start (sha : Sha256) (path : String) : Builds sha := ⟨⟨path, [], Dict.empty⟩, []⟩

/-- One call of `build`. -/
def Builds.next (py : Python) (builds : Builds sha) (call : BuildCall) : Builds sha where
  directory := (build py builds.directory call).2
  published :=
    match call.prepared py, (build py builds.directory call).1 with
    | .ok prepared, .ok _ => builds.published ++ [prepared]
    | _, _ => builds.published

/-- The dataset whose file of a split was written last. -/
def latest (published : List Prepared) (name : DataSplit) : Option Prepared :=
  (published.filter fun prepared => (prepared.splits.get? name).isSome).getLast?

/-- The ledger says of every test split what was written last. -/
def Recorded (builds : Builds sha) : Prop :=
  ∀ name ∈ testSplits, (lastEntry builds.directory.ledger name).map (fun entry => (entry.datasetId, entry.sha256)) =
    (latest builds.published name).map fun prepared => (prepared.datasetId sha, sha.file (prepared.text name))

theorem recorded_start (path : String) : Recorded (Builds.start sha path) := fun _ _ => rfl

/-- The ledger changes only by what a build that writes appends. -/
theorem next_of_ok {py : Python} (builds : Builds sha) {call : BuildCall} {prepared : Prepared}
    (hprepared : call.prepared py = .ok prepared) :
    (changedSplits builds.directory.ledger (prepared.datasetId sha) ≠ [] ∧ call.options.allowTestRewrite = false ∧
      (∃ failure, (build py builds.directory call).1 = .error (.dataset failure)) ∧
      builds.next py call = builds) ∨
    (¬(changedSplits builds.directory.ledger (prepared.datasetId sha) ≠ [] ∧
        call.options.allowTestRewrite = false) ∧
      (build py builds.directory call).1 = .ok () ∧
      (builds.next py call).directory.ledger = builds.directory.ledger ++ ledgerEntries sha prepared call.options
        call.now (changedSplits builds.directory.ledger (prepared.datasetId sha)) ∧
      (builds.next py call).published = builds.published ++ [prepared]) := by
  by_cases hrefused : changedSplits builds.directory.ledger (prepared.datasetId sha) ≠ [] ∧
      call.options.allowTestRewrite = false
  · refine .inl ⟨hrefused.1, hrefused.2, ?_, ?_⟩
    · rw [build, hprepared]
      dsimp only
      rw [publish, if_pos hrefused]
      exact ⟨_, rfl⟩
    · rw [Builds.next, build, hprepared]
      dsimp only
      rw [publish, if_pos hrefused]
  · refine .inr ⟨hrefused, ?_, ?_, ?_⟩
    · rw [build, hprepared]
      dsimp only
      rw [publish, if_neg hrefused]
    · rw [Builds.next, build, hprepared]
      dsimp only
      rw [publish, if_neg hrefused]
    · rw [Builds.next, build, hprepared]
      dsimp only
      rw [publish, if_neg hrefused]

theorem next_of_error {py : Python} {builds : Builds sha} {call : BuildCall} {failure : SplitFailure}
    (hfailed : call.prepared py = .error failure) : builds.next py call = builds := by
  rw [Builds.next, build, hfailed]

theorem recorded_next (py : Python) (builds : Builds sha) (call : BuildCall) (h : Recorded builds) :
    Recorded (builds.next py call) := by
  cases hprepared : call.prepared py with
  | error failure =>
    rw [next_of_error hprepared]
    exact h
  | ok prepared =>
    rcases next_of_ok builds hprepared with ⟨_, _, _, hsame⟩ | ⟨_, _, hledger, hpublished⟩
    · rw [hsame]
      exact h
    intro name hname
    rw [hledger, hpublished, lastEntry_append, lastEntry_ledgerEntries _ _ _ _ _ hname, latest, List.filter_append,
      List.getLast?_append]
    cases hrows : prepared.splits.get? name with
    | none => simpa [hrows, latest] using h name hname
    | some rows => simp [hrows, ledgerEntry, Prepared.text]

/-! ## Changes of test sets -/

/-- What is promised of a build: where it would write a test split whose file is not the recorded one, it is refused
and leaves the directory as it was, or a rewrite is allowed and the entry of the split says so. -/
def ChangesOpenly (py : Python) (directory : Directory sha) (call : BuildCall) : Prop :=
  ∀ prepared, call.prepared py = .ok prepared → ∀ name ∈ testSplits, (prepared.splits.get? name).isSome = true →
    ∀ entry, lastEntry directory.ledger name = some entry → entry.sha256 ≠ sha.file (prepared.text name) →
      if call.options.allowTestRewrite = true then
        ∃ new recorded, (build py directory call).2.ledger = directory.ledger ++ new ∧
          lastEntry new name = some recorded ∧ recorded.action = .rewritten
      else
        (∃ failure, (build py directory call).1 = .error (.dataset failure)) ∧
          (build py directory call).2 = directory

/-- Whenever the file of a test split changes, the identities of the rows have changed: against the dataset that file
was written with last where a rewrite is allowed, and against that of some recorded test split where it is not. -/
def IdentitiesTell (py : Python) (builds : Builds sha) (call : BuildCall) : Prop :=
  ∀ prepared, call.prepared py = .ok prepared → ∀ name ∈ testSplits, (prepared.splits.get? name).isSome = true →
    ∀ last, latest builds.published name = some last → last.text name ≠ prepared.text name →
      if call.options.allowTestRewrite = true then last.identities ≠ prepared.identities
      else ∃ other ∈ testSplits, ∃ last', latest builds.published other = some last' ∧
        last'.identities ≠ prepared.identities

/-- The entry and the dataset of a split go together. -/
theorem exists_entry_iff {builds : Builds sha} (h : Recorded builds) {name : DataSplit} (hname : name ∈ testSplits)
    {P : sha.DatasetId → sha.FileDigest → Prop} :
    (∃ entry, lastEntry builds.directory.ledger name = some entry ∧ P entry.datasetId entry.sha256) ↔
      ∃ last, latest builds.published name = some last ∧ P (last.datasetId sha) (sha.file (last.text name)) := by
  have hrecorded := h name hname
  cases hentry : lastEntry builds.directory.ledger name with
  | none =>
    rw [hentry, Option.map_none, eq_comm, Option.map_eq_none_iff] at hrecorded
    simp [hrecorded]
  | some entry =>
    rw [hentry, Option.map_some, eq_comm, Option.map_eq_some_iff] at hrecorded
    obtain ⟨last, hlast, hpair⟩ := hrecorded
    obtain ⟨hid, hdigest⟩ := Prod.mk.inj hpair
    simp [hlast, hid, hdigest]

/-- A split has changed when its dataset had other identities. -/
theorem mem_changedSplits_iff {builds : Builds sha} (h : Recorded builds) {prepared : Prepared} {name : DataSplit} :
    name ∈ changedSplits builds.directory.ledger (prepared.datasetId sha) ↔
      name ∈ testSplits ∧ ∃ last, latest builds.published name = some last ∧
        last.identities ≠ prepared.identities := by
  rw [mem_changedSplits]
  refine and_congr_right ?_
  intro hname
  rw [exists_entry_iff h hname (P := fun recorded _ => recorded ≠ prepared.datasetId sha)]
  simp only [ne_eq, datasetId_eq_iff]

/-- What a build does about a test split it writes depends on the changed splits only. -/
theorem openly_iff_changed {py : Python} {builds : Builds sha} {call : BuildCall} {prepared : Prepared}
    (hprepared : call.prepared py = .ok prepared) {name : DataSplit} (hname : name ∈ testSplits)
    (hwritten : (prepared.splits.get? name).isSome = true) :
    (if call.options.allowTestRewrite = true then
      ∃ new recorded, (build py builds.directory call).2.ledger = builds.directory.ledger ++ new ∧
        lastEntry new name = some recorded ∧ recorded.action = .rewritten
    else
      (∃ failure, (build py builds.directory call).1 = .error (.dataset failure)) ∧
        (build py builds.directory call).2 = builds.directory) ↔
    if call.options.allowTestRewrite = true then
      name ∈ changedSplits builds.directory.ledger (prepared.datasetId sha)
    else changedSplits builds.directory.ledger (prepared.datasetId sha) ≠ [] := by
  rcases next_of_ok builds hprepared with
    ⟨hchanged, hrefused, hfailure, hsame⟩ | ⟨hallowed, hok, hledger, _⟩
  · rw [hrefused, if_neg Bool.false_ne_true, if_neg Bool.false_ne_true]
    exact iff_of_true ⟨hfailure, congrArg Builds.directory hsame⟩ hchanged
  cases hallow : call.options.allowTestRewrite with
  | false =>
    rw [if_neg Bool.false_ne_true, if_neg Bool.false_ne_true]
    refine iff_of_false ?_ (fun hchanged => hallowed ⟨hchanged, hallow⟩)
    rintro ⟨⟨failure, hfailure⟩, _⟩
    rw [hok] at hfailure
    cases hfailure
  | true =>
    obtain ⟨rows, hrows⟩ := Option.isSome_iff_exists.mp hwritten
    have hadded := lastEntry_ledgerEntries sha prepared call.options call.now
      (changedSplits builds.directory.ledger (prepared.datasetId sha)) hname
    rw [hrows, Option.map_some] at hadded
    rw [if_pos rfl, if_pos rfl]
    constructor
    · rintro ⟨new, recorded, hnew, hlast, haction⟩
      obtain rfl := List.append_cancel_left (hledger.symm.trans hnew)
      rw [hadded] at hlast
      obtain rfl := Option.some.inj hlast
      by_contra hchanged
      rw [ledgerEntry, if_neg hchanged] at haction
      cases haction
    · intro hchanged
      exact ⟨_, _, hledger, hadded, if_pos hchanged⟩

/-- One build changes the test sets openly exactly when the identities tell. -/
theorem changesOpenly_iff (py : Python) (builds : Builds sha) (call : BuildCall) (h : Recorded builds) :
    ChangesOpenly py builds.directory call ↔ IdentitiesTell py builds call := by
  refine forall₂_congr ?_
  intro prepared hprepared
  refine forall₂_congr ?_
  intro name hname
  refine forall_congr' ?_
  intro hwritten
  simp only [openly_iff_changed hprepared hname hwritten]
  have hentry := exists_entry_iff h hname (P := fun _ digest => digest ≠ sha.file (prepared.text name))
  have hsome : changedSplits builds.directory.ledger (prepared.datasetId sha) ≠ [] ↔
      ∃ other ∈ testSplits, ∃ last', latest builds.published other = some last' ∧
        last'.identities ≠ prepared.identities := by
    constructor
    · intro hchanged
      obtain ⟨other, hother⟩ := List.exists_mem_of_ne_nil _ hchanged
      exact ⟨other, (mem_changedSplits_iff h).mp hother⟩
    · rintro ⟨other, hother⟩
      exact List.ne_nil_of_mem ((mem_changedSplits_iff h).mpr hother)
  constructor
  · intro hopenly last hlast htext
    obtain ⟨entry, hfound, hdigest⟩ := hentry.mpr ⟨last, hlast, sha.file_injective.ne htext⟩
    have hdone := hopenly entry hfound hdigest
    split_ifs at hdone ⊢
    · obtain ⟨_, last', hlast', hidentities⟩ := (mem_changedSplits_iff h).mp hdone
      rw [hlast] at hlast'
      obtain rfl := Option.some.inj hlast'
      exact hidentities
    · exact hsome.mp hdone
  · intro htell entry hfound hdigest
    obtain ⟨last, hlast, hfile⟩ := hentry.mp ⟨entry, hfound, hdigest⟩
    have hdone := htell last hlast fun htext => hfile (congrArg sha.file htext)
    split_ifs at hdone ⊢
    · exact (mem_changedSplits_iff h).mpr ⟨hname, last, hlast, hdone⟩
    · exact hsome.mpr hdone

/-- **Test sets change openly in exactly the runs in which the identities tell**: in every build of the run, whenever
a test file changes. -/
theorem test_sets_change_openly_iff (sha : Sha256) (py : Python) (path : String) (calls : List BuildCall) :
    Along (Builds.next py) (fun builds call => ChangesOpenly py builds.directory call) (Builds.start sha path) calls ↔
      Along (Builds.next py) (IdentitiesTell py) (Builds.start sha path) calls :=
  Along.iff_of_invariant (G := fun _ _ => True) (fun builds call h _ => changesOpenly_iff py builds call h)
    (fun builds call h _ _ => recorded_next py builds call h) (Along.of_forall (fun _ _ _ => trivial) _)
    (recorded_start path)

/-! ## A silent change -/

/-- Digests that show what they were taken of. -/
def plainDigests : Sha256 where
  FileDigest := String
  SplitDigest := List RowIdentity
  DatasetId := List (DataSplit × List RowIdentity)
  file := id
  split := id
  dataset := id
  file_injective := Function.injective_id
  split_injective := Function.injective_id
  dataset_injective := Function.injective_id
  decEqFile := inferInstance
  decEqId := inferInstance

/-- No run is long enough to be sampled. -/
def plainPython : Python := ⟨exactFloats, asciiTexts, fun _ rows n => rows.take n⟩

/-- A benign row of a capture, with one feature. -/
def benignRow (port : String) (firstHour : Int) (byteCount : String) : DataRow where
  cells := ⟨[("source_ip", "10.0.0.2"), ("source_port", port), ("destination_ip", "1.1.1.1"),
    ("destination_port", "443"), ("protocol", "tcp"), ("first_seen_us", toString (firstHour * hourUs)),
    ("last_seen_us", toString (firstHour * hourUs + 60000000)), ("byte_count", byteCount), ("label", "benign"),
    ("run_id", "home"), ("tool", "benign"), ("family", "benign"), ("env_tag", "pi-live")], by simp⟩
  firstSeenUs := firstHour * hourUs
  lastSeenUs := firstHour * hourUs + 60000000

/-- A build from one capture of 21 hours whose last row has this byte count. -/
def benignBuild (byteCount : String) : BuildCall where
  inputs := .ok [⟨"pi-live", [benignRow "50000" 0 "10", benignRow "50001" 13 "10", benignRow "50002" 20 byteCount]⟩]
  options := ⟨[], 5000, 42, 1, defaultOptions, false⟩
  now := ""

/-- The benign test block. -/
def benignTest : DataSplit := .benign .benignTest

/-- The second build writes another test block over the first, and neither refuses nor records it. -/
theorem test_block_changed_silently :
    ¬Along (Builds.next plainPython) (fun builds call => ChangesOpenly plainPython builds.directory call)
      (Builds.start plainDigests "out") [benignBuild "10", benignBuild "11"] := by
  rintro ⟨_, hopenly, _⟩
  obtain ⟨prepared, hprepared, hfacts⟩ := exists_ok_of_any
    (show ((benignBuild "11").prepared plainPython).toOption.any (fun prepared =>
      (prepared.splits.get? benignTest).isSome &&
        (lastEntry ((Builds.start plainDigests "out").next plainPython (benignBuild "10")).directory.ledger
          benignTest).any fun entry => decide (entry.sha256 ≠ plainDigests.file (prepared.text benignTest))) = true by
      decide +kernel)
  rw [Bool.and_eq_true, Option.any_eq_true] at hfacts
  obtain ⟨hwritten, entry, hentry, hdiffers⟩ := hfacts
  have hrefused := hopenly prepared hprepared benignTest (by decide) hwritten entry hentry (of_decide_eq_true hdiffers)
  rw [if_neg (by decide)] at hrefused
  obtain ⟨⟨failure, hfailure⟩, _⟩ := hrefused
  obtain ⟨_, hok, _⟩ := exists_ok_of_any
    (show (build plainPython ((Builds.start plainDigests "out").next plainPython (benignBuild "10")).directory
      (benignBuild "11")).1.toOption.any (fun _ => true) = true by decide +kernel)
  rw [hok] at hfailure
  cases hfailure

end Pirewall.Dataset
