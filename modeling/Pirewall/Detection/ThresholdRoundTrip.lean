/-
# Pirewall.Detection.ThresholdRoundTrip -- when a thresholds file is read back as it was

`load_thresholds` of what `dump_thresholds` writes is the file again exactly if its keys are bare, its strings have no
code point beyond U+FFFF and no surrogate, no float is a nan and no integer of the provenance has more than 4300
digits.

A key that is no bare key is the most likely to be met: `dump_thresholds` puts none between quotation marks, so a
blank in one makes a text that `tomllib` refuses.

Each of the conditions belongs to one layer. Strings are written as JSON writes them, with a pair of `\u` escapes for
a code point beyond U+FFFF, and TOML reads no surrogates. Python converts no integer of more than 4300 digits to text
or back, so `dump` already fails on one (`reprInt_isSome`). A nan is written and read back as a nan, which equals
nothing, itself included. And a key that is not bare is either no line at all or read as another key: that it cannot
be read back by some accident is the subject of `Pirewall.Detection.ThresholdKeys`.

The proof that the conditions are enough reads the written text line by line (`Pirewall.Detection.ThresholdText`) and
validates what was read (`validateProvenance_of_decoded`). That they are needed goes through each condition in turn
and finds where the round trip ends: at the dump, at the loader, or at the comparison.
-/
import Pirewall.Detection.ThresholdKeys

namespace Pirewall.Thresholds

open Lib
open Lib.Toml (FloatText)

variable {φ : Type} {pl : Platform φ}

/-! ## Validation of what is read -/

theorem codePoints_ofList {text : List CodePoint} {cs : List Char} (h : Json.plainText? text = some cs) :
    codePoints (String.ofList cs) = text := by
  rw [codePoints, String.toList_ofList]
  exact (Json.plainText?_eq_some h).symm

/-- What is read of a value is the value. -/
theorem validateProvenance_of_decoded {v : Provenance φ} {w : Toml.Value φ} (h : decoded v = some w) :
    validateProvenance w = some v := by
  cases v with
  | str text =>
    obtain ⟨cs, hcs, rfl⟩ := Option.map_eq_some_iff.mp h
    rw [validateProvenance, codePoints_ofList hcs]
  | int n =>
    cases h
    rfl
  | float x =>
    cases h
    rfl
  | bool b =>
    cases h
    rfl
  | list items =>
    obtain ⟨css, hcss, rfl⟩ := Option.map_eq_some_iff.mp h
    have hstr : (Toml.strings css : List (Toml.Value φ)).mapM asStr = some (css.map String.ofList) := by
      rw [Toml.strings, List.mapM_map]
      exact mapM_of_some fun cs _ => rfl
    have hback : items = css.map (codePoints ∘ String.ofList) :=
      elements_of_mapM hcss fun _ _ hcs => (codePoints_ofList hcs).symm
    rw [validateProvenance, hstr, Option.map_some, List.map_map, ← hback]

/-- The provenance that is read. -/
theorem validateProvenances_of_decoded {f : D1ThresholdFile pl} (hkeys : bareKeys f = true) {t : Toml.Entries φ}
    (h : decodedPairs (provenancePairs f) = some t) :
    validateProvenances (.table t) = some (Dict.ofPairs (sortedProvenance f)) := by
  have hread : (t.mapM fun e => (validateProvenance e.2).map fun v => (codePoints e.1, v)) =
      some ((provenancePairs f).map fun e => (codePoints e.1, e.2)) := by
    refine mapM_map_some h fun e _ e' he => ?_
    obtain ⟨v, hv, rfl⟩ := Option.map_eq_some_iff.mp he
    rw [validateProvenance_of_decoded hv]
    rfl
  rw [validateProvenances, hread, map_codePoints_provenancePairs hkeys]
  rfl

/-! ## Entries -/

/-- The text of a name that is read. -/
theorem decoded_name {name : String} {v : Toml.Value φ} (h : decoded (φ := φ) (.str (codePoints name)) = some v) :
    v = .str name := by
  obtain ⟨cs, hcs, rfl⟩ := Option.map_eq_some_iff.mp h
  rw [codePoints_injective (codePoints_ofList hcs)]

theorem decodedPairs_cons {e : String × Provenance φ} {ps : List (String × Provenance φ)} {t : Toml.Entries φ}
    (h : decodedPairs (e :: ps) = some t) :
    ∃ v rest, decoded e.2 = some v ∧ decodedPairs ps = some rest ∧ t = (e.1, v) :: rest := by
  obtain ⟨e', rest, he, hrest, rfl⟩ := mapM_cons_eq_some.mp h
  obtain ⟨v, hv, rfl⟩ := Option.map_eq_some_iff.mp he
  exact ⟨v, rest, hv, hrest, rfl⟩

/-- The table of an entry. -/
def entryTable (e : EntryFields φ) : Toml.Entries φ :=
  [("name", .str e.name), ("value", .float e.value), ("floor", .float e.floor), ("ceiling", .float e.ceiling)] ++
    (e.benignP999.toList.map fun x => ("benign_p999", .float x)) ++
    (e.margin.toList.map fun x => ("margin", .float x)) ++ [("samples", .int e.samples)]

theorem eq_entryTable {e : EntryFields φ} {t : Toml.Entries φ} (h : decodedPairs (writtenFields e) = some t) :
    t = entryTable e := by
  obtain ⟨name, value, floor, ceiling, benignP999, margin, samples⟩ := e
  obtain ⟨v, rest, hname, hrest, rfl⟩ := decodedPairs_cons h
  rw [decoded_name hname]
  -- the other fields are numbers; which of the optional ones there are decides the table
  cases benignP999 <;> cases margin <;> cases hrest <;> rfl

/-- An entry that is read is the entry. -/
theorem validateEntry_entryTable (e : ThresholdEntry pl) :
    validateEntry pl (.table (entryTable e.toEntryFields)) = some e := by
  obtain ⟨⟨name, value, floor, ceiling, benignP999, margin, samples⟩, hvalid⟩ := e
  cases benignP999 <;> cases margin <;>
    simp [validateEntry, entryTable, entryFieldNames, required, given, asStr, pl.asFloat_float, pl.asInt_int,
      List.lookup_cons, hvalid]

/-- The name that the loader finds in a written entry. -/
theorem itemName_entryTable (e : EntryFields φ) : itemName pl (.table (entryTable e)) = some e.name := by
  rw [itemName, show (entryTable e).lookup "name" = some (.str e.name) from rfl, pl.str_str]

/-! ## The whole file -/

/-- The names check if each does. -/
theorem checkNames_ok_iff {es : List (String × ThresholdEntry pl)} :
    FileFields.checkNames pl es = .ok () ↔ ∀ e ∈ es, e.2.name = e.1 ∧ (parseKey pl e.1).isOk = true := by
  induction es with
  | nil => simp [FileFields.checkNames]
  | cons e es ih =>
    obtain ⟨name, entry⟩ := e
    rw [FileFields.checkNames, List.forall_mem_cons, ← ih]
    by_cases hname : entry.name = name
    · rw [if_neg (not_not.mpr hname)]
      cases hkey : parseKey pl name with
      | error problem => simp [Except.isOk, Except.toBool]
      | ok key => simp [hname, Except.isOk, Except.toBool]
    · rw [if_pos hname]
      simp [hname]

/-- The names of a file's entries. -/
theorem name_of_mem {f : D1ThresholdFile pl} {e : String × ThresholdEntry pl} (he : e ∈ f.thresholds.entries) :
    e.2.name = e.1 :=
  (checkNames_ok_iff.mp f.checked.2.1 e he).1

/-- The hash does not depend on the order of the entries, as their names differ. -/
theorem entriesSha256_perm {es es' : List (ThresholdEntry pl)} (h : es.Perm es')
    (hnames : (es.map fun e => e.name).Nodup) : entriesSha256 pl es = entriesSha256 pl es' := by
  have hsorted : ∀ l : List (ThresholdEntry pl),
      (l.insertionSort fun a b => a.name ≤ b.name).Pairwise fun a b => a.name ≤ b.name := fun l =>
    List.pairwise_insertionSort _ l
  have hsort : (es.insertionSort fun a b => a.name ≤ b.name) = es'.insertionSort fun a b => a.name ≤ b.name := by
    refine List.Perm.eq_of_pairwise (fun a b ha hb hab hba => ?_) (hsorted es) (hsorted es') ?_
    · have ha := (List.mem_insertionSort _).mp ha
      have hb := h.mem_iff.mpr ((List.mem_insertionSort _).mp hb)
      exact List.inj_on_of_nodup_map hnames ha hb (String.le_antisymm hab hba)
    · exact (List.perm_insertionSort _ _).trans (h.trans (List.perm_insertionSort _ _).symm)
  rw [entriesSha256, hsort, entriesSha256]

/-- The fields of a file, its dictionaries sorted. -/
def sortedFields (f : D1ThresholdFile pl) : FileFields pl where
  version := f.version
  frozen := f.frozen
  sha256 := f.sha256
  provenance := Dict.ofPairs (sortedProvenance f)
  thresholds := Dict.ofPairs (sortedThresholds f)

theorem entries_sortedProvenance (f : D1ThresholdFile pl) :
    (Dict.ofPairs (sortedProvenance f)).entries = sortedProvenance f :=
  Dict.entries_ofPairs (((sortedProvenance_perm f).map Prod.fst).nodup_iff.mpr f.provenance.nodup)

theorem entries_sortedThresholds (f : D1ThresholdFile pl) :
    (Dict.ofPairs (sortedThresholds f)).entries = sortedThresholds f :=
  Dict.entries_ofPairs (((sortedThresholds_perm f).map Prod.fst).nodup_iff.mpr f.thresholds.nodup)

theorem sortedFields_valid (f : D1ThresholdFile pl) : (sortedFields f).valid = true := by
  obtain ⟨hversion, hnames, hhash⟩ := f.checked
  have hlen := f.valid
  rw [FileFields.valid, Bool.and_eq_true] at hlen
  have hsortedNames : FileFields.checkNames pl (sortedFields f).thresholds.entries = .ok () := by
    rw [sortedFields, entries_sortedThresholds, checkNames_ok_iff]
    exact fun e he => checkNames_ok_iff.mp hnames e (mem_sortedThresholds.mp he)
  have hsortedHash : entriesSha256 pl (sortedFields f).thresholds.values = some (sortedFields f).sha256 := by
    change _ = some f.sha256
    rw [← hhash, sortedFields, Dict.values, entries_sortedThresholds]
    refine entriesSha256_perm ((sortedThresholds_perm f).map Prod.snd) ?_
    have hfst : (sortedThresholds f).map (fun e => e.2.name) = (sortedThresholds f).map Prod.fst :=
      List.map_congr_left fun e he => name_of_mem (mem_sortedThresholds.mp he)
    rw [List.map_map]
    refine (congrArg List.Nodup hfst).mpr ?_
    exact ((sortedThresholds_perm f).map Prod.fst).nodup_iff.mpr f.thresholds.nodup
  rw [FileFields.valid, Bool.and_eq_true, FileFields.checkHash]
  refine ⟨hlen.1, ?_⟩
  rw [if_neg (show ¬(sortedFields f).version ≠ thresholdFileVersion from not_not.mpr hversion), hsortedNames]
  dsimp only
  rw [if_pos hsortedHash]
  rfl

/-- The file, its dictionaries sorted. -/
def sortedFile (f : D1ThresholdFile pl) : D1ThresholdFile pl := ⟨sortedFields f, sortedFields_valid f⟩

/-- **The document of a file is validated as the file.** -/
theorem validate_document {f : D1ThresholdFile pl} (hkeys : bareKeys f = true) {t : Toml.Entries φ}
    {ts : List (Toml.Entries φ)} (ht : decodedPairs (provenancePairs f) = some t) (hts : entryTables f = some ts) :
    ∃ items, named pl (((document f.version f.frozen f.sha256 t ts).lookup "threshold").getD (.array [])) =
        some items ∧
      validateFile pl ((document f.version f.frozen f.sha256 t ts).filter fun e => e.1 ≠ "threshold") items =
        some (sortedFile f) := by
  have hts' : ts = (sortedThresholds f).map fun e => entryTable e.2.toEntryFields :=
    results_of_mapM hts fun e t h => eq_entryTable h
  have hthreshold : ((document f.version f.frozen f.sha256 t ts).lookup "threshold").getD (.array []) =
      .array (ts.map .table) := by
    cases ts with
    | nil => rfl
    | cons t ts => rfl
  -- each item has the name of its entry
  have hitems : (ts.map Toml.Value.table).mapM (fun item => (itemName pl item).map fun name => (name, item)) =
      some ((sortedThresholds f).map fun e => (e.1, .table (entryTable e.2.toEntryFields))) := by
    rw [hts', List.map_map, List.mapM_map]
    refine mapM_of_some fun e he => ?_
    simp only [Function.comp_apply]
    rw [itemName_entryTable, name_of_mem (mem_sortedThresholds.mp he)]
    rfl
  refine ⟨_, by rw [hthreshold, named, hitems, Option.map_some], ?_⟩
  have hfilter : (document f.version f.frozen f.sha256 t ts).filter (fun e => e.1 ≠ "threshold") =
      topFields f.version f.frozen f.sha256 ++ [("provenance", .table t)] := by
    cases ts with
    | nil => rfl
    | cons t ts => rfl
  have hentries : (Dict.ofPairs ((sortedThresholds f).map fun e =>
      (e.1, Toml.Value.table (entryTable e.2.toEntryFields)))).entries =
      (sortedThresholds f).map fun e => (e.1, .table (entryTable e.2.toEntryFields)) := by
    refine Dict.entries_ofPairs ?_
    rw [List.map_map]
    exact ((sortedThresholds_perm f).map Prod.fst).nodup_iff.mpr f.thresholds.nodup
  have hvalidated : (((sortedThresholds f).map fun e => (e.1, Toml.Value.table (entryTable e.2.toEntryFields))).mapM
      fun e => (validateEntry pl e.2).map fun entry => (e.1, entry)) = some (sortedThresholds f) := by
    rw [List.mapM_map]
    refine (mapM_of_some (k := id) fun e _ => ?_).trans (by rw [List.map_id])
    simp only [Function.comp_apply]
    rw [validateEntry_entryTable]
    rfl
  have hprovenance := validateProvenances_of_decoded hkeys ht
  rw [hfilter, validateFile, hentries, hvalidated]
  have hvalid : (⟨f.version, f.frozen, f.sha256, Dict.ofPairs (sortedProvenance f),
      Dict.ofPairs (sortedThresholds f)⟩ : FileFields pl).valid = true := sortedFields_valid f
  simp [topFields, fileFieldNames, given, required, asStr, pl.asInt_int, pl.asBool_bool, hprovenance,
    List.lookup_cons, hvalid, sortedFile, sortedFields]

/-! ## When a file is read back -/

/-- Its strings are told by one escape for a code point. -/
def Provenance.isPlain : Provenance φ → Bool
  | .str text => (Json.plainText? text).isSome
  | .list items => items.all fun text => (Json.plainText? text).isSome
  | _ => true

/-- An integer that `repr` writes. -/
def Provenance.isShort : Provenance φ → Bool
  | .int n => (Nat.toDigits 10 n.natAbs).length ≤ 4300
  | _ => true

/-- What `dump_thresholds` and TOML can tell. -/
structure Readable (f : D1ThresholdFile pl) : Prop where
  /-- every key of the provenance is a bare key -/
  keys : bareKeys f = true
  /-- no string of it has a code point beyond U+FFFF or a surrogate -/
  texts : ∀ v ∈ f.provenance.values, v.isPlain = true
  /-- no integer of it has more than 4300 digits -/
  ints : ∀ v ∈ f.provenance.values, v.isShort = true
  /-- no name has a character beyond U+FFFF -/
  names : ∀ name ∈ f.thresholds.keys, (Json.plainText? (codePoints name)).isSome = true
  /-- no float is a nan -/
  nan : f.isNan = false

/-- `load_thresholds(dump_thresholds(f)) == f`. -/
def RoundTrips (f : D1ThresholdFile pl) : Prop :=
  ∃ text g, dumpThresholds f = some text ∧ loadThresholds pl text = .ok g ∧ f.eq g = true

/-- Only plain strings are decoded. -/
theorem decoded_isSome (v : Provenance φ) : (decoded v).isSome = v.isPlain := by
  cases v with
  | str text => exact Option.isSome_map ..
  | list items =>
    rw [decoded, Option.isSome_map, Bool.eq_iff_iff, mapM_isSome, Provenance.isPlain, List.all_eq_true]
  | _ => rfl

/-- Integers of up to 4300 digits have a text. -/
theorem reprInt_isSome (n : Int) : (reprInt n).isSome = true ↔ (Nat.toDigits 10 n.natAbs).length ≤ 4300 := by
  rw [reprInt]
  split <;> simp_all

theorem tomlValue_isSome (v : Provenance φ) : (tomlValue pl v).isSome = v.isShort := by
  cases v with
  | int n =>
    rw [Bool.eq_iff_iff, tomlValue, reprInt_isSome, Provenance.isShort, decide_eq_true_eq]
  | _ => rfl

/-- The hash of a file could be taken, so the numbers of samples can be written. -/
theorem samples_short {f : D1ThresholdFile pl} {e : String × ThresholdEntry pl} (he : e ∈ f.thresholds.entries) :
    (reprInt e.2.samples).isSome = true := by
  obtain ⟨-, -, hhash⟩ := f.checked
  obtain ⟨items, hitems, -⟩ := Option.map_eq_some_iff.mp hhash
  have hmem : e.2 ∈ f.thresholds.values.insertionSort fun a b => a.name ≤ b.name :=
    (List.mem_insertionSort _).mpr (List.mem_map_of_mem he)
  have hsome := mapM_isSome.mp (by rw [hitems]; rfl) e.2 hmem
  rwa [jsonEntry, Option.isSome_map] at hsome

/-- The fields of an entry are its name, floats and the number of samples. -/
theorem written_cases {e : EntryFields φ} {item : String × Provenance φ} (h : item ∈ writtenFields e) :
    item.2 = .str (codePoints e.name) ∨ (∃ x, item.2 = .float x) ∨ item.2 = .int e.samples := by
  have hfield := mem_modelDump_of_written h
  obtain ⟨name, v⟩ := item
  have hfloat : ∀ x : Option φ, some v = x.map .float → ∃ x, v = .float x := fun x hv => by
    obtain ⟨x, -, hx⟩ := Option.map_eq_some_iff.mp hv.symm
    exact ⟨x, hx.symm⟩
  simp only [modelDump, List.mem_cons, List.not_mem_nil, or_false, Prod.mk.injEq, Option.some.injEq] at hfield
  rcases hfield with ⟨-, hv⟩ | ⟨-, hv⟩ | ⟨-, hv⟩ | ⟨-, hv⟩ | ⟨-, hv⟩ | ⟨-, hv⟩ | ⟨-, hv⟩
  · exact .inl hv
  · exact .inr (.inl ⟨e.value, hv⟩)
  · exact .inr (.inl ⟨e.floor, hv⟩)
  · exact .inr (.inl ⟨e.ceiling, hv⟩)
  · exact .inr (.inl (hfloat _ hv))
  · exact .inr (.inl (hfloat _ hv))
  · exact .inr (.inr hv)

theorem entryLines_isSome {f : D1ThresholdFile pl} {e : String × ThresholdEntry pl} (he : e ∈ f.thresholds.entries) :
    (entryLines pl e.2.toEntryFields).isSome = true := by
  rw [entryLines, Option.isSome_map, mapM_isSome]
  intro item hitem
  rw [pairLine, Option.isSome_map]
  rcases written_cases hitem with hv | ⟨x, hv⟩ | hv
  · rw [hv]
    rfl
  · rw [hv]
    rfl
  · rw [hv]
    exact samples_short he

theorem isPlain_of_written {e : EntryFields φ} (h : (Json.plainText? (codePoints e.name)).isSome = true)
    {item : String × Provenance φ} (hitem : item ∈ writtenFields e) : item.2.isPlain = true := by
  rcases written_cases hitem with hv | ⟨x, hv⟩ | hv
  · rw [hv]
    exact h
  · rw [hv]
    rfl
  · rw [hv]
    rfl

/-! ### Enough -/

theorem mem_values_of_sorted {f : D1ThresholdFile pl} {e : List CodePoint × Provenance φ}
    (he : e ∈ sortedProvenance f) : e.2 ∈ f.provenance.values := List.mem_map_of_mem (mem_sortedProvenance.mp he)

theorem mem_keys_of_sorted {f : D1ThresholdFile pl} {e : String × ThresholdEntry pl} (he : e ∈ sortedThresholds f) :
    e.2.name ∈ f.thresholds.keys := by
  rw [name_of_mem (mem_sortedThresholds.mp he)]
  exact List.mem_map_of_mem (mem_sortedThresholds.mp he)

/-- A readable file can be written. -/
theorem Readable.dump {f : D1ThresholdFile pl} (h : Readable f) : ∃ text, dumpThresholds f = some text := by
  have hprovenance : ((sortedProvenance f).mapM fun e => (encode e.1).bind fun key => pairLine pl key e.2).isSome =
      true := by
    refine mapM_isSome.mpr fun e he => ?_
    rw [(bareKey_iff.mp (bareKey_of_mem h.keys he)).1, Option.bind_some, pairLine, Option.isSome_map, tomlValue_isSome]
    exact h.ints e.2 (mem_values_of_sorted he)
  have hentries : ((sortedThresholds f).mapM fun e => entryLines pl e.2.toEntryFields).isSome = true :=
    mapM_isSome.mpr fun e he => entryLines_isSome (mem_sortedThresholds.mp he)
  obtain ⟨provenance, hprovenance⟩ := Option.isSome_iff_exists.mp hprovenance
  obtain ⟨entries, hentries⟩ := Option.isSome_iff_exists.mp hentries
  exact ⟨_, by rw [dumpThresholds, dumpLines, hprovenance, Option.bind_some, hentries, Option.map_some,
    Option.map_some]⟩

/-- Its values are told by what is written. -/
theorem Readable.decoded {f : D1ThresholdFile pl} (h : Readable f) :
    (∃ t, decodedPairs (provenancePairs f) = some t) ∧ ∃ ts, entryTables f = some ts := by
  constructor
  · refine Option.isSome_iff_exists.mp (mapM_isSome.mpr fun e he => ?_)
    obtain ⟨e', he', rfl⟩ := List.mem_map.mp he
    rw [Option.isSome_map, decoded_isSome]
    exact h.texts _ (mem_values_of_sorted he')
  · refine Option.isSome_iff_exists.mp (mapM_isSome.mpr fun e he => mapM_isSome.mpr fun item hitem => ?_)
    rw [Option.isSome_map, decoded_isSome]
    exact isPlain_of_written (h.names _ (mem_keys_of_sorted he)) hitem

/-- A value without a nan equals itself. -/
theorem Provenance.eq_self {v : Provenance φ} (h : v.isNan pl = false) : v.eq pl v = true := by
  cases v with
  | float x => exact pl.eq_self x h
  | _ => exact decide_eq_true rfl

theorem Platform.eqOptional_self {x : Option φ} (h : x.any pl.isNan = false) : pl.eqOptional x x = true := by
  cases x with
  | none => rfl
  | some x => exact pl.eq_self x h

/-- And so does an entry. -/
theorem EntryFields.eq_self {e : EntryFields φ} (h : e.isNan pl = false) : e.eq pl e = true := by
  simp only [EntryFields.isNan, Bool.or_eq_false_iff] at h
  obtain ⟨⟨⟨⟨hvalue, hfloor⟩, hceiling⟩, hp999⟩, hmargin⟩ := h
  simp only [EntryFields.eq, Bool.and_eq_true, decide_eq_true_eq]
  exact ⟨⟨⟨⟨⟨⟨trivial, pl.eq_self _ hvalue⟩, pl.eq_self _ hfloor⟩, pl.eq_self _ hceiling⟩,
    Platform.eqOptional_self hp999⟩, Platform.eqOptional_self hmargin⟩, trivial⟩

/-- The order of the dictionaries makes no difference. -/
theorem eq_sortedFile {f : D1ThresholdFile pl} (h : f.isNan = false) : f.eq (sortedFile f) = true := by
  obtain ⟨hprovenance, hentries⟩ := isNan_entry h
  have hsame : Dict.eqBy (Provenance.eq pl) f.provenance (sortedFile f).provenance = true := by
    refine Dict.eqBy_of_perm ?_ fun v hv => ?_
    · change f.provenance.entries.Perm (Dict.ofPairs (sortedProvenance f)).entries
      rw [entries_sortedProvenance]
      exact (sortedProvenance_perm f).symm
    · obtain ⟨e, he, rfl⟩ := List.mem_map.mp hv
      exact Provenance.eq_self (hprovenance e he)
  have hsameEntries : Dict.eqBy (fun a b : ThresholdEntry pl => a.toEntryFields.eq pl b.toEntryFields) f.thresholds
      (sortedFile f).thresholds = true := by
    refine Dict.eqBy_of_perm ?_ fun v hv => ?_
    · change f.thresholds.entries.Perm (Dict.ofPairs (sortedThresholds f)).entries
      rw [entries_sortedThresholds]
      exact (sortedThresholds_perm f).symm
    · obtain ⟨e, he, rfl⟩ := List.mem_map.mp hv
      exact EntryFields.eq_self (hentries e he)
  rw [D1ThresholdFile.eq, hsame, hsameEntries]
  simp [sortedFile, sortedFields]

/-- **A readable file is read back.** -/
theorem Readable.roundTrips {f : D1ThresholdFile pl} (h : Readable f) : RoundTrips f := by
  obtain ⟨text, htext⟩ := h.dump
  obtain ⟨⟨t, ht⟩, ts, hts⟩ := h.decoded
  obtain ⟨items, hitems, hvalid⟩ := validate_document h.keys ht hts
  refine ⟨text, sortedFile f, htext, ?_, eq_sortedFile h.nan⟩
  rw [loadThresholds, loads_dump htext h.keys h.nan ht hts]
  dsimp only
  rw [hitems]
  dsimp only
  rw [hvalid]

/-! ### No less -/

/-- A nan is equal to nothing. -/
theorem Provenance.eq_of_isNan {v : Provenance φ} (h : v.isNan pl = true) (w : Provenance φ) : v.eq pl w = false := by
  cases v with
  | float x =>
    cases w with
    | float y => exact pl.nan_ne x y h
    | int n => exact pl.nan_ne_int x n h
    | bool b => exact pl.nan_ne_int x _ h
    | _ => rfl
  | _ => cases h

theorem Platform.isNan_of_eq {x y : φ} (h : pl.eq x y = true) : pl.isNan x = false := by
  by_contra hnan
  rw [pl.nan_ne x y (Bool.eq_true_of_not_eq_false hnan)] at h
  cases h

theorem Platform.isNan_of_eqOptional {x y : Option φ} (h : pl.eqOptional x y = true) : x.any pl.isNan = false := by
  cases x with
  | none => rfl
  | some x =>
    cases y with
    | none => cases h
    | some y => exact Platform.isNan_of_eq h

theorem EntryFields.eq_of_isNan {e : EntryFields φ} (h : e.isNan pl = true) (e' : EntryFields φ) :
    e.eq pl e' = false := by
  by_contra heq
  simp only [EntryFields.eq, Bool.not_eq_false, Bool.and_eq_true, decide_eq_true_eq] at heq
  obtain ⟨⟨⟨⟨⟨⟨-, hvalue⟩, hfloor⟩, hceiling⟩, hp999⟩, hmargin⟩, -⟩ := heq
  rw [EntryFields.isNan, Platform.isNan_of_eq hvalue, Platform.isNan_of_eq hfloor, Platform.isNan_of_eq hceiling,
    Platform.isNan_of_eqOptional hp999, Platform.isNan_of_eqOptional hmargin] at h
  cases h

/-- A file with a nan equals none. -/
theorem isNan_of_eq {f g : D1ThresholdFile pl} (h : f.eq g = true) : f.isNan = false := by
  simp only [D1ThresholdFile.eq, Bool.and_eq_true] at h
  obtain ⟨⟨-, hprovenance⟩, hentries⟩ := h
  rw [D1ThresholdFile.isNan, Bool.or_eq_false_iff, List.any_eq_false, List.any_eq_false]
  constructor
  · intro v hv hnan
    obtain ⟨k, hk⟩ := Dict.mem_values_iff.mp hv
    obtain ⟨w, -, heq⟩ := Dict.get?_of_eqBy hprovenance hk
    rw [Provenance.eq_of_isNan hnan] at heq
    cases heq
  · intro v hv hnan
    obtain ⟨k, hk⟩ := Dict.mem_values_iff.mp hv
    obtain ⟨w, -, heq⟩ := Dict.get?_of_eqBy hentries hk
    rw [EntryFields.eq_of_isNan hnan] at heq
    cases heq

/-- What could be written has no integer that is too long. -/
theorem isShort_of_dump {f : D1ThresholdFile pl} {text : List Char} (h : dumpThresholds f = some text) :
    ∀ v ∈ f.provenance.values, v.isShort = true := by
  intro v hv
  obtain ⟨e, he, rfl⟩ := List.mem_map.mp hv
  obtain ⟨lines, hlines, -⟩ := Option.map_eq_some_iff.mp h
  obtain ⟨provenance, -, hprovenance, -, -⟩ := dumpLines_some hlines
  have hline := mapM_isSome.mp (by rw [hprovenance]; rfl) e (mem_sortedProvenance.mpr he)
  obtain ⟨line, hline⟩ := Option.isSome_iff_exists.mp hline
  obtain ⟨key, -, hpair⟩ := Option.bind_eq_some_iff.mp hline
  obtain ⟨written, hwritten, -⟩ := Option.map_eq_some_iff.mp hpair
  rw [← @tomlValue_isSome φ pl, hwritten, Option.isSome_some]

/-- What could be read has no string that is not told. -/
theorem decoded_of_loads {f : D1ThresholdFile pl} {text : List Char} (h : dumpThresholds f = some text)
    (hkeys : bareKeys f = true) (hnan : f.isNan = false) {raw : Toml.Entries φ}
    (hload : Toml.loads pl.float text = some raw) : none ∉ fileReads f := by
  intro hnone
  obtain ⟨sts, hsts, -⟩ := Option.bind_eq_some_iff.mp hload
  rw [statements_dump h hkeys hnan, Toml.collect_eq_none hnone] at hsts
  cases hsts

theorem readable_of_loads {f : D1ThresholdFile pl} {text : List Char} (h : dumpThresholds f = some text)
    (hkeys : bareKeys f = true) (hnan : f.isNan = false) {raw : Toml.Entries φ}
    (hload : Toml.loads pl.float text = some raw) : Readable f := by
  have hnone := decoded_of_loads h hkeys hnan hload
  refine ⟨hkeys, fun v hv => ?_, isShort_of_dump h, fun name hname => ?_, hnan⟩
  · obtain ⟨e, he, rfl⟩ := List.mem_map.mp hv
    by_contra hplain
    refine hnone (List.mem_append_left _ (List.mem_append_right _ ?_))
    have hdecoded : decoded e.2 = none := by
      rw [← Option.not_isSome_iff_eq_none, decoded_isSome]
      exact hplain
    have hmem : (String.ofList (keyText e.1), e.2) ∈ provenancePairs f :=
      List.mem_map.mpr ⟨e, mem_sortedProvenance.mpr he, rfl⟩
    refine List.mem_map.mpr ⟨_, hmem, ?_⟩
    rw [hdecoded, Option.map_none]
  · obtain ⟨e, he, rfl⟩ := List.mem_map.mp hname
    by_contra hplain
    refine hnone (List.mem_append_right _ (List.mem_flatMap.mpr ⟨e, mem_sortedThresholds.mpr he, ?_⟩))
    have hmem : ("name", .str (codePoints e.2.name)) ∈ writtenFields e.2.toEntryFields := List.mem_cons_self
    refine List.mem_cons_of_mem _ (List.mem_cons_of_mem _ (List.mem_map.mpr ⟨_, hmem, ?_⟩))
    rw [decoded, name_of_mem he, Option.not_isSome_iff_eq_none.mp hplain, Option.map_none, Option.map_none]

/-- **What is read back is readable.** -/
theorem RoundTrips.readable {f : D1ThresholdFile pl} (h : RoundTrips f) : Readable f := by
  obtain ⟨text, g, hdump, hload, heq⟩ := h
  have hnan := isNan_of_eq heq
  have hkeys := bareKeys_of_loads hdump hnan hload heq
  obtain ⟨raw, hraw, -⟩ := provenance_of_loads hload
  exact readable_of_loads hdump hkeys hnan hraw

/-- **A file is read back exactly if it is readable.** -/
theorem round_trips_iff (f : D1ThresholdFile pl) : RoundTrips f ↔ Readable f :=
  ⟨RoundTrips.readable, Readable.roundTrips⟩

/-! ### A key with a blank -/

/-- A platform with one float, `0.0`, and the digest of the empty list. -/
def zeroPlatform : Platform Unit where
  repr _ := ['0', '.', '0']
  float text := if text = ['0', '.', '0'] then some () else none
  isNan _ := false
  le _ _ := true
  lt _ _ := false
  eq _ _ := true
  eqInt _ n := n = 0
  ge0 _ := true
  gt0 _ := false
  int text := if text ≠ [] ∧ text.all Char.isDigit then some (Toml.digitsValue 10 text) else none
  str
    | some (.str s) => s
    | _ => "None"
  asInt
    | .int n => some n
    | .bool b => some (boolInt b)
    | _ => none
  asBool
    | .bool b => some b
    | _ => none
  asFloat
    | .float x => some x
    | _ => none
  sha256 _ := "4f53cda18c2baa0c0354bb5f9a3ecbe5ed12ab4d8e11ba873c2f11161202b945"
  repr_text _ := @FloatText.fraction [] ['0'] ['0'] (.inl rfl)
    ⟨by decide, Toml.forall_of_all (by decide), fun _ => rfl⟩ ⟨by decide, Toml.forall_of_all (by decide)⟩
  float_repr _ _ := rfl
  eq_self _ _ := rfl
  nan_ne _ _ h := nomatch h
  nan_ne_int _ _ h := nomatch h
  str_str _ := rfl
  asInt_int _ := rfl
  asBool_bool _ := rfl
  asFloat_float _ := rfl
  sha256_hex _ := Toml.forall_of_all (by decide)

/-- A file without entries, whose provenance has one key with a blank. -/
def blankKey : D1ThresholdFile zeroPlatform where
  version := 1
  frozen := false
  sha256 := "4f53cda18c2baa0c0354bb5f9a3ecbe5ed12ab4d8e11ba873c2f11161202b945"
  provenance := Dict.empty.set (codePoints "a b") (.int 1)
  thresholds := Dict.empty
  valid := by decide

/-- `a b = 1` is no TOML: the text is written, and cannot be read. -/
theorem blank_key_not_read :
    (∃ text, dumpThresholds blankKey = some text ∧ loadThresholds zeroPlatform text = .error .unreadable) ∧
      ¬RoundTrips blankKey := by
  have hwritten : (dumpThresholds blankKey).isSome = true := by decide +kernel
  have hread : ((dumpThresholds blankKey).bind fun text => Toml.loads zeroPlatform.float text).isNone = true := by
    decide +kernel
  obtain ⟨text, htext⟩ := Option.isSome_iff_exists.mp hwritten
  rw [htext, Option.bind_some, Option.isNone_iff_eq_none] at hread
  have hload : loadThresholds zeroPlatform text = .error .unreadable := by rw [loadThresholds, hread]
  refine ⟨⟨text, htext, hload⟩, ?_⟩
  rintro ⟨text', g, htext', hload', -⟩
  obtain rfl : text' = text := Option.some.inj (htext'.symm.trans htext)
  rw [hload] at hload'
  cases hload'

end Pirewall.Thresholds
