/-
# Pirewall.Detection.ThresholdText -- what the dumped text of a thresholds file reads as

Each line that `dump_thresholds` writes with a bare key reads as one statement, or as none if a string on it has a
surrogate among its escapes. The statements make the document that `load_thresholds` validates (`loads_dump`).

Three things can go wrong on the way, and each is a test on the file: a key of the provenance that is not bare, since
the keys are dumped without quotation marks; a surrogate in a name or a value, which JSON escapes and TOML refuses;
and a float that is a nan, which is dumped as the word TOML has for it and then is equal to nothing. `fileReads` is
what the lines read as when only the last two are looked at: it is total, and `none` for a line that cannot be read.

The text is taken apart in the order in which it is written: the head with the version and the hash, the provenance,
one table for each entry. `decoded` undoes the escapes of a value; where none of them is a surrogate it is the value
itself.
-/
import Pirewall.Detection.Thresholds
import Pirewall.Lib.Toml.Flat

namespace Pirewall.Thresholds

open Lib
open Lib.Toml (Statement Output IsBare Reads OnOneLine)

variable {φ : Type} {pl : Platform φ}

/-! ## Values -/

/-- What a written value reads as, if no literal in it has a surrogate among its escapes. -/
def decoded : Provenance φ → Option (Toml.Value φ)
  | .str text => (Json.plainText? text).map fun cs => .str (String.ofList cs)
  | .int n => some (.int n)
  | .float x => some (.float x)
  | .bool b => some (.bool b)
  | .list items => (items.mapM Json.plainText?).map fun items => .array (Toml.strings items)

/-- It is equal to nothing, not even to itself. -/
def Provenance.isNan (pl : Platform φ) : Provenance φ → Bool
  | .float x => pl.isNan x
  | _ => false

theorem reprInt_eq_some {n : Int} {text : List Char} :
    reprInt n = some text ↔ (Nat.toDigits 10 n.natAbs).length ≤ 4300 ∧ Toml.decimal n = text := by
  rw [reprInt]
  split <;> simp_all

/-- A value, at the end of its line, reads as what its text decodes to. -/
theorem value_tomlValue {v : Provenance φ} {text : List Char} (h : tomlValue pl v = some text)
    (hnan : v.isNan pl = false) (s : List Char) :
    Toml.value pl.float (text ++ '\n' :: s) = (decoded v).map fun v => (v, '\n' :: s) := by
  cases v with
  | str content =>
    cases h
    rw [Toml.value_literal content (by simp), decoded, Option.map_map]
    rfl
  | int n =>
    obtain ⟨hlen, rfl⟩ := reprInt_eq_some.mp h
    exact Toml.value_decimal n hlen s
  | float x =>
    cases h
    exact Toml.value_float (pl.repr_text x) (pl.float_repr x hnan) s
  | bool b =>
    cases h
    exact Toml.value_bool b _
  | list items =>
    cases h
    have htext : '[' :: ([',', ' '].intercalate (items.map Json.literal) ++ [']']) ++ '\n' :: s =
        '[' :: (Toml.literals items ++ ']' :: '\n' :: s) := by
      simp [Toml.literals]
    rw [htext, Toml.value_array, decoded, Option.map_map]
    rfl

theorem onOneLine_tomlValue {v : Provenance φ} {text : List Char} (h : tomlValue pl v = some text) :
    OnOneLine text := by
  cases v with
  | str content =>
    cases h
    exact Toml.onOneLine_literal content
  | int n =>
    obtain ⟨-, rfl⟩ := reprInt_eq_some.mp h
    exact Toml.onOneLine_decimal n
  | float x =>
    cases h
    exact (pl.repr_text x).onOneLine
  | bool b =>
    cases h
    exact Toml.onOneLine_boolText b
  | list items =>
    cases h
    refine .cons (by decide) (.append (Toml.onOneLine_literals items) (.cons (by decide) ?_))
    exact fun c hc => absurd hc (by simp)

theorem tomlValue_head {v : Provenance φ} {text : List Char} (h : tomlValue pl v = some text) :
    ∀ c, text.head? = some c → Toml.isWs c = false := by
  cases v with
  | str content =>
    cases h
    rintro c ⟨⟩
    decide
  | int n =>
    obtain ⟨-, rfl⟩ := reprInt_eq_some.mp h
    exact Toml.decimal_head n
  | float x =>
    cases h
    exact (pl.repr_text x).head
  | bool b =>
    cases h
    cases b <;> (rintro c ⟨⟩; decide)
  | list items =>
    cases h
    rintro c ⟨⟩
    decide

/-- A line with a bare key. -/
theorem reads_pairLine {key line : List Char} {v : Provenance φ} (hkey : IsBare key)
    (h : pairLine pl key v = some line) (hnan : v.isNan pl = false) :
    Reads pl.float line ((decoded v).map fun w => some (.pair [String.ofList key] w)) := by
  obtain ⟨text, htext, rfl⟩ := Option.map_eq_some_iff.mp h
  exact Toml.reads_pair hkey (tomlValue_head htext) (value_tomlValue htext hnan)

theorem onOneLine_pairLine {key line : List Char} {v : Provenance φ} (hkey : OnOneLine key)
    (h : pairLine pl key v = some line) : OnOneLine line := by
  obtain ⟨text, htext, rfl⟩ := Option.map_eq_some_iff.mp h
  exact hkey.append (.append (Toml.forall_of_all (by decide)) (onOneLine_tomlValue htext))

/-! ## The lines of a file -/

/-- The characters of a key that can be written. -/
def keyText (key : List CodePoint) : List Char := (encode key).getD []

/-- A key that TOML reads without quotation marks. -/
def bareKey (key : List CodePoint) : Bool := (encode key).any fun cs => decide (IsBare cs)

/-- A bare key is one that can be written and that TOML reads without quotation marks. -/
theorem bareKey_iff {key : List CodePoint} :
    bareKey key = true ↔ encode key = some (keyText key) ∧ IsBare (keyText key) := by
  rw [bareKey, keyText]
  cases encode key <;> simp

def bareKeys (f : D1ThresholdFile pl) : Bool := f.provenance.keys.all bareKey

/-- No float of an entry is a nan. -/
def EntryFields.isNan (pl : Platform φ) (e : EntryFields φ) : Bool :=
  pl.isNan e.value || pl.isNan e.floor || pl.isNan e.ceiling || e.benignP999.any pl.isNan || e.margin.any pl.isNan

/-- What the lines of pairs read as. -/
def pairReads (ps : List (String × Provenance φ)) : List (Option (Option (Statement φ))) :=
  ps.map fun e => (decoded e.2).map fun v => some (.pair [e.1] v)

/-- The provenance as it is written. -/
def provenancePairs (f : D1ThresholdFile pl) : List (String × Provenance φ) :=
  (sortedProvenance f).map fun e => (String.ofList (keyText e.1), e.2)

/-- What the lines of an entry read as. -/
def entryReads (e : EntryFields φ) : List (Option (Option (Statement φ))) :=
  some none :: some (some (.arrayTable ["threshold"])) :: pairReads (writtenFields e)

/-- The lines before the provenance. -/
def headLines (f : D1ThresholdFile pl) : List (List Char) :=
  comments ++ [
    "version = ".toList ++ Toml.decimal f.version,
    "frozen = ".toList ++ Toml.boolText f.frozen,
    "sha256 = ".toList ++ Json.literal (codePoints f.sha256),
    [],
    "[provenance]".toList]

/-- What they read as. -/
def headStatements (f : D1ThresholdFile pl) : List (Option (Statement φ)) :=
  [none, none, none, some (.pair ["version"] (.int f.version)), some (.pair ["frozen"] (.bool f.frozen)),
    some (.pair ["sha256"] (.str f.sha256)), none, some (.table ["provenance"])]

/-- What the lines of a file read as. -/
def fileReads (f : D1ThresholdFile pl) : List (Option (Option (Statement φ))) :=
  (headStatements f).map some ++ pairReads (provenancePairs f) ++
    (sortedThresholds f).flatMap fun e => entryReads e.2.toEntryFields

/-- The lines of a file that can be dumped: the head, the provenance, the entries. -/
theorem dumpLines_some {f : D1ThresholdFile pl} {lines : List (List Char)} (h : dumpLines f = some lines) :
    ∃ provenance entries, ((sortedProvenance f).mapM fun e => (encode e.1).bind fun key => pairLine pl key e.2) =
        some provenance ∧
      ((sortedThresholds f).mapM fun e => entryLines pl e.2.toEntryFields) = some entries ∧
      lines = headLines f ++ provenance ++ entries.flatten := by
  obtain ⟨provenance, hprovenance, h⟩ := Option.bind_eq_some_iff.mp h
  obtain ⟨entries, hentries, rfl⟩ := Option.map_eq_some_iff.mp h
  exact ⟨provenance, entries, hprovenance, hentries, rfl⟩

variable (pl) in
/-- A line of the text, what it reads as, and that it stays on its line. -/
def LineReads (text : List Char) (st : Option (Option (Statement φ))) : Prop := Reads pl.float text st ∧ OnOneLine text

/-- Lines with what they read as: they stay on their lines, and read so. -/
theorem lineReads_split {texts : List (List Char)} {sts : List (Option (Option (Statement φ)))}
    (h : List.Forall₂ (LineReads pl) texts sts) :
    (∀ text ∈ texts, OnOneLine text) ∧ List.Forall₂ (Reads pl.float) texts sts :=
  (List.forall₂_and_left _ _).mp (h.imp fun _ _ => And.symm)

/-- A line with a bare key. -/
theorem lineReads_pair {key line : List Char} {v : Provenance φ} (hkey : IsBare key)
    (h : pairLine pl key v = some line) (hnan : v.isNan pl = false) :
    LineReads pl line ((decoded v).map fun w => some (.pair [String.ofList key] w)) :=
  ⟨reads_pairLine hkey h hnan, onOneLine_pairLine (Toml.onOneLine_bare hkey) h⟩

theorem map_fst_modelDump (e : EntryFields φ) : (modelDump e).map Prod.fst = entryFieldNames := rfl

theorem mem_modelDump_of_written {e : EntryFields φ} {item : String × Provenance φ} (h : item ∈ writtenFields e) :
    (item.1, some item.2) ∈ modelDump e := by
  obtain ⟨⟨name, v⟩, hfield, hitem⟩ := List.mem_filterMap.mp h
  obtain ⟨w, rfl, rfl⟩ := Option.map_eq_some_iff.mp hitem
  exact hfield

theorem isBare_entryFieldNames : ∀ name ∈ entryFieldNames, IsBare name.toList := by decide

/-- The names of the fields are bare keys. -/
theorem isBare_of_written {e : EntryFields φ} {item : String × Provenance φ} (h : item ∈ writtenFields e) :
    IsBare item.1.toList := by
  have hmem := List.mem_map_of_mem (f := Prod.fst) (mem_modelDump_of_written h)
  rw [map_fst_modelDump] at hmem
  exact isBare_entryFieldNames _ hmem

theorem isNan_of_written {e : EntryFields φ} (h : e.isNan pl = false) {item : String × Provenance φ}
    (hitem : item ∈ writtenFields e) : item.2.isNan pl = false := by
  have hfield := mem_modelDump_of_written hitem
  obtain ⟨name, v⟩ := item
  simp only [EntryFields.isNan, Bool.or_eq_false_iff] at h
  obtain ⟨⟨⟨⟨hvalue, hfloor⟩, hceiling⟩, hp999⟩, hmargin⟩ := h
  simp only [modelDump, List.mem_cons, List.not_mem_nil, or_false, Prod.mk.injEq] at hfield
  rcases hfield with ⟨-, hv⟩ | ⟨-, hv⟩ | ⟨-, hv⟩ | ⟨-, hv⟩ | ⟨-, hv⟩ | ⟨-, hv⟩ | ⟨-, hv⟩
  · cases hv
    rfl
  · cases hv
    exact hvalue
  · cases hv
    exact hfloor
  · cases hv
    exact hceiling
  · obtain ⟨x, hx, rfl⟩ := Option.map_eq_some_iff.mp hv.symm
    simpa [Provenance.isNan, hx] using hp999
  · obtain ⟨x, hx, rfl⟩ := Option.map_eq_some_iff.mp hv.symm
    simpa [Provenance.isNan, hx] using hmargin
  · cases hv
    rfl

theorem lineReads_blank : LineReads pl [] (some none) := ⟨Toml.reads_blank, by simp [OnOneLine]⟩

/-- The header of an entry. -/
theorem lineReads_threshold : LineReads pl "[[threshold]]".toList (some (some (.arrayTable ["threshold"]))) := by
  have htext : "[[threshold]]".toList = '[' :: '[' :: ("threshold".toList ++ [']', ']']) := by decide
  have hbare : IsBare "threshold".toList := by decide
  have hread := Toml.reads_arrayTable pl.float hbare
  rw [String.ofList_toList, ← htext] at hread
  exact ⟨hread, Toml.forall_of_all (by decide)⟩

/-- The header of the provenance. -/
theorem lineReads_provenance : LineReads pl "[provenance]".toList (some (some (.table ["provenance"]))) := by
  have htext : "[provenance]".toList = '[' :: ("provenance".toList ++ [']']) := by decide
  have hbare : IsBare "provenance".toList := by decide
  have hread := Toml.reads_table pl.float hbare
  rw [String.ofList_toList, ← htext] at hread
  exact ⟨hread, Toml.forall_of_all (by decide)⟩

theorem lineReads_entry {e : EntryFields φ} {lines : List (List Char)} (h : entryLines pl e = some lines)
    (hnan : e.isNan pl = false) : List.Forall₂ (LineReads pl) lines (entryReads e) := by
  obtain ⟨pairs, hpairs, rfl⟩ := Option.map_eq_some_iff.mp h
  refine .cons lineReads_blank (.cons lineReads_threshold ?_)
  · refine forall₂_of_mapM hpairs fun item hitem line hline => ?_
    have hread := lineReads_pair (isBare_of_written hitem) hline (isNan_of_written hnan hitem)
    rwa [String.ofList_toList] at hread

/-! ## The text of a file -/

/-- Some float of the file is a nan. -/
def D1ThresholdFile.isNan (f : D1ThresholdFile pl) : Bool :=
  f.provenance.values.any (Provenance.isNan pl) || f.thresholds.values.any fun e => e.toEntryFields.isNan pl

/-- Sorting the provenance changes no pair. -/
theorem mem_sortedProvenance {f : D1ThresholdFile pl} {e : List CodePoint × Provenance φ} :
    e ∈ sortedProvenance f ↔ e ∈ f.provenance.entries := List.mem_insertionSort _

theorem mem_sortedThresholds {f : D1ThresholdFile pl} {e : String × ThresholdEntry pl} :
    e ∈ sortedThresholds f ↔ e ∈ f.thresholds.entries := List.mem_insertionSort _

theorem comments_legal :
    ∀ text ∈ comments, text.head? = some '#' ∧
      (text.all fun c => decide (Toml.isIllegal c = false ∧ 32 ≤ c.toNat)) = true := by
  decide +kernel

theorem lineReads_comment {text : List Char} (h : text ∈ comments) : LineReads pl text (some none) := by
  obtain ⟨hhead, hall⟩ := comments_legal text h
  have hlegal := Toml.forall_of_all hall
  obtain ⟨rest, rfl⟩ : ∃ rest, text = '#' :: rest := List.head?_eq_some_iff.mp hhead
  exact ⟨Toml.reads_comment fun c hc => (hlegal c (List.mem_cons_of_mem _ hc)).1, fun c hc => (hlegal c hc).2⟩

/-- In a file without a nan, no pair of the provenance and no entry has one. -/
theorem isNan_entry {f : D1ThresholdFile pl} (h : f.isNan = false) :
    (∀ e ∈ f.provenance.entries, e.2.isNan pl = false) ∧
      ∀ e ∈ f.thresholds.entries, e.2.toEntryFields.isNan pl = false := by
  simp only [D1ThresholdFile.isNan, Bool.or_eq_false_iff, List.any_eq_false, Dict.values, List.mem_map,
    forall_exists_index, and_imp, Bool.not_eq_true] at h
  exact ⟨fun e he => h.1 e.2 e he rfl, fun e he => h.2 e.2 e he rfl⟩

/-- `_check_hash` has seen to the version, the names and the hash. -/
theorem D1ThresholdFile.checked (f : D1ThresholdFile pl) : f.version = thresholdFileVersion ∧
    FileFields.checkNames pl f.thresholds.entries = .ok () ∧
    entriesSha256 pl f.thresholds.values = some f.sha256 := by
  have hvalid := f.valid
  simp only [FileFields.valid, Bool.and_eq_true] at hvalid
  have hok := hvalid.2
  rw [FileFields.checkHash] at hok
  split at hok
  · cases hok
  · rename_i hversion
    split at hok
    · cases hok
    · rename_i hnames
      split at hok
      · rename_i hhash
        exact ⟨not_not.mp hversion, hnames, hhash⟩
      · cases hok

theorem version_eq (f : D1ThresholdFile pl) : f.version = 1 := f.checked.1

/-- A hexadecimal digit is an ASCII character. -/
theorem toNat_lt_of_isHex {c : Char} (h : Toml.isHex c = true) : c.toNat < 0x10000 := by
  simp only [Toml.isHex, Char.isDigit, Bool.or_eq_true, Bool.and_eq_true, decide_eq_true_eq] at h
  have hle : ∀ d : Char, c ≤ d → c.toNat ≤ d.toNat := fun d hcd => hcd
  rcases h with (⟨-, h⟩ | ⟨-, h⟩) | ⟨-, h⟩
  · exact Nat.lt_of_le_of_lt (hle '9' h) (by decide)
  · exact Nat.lt_of_le_of_lt (hle 'f' h) (by decide)
  · exact Nat.lt_of_le_of_lt (hle 'F' h) (by decide)

/-- The hash is read as it is. -/
theorem decoded_sha256 (f : D1ThresholdFile pl) :
    decoded (φ := φ) (.str (codePoints f.sha256)) = some (.str f.sha256) := by
  obtain ⟨-, -, hhash⟩ := f.checked
  obtain ⟨items, -, hsha⟩ := Option.map_eq_some_iff.mp hhash
  have hplain : Json.plainText? (codePoints f.sha256) = some f.sha256.toList :=
    Json.plainText?_map fun c hc => toNat_lt_of_isHex (pl.sha256_hex _ c (hsha ▸ hc))
  rw [decoded, hplain, Option.map_some, String.ofList_toList]

/-- The lines before the provenance read as they should. -/
theorem lineReads_head (f : D1ThresholdFile pl) :
    List.Forall₂ (LineReads pl) (headLines f) ((headStatements f).map some) := by
  -- a field whose value is no float
  have hfield (name start : String) (hname : IsBare name.toList)
      (hstart : start.toList = name.toList ++ [' ', '=', ' ']) {v : Provenance φ} {text : List Char}
      (htext : tomlValue pl v = some text) (hv : v.isNan pl = false) :
      LineReads pl (start.toList ++ text) ((decoded v).map fun w => some (.pair [name] w)) := by
    have hline := lineReads_pair hname (show pairLine pl name.toList v = some _ by rw [pairLine, htext]; rfl) hv
    rw [String.ofList_toList] at hline
    rw [hstart, List.append_assoc]
    exact hline
  have hversion : tomlValue pl (.int f.version) = some (Toml.decimal f.version) := by
    rw [version_eq f]
    rfl
  have hhash := hfield "sha256" "sha256 = " (by decide) (by decide) (v := .str (codePoints f.sha256)) rfl rfl
  rw [decoded_sha256 f] at hhash
  have hcomments : ∀ i (hi : i < comments.length), LineReads pl (comments.get ⟨i, hi⟩) (some none) := fun i hi =>
    lineReads_comment (List.get_mem comments ⟨i, hi⟩)
  refine .cons (hcomments 0 (by decide)) (.cons (hcomments 1 (by decide)) (.cons (hcomments 2 (by decide)) ?_))
  refine .cons (hfield "version" "version = " (by decide) (by decide) hversion rfl) ?_
  refine .cons (hfield "frozen" "frozen = " (by decide) (by decide) (v := .bool f.frozen) rfl rfl) ?_
  exact .cons hhash (.cons lineReads_blank (.cons lineReads_provenance .nil))

/-- The lines of the entries read as they should. -/
theorem lineReads_entries {f : D1ThresholdFile pl} {entries : List (List (List Char))}
    (h : ((sortedThresholds f).mapM fun e => entryLines pl e.2.toEntryFields) = some entries) (hnan : f.isNan = false) :
    List.Forall₂ (LineReads pl) entries.flatten ((sortedThresholds f).flatMap fun e => entryReads e.2.toEntryFields) :=
  List.rel_flatten (forall₂_of_mapM h fun e he _ hlines =>
    lineReads_entry hlines ((isNan_entry hnan).2 e (mem_sortedThresholds.mp he)))

/-- **The lines of a file with bare keys and without a nan read as they should.** -/
theorem lineReads_file {f : D1ThresholdFile pl} {lines : List (List Char)} (h : dumpLines f = some lines)
    (hkeys : bareKeys f = true) (hnan : f.isNan = false) : List.Forall₂ (LineReads pl) lines (fileReads f) := by
  obtain ⟨provenance, entries, hprovenance, hentries, rfl⟩ := dumpLines_some h
  refine List.rel_append (List.rel_append (lineReads_head f) ?_) (lineReads_entries hentries hnan)
  rw [pairReads, provenancePairs, List.map_map]
  refine forall₂_of_mapM hprovenance fun e he line hline => ?_
  obtain ⟨key, hkey, hline⟩ := Option.bind_eq_some_iff.mp hline
  have hmem := mem_sortedProvenance.mp he
  obtain ⟨hencode, hbare⟩ := bareKey_iff.mp (List.all_eq_true.mp hkeys e.1 (List.mem_map_of_mem hmem))
  obtain rfl : key = keyText e.1 := Option.some.inj (hkey.symm.trans hencode)
  exact lineReads_pair hbare hline ((isNan_entry hnan).1 e hmem)

/-- The statements of the dumped text, of a file with bare keys and without a nan. -/
theorem statements_dump {f : D1ThresholdFile pl} {text : List Char} (h : dumpThresholds f = some text)
    (hkeys : bareKeys f = true) (hnan : f.isNan = false) :
    Toml.statements pl.float text = Toml.collect (fileReads f) := by
  obtain ⟨lines, hlines, rfl⟩ := Option.map_eq_some_iff.mp h
  have hreads := lineReads_file hlines hkeys hnan
  have hne : lines ≠ [] := by
    rintro rfl
    have hlen := hreads.length_eq
    simp [fileReads, headStatements] at hlen
  obtain ⟨hlines, hreads⟩ := lineReads_split hreads
  rw [Toml.intercalate_feed hne]
  exact Toml.statements_unlines hreads hlines

/-! ## The document -/

/-- The pairs that are read. -/
def decodedPairs (ps : List (String × Provenance φ)) : Option (Toml.Entries φ) :=
  ps.mapM fun e => (decoded e.2).map fun v => (e.1, v)

/-- Pairs that decode read as the pairs they decode to. -/
theorem pairReads_of_decoded {ps : List (String × Provenance φ)} {t : Toml.Entries φ} (h : decodedPairs ps = some t) :
    pairReads ps = ((Toml.pairs t).map some).map some := by
  induction ps generalizing t with
  | nil =>
    cases h
    rfl
  | cons e ps ih =>
    obtain ⟨e', rest, he, hrest, rfl⟩ := mapM_cons_eq_some.mp h
    obtain ⟨v, hv, rfl⟩ := Option.map_eq_some_iff.mp he
    have ih := ih hrest
    rw [pairReads] at ih ⊢
    rw [List.map_cons, hv, ih]
    rfl

/-- The tables of the entries. -/
def entryTables (f : D1ThresholdFile pl) : Option (List (Toml.Entries φ)) :=
  (sortedThresholds f).mapM fun e => decodedPairs (writtenFields e.2.toEntryFields)

theorem entryReads_of_decoded {es : List (String × ThresholdEntry pl)} {ts : List (Toml.Entries φ)}
    (h : (es.mapM fun e => decodedPairs (writtenFields e.2.toEntryFields)) = some ts) :
    (es.flatMap fun e => entryReads e.2.toEntryFields) =
      (ts.flatMap fun t => none :: some (.arrayTable ["threshold"]) :: (Toml.pairs t).map some).map some := by
  induction es generalizing ts with
  | nil =>
    cases h
    rfl
  | cons e es ih =>
    obtain ⟨t, rest, ht, hrest, rfl⟩ := mapM_cons_eq_some.mp h
    rw [List.flatMap_cons, List.flatMap_cons, List.map_append, ih hrest, entryReads, pairReads_of_decoded ht]
    rfl

/-- The lines of a file that is read, by the statement that each has. -/
def readLines (version frozen hash : Toml.Value φ) (t : Toml.Entries φ) (ts : List (Toml.Entries φ)) :
    List (Option (Statement φ)) :=
  [none, none, none, some (.pair ["version"] version), some (.pair ["frozen"] frozen), some (.pair ["sha256"] hash),
    none, some (.table ["provenance"])] ++ (Toml.pairs t).map some ++
  ts.flatMap fun t => none :: some (.arrayTable ["threshold"]) :: (Toml.pairs t).map some

theorem flatMap_readLines (version frozen hash : Toml.Value φ) (t : Toml.Entries φ) (ts : List (Toml.Entries φ)) :
    (readLines version frozen hash t ts).flatMap Option.toList =
      Toml.pairs [("version", version), ("frozen", frozen), ("sha256", hash)] ++
        .table ["provenance"] :: (Toml.pairs t ++ Toml.tables "threshold" ts) := by
  have hpairs : ∀ t : List (Statement φ), (t.map some).flatMap Option.toList = t := fun t => by
    rw [List.flatMap_map]
    exact List.flatMap_singleton' t
  have htables : (ts.flatMap fun t => none :: some (.arrayTable ["threshold"]) :: (Toml.pairs t).map some).flatMap
      Option.toList = Toml.tables "threshold" ts := by
    rw [List.flatMap_assoc, Toml.tables]
    refine List.flatMap_congr fun t _ => ?_
    rw [List.flatMap_cons, List.flatMap_cons, hpairs]
    rfl
  rw [readLines, List.flatMap_append, List.flatMap_append, hpairs, htables]
  simp [Toml.pairs]

/-- **The statements of a file that is read.** -/
theorem collect_fileReads {f : D1ThresholdFile pl} {t : Toml.Entries φ} {ts : List (Toml.Entries φ)}
    (ht : decodedPairs (provenancePairs f) = some t) (hts : entryTables f = some ts) :
    Toml.collect (fileReads f) = some (Toml.pairs [("version", .int f.version), ("frozen", .bool f.frozen),
      ("sha256", .str f.sha256)] ++ .table ["provenance"] :: (Toml.pairs t ++ Toml.tables "threshold" ts)) := by
  have hreads : fileReads f = (readLines (.int f.version) (.bool f.frozen) (.str f.sha256) t ts).map some := by
    rw [fileReads, pairReads_of_decoded ht, entryReads_of_decoded hts, readLines, List.map_append, List.map_append]
    rfl
  rw [hreads, Toml.collect_some, flatMap_readLines]

/-- The fields at the top. -/
def topFields (version : Int) (frozen : Bool) (hash : String) : Toml.Entries φ :=
  [("version", .int version), ("frozen", .bool frozen), ("sha256", .str hash)]

/-- The document of a file. -/
def document (version : Int) (frozen : Bool) (hash : String) (t : Toml.Entries φ) (ts : List (Toml.Entries φ)) :
    Toml.Entries φ :=
  topFields version frozen hash ++ [("provenance", .table t)] ++
    if ts = [] then [] else [("threshold", .array (ts.map .table))]

/-- **The statements of a file make its document.** -/
theorem run_document (version : Int) (frozen : Bool) (hash : String) {t : Toml.Entries φ}
    {ts : List (Toml.Entries φ)} (ht : (t.map Prod.fst).Nodup) (hts : ∀ t ∈ ts, (t.map Prod.fst).Nodup) :
    ∃ out : Output φ, (Toml.pairs (topFields version frozen hash) ++
        Statement.table ["provenance"] :: (Toml.pairs t ++ Toml.tables "threshold" ts)).foldlM Output.step
          Output.start = some out ∧
      out.data = .table (document version frozen hash t ts) := by
  have hflags : (⟨[], [], []⟩ : Toml.Flags).Deep := fun space hspace => by cases hspace
  have htop : (Toml.pairs (topFields version frozen hash)).foldlM Output.step (Output.start : Output φ) =
      some ⟨.table (topFields version frozen hash), ⟨[], [], []⟩, []⟩ := rfl
  have hprovenance : "provenance" ∉ (topFields (φ := φ) version frozen hash).map Prod.fst := by
    change "provenance" ∉ ["version", "frozen", "sha256"]
    decide
  have hthreshold : "threshold" ∉
      (topFields version frozen hash ++ [("provenance", Toml.Value.table t)]).map Prod.fst := by
    change "threshold" ∉ ["version", "frozen", "sha256", "provenance"]
    decide
  obtain ⟨flags₁, hheader, hflags₁⟩ := Toml.step_table hprovenance hflags rfl []
  obtain ⟨flags₂, hpairs, hflags₂, -⟩ := Toml.run_pairs Toml.nests_table hprovenance (t := []) ht hflags₁
  obtain ⟨out, htables, hout⟩ := Toml.run_tables_new hthreshold hts hflags₂ ["provenance"]
  refine ⟨out, ?_, hout⟩
  rw [List.foldlM_append, htop]
  simp only [Option.bind_eq_bind, Option.bind_some, List.foldlM_cons]
  rw [hheader, Option.bind_some, List.foldlM_append, hpairs]
  exact htables

theorem map_fst_decodedPairs {ps : List (String × Provenance φ)} {t : Toml.Entries φ} (h : decodedPairs ps = some t) :
    t.map Prod.fst = ps.map Prod.fst := by
  induction ps generalizing t with
  | nil =>
    cases h
    rfl
  | cons e ps ih =>
    obtain ⟨e', rest, he, hrest, rfl⟩ := mapM_cons_eq_some.mp h
    obtain ⟨v, -, rfl⟩ := Option.map_eq_some_iff.mp he
    rw [List.map_cons, List.map_cons, ih hrest]

theorem nodup_writtenFields (e : EntryFields φ) : ((writtenFields e).map Prod.fst).Nodup := by
  have hsub : ∀ items : List (String × Option (Provenance φ)),
      ((items.filterMap fun item => item.2.map fun v => (item.1, v)).map Prod.fst).Sublist (items.map Prod.fst) := by
    intro items
    induction items with
    | nil => exact List.Sublist.refl _
    | cons item items ih =>
      obtain ⟨name, v⟩ := item
      cases v with
      | none => exact ih.cons name
      | some v => exact ih.cons_cons name
  have hnodup : entryFieldNames.Nodup := by decide
  exact (map_fst_modelDump e ▸ hnodup).sublist (hsub (modelDump e))

/-- A bare key as it is read. -/
theorem codePoints_keyText {key : List CodePoint} (h : bareKey key = true) :
    codePoints (String.ofList (keyText key)) = key := by
  rw [codePoints, String.toList_ofList]
  exact (encode_eq_some (bareKey_iff.mp h).1).symm

theorem bareKey_of_mem {f : D1ThresholdFile pl} (hkeys : bareKeys f = true) {e : List CodePoint × Provenance φ}
    (he : e ∈ sortedProvenance f) : bareKey e.1 = true :=
  List.all_eq_true.mp hkeys e.1 (List.mem_map_of_mem (mem_sortedProvenance.mp he))

theorem map_codePoints_provenancePairs {f : D1ThresholdFile pl} (hkeys : bareKeys f = true) :
    ((provenancePairs f).map fun e => (codePoints e.1, e.2)) = sortedProvenance f := by
  rw [provenancePairs, List.map_map]
  refine (List.map_congr_left fun e he => ?_).trans (List.map_id _)
  exact Prod.ext (codePoints_keyText (bareKey_of_mem hkeys he)) rfl

theorem sortedProvenance_perm (f : D1ThresholdFile pl) : (sortedProvenance f).Perm f.provenance.entries :=
  List.perm_insertionSort _ _

theorem sortedThresholds_perm (f : D1ThresholdFile pl) : (sortedThresholds f).Perm f.thresholds.entries :=
  List.perm_insertionSort _ _

/-- No key of the provenance comes twice. -/
theorem nodup_provenancePairs {f : D1ThresholdFile pl} (hkeys : bareKeys f = true) :
    ((provenancePairs f).map Prod.fst).Nodup := by
  have hnodup : ((sortedProvenance f).map Prod.fst).Nodup :=
    ((sortedProvenance_perm f).map Prod.fst).nodup_iff.mpr f.provenance.nodup
  rw [← map_codePoints_provenancePairs hkeys, List.map_map] at hnodup
  refine List.Nodup.of_map codePoints ?_
  rwa [List.map_map]

/-- **What `tomllib` makes of the dumped text of a file.** -/
theorem loads_dump {f : D1ThresholdFile pl} {text : List Char} (h : dumpThresholds f = some text)
    (hkeys : bareKeys f = true) (hnan : f.isNan = false) {t : Toml.Entries φ} {ts : List (Toml.Entries φ)}
    (ht : decodedPairs (provenancePairs f) = some t) (hts : entryTables f = some ts) :
    Toml.loads pl.float text = some (document f.version f.frozen f.sha256 t ts) := by
  have hnodup : (t.map Prod.fst).Nodup := map_fst_decodedPairs ht ▸ nodup_provenancePairs hkeys
  have hnodups : ∀ t ∈ ts, (t.map Prod.fst).Nodup := by
    intro t ht
    obtain ⟨e, -, hread⟩ := mem_of_mapM hts ht
    rw [map_fst_decodedPairs hread]
    exact nodup_writtenFields e.2.toEntryFields
  obtain ⟨out, hrun, hout⟩ := run_document f.version f.frozen f.sha256 hnodup hnodups
  rw [Toml.loads, statements_dump h hkeys hnan, collect_fileReads ht hts, Option.bind_some]
  change (List.foldlM Output.step Output.start _).bind _ = _
  rw [show Toml.pairs [("version", .int f.version), ("frozen", .bool f.frozen), ("sha256", .str f.sha256)] =
    Toml.pairs (topFields f.version f.frozen f.sha256) from rfl, hrun, Option.bind_some, hout]

end Pirewall.Thresholds
