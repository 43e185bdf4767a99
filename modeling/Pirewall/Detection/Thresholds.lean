/-
# Pirewall.Detection.Thresholds -- the thresholds file of D1

`detection_v2/thresholds.py`: the model of `config/d1_thresholds.toml`, the text that `dump_thresholds` writes for it
and what `load_thresholds` makes of a text. Keys of the provenance are written bare, strings as JSON literals, floats
and integers as `repr` gives them; `tomllib` and pydantic read them back.

A model exists only as its validators let it: `valid` is a field. What Python and pydantic make of floats, of the text
of an integer and of a value of another type than the field asks for is left to `Platform`, as is SHA-256.
-/
import Pirewall.Detection.D1
import Pirewall.Lib.Toml.Written

namespace Pirewall.Thresholds

open Lib
open Lib.Toml (FloatText)

/-! ## The platform -/

/-- Floats, the conversions of Python and pydantic, and SHA-256. -/
structure Platform (φ : Type) where
  /-- `repr(x)`. -/
  repr : φ → List Char
  /-- `float(text)`. -/
  float : List Char → Option φ
  isNan : φ → Bool
  /-- `x <= y`. -/
  le : φ → φ → Bool
  /-- `x < y`. -/
  lt : φ → φ → Bool
  /-- `x == y`. -/
  eq : φ → φ → Bool
  /-- `x == n`, for an integer. -/
  eqInt : φ → Int → Bool
  /-- `Field(ge=0.0)`. -/
  ge0 : φ → Bool
  /-- `Field(gt=0.0)`. -/
  gt0 : φ → Bool
  /-- `int(text)`, unless it raises `ValueError`. -/
  int : List Char → Option Int
  /-- `str` of what `item.get("name")` gives. -/
  str : Option (Toml.Value φ) → String
  /-- What pydantic makes of a value for an `int`, a `bool` and a `float`. -/
  asInt : Toml.Value φ → Option Int
  asBool : Toml.Value φ → Option Bool
  asFloat : Toml.Value φ → Option φ
  /-- `hashlib.sha256(text).hexdigest()`. -/
  sha256 : List Char → String
  repr_text : ∀ x, FloatText (repr x)
  float_repr : ∀ x, isNan x = false → float (repr x) = some x
  eq_self : ∀ x, isNan x = false → eq x x = true
  nan_ne : ∀ x y, isNan x = true → eq x y = false
  nan_ne_int : ∀ x n, isNan x = true → eqInt x n = false
  str_str : ∀ s, str (some (.str s)) = s
  asInt_int : ∀ n, asInt (.int n) = some n
  asBool_bool : ∀ b, asBool (.bool b) = some b
  asFloat_float : ∀ x, asFloat (.float x) = some x
  sha256_hex : ∀ text, ∀ c ∈ (sha256 text).toList, Toml.isHex c = true

variable {φ : Type}

/-! ## Names -/

/-- What a validator says. -/
inductive Problem (φ : Type) where
  | floorAboveCeiling (name : String)
  | valueOutside (name : String) (value floor ceiling : φ)
  | unsupportedVersion (version : Int)
  | namesItself (name other : String)
  | notAKey (name : String)
  | unknownScope (name : String)
  | badKey (name : String)
  | hashMismatch

/-- Its text, with what `repr` makes of a string and of a float; what `D1Detector` or `int` says goes at the end. -/
def Problem.message (quoted : String → String) (text : φ → String) (detail : String) : Problem φ → String
  | .floorAboveCeiling name => name ++ ": floor above ceiling"
  | .valueOutside name value floor ceiling =>
    name ++ ": value " ++ text value ++ " outside [" ++ text floor ++ ", " ++ text ceiling ++ "]"
  | .unsupportedVersion version => "unsupported thresholds file version " ++ toString version
  | .namesItself name other => "threshold " ++ quoted name ++ " names itself " ++ quoted other
  | .notAKey name => "threshold name " ++ quoted name ++ " is not detector/scope/window"
  | .unknownScope name => "threshold name " ++ quoted name ++ " has an unknown scope"
  | .badKey name => "threshold name " ++ quoted name ++ ": " ++ detail
  | .hashMismatch => "thresholds sha256 does not match the entries (edited by hand?)"

def scopes : List Scope := [.device, .destination, .account, .global]

def detectors : List D1Detector :=
  [.verticalScan, .horizontalScan, .failedHandshake, .bruteForce, .slowRateDos, .fanIn, .newMacRate, .newLeaseRate,
    .portalAuthFailures]

/-- `_parse_key`. -/
def parseKey (pl : Platform φ) (name : String) : Except (Problem φ) (D1Detector × Scope × Int) :=
  match name.toList.splitOn '/' with
  | [detector, scope, window] =>
    match scopes.find? fun s => s.value.toList = scope with
    | none => .error (.unknownScope name)
    | some scope => match detectors.find? (fun d => d.value.toList = detector), pl.int window with
        | some detector, some window => .ok (detector, scope, window)
        | _, _ => .error (.badKey name)
  | _ => .error (.notAKey name)

/-! ## Entries -/

/-- The fields of a `ThresholdEntry`. -/
structure EntryFields (φ : Type) where
  name : String
  value : φ
  floor : φ
  ceiling : φ
  benignP999 : Option φ
  margin : Option φ
  samples : Int

namespace EntryFields

/-- `min_length`, `ge` and `gt` of the fields. -/
def constraints (pl : Platform φ) (e : EntryFields φ) : Bool :=
  1 ≤ e.name.length && pl.ge0 e.value && pl.ge0 e.floor && pl.ge0 e.ceiling && e.benignP999.all pl.ge0 &&
    e.margin.all pl.gt0 && 0 ≤ e.samples

/-- `_check_clamped`. -/
def checkClamped (pl : Platform φ) (e : EntryFields φ) : Except (Problem φ) Unit :=
  if pl.lt e.ceiling e.floor then .error (.floorAboveCeiling e.name)
  else if pl.le e.floor e.value && pl.le e.value e.ceiling then .ok ()
  else .error (.valueOutside e.name e.value e.floor e.ceiling)

def valid (pl : Platform φ) (e : EntryFields φ) : Bool := e.constraints pl && (e.checkClamped pl).isOk

end EntryFields

/-- A `ThresholdEntry`. -/
structure ThresholdEntry (pl : Platform φ) extends EntryFields φ where
  valid : toEntryFields.valid pl = true

/-! ## Provenance -/

/-- `str | int | float | bool | list[str]`. -/
inductive Provenance (φ : Type) where
  | str (text : List CodePoint)
  | int (n : Int)
  | float (x : φ)
  | bool (b : Bool)
  | list (items : List (List CodePoint))

/-- `True == 1` and `False == 0`. -/
def boolInt (b : Bool) : Int := if b then 1 else 0

/-- `v == w`: numbers compare by value, whatever their type. -/
def Provenance.eq (pl : Platform φ) : Provenance φ → Provenance φ → Bool
  | .str s, .str t => s = t
  | .list xs, .list ys => xs = ys
  | .int n, .int m => n = m
  | .int n, .bool b => n = boolInt b
  | .bool b, .int n => boolInt b = n
  | .bool b, .bool c => b = c
  | .float x, .float y => pl.eq x y
  | .float x, .int n => pl.eqInt x n
  | .int n, .float x => pl.eqInt x n
  | .float x, .bool b => pl.eqInt x (boolInt b)
  | .bool b, .float x => pl.eqInt x (boolInt b)
  | _, _ => false

/-! ## The hash -/

/-- `repr` of an integer: `int` refuses to write more than 4300 digits. -/
def reprInt (n : Int) : Option (List Char) :=
  if (Nat.toDigits 10 n.natAbs).length ≤ 4300 then some (Toml.decimal n) else none

/-- A float in JSON. -/
def jsonFloat (pl : Platform φ) (x : φ) : List Char :=
  let text := pl.repr x
  if text = ['n', 'a', 'n'] then "NaN".toList
  else if text = ['i', 'n', 'f'] then "Infinity".toList
  else if text = ['-', 'i', 'n', 'f'] then "-Infinity".toList
  else text

/-- An entry in JSON, its keys sorted. -/
def jsonEntry (pl : Platform φ) (e : EntryFields φ) : Option (List Char) :=
  (reprInt e.samples).map fun samples =>
    let optional (x : Option φ) := (x.map (jsonFloat pl)).getD "null".toList
    let items : List (String × List Char) := [
      ("benign_p999", optional e.benignP999),
      ("ceiling", jsonFloat pl e.ceiling),
      ("floor", jsonFloat pl e.floor),
      ("margin", optional e.margin),
      ("name", Json.literal (codePoints e.name)),
      ("samples", samples),
      ("value", jsonFloat pl e.value)]
    '\x7b' :: ([',', ' '].intercalate (items.map fun item =>
      Json.literal (codePoints item.1) ++ [':', ' '] ++ item.2) ++ ['\x7d'])

/-- `entries_sha256`. -/
def entriesSha256 (pl : Platform φ) (entries : List (ThresholdEntry pl)) : Option String :=
  ((entries.insertionSort fun a b => a.name ≤ b.name).mapM fun e => jsonEntry pl e.toEntryFields).map fun items =>
    pl.sha256 ('[' :: ([',', ' '].intercalate items ++ [']']))

/-! ## Files -/

/-- The fields of a `D1ThresholdFile`. -/
structure FileFields (pl : Platform φ) where
  version : Int
  frozen : Bool
  sha256 : String
  provenance : Dict (List CodePoint) (Provenance φ)
  thresholds : Dict String (ThresholdEntry pl)

/-- `THRESHOLD_FILE_VERSION`. -/
def thresholdFileVersion : Int := 1

namespace FileFields

variable {pl : Platform φ}

/-- The loop of `_check_hash`. -/
def checkNames (pl : Platform φ) : List (String × ThresholdEntry pl) → Except (Problem φ) Unit
  | [] => .ok ()
  | (name, entry) :: rest =>
    if entry.name ≠ name then .error (.namesItself name entry.name)
    else match parseKey pl name with
      | .error problem => .error problem
      | .ok _ => checkNames pl rest

/-- `_check_hash`. -/
def checkHash (f : FileFields pl) : Except (Problem φ) Unit :=
  if f.version ≠ thresholdFileVersion then .error (.unsupportedVersion f.version)
  else match checkNames pl f.thresholds.entries with
    | .error problem => .error problem
    | .ok () =>
      -- a number of samples that cannot be written is a `ValueError` as well
      if entriesSha256 pl f.thresholds.values = some f.sha256 then .ok () else .error .hashMismatch

def valid (f : FileFields pl) : Bool := f.sha256.length = 64 && f.checkHash.isOk

end FileFields

/-- A `D1ThresholdFile`. -/
structure D1ThresholdFile (pl : Platform φ) extends FileFields pl where
  valid : toFileFields.valid = true

/-- `x == y`, for what may be `None`. -/
def Platform.eqOptional (pl : Platform φ) : Option φ → Option φ → Bool
  | none, none => true
  | some x, some y => pl.eq x y
  | _, _ => false

/-- `==` of two entries. -/
def EntryFields.eq (pl : Platform φ) (a b : EntryFields φ) : Bool :=
  a.name = b.name && pl.eq a.value b.value && pl.eq a.floor b.floor && pl.eq a.ceiling b.ceiling &&
    pl.eqOptional a.benignP999 b.benignP999 && pl.eqOptional a.margin b.margin && a.samples = b.samples

namespace D1ThresholdFile

variable {pl : Platform φ}

/-- `==` of two files. -/
def eq (f g : D1ThresholdFile pl) : Bool :=
  f.version = g.version && f.frozen = g.frozen && f.sha256 = g.sha256 &&
    Dict.eqBy (Provenance.eq pl) f.provenance g.provenance &&
    Dict.eqBy (fun a b => a.toEntryFields.eq pl b.toEntryFields) f.thresholds g.thresholds

/-- `value`: the threshold in force for a key. -/
def value (f : D1ThresholdFile pl) (detector : D1Detector) (scope : Scope) (window : Int) : Option φ :=
  (f.thresholds.get? (String.ofList (detector.value.toList ++ '/' :: (scope.value.toList ++ '/' ::
    Toml.decimal window)))).map fun entry => entry.value

end D1ThresholdFile

/-! ## Writing -/

section Dump

variable (pl : Platform φ)

/-- `_toml_value`: none where `repr` raises. -/
def tomlValue : Provenance φ → Option (List Char)
  | .bool b => some (Toml.boolText b)
  | .int n => reprInt n
  | .float x => some (pl.repr x)
  | .list items => some ('[' :: ([',', ' '].intercalate (items.map Json.literal) ++ [']']))
  | .str text => some (Json.literal text)

/-- `key = value`. -/
def pairLine (key : List Char) (v : Provenance φ) : Option (List Char) :=
  (tomlValue pl v).map fun text => key ++ ([' ', '=', ' '] ++ text)

/-- `entry.model_dump(mode="json")`: a `None` has no line. -/
def modelDump (e : EntryFields φ) : List (String × Option (Provenance φ)) := [
  ("name", some (.str (codePoints e.name))),
  ("value", some (.float e.value)),
  ("floor", some (.float e.floor)),
  ("ceiling", some (.float e.ceiling)),
  ("benign_p999", e.benignP999.map .float),
  ("margin", e.margin.map .float),
  ("samples", some (.int e.samples))]

/-- The fields that are written. -/
def writtenFields (e : EntryFields φ) : List (String × Provenance φ) :=
  (modelDump e).filterMap fun item => item.2.map fun v => (item.1, v)

/-- The lines of an entry. -/
def entryLines (e : EntryFields φ) : Option (List (List Char)) :=
  ((writtenFields e).mapM fun item => pairLine pl item.1.toList item.2).map fun lines =>
    [] :: "[[threshold]]".toList :: lines

/-- The comment at the top. -/
def comments : List (List Char) := [
  "# D1 thresholds (ADDENDUM_4.md D4, PLAN_FINAL §4.5). Generated by".toList,
  "# scripts/train/fit_d1_thresholds.py; do not edit by hand (sha256 covers the entries).".toList,
  "# threshold = clamp(benign P99.9 x margin, floor, ceiling).".toList]

variable {pl}

/-- The provenance, sorted by key. -/
def sortedProvenance (f : D1ThresholdFile pl) : List (List CodePoint × Provenance φ) :=
  f.provenance.entries.insertionSort fun a b => a.1 ≤ b.1

/-- The entries, sorted by name. -/
def sortedThresholds (f : D1ThresholdFile pl) : List (String × ThresholdEntry pl) :=
  f.thresholds.entries.insertionSort fun a b => a.1 ≤ b.1

/-- The lines of `dump_thresholds`. A key is written as it is: a surrogate in it cannot be encoded. -/
def dumpLines (f : D1ThresholdFile pl) : Option (List (List Char)) :=
  ((sortedProvenance f).mapM fun e => (encode e.1).bind fun key => pairLine pl key e.2).bind fun provenance =>
    ((sortedThresholds f).mapM fun e => entryLines pl e.2.toEntryFields).map fun entries =>
      comments ++ [
        "version = ".toList ++ Toml.decimal f.version,
        "frozen = ".toList ++ Toml.boolText f.frozen,
        "sha256 = ".toList ++ Json.literal (codePoints f.sha256),
        [],
        "[provenance]".toList] ++ provenance ++ entries.flatten

/-- `dump_thresholds`, as the text of the file: none where it raises or cannot be encoded. -/
def dumpThresholds (f : D1ThresholdFile pl) : Option (List Char) :=
  (dumpLines f).map fun lines => ['\n'].intercalate lines ++ ['\n']

end Dump

/-! ## Reading -/

section Load

variable (pl : Platform φ)

/-- What `load_thresholds` raises on a text. -/
inductive LoadError where
  | unreadable
  | invalid
  /-- an item of `threshold` has no `get` -/
  | noItem
  deriving DecidableEq

/-- The text of a `ConfigurationError`, with what `tomllib` or pydantic says; the last is no such error. -/
def LoadError.message (path detail : String) : LoadError → Option String
  | .unreadable => some ("D1 thresholds file " ++ path ++ " is unreadable: " ++ detail)
  | .invalid => some ("D1 thresholds file " ++ path ++ " is invalid: " ++ detail)
  | .noItem => none

/-- `str` of a field. -/
def asStr : Toml.Value φ → Option String
  | .str s => some s
  | _ => none

/-- A field that must be given. -/
def required {α : Type} (t : Toml.Entries φ) (name : String) (convert : Toml.Value φ → Option α) : Option α :=
  (t.lookup name).bind convert

/-- A field with a default. -/
def given {α : Type} (t : Toml.Entries φ) (name : String) (default_ : α) (convert : Toml.Value φ → Option α) :
    Option α :=
  match t.lookup name with
  | none => some default_
  | some v => convert v

def entryFieldNames : List String := ["name", "value", "floor", "ceiling", "benign_p999", "margin", "samples"]

/-- Validation of a `ThresholdEntry`. -/
def validateEntry : Toml.Value φ → Option (ThresholdEntry pl)
  | .table t =>
    if t.all fun e => entryFieldNames.contains e.1 then
      (required t "name" asStr).bind fun name =>
      (required t "value" pl.asFloat).bind fun value =>
      (required t "floor" pl.asFloat).bind fun floor =>
      (required t "ceiling" pl.asFloat).bind fun ceiling =>
      (given t "benign_p999" none fun v => (pl.asFloat v).map some).bind fun benignP999 =>
      (given t "margin" none fun v => (pl.asFloat v).map some).bind fun margin =>
      (given t "samples" 0 pl.asInt).bind fun samples =>
        let fields : EntryFields φ := ⟨name, value, floor, ceiling, benignP999, margin, samples⟩
        if h : fields.valid pl = true then some ⟨fields, h⟩ else none
    else none
  | _ => none

/-- Validation of a value of the provenance: no other type is converted to one of the union's. -/
def validateProvenance : Toml.Value φ → Option (Provenance φ)
  | .str s => some (.str (codePoints s))
  | .int n => some (.int n)
  | .float x => some (.float x)
  | .bool b => some (.bool b)
  | .array items => (items.mapM asStr).map fun texts => .list (texts.map codePoints)
  | _ => none

/-- Validation of the provenance. -/
def validateProvenances : Toml.Value φ → Option (Dict (List CodePoint) (Provenance φ))
  | .table t => (t.mapM fun e => (validateProvenance e.2).map fun v => (codePoints e.1, v)).map Dict.ofPairs
  | _ => none

def fileFieldNames : List String := ["version", "frozen", "sha256", "provenance", "thresholds"]

/-- `D1ThresholdFile.model_validate` of `{**raw, "thresholds": items}`. -/
def validateFile (raw : Toml.Entries φ) (items : Dict String (Toml.Value φ)) : Option (D1ThresholdFile pl) :=
  if raw.all fun e => fileFieldNames.contains e.1 then
    (given raw "version" thresholdFileVersion pl.asInt).bind fun version =>
    (given raw "frozen" false pl.asBool).bind fun frozen =>
    (required raw "sha256" asStr).bind fun sha256 =>
    (given raw "provenance" Dict.empty validateProvenances).bind fun provenance =>
    (items.entries.mapM fun e => (validateEntry pl e.2).map fun entry => (e.1, entry)).bind fun thresholds =>
      let fields : FileFields pl := ⟨version, frozen, sha256, provenance, Dict.ofPairs thresholds⟩
      if h : fields.valid = true then some ⟨fields, h⟩ else none
  else none

/-- `str(item.get("name"))`, of an item that has a `get`. -/
def itemName : Toml.Value φ → Option String
  | .table t => some (pl.str (t.lookup "name"))
  | _ => none

/-- `{str(item.get("name")): item for item in entries}`. -/
def named : Toml.Value φ → Option (Dict String (Toml.Value φ))
  | .array items => (items.mapM fun item => (itemName pl item).map fun name => (name, item)).map Dict.ofPairs
  -- an empty table or string is iterable too, and has no item
  | .table [] => some Dict.empty
  | .str "" => some Dict.empty
  | _ => none

/-- `load_thresholds` of a file's text. -/
def loadThresholds (text : List Char) : Except LoadError (D1ThresholdFile pl) :=
  match Toml.loads pl.float text with
  | none => .error .unreadable
  | some raw => match named pl ((raw.lookup "threshold").getD (.array [])) with
    | none => .error .noItem
    | some items => match validateFile pl (raw.filter fun e => e.1 ≠ "threshold") items with
      | none => .error .invalid
      | some f => .ok f

end Load

end Pirewall.Thresholds
