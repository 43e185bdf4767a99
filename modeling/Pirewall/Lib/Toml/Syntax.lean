/-
# Pirewall.Lib.Toml.Syntax -- the statements of a TOML text

`tomllib` reads a text one statement at a time: a table header, the header of an array of tables, or a key and its
value. What a statement does to the document comes later; here is the text of each, and its values.

A number is read as the expression `RE_NUMBER` matches it, a date or a time as `RE_DATETIME` and `RE_LOCALTIME` do.
What becomes of a float is left to `parse_float`. An error is `none`: nothing here depends on which it is.
-/
import Pirewall.Lib.Calendar
import Pirewall.Lib.Dict
import Pirewall.Lib.Reader

namespace Pirewall.Lib.Toml

open Reader

/-! ## Values -/

/-- A date, a date with a time and perhaps an offset from UTC in minutes, or a time of day. -/
inductive Stamp where
  | date (year month day : Nat)
  | datetime (year month day hour minute second micros : Nat) (offset : Option Int)
  | time (hour minute second micros : Nat)
  deriving DecidableEq

/-- A value, over the floats `φ`. A table lists its keys in the order they were set. -/
inductive Value (φ : Type) where
  | str (text : String)
  | int (n : Int)
  | float (x : φ)
  | bool (b : Bool)
  | stamp (at_ : Stamp)
  | array (items : List (Value φ))
  | table (entries : List (String × Value φ))

/-- The entries of a table. -/
abbrev Entries (φ : Type) := List (String × Value φ)

/-- `key[:i]` of a dotted key is a path into the document. -/
abbrev Path := List String

variable {φ : Type}

/-- `NestedDict`: set the value at the end of a path, through the tables on the way (which are made where they are
missing), or fail where the path meets another value. With `lists` an array stands for its last table. -/
def setAt (lists : Bool) : Path → (Option (Value φ) → Option (Value φ)) → Option (Value φ) → Option (Value φ)
  | [], f, value => f value
  | key :: path, f, none => (setAt lists path f none).map fun v => .table [(key, v)]
  | key :: path, f, some (.table t) =>
    (setAt lists path f (t.lookup key)).map fun v => .table (Dict.setEntries t key v)
  | key :: path, f, some (.array items) =>
    if lists then
      match items.getLast? with
      | some (.table t) => (setAt lists path f (t.lookup key)).map fun v =>
        .array (items.dropLast ++ [.table (Dict.setEntries t key v)])
      | _ => none
    else none
  | _ :: _, _, _ => none

/-- `nest[key_stem] = value`, unless there is one already. -/
def putNew (v : Value φ) : Option (Value φ) → Option (Value φ)
  | none => some v
  | some _ => none

/-! ## Characters -/

/-- `TOML_WS`. -/
def isWs (c : Char) : Bool := c = ' ' || c = '\t'

/-- `ILLEGAL_BASIC_STR_CHARS`, `ILLEGAL_LITERAL_STR_CHARS` and `ILLEGAL_COMMENT_CHARS`. -/
def isIllegal (c : Char) : Bool := (c.toNat < 32 || c.toNat = 127) && c ≠ '\t'

/-- `BARE_KEY_CHARS`. -/
def isBareKey (c : Char) : Bool := c.isAlphanum || c = '-' || c = '_'

/-- `HEXDIGIT_CHARS`. -/
def isHex (c : Char) : Bool := c.isDigit || ('a' ≤ c && c ≤ 'f') || ('A' ≤ c && c ≤ 'F')

/-- The value of a digit, of whatever base. -/
def digitValue (c : Char) : Nat :=
  if c.isDigit then c.toNat - '0'.toNat
  else if 'a' ≤ c then c.toNat - 'a'.toNat + 10
  else c.toNat - 'A'.toNat + 10

/-- The value of a string of digits. -/
def digitsValue (base : Nat) (cs : List Char) : Nat := cs.foldl (fun n c => n * base + digitValue c) 0

/-- `skip_chars(src, pos, TOML_WS)`. -/
def ws : Reader Unit := (fun _ => ()) <$> spanWhile isWs

/-- What is left of a line after the `#` of a comment. -/
def commentText : Reader Unit := spanWhile (· ≠ '\n') >>= fun text => if text.any isIllegal then failure else pure ()

/-- `skip_comment`. -/
def comment : Reader Unit := skip? ['#'] >>= fun there => if there then commentText else pure ()

/-- `skip_comments_and_array_ws`. -/
def arrayWsWithin : Nat → Reader Unit
  | 0 => failure
  | n + 1 => spanWhile (fun c => isWs c || c = '\n') >>= fun _ => skip? ['#'] >>= fun there =>
    if there then commentText >>= fun _ => arrayWsWithin n else pure ()

def arrayWs : Reader Unit := fueled 1 arrayWsWithin

/-! ## Strings and keys -/

/-- `parse_hex_char`. -/
def hexChar : Nat → List Char → Reader (List Char)
  | 0, digits =>
    if h : (digitsValue 16 digits.reverse).isValidChar then pure [Char.ofNatAux _ h] else failure
  | n + 1, digits => charIf isHex >>= fun c => hexChar n (c :: digits)

theorem hexChar_zero (digits : List Char) : hexChar 0 digits =
    if h : (digitsValue 16 digits.reverse).isValidChar then pure [Char.ofNatAux _ h] else failure := rfl

theorem hexChar_succ (n : Nat) (digits : List Char) :
    hexChar (n + 1) digits = charIf isHex >>= fun c => hexChar n (c :: digits) := rfl

/-- `BASIC_STR_ESCAPE_REPLACEMENTS`. -/
def replacement : Char → Option Char
  | 'b' => some '\x08'
  | 't' => some '\t'
  | 'n' => some '\n'
  | 'f' => some '\x0c'
  | 'r' => some '\r'
  | '"' => some '"'
  | '\\' => some '\\'
  | _ => none

/-- `parse_basic_str_escape`, after the backslash. -/
def escape (multiline : Bool) : Reader (List Char) :=
  char >>= fun c =>
    if multiline && (isWs c || c = '\n') then
      -- the rest of the line is blank, and the blanks up to the next character are skipped with it
      (if c = '\n' then pure '\n' else ws >>= fun _ => charIf (· = '\n')) >>= fun _ =>
        (fun _ => []) <$> spanWhile fun c => isWs c || c = '\n'
    else if c = 'u' then hexChar 4 []
    else if c = 'U' then hexChar 8 []
    else match replacement c with
      | some c => pure [c]
      | none => failure

/-- A character of a string, or an escape. -/
def basicPiece (multiline : Bool) : Reader (List Char) :=
  char >>= fun c =>
    if c = '\\' then escape multiline
    else if isIllegal c && !(multiline && c = '\n') then failure
    else pure [c]

def literalPiece (multiline : Bool) : Reader (List Char) :=
  char >>= fun c => if isIllegal c && !(multiline && c = '\n') then failure else pure [c]

/-- The text of a string, from its pieces. -/
def pieces (read : Reader (List (List Char))) : Reader (List Char) := List.flatten <$> read

/-- `parse_one_line_basic_str`, after the quotation mark. -/
def basicStr : Reader (List Char) := pieces (upTo ['"'] (basicPiece false))

/-- `parse_literal_str`, after the apostrophe. -/
def literalStr : Reader (List Char) := pieces (upTo ['\''] (literalPiece false))

/-- At most two more quotation marks belong to the text. -/
def extraQuotes (delim : Char) (text : List Char) : Reader (List Char) :=
  skip? [delim] >>= fun one => if one then
    skip? [delim] >>= fun two => pure (if two then text ++ [delim, delim] else text ++ [delim])
  else pure text

/-- `parse_multiline_str`, after the three quotation marks. -/
def multilineStr (delim : Char) (piece : Reader (List Char)) : Reader (List Char) :=
  skipFeed >>= fun _ => pieces (upTo [delim, delim, delim] piece) >>= extraQuotes delim
where
  /-- A line feed right after the opening is no part of the text. -/
  skipFeed : Reader Unit := fun s => match s with
    | '\n' :: s => some ((), s)
    | s => some ((), s)

/-- `parse_key_part`. -/
def keyPart : Reader String :=
  skip? ['\''] >>= fun literal => if literal then String.ofList <$> literalStr
  else skip? ['"'] >>= fun basic => if basic then String.ofList <$> basicStr
  else spanWhile isBareKey >>= fun part => if part = [] then failure else pure (String.ofList part)

/-- `parse_key`. -/
def keyWithin : Nat → Reader Path
  | 0 => failure
  | n + 1 => keyPart >>= fun part => ws >>= fun _ => skip? ['.'] >>= fun dot =>
    if dot then ws >>= fun _ => (part :: ·) <$> keyWithin n else pure [part]

def key : Reader Path := fueled 1 keyWithin

/-! ## Numbers -/

/-- `(?:_?[..])*`. -/
def moreDigits (ok : Char → Bool) : List Char → List Char
  | [] => []
  | [c] => if ok c then [] else [c]
  | c :: d :: s => if ok c then moreDigits ok (d :: s) else if c = '_' && ok d then moreDigits ok s else c :: d :: s

/-- `[..](?:_?[..])*`: what is left after it. -/
def digits (first ok : Char → Bool) : List Char → Option (List Char)
  | [] => none
  | c :: s => if first c then some (moreDigits ok s) else none

/-- The text that was matched, from what is left of the line. -/
def matched (line rest : List Char) : List Char := line.take (line.length - rest.length)

/-- Hexadecimal, binary and octal numbers. -/
def radixNumber : Reader Int := fun line => match line with
  | '0' :: radix :: s =>
    let (base, ok) : Nat × (Char → Bool) := match radix with
      | 'x' => (16, isHex)
      | 'b' => (2, fun c => c = '0' || c = '1')
      | 'o' => (8, fun c => '0' ≤ c && c ≤ '7')
      | _ => (0, fun _ => false)
    (digits ok ok s).map fun rest => (digitsValue base ((matched s rest).filter (· ≠ '_')), rest)
  | _ => none

def dropSign : List Char → List Char
  | '+' :: s => s
  | '-' :: s => s
  | s => s

/-- `[+-]?(?:0|[1-9](?:_?[0-9])*)`. -/
def integerPart (line : List Char) : Option (List Char) :=
  match dropSign line with
  | '0' :: s => some s
  | s => digits Char.isDigit Char.isDigit s

/-- `(?:\.[0-9](?:_?[0-9])*)?`. -/
def fractionPart : List Char → List Char
  | '.' :: s => (digits Char.isDigit Char.isDigit s).getD ('.' :: s)
  | s => s

/-- `(?:[eE][+-]?[0-9](?:_?[0-9])*)?`. -/
def exponentPart : List Char → List Char
  | [] => []
  | c :: s =>
    if c = 'e' || c = 'E' then (digits Char.isDigit Char.isDigit (dropSign s)).getD (c :: s) else c :: s

/-- `int(text, 0)` of a decimal number; `int` refuses more than 4300 digits. -/
def decimalValue (text : List Char) : Option Int :=
  let figures := text.filter Char.isDigit
  if figures.length ≤ 4300 then
    some (if text.head? = some '-' then -(digitsValue 10 figures : Int) else digitsValue 10 figures)
  else none

variable (parseFloat : List Char → Option φ)

/-- `RE_NUMBER` and `match_to_number`. -/
def number : Reader (Value φ) := fun line =>
  match radixNumber line with
  | some (n, rest) => some (.int n, rest)
  | none => (integerPart line).bind fun whole =>
    let rest := exponentPart (fractionPart whole)
    if rest = whole then (decimalValue (matched line whole)).map fun n => (.int n, rest)
    else (parseFloat (matched line rest)).map fun x => (.float x, rest)

/-- `inf` and `nan`, with or without a sign. -/
def specialFloat : Reader (Value φ) := fun line =>
  let word := (dropSign line).take 3
  if word = ['i', 'n', 'f'] || word = ['n', 'a', 'n'] then
    let rest := (dropSign line).drop 3
    (parseFloat (matched line rest)).map fun x => (.float x, rest)
  else none

/-! ## Dates and times -/

/-- Two digits whose number is between `low` and `high`. -/
def twoDigits (low high : Nat) : Reader Nat :=
  charIf Char.isDigit >>= fun c => charIf Char.isDigit >>= fun d =>
    let n := digitsValue 10 [c, d]
    if low ≤ n && n ≤ high then pure n else failure

/-- The fraction of a second, in microseconds: its digits from the seventh on are dropped. -/
def fractionOfSecond : Reader Nat := fun line => match line with
  | '.' :: s =>
    let figures := s.takeWhile Char.isDigit
    if figures = [] then some (0, line)
    else some (digitsValue 10 ((figures ++ List.replicate 6 '0').take 6), s.dropWhile Char.isDigit)
  | _ => some (0, line)

/-- `RE_LOCALTIME`. -/
def timeOfDay : Reader (Nat × Nat × Nat × Nat) :=
  twoDigits 0 23 >>= fun hour => charIf (· = ':') >>= fun _ => twoDigits 0 59 >>= fun minute =>
    charIf (· = ':') >>= fun _ => twoDigits 0 59 >>= fun second => fractionOfSecond >>= fun micros =>
      pure (hour, minute, second, micros)

/-- `Z`, or the sign, hours and minutes of an offset, in minutes. -/
def offset : Reader Int :=
  char >>= fun c =>
    if c = 'Z' || c = 'z' then pure 0
    else if c = '+' || c = '-' then
      twoDigits 0 23 >>= fun hours => charIf (· = ':') >>= fun _ => twoDigits 0 59 >>= fun minutes =>
        pure (if c = '+' then (hours * 60 + minutes : Int) else -(hours * 60 + minutes))
    else failure

/-- An optional group: nothing is taken where it does not match. -/
def optional {α : Type} (p : Reader α) : Reader (Option α) := fun s => match p s with
  | some (a, rest) => some (some a, rest)
  | none => some (none, s)

/-- `RE_DATETIME`. -/
def dateAndTime : Reader Stamp :=
  charIf Char.isDigit >>= fun a => charIf Char.isDigit >>= fun b => twoDigits 0 99 >>= fun cd =>
    charIf (· = '-') >>= fun _ => twoDigits 1 12 >>= fun month => charIf (· = '-') >>= fun _ =>
      twoDigits 1 31 >>= fun day =>
        let year := digitsValue 10 [a, b] * 100 + cd
        optional (charIf (fun c => c = 'T' || c = 't' || c = ' ') >>= fun _ => timeOfDay >>= fun time =>
          optional offset >>= fun zone => pure (time, zone)) >>= fun rest =>
            pure (match rest with
              | some ((hour, minute, second, micros), zone) =>
                .datetime year month day hour minute second micros zone
              | none => .date year month day)

/-- What `date` and `datetime` accept: a day the calendar has, of the years 1 to 9999. -/
def validDay (year month day : Nat) : Bool :=
  1 ≤ year && day ≤ (monthLengths (isLeap year)).getD (month - 1) 0

def Stamp.valid : Stamp → Bool
  | .date year month day => validDay year month day
  | .datetime year month day _ _ _ _ _ => validDay year month day
  | .time .. => true

/-- The values that are told by no first character: dates, times and numbers, in this order. -/
def plainValue : Reader (Value φ) := fun line =>
  match dateAndTime line with
  | some (stamp, rest) => if stamp.valid then some (.stamp stamp, rest) else none
  | none => match timeOfDay line with
    | some ((hour, minute, second, micros), rest) => some (.stamp (.time hour minute second micros), rest)
    | none => match number parseFloat line with
      | some found => some found
      | none => specialFloat parseFloat line

/-! ## Values -/

/-- A value, for the words that tell it: the value read after the word. -/
def telling (word : List Char) (read : Reader (Value φ)) (other : Reader (Value φ)) : Reader (Value φ) :=
  skip? word >>= fun there => if there then read else other

/-- Whether the path or one on the way to it is immutable. -/
def frozen (namespaces : List Path) (path : Path) : Bool := namespaces.any fun space => space.isPrefixOf path

/-- Inline tables and arrays cannot be added to. -/
def Value.isNest : Value φ → Bool
  | .array _ => true
  | .table _ => true
  | _ => false

mutual

/-- `parse_value`. -/
def valueWithin : Nat → Reader (Value φ)
  | 0 => failure
  | n + 1 =>
    telling ['"', '"', '"'] ((.str ∘ String.ofList) <$> multilineStr '"' (basicPiece true)) <|
    telling ['"'] ((.str ∘ String.ofList) <$> basicStr) <|
    telling ['\'', '\'', '\''] ((.str ∘ String.ofList) <$> multilineStr '\'' (literalPiece true)) <|
    telling ['\''] ((.str ∘ String.ofList) <$> literalStr) <|
    telling ['t', 'r', 'u', 'e'] (pure (.bool true)) <|
    telling ['f', 'a', 'l', 's', 'e'] (pure (.bool false)) <|
    telling ['['] (arrayWs >>= fun _ => telling [']'] (pure (.array [])) (.array <$> itemsWithin n)) <|
    telling ['{'] (ws >>= fun _ => telling ['}'] (pure (.table [])) (.table <$> pairsWithin n [] [])) <|
    onLine (plainValue parseFloat)

/-- `parse_array`, from an item on. -/
def itemsWithin : Nat → Reader (List (Value φ))
  | 0 => failure
  | n + 1 => valueWithin n >>= fun v => arrayWs >>= fun _ => skip? [']'] >>= fun closed =>
    if closed then pure [v] else charIf (· = ',') >>= fun _ => arrayWs >>= fun _ => skip? [']'] >>= fun closed =>
      if closed then pure [v] else (v :: ·) <$> itemsWithin n

/-- `parse_inline_table`, from a pair on. -/
def pairsWithin : Nat → List Path → Entries φ → Reader (Entries φ)
  | 0, _, _ => failure
  | n + 1, namespaces, entries => key >>= fun path => charIf (· = '=') >>= fun _ => ws >>= fun _ =>
    valueWithin n >>= fun v =>
      match if frozen namespaces path then none else setAt false path (putNew v) (some (.table entries)) with
      | some (.table entries) => ws >>= fun _ => skip? ['}'] >>= fun closed =>
        if closed then pure entries else charIf (· = ',') >>= fun _ => ws >>= fun _ =>
          pairsWithin n (if v.isNest then path :: namespaces else namespaces) entries
      | _ => failure

end

/-- `parse_value`: every call of it within another takes a character at least. -/
def value : Reader (Value φ) := fueled 1 (valueWithin parseFloat)

/-! ## Statements -/

/-- A statement: the header of a table or of an array of tables, or a key and its value. -/
inductive Statement (φ : Type) where
  | table (path : Path)
  | arrayTable (path : Path)
  | pair (path : Path) (v : Value φ)

/-- Whether the statement of a line is over, or the line has none. -/
def lineEnds : Reader Bool := fun s => some (s.head?.all fun c => c = '\n' || c = '#', s)

/-- A line up to its line feed: a statement, if it has one, and a comment. -/
def line : Reader (Option (Statement φ)) :=
  ws >>= fun _ => statement >>= fun st => comment >>= fun _ => pure st
where
  /-- `create_list_rule`, `create_dict_rule` and `key_value_rule`, as far as they read. -/
  statement : Reader (Option (Statement φ)) :=
    skip? ['[', '['] >>= fun arrayTable => if arrayTable then
      ws >>= fun _ => key >>= fun path => charIf (· = ']') >>= fun _ => charIf (· = ']') >>= fun _ =>
        ws >>= fun _ => pure (some (.arrayTable path))
    else skip? ['['] >>= fun table => if table then
      ws >>= fun _ => key >>= fun path => charIf (· = ']') >>= fun _ => ws >>= fun _ => pure (some (.table path))
    else lineEnds >>= fun ends => if ends then pure none
    else key >>= fun path => charIf (· = '=') >>= fun _ => ws >>= fun _ => value parseFloat >>= fun v =>
      ws >>= fun _ => pure (some (.pair path v))

/-- The loop of `loads`, as far as it reads. -/
def statementsWithin : Nat → List Char → Option (List (Statement φ))
  | 0, _ => none
  | n + 1, s => (line parseFloat s).bind fun (st, rest) =>
    match rest with
    | [] => some st.toList
    | c :: rest => if c = '\n' then (statementsWithin n rest).map (st.toList ++ ·) else none

/-- `s.replace("\r\n", "\n")`. -/
def lineFeeds : List Char → List Char
  | '\r' :: '\n' :: s => '\n' :: lineFeeds s
  | c :: s => c :: lineFeeds s
  | [] => []

/-- The statements of a text. A carriage return that ends no line is an error wherever it stands. -/
def statements (text : List Char) : Option (List (Statement φ)) :=
  let src := lineFeeds text
  if '\r' ∈ src then none else statementsWithin parseFloat (src.length + 1) src

end Pirewall.Lib.Toml
