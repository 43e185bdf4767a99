/-
# Pirewall.Lib.Json -- strings of code points and their JSON literals

A Python `str` is a sequence of code points, and a surrogate on its own is one of them. `json.dumps` writes a string
as an ASCII literal: printable characters stay, the others are escaped, and a code point beyond U+FFFF becomes two
escapes, one for each half of its surrogate pair.

Nothing here names the program.
-/
import Mathlib.Tactic
import Pirewall.Lib.Traverse

namespace Pirewall.Lib

/-! ## Strings -/

/-- A code point of a `str`. -/
abbrev CodePoint := Fin 0x110000

namespace CodePoint

theorem toNat_lt (c : Char) : c.toNat < 0x110000 := by
  rcases c.valid with h | ⟨-, h⟩
  · exact Nat.lt_trans h (by decide)
  · exact h

def ofChar (c : Char) : CodePoint := ⟨c.toNat, toNat_lt c⟩

/-- The character, unless it is a surrogate. -/
def toChar? (p : CodePoint) : Option Char :=
  if h : p.val.isValidChar then some (Char.ofNatAux p.val h) else none

theorem toChar?_eq_some {p : CodePoint} {c : Char} : p.toChar? = some c ↔ p = ofChar c := by
  constructor
  · intro h
    rw [toChar?] at h
    by_cases hvalid : p.val.isValidChar
    · rw [dif_pos hvalid] at h
      cases h
      rfl
    · rw [dif_neg hvalid] at h
      cases h
  · rintro rfl
    rw [toChar?, dif_pos (show (ofChar c).val.isValidChar from c.valid)]
    rfl

theorem toChar?_ofChar (c : Char) : (ofChar c).toChar? = some c := toChar?_eq_some.mpr rfl

theorem ofChar_injective : Function.Injective ofChar := fun c d h =>
  Option.some.inj ((toChar?_ofChar c).symm.trans ((congrArg toChar? h).trans (toChar?_ofChar d)))

end CodePoint

/-- A text without surrogates, as a `str`. -/
def codePoints (s : String) : List CodePoint := s.toList.map CodePoint.ofChar

/-- `text.encode()`, as the characters that are written: a surrogate cannot be. -/
def encode (text : List CodePoint) : Option (List Char) := text.mapM CodePoint.toChar?

theorem encode_eq_some {text : List CodePoint} {cs : List Char} (h : encode text = some cs) :
    text = cs.map CodePoint.ofChar :=
  elements_of_mapM h fun _ _ => CodePoint.toChar?_eq_some.mp

theorem codePoints_injective : Function.Injective codePoints := by
  intro s t h
  have hchars : s.toList = t.toList := CodePoint.ofChar_injective.list_map h
  exact String.toList_inj.mp hchars

/-! ## Literals -/

namespace Json

/-- `ESCAPE_DCT`. -/
def shortEscape : Nat → Option Char
  | 0x22 => some '"'
  | 0x5c => some '\\'
  | 0x0a => some 'n'
  | 0x0d => some 'r'
  | 0x09 => some 't'
  | 0x0c => some 'f'
  | 0x08 => some 'b'
  | _ => none

/-- `'{0:04x}'.format(n)`. -/
def hex4 (n : Nat) : List Char := [n / 4096 % 16, n / 256 % 16, n / 16 % 16, n % 16].map Nat.digitChar

def unicodeEscape (n : Nat) : List Char := '\\' :: 'u' :: hex4 n

/-- `py_encode_basestring_ascii`, of one code point. -/
def escaped (p : CodePoint) : List Char :=
  match shortEscape p.val with
  | some c => ['\\', c]
  | none =>
    if 0x20 ≤ p.val ∧ p.val ≤ 0x7e then [Char.ofNat p.val]
    else if p.val < 0x10000 then unicodeEscape p.val
    else unicodeEscape (0xd800 + (p.val - 0x10000) / 0x400) ++ unicodeEscape (0xdc00 + (p.val - 0x10000) % 0x400)

/-- `json.dumps(text)`. -/
def literal (text : List CodePoint) : List Char := '"' :: (text.flatMap escaped ++ ['"'])

/-- The character, if one escape can tell it: no surrogate, and none beyond U+FFFF. -/
def plain? (p : CodePoint) : Option Char := if p.val < 0x10000 then p.toChar? else none

theorem plain?_eq_some {p : CodePoint} {c : Char} (h : plain? p = some c) : p = .ofChar c := by
  rw [plain?] at h
  split at h
  · exact CodePoint.toChar?_eq_some.mp h
  · cases h

/-- The text, if each of its code points is told by one escape at most. -/
def plainText? (text : List CodePoint) : Option (List Char) := text.mapM plain?

theorem plainText?_eq_some {text : List CodePoint} {cs : List Char} (h : plainText? text = some cs) :
    text = cs.map CodePoint.ofChar :=
  elements_of_mapM h fun _ _ => plain?_eq_some

/-- Characters up to U+FFFF are told by one escape. -/
theorem plainText?_map {cs : List Char} (h : ∀ c ∈ cs, c.toNat < 0x10000) :
    plainText? (cs.map CodePoint.ofChar) = some cs := by
  induction cs with
  | nil => rfl
  | cons c cs ih =>
    have hc : plain? (.ofChar c) = some c := by
      rw [plain?, if_pos (show (CodePoint.ofChar c).val < 0x10000 from h c List.mem_cons_self)]
      exact CodePoint.toChar?_ofChar c
    have ih := ih fun d hd => h d (List.mem_cons_of_mem c hd)
    rw [plainText?] at ih ⊢
    rw [List.map_cons, List.mapM_cons, hc, ih]
    rfl

end Json

end Pirewall.Lib
