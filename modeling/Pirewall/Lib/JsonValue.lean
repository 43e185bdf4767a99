/-
# Pirewall.Lib.JsonValue -- JSON values as compact text

`json.dumps` with the separators `,` and `:`. Every character that it writes is a printable ASCII one, so the text of a
value is on one line.

Nothing here names the program.
-/
import Pirewall.Lib.Json

namespace Pirewall.Lib

/-- A character that `json.dumps` may write: U+0020 to U+007E. -/
def Printable (c : Char) : Prop := 0x20 ≤ c.toNat ∧ c.toNat ≤ 0x7e

instance : DecidablePred Printable := fun c => inferInstanceAs (Decidable (0x20 ≤ c.toNat ∧ c.toNat ≤ 0x7e))

theorem printable_append {first rest : List Char} (h : ∀ c ∈ first, Printable c) (h' : ∀ c ∈ rest, Printable c) :
    ∀ c ∈ first ++ rest, Printable c := fun c hc => (List.mem_append.mp hc).elim (h c) (h' c)

theorem printable_cons {c : Char} {rest : List Char} (h : Printable c) (h' : ∀ d ∈ rest, Printable d) :
    ∀ d ∈ c :: rest, Printable d := fun _ hd => (List.mem_cons.mp hd).elim (fun heq => heq ▸ h) (h' _)

theorem printable_of_all {text : List Char} (h : text.all (fun c => decide (Printable c)) = true) :
    ∀ c ∈ text, Printable c := fun c hc => of_decide_eq_true (List.all_eq_true.mp h c hc)

theorem printable_nil : ∀ c ∈ ([] : List Char), Printable c := fun _ hc => absurd hc List.not_mem_nil

/-! ## Literals -/

namespace Json

theorem printable_digitChar {n : Nat} (h : n < 16) : Printable (Nat.digitChar n) := by
  interval_cases n <;> decide

theorem printable_hex4 (n : Nat) : ∀ c ∈ hex4 n, Printable c := by
  intro c hc
  obtain ⟨digit, hdigit, rfl⟩ := List.mem_map.mp hc
  refine printable_digitChar ?_
  simp only [List.mem_cons, List.not_mem_nil, or_false] at hdigit
  omega

theorem printable_unicodeEscape (n : Nat) : ∀ c ∈ unicodeEscape n, Printable c :=
  printable_cons (by decide) (printable_cons (by decide) (printable_hex4 n))

theorem printable_shortEscape {n : Nat} {c : Char} (h : shortEscape n = some c) : Printable c := by
  unfold shortEscape at h
  split at h <;> cases h <;> decide

theorem printable_ofNat {n : Nat} (h : 0x20 ≤ n ∧ n ≤ 0x7e) : Printable (Char.ofNat n) := by
  have hall : ∀ n : Fin 0x7f, 0x20 ≤ n.val → Printable (Char.ofNat n) := by decide
  exact hall ⟨n, by omega⟩ h.1

theorem printable_escaped (p : CodePoint) : ∀ c ∈ escaped p, Printable c := by
  unfold escaped
  split
  · rename_i c hc
    exact printable_cons (by decide) (printable_cons (printable_shortEscape hc) printable_nil)
  · split_ifs with hplain hbmp
    · exact printable_cons (printable_ofNat hplain) printable_nil
    · exact printable_unicodeEscape p.val
    · exact printable_append (printable_unicodeEscape _) (printable_unicodeEscape _)

theorem printable_literal (text : List CodePoint) : ∀ c ∈ literal text, Printable c := by
  have hbody : ∀ c ∈ text.flatMap escaped, Printable c := by
    intro c hc
    obtain ⟨p, -, hp⟩ := List.mem_flatMap.mp hc
    exact printable_escaped p c hp
  exact printable_cons (by decide) (printable_append hbody (printable_cons (by decide) printable_nil))

end Json

/-! ## Values -/

/-- The text of a number: `repr` of an `int` or of a `float`. -/
structure Numeral where
  text : List Char
  printable : ∀ c ∈ text, Printable c

/-- A value that `json.dumps` takes. -/
inductive JsonValue where
  | null
  | bool (b : Bool)
  | number (n : Numeral)
  | string (text : List CodePoint)
  | array (items : List JsonValue)
  | object (members : List (List CodePoint × JsonValue))

namespace JsonValue

mutual

/-- `json.dumps(value, separators=(",", ":"))`. -/
def dumps : JsonValue → List Char
  | null => ['n', 'u', 'l', 'l']
  | bool true => ['t', 'r', 'u', 'e']
  | bool false => ['f', 'a', 'l', 's', 'e']
  | number n => n.text
  | string text => Json.literal text
  | array items => '[' :: (dumpsItems true items ++ [']'])
  | object members => '\x7b' :: (dumpsMembers true members ++ ['\x7d'])

/-- The items of an array, with a comma before each but the first. -/
def dumpsItems : Bool → List JsonValue → List Char
  | _, [] => []
  | first, value :: rest => (if first then [] else [',']) ++ (dumps value ++ dumpsItems false rest)

/-- The members of an object. -/
def dumpsMembers : Bool → List (List CodePoint × JsonValue) → List Char
  | _, [] => []
  | first, (key, value) :: rest =>
    (if first then [] else [',']) ++ (Json.literal key ++ ':' :: (dumps value ++ dumpsMembers false rest))

end

theorem printable_comma (first : Bool) : ∀ c ∈ (if first then [] else [',']), Printable c := by
  cases first
  · exact printable_cons (by decide) printable_nil
  · exact printable_nil

mutual

/-- No value's text has a character that is not printable. -/
theorem printable_dumps : ∀ value : JsonValue, ∀ c ∈ value.dumps, Printable c
  | null => printable_of_all (by decide)
  | bool true => printable_of_all (by decide)
  | bool false => printable_of_all (by decide)
  | number n => n.printable
  | string text => Json.printable_literal text
  | array items => printable_cons (by decide)
      (printable_append (printable_dumpsItems true items) (printable_cons (by decide) printable_nil))
  | object members => printable_cons (by decide)
      (printable_append (printable_dumpsMembers true members) (printable_cons (by decide) printable_nil))

theorem printable_dumpsItems : ∀ (first : Bool) (items : List JsonValue), ∀ c ∈ dumpsItems first items, Printable c
  | _, [] => printable_nil
  | first, value :: rest => printable_append (printable_comma first)
      (printable_append (printable_dumps value) (printable_dumpsItems false rest))

theorem printable_dumpsMembers :
    ∀ (first : Bool) (members : List (List CodePoint × JsonValue)), ∀ c ∈ dumpsMembers first members, Printable c
  | _, [] => printable_nil
  | first, (key, value) :: rest => printable_append (printable_comma first)
      (printable_append (Json.printable_literal key)
        (printable_cons (by decide) (printable_append (printable_dumps value) (printable_dumpsMembers false rest))))

end

end JsonValue

end Pirewall.Lib
