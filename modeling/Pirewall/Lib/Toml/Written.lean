/-
# Pirewall.Lib.Toml.Written -- what a text reads as that is written line by line

A writer of TOML emits one line per key, with a bare key and a value on it, and headers with bare names. Here is what
each of these reads as, in front of whatever follows: a JSON literal as a string, if none of its escapes is a
surrogate; the decimal digits of an integer, if there are not too many; a float as `float` reads its text. A text of
such lines has their statements, one after the other, and one line that cannot be read spoils it
(`statements_unlines`).

The values come first, each as a lemma on `value` in front of any text that may follow it. What a number is has to be
told from what it is not: digits could begin a date (four of them and a hyphen), a time (two and a colon) or a number
of another base, and `value_of_number` goes through these in the order in which the reader tries them. Only then is a
number read, as an integer if nothing stands behind its digits and as a float otherwise.

`Reads` is what all of this comes to for one line: no statement, one, or an error, whatever text follows. It is asked
of a line that it stays on its line (`OnOneLine`), which the next section shows of everything that a writer emits,
from the characters it consists of.
-/
import Pirewall.Lib.Json
import Pirewall.Lib.Toml.Cut

namespace Pirewall.Lib.Toml

open Reader

variable {φ : Type}

/-! ## Blanks and keys -/

/-- Blanks, and what follows them. -/
theorem ws_append (blanks : List Char) {s : List Char} (hblanks : ∀ c ∈ blanks, isWs c = true)
    (hs : ∀ c, s.head? = some c → isWs c = false) : ws (blanks ++ s) = some ((), s) := by
  rw [ws, map_eq, spanWhile_append hblanks hs]
  rfl

/-- Blanks end where no blank comes next. -/
theorem ws_cons {c : Char} {s : List Char} (h : isWs c = false) : ws (c :: s) = some ((), c :: s) :=
  ws_append [] (by simp) (by simpa using h)

theorem not_isBareKey_of_isWs {c : Char} (h : isWs c = true) : isBareKey c = false := by
  simp only [isWs, Bool.or_eq_true, decide_eq_true_eq] at h
  rcases h with rfl | rfl <;> decide

/-- What is so of each character of a text, as a test. -/
theorem forall_of_all {P : Char → Prop} [DecidablePred P] {text : List Char}
    (h : (text.all fun c => decide (P c)) = true) : ∀ c ∈ text, P c :=
  fun c hc => of_decide_eq_true (List.all_eq_true.mp h c hc)

/-- A key that needs no quotation marks. -/
def IsBare (key : List Char) : Prop := key ≠ [] ∧ ∀ c ∈ key, isBareKey c = true

instance (key : List Char) : Decidable (IsBare key) :=
  decidable_of_iff (key ≠ [] ∧ key.all isBareKey = true) (and_congr_right fun _ => List.all_eq_true)

theorem IsBare.head {key : List Char} (h : IsBare key) (s : List Char) {c : Char} (hc : isBareKey c = false) :
    (key ++ s).head? ≠ some c := by
  obtain ⟨hne, hall⟩ := h
  cases key with
  | nil => exact absurd rfl hne
  | cons d key =>
    rw [List.cons_append, List.head?_cons]
    rintro ⟨⟩
    exact absurd (hall c List.mem_cons_self) (by simp [hc])

/-- A bare key, the blanks behind it, and what may stand there. -/
theorem key_bare {name blanks s : List Char} {c : Char} (h : IsBare name) (hblanks : ∀ b ∈ blanks, isWs b = true)
    (hbare : isBareKey c = false) (hws : isWs c = false) (hdot : c ≠ '.') :
    key (name ++ (blanks ++ c :: s)) = some ([String.ofList name], c :: s) := by
  have hnext : ∀ d, (blanks ++ c :: s).head? = some d → isBareKey d = false := by
    cases blanks with
    | nil => simpa using hbare
    | cons b blanks => simpa using not_isBareKey_of_isWs (hblanks b List.mem_cons_self)
  have hpart : keyPart (name ++ (blanks ++ c :: s)) = some (String.ofList name, blanks ++ c :: s) := by
    rw [keyPart, bind_of_some (skip?_of_not (not_isPrefix_of_head (h.head _ (by decide)))), if_neg (by decide),
      bind_of_some (skip?_of_not (not_isPrefix_of_head (h.head _ (by decide)))), if_neg (by decide),
      bind_of_some (spanWhile_append h.2 hnext), if_neg h.1]
    rfl
  rw [key, fueled, keyWithin, bind_of_some hpart, bind_of_some (ws_append blanks hblanks (by simpa using hws)),
    bind_of_some (skip?_of_not (not_isPrefix_of_head (by simpa using hdot))), if_neg (by decide)]
  rfl

/-! ## Strings -/

theorem digitChar_hex {d : Nat} (h : d < 16) : isHex d.digitChar = true ∧ digitValue d.digitChar = d := by
  interval_cases d <;> decide

/-- Four hexadecimal digits are their number, if that is the number of a character. -/
theorem hexChar_hex4 {n : Nat} (hn : n < 0x10000) (s : List Char) :
    hexChar 4 [] (Json.hex4 n ++ s) = if h : n.isValidChar then some ([Char.ofNatAux n h], s) else none := by
  have hdigit : ∀ d, d < 16 → ∀ s, charIf isHex (d.digitChar :: s) = some (d.digitChar, s) := fun d hd s =>
    charIf_some.mpr ⟨rfl, (digitChar_hex hd).1⟩
  have hvalue : digitsValue 16 (Json.hex4 n) = n := by
    simp only [digitsValue, Json.hex4, List.map_cons, List.map_nil, List.foldl_cons, List.foldl_nil,
      (digitChar_hex (Nat.mod_lt _ (by decide : 0 < 16))).2]
    omega
  have hdigits : Json.hex4 n ++ s = (n / 4096 % 16).digitChar :: (n / 256 % 16).digitChar ::
      (n / 16 % 16).digitChar :: (n % 16).digitChar :: s := rfl
  rw [hdigits, hexChar_succ, bind_of_some (hdigit _ (Nat.mod_lt _ (by decide)) _), hexChar_succ,
    bind_of_some (hdigit _ (Nat.mod_lt _ (by decide)) _), hexChar_succ,
    bind_of_some (hdigit _ (Nat.mod_lt _ (by decide)) _), hexChar_succ,
    bind_of_some (hdigit _ (Nat.mod_lt _ (by decide)) _), hexChar_zero]
  have hreverse : (List.reverse [(n % 16).digitChar, (n / 16 % 16).digitChar, (n / 256 % 16).digitChar,
      (n / 4096 % 16).digitChar]) = Json.hex4 n := rfl
  rw [hreverse, hvalue]
  by_cases hvalid : n.isValidChar
  · rw [dif_pos hvalid, dif_pos hvalid]
    rfl
  · rw [dif_neg hvalid, dif_neg hvalid]
    rfl

/-- An escape with four digits is a piece of a string, unless it is a surrogate. -/
theorem basicPiece_unicode {n : Nat} (hn : n < 0x10000) (s : List Char) :
    basicPiece false (Json.unicodeEscape n ++ s) =
      if h : n.isValidChar then some ([Char.ofNatAux n h], s) else none :=
  hexChar_hex4 hn s

/-- One code point, as JSON writes it. -/
theorem basicPiece_escaped (p : CodePoint) (s : List Char) :
    basicPiece false (Json.escaped p ++ s) = (Json.plain? p).map fun c => ([c], s) := by
  obtain ⟨n, hlt⟩ := p
  rw [Json.escaped]
  cases hshort : Json.shortEscape n with
  | some c =>
    -- the escapes of one letter are those of TOML
    unfold Json.shortEscape at hshort
    split at hshort <;> cases hshort <;> rfl
  | none =>
    have hquote : n ≠ 0x22 := by
      rintro rfl
      cases hshort
    have hslash : n ≠ 0x5c := by
      rintro rfl
      cases hshort
    dsimp only
    by_cases hprint : 0x20 ≤ n ∧ n ≤ 0x7e
    · -- a printable character stands for itself
      have hvalid : n.isValidChar := .inl (by omega)
      have hchar : Char.ofNat n = Char.ofNatAux n hvalid := dif_pos hvalid
      have hnat : (Char.ofNat n).toNat = n := by rw [hchar]; rfl
      have hne : Char.ofNat n ≠ '\\' := by
        intro h
        rw [h] at hnat
        exact hslash hnat.symm
      have hlegal : isIllegal (Char.ofNat n) = false := by
        rw [isIllegal, hnat]
        have : ¬(n < 32) ∧ n ≠ 127 := by omega
        simp [this.1, this.2]
      have hplain : Json.plain? ⟨n, hlt⟩ = some (Char.ofNat n) := by
        rw [Json.plain?, if_pos (show n < 0x10000 by omega), CodePoint.toChar?, dif_pos hvalid, hchar]
      rw [if_pos hprint, hplain, basicPiece]
      change (if Char.ofNat n = '\\' then _ else if _ then _ else _ : Reader (List Char)) s = _
      rw [if_neg hne, hlegal]
      rfl
    · rw [if_neg hprint]
      by_cases hsmall : n < 0x10000
      · rw [if_pos hsmall, basicPiece_unicode hsmall, Json.plain?, if_pos hsmall, CodePoint.toChar?]
        by_cases hvalid : n.isValidChar
        · rw [dif_pos hvalid, dif_pos hvalid]
          rfl
        · rw [dif_neg hvalid, dif_neg hvalid]
          rfl
      · -- the first of the two escapes is half of a pair
        have hhigh : 0xd800 + (n - 0x10000) / 0x400 < 0xdc00 := by omega
        have hinvalid : ¬(0xd800 + (n - 0x10000) / 0x400).isValidChar := by
          rintro (h | h) <;> omega
        rw [if_neg hsmall, List.append_assoc, basicPiece_unicode (by omega), dif_neg hinvalid, Json.plain?,
          if_neg hsmall]
        rfl

theorem escaped_ne_nil (p : CodePoint) : Json.escaped p ≠ [] := by
  unfold Json.escaped
  split
  · simp
  · split
    · simp
    · split <;> simp [Json.unicodeEscape]

/-- The quotation mark is escaped. -/
theorem escaped_head (p : CodePoint) (s : List Char) : (Json.escaped p ++ s).head? ≠ some '"' := by
  intro h
  have hread := basicPiece_escaped p s
  obtain ⟨c, rest, hrest⟩ := List.exists_cons_of_ne_nil (escaped_ne_nil p)
  rw [hrest, List.cons_append, List.head?_cons, Option.some.injEq] at h
  -- so the first character would be the whole of it
  subst h
  rw [hrest] at hread
  have hone : basicPiece false ('"' :: (rest ++ s)) = some (['"'], rest ++ s) := rfl
  rw [List.cons_append, hone] at hread
  obtain ⟨c, hc, hx⟩ := Option.map_eq_some_iff.mp hread.symm
  obtain rfl : c = '"' := by simpa using congrArg Prod.fst hx
  rw [Json.plain?_eq_some hc] at hrest
  cases hrest

/-- What JSON writes for a string, up to the closing quotation mark, reads as that string. -/
theorem basicStr_escaped (text : List CodePoint) (s : List Char) :
    basicStr (text.flatMap Json.escaped ++ '"' :: s) = (Json.plainText? text).map fun cs => (cs, s) := by
  have hread : upTo ['"'] (basicPiece false) (text.flatMap Json.escaped ++ (['"'] ++ s)) =
      (text.mapM fun p => (Json.plain? p).map fun c => [c]).map fun cs => (cs, s) := by
    refine upTo_flatMap _ (fun p _ => escaped_ne_nil p) (fun p _ s => not_isPrefix_of_head (escaped_head p s)) ?_
    intro p _ s
    rw [basicPiece_escaped, Option.map_map]
    rfl
  rw [basicStr, pieces, map_eq]
  change (upTo ['"'] (basicPiece false) (text.flatMap Json.escaped ++ (['"'] ++ s))).map _ = _
  rw [hread, mapM_singleton, Json.plainText?]
  cases text.mapM Json.plain? with
  | none => rfl
  | some cs => simp [← List.flatMap_def]

/-! ## Values -/

section Values

variable {parseFloat : List Char → Option φ}

/-- A word that does not come next is passed over. -/
theorem telling_skip {word s : List Char} {read other : Reader (Value φ)} (h : ¬word <+: s) :
    telling word read other s = other s := by
  rw [telling, bind_of_some (skip?_of_not h), if_neg (by decide)]

theorem telling_append (word s : List Char) (read other : Reader (Value φ)) :
    telling word read other (word ++ s) = read s := by
  rw [telling, bind_of_some (skip?_append word s), if_pos rfl]

theorem telling_cons (c : Char) (s : List Char) (read other : Reader (Value φ)) :
    telling [c] read other (c :: s) = read s :=
  telling_append [c] s read other

/-- A JSON literal. -/
theorem valueWithin_literal (n : Nat) (text : List CodePoint) {s : List Char} (hs : s.head? ≠ some '"') :
    valueWithin parseFloat (n + 1) (Json.literal text ++ s) =
      (Json.plainText? text).map fun cs => (.str (String.ofList cs), s) := by
  have htext : Json.literal text ++ s = ['"'] ++ (text.flatMap Json.escaped ++ '"' :: s) := by
    simp [Json.literal]
  -- it does not begin with three quotation marks
  have hthree : ¬['"', '"', '"'] <+: Json.literal text ++ s := by
    rw [htext]
    rintro ⟨rest, hrest⟩
    cases text with
    | nil =>
      obtain rfl : '"' :: rest = s := by simpa using hrest
      exact hs rfl
    | cons p text =>
      refine escaped_head p (text.flatMap Json.escaped ++ '"' :: s) ?_
      rw [← List.append_assoc, ← List.flatMap_cons]
      have := congrArg List.tail hrest
      simp only [List.cons_append, List.nil_append, List.tail_cons] at this
      rw [← this]
      rfl
  rw [valueWithin, telling_skip hthree, htext, telling_append, map_eq, basicStr_escaped]
  cases Json.plainText? text <;> rfl

theorem arrayWs_append (blanks : List Char) {s : List Char} (hblanks : ∀ c ∈ blanks, isWs c = true)
    (hs : ∀ c, s.head? = some c → isWs c = false ∧ c ≠ '\n' ∧ c ≠ '#') : arrayWs (blanks ++ s) = some ((), s) := by
  have hspan : spanWhile (fun c => isWs c || c = '\n') (blanks ++ s) = some (blanks, s) :=
    spanWhile_append (fun c hc => by simp [hblanks c hc]) fun c hc => by simp [(hs c hc).1, (hs c hc).2.1]
  have hcomment : ¬['#'] <+: s := not_isPrefix_of_head fun h => (hs _ h).2.2 rfl
  rw [arrayWs, fueled, arrayWsWithin, bind_of_some hspan, bind_of_some (skip?_of_not hcomment), if_neg (by decide)]
  rfl

theorem arrayWs_cons {c : Char} {s : List Char} (h : isWs c = false ∧ c ≠ '\n' ∧ c ≠ '#') :
    arrayWs (c :: s) = some ((), c :: s) :=
  arrayWs_append [] (by simp) (by simpa using h)

/-- What a list of strings reads as. -/
def strings (items : List (List Char)) : List (Value φ) := items.map fun cs => .str (String.ofList cs)

/-- Literals between commas. -/
def literals (texts : List (List CodePoint)) : List Char := List.intercalate [',', ' '] (texts.map Json.literal)

theorem literals_singleton (text : List CodePoint) : literals [text] = Json.literal text := by
  simp [literals, List.intercalate]

theorem literals_cons_cons (text next : List CodePoint) (texts : List (List CodePoint)) :
    literals (text :: next :: texts) = Json.literal text ++ ',' :: ' ' :: literals (next :: texts) := by
  simp [literals, List.intercalate]

/-- Literals begin with a quotation mark. -/
theorem literals_head {text : List CodePoint} {texts : List (List CodePoint)} {s : List Char} {c : Char}
    (h : (literals (text :: texts) ++ s).head? = some c) : c = '"' := by
  cases texts with
  | nil => simpa [literals_singleton, Json.literal, eq_comm] using h
  | cons next texts => simpa [literals_cons_cons, Json.literal, eq_comm] using h

/-- Literals between commas, to the end of the array. -/
theorem itemsWithin_literals (text : List CodePoint) (texts : List (List CodePoint)) (s : List Char) {n : Nat}
    (hn : texts.length + 2 ≤ n) :
    itemsWithin parseFloat n (literals (text :: texts) ++ ']' :: s) =
      ((text :: texts).mapM Json.plainText?).map fun items => (strings items, s) := by
  induction texts generalizing text n with
  | nil =>
    obtain ⟨n, rfl⟩ : ∃ m, n = m + 2 := ⟨n - 2, by simp at hn; omega⟩
    rw [literals_singleton, itemsWithin, bind_eq, valueWithin_literal n text (by simp)]
    simp only [List.mapM_cons, List.mapM_nil]
    cases Json.plainText? text with
    | none => rfl
    | some cs =>
      simp only [Option.map_some, Option.bind_some]
      rw [bind_of_some (arrayWs_cons (by decide)), bind_of_some (skip?_cons ']' s), if_pos rfl]
      rfl
  | cons next texts ih =>
    obtain ⟨n, rfl⟩ : ∃ m, n = m + 2 := ⟨n - 2, by simp at hn; omega⟩
    rw [literals_cons_cons, List.append_assoc, List.cons_append, List.cons_append, itemsWithin, bind_eq,
      valueWithin_literal n text (by simp), List.mapM_cons]
    cases Json.plainText? text with
    | none => rfl
    | some cs =>
      -- a comma and a blank, and the next literal
      have hblank : arrayWs (' ' :: (literals (next :: texts) ++ ']' :: s)) =
          some ((), literals (next :: texts) ++ ']' :: s) :=
        arrayWs_append [' '] (forall_of_all (by decide)) fun c hc => by rw [literals_head hc]; decide
      simp only [Option.map_some, Option.bind_some]
      rw [bind_of_some (arrayWs_cons (by decide)), bind_of_some (skip?_of_not (not_isPrefix_of_head (by simp))),
        if_neg (by decide), bind_of_some (charIf_some.mpr ⟨rfl, by decide⟩), bind_of_some hblank,
        bind_of_some (skip?_of_not (not_isPrefix_of_head fun hc => absurd (literals_head hc) (by decide))),
        if_neg (by decide), map_eq, ih next (by simp at hn ⊢; omega)]
      simp only [List.mapM_cons]
      cases Json.plainText? next <;> cases texts.mapM Json.plainText? <;> rfl

theorem length_le_length_literals (texts : List (List CodePoint)) : texts.length ≤ (literals texts).length := by
  induction texts with
  | nil => exact Nat.zero_le _
  | cons text texts ih =>
    cases texts with
    | nil => simp [literals_singleton, Json.literal]
    | cons next texts =>
      rw [literals_cons_cons]
      simp only [List.length_append, List.length_cons] at ih ⊢
      omega

/-- An array of strings, on one line. -/
theorem value_array (texts : List (List CodePoint)) (s : List Char) :
    value parseFloat ('[' :: (literals texts ++ ']' :: s)) =
      (texts.mapM Json.plainText?).map fun items => (.array (strings items), s) := by
  have hopen : ∀ c, c ≠ '[' → ∀ word (s : List Char), ¬(c :: word) <+: '[' :: s := fun c hc word s =>
    not_isPrefix_of_head (by simpa using Ne.symm hc)
  rw [value, fueled, valueWithin]
  iterate 6 rw [telling_skip (hopen _ (by decide) _ _)]
  rw [telling_cons]
  cases texts with
  | nil =>
    change (arrayWs >>= _ : Reader (Value φ)) (']' :: s) = _
    rw [bind_of_some (arrayWs_cons (by decide)), telling_cons]
    rfl
  | cons text texts =>
    have hblank : arrayWs (literals (text :: texts) ++ ']' :: s) =
        some ((), literals (text :: texts) ++ ']' :: s) :=
      arrayWs_append [] (by simp) fun c hc => by rw [literals_head hc]; decide
    rw [bind_of_some hblank, telling_skip (not_isPrefix_of_head fun hc => absurd (literals_head hc) (by decide)),
      map_eq, itemsWithin_literals]
    · cases (text :: texts).mapM Json.plainText? <;> rfl
    · -- each literal has its quotation marks
      have hlen := length_le_length_literals (text :: texts)
      rw [List.length_cons] at hlen
      rw [List.length_cons, List.length_append, List.length_cons]
      omega

/-- A JSON literal is a value, in front of anything. -/
theorem value_literal (text : List CodePoint) {s : List Char} (hs : s.head? ≠ some '"') :
    value parseFloat (Json.literal text ++ s) =
      (Json.plainText? text).map fun cs => (.str (String.ofList cs), s) :=
  valueWithin_literal _ text hs

/-- `true` and `false`. -/
def boolText (b : Bool) : List Char := if b then ['t', 'r', 'u', 'e'] else ['f', 'a', 'l', 's', 'e']

theorem value_bool (b : Bool) (s : List Char) : value parseFloat (boolText b ++ s) = some (.bool b, s) := by
  cases b <;> rfl

/-! ## Numbers -/

theorem onLine_append {f : Reader (Value φ)} {text s : List Char} (h : '\n' ∉ text) :
    onLine f (text ++ '\n' :: s) = (f text).map fun x => (x.1, x.2 ++ '\n' :: s) := by
  have hall : ∀ c ∈ text, (c != '\n') = true := fun c hc => by
    rw [bne_iff_ne]
    rintro rfl
    exact h hc
  rw [onLine, List.takeWhile_append_of_pos hall, List.dropWhile_append_of_pos hall]
  simp

/-- A text that begins like a number or a word that is none of the others. -/
theorem value_plain {c : Char} {text s : List Char} (hc : c ∉ ['"', '\'', 't', 'f', '[', '\x7b'])
    (h : '\n' ∉ c :: text) :
    value parseFloat (c :: text ++ '\n' :: s) =
      (plainValue parseFloat (c :: text)).map fun x => (x.1, x.2 ++ '\n' :: s) := by
  have hskip : ∀ d, d ∈ ['"', '\'', 't', 'f', '[', '\x7b'] → ∀ word, ¬(d :: word) <+: c :: text ++ '\n' :: s := by
    intro d hd word
    refine not_isPrefix_of_head ?_
    rw [List.cons_append, List.head?_cons]
    rintro ⟨⟩
    exact hc hd
  rw [value, fueled, valueWithin]
  iterate 8 rw [telling_skip (hskip _ (by decide) _)]
  exact onLine_append h

theorem twoDigits_some {low high n : Nat} {line r : List Char} (h : twoDigits low high line = some (n, r)) :
    ∃ c d, line = c :: d :: r ∧ c.isDigit = true ∧ d.isDigit = true := by
  obtain ⟨c, r₁, hc, h⟩ := bind_some h
  obtain ⟨d, r₂, hd, hlast⟩ := bind_some h
  obtain ⟨rfl, hcdigit⟩ := charIf_some.mp hc
  obtain ⟨rfl, hddigit⟩ := charIf_some.mp hd
  dsimp only at hlast
  split at hlast
  · obtain ⟨-, rfl⟩ := pure_eq_some.mp hlast
    exact ⟨c, d, rfl, hcdigit, hddigit⟩
  · exact absurd hlast (by simp [failure_eq])

/-- A date begins with four digits and a hyphen. -/
theorem dateAndTime_some {line r : List Char} {stamp : Stamp} (h : dateAndTime line = some (stamp, r)) :
    ∃ a b c d rest, line = a :: b :: c :: d :: '-' :: rest ∧ ∀ e ∈ [a, b, c, d], e.isDigit = true := by
  obtain ⟨a, r₁, ha, h⟩ := bind_some h
  obtain ⟨b, r₂, hb, h⟩ := bind_some h
  obtain ⟨cd, r₃, hcd, h⟩ := bind_some h
  obtain ⟨e, r₄, he, -⟩ := bind_some h
  obtain ⟨rfl, hadigit⟩ := charIf_some.mp ha
  obtain ⟨rfl, hbdigit⟩ := charIf_some.mp hb
  obtain ⟨c, d, rfl, hc, hd⟩ := twoDigits_some hcd
  obtain ⟨rfl, hhyphen⟩ := charIf_some.mp he
  obtain rfl : e = '-' := by simpa using hhyphen
  exact ⟨a, b, c, d, r₄, rfl, by simp [hadigit, hbdigit, hc, hd]⟩

/-- A time begins with two digits and a colon. -/
theorem timeOfDay_some {line r : List Char} {x : Nat × Nat × Nat × Nat} (h : timeOfDay line = some (x, r)) :
    ∃ a b rest, line = a :: b :: ':' :: rest ∧ a.isDigit = true ∧ b.isDigit = true := by
  obtain ⟨hour, r₁, hhour, h⟩ := bind_some h
  obtain ⟨e, r₂, he, -⟩ := bind_some h
  obtain ⟨a, b, rfl, ha, hb⟩ := twoDigits_some hhour
  obtain ⟨rfl, hcolon⟩ := charIf_some.mp he
  obtain rfl : e = ':' := by simpa using hcolon
  exact ⟨a, b, r₂, rfl, ha, hb⟩

/-- The sign of a number, if it has one. -/
def IsSign (sign : List Char) : Prop := sign = [] ∨ sign = ['-']

/-- Decimal digits, without a zero in front of others. -/
structure IsWhole (figures : List Char) : Prop where
  ne_nil : figures ≠ []
  digits : ∀ c ∈ figures, c.isDigit = true
  zero : figures.head? = some '0' → figures = ['0']

/-- What may follow the digits of a number: nothing, a fraction or an exponent. -/
def Follows (tail : List Char) : Prop := ∀ c, tail.head? = some c → c = '.' ∨ c = 'e'

section Number

variable {sign figures tail : List Char}

/-- Digits go on to the first character that is none. -/
theorem digits_append (hfigures : ∀ c ∈ figures, c.isDigit = true) (hne : figures ≠ [])
    (htail : ∀ c, tail.head? = some c → c.isDigit = false ∧ c ≠ '_') :
    digits Char.isDigit Char.isDigit (figures ++ tail) = some tail := by
  have hstop : moreDigits Char.isDigit tail = tail := by
    match tail, htail with
    | [], _ => rfl
    | [c], htail => simp [moreDigits, (htail c rfl).1]
    | c :: d :: rest, htail => simp [moreDigits, (htail c rfl).1, (htail c rfl).2]
  have hmore : ∀ figures : List Char, (∀ c ∈ figures, c.isDigit = true) →
      moreDigits Char.isDigit (figures ++ tail) = tail := by
    intro figures hfigures
    induction figures with
    | nil => exact hstop
    | cons c figures ih =>
      have hc := hfigures c List.mem_cons_self
      have ih := ih fun d hd => hfigures d (List.mem_cons_of_mem _ hd)
      rw [List.cons_append]
      cases hrest : figures ++ tail with
      | nil =>
        rw [hrest] at ih
        simp [moreDigits, hc, ← ih]
      | cons d rest =>
        rw [hrest] at ih
        rw [moreDigits, if_pos hc, ih]
  cases figures with
  | nil => exact absurd rfl hne
  | cons c figures =>
    rw [List.cons_append, digits, if_pos (hfigures c List.mem_cons_self),
      hmore figures fun d hd => hfigures d (List.mem_cons_of_mem _ hd)]

/-- Behind its digits a number has no hyphen and no colon: it is no date and no time. -/
theorem dropWhile_number (hfigures : ∀ c ∈ figures, c.isDigit = true) (htail : Follows tail) :
    (figures ++ tail).dropWhile Char.isDigit = tail := by
  rw [List.dropWhile_append_of_pos hfigures]
  cases tail with
  | nil => rfl
  | cons c tail =>
    rcases htail c rfl with rfl | rfl
    · rfl
    · rfl

theorem dateAndTime_number (hsign : IsSign sign) (hfigures : ∀ c ∈ figures, c.isDigit = true) (htail : Follows tail) :
    dateAndTime (sign ++ (figures ++ tail)) = none := by
  rw [Option.eq_none_iff_forall_ne_some]
  rintro ⟨stamp, r⟩ h
  obtain ⟨a, b, c, d, rest, hline, hdigits⟩ := dateAndTime_some h
  simp only [List.mem_cons, List.not_mem_nil, or_false, forall_eq_or_imp, forall_eq] at hdigits
  obtain ⟨ha, hb, hc, hd⟩ := hdigits
  rcases hsign with rfl | rfl
  · have hspan := dropWhile_number hfigures htail
    rw [List.nil_append] at hline
    rw [hline] at hspan
    simp only [List.dropWhile_cons, ha, hb, hc, hd, if_true] at hspan
    subst hspan
    exact absurd (htail '-' rfl) (by decide)
  · obtain rfl : '-' = a := (List.cons.inj hline).1
    exact absurd ha (by decide)

theorem timeOfDay_number (hsign : IsSign sign) (hfigures : ∀ c ∈ figures, c.isDigit = true) (htail : Follows tail) :
    timeOfDay (sign ++ (figures ++ tail)) = none := by
  rw [Option.eq_none_iff_forall_ne_some]
  rintro ⟨x, r⟩ h
  obtain ⟨a, b, rest, hline, ha, hb⟩ := timeOfDay_some h
  rcases hsign with rfl | rfl
  · have hspan := dropWhile_number hfigures htail
    rw [List.nil_append] at hline
    rw [hline] at hspan
    simp only [List.dropWhile_cons, ha, hb, if_true] at hspan
    subst hspan
    exact absurd (htail ':' rfl) (by decide)
  · obtain rfl : '-' = a := (List.cons.inj hline).1
    exact absurd ha (by decide)

/-- It is no number of another base either. -/
theorem radixNumber_number (hsign : IsSign sign) (hfigures : IsWhole figures) (htail : Follows tail) :
    radixNumber (sign ++ (figures ++ tail)) = none := by
  rcases hsign with rfl | rfl
  · by_cases hzero : figures.head? = some '0'
    · rw [hfigures.zero hzero]
      cases tail with
      | nil => rfl
      | cons c tail =>
        rcases htail c rfl with rfl | rfl <;> cases tail <;> rfl
    · obtain ⟨c, rest, rfl⟩ := List.exists_cons_of_ne_nil hfigures.ne_nil
      have hc : c ≠ '0' := by
        rintro rfl
        exact hzero rfl
      rw [List.nil_append, List.cons_append, radixNumber]
      intro radix s heq
      exact hc (List.cons.inj heq).1
  · rfl

/-- The digits of a number are its whole part. -/
theorem integerPart_number (hsign : IsSign sign) (hfigures : IsWhole figures) (htail : Follows tail) :
    integerPart (sign ++ (figures ++ tail)) = some tail := by
  have hdrop : dropSign (sign ++ (figures ++ tail)) = figures ++ tail := by
    rcases hsign with rfl | rfl
    · obtain ⟨c, rest, rfl⟩ := List.exists_cons_of_ne_nil hfigures.ne_nil
      have hc := hfigures.digits c List.mem_cons_self
      rw [List.nil_append, List.cons_append, dropSign]
      · intro rest' heq
        exact absurd ((List.cons.inj heq).1 ▸ hc) (by decide)
      · intro rest' heq
        exact absurd ((List.cons.inj heq).1 ▸ hc) (by decide)
    · rfl
  rw [integerPart, hdrop]
  by_cases hzero : figures.head? = some '0'
  · rw [hfigures.zero hzero]
    rfl
  · have hread : digits Char.isDigit Char.isDigit (figures ++ tail) = some tail :=
      digits_append hfigures.digits hfigures.ne_nil fun c hc => by
        rcases htail c hc with rfl | rfl <;> decide
    obtain ⟨c, rest, rfl⟩ := List.exists_cons_of_ne_nil hfigures.ne_nil
    rw [List.cons_append] at hread ⊢
    split
    · rename_i heq
      exact absurd (congrArg List.head? heq) hzero
    · exact hread

theorem matched_nil (line : List Char) : matched line [] = line := by simp [matched]

variable (parseFloat) in
/-- A number is an integer if nothing stands behind its digits, and else a float, of which `float` makes what it does.
-/
theorem number_eq (hsign : IsSign sign) (hfigures : IsWhole figures) (htail : Follows tail)
    (hrest : exponentPart (fractionPart tail) = []) :
    number parseFloat (sign ++ (figures ++ tail)) =
      if tail = [] then (decimalValue (sign ++ (figures ++ tail))).map fun n => (.int n, [])
      else (parseFloat (sign ++ (figures ++ tail))).map fun x => (.float x, []) := by
  rw [number, radixNumber_number hsign hfigures htail]
  change (integerPart (sign ++ (figures ++ tail))).bind _ = _
  rw [integerPart_number hsign hfigures htail, Option.bind_some]
  change (if exponentPart (fractionPart tail) = tail then _ else _) = _
  by_cases hnil : tail = []
  · rw [if_pos (hrest.trans hnil.symm), if_pos hnil, hrest, hnil, matched_nil]
  · rw [if_neg fun h => hnil (h.symm.trans hrest), if_neg hnil, hrest, matched_nil]

variable (tail) in
/-- A number begins like no other value. -/
theorem number_head (hsign : IsSign sign) (hfigures : IsWhole figures) :
    ∃ c text, sign ++ (figures ++ tail) = c :: text ∧ c ∉ ['"', '\'', 't', 'f', '[', '\x7b'] := by
  rcases hsign with rfl | rfl
  · obtain ⟨c, rest, rfl⟩ := List.exists_cons_of_ne_nil hfigures.ne_nil
    refine ⟨c, rest ++ tail, rfl, fun hc => ?_⟩
    have hdigit := hfigures.digits c List.mem_cons_self
    simp only [List.mem_cons, List.not_mem_nil, or_false] at hc
    rcases hc with rfl | rfl | rfl | rfl | rfl | rfl <;> exact absurd hdigit (by decide)
  · exact ⟨'-', figures ++ tail, rfl, by decide⟩

/-- What reads as a number is a value at the end of its line. -/
theorem value_of_number (hsign : IsSign sign) (hfigures : IsWhole figures) (htail : Follows tail) (hfeed : '\n' ∉ tail)
    {v : Value φ} (h : number parseFloat (sign ++ (figures ++ tail)) = some (v, [])) (s : List Char) :
    value parseFloat (sign ++ (figures ++ tail) ++ '\n' :: s) = some (v, '\n' :: s) := by
  have hplain : plainValue parseFloat (sign ++ (figures ++ tail)) = some (v, []) := by
    rw [plainValue, dateAndTime_number hsign hfigures.digits htail, timeOfDay_number hsign hfigures.digits htail]
    dsimp only
    rw [h]
  have hline : '\n' ∉ sign ++ (figures ++ tail) := by
    rw [List.mem_append, List.mem_append]
    rintro (hmem | hmem | hmem)
    · rcases hsign with rfl | rfl <;> simp at hmem
    · exact absurd (hfigures.digits _ hmem) (by decide)
    · exact hfeed hmem
  obtain ⟨c, text, htext, hc⟩ := number_head tail hsign hfigures
  rw [htext] at hplain hline ⊢
  rw [value_plain hc hline, hplain]
  rfl

theorem decimalValue_number (hsign : IsSign sign) (hfigures : IsWhole figures) (hlen : figures.length ≤ 4300) :
    decimalValue (sign ++ figures) =
      some (if sign = [] then (digitsValue 10 figures : Int) else -(digitsValue 10 figures : Int)) := by
  have hfilter : (sign ++ figures).filter Char.isDigit = figures := by
    rw [List.filter_append, List.filter_eq_self.mpr hfigures.digits]
    rcases hsign with rfl | rfl <;> rfl
  rw [decimalValue, hfilter, if_pos hlen]
  rcases hsign with rfl | rfl
  · have hhead : ([] ++ figures).head? ≠ some '-' := fun h =>
      absurd (hfigures.digits '-' (List.mem_of_mem_head? h)) (by decide)
    rw [if_neg hhead, if_pos rfl]
  · rw [if_neg (List.cons_ne_nil _ _)]
    rfl

/-! ## Integers -/

/-- `repr` of an integer. -/
def decimal (n : Int) : List Char := (if n < 0 then ['-'] else []) ++ Nat.toDigits 10 n.natAbs

/-- Only the digits of zero begin with a zero. -/
theorem eq_zero_of_head_toDigits {n : Nat} (h : (Nat.toDigits 10 n).head? = some '0') : n = 0 := by
  induction n using Nat.strong_induction_on with
  | _ n ih =>
    by_cases hsmall : n < 10
    · rw [Nat.toDigits_of_lt_base hsmall] at h
      interval_cases n <;> first | rfl | exact absurd h (by decide)
    · rw [Nat.toDigits_of_base_le (by decide) (by omega),
        List.head?_append_of_ne_nil _ Nat.toDigits_ne_nil] at h
      have := ih (n / 10) (by omega) h
      omega

/-- The digits of a number have no leading zero, unless they are that zero. -/
theorem isWhole_toDigits (n : Nat) : IsWhole (Nat.toDigits 10 n) where
  ne_nil := Nat.toDigits_ne_nil
  digits _ hc := Nat.isDigit_of_mem_toDigits (by decide) (by decide) hc
  zero h := by
    rw [eq_zero_of_head_toDigits h]
    exact Nat.toDigits_zero 10

/-- The digits of a number have its value. -/
theorem digitsValue_toDigits (n : Nat) : digitsValue 10 (Nat.toDigits 10 n) = n := by
  have hdigit : ∀ m : Nat, ∀ c ∈ Nat.toDigits 10 n, m * 10 + digitValue c = 10 * m + (c.toNat - '0'.toNat) := by
    intro m c hc
    rw [digitValue, if_pos ((isWhole_toDigits n).digits c hc), Nat.mul_comm]
  calc digitsValue 10 (Nat.toDigits 10 n)
      = Nat.ofDigitChars 10 (Nat.toDigits 10 n) 0 := List.foldl_ext _ _ 0 hdigit
    _ = n := Nat.ofDigitChars_toDigits (by decide) (by decide)

/-- The digits of an integer, at the end of a line. -/
theorem value_decimal (n : Int) (hlen : (Nat.toDigits 10 n.natAbs).length ≤ 4300) (s : List Char) :
    value parseFloat (decimal n ++ '\n' :: s) = some (.int n, '\n' :: s) := by
  have hfigures := isWhole_toDigits n.natAbs
  have hsign : IsSign (if n < 0 then ['-'] else []) := by
    split
    · exact .inr rfl
    · exact .inl rfl
  have htail : Follows [] := fun c hc => by cases hc
  have hvalue : (if (if n < 0 then ['-'] else []) = [] then (n.natAbs : Int) else -(n.natAbs : Int)) = n := by
    by_cases hneg : n < 0
    · simp [hneg, abs_of_neg]
    · simp [hneg, abs_of_nonneg (Int.not_lt.mp hneg)]
  have hnumber := number_eq parseFloat hsign hfigures htail rfl
  rw [if_pos rfl, List.append_nil, decimalValue_number hsign hfigures hlen, digitsValue_toDigits, hvalue] at hnumber
  have hread := value_of_number hsign hfigures htail (by simp) (by rw [List.append_nil, hnumber]; rfl) s
  rwa [List.append_nil] at hread

/-! ## Floats -/

/-- The digits of a fraction or of an exponent. -/
def IsFigures (figures : List Char) : Prop := figures ≠ [] ∧ ∀ c ∈ figures, c.isDigit = true

/-- What `repr` writes for a float: a decimal number with a fraction, an exponent or both, or one of three words. -/
inductive FloatText : List Char → Prop
  | nan : FloatText ['n', 'a', 'n']
  | inf {sign : List Char} (hsign : IsSign sign) : FloatText (sign ++ ['i', 'n', 'f'])
  | fraction {sign whole figures : List Char} (hsign : IsSign sign) (hwhole : IsWhole whole)
      (hfigures : IsFigures figures) : FloatText (sign ++ (whole ++ '.' :: figures))
  | exponent {sign whole power : List Char} {s : Char} (hsign : IsSign sign) (hwhole : IsWhole whole)
      (hs : s = '+' ∨ s = '-') (hpower : IsFigures power) : FloatText (sign ++ (whole ++ 'e' :: s :: power))
  | both {sign whole figures power : List Char} {s : Char} (hsign : IsSign sign) (hwhole : IsWhole whole)
      (hfigures : IsFigures figures) (hs : s = '+' ∨ s = '-') (hpower : IsFigures power) :
      FloatText (sign ++ (whole ++ '.' :: (figures ++ 'e' :: s :: power)))

theorem IsFigures.no_feed (h : IsFigures figures) : '\n' ∉ figures := fun hmem =>
  absurd (h.2 _ hmem) (by decide)

theorem digits_nil (h : IsFigures figures) : digits Char.isDigit Char.isDigit figures = some [] := by
  have hread : digits Char.isDigit Char.isDigit (figures ++ []) = some [] :=
    digits_append h.2 h.1 fun c hc => by cases hc
  rwa [List.append_nil] at hread

/-- An exponent is read to its end, sign and leading zeros included. -/
theorem exponentPart_power {power : List Char} {s : Char} (hs : s = '+' ∨ s = '-') (h : IsFigures power) :
    exponentPart ('e' :: s :: power) = [] := by
  have hsign : dropSign (s :: power) = power := by
    rcases hs with rfl | rfl <;> rfl
  rw [exponentPart, if_pos (by decide), hsign, digits_nil h]
  rfl

/-- A float is what `float` makes of its text. -/
theorem value_float {text : List Char} (h : FloatText text) {x : φ} (hx : parseFloat text = some x) (s : List Char) :
    value parseFloat (text ++ '\n' :: s) = some (.float x, '\n' :: s) := by
  -- what stands behind the digits is not empty, and is read to its end
  have hread : ∀ {sign whole tail : List Char}, IsSign sign → IsWhole whole → Follows tail → '\n' ∉ tail → tail ≠ [] →
      exponentPart (fractionPart tail) = [] → parseFloat (sign ++ (whole ++ tail)) = some x →
      value parseFloat (sign ++ (whole ++ tail) ++ '\n' :: s) = some (.float x, '\n' :: s) := by
    intro sign whole tail hsign hwhole htail hfeed hne hrest hx
    refine value_of_number hsign hwhole htail hfeed ?_ s
    rw [number_eq parseFloat hsign hwhole htail hrest, if_neg hne, hx]
    rfl
  cases h with
  | nan =>
    rw [value_plain (by decide) (by decide)]
    change ((parseFloat ['n', 'a', 'n']).map _).map _ = _
    rw [hx]
    rfl
  | inf hsign =>
    rcases hsign with rfl | rfl
    · rw [List.nil_append, value_plain (by decide) (by decide)]
      change ((parseFloat ['i', 'n', 'f']).map _).map _ = _
      rw [List.nil_append] at hx
      rw [hx]
      rfl
    · rw [List.cons_append, value_plain (by decide) (by decide)]
      change ((parseFloat ['-', 'i', 'n', 'f']).map _).map _ = _
      rw [List.cons_append, List.nil_append] at hx
      rw [hx]
      rfl
  | fraction hsign hwhole hfigures =>
    refine hread hsign hwhole (fun c hc => ?_) ?_ (by simp) ?_ hx
    · exact .inl (by simpa using hc.symm)
    · simpa using hfigures.no_feed
    · rw [fractionPart, digits_nil hfigures]
      rfl
  | exponent hsign hwhole hs hpower =>
    refine hread hsign hwhole (fun c hc => ?_) ?_ (by simp) ?_ hx
    · exact .inr (by simpa using hc.symm)
    · rcases hs with rfl | rfl <;> simpa using hpower.no_feed
    · exact exponentPart_power hs hpower
  | both hsign hwhole hfigures hs hpower =>
    refine hread hsign hwhole (fun c hc => ?_) ?_ (by simp) ?_ hx
    · exact .inl (by simpa using hc.symm)
    · rcases hs with rfl | rfl <;> simpa using ⟨hfigures.no_feed, hpower.no_feed⟩
    · rw [fractionPart, digits_append hfigures.2 hfigures.1 (by simp)]
      exact exponentPart_power hs hpower

end Number

/-! ## What the texts consist of -/

/-- No control characters: the text stays on its line. -/
def OnOneLine (text : List Char) : Prop := ∀ c ∈ text, 32 ≤ c.toNat

theorem OnOneLine.append {s t : List Char} (hs : OnOneLine s) (ht : OnOneLine t) : OnOneLine (s ++ t) := by
  intro c hc
  rcases List.mem_append.mp hc with hc | hc
  · exact hs c hc
  · exact ht c hc

theorem OnOneLine.cons {c : Char} {t : List Char} (hc : 32 ≤ c.toNat) (ht : OnOneLine t) : OnOneLine (c :: t) := by
  intro d hd
  rcases List.mem_cons.mp hd with rfl | hd
  · exact hc
  · exact ht d hd

theorem OnOneLine.not_mem {text : List Char} (h : OnOneLine text) {c : Char} (hc : c.toNat < 32) : c ∉ text :=
  fun hmem => absurd (h c hmem) (by omega)

theorem onOneLine_boolText (b : Bool) : OnOneLine (boolText b) := by
  cases b <;> exact forall_of_all (by decide)

/-- What numbers and the words for floats are written with. -/
def numerals : List Char :=
  ['0', '1', '2', '3', '4', '5', '6', '7', '8', '9', '+', '-', '.', 'e', 'n', 'a', 'i', 'f']

theorem numerals_digits {figures : List Char} (h : ∀ c ∈ figures, c.isDigit = true) : ∀ c ∈ figures, c ∈ numerals := by
  intro c hc
  have hdigit := h c hc
  simp only [Char.isDigit, Bool.and_eq_true, decide_eq_true_eq, UInt32.le_iff_toNat_le] at hdigit
  obtain ⟨hlow, hhigh⟩ := hdigit
  change 48 ≤ c.toNat at hlow
  change c.toNat ≤ 57 at hhigh
  have hall : ∀ n, 48 ≤ n → n ≤ 57 → Char.ofNat n ∈ numerals := by
    intro n hlow hhigh
    interval_cases n <;> decide
  rw [← Char.ofNat_toNat c]
  exact hall c.toNat hlow hhigh

theorem numerals_sign {sign : List Char} (h : IsSign sign) : ∀ c ∈ sign, c ∈ numerals := by
  rcases h with rfl | rfl <;> exact forall_of_all (by decide)

theorem numerals_decimal (n : Int) : ∀ c ∈ decimal n, c ∈ numerals := by
  refine List.forall_mem_append.mpr ⟨numerals_sign ?_, numerals_digits (isWhole_toDigits _).digits⟩
  split
  · exact .inr rfl
  · exact .inl rfl

theorem FloatText.numerals {text : List Char} (h : FloatText text) : ∀ c ∈ text, c ∈ numerals := by
  have hpower : ∀ {s : Char} {power : List Char}, s = '+' ∨ s = '-' → IsFigures power →
      ∀ c ∈ 'e' :: s :: power, c ∈ Toml.numerals := fun hs hpower =>
    List.forall_mem_cons.mpr ⟨by decide, List.forall_mem_cons.mpr
      ⟨by rcases hs with rfl | rfl <;> decide, numerals_digits hpower.2⟩⟩
  have hpoint : ∀ {tail : List Char}, (∀ c ∈ tail, c ∈ Toml.numerals) → ∀ c ∈ '.' :: tail, c ∈ Toml.numerals :=
    fun htail => List.forall_mem_cons.mpr ⟨by decide, htail⟩
  cases h with
  | nan => exact forall_of_all (by decide)
  | inf hsign => exact List.forall_mem_append.mpr ⟨numerals_sign hsign, forall_of_all (by decide)⟩
  | fraction hsign hwhole hfigures =>
    exact List.forall_mem_append.mpr ⟨numerals_sign hsign, List.forall_mem_append.mpr
      ⟨numerals_digits hwhole.digits, hpoint (numerals_digits hfigures.2)⟩⟩
  | exponent hsign hwhole hs hdigits =>
    exact List.forall_mem_append.mpr ⟨numerals_sign hsign, List.forall_mem_append.mpr
      ⟨numerals_digits hwhole.digits, hpower hs hdigits⟩⟩
  | both hsign hwhole hfigures hs hdigits =>
    exact List.forall_mem_append.mpr ⟨numerals_sign hsign, List.forall_mem_append.mpr
      ⟨numerals_digits hwhole.digits, hpoint (List.forall_mem_append.mpr
        ⟨numerals_digits hfigures.2, hpower hs hdigits⟩)⟩⟩

theorem onOneLine_numerals {text : List Char} (h : ∀ c ∈ text, c ∈ numerals) : OnOneLine text := by
  have hall : ∀ c ∈ numerals, 32 ≤ c.toNat := forall_of_all (by decide)
  exact fun c hc => hall c (h c hc)

theorem onOneLine_decimal (n : Int) : OnOneLine (decimal n) := onOneLine_numerals (numerals_decimal n)

theorem FloatText.onOneLine {text : List Char} (h : FloatText text) : OnOneLine text := onOneLine_numerals h.numerals

theorem onOneLine_hex4 (n : Nat) : OnOneLine (Json.hex4 n) := by
  intro c hc
  obtain ⟨d, hd, rfl⟩ := List.mem_map.mp hc
  have hlt : d < 16 := by
    simp only [List.mem_cons, List.not_mem_nil, or_false] at hd
    omega
  interval_cases d <;> decide

theorem onOneLine_escaped (p : CodePoint) : OnOneLine (Json.escaped p) := by
  obtain ⟨n, hlt⟩ := p
  have hunicode : ∀ n, OnOneLine (Json.unicodeEscape n) := fun n =>
    .cons (by decide) (.cons (by decide) (onOneLine_hex4 n))
  rw [Json.escaped]
  cases hshort : Json.shortEscape n with
  | some c =>
    unfold Json.shortEscape at hshort
    split at hshort <;> cases hshort <;> exact forall_of_all rfl
  | none =>
    dsimp only
    split
    · rename_i hprint
      have hvalid : n.isValidChar := .inl (by omega)
      have hnat : (Char.ofNat n).toNat = n := by
        rw [show Char.ofNat n = Char.ofNatAux n hvalid from dif_pos hvalid]
        rfl
      intro c hc
      rw [List.mem_singleton.mp hc, hnat]
      exact hprint.1
    · split
      · exact hunicode n
      · exact (hunicode _).append (hunicode _)

theorem onOneLine_literal (text : List CodePoint) : OnOneLine (Json.literal text) := by
  refine .cons (by decide) (.append ?_ (forall_of_all (by decide)))
  intro c hc
  obtain ⟨p, -, hp⟩ := List.mem_flatMap.mp hc
  exact onOneLine_escaped p c hp

theorem onOneLine_literals (texts : List (List CodePoint)) : OnOneLine (literals texts) := by
  induction texts with
  | nil => exact fun c hc => absurd hc (by simp [literals])
  | cons text texts ih =>
    cases texts with
    | nil =>
      rw [literals_singleton]
      exact onOneLine_literal text
    | cons next texts =>
      rw [literals_cons_cons]
      exact (onOneLine_literal text).append (.cons (by decide) (.cons (by decide) ih))

theorem onOneLine_bare {name : List Char} (h : IsBare name) : OnOneLine name := by
  intro c hc
  have hbare := h.2 c hc
  by_contra hlow
  have hcontrol : ∀ n, n < 32 → ∀ c : Char, c.toNat = n → isBareKey c = false := by
    intro n hn c hcn
    obtain rfl : c = Char.ofNat n := by rw [← hcn, Char.ofNat_toNat]
    interval_cases n <;> decide
  rw [hcontrol c.toNat (by omega) c rfl] at hbare
  cases hbare

/-- A number does not begin with a blank. -/
theorem head_numerals {text : List Char} (h : ∀ c ∈ text, c ∈ numerals) :
    ∀ c, text.head? = some c → isWs c = false := by
  have hall : ∀ c ∈ numerals, isWs c = false := forall_of_all (by decide)
  exact fun c hc => hall c (h c (List.mem_of_mem_head? hc))

theorem FloatText.head {text : List Char} (h : FloatText text) : ∀ c, text.head? = some c → isWs c = false :=
  head_numerals h.numerals

theorem decimal_head (n : Int) : ∀ c, (decimal n).head? = some c → isWs c = false :=
  head_numerals (numerals_decimal n)

/-! ## Lines -/

variable (parseFloat) in
/-- What a line reads as, whatever follows it: no statement, one, or an error. -/
def Reads (text : List Char) (st : Option (Option (Statement φ))) : Prop :=
  ∀ s, line parseFloat (text ++ '\n' :: s) = st.map fun st => (st, '\n' :: s)

/-- A line whose statement ends at the line feed, with no blanks in front and no comment behind. -/
theorem line_statement {c : Char} {s r : List Char} {st : Option (Statement φ)} (hc : isWs c = false)
    (h : line.statement parseFloat (c :: s) = some (st, '\n' :: r)) :
    line parseFloat (c :: s) = some (st, '\n' :: r) := by
  rw [line, bind_of_some (ws_cons hc), bind_of_some h, comment,
    bind_assoc, bind_of_some (skip?_of_not (not_isPrefix_of_head (by simp)))]
  rfl

/-- An empty line has no statement. -/
theorem reads_blank : Reads parseFloat [] (some none) := fun _ => rfl

/-- Nor has a comment, if its text can stand in one. -/
theorem reads_comment {text : List Char} (h : ∀ c ∈ text, isIllegal c = false) :
    Reads parseFloat ('#' :: text) (some none) := by
  intro s
  have hspan : spanWhile (· ≠ '\n') (text ++ '\n' :: s) = some (text, '\n' :: s) := by
    refine spanWhile_append (fun c hc => ?_) (by simp)
    have := h c hc
    simp only [ne_eq, decide_not, Bool.not_eq_true', decide_eq_false_iff_not]
    rintro rfl
    exact absurd this (by decide)
  have hlegal : text.any isIllegal = false := by
    rw [List.any_eq_false]
    exact fun c hc => by simp [h c hc]
  have hcomment : comment ('#' :: (text ++ '\n' :: s)) = some ((), '\n' :: s) := by
    rw [comment, bind_of_some (skip?_cons _ _), if_pos rfl, commentText, bind_of_some hspan, hlegal]
    rfl
  have hstatement : line.statement parseFloat ('#' :: (text ++ '\n' :: s)) =
      some (none, '#' :: (text ++ '\n' :: s)) := by
    rw [line.statement, bind_of_some (skip?_of_not (not_isPrefix_of_head (by simp))), if_neg (by decide),
      bind_of_some (skip?_of_not (not_isPrefix_of_head (by simp))), if_neg (by decide)]
    rfl
  rw [List.cons_append, line, bind_of_some (ws_cons (by decide)), bind_of_some hstatement, bind_of_some hcomment]
  rfl

variable {name : List Char}

theorem IsBare.ws (h : IsBare name) (s : List Char) : ws (name ++ s) = some ((), name ++ s) := by
  refine ws_append [] (by simp) fun c hc => ?_
  by_contra hws
  have hbare := not_isBareKey_of_isWs (Bool.eq_true_of_not_eq_false hws)
  exact h.head s hbare hc

variable (parseFloat) in
/-- The header of a table. -/
theorem reads_table (h : IsBare name) :
    Reads parseFloat ('[' :: (name ++ [']'])) (some (some (.table [String.ofList name]))) := by
  intro s
  have htext : '[' :: (name ++ [']']) ++ '\n' :: s = '[' :: (name ++ ([] ++ ']' :: '\n' :: s)) := by simp
  have hone : ¬['[', '['] <+: '[' :: (name ++ ([] ++ ']' :: '\n' :: s)) := fun hpre =>
    not_isPrefix_of_head (h.head _ (by decide)) (List.cons_prefix_cons.mp hpre).2
  rw [htext]
  refine line_statement (by decide) ?_
  rw [line.statement, bind_of_some (skip?_of_not hone), if_neg (by decide), bind_of_some (skip?_cons _ _), if_pos rfl,
    bind_of_some (h.ws _), bind_of_some (key_bare h (by simp) (by decide) (by decide) (by decide)),
    bind_of_some (charIf_some.mpr ⟨rfl, by decide⟩), bind_of_some (ws_cons (by decide))]
  rfl

variable (parseFloat) in
/-- The header of an array of tables. -/
theorem reads_arrayTable (h : IsBare name) :
    Reads parseFloat ('[' :: '[' :: (name ++ [']', ']'])) (some (some (.arrayTable [String.ofList name]))) := by
  intro s
  have htext : '[' :: '[' :: (name ++ [']', ']']) ++ '\n' :: s =
      ['[', '['] ++ (name ++ ([] ++ ']' :: ']' :: '\n' :: s)) := by simp
  rw [htext]
  refine line_statement (by decide) ?_
  change line.statement parseFloat (['[', '['] ++ (name ++ ([] ++ ']' :: ']' :: '\n' :: s))) = _
  rw [line.statement, bind_of_some (skip?_append _ _), if_pos rfl, bind_of_some (h.ws _),
    bind_of_some (key_bare h (by simp) (by decide) (by decide) (by decide)),
    bind_of_some (charIf_some.mpr ⟨rfl, by decide⟩), bind_of_some (charIf_some.mpr ⟨rfl, by decide⟩),
    bind_of_some (ws_cons (by decide))]
  rfl

/-- A key and its value. -/
theorem reads_pair (h : IsBare name) {text : List Char} (hws : ∀ c, text.head? = some c → isWs c = false)
    {v : Option (Value φ)}
    (hv : ∀ s, value parseFloat (text ++ '\n' :: s) = v.map fun v => (v, '\n' :: s)) :
    Reads parseFloat (name ++ ([' ', '=', ' '] ++ text)) (v.map fun v => some (.pair [String.ofList name] v)) := by
  intro s
  have htext : name ++ ([' ', '=', ' '] ++ text) ++ '\n' :: s =
      name ++ ([' '] ++ '=' :: ([' '] ++ (text ++ '\n' :: s))) := by simp
  have hhead : ∀ c, (text ++ '\n' :: s).head? = some c → isWs c = false := by
    cases text with
    | nil => simp; decide
    | cons c text => simpa using hws
  obtain ⟨first, rest, hname⟩ := List.exists_cons_of_ne_nil h.1
  have hfirst := h.2 first (by simp [hname])
  have hends : first ≠ '\n' ∧ first ≠ '#' := by
    constructor <;> rintro rfl <;> exact absurd hfirst (by decide)
  have hlineEnds : lineEnds (name ++ ([' '] ++ '=' :: ([' '] ++ (text ++ '\n' :: s)))) =
      some (false, name ++ ([' '] ++ '=' :: ([' '] ++ (text ++ '\n' :: s)))) := by
    rw [lineEnds, hname]
    simp [hends.1, hends.2]
  have hread : line.statement parseFloat (name ++ ([' '] ++ '=' :: ([' '] ++ (text ++ '\n' :: s)))) =
      v.map fun v => (some (.pair [String.ofList name] v), '\n' :: s) := by
    rw [line.statement, bind_of_some (skip?_of_not (not_isPrefix_of_head (h.head _ (by decide)))), if_neg (by decide),
      bind_of_some (skip?_of_not (not_isPrefix_of_head (h.head _ (by decide)))), if_neg (by decide),
      bind_of_some hlineEnds, if_neg (by decide),
      bind_of_some (key_bare h (forall_of_all (by decide)) (by decide) (by decide) (by decide)),
      bind_of_some (charIf_some.mpr ⟨rfl, by decide⟩),
      bind_of_some (ws_append [' '] (forall_of_all (by decide)) hhead), bind_eq, hv]
    cases v with
    | none => rfl
    | some v =>
      rw [Option.map_some, Option.bind_some, bind_of_some (ws_cons (by decide))]
      rfl
  rw [htext, line, bind_of_some (h.ws _), bind_eq, hread]
  cases v <;> rfl

/-! ## Texts -/

/-- The text of some lines. -/
def unlines (texts : List (List Char)) : List Char := texts.flatMap fun text => text ++ ['\n']

theorem intercalate_feed {texts : List (List Char)} (h : texts ≠ []) :
    ['\n'].intercalate texts ++ ['\n'] = unlines texts := by
  induction texts with
  | nil => exact absurd rfl h
  | cons text texts ih =>
    cases texts with
    | nil => simp [unlines, List.intercalate]
    | cons next texts =>
      have ih := ih (List.cons_ne_nil _ _)
      have htext : ['\n'].intercalate (text :: next :: texts) =
          text ++ '\n' :: ['\n'].intercalate (next :: texts) := by
        simp [List.intercalate]
      rw [htext, List.append_assoc, List.cons_append, ih]
      simp [unlines]

/-- The statements of the lines that have one, if each line can be read. -/
def collect (sts : List (Option (Option (Statement φ)))) : Option (List (Statement φ)) :=
  (sts.mapM id).map fun sts => sts.flatMap Option.toList

theorem collect_eq_none {sts : List (Option (Option (Statement φ)))} (h : none ∈ sts) : collect sts = none := by
  rw [collect, Option.map_eq_none_iff]
  induction sts with
  | nil => exact absurd h (by simp)
  | cons st sts ih =>
    rw [List.mapM_cons]
    cases st with
    | none => rfl
    | some st =>
      have htail : none ∈ sts := by simpa using h
      rw [ih htail]
      rfl

/-- All the lines have been read. -/
theorem collect_some (sts : List (Option (Statement φ))) :
    collect (sts.map some) = some (sts.flatMap Option.toList) := by
  rw [collect]
  have hmap : (sts.map some).mapM id = some sts := by
    induction sts with
    | nil => rfl
    | cons st sts ih =>
      rw [List.map_cons, List.mapM_cons, ih]
      rfl
  rw [hmap, Option.map_some]

/-- The statements of a text of lines, one line for each step of the reader. -/
theorem statementsWithin_lines {texts : List (List Char)} {sts : List (Option (Option (Statement φ)))}
    (h : List.Forall₂ (Reads parseFloat) texts sts) {n : Nat} (hn : texts.length < n) :
    statementsWithin parseFloat n (unlines texts) = collect sts := by
  induction h generalizing n with
  | nil =>
    obtain ⟨n, rfl⟩ : ∃ m, n = m + 1 := Nat.exists_eq_succ_of_ne_zero (by simp at hn; omega)
    exact statementsWithin_nil n
  | @cons text st texts sts hread _ ih =>
    obtain ⟨n, rfl⟩ : ∃ m, n = m + 1 := Nat.exists_eq_succ_of_ne_zero (by omega)
    have ih := ih (n := n) (by simpa using hn)
    have htext : unlines (text :: texts) = text ++ '\n' :: unlines texts := by simp [unlines]
    rw [htext, statementsWithin, hread, collect, List.mapM_cons]
    cases st with
    | none => rfl
    | some st =>
      change (statementsWithin parseFloat n (unlines texts)).map (st.toList ++ ·) = _
      rw [ih, collect]
      cases sts.mapM id <;> rfl

/-- A text without carriage returns is left as it is. -/
theorem lineFeeds_of_not_mem {text : List Char} (h : '\r' ∉ text) : lineFeeds text = text := by
  induction text with
  | nil => rfl
  | cons c text ih =>
    have hc : c ≠ '\r' := by
      rintro rfl
      exact h List.mem_cons_self
    rw [lineFeeds_cons fun heq => absurd heq hc, ih fun hmem => h (List.mem_cons_of_mem _ hmem)]

theorem not_mem_unlines {texts : List (List Char)} (h : ∀ text ∈ texts, OnOneLine text) : '\r' ∉ unlines texts := by
  rw [unlines, List.mem_flatMap]
  rintro ⟨text, htext, hmem⟩
  exact (h text htext).not_mem (c := '\r') (by decide) (by simpa using hmem)

/-- **The statements of a text are those of its lines.** -/
theorem statements_unlines {texts : List (List Char)} {sts : List (Option (Option (Statement φ)))}
    (h : List.Forall₂ (Reads parseFloat) texts sts) (hline : ∀ text ∈ texts, OnOneLine text) :
    statements parseFloat (unlines texts) = collect sts := by
  have hmem := not_mem_unlines hline
  have hlen : texts.length ≤ (unlines texts).length := length_le_length_flatMap (by simp)
  rw [statements, lineFeeds_of_not_mem hmem, if_neg hmem]
  exact statementsWithin_lines h (by omega)

end Values

end Pirewall.Lib.Toml
