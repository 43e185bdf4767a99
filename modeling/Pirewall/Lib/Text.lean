/-
# Pirewall.Lib.Text -- splitting text the way Python does

`str.splitlines`, `str.isspace`, `str.strip` and `str.split(sep)`. `splitlines` breaks a text at ten
characters and at one pair of them, and a file format that is terminated by line feeds meets the other
nine only in its fields. The two facts used about it: a terminated line contributes its own pieces
whatever follows (`splitlines_append_newline`), and no piece has more of any other character than the
text it came from (`count_le_of_mem_splitlines`).
-/
import Mathlib.Tactic

namespace Pirewall.Lib

/-- The characters `str.splitlines` breaks a text at. -/
def isLineBoundary (c : Char) : Bool :=
  ['\n', '\r', '\x0b', '\x0c', '\x1c', '\x1d', '\x1e', '\u0085', '\u2028', '\u2029'].contains c

/-- `str.isspace` of one character. -/
def isSpace (c : Char) : Bool :=
  ['\t', '\n', '\x0b', '\x0c', '\r', '\x1c', '\x1d', '\x1e', '\x1f', ' ', '\u0085', '\u00a0', '\u1680',
   '\u2028', '\u2029', '\u202f', '\u205f', '\u3000'].contains c
    || (decide ('\u2000' ≤ c) && decide (c ≤ '\u200a'))

/-- Not one character is left by `str.strip`. -/
def isBlank (cs : List Char) : Bool := cs.all isSpace

/-- `str.strip`. -/
def strip (s : String) : String :=
  String.ofList ((s.toList.dropWhile isSpace).reverse.dropWhile isSpace).reverse

/-- `splitlines`, with the characters of the line being read, in reverse. -/
def splitlinesFrom (current : List Char) : List Char → List (List Char)
  | [] => if current = [] then [] else [current.reverse]
  | '\r' :: '\n' :: rest => current.reverse :: splitlinesFrom [] rest
  | c :: rest =>
    if isLineBoundary c then current.reverse :: splitlinesFrom [] rest
    else splitlinesFrom (c :: current) rest

/-- `str.splitlines`. -/
def splitlines (cs : List Char) : List (List Char) := splitlinesFrom [] cs

example : splitlines "a\r\nb\u2028\nc".toList = ["a".toList, "b".toList, [], "c".toList] := by decide

theorem splitlinesFrom_plain {c : Char} (h : isLineBoundary c = false) (current rest : List Char) :
    splitlinesFrom current (c :: rest) = splitlinesFrom (c :: current) rest := by
  rw [splitlinesFrom.eq_3]
  · simp [h]
  · rintro rest' rfl _
    exact absurd h (by decide)

theorem splitlinesFrom_boundary {c : Char} (h : isLineBoundary c = true) {rest : List Char}
    (hcrlf : c = '\r' → rest.head? ≠ some '\n') (current : List Char) :
    splitlinesFrom current (c :: rest) = current.reverse :: splitlinesFrom [] rest := by
  rw [splitlinesFrom.eq_3]
  · simp [h]
  · rintro rest' rfl rfl
    exact hcrlf rfl rfl

/-- Characters that are no boundary join the line being read. -/
theorem splitlinesFrom_append_plain {cs : List Char} (h : ∀ c ∈ cs, isLineBoundary c = false)
    (current rest : List Char) :
    splitlinesFrom current (cs ++ rest) = splitlinesFrom (cs.reverse ++ current) rest := by
  induction cs generalizing current with
  | nil => rfl
  | cons c cs ih =>
    obtain ⟨hc, hcs⟩ := List.forall_mem_cons.mp h
    rw [List.cons_append, splitlinesFrom_plain hc, ih hcs]
    simp

/-- A line without a line feed, and what follows its terminator, are split separately. -/
theorem splitlinesFrom_append_newline {line : List Char} (h : '\n' ∉ line) (current rest : List Char) :
    splitlinesFrom current (line ++ '\n' :: rest) =
      splitlinesFrom current (line ++ ['\n']) ++ splitlinesFrom [] rest := by
  induction line generalizing current with
  | nil =>
    have hlf : '\n' = '\r' → ∀ tail : List Char, tail.head? ≠ some '\n' := fun h => absurd h (by decide)
    rw [List.nil_append, List.nil_append, splitlinesFrom_boundary (by decide) fun h => hlf h rest,
      splitlinesFrom_boundary (by decide) fun h => hlf h []]
    simp [splitlinesFrom]
  | cons c line ih =>
    obtain ⟨hc, hline⟩ := not_or.mp (List.mem_cons.not.mp h)
    rw [List.cons_append, List.cons_append]
    by_cases hb : isLineBoundary c = true
    · by_cases hcr : c = '\r' ∧ line = []
      · -- the carriage return and the terminator are one boundary
        obtain ⟨rfl, rfl⟩ := hcr
        simp [splitlinesFrom]
      · have hhead : ∀ tail, c = '\r' → (line ++ '\n' :: tail).head? ≠ some '\n' := by
          rintro tail rfl
          cases line with
          | nil => exact absurd ⟨rfl, rfl⟩ hcr
          | cons d line =>
            simp only [List.cons_append, List.head?_cons, ne_eq, Option.some.injEq]
            exact fun hd => hline (hd ▸ List.mem_cons_self)
        rw [splitlinesFrom_boundary hb (hhead rest), splitlinesFrom_boundary hb (hhead []), ih hline]
        rfl
    · rw [splitlinesFrom_plain (Bool.eq_false_iff.mpr hb),
        splitlinesFrom_plain (Bool.eq_false_iff.mpr hb), ih hline]

/-- A file of terminated lines is split line by line. -/
theorem splitlines_flatMap {lines : List (List Char)} (h : ∀ line ∈ lines, '\n' ∉ line) :
    splitlines (lines.flatMap (· ++ ['\n'])) = lines.flatMap fun line => splitlines (line ++ ['\n']) := by
  induction lines with
  | nil => rfl
  | cons line lines ih =>
    obtain ⟨hline, hlines⟩ := List.forall_mem_cons.mp h
    rw [List.flatMap_cons, List.flatMap_cons, ← ih hlines, List.append_assoc, List.singleton_append]
    exact splitlinesFrom_append_newline hline [] _

/-- No piece has more of a character than there was. -/
theorem count_le_of_mem_splitlinesFrom (x : Char) {current cs piece : List Char}
    (h : piece ∈ splitlinesFrom current cs) : piece.count x ≤ current.count x + cs.count x := by
  induction current, cs using splitlinesFrom.induct with
  | case1 => exact absurd h (by simp [splitlinesFrom])
  | case2 current hne =>
    rw [splitlinesFrom, if_neg hne] at h
    rw [List.mem_singleton.mp h]
    simp
  | case3 current rest ih =>
    rw [splitlinesFrom] at h
    simp only [List.count_cons]
    rcases List.mem_cons.mp h with rfl | h
    · rw [List.count_reverse]
      omega
    · have := ih h
      rw [List.count_nil] at this
      omega
  | case4 current c rest hcrlf hb ih =>
    rw [splitlinesFrom.eq_3 _ _ _ hcrlf, if_pos hb] at h
    rw [List.count_cons]
    rcases List.mem_cons.mp h with rfl | h
    · rw [List.count_reverse]
      omega
    · have := ih h
      rw [List.count_nil] at this
      omega
  | case5 current c rest hcrlf hb ih =>
    rw [splitlinesFrom.eq_3 _ _ _ hcrlf, if_neg hb] at h
    have := ih h
    rw [List.count_cons] at this ⊢
    omega

/-- The first boundary of a text that has one. -/
theorem exists_first_boundary {t : List Char} (h : ∃ c ∈ t, isLineBoundary c = true) :
    ∃ before c after, t = before ++ c :: after ∧ (∀ d ∈ before, isLineBoundary d = false) ∧
      isLineBoundary c = true := by
  induction t with
  | nil => exact absurd h (by simp)
  | cons c t ih =>
    by_cases hc : isLineBoundary c = true
    · exact ⟨[], c, t, rfl, by simp, hc⟩
    · have hrest : ∃ d ∈ t, isLineBoundary d = true := by
        obtain ⟨d, hd, hb⟩ := h
        rcases List.mem_cons.mp hd with rfl | hd
        · exact absurd hb hc
        · exact ⟨d, hd, hb⟩
      obtain ⟨before, b, after, rfl, hbefore, hb⟩ := ih hrest
      exact ⟨c :: before, b, after, rfl,
        List.forall_mem_cons.mpr ⟨Bool.eq_false_iff.mpr hc, hbefore⟩, hb⟩

/-- Up to its first boundary a text is one line; the pieces after it come from what is left. -/
theorem splitlines_first {before t : List Char} {c : Char}
    (hbefore : ∀ d ∈ before, isLineBoundary d = false) (hc : isLineBoundary c = true) (x : Char) :
    ∃ rest, splitlines (before ++ c :: t) = before :: rest ∧
      ∀ piece ∈ rest, piece.count x ≤ t.count x := by
  have hfirst : splitlines (before ++ c :: t) = splitlinesFrom before.reverse (c :: t) := by
    rw [splitlines, splitlinesFrom_append_plain hbefore, List.append_nil]
  rw [hfirst]
  by_cases hcrlf : c = '\r' ∧ t.head? = some '\n'
  · obtain ⟨rfl, hlf⟩ := hcrlf
    obtain ⟨t, rfl⟩ := List.head?_eq_some_iff.mp hlf
    refine ⟨splitlinesFrom [] t, by simp [splitlinesFrom], ?_⟩
    intro piece hpiece
    have := count_le_of_mem_splitlinesFrom x hpiece
    rw [List.count_nil] at this
    rw [List.count_cons]
    omega
  · refine ⟨splitlinesFrom [] t, ?_, ?_⟩
    · rw [splitlinesFrom_boundary hc fun h hlf => hcrlf ⟨h, hlf⟩, List.reverse_reverse]
    · intro piece hpiece
      have := count_le_of_mem_splitlinesFrom x hpiece
      rw [List.count_nil] at this
      omega

theorem isSpace_of_isDigit {c : Char} (h : c.isDigit = true) : isSpace c = false := by
  have hdigit : ∀ n : Fin 128, (Char.ofNat n).isDigit = true → isSpace (Char.ofNat n) = false := by
    decide +kernel
  have hlt : c.toNat < 128 := by
    simp only [Char.isDigit, Bool.and_eq_true, decide_eq_true_eq] at h
    exact Nat.lt_of_le_of_lt h.2 (by decide)
  have hc := hdigit ⟨c.toNat, hlt⟩
  simp only [Char.ofNat_toNat] at hc
  exact hc h

/-- `str.split(sep)` cuts once at every separator. -/
theorem length_splitOn (x : Char) (cs : List Char) : (cs.splitOn x).length = cs.count x + 1 := by
  induction cs with
  | nil => rfl
  | cons c cs ih =>
    rw [List.splitOn_cons_eq_if_modifyHead, List.count_cons]
    split
    · simp [ih]
    · simp [ih]

/-- A field that ends at the first separator is read back, with what follows it. -/
theorem append_separator_inj {x : Char} {field field' rest rest' : List Char} (h : x ∉ field)
    (h' : x ∉ field') (heq : field ++ x :: rest = field' ++ x :: rest') :
    field = field' ∧ rest = rest' := by
  induction field generalizing field' with
  | nil =>
    cases field' with
    | nil => exact ⟨rfl, List.tail_eq_of_cons_eq heq⟩
    | cons c field' =>
      have hc : x = c := List.head_eq_of_cons_eq heq
      exact absurd (hc ▸ List.mem_cons_self) h'
  | cons c field ih =>
    cases field' with
    | nil =>
      have hc : c = x := List.head_eq_of_cons_eq heq
      exact absurd (hc ▸ List.mem_cons_self) h
    | cons c' field' =>
      have hc : c = c' := List.head_eq_of_cons_eq heq
      obtain ⟨hfield, hrest⟩ := ih (fun hmem => h (List.mem_cons_of_mem _ hmem))
        (fun hmem => h' (List.mem_cons_of_mem _ hmem)) (List.tail_eq_of_cons_eq heq)
      exact ⟨by rw [hc, hfield], hrest⟩

end Pirewall.Lib
