/-
# Pirewall.Lib.Toml.Lines -- where statements start, and what their keys are read from

A statement of a TOML text starts at the start of a line. Its key is not empty, and the first part of it is bare or
stands between quotation marks or apostrophes: a literal string is read as it stands, and an escape of a basic string
is longer than what it means and has no blank in it.

This is what one needs to go from a statement back to the text. A file that was written line by line may not be read
as it was meant: a key that needs quotation marks and has none cuts its line elsewhere. Whatever comes of it, a pair
that the text has after some well-behaved lines starts one of the lines that follow (`statements_after`), and its key
is what stands at the start of that line (`line_some`). And a value under two keys comes from a pair with the second
of them (`pair_of_below`), so that a document with the value has a line with the key.
-/
import Pirewall.Lib.Toml.Written

namespace Pirewall.Lib.Toml

open Reader

variable {φ : Type} {parseFloat : List Char → Option φ}

/-! ## The starts of lines -/

/-- What is left of a text after each of its line feeds. -/
def afterFeeds : List Char → List (List Char)
  | [] => []
  | c :: s => if c = '\n' then s :: afterFeeds s else afterFeeds s

/-- What is left of a text from the start of each line on. -/
def lineStarts (s : List Char) : List (List Char) := s :: afterFeeds s

/-- What is left after the line feeds of two texts, one behind the other. -/
theorem afterFeeds_append (s t : List Char) : afterFeeds (s ++ t) = (afterFeeds s).map (· ++ t) ++ afterFeeds t := by
  induction s with
  | nil => rfl
  | cons c s ih =>
    rw [List.cons_append, afterFeeds, afterFeeds, ih]
    split <;> rfl

theorem lineStarts_append_feed (s t : List Char) :
    lineStarts (s ++ '\n' :: t) = (lineStarts s).map (· ++ '\n' :: t) ++ lineStarts t := by
  rw [lineStarts, afterFeeds_append, lineStarts, lineStarts, afterFeeds, if_pos rfl]
  rfl

theorem afterFeeds_of_not_mem {s : List Char} (h : '\n' ∉ s) : afterFeeds s = [] := by
  induction s with
  | nil => rfl
  | cons c s ih =>
    have hc : c ≠ '\n' := fun hc => h (hc ▸ List.mem_cons_self)
    rw [afterFeeds, if_neg hc]
    exact ih fun hmem => h (List.mem_cons_of_mem c hmem)

/-- A text without line feeds belongs to the last line. -/
theorem lineStarts_append (s : List Char) {t : List Char} (h : '\n' ∉ t) :
    lineStarts (s ++ t) = (lineStarts s).map (· ++ t) := by
  rw [lineStarts, afterFeeds_append, afterFeeds_of_not_mem h, List.append_nil]
  rfl

theorem suffix_of_mem_afterFeeds {s p : List Char} (h : p ∈ afterFeeds s) : p <:+ s := by
  induction s with
  | nil => cases h
  | cons c s ih =>
    rw [afterFeeds] at h
    split at h
    · rcases List.mem_cons.mp h with rfl | h
      · exact List.suffix_cons c p
      · exact (ih h).trans (List.suffix_cons c s)
    · exact (ih h).trans (List.suffix_cons c s)

theorem suffix_of_mem_lineStarts {s p : List Char} (h : p ∈ lineStarts s) : p <:+ s := by
  rcases List.mem_cons.mp h with rfl | h
  · exact List.suffix_rfl
  · exact suffix_of_mem_afterFeeds h

/-- The lines after a line feed are lines of the text. -/
theorem lineStarts_subset {s r : List Char} (h : '\n' :: r <:+ s) : lineStarts r ⊆ lineStarts s := by
  obtain ⟨front, rfl⟩ := h
  rw [lineStarts_append_feed]
  exact List.subset_append_right _ _

/-- **Statements start where lines start.** -/
theorem mem_statementsWithin {n : Nat} {s : List Char} {sts : List (Statement φ)}
    (h : statementsWithin parseFloat n s = some sts) {st : Statement φ} (hst : st ∈ sts) :
    ∃ start ∈ lineStarts s, ∃ rest, line parseFloat start = some (some st, rest) := by
  induction n generalizing s sts with
  | zero => cases h
  | succ n ih =>
    rw [statementsWithin] at h
    obtain ⟨⟨first, rest⟩, hline, h⟩ := Option.bind_eq_some_iff.mp h
    have hfirst : st ∈ first.toList → ∃ start ∈ lineStarts s, ∃ rest,
        line parseFloat start = some (some st, rest) := by
      intro hmem
      rw [Option.mem_toList] at hmem
      exact ⟨s, List.mem_cons_self, rest, hmem ▸ hline⟩
    cases rest with
    | nil =>
      cases h
      exact hfirst hst
    | cons c rest =>
      by_cases hc : c = '\n'
      · subst hc
        simp only [if_true] at h
        obtain ⟨later, hlater, rfl⟩ := Option.map_eq_some_iff.mp h
        rcases List.mem_append.mp hst with hst | hst
        · exact hfirst hst
        · obtain ⟨start, hstart, hread⟩ := ih hlater hst
          exact ⟨start, lineStarts_subset (line_closed.suffix hline) hstart, hread⟩
      · simp [hc] at h

/-- After lines that read whatever follows them. -/
theorem statementsWithin_unlines {texts : List (List Char)} {sts : List (Option (Statement φ))}
    (h : List.Forall₂ (Reads parseFloat) texts (sts.map some)) (n : Nat) (s : List Char) :
    statementsWithin parseFloat (texts.length + n) (unlines texts ++ s) =
      (statementsWithin parseFloat n s).map (sts.flatMap Option.toList ++ ·) := by
  induction texts generalizing sts with
  | nil =>
    obtain rfl : sts = [] := by simpa using h
    cases hs : statementsWithin parseFloat n s <;> simp [unlines, hs]
  | cons text texts ih =>
    cases sts with
    | nil => cases h
    | cons st sts =>
      obtain ⟨hread, hrest⟩ := List.forall₂_cons.mp h
      have htext : unlines (text :: texts) ++ s = text ++ '\n' :: (unlines texts ++ s) := by simp [unlines]
      rw [htext, List.length_cons, Nat.add_right_comm, statementsWithin, hread, Option.map_some, Option.bind_some]
      dsimp only
      rw [if_pos rfl, ih hrest, Option.map_map]
      refine congrArg (Option.map · _) (funext fun later => ?_)
      rw [Function.comp_apply, List.flatMap_cons, List.append_assoc]

/-- Carriage returns before a line feed are left out, and nothing else is. -/
theorem lineFeeds_sublist (s : List Char) : (lineFeeds s).Sublist s := by
  induction s using lineFeeds.induct with
  | case1 s ih => exact (ih.cons_cons '\n').cons '\r'
  | case2 c s hc ih =>
    rw [lineFeeds.eq_2 _ _ hc]
    exact ih.cons_cons c
  | case3 => exact List.Sublist.refl _

/-- A text is cut where what follows begins with no line feed. -/
theorem lineFeeds_append_of_head (s : List Char) {t : List Char} (h : t.head? ≠ some '\n') :
    lineFeeds (s ++ t) = lineFeeds s ++ lineFeeds t := by
  induction s using lineFeeds.induct with
  | case1 s ih => rw [List.cons_append, List.cons_append, lineFeeds, lineFeeds, ih, List.cons_append]
  | case2 c s hc ih =>
    have hhead : c = '\r' → (s ++ t).head? ≠ some '\n' := by
      rintro rfl
      cases s with
      | nil => exact h
      | cons d s =>
        simp only [List.cons_append, List.head?_cons, ne_eq, Option.some.injEq]
        rintro rfl
        exact hc s rfl rfl
    rw [List.cons_append, lineFeeds_cons hhead, lineFeeds.eq_2 _ _ hc, ih, List.cons_append]
  | case3 => rfl

/-- A line without carriage returns stays as it is. -/
theorem lineFeeds_line {s : List Char} (h : '\r' ∉ s) (t : List Char) :
    lineFeeds (s ++ '\n' :: t) = s ++ '\n' :: lineFeeds t := by
  have hline : '\r' ∉ s ++ ['\n'] := by
    rw [List.mem_append, not_or]
    exact ⟨h, by decide⟩
  rw [lineFeeds_append_feed, lineFeeds_of_not_mem hline, List.append_assoc, List.singleton_append]

/-- A pair that stands at the start of a line is the one that the line reads as. -/
theorem pair_of_lineStarts {texts : List (List Char)} {sts : List (Option (Option (Statement φ)))}
    (h : List.Forall₂ (Reads parseFloat) texts sts) (hline : ∀ text ∈ texts, OnOneLine text) {start : List Char}
    (hstart : start ∈ lineStarts (unlines texts)) {path : Path} {v : Value φ} {r : List Char}
    (hread : line parseFloat start = some (some (.pair path v), r)) : some (some (.pair path v)) ∈ sts := by
  induction h with
  | nil =>
    rw [List.mem_singleton.mp hstart] at hread
    cases hread
  | @cons text st texts sts htext _ ih =>
    obtain ⟨hfirst, hrest⟩ := List.forall_mem_cons.mp hline
    have hunlines : unlines (text :: texts) = text ++ '\n' :: unlines texts := by simp [unlines]
    rw [hunlines, lineStarts_append_feed, lineStarts,
      afterFeeds_of_not_mem (hfirst.not_mem (c := '\n') (by decide))] at hstart
    rcases List.mem_append.mp hstart with hstart | hstart
    · rw [List.mem_singleton.mp hstart, htext] at hread
      obtain ⟨st, hst, heq⟩ := Option.map_eq_some_iff.mp hread
      cases heq
      exact hst ▸ List.mem_cons_self
    · exact List.mem_cons_of_mem _ (ih hrest hstart)

/-- A text of lines without carriage returns stays as it is. -/
theorem lineFeeds_unlines {texts : List (List Char)} (h : ∀ text ∈ texts, OnOneLine text) (s : List Char) :
    lineFeeds (unlines texts ++ s) = unlines texts ++ lineFeeds s := by
  induction texts with
  | nil => rfl
  | cons text texts ih =>
    obtain ⟨hfirst, hrest⟩ := List.forall_mem_cons.mp h
    have hunlines : ∀ u, unlines (text :: texts) ++ u = text ++ '\n' :: (unlines texts ++ u) := by simp [unlines]
    rw [hunlines, hunlines, lineFeeds_line (hfirst.not_mem (by decide)), ih hrest]

/-- **The statements of a text after lines that read whatever follows them.** -/
theorem statements_after {texts : List (List Char)} {head : List (Option (Statement φ))}
    (h : List.Forall₂ (Reads parseFloat) texts (head.map some)) (hline : ∀ text ∈ texts, OnOneLine text)
    {s : List Char} {all : List (Statement φ)} (hall : statements parseFloat (unlines texts ++ s) = some all) :
    ∃ n later, statementsWithin parseFloat n (lineFeeds s) = some later ∧
      all = head.flatMap Option.toList ++ later := by
  obtain ⟨-, hread⟩ := statements_some hall
  rw [lineFeeds_unlines hline] at hread
  have hlen : texts.length ≤ (unlines texts ++ lineFeeds s).length + 1 := by
    have hle : texts.length ≤ (unlines texts).length := length_le_length_flatMap (by simp)
    rw [List.length_append]
    omega
  obtain ⟨n, hn⟩ := Nat.exists_eq_add_of_le hlen
  rw [hn, statementsWithin_unlines h] at hread
  obtain ⟨later, hlater, rfl⟩ := Option.map_eq_some_iff.mp hread
  exact ⟨n, later, hlater, rfl⟩

/-! ## Keys -/

/-- The path of a statement. -/
def Statement.path : Statement φ → Path
  | .table path => path
  | .arrayTable path => path
  | .pair path _ => path

/-- The first part of a key. -/
theorem key_some {s r : List Char} {path : Path} (h : key s = some (path, r)) :
    ∃ part more rest, path = part :: more ∧ keyPart s = some (part, rest) := by
  change keyWithin (s.length + 1) s = some (path, r) at h
  obtain ⟨part, rest, hpart, h⟩ := bind_some h
  obtain ⟨-, s₁, -, h⟩ := bind_some h
  obtain ⟨dot, s₂, -, h⟩ := bind_some h
  refine ⟨part, ?_⟩
  cases dot with
  | false =>
    obtain ⟨rfl, -⟩ := pure_eq_some.mp h
    exact ⟨[], rest, rfl, hpart⟩
  | true =>
    obtain ⟨-, s₃, -, h⟩ := bind_some h
    rw [map_eq] at h
    obtain ⟨⟨more, s₄⟩, -, hpath⟩ := Option.map_eq_some_iff.mp h
    cases hpath
    exact ⟨more, rest, rfl, hpart⟩

/-- What a part of a key is read from. -/
theorem keyPart_some {s r : List Char} {part : String} (h : keyPart s = some (part, r)) :
    (∃ t cs, s = '\'' :: t ∧ literalStr t = some (cs, r) ∧ part = String.ofList cs) ∨
      (∃ t cs, s = '"' :: t ∧ basicStr t = some (cs, r) ∧ part = String.ofList cs) ∨
      IsBare part.toList := by
  obtain ⟨literal, s₁, hliteral, hread⟩ := bind_some h
  cases literal with
  | true =>
    rw [if_pos rfl, map_eq] at hread
    obtain ⟨⟨cs, rest⟩, hcs, hpart⟩ := Option.map_eq_some_iff.mp hread
    cases hpart
    exact .inl ⟨s₁, cs, skip?_true hliteral, hcs, rfl⟩
  | false =>
    obtain ⟨rfl, -⟩ := skip?_false hliteral
    rw [if_neg Bool.false_ne_true] at hread
    obtain ⟨basic, s₂, hbasic, hread'⟩ := bind_some hread
    cases basic with
    | true =>
      rw [if_pos rfl, map_eq] at hread'
      obtain ⟨⟨cs, rest⟩, hcs, hpart⟩ := Option.map_eq_some_iff.mp hread'
      cases hpart
      exact .inr (.inl ⟨s₂, cs, skip?_true hbasic, hcs, rfl⟩)
    | false =>
      rw [if_neg Bool.false_ne_true] at hread'
      obtain ⟨cs, rest, hspan, hbare⟩ := bind_some hread'
      cases hspan
      split at hbare
      · cases hbare
      · rename_i hne
        obtain ⟨rfl, -⟩ := pure_eq_some.mp hbare
        refine .inr (.inr ?_)
        rw [String.toList_ofList]
        exact ⟨hne, fun c hc => List.mem_takeWhile_imp hc⟩

/-- The path of a statement is a key, and a pair has it at its start. -/
theorem statement_some {s r : List Char} {st : Statement φ}
    (h : line.statement parseFloat s = some (some st, r)) :
    (∃ t rest, key t = some (st.path, rest)) ∧
      ∀ path v, st = .pair path v → ∃ rest, key s = some (path, rest) := by
  obtain ⟨arrayTable, s₁, hskip, hread⟩ := bind_some h
  cases arrayTable with
  | true =>
    rw [if_pos rfl] at hread
    obtain ⟨_, s₂, _, hread⟩ := bind_some hread
    obtain ⟨path, s₃, hpath, hread⟩ := bind_some hread
    obtain ⟨_, s₄, _, hread⟩ := bind_some hread
    obtain ⟨_, s₅, _, hread⟩ := bind_some hread
    obtain ⟨_, s₆, _, hread⟩ := bind_some hread
    cases (pure_eq_some.mp hread).1
    exact ⟨⟨s₂, s₃, hpath⟩, fun _ _ hpair => nomatch hpair⟩
  | false =>
    obtain ⟨rfl, -⟩ := skip?_false hskip
    rw [if_neg Bool.false_ne_true] at hread
    obtain ⟨table, s₂, hskip', hread'⟩ := bind_some hread
    cases table with
    | true =>
      rw [if_pos rfl] at hread'
      obtain ⟨_, s₃, _, hread'⟩ := bind_some hread'
      obtain ⟨path, s₄, hpath, hread'⟩ := bind_some hread'
      obtain ⟨_, s₅, _, hread'⟩ := bind_some hread'
      obtain ⟨_, s₆, _, hread'⟩ := bind_some hread'
      cases (pure_eq_some.mp hread').1
      exact ⟨⟨s₃, s₄, hpath⟩, fun _ _ hpair => nomatch hpair⟩
    | false =>
      obtain ⟨rfl, -⟩ := skip?_false hskip'
      rw [if_neg Bool.false_ne_true] at hread'
      obtain ⟨ends, s₃, hends, hpair⟩ := bind_some hread'
      cases hends
      split at hpair
      · cases (pure_eq_some.mp hpair).1
      · obtain ⟨path, s₄, hpath, hpair⟩ := bind_some hpair
        obtain ⟨_, s₅, _, hpair⟩ := bind_some hpair
        obtain ⟨_, s₆, _, hpair⟩ := bind_some hpair
        obtain ⟨v, s₇, _, hpair⟩ := bind_some hpair
        obtain ⟨_, s₈, _, hpair⟩ := bind_some hpair
        cases (pure_eq_some.mp hpair).1
        refine ⟨⟨_, s₄, hpath⟩, fun _ _ heq => ?_⟩
        cases heq
        exact ⟨s₄, hpath⟩

/-- No path is empty; and the key of a pair stands after the blanks at the start of its line. -/
theorem line_some {s r : List Char} {st : Statement φ} (h : line parseFloat s = some (some st, r)) :
    st.path ≠ [] ∧ ∀ path v, st = .pair path v →
      ∃ part more rest, path = part :: more ∧ keyPart (s.dropWhile isWs) = some (part, rest) := by
  obtain ⟨_, s₁, hws, hread⟩ := bind_some h
  obtain ⟨st', s₂, hst, hread⟩ := bind_some hread
  obtain ⟨_, s₃, _, hread⟩ := bind_some hread
  obtain ⟨rfl, -⟩ := pure_eq_some.mp hread
  cases hws
  obtain ⟨⟨t, rest, hpath⟩, hpair⟩ := statement_some hst
  refine ⟨?_, fun path v heq => ?_⟩
  · obtain ⟨part, more, -, hpath, -⟩ := key_some hpath
    rw [hpath]
    exact List.cons_ne_nil _ _
  · obtain ⟨rest, hkey⟩ := hpair path v heq
    exact key_some hkey

/-! ## Under two keys -/

/-- What is put under a header, by which pair. -/
theorem pair_of_opsFrom {header path : Path} {sts : List (Statement φ)} {v : Value φ} (hheader : header ≠ [])
    (hpaths : ∀ st ∈ sts, st.path ≠ []) (h : (path, .put v) ∈ opsFrom header sts) :
    ∃ header' path', header' ≠ [] ∧ path = header' ++ path' ∧ .pair path' v ∈ sts := by
  induction sts generalizing header with
  | nil => cases h
  | cons st sts ih =>
    obtain ⟨hpath, hrest⟩ := List.forall_mem_cons.mp hpaths
    cases st with
    | table path' =>
      rcases List.mem_cons.mp h with heq | h
      · cases heq
      · obtain ⟨header', path'', hne, heq, hmem⟩ := ih hpath hrest h
        exact ⟨header', path'', hne, heq, List.mem_cons_of_mem _ hmem⟩
    | arrayTable path' =>
      rcases List.mem_cons.mp h with heq | h
      · cases heq
      · obtain ⟨header', path'', hne, heq, hmem⟩ := ih hpath hrest h
        exact ⟨header', path'', hne, heq, List.mem_cons_of_mem _ hmem⟩
    | pair path' v' =>
      rcases List.mem_cons.mp h with heq | h
      · cases heq
        exact ⟨header, path', hheader, rfl, List.mem_cons_self⟩
      · obtain ⟨header', path'', hne, heq, hmem⟩ := ih hheader hrest h
        exact ⟨header', path'', hne, heq, List.mem_cons_of_mem _ hmem⟩

theorem below_header {name : String} {act : Act φ} (hact : ∀ w, act ≠ .put w) : Op.below name ([], act) = none := by
  cases act with
  | put w => exact absurd rfl (hact w)
  | _ => rfl

/-- What puts a value under two keys: a pair with both, or one with a table. -/
theorem put_of_below {op : Op φ} {name k : String} {v : Value φ}
    (h : (op.below name).bind (Op.below k) = some ([], .put v)) :
    op = ([name, k], .put v) ∨ ∃ path w, op = (path, .put w) ∧ path.length < 2 := by
  obtain ⟨path, act⟩ := op
  by_cases hput : ∃ w, act = .put w ∧ path.length < 2
  · obtain ⟨w, rfl, hlen⟩ := hput
    exact .inr ⟨path, w, rfl, hlen⟩
  left
  match path with
  | [] =>
    rw [below_header fun w hw => hput ⟨w, hw, by decide⟩] at h
    cases h
  | [a] =>
    rw [Op.below] at h
    split at h
    · rw [Option.bind_some, below_header fun w hw => hput ⟨w, hw, Nat.one_lt_two⟩] at h
      cases h
    · cases h
  | a :: b :: path =>
    rw [Op.below] at h
    split at h
    · rename_i ha
      rw [Option.bind_some, Op.below] at h
      split at h
      · rename_i hb
        cases h
        rw [ha, hb]
      · cases h
    · cases h

/-- **A value put under two keys below a header** is that of a pair with the second. -/
theorem pair_of_below {header : Path} {name k : String} {sts : List (Statement φ)} {v : Value φ} (hheader : header ≠ [])
    (hpaths : ∀ st ∈ sts, st.path ≠ []) (h : ([], .put v) ∈ below k (below name (opsFrom header sts))) :
    .pair [k] v ∈ sts := by
  rw [below, below, List.filterMap_filterMap] at h
  obtain ⟨op, hmem, hop⟩ := List.mem_filterMap.mp h
  rcases put_of_below hop with rfl | ⟨path, w, rfl, hlen⟩
  · obtain ⟨header', path', hne, heq, hpair⟩ := pair_of_opsFrom hheader hpaths hmem
    cases header' with
    | nil => exact absurd rfl hne
    | cons a rest =>
      rcases List.append_eq_singleton_iff.mp (List.cons.inj heq).2.symm with ⟨-, rfl⟩ | ⟨-, rfl⟩
      · exact hpair
      · exact absurd rfl (hpaths _ hpair)
  · obtain ⟨header', path', hne, rfl, hpair⟩ := pair_of_opsFrom hheader hpaths hmem
    have hlen' := List.length_pos_of_ne_nil hne
    have hlen'' : 0 < path'.length := List.length_pos_of_ne_nil (hpaths _ hpair)
    rw [List.length_append] at hlen
    omega

/-! ## Strings -/

theorem hexChar_some {n : Nat} {digits s r piece : List Char} (h : hexChar n digits s = some (piece, r)) :
    ∃ used, s = used ++ r ∧ (∀ c ∈ used, isHex c = true) ∧ piece.length = 1 := by
  induction n generalizing digits s with
  | zero =>
    rw [hexChar_zero] at h
    by_cases hvalid : (digitsValue 16 digits.reverse).isValidChar
    · rw [dif_pos hvalid] at h
      obtain ⟨rfl, rfl⟩ := pure_eq_some.mp h
      exact ⟨[], rfl, by simp, rfl⟩
    · rw [dif_neg hvalid] at h
      cases h
  | succ n ih =>
    obtain ⟨c, rest, hc, hrest⟩ := bind_some h
    obtain ⟨rfl, hhex⟩ := charIf_some.mp hc
    obtain ⟨used, rfl, hused, hlength⟩ := ih hrest
    exact ⟨c :: used, rfl, List.forall_mem_cons.mpr ⟨hhex, hused⟩, hlength⟩

/-- An escape means one character, and has no blank in it. -/
theorem escape_some {s r piece : List Char} (h : escape false s = some (piece, r)) :
    ∃ used, s = used ++ r ∧ ' ' ∉ used ∧ piece.length = 1 := by
  obtain ⟨c, rest, hc, hread⟩ := bind_some h
  obtain rfl := char_some.mp hc
  rw [Bool.false_and, if_neg Bool.false_ne_true] at hread
  have hhex : ∀ n, c ≠ ' ' → hexChar n [] rest = some (piece, r) →
      ∃ used, c :: rest = used ++ r ∧ ' ' ∉ used ∧ piece.length = 1 := by
    intro n hne hn
    obtain ⟨used, rfl, hused, hlength⟩ := hexChar_some hn
    refine ⟨c :: used, rfl, fun hmem => ?_, hlength⟩
    rcases List.mem_cons.mp hmem with hblank | hmem
    · exact hne hblank.symm
    · exact absurd (hused ' ' hmem) (by decide)
  split at hread
  · rename_i hu
    exact hhex 4 (by rw [hu]; decide) hread
  · split at hread
    · rename_i hU
      exact hhex 8 (by rw [hU]; decide) hread
    · cases hd : replacement c with
      | none =>
        rw [hd] at hread
        cases hread
      | some d =>
        rw [hd] at hread
        obtain ⟨rfl, rfl⟩ := pure_eq_some.mp hread
        refine ⟨[c], rfl, fun hmem => ?_, rfl⟩
        rw [← List.mem_singleton.mp hmem] at hd
        cases hd

/-- A piece of a basic string is an escape, or a character that needs none. -/
theorem basicPiece_some {s r piece : List Char} (h : basicPiece false s = some (piece, r)) :
    (∃ t, s = '\\' :: t ∧ escape false t = some (piece, r)) ∨
      ∃ c, s = c :: r ∧ c ≠ '\\' ∧ isIllegal c = false ∧ piece = [c] := by
  obtain ⟨c, rest, hc, hread⟩ := bind_some h
  obtain rfl := char_some.mp hc
  split at hread
  · rename_i hescape
    exact .inl ⟨rest, by rw [hescape], hread⟩
  · rename_i hescape
    split at hread
    · cases hread
    · rename_i hlegal
      obtain ⟨rfl, rfl⟩ := pure_eq_some.mp hread
      exact .inr ⟨c, rfl, hescape, by simpa using hlegal, rfl⟩

/-- A literal string is read as it stands. -/
theorem literalStr_some {s r cs : List Char} (h : literalStr s = some (cs, r)) :
    s = cs ++ '\'' :: r ∧ '\'' ∉ cs ∧ ∀ c ∈ cs, isIllegal c = false := by
  rw [literalStr, pieces, map_eq] at h
  obtain ⟨⟨read, rest⟩, hread, heq⟩ := Option.map_eq_some_iff.mp h
  cases heq
  change upToWithin ['\''] (literalPiece false) (s.length + 1) s = some (read, rest) at hread
  clear h
  generalize s.length + 1 = n at hread
  induction n generalizing s read with
  | zero => cases hread
  | succ n ih =>
    rcases upToWithin_some hread with ⟨rfl, rfl⟩ | ⟨piece, rest, more, hclosed, hpiece, hmore, rfl⟩
    · exact ⟨rfl, by simp, by simp⟩
    · obtain ⟨c, t, hc, hlegal⟩ := bind_some hpiece
      obtain rfl := char_some.mp hc
      split at hlegal
      · cases hlegal
      · rename_i hillegal
        obtain ⟨rfl, rfl⟩ := pure_eq_some.mp hlegal
        obtain ⟨rfl, hquote, hall⟩ := ih more hmore
        have hne : c ≠ '\'' := by
          rintro rfl
          exact hclosed (List.prefix_append ['\''] _)
        refine ⟨rfl, ?_, ?_⟩
        · simp only [List.flatten_cons, List.singleton_append, List.mem_cons, not_or]
          exact ⟨hne.symm, hquote⟩
        · simp only [List.flatten_cons, List.singleton_append, List.forall_mem_cons]
          exact ⟨by simpa using hillegal, hall⟩

end Pirewall.Lib.Toml
