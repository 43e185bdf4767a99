/-
# Pirewall.Lib.Toml.Cut -- a TOML text cut between two statements

The readers of `Syntax` are put together from spans, single characters and choices. Each of them is one of three
kinds, and its kind follows from its shape:

* a reader of blanks, of a comment, of a string, of a key or of a value is closed (`Closed`): it reads the same with
  more text behind it, and where a text ends without a line feed it may stop and leaves a line feed there alone;
* what is only used inside a string or an array is settled (`Settled`): it does not look past the lines it was given,
  but it need not stop at their end;
* a number, a date or a time sees no more than the rest of its line, so that all there is to show is that it leaves an
  end of that rest (`Shrinks`).

Arrays and inline tables call the reader of values again, with less fuel. Their three lemmas are proved together, and
once more for the fuel: what is read with some is read with more, so that `fueled` may be given as much as the text
has characters (`value_closed`, `key_closed`).

The last section is on the statements of a text that is cut at a line feed. `tomllib` drops the carriage return of a
line end first, so a line feed is a place to cut only together with the carriage return in front of it.
-/
import Pirewall.Lib.Toml.Document

namespace Pirewall.Lib.Toml

open Reader

variable {φ : Type}

/-! ## Blanks, comments, strings, keys -/

theorem ws_closed : Closed ws := (spanWhile_closed (by decide)).map _

/-- A comment goes to the end of its line, and fails at a control character on the way. -/
theorem commentText_closed : Closed commentText :=
  (spanWhile_closed (by decide)).bind fun _ => .ite .failure (.pure _)

theorem comment_closed : Closed comment := (skip?_closed (by decide)).bind fun _ => .ite commentText_closed (.pure _)

/-- Blanks, line feeds and comments between the items of an array, with so much fuel. -/
theorem arrayWsWithin_settled (n : Nat) : Settled (arrayWsWithin n) := by
  induction n with
  | zero => exact .failure
  | succ n ih =>
    exact (spanWhile_settled _).bind fun _ => (skip?_closed (by decide)).toSettled.bind fun _ =>
      .ite (commentText_closed.toSettled.bind fun _ => ih) (.pure _)

theorem arrayWsWithin_mono {n m : Nat} (h : n ≤ m) : Below (arrayWsWithin n) (arrayWsWithin m) := by
  induction n generalizing m with
  | zero => exact .failure _
  | succ n ih =>
    cases m with
    | zero => omega
    | succ m =>
      exact (Below.refl _).bind fun _ => (Below.refl _).bind fun _ =>
        .ite ((Below.refl _).bind fun _ => ih (Nat.le_of_succ_le_succ h)) (.refl _)

theorem arrayWs_settled : Settled arrayWs := fueled_settled arrayWsWithin_settled arrayWsWithin_mono

/-- The digits of an escape are read one by one, and the number they make is a character or the escape fails. -/
theorem hexChar_closed (n : Nat) (digits : List Char) : Closed (hexChar n digits) := by
  induction n generalizing digits with
  | zero =>
    rw [hexChar_zero]
    by_cases hvalid : (digitsValue 16 digits.reverse).isValidChar
    · rw [dif_pos hvalid]
      exact .pure _
    · rw [dif_neg hvalid]
      exact .failure
  | succ n ih => exact (charIf_closed (by decide)).bind fun c => ih _

/-- An escape of a string over several lines may take the line feed at its end, and so is only settled. -/
theorem escape_settled (multiline : Bool) : Settled (escape multiline) := by
  refine char_settled.bind fun c => .ite ?_ (.ite (hexChar_closed 4 []).toSettled
    (.ite (hexChar_closed 8 []).toSettled ?_))
  · refine Settled.bind (.ite (.pure _) (ws_closed.toSettled.bind fun _ => charIf_settled _)) fun _ => ?_
    exact (spanWhile_settled _).bind fun _ => .pure _
  · split
    · exact .pure _
    · exact .failure

theorem basicPiece_settled (multiline : Bool) : Settled (basicPiece multiline) :=
  char_settled.bind fun _ => .ite (escape_settled multiline) (.ite .failure (.pure _))

theorem literalPiece_settled (multiline : Bool) : Settled (literalPiece multiline) :=
  char_settled.bind fun _ => .ite .failure (.pure _)

/-- There is no piece of a string at the end of a text. -/
theorem basicPiece_dead (multiline : Bool) : Dead (basicPiece multiline) := char_dead.bind _

theorem literalPiece_dead (multiline : Bool) : Dead (literalPiece multiline) := char_dead.bind _

theorem basicStr_closed : Closed basicStr :=
  (upTo_closed (by decide) (by decide) (basicPiece_settled false) (basicPiece_dead false)).map _

theorem literalStr_closed : Closed literalStr :=
  (upTo_closed (by decide) (by decide) (literalPiece_settled false) (literalPiece_dead false)).map _

theorem extraQuotes_closed {delim : Char} (h : delim ≠ '\n') (text : List Char) : Closed (extraQuotes delim text) := by
  have hdelim : Closed (skip? [delim]) := skip?_closed (by simpa using Ne.symm h)
  exact hdelim.bind fun _ => .ite (hdelim.bind fun _ => .pure _) (.pure _)

/-- The line feed right behind the opening quotation marks is not part of the text. -/
theorem skipFeed_settled : Settled multilineStr.skipFeed where
  suffix {s a r} h := by
    unfold multilineStr.skipFeed at h
    split at h
    · cases h
      exact List.suffix_cons _ _
    · cases h
      exact List.suffix_rfl
  again {s a r t} h hr hsafe := by
    cases s with
    | nil =>
      cases h
      exact absurd rfl hr
    | cons c s =>
      by_cases hc : c = '\n'
      · subst hc
        cases h
        rfl
      · unfold multilineStr.skipFeed at h ⊢
        simp only [List.cons_append] at h ⊢
        split at h
        · rename_i heq
          exact absurd (List.cons.inj heq).1 hc
        · cases h
          split
          · rename_i heq
            exact absurd (List.cons.inj heq).1 hc
          · rfl

/-- A string over several lines: its first reader may meet the end of the text, but what follows cannot. -/
theorem multilineStr_closed {delim : Char} (h : delim ≠ '\n') {piece : Reader (List Char)} (hpiece : Settled piece)
    (hdead : Dead piece) : Closed (multilineStr delim piece) := by
  have hword : '\n' ∉ [delim, delim, delim] := by simpa using Ne.symm h
  refine skipFeed_settled.bind_closed (fun _ => ?_) fun _ => ?_
  · exact ((upTo_closed hword (by simp) hpiece hdead).map _).bind fun text => extraQuotes_closed h text
  · exact ((upTo_dead (by simp) hdead).map _).bind _

theorem keyPart_closed : Closed keyPart :=
  (skip?_closed (by decide)).bind fun _ => .ite (literalStr_closed.map _) <|
    (skip?_closed (by decide)).bind fun _ => .ite (basicStr_closed.map _) <|
      (spanWhile_closed (by decide)).bind fun _ => .ite .failure (.pure _)

/-- A dotted key, part by part. -/
theorem keyWithin_closed (n : Nat) : Closed (keyWithin n) := by
  induction n with
  | zero => exact .failure
  | succ n ih =>
    exact keyPart_closed.bind fun _ => ws_closed.bind fun _ => (skip?_closed (by decide)).bind fun _ =>
      .ite (ws_closed.bind fun _ => ih.map _) (.pure _)

theorem keyWithin_mono {n m : Nat} (h : n ≤ m) : Below (keyWithin n) (keyWithin m) := by
  induction n generalizing m with
  | zero => exact .failure _
  | succ n ih =>
    cases m with
    | zero => omega
    | succ m =>
      exact (Below.refl _).bind fun _ => (Below.refl _).bind fun _ => (Below.refl _).bind fun _ =>
        .ite ((Below.refl _).bind fun _ => (ih (Nat.le_of_succ_le_succ h)).map _) (.refl _)

theorem key_closed : Closed key := fueled_closed keyWithin_closed keyWithin_mono

/-! ## Numbers, dates and times: what is left of a line is its end -/

/-- Digits with underscores between them. -/
theorem moreDigits_suffix (ok : Char → Bool) (s : List Char) : moreDigits ok s <:+ s := by
  induction s using moreDigits.induct ok with
  | case1 => exact List.suffix_rfl
  | case2 c h => simp [moreDigits, h]
  | case3 c h => simp [moreDigits, h]
  | case4 c d s h ih =>
    rw [moreDigits, if_pos h]
    exact ih.trans (List.suffix_cons c _)
  | case5 c d s h h' ih =>
    rw [moreDigits, if_neg h, if_pos h']
    exact ih.trans ((List.suffix_cons d s).trans (List.suffix_cons c _))
  | case6 c d s h h' => simp [moreDigits, h, h']

theorem digits_suffix {first ok : Char → Bool} {s r : List Char} (h : digits first ok s = some r) : r <:+ s := by
  cases s with
  | nil => exact absurd h (by simp [digits])
  | cons c s =>
    simp only [digits, Option.ite_none_right_eq_some, Option.some.injEq] at h
    exact h.2 ▸ (moreDigits_suffix ok s).trans (List.suffix_cons c s)

theorem dropSign_suffix (s : List Char) : dropSign s <:+ s := by
  unfold dropSign
  split
  · exact List.suffix_cons _ _
  · exact List.suffix_cons _ _
  · exact List.suffix_rfl

theorem radixNumber_suffix {line r : List Char} {n : Int} (h : radixNumber line = some (n, r)) : r <:+ line := by
  unfold radixNumber at h
  split at h
  · rename_i radix s
    obtain ⟨rest, hrest, hx⟩ := Option.map_eq_some_iff.mp h
    cases hx
    exact (digits_suffix hrest).trans ((List.suffix_cons radix s).trans (List.suffix_cons _ _))
  · cases h

theorem integerPart_suffix {line r : List Char} (h : integerPart line = some r) : r <:+ line := by
  unfold integerPart at h
  split at h
  · rename_i s heq
    cases h
    exact (List.suffix_cons '0' _).trans (heq ▸ dropSign_suffix line)
  · exact (digits_suffix h).trans (dropSign_suffix line)

theorem fractionPart_suffix (s : List Char) : fractionPart s <:+ s := by
  unfold fractionPart
  split
  · rename_i s
    cases hd : digits Char.isDigit Char.isDigit s with
    | none => exact List.suffix_rfl
    | some r => exact (digits_suffix hd).trans (List.suffix_cons _ _)
  · exact List.suffix_rfl

theorem exponentPart_suffix (s : List Char) : exponentPart s <:+ s := by
  cases s with
  | nil => exact List.suffix_rfl
  | cons c s =>
    rw [exponentPart]
    split
    · cases hd : digits Char.isDigit Char.isDigit (dropSign s) with
      | none => exact List.suffix_rfl
      | some r => exact (digits_suffix hd).trans ((dropSign_suffix s).trans (List.suffix_cons c s))
    · exact List.suffix_rfl

variable {parseFloat : List Char → Option φ}

/-- A number leaves what is behind its last digit, whichever of the forms it has. -/
theorem number_suffix {line r : List Char} {v : Value φ} (h : number parseFloat line = some (v, r)) : r <:+ line := by
  unfold number at h
  split at h
  · rename_i n rest hn
    cases h
    exact radixNumber_suffix hn
  · obtain ⟨whole, hwhole, h⟩ := Option.bind_eq_some_iff.mp h
    have hsuffix := ((exponentPart_suffix _).trans (fractionPart_suffix whole)).trans (integerPart_suffix hwhole)
    dsimp only at h
    split at h
    · obtain ⟨n, -, hx⟩ := Option.map_eq_some_iff.mp h
      cases hx
      exact hsuffix
    · obtain ⟨x, -, hx⟩ := Option.map_eq_some_iff.mp h
      cases hx
      exact hsuffix

/-- So do the three words for floats. -/
theorem specialFloat_suffix {line r : List Char} {v : Value φ} (h : specialFloat parseFloat line = some (v, r)) :
    r <:+ line := by
  unfold specialFloat at h
  dsimp only at h
  split at h
  · obtain ⟨x, -, hx⟩ := Option.map_eq_some_iff.mp h
    cases hx
    exact (List.drop_suffix 3 _).trans (dropSign_suffix line)
  · cases h

theorem twoDigits_shrinks (low high : Nat) : Shrinks (twoDigits low high) :=
  ((charIf_settled _).bind fun _ => (charIf_settled _).bind fun _ => .ite (.pure _) .failure).shrinks

theorem fractionOfSecond_shrinks : Shrinks fractionOfSecond := by
  intro line micros r h
  unfold fractionOfSecond at h
  split at h
  · dsimp only at h
    split at h
    · cases h
      exact List.suffix_rfl
    · cases h
      exact (List.dropWhile_suffix _).trans (List.suffix_cons _ _)
  · cases h
    exact List.suffix_rfl

theorem timeOfDay_shrinks : Shrinks timeOfDay :=
  (twoDigits_shrinks 0 23).bind fun _ => (charIf_settled _).shrinks.bind fun _ =>
    (twoDigits_shrinks 0 59).bind fun _ => (charIf_settled _).shrinks.bind fun _ =>
      (twoDigits_shrinks 0 59).bind fun _ => fractionOfSecond_shrinks.bind fun _ => .pure _

theorem offset_shrinks : Shrinks offset := by
  refine char_settled.shrinks.bind fun c => ?_
  split
  · exact .pure _
  · split
    · exact (twoDigits_shrinks 0 23).bind fun _ => (charIf_settled _).shrinks.bind fun _ =>
        (twoDigits_shrinks 0 59).bind fun _ => .pure _
    · exact Settled.failure.shrinks

/-- What may be missing leaves the text as it is. -/
theorem optional_shrinks {α : Type} {p : Reader α} (hp : Shrinks p) : Shrinks (optional p) := by
  intro s a r h
  unfold optional at h
  split at h <;> rename_i hps
  · cases h
    exact hp _ _ _ hps
  · cases h
    exact List.suffix_rfl

theorem dateAndTime_shrinks : Shrinks dateAndTime :=
  (charIf_settled _).shrinks.bind fun _ => (charIf_settled _).shrinks.bind fun _ =>
    (twoDigits_shrinks 0 99).bind fun _ => (charIf_settled _).shrinks.bind fun _ =>
      (twoDigits_shrinks 1 12).bind fun _ => (charIf_settled _).shrinks.bind fun _ =>
        (twoDigits_shrinks 1 31).bind fun _ =>
          (optional_shrinks ((charIf_settled _).shrinks.bind fun _ => timeOfDay_shrinks.bind fun _ =>
            (optional_shrinks offset_shrinks).bind fun _ => .pure _)).bind fun _ => .pure _

/-- A value that is no string, no array and no table. -/
theorem plainValue_shrinks : Shrinks (plainValue parseFloat) := by
  intro line v r h
  unfold plainValue at h
  split at h
  · rename_i stamp rest hdate
    split at h
    · cases h
      exact dateAndTime_shrinks _ _ _ hdate
    · cases h
  · split at h
    · rename_i htime
      cases h
      exact timeOfDay_shrinks _ _ _ htime
    · split at h
      · rename_i hnumber
        cases h
        exact number_suffix hnumber
      · exact specialFloat_suffix h

/-! ## Values -/

/-- A choice by the word that comes next. -/
theorem telling_closed {word : List Char} (hword : '\n' ∉ word) {read other : Reader (Value φ)} (hread : Closed read)
    (hother : Closed other) : Closed (telling word read other) :=
  (skip?_closed hword).bind fun _ => .ite hread hother

theorem telling_dead {word : List Char} (hne : word ≠ []) {read other : Reader (Value φ)} (h : Dead other) :
    Dead (telling word read other) :=
  dead_skip? hne h

theorem onLine_dead : Dead (onLine (plainValue parseFloat)) := rfl

/-- Every value has a character. -/
theorem valueWithin_dead (n : Nat) : Dead (valueWithin parseFloat n) := by
  cases n with
  | zero => rfl
  | succ n =>
    rw [valueWithin]
    iterate 8 refine telling_dead (by decide) ?_
    exact onLine_dead

theorem itemsWithin_dead (n : Nat) : Dead (itemsWithin parseFloat n) := by
  cases n with
  | zero => rfl
  | succ n =>
    rw [itemsWithin]
    exact (valueWithin_dead n).bind _

mutual

/-- **Values are closed**, together with the items of an array and the pairs of an inline table, by induction on the
fuel. -/
theorem valueWithin_closed : ∀ n, Closed (valueWithin parseFloat n)
  | 0 => .failure
  | n + 1 => by
    rw [valueWithin]
    refine telling_closed (by decide) ((multilineStr_closed (by decide) (basicPiece_settled true)
      (basicPiece_dead true)).map _) ?_
    refine telling_closed (by decide) (basicStr_closed.map _) ?_
    refine telling_closed (by decide) ((multilineStr_closed (by decide) (literalPiece_settled true)
      (literalPiece_dead true)).map _) ?_
    refine telling_closed (by decide) (literalStr_closed.map _) ?_
    refine telling_closed (by decide) (.pure _) (telling_closed (by decide) (.pure _) ?_)
    refine telling_closed (by decide) ?_ (telling_closed (by decide) ?_ (onLine_closed plainValue_shrinks))
    · -- after the blanks of an array comes its end or an item
      refine arrayWs_settled.bind_closed (fun _ => ?_) fun _ => ?_
      · exact telling_closed (by decide) (.pure _) ((itemsWithin_closed n).map _)
      · exact telling_dead (by decide) ((itemsWithin_dead n).map _)
    · exact ws_closed.bind fun _ => telling_closed (by decide) (.pure _) ((pairsWithin_closed n [] []).map _)

theorem itemsWithin_closed : ∀ n, Closed (itemsWithin parseFloat n)
  | 0 => .failure
  | n + 1 => by
    rw [itemsWithin]
    refine (valueWithin_closed n).bind fun v => arrayWs_settled.bind_closed (fun _ => ?_) fun _ => ?_
    · refine (skip?_closed (by decide)).bind fun _ => .ite (.pure _) ?_
      refine (charIf_closed (by decide)).bind fun _ => arrayWs_settled.bind_closed (fun _ => ?_) fun _ => ?_
      · exact (skip?_closed (by decide)).bind fun _ => .ite (.pure _) ((itemsWithin_closed n).map _)
      · exact dead_skip? (by decide) ((itemsWithin_dead n).map _)
    · exact dead_skip? (by decide) ((charIf_dead _).bind _)

theorem pairsWithin_closed : ∀ n namespaces entries, Closed (pairsWithin parseFloat n namespaces entries)
  | 0, _, _ => .failure
  | n + 1, namespaces, entries => by
    rw [pairsWithin]
    refine key_closed.bind fun path => (charIf_closed (by decide)).bind fun _ => ws_closed.bind fun _ =>
      (valueWithin_closed n).bind fun v => ?_
    split
    · refine ws_closed.bind fun _ => (skip?_closed (by decide)).bind fun _ => .ite (.pure _) ?_
      exact (charIf_closed (by decide)).bind fun _ => ws_closed.bind fun _ => pairsWithin_closed n _ _
    · exact .failure

end

theorem telling_mono {word : List Char} {read read' other other' : Reader (Value φ)} (hread : Below read read')
    (hother : Below other other') : Below (telling word read other) (telling word read' other') :=
  (Below.refl _).bind fun _ => .ite hread hother

mutual

/-- What a value is read as with some fuel, it is with more. -/
theorem valueWithin_mono : ∀ {n m}, n ≤ m → Below (valueWithin parseFloat n) (valueWithin parseFloat m)
  | 0, _, _ => .failure _
  | n + 1, 0, h => absurd h (by omega)
  | n + 1, m + 1, h => by
    have hle := Nat.le_of_succ_le_succ h
    rw [valueWithin, valueWithin]
    iterate 6 refine telling_mono (.refl _) ?_
    refine telling_mono ?_ (telling_mono ?_ (.refl _))
    · exact (Below.refl _).bind fun _ => telling_mono (.refl _) ((itemsWithin_mono hle).map _)
    · exact (Below.refl _).bind fun _ => telling_mono (.refl _) ((pairsWithin_mono hle [] []).map _)

theorem itemsWithin_mono : ∀ {n m}, n ≤ m → Below (itemsWithin parseFloat n) (itemsWithin parseFloat m)
  | 0, _, _ => .failure _
  | n + 1, 0, h => absurd h (by omega)
  | n + 1, m + 1, h => by
    have hle := Nat.le_of_succ_le_succ h
    rw [itemsWithin, itemsWithin]
    refine (valueWithin_mono hle).bind fun v => (Below.refl _).bind fun _ => (Below.refl _).bind fun _ =>
      .ite (.refl _) ?_
    exact (Below.refl _).bind fun _ => (Below.refl _).bind fun _ => (Below.refl _).bind fun _ =>
      .ite (.refl _) ((itemsWithin_mono hle).map _)

theorem pairsWithin_mono : ∀ {n m}, n ≤ m → ∀ namespaces entries,
    Below (pairsWithin parseFloat n namespaces entries) (pairsWithin parseFloat m namespaces entries)
  | 0, _, _, _, _ => .failure _
  | n + 1, 0, h, _, _ => absurd h (by omega)
  | n + 1, m + 1, h, namespaces, entries => by
    have hle := Nat.le_of_succ_le_succ h
    rw [pairsWithin, pairsWithin]
    refine (Below.refl _).bind fun path => (Below.refl _).bind fun _ => (Below.refl _).bind fun _ =>
      (valueWithin_mono hle).bind fun v => ?_
    split
    · refine (Below.refl _).bind fun _ => (Below.refl _).bind fun _ => .ite (.refl _) ?_
      exact (Below.refl _).bind fun _ => (Below.refl _).bind fun _ => pairsWithin_mono hle _ _
    · exact .refl _

end

theorem value_closed : Closed (value parseFloat) := fueled_closed valueWithin_closed valueWithin_mono

/-! ## Lines -/

theorem lineEnds_closed : Closed lineEnds where
  suffix h := by
    cases h
    exact List.suffix_rfl
  again {s a r t} h hr _ := by
    cases h
    cases s with
    | nil => exact absurd rfl hr
    | cons c s => rfl
  inLine h := by
    obtain rfl := congrArg Prod.snd (Option.some.inj h)
    exact not_terminated_nil
  leaves {s a} h := by
    cases s with
    | nil =>
      cases h
      rfl
    | cons c s => exact absurd (congrArg Prod.snd (Option.some.inj h)) (by simp)

/-- A header or a pair, up to the end of what it needs of its line. -/
theorem statement_closed : Closed (line.statement parseFloat) := by
  refine (skip?_closed (by decide)).bind fun _ => .ite ?_ ((skip?_closed (by decide)).bind fun _ => .ite ?_
    (lineEnds_closed.bind fun _ => .ite (.pure _) ?_))
  · exact ws_closed.bind fun _ => key_closed.bind fun _ => (charIf_closed (by decide)).bind fun _ =>
      (charIf_closed (by decide)).bind fun _ => ws_closed.bind fun _ => .pure _
  · exact ws_closed.bind fun _ => key_closed.bind fun _ => (charIf_closed (by decide)).bind fun _ =>
      ws_closed.bind fun _ => .pure _
  · exact key_closed.bind fun _ => (charIf_closed (by decide)).bind fun _ => ws_closed.bind fun _ =>
      value_closed.bind fun _ => ws_closed.bind fun _ => .pure _

theorem line_closed : Closed (line parseFloat) :=
  ws_closed.bind fun _ => statement_closed.bind fun _ => comment_closed.bind fun _ => .pure _

/-! ## Texts -/

theorem statementsWithin_nil (n : Nat) : statementsWithin parseFloat (n + 1) [] = some [] := rfl

theorem lineFeeds_cons {c : Char} {s : List Char} (h : c = '\r' → s.head? ≠ some '\n') :
    lineFeeds (c :: s) = c :: lineFeeds s := by
  rw [lineFeeds.eq_2]
  rintro s' rfl rfl
  exact h rfl rfl

/-- A line feed is a place to cut: it goes with the carriage return before it. -/
theorem lineFeeds_append_feed (s t : List Char) :
    lineFeeds (s ++ '\n' :: t) = lineFeeds (s ++ ['\n']) ++ lineFeeds t := by
  induction s using lineFeeds.induct with
  | case1 s ih => simp [lineFeeds, ih]
  | case2 c s hc ih =>
    by_cases hcr : c = '\r' ∧ s = []
    · obtain ⟨rfl, rfl⟩ := hcr
      simp [lineFeeds]
    · have hhead : ∀ u : List Char, c = '\r' → (s ++ '\n' :: u).head? ≠ some '\n' := by
        rintro u rfl
        cases s with
        | nil => exact absurd ⟨rfl, rfl⟩ hcr
        | cons d s =>
          simp only [List.cons_append, List.head?_cons, ne_eq, Option.some.injEq]
          rintro rfl
          exact hc s rfl rfl
      rw [List.cons_append, List.cons_append, lineFeeds_cons (hhead t), lineFeeds_cons (hhead []), ih]
      rfl
  | case3 => simp [lineFeeds]

/-- A text that has statements has no carriage return but those in front of line feeds. -/
theorem statements_some {s : List Char} {sts : List (Statement φ)} (h : statements parseFloat s = some sts) :
    '\r' ∉ lineFeeds s ∧ statementsWithin parseFloat ((lineFeeds s).length + 1) (lineFeeds s) = some sts := by
  rw [statements] at h
  split at h <;> rename_i hcr
  · cases h
  · exact ⟨hcr, h⟩

end Pirewall.Lib.Toml
