/-
# Pirewall.Lib.Reader -- readers of a text, and how far they look

A reader takes characters off the front of a text or fails. Two properties say what it makes of a text that is cut in
two. A reader is *settled* when it does not look past the lines it was given: what it read of a text that ends in a
line feed, or that only a line feed follows, it reads again with more text behind it. It is *closed* when in addition
it may stop at the end of the text, which is then not the end of a line, and leaves a line feed there alone. Both are
kept by sequencing, so a reader built from such ones is one by its shape.

`onLine` shows a reader the rest of its line only, and is closed: so a reader that backtracks, or that looks ahead, is
used through it, and only has to leave an end of what it saw (`Shrinks`).

A reader that calls itself is given fuel. `Below` compares what it reads with different amounts, and `fueled` gives as
many steps as there are characters; more would make no difference, since a reader that repeats takes one at least
(`Dead` says that it needs one). Nothing here names the program.
-/
import Mathlib.Data.List.TakeWhile
import Mathlib.Tactic

namespace Pirewall.Lib

/-- A reader of a text: its result and the characters that are left. -/
abbrev Reader (α : Type) := StateT (List Char) Option α

/-- A text that ends in a line feed. -/
def Terminated (s : List Char) : Prop := s.getLast? = some '\n'

/-- What may be put behind a text: anything if its last line is complete, else the line feed that completes it. -/
def Safe (s t : List Char) : Prop := Terminated s ∨ t = ['\n']

section Texts

variable {s t r : List Char}

/-- The empty text does not end in a line feed. -/
theorem not_terminated_nil : ¬Terminated [] := by simp [Terminated]

theorem Terminated.of_suffix (h : Terminated s) (hr : r <:+ s) (hne : r ≠ []) : Terminated r := by
  obtain ⟨front, rfl⟩ := hr
  rwa [Terminated, List.getLast?_append_of_ne_nil _ hne] at h

theorem Safe.of_suffix (h : Safe s t) (hr : r <:+ s) (hne : r ≠ []) : Safe r t :=
  h.imp_left fun h => h.of_suffix hr hne

/-- A word without a line feed is not completed by what may follow. -/
theorem isPrefixOf_append {word : List Char} (hword : '\n' ∉ word) (h : Safe s t) :
    word.isPrefixOf (s ++ t) = word.isPrefixOf s := by
  rw [Bool.eq_iff_iff, List.isPrefixOf_iff_prefix, List.isPrefixOf_iff_prefix]
  refine ⟨?_, fun hpre => hpre.trans (List.prefix_append s t)⟩
  rintro ⟨rest, hrest⟩
  rcases List.append_eq_append_iff.mp hrest with ⟨more, rfl, -⟩ | ⟨more, rfl, ht⟩
  · exact List.prefix_append word more
  · cases more with
    | nil => simp
    | cons c more =>
      exfalso
      rcases h with h | rfl
      · exact hword (List.mem_append_left _ (List.mem_of_getLast? h))
      · obtain rfl : '\n' = c := List.head_eq_of_cons_eq ht
        exact hword (by simp)

end Texts

namespace Reader

variable {α β : Type}

/-! ## Settled and closed readers -/

/-- It does not look past the lines it was given. -/
structure Settled (p : Reader α) : Prop where
  suffix : ∀ {s a r}, p s = some (a, r) → r <:+ s
  again : ∀ {s a r t}, p s = some (a, r) → r ≠ [] → Safe s t → p (s ++ t) = some (a, r ++ t)

/-- It can stop at the end of a text, in the middle of a line. -/
structure Closed (p : Reader α) : Prop extends Settled p where
  inLine : ∀ {s a}, p s = some (a, []) → ¬Terminated s
  leaves : ∀ {s a}, p s = some (a, []) → p (s ++ ['\n']) = some (a, ['\n'])

theorem bind_eq {p : Reader α} {f : α → Reader β} (s : List Char) :
    (p >>= f) s = (p s).bind fun x => f x.1 x.2 := rfl

theorem bind_some {p : Reader α} {f : α → Reader β} {s r : List Char} {b : β} (h : (p >>= f) s = some (b, r)) :
    ∃ a rest, p s = some (a, rest) ∧ f a rest = some (b, r) := by
  rw [bind_eq, Option.bind_eq_some_iff] at h
  obtain ⟨⟨a, rest⟩, hp, hf⟩ := h
  exact ⟨a, rest, hp, hf⟩

theorem bind_of_some {p : Reader α} {f : α → Reader β} {s rest : List Char} {a : α} (h : p s = some (a, rest)) :
    (p >>= f) s = f a rest := by
  rw [bind_eq, h]
  rfl

theorem map_eq {p : Reader α} {f : α → β} (s : List Char) : (f <$> p) s = (p s).map fun x => (f x.1, x.2) := by
  change (p s).bind _ = _
  cases p s <;> rfl

theorem pure_eq_some {a b : α} {s r : List Char} : (pure a : Reader α) s = some (b, r) ↔ a = b ∧ s = r :=
  ⟨fun h => by cases h; exact ⟨rfl, rfl⟩, fun h => by rw [h.1, h.2]; rfl⟩

theorem failure_eq (s : List Char) : (failure : Reader α) s = none := rfl

/-- What it leaves is the end of what it was given. -/
def Shrinks (p : Reader α) : Prop := ∀ s a r, p s = some (a, r) → r <:+ s

/-- One after the other, readers leave an end of what they were given. -/
theorem Shrinks.bind {p : Reader α} {f : α → Reader β} (hp : Shrinks p) (hf : ∀ a, Shrinks (f a)) :
    Shrinks (p >>= f) := by
  intro s b r h
  obtain ⟨a, rest, hpa, hfa⟩ := bind_some h
  exact (hf a _ _ _ hfa).trans (hp _ _ _ hpa)

theorem Shrinks.pure (a : α) : Shrinks (pure a : Reader α) := fun _ _ _ h => (pure_eq_some.mp h).2 ▸ List.suffix_rfl

theorem Settled.shrinks {p : Reader α} (hp : Settled p) : Shrinks p := fun _ _ _ h => hp.suffix h

/-- What a sequence leaves to its second reader, when something is left in the end. -/
theorem Settled.ne_nil {p : Reader α} (hp : Settled p) {s r : List Char} {a : α} (h : p s = some (a, r))
    (hr : r ≠ []) : s ≠ [] := by
  rintro rfl
  exact hr (List.suffix_nil.mp (hp.suffix h))

theorem Settled.bind {p : Reader α} {f : α → Reader β} (hp : Settled p) (hf : ∀ a, Settled (f a)) :
    Settled (p >>= f) where
  suffix h := hp.shrinks.bind (fun a => (hf a).shrinks) _ _ _ h
  again h hr hsafe := by
    obtain ⟨a, rest, hpa, hfa⟩ := bind_some h
    have hrest : rest ≠ [] := (hf a).ne_nil hfa hr
    rw [bind_of_some (hp.again hpa hrest hsafe)]
    exact (hf a).again hfa hr (hsafe.of_suffix (hp.suffix hpa) hrest)

theorem Settled.pure (a : α) : Settled (pure a : Reader α) where
  suffix h := Shrinks.pure a _ _ _ h
  again h _ _ := by
    obtain ⟨rfl, rfl⟩ := pure_eq_some.mp h
    rfl

theorem Closed.pure (a : α) : Closed (pure a : Reader α) where
  toSettled := .pure a
  inLine h := by
    obtain ⟨-, rfl⟩ := pure_eq_some.mp h
    exact not_terminated_nil
  leaves h := by
    obtain ⟨rfl, rfl⟩ := pure_eq_some.mp h
    rfl

theorem Settled.failure : Settled (failure : Reader α) where
  suffix h := absurd h (by simp [failure_eq])
  again h := absurd h (by simp [failure_eq])

theorem Closed.failure : Closed (failure : Reader α) where
  toSettled := .failure
  inLine h := absurd h (by simp [failure_eq])
  leaves h := absurd h (by simp [failure_eq])

/-- One after the other, closed readers are closed: if the first stops at the end of the text, the second was given the
empty text, and a line feed put there is its own to leave. -/
theorem Closed.bind {p : Reader α} {f : α → Reader β} (hp : Closed p) (hf : ∀ a, Closed (f a)) :
    Closed (p >>= f) where
  toSettled := hp.toSettled.bind fun a => (hf a).toSettled
  inLine {s b} h := by
    obtain ⟨a, rest, hpa, hfa⟩ := bind_some h
    rcases eq_or_ne rest [] with rfl | hrest
    · exact hp.inLine hpa
    · exact fun hs => (hf a).inLine hfa (hs.of_suffix (hp.suffix hpa) hrest)
  leaves {s b} h := by
    obtain ⟨a, rest, hpa, hfa⟩ := bind_some h
    rcases eq_or_ne rest [] with rfl | hrest
    · rw [bind_of_some (hp.leaves hpa)]
      exact (hf a).leaves hfa
    · rw [bind_of_some (hp.again hpa hrest (.inr rfl))]
      exact (hf a).leaves hfa

/-- It needs a character. -/
def Dead (p : Reader α) : Prop := p [] = none

/-- A first reader that is only settled must not be the one that meets the end of the text. -/
theorem Settled.bind_closed {p : Reader α} {f : α → Reader β} (hp : Settled p) (hf : ∀ a, Closed (f a))
    (hdead : ∀ a, Dead (f a)) : Closed (p >>= f) := by
  have hrest : ∀ {s rest a b}, p s = some (a, rest) → f a rest = some (b, []) → rest ≠ [] := by
    rintro s rest a b - hfa rfl
    exact absurd (hdead a) (by simp [Dead, hfa])
  refine ⟨hp.bind fun a => (hf a).toSettled, ?_, ?_⟩
  · intro s b h
    obtain ⟨a, rest, hpa, hfa⟩ := bind_some h
    exact fun hs => (hf a).inLine hfa (hs.of_suffix (hp.suffix hpa) (hrest hpa hfa))
  · intro s b h
    obtain ⟨a, rest, hpa, hfa⟩ := bind_some h
    rw [bind_of_some (hp.again hpa (hrest hpa hfa) (.inr rfl))]
    exact (hf a).leaves hfa

theorem Settled.ite {c : Prop} [Decidable c] {p q : Reader α} (hp : Settled p) (hq : Settled q) :
    Settled (if c then p else q) := by
  split
  · exact hp
  · exact hq

theorem Closed.ite {c : Prop} [Decidable c] {p q : Reader α} (hp : Closed p) (hq : Closed q) :
    Closed (if c then p else q) := by
  split
  · exact hp
  · exact hq

theorem Closed.map {p : Reader α} (hp : Closed p) (f : α → β) : Closed (f <$> p) :=
  hp.bind fun a => .pure (f a)

theorem Dead.bind {p : Reader α} (hp : Dead p) (f : α → Reader β) : Dead (p >>= f) := by
  rw [Dead, bind_eq, hp]
  rfl

theorem Dead.map {p : Reader α} (hp : Dead p) (f : α → β) : Dead (f <$> p) := hp.bind fun a => pure (f a)

/-! ## Readers -/

/-- Skip a word if it comes next, and say so. -/
def skip? (word : List Char) : Reader Bool := fun s =>
  if word.isPrefixOf s then some (true, s.drop word.length) else some (false, s)

theorem skip?_closed {word : List Char} (hword : '\n' ∉ word) : Closed (skip? word) where
  suffix {s a r} h := by
    rw [skip?] at h
    split at h
    · cases h
      exact List.drop_suffix _ _
    · cases h
      exact List.suffix_rfl
  again {s a r t} h hr hsafe := by
    rw [skip?] at h ⊢
    rw [isPrefixOf_append hword hsafe]
    split at h <;> rename_i hpre
    · cases h
      rw [if_pos hpre, List.drop_append_of_le_length (List.isPrefixOf_iff_prefix.mp hpre).length_le]
    · cases h
      rw [if_neg hpre]
  inLine {s a} h := by
    rw [skip?] at h
    split at h <;> rename_i hpre
    · have hs : s = word := by
        obtain ⟨rest, rfl⟩ := List.isPrefixOf_iff_prefix.mp hpre
        simp at h
        simp [h]
      exact fun hterminated => hword (hs ▸ List.mem_of_getLast? hterminated)
    · cases h
      exact not_terminated_nil
  leaves {s a} h := by
    rw [skip?] at h ⊢
    rw [isPrefixOf_append hword (.inr rfl)]
    split at h <;> rename_i hpre
    · obtain ⟨rest, rfl⟩ := List.isPrefixOf_iff_prefix.mp hpre
      simp at h
      simp [h]
    · cases h
      rw [if_neg hpre]
      rfl

@[simp]
theorem skip?_append (word s : List Char) : skip? word (word ++ s) = some (true, s) := by
  rw [skip?, if_pos (List.isPrefixOf_iff_prefix.mpr (List.prefix_append word s)), List.drop_left]

theorem skip?_cons (c : Char) (s : List Char) : skip? [c] (c :: s) = some (true, s) := skip?_append [c] s

theorem skip?_of_not {word s : List Char} (h : ¬word <+: s) : skip? word s = some (false, s) := by
  rw [skip?, if_neg fun hpre => h (List.isPrefixOf_iff_prefix.mp hpre)]

/-- A word is not there if its first character is not. -/
theorem skip?_true {word s r : List Char} (h : skip? word s = some (true, r)) : s = word ++ r := by
  rw [skip?] at h
  split at h
  · rename_i hpre
    cases h
    obtain ⟨rest, rfl⟩ := List.isPrefixOf_iff_prefix.mp hpre
    rw [List.drop_left]
  · cases h

theorem skip?_false {word s r : List Char} (h : skip? word s = some (false, r)) : r = s ∧ ¬word <+: s := by
  rw [skip?] at h
  split at h
  · cases h
  · rename_i hpre
    cases h
    exact ⟨rfl, fun hprefix => hpre (List.isPrefixOf_iff_prefix.mpr hprefix)⟩

theorem not_isPrefix_of_head {c : Char} {word s : List Char} (h : s.head? ≠ some c) : ¬(c :: word) <+: s := by
  rintro ⟨rest, rfl⟩
  exact h rfl

theorem skip?_nil {word : List Char} (hne : word ≠ []) : skip? word [] = some (false, []) := by
  rw [skip?, if_neg (by simp [hne])]

/-- A choice that begins with a word is not made at the end of the text. -/
theorem dead_skip? {word : List Char} (hne : word ≠ []) {f : Bool → Reader α} (h : Dead (f false)) :
    Dead (skip? word >>= f) := by
  rw [Dead, bind_of_some (skip?_nil hne)]
  exact h

/-- The characters that satisfy `p`, as far as they go. -/
def spanWhile (p : Char → Bool) : Reader (List Char) := fun s => some (s.takeWhile p, s.dropWhile p)

theorem takeWhile_length_lt {p : Char → Bool} {s : List Char} (h : s.dropWhile p ≠ []) :
    (s.takeWhile p).length ≠ s.length := by
  have hlen := congrArg List.length (List.takeWhile_append_dropWhile (p := p) (l := s))
  rw [List.length_append] at hlen
  have hpos := List.length_pos_iff.mpr h
  omega

/-- A span that is followed by something else. -/
theorem spanWhile_append {p : Char → Bool} {t s : List Char} (ht : ∀ c ∈ t, p c = true)
    (hs : ∀ c, s.head? = some c → p c = false) : spanWhile p (t ++ s) = some (t, s) := by
  have hstop : s.takeWhile p = [] ∧ s.dropWhile p = s := by
    cases s with
    | nil => simp
    | cons c s => simp [hs c rfl]
  rw [spanWhile, List.takeWhile_append_of_pos ht, List.dropWhile_append_of_pos ht, hstop.1, hstop.2, List.append_nil]

/-- A span that ends before the text does ends where it did with more text behind it. -/
theorem spanWhile_settled (p : Char → Bool) : Settled (spanWhile p) where
  suffix h := by
    cases h
    exact List.dropWhile_suffix p
  again {s a r t} h hr _ := by
    cases h
    rw [spanWhile, List.takeWhile_append, List.dropWhile_append, if_neg (takeWhile_length_lt hr),
      if_neg (by simpa using hr)]

/-- A span that stops at line feeds. -/
theorem spanWhile_closed {p : Char → Bool} (hp : p '\n' = false) : Closed (spanWhile p) where
  toSettled := spanWhile_settled p
  inLine {s a} h hs := by
    have hdrop : s.dropWhile p = [] := congrArg Prod.snd (Option.some.inj h)
    have := List.dropWhile_eq_nil_iff.mp hdrop _ (List.mem_of_getLast? hs)
    rw [hp] at this
    exact absurd this (by decide)
  leaves {s a} h := by
    have hdrop : s.dropWhile p = [] := congrArg Prod.snd (Option.some.inj h)
    have htake : s.takeWhile p = s := List.takeWhile_eq_self_iff.mpr (List.dropWhile_eq_nil_iff.mp hdrop)
    obtain rfl : s.takeWhile p = a := congrArg Prod.fst (Option.some.inj h)
    rw [spanWhile, List.takeWhile_append, List.dropWhile_append, if_pos (by rw [htake]), if_pos (by rw [hdrop]; rfl)]
    simp [hp, htake]

/-- Any character. -/
def char : Reader Char
  | [] => none
  | c :: s => some (c, s)

theorem char_some {s r : List Char} {c : Char} : char s = some (c, r) ↔ s = c :: r := by
  cases s with
  | nil => simp [char]
  | cons d s => simp [char]

theorem char_dead : Dead char := rfl

theorem char_settled : Settled char where
  suffix {s c r} h := char_some.mp h ▸ List.suffix_cons c r
  again h _ _ := by
    obtain rfl := char_some.mp h
    rfl

/-- A character that satisfies `p`. -/
def charIf (p : Char → Bool) : Reader Char := char >>= fun c => if p c then pure c else failure

theorem charIf_some {p : Char → Bool} {s r : List Char} {c : Char} :
    charIf p s = some (c, r) ↔ s = c :: r ∧ p c = true := by
  refine ⟨fun h => ?_, ?_⟩
  · obtain ⟨d, rest, hd, hc⟩ := bind_some h
    obtain rfl := char_some.mp hd
    split at hc <;> rename_i hp
    · obtain ⟨rfl, rfl⟩ := pure_eq_some.mp hc
      exact ⟨rfl, hp⟩
    · exact absurd hc (by simp [failure_eq])
  · rintro ⟨rfl, hp⟩
    rw [charIf, bind_of_some (char_some.mpr rfl), if_pos hp]
    rfl

theorem charIf_dead (p : Char → Bool) : Dead (charIf p) := char_dead.bind _

theorem charIf_settled (p : Char → Bool) : Settled (charIf p) :=
  char_settled.bind fun _ => .ite (.pure _) .failure

theorem charIf_closed {p : Char → Bool} (hp : p '\n' = false) : Closed (charIf p) where
  toSettled := charIf_settled p
  inLine h hs := by
    obtain ⟨rfl, hc⟩ := charIf_some.mp h
    obtain rfl : _ = '\n' := by simpa [Terminated] using hs
    rw [hp] at hc
    exact absurd hc (by decide)
  leaves h := by
    obtain ⟨rfl, hc⟩ := charIf_some.mp h
    exact charIf_some.mpr ⟨rfl, hc⟩

/-- Read no further than the line goes: `f` sees the rest of it, without the line feed. -/
def onLine (f : Reader α) : Reader α := fun s =>
  (f (s.takeWhile (· != '\n'))).map fun x => (x.1, x.2 ++ s.dropWhile (· != '\n'))

theorem onLine_some {f : Reader α} {s r : List Char} {a : α} (h : onLine f s = some (a, r)) :
    ∃ rest, f (s.takeWhile (· != '\n')) = some (a, rest) ∧ r = rest ++ s.dropWhile (· != '\n') := by
  obtain ⟨⟨b, rest⟩, hb, hx⟩ := Option.map_eq_some_iff.mp h
  cases hx
  exact ⟨rest, hb, rfl⟩

theorem onLine_of_some {f : Reader α} {s rest : List Char} {a : α}
    (h : f (s.takeWhile (· != '\n')) = some (a, rest)) :
    onLine f s = some (a, rest ++ s.dropWhile (· != '\n')) := by
  rw [onLine, h]
  rfl

/-- As a span up to the line feed is, so is what reads in it. -/
theorem onLine_closed {f : Reader α} (hf : Shrinks f) : Closed (onLine f) := by
  have hspan : Closed (spanWhile (· != '\n')) := spanWhile_closed (by decide)
  have hagain : ∀ {s t a r}, spanWhile (· != '\n') (s ++ t) =
      some (s.takeWhile (· != '\n'), s.dropWhile (· != '\n') ++ t) →
      onLine f s = some (a, r) → onLine f (s ++ t) = some (a, r ++ t) := by
    intro s t a r hs h
    obtain ⟨rest, hrest, rfl⟩ := onLine_some h
    have htake := congrArg Prod.fst (Option.some.inj hs)
    have hdrop := congrArg Prod.snd (Option.some.inj hs)
    dsimp only at htake hdrop
    rw [onLine_of_some (by rw [htake]; exact hrest), hdrop, List.append_assoc]
  have hnil : ∀ {s a}, onLine f s = some (a, []) → s.dropWhile (· != '\n') = [] := by
    intro s a h
    obtain ⟨rest, -, hr⟩ := onLine_some h
    exact (List.append_eq_nil_iff.mp hr.symm).2
  refine ⟨⟨?_, ?_⟩, ?_, ?_⟩
  · intro s a r h
    obtain ⟨rest, hrest, rfl⟩ := onLine_some h
    obtain ⟨front, hfront⟩ := hf _ _ _ hrest
    exact ⟨front, by rw [← List.append_assoc, hfront, List.takeWhile_append_dropWhile]⟩
  · intro s a r t h _ hsafe
    rcases eq_or_ne (s.dropWhile (· != '\n')) [] with hdrop | hdrop
    · have hs : spanWhile (· != '\n') s = some (s.takeWhile (· != '\n'), []) := by rw [spanWhile, hdrop]
      rcases hsafe with hsafe | rfl
      · exact absurd hsafe (hspan.inLine hs)
      · exact hagain (by rw [hspan.leaves hs, hdrop]; rfl) h
    · exact hagain (hspan.again rfl hdrop hsafe) h
  · intro s a h
    exact hspan.inLine (a := s.takeWhile (· != '\n')) (by rw [spanWhile, hnil h])
  · intro s a h
    have hs : spanWhile (· != '\n') s = some (s.takeWhile (· != '\n'), []) := by rw [spanWhile, hnil h]
    exact hagain (by rw [hspan.leaves hs, hnil h]; rfl) h

/-! ## More fuel -/

/-- Whatever `p` reads, `q` reads. -/
def Below (p q : Reader α) : Prop := ∀ s x, p s = some x → q s = some x

theorem Below.refl (p : Reader α) : Below p p := fun _ _ h => h

theorem Below.failure (p : Reader α) : Below failure p := fun _ _ h => absurd h (by simp [failure_eq])

theorem Below.bind {p q : Reader α} {f g : α → Reader β} (hp : Below p q) (hf : ∀ a, Below (f a) (g a)) :
    Below (p >>= f) (q >>= g) := by
  rintro s ⟨b, r⟩ h
  obtain ⟨a, rest, hpa, hfa⟩ := bind_some h
  rw [bind_of_some (hp _ _ hpa)]
  exact hf a _ _ hfa

theorem Below.ite {c : Prop} [Decidable c] {p p' q q' : Reader α} (hp : Below p p') (hq : Below q q') :
    Below (if c then p else q) (if c then p' else q') := by
  split
  · exact hp
  · exact hq

theorem Below.map {p q : Reader α} (h : Below p q) (f : α → β) : Below (f <$> p) (f <$> q) :=
  h.bind fun a => Below.refl (pure (f a))

/-- A reader with as much fuel as the text has characters, and `spare`. -/
def fueled (spare : Nat) (p : Nat → Reader α) : Reader α := fun s => p (s.length + spare) s

section Fueled

variable {spare : Nat} {p : Nat → Reader α}

theorem fueled_settled (hp : ∀ n, Settled (p n)) (hmono : ∀ {n m}, n ≤ m → Below (p n) (p m)) :
    Settled (fueled spare p) where
  suffix h := (hp _).suffix h
  again {s a r t} h hr hsafe := by
    have hle : s.length + spare ≤ (s ++ t).length + spare := by
      rw [List.length_append]
      omega
    exact hmono hle _ _ ((hp _).again h hr hsafe)

/-- With fuel for every character, a closed reader is closed: more text means more fuel, and more fuel reads the same.
-/
theorem fueled_closed (hp : ∀ n, Closed (p n)) (hmono : ∀ {n m}, n ≤ m → Below (p n) (p m)) :
    Closed (fueled spare p) where
  toSettled := fueled_settled (fun n => (hp n).toSettled) hmono
  inLine h := (hp _).inLine h
  leaves {s a} h := by
    have hle : s.length + spare ≤ (s ++ ['\n']).length + spare := by
      rw [List.length_append]
      omega
    exact hmono hle _ _ ((hp _).leaves h)

end Fueled

/-! ## Repetition -/

/-- Pieces up to a closing word. -/
def upToWithin (word : List Char) (piece : Reader α) : Nat → Reader (List α)
  | 0 => failure
  | n + 1 => skip? word >>= fun closed =>
    if closed then pure [] else piece >>= fun a => (a :: ·) <$> upToWithin word piece n

/-- Pieces up to a closing word: there are no more than characters. -/
def upTo (word : List Char) (piece : Reader α) : Reader (List α) := fueled 1 (upToWithin word piece)

section UpTo

variable {word : List Char} {piece : Reader α}

/-- The closing word comes next, or a piece. -/
theorem upToWithin_some {n : Nat} {s r : List Char} {as : List α}
    (h : upToWithin word piece (n + 1) s = some (as, r)) :
    (as = [] ∧ s = word ++ r) ∨ ∃ a rest more, ¬word <+: s ∧ piece s = some (a, rest) ∧
      upToWithin word piece n rest = some (more, r) ∧ as = a :: more := by
  obtain ⟨closed, s₁, hskip, hread⟩ := bind_some h
  cases closed with
  | true =>
    rw [if_pos rfl] at hread
    obtain ⟨rfl, rfl⟩ := pure_eq_some.mp hread
    exact .inl ⟨rfl, skip?_true hskip⟩
  | false =>
    obtain ⟨rfl, hword⟩ := skip?_false hskip
    rw [if_neg Bool.false_ne_true] at hread
    obtain ⟨a, rest, hpiece, hread⟩ := bind_some hread
    rw [map_eq] at hread
    obtain ⟨⟨more, s₂⟩, hmore, heq⟩ := Option.map_eq_some_iff.mp hread
    cases heq
    exact .inr ⟨a, rest, more, hword, hpiece, hmore, rfl⟩

theorem upToWithin_dead (hne : word ≠ []) (hdead : Dead piece) (n : Nat) : Dead (upToWithin word piece n) := by
  cases n with
  | zero => rfl
  | succ n => exact dead_skip? hne (hdead.bind _)

/-- Pieces up to a closing word: the word ends them within the text. -/
theorem upToWithin_closed (hword : '\n' ∉ word) (hne : word ≠ []) (hpiece : Settled piece) (hdead : Dead piece)
    (n : Nat) : Closed (upToWithin word piece n) := by
  induction n with
  | zero => exact .failure
  | succ n ih =>
    refine (skip?_closed hword).bind fun closed => .ite (.pure _) (hpiece.bind_closed (fun a => ih.map _) fun a => ?_)
    exact (upToWithin_dead hne hdead n).map _

theorem upToWithin_mono {n m : Nat} (h : n ≤ m) : Below (upToWithin word piece n) (upToWithin word piece m) := by
  induction n generalizing m with
  | zero => exact .failure _
  | succ n ih =>
    cases m with
    | zero => omega
    | succ m =>
      exact (Below.refl _).bind fun closed => .ite (.refl _)
        ((Below.refl _).bind fun a => (ih (Nat.le_of_succ_le_succ h)).map _)

theorem upTo_closed (hword : '\n' ∉ word) (hne : word ≠ []) (hpiece : Settled piece) (hdead : Dead piece) :
    Closed (upTo word piece) :=
  fueled_closed (upToWithin_closed hword hne hpiece hdead) upToWithin_mono

theorem upTo_dead (hne : word ≠ []) (hdead : Dead piece) : Dead (upTo word piece) :=
  upToWithin_dead hne hdead 1

theorem length_le_length_flatMap {β : Type} {enc : β → List Char} {items : List β} (hne : ∀ b ∈ items, enc b ≠ []) :
    items.length ≤ (items.flatMap enc).length := by
  induction items with
  | nil => exact Nat.zero_le _
  | cons b items ih =>
    have hpos := List.length_pos_iff.mpr (hne b List.mem_cons_self)
    have ih := ih fun b hb => hne b (List.mem_cons_of_mem _ hb)
    rw [List.flatMap_cons, List.length_append, List.length_cons]
    omega

/-- Pieces that are read one by one, up to the closing word; one that cannot be read spoils them all. -/
theorem upToWithin_flatMap {β : Type} {enc : β → List Char} {dec : β → Option α} {items : List β} {s : List Char}
    (hword : ∀ b ∈ items, ∀ s, ¬word <+: enc b ++ s)
    (hpiece : ∀ b ∈ items, ∀ s, piece (enc b ++ s) = (dec b).map fun a => (a, s)) {n : Nat} (hn : items.length < n) :
    upToWithin word piece n (items.flatMap enc ++ (word ++ s)) = (items.mapM dec).map fun as => (as, s) := by
  induction items generalizing n with
  | nil =>
    obtain ⟨n, rfl⟩ := Nat.exists_eq_add_of_lt hn
    rw [List.flatMap_nil, List.nil_append, upToWithin, bind_of_some (skip?_append word s)]
    rfl
  | cons b items ih =>
    obtain ⟨n, rfl⟩ : ∃ m, n = m + 1 := Nat.exists_eq_succ_of_ne_zero (by omega)
    have ih := ih (fun b hb => hword b (List.mem_cons_of_mem _ hb)) (fun b hb => hpiece b (List.mem_cons_of_mem _ hb))
      (n := n) (by simpa using hn)
    rw [List.flatMap_cons, List.append_assoc, upToWithin,
      bind_of_some (skip?_of_not (hword b List.mem_cons_self _)), if_neg (by decide), bind_eq,
      hpiece b List.mem_cons_self, List.mapM_cons]
    cases hb : dec b with
    | none => rfl
    | some a =>
      change ((a :: ·) <$> upToWithin word piece n) (items.flatMap enc ++ (word ++ s)) = _
      rw [map_eq, ih]
      cases items.mapM dec <;> rfl

theorem upTo_flatMap {β : Type} {enc : β → List Char} (dec : β → Option α) {items : List β} {s : List Char}
    (hne : ∀ b ∈ items, enc b ≠ []) (hword : ∀ b ∈ items, ∀ s, ¬word <+: enc b ++ s)
    (hpiece : ∀ b ∈ items, ∀ s, piece (enc b ++ s) = (dec b).map fun a => (a, s)) :
    upTo word piece (items.flatMap enc ++ (word ++ s)) = (items.mapM dec).map fun as => (as, s) := by
  refine upToWithin_flatMap hword hpiece ?_
  have hlen := length_le_length_flatMap hne
  rw [List.length_append]
  omega

end UpTo

end Reader

end Pirewall.Lib
