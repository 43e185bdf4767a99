/-
# Pirewall.Detection.ThresholdKeys -- only bare keys are read back

A key of the provenance is written as it is, so it can hold anything: quotation marks, line feeds, lines that look
like others. Could a file with such keys be read back all the same, each key being read off the text of another?

It cannot. A key that is not bare is read from a quoted one, and that starts in the text of some key of the file.
Either it ends there, and is shorter than that key; or it goes on into ` = ` and the value behind. A basic string ends
with the value's first quotation mark, and `extent` does not count what it took of ` = [`. A literal string may go on,
but what it means has no apostrophe then, and cannot be written as a literal string itself. The longest of the keys
that are not of this last kind has nowhere to be read from.

`Hosts` is the relation of the argument: in the text of one key, with what follows it, another one is read. Over the
keys of a file it would have to be a map from each key that is not bare to one of them, and `extent` is a measure
under which a host is longer than its guest, but for keys that spill (`Spilt`). A key that spills is hosted by one
that does not, for the reason given above, so the measure still decides (`isBare_of_hosts`).

The measure counts a text without the characters at its end that may stand between a key and the first quotation mark
of its value. Those are what a string takes along when it runs over the end of a key, so that a string which stops at
that quotation mark measures no more than there is of the key.
-/
import Pirewall.Detection.ThresholdText
import Pirewall.Lib.Toml.Lines

namespace Pirewall.Thresholds

open Lib
open Lib.Toml (Statement IsBare)

variable {φ : Type} {pl : Platform φ}

/-! ## Lengths -/

/-- What may stand between a key and the first quotation mark of its value. -/
def isBetween (c : Char) : Bool := c = ' ' || c = '=' || c = '['

/-- The length of a text without such characters at its end. -/
def extent : List Char → Nat
  | [] => 0
  | c :: s => if extent s = 0 ∧ isBetween c = true then 0 else extent s + 1

theorem extent_cons (c : Char) (s : List Char) :
    extent (c :: s) = if extent s = 0 ∧ isBetween c = true then 0 else extent s + 1 := rfl

theorem extent_cons_le (c : Char) (s : List Char) : extent (c :: s) ≤ extent s + 1 := by
  rw [extent_cons]
  split <;> omega

theorem le_extent_cons (c : Char) (s : List Char) : extent s ≤ extent (c :: s) := by
  rw [extent_cons]
  split
  · rename_i h
    exact Nat.le_of_eq h.1
  · exact Nat.le_succ _

theorem extent_cons_of_not {c : Char} (h : isBetween c = false) (s : List Char) :
    extent (c :: s) = extent s + 1 := by
  rw [extent_cons, if_neg (by simp [h])]

theorem extent_cons_mono {s t : List Char} (h : extent s ≤ extent t) (c : Char) :
    extent (c :: s) ≤ extent (c :: t) := by
  rw [extent_cons, extent_cons]
  by_cases ht : extent t = 0 ∧ isBetween c = true
  · rw [if_pos ht, if_pos ⟨Nat.le_zero.mp (ht.1 ▸ h), ht.2⟩]
  · rw [if_neg ht]
    split
    · exact Nat.zero_le _
    · exact Nat.succ_le_succ h

theorem extent_sublist {s t : List Char} (h : s.Sublist t) : extent s ≤ extent t := by
  induction h with
  | slnil => exact Nat.le_refl _
  | cons c _ ih => exact ih.trans (le_extent_cons c _)
  | cons_cons c _ ih => exact extent_cons_mono ih c

theorem extent_between {s : List Char} (h : ∀ c ∈ s, isBetween c = true) : extent s = 0 := by
  induction s with
  | nil => rfl
  | cons c s ih => exact if_pos ⟨ih fun d hd => h d (List.mem_cons_of_mem c hd), h c List.mem_cons_self⟩

/-! ## What follows a key -/

/-- What follows a key in a dumped text: a value without strings and the end of its line, or the opening of the first
string of the value. -/
inductive KeyTail : List Char → Prop
  | plain (w s : List Char) (h : ∀ c ∈ w, c ≠ '"' ∧ c ≠ '\'' ∧ c ≠ '\\' ∧ c ≠ '\n') :
      KeyTail ([' ', '=', ' '] ++ w ++ '\n' :: s)
  | quoted (u s : List Char) (h : u = [' ', '=', ' '] ∨ u = [' ', '=', ' ', '[']) : KeyTail (u ++ '"' :: s)

theorem KeyTail.head {e : List Char} (h : KeyTail e) : ∃ t, e = ' ' :: '=' :: t := by
  cases h with
  | plain w s h => exact ⟨_, rfl⟩
  | quoted u s h => rcases h with rfl | rfl <;> exact ⟨_, rfl⟩

/-- A text without special characters up to the end of the line is no string. -/
theorem not_upToWithin_plain {w s : List Char} (h : ∀ c ∈ w, c ≠ '"' ∧ c ≠ '\\') {n : Nat}
    {read : List (List Char)} {r : List Char} :
    Reader.upToWithin ['"'] (Toml.basicPiece false) n (w ++ '\n' :: s) ≠ some (read, r) := by
  intro hread
  induction w generalizing n read with
  | nil =>
    cases n with
    | zero => cases hread
    | succ n =>
      rcases Reader.upToWithin_some hread with ⟨-, hquote⟩ | ⟨piece, rest, more, -, hpiece, -, -⟩
      · simp at hquote
      · rcases Toml.basicPiece_some hpiece with ⟨t, ht, -⟩ | ⟨c, hc, -, hlegal, -⟩
        · simp at ht
        · obtain ⟨rfl, -⟩ := List.cons.inj hc
          exact absurd hlegal (by decide)
  | cons c w ih =>
    obtain ⟨hc, hw⟩ := List.forall_mem_cons.mp h
    cases n with
    | zero => cases hread
    | succ n =>
      rcases Reader.upToWithin_some hread with ⟨-, hquote⟩ | ⟨piece, rest, more, -, hpiece, hmore, -⟩
      · exact hc.1 (List.cons.inj hquote).1
      · rcases Toml.basicPiece_some hpiece with ⟨t, ht, -⟩ | ⟨d, hd, -, -, -⟩
        · exact hc.2 (List.cons.inj ht).1
        · obtain ⟨-, rfl⟩ := List.cons.inj hd
          exact ih hw hmore

/-- What stands before the first string of a value does not count. -/
theorem extent_upToWithin_quoted {u s : List Char} (h : ∀ c ∈ u, isBetween c = true) {n : Nat}
    {read : List (List Char)} {r : List Char}
    (hread : Reader.upToWithin ['"'] (Toml.basicPiece false) n (u ++ '"' :: s) = some (read, r)) :
    extent read.flatten = 0 := by
  have hsub : read.flatten.Sublist u := by
    induction u generalizing n read with
    | nil =>
      cases n with
      | zero => cases hread
      | succ n =>
        rcases Reader.upToWithin_some hread with ⟨rfl, -⟩ | ⟨piece, rest, more, hclosed, -, -, -⟩
        · exact List.Sublist.refl _
        · exact absurd (List.prefix_append ['"'] s) hclosed
    | cons c u ih =>
      obtain ⟨hc, hu⟩ := List.forall_mem_cons.mp h
      cases n with
      | zero => cases hread
      | succ n =>
        rcases Reader.upToWithin_some hread with ⟨rfl, -⟩ | ⟨piece, rest, more, -, hpiece, hmore, rfl⟩
        · exact List.nil_sublist _
        · rcases Toml.basicPiece_some hpiece with ⟨t, ht, -⟩ | ⟨d, hd, -, -, rfl⟩
          · rw [(List.cons.inj ht).1] at hc
            exact absurd hc (by decide)
          · obtain ⟨rfl, rfl⟩ := List.cons.inj hd
            exact (ih hu hmore).cons_cons c
  exact Nat.le_zero.mp ((extent_sublist hsub).trans (Nat.le_of_eq (extent_between h)))

/-- **A basic string that starts in a key** means no more than there is of the key. -/
theorem extent_upToWithin {p e : List Char} (he : KeyTail e) {n : Nat} {read : List (List Char)} {r : List Char}
    (hread : Reader.upToWithin ['"'] (Toml.basicPiece false) n (p ++ e) = some (read, r)) :
    extent read.flatten ≤ extent p := by
  induction n generalizing p read with
  | zero => cases hread
  | succ n ih =>
    cases p with
    | nil =>
      cases he with
      | plain w s h =>
        refine absurd hread (not_upToWithin_plain fun c hc => ?_)
        have hfixed : ∀ c ∈ [' ', '=', ' '], c ≠ '"' ∧ c ≠ '\\' := Toml.forall_of_all (by decide)
        rcases List.mem_append.mp hc with hc | hc
        · exact hfixed c hc
        · exact ⟨(h c hc).1, (h c hc).2.2.1⟩
      | quoted u s h =>
        refine Nat.le_of_eq (extent_upToWithin_quoted (u := u) ?_ hread)
        rcases h with rfl | rfl <;> exact Toml.forall_of_all (by decide)
    | cons c p =>
      rcases Reader.upToWithin_some hread with ⟨rfl, -⟩ | ⟨piece, rest, more, -, hpiece, hmore, rfl⟩
      · exact Nat.zero_le _
      · rcases Toml.basicPiece_some hpiece with ⟨t, ht, hescape⟩ | ⟨d, hd, -, -, rfl⟩
        · -- an escape has no blank in it, so it ends within the key
          obtain ⟨rfl, rfl⟩ := List.cons.inj ht
          obtain ⟨used, hused, hblank, hlength⟩ := Toml.escape_some hescape
          obtain ⟨p', rfl, rfl⟩ : ∃ p', p = used ++ p' ∧ rest = p' ++ e := by
            rcases List.append_eq_append_iff.mp hused with ⟨used', rfl, he'⟩ | ⟨p', rfl, hrest⟩
            · obtain ⟨t, ht⟩ := he.head
              cases used' with
              | nil => exact ⟨[], by simp, by simpa using he'.symm⟩
              | cons d used' =>
                rw [ht] at he'
                obtain ⟨rfl, -⟩ := List.cons.inj he'
                exact absurd (by simp) hblank
            · exact ⟨p', rfl, hrest⟩
          have hmeant := ih hmore
          obtain ⟨d, rfl⟩ := List.length_eq_one_iff.mp hlength
          rw [List.flatten_cons, List.singleton_append, extent_cons_of_not (show isBetween '\\' = false by decide)]
          have hused := extent_sublist (List.sublist_append_right used p')
          have hcons := extent_cons_le d more.flatten
          omega
        · obtain ⟨rfl, rfl⟩ := List.cons.inj hd
          exact extent_cons_mono (ih hmore) c

/-- Of two places in a text one is before the other. -/
theorem places {s t after after' : List Char} {c d : Char} (hne : c ≠ d) (h : s ++ c :: after = t ++ d :: after') :
    (∃ u, t = s ++ c :: u) ∨ ∃ u, s = t ++ d :: u := by
  rcases List.append_eq_append_iff.mp h with ⟨u, rfl, hu⟩ | ⟨u, rfl, hu⟩
  · cases u with
    | nil => exact absurd (List.cons.inj hu).1 hne
    | cons e u =>
      obtain ⟨rfl, -⟩ := List.cons.inj hu
      exact .inl ⟨u, rfl⟩
  · cases u with
    | nil => exact absurd (List.cons.inj hu).1 hne.symm
    | cons e u =>
      obtain ⟨rfl, -⟩ := List.cons.inj hu
      exact .inr ⟨u, rfl⟩

/-- **A literal string that starts in a key** ends there, or goes on into the first string of the value. -/
theorem literal_in_key {p e cs r : List Char} (he : KeyTail e) (h : p ++ e = cs ++ '\'' :: r) (hquote : '\'' ∉ cs)
    (hfeed : '\n' ∉ cs) :
    (∃ p', p = cs ++ '\'' :: p') ∨
      ∃ u s, cs = p ++ (u ++ '"' :: s) ∧ (u = [' ', '=', ' '] ∨ u = [' ', '=', ' ', '[']) := by
  obtain ⟨t, ht⟩ := he.head
  rcases places (by decide) (ht ▸ h) with ⟨v, rfl⟩ | hends
  · right
    rw [List.append_assoc, List.append_cancel_left_eq] at h
    rw [List.mem_append, not_or] at hquote hfeed
    cases he with
    | plain w s hw =>
      exfalso
      rcases places (by decide) h with ⟨u, hu⟩ | ⟨u, hu⟩
      · exact hfeed.2 (hu ▸ List.mem_append_right _ List.mem_cons_self)
      · have hmem : '\'' ∈ [' ', '=', ' '] ++ w := hu ▸ List.mem_append_right _ List.mem_cons_self
        rcases List.mem_append.mp hmem with hmem | hmem
        · exact absurd hmem (by decide)
        · exact (hw _ hmem).2.1 rfl
    | quoted u s hu =>
      rcases places (by decide) h with ⟨s', hs'⟩ | ⟨u', hu'⟩
      · exact ⟨u, s', by rw [hs'], hu⟩
      · have hmem : '\'' ∈ u := hu' ▸ List.mem_append_right _ List.mem_cons_self
        rcases hu with rfl | rfl <;> exact absurd hmem (by decide)
  · exact .inl hends

/-! ## Where a key is read from -/

/-- What a literal string means that goes on into the value: what there is of the key before it is shorter than `n`. -/
def Spills (n : Nat) (key : List Char) : Prop :=
  ∃ q e, key = q ++ e ∧ (∀ s, KeyTail (e ++ s)) ∧ extent q < n ∧ '\'' ∉ key ∧ ∀ c ∈ key, Toml.isIllegal c = false

/-- A key that is not bare is read from a string that starts in the key before it. -/
theorem host_cases {p e : List Char} (he : KeyTail e) {part : String} {r : List Char}
    (h : Toml.keyPart ((p ++ e).dropWhile Toml.isWs) = some (part, r)) (hbare : ¬IsBare part.toList) :
    (extent part.toList < extent p ∧ ('"' ∈ p ∨ '\'' ∈ p)) ∨ ('\'' ∈ p ∧ Spills (extent p) part.toList) := by
  -- a string does not start behind the key
  have hstart : ∀ {c : Char} {t : List Char}, c ≠ '=' → (p ++ e).dropWhile Toml.isWs = c :: t →
      ∃ p', p.dropWhile Toml.isWs = c :: p' ∧ t = p' ++ e := by
    intro c t hc hdrop
    obtain ⟨t', ht'⟩ := he.head
    rw [List.dropWhile_append] at hdrop
    split at hdrop
    · rw [ht'] at hdrop
      have hdrop : '=' :: t' = c :: t := hdrop
      exact absurd (List.cons.inj hdrop).1.symm hc
    · rename_i hne
      cases hp : p.dropWhile Toml.isWs with
      | nil => exact absurd (by rw [hp]; rfl) hne
      | cons d p' =>
        rw [hp] at hdrop
        obtain ⟨rfl, rfl⟩ := List.cons.inj hdrop
        exact ⟨p', rfl, rfl⟩
  have hlt : ∀ {c : Char} {p' : List Char}, isBetween c = false → p.dropWhile Toml.isWs = c :: p' →
      extent p' < extent p ∧ c ∈ p := by
    intro c p' hc hdrop
    have hsub := (List.dropWhile_suffix Toml.isWs (l := p)).sublist
    rw [hdrop] at hsub
    have hle := extent_sublist hsub
    rw [extent_cons_of_not hc] at hle
    exact ⟨hle, hsub.subset List.mem_cons_self⟩
  rcases Toml.keyPart_some h with ⟨t, cs, ht, hcs, rfl⟩ | ⟨t, cs, ht, hcs, rfl⟩ | hbare'
  · rw [String.toList_ofList]
    obtain ⟨p', hp', rfl⟩ := hstart (by decide) ht
    obtain ⟨hp, hmem⟩ := hlt (by decide) hp'
    obtain ⟨hsplit, hquote, hlegal⟩ := Toml.literalStr_some hcs
    have hfeed : '\n' ∉ cs := fun hmem => absurd (hlegal _ hmem) (by decide)
    rcases literal_in_key he hsplit hquote hfeed with ⟨p'', rfl⟩ | ⟨u, s, rfl, hu⟩
    · refine .inl ⟨?_, .inr hmem⟩
      exact Nat.lt_of_le_of_lt (extent_sublist (List.sublist_append_left _ _)) hp
    · refine .inr ⟨hmem, p', _, rfl, fun s' => ?_, hp, hquote, hlegal⟩
      rw [List.append_assoc, List.cons_append]
      exact .quoted u _ hu
  · rw [String.toList_ofList]
    obtain ⟨p', hp', rfl⟩ := hstart (by decide) ht
    obtain ⟨hp, hmem⟩ := hlt (by decide) hp'
    rw [Toml.basicStr, Toml.pieces, Reader.map_eq] at hcs
    obtain ⟨⟨read, rest⟩, hread, heq⟩ := Option.map_eq_some_iff.mp hcs
    cases heq
    exact .inl ⟨Nat.lt_of_le_of_lt (extent_upToWithin he hread) hp, .inl hmem⟩
  · exact absurd hbare' hbare

/-- The text of a key, from one of its lines on, and what follows it: another key is read there. -/
def Hosts (host key : List Char) : Prop :=
  ∃ p ∈ Toml.lineStarts (Toml.lineFeeds host), ∃ e, KeyTail e ∧ ∃ part r, part.toList = key ∧
    Toml.keyPart ((p ++ e).dropWhile Toml.isWs) = some (part, r)

theorem Spills.mono {n m : Nat} {key : List Char} (h : Spills n key) (hle : n ≤ m) : Spills m key := by
  obtain ⟨q, e, rfl, htail, hq, hquote, hlegal⟩ := h
  exact ⟨q, e, rfl, htail, Nat.lt_of_lt_of_le hq hle, hquote, hlegal⟩

theorem Hosts.cases {host key : List Char} (h : Hosts host key) (hbare : ¬IsBare key) :
    (extent key < extent host ∧ ('"' ∈ host ∨ '\'' ∈ host)) ∨ ('\'' ∈ host ∧ Spills (extent host) key) := by
  obtain ⟨p, hp, e, he, part, r, rfl, hread⟩ := h
  have hsub : p.Sublist host := (Toml.suffix_of_mem_lineStarts hp).sublist.trans (Toml.lineFeeds_sublist host)
  rcases host_cases he hread hbare with ⟨hlt, hmem⟩ | ⟨hmem, hspills⟩
  · exact .inl ⟨Nat.lt_of_lt_of_le hlt (extent_sublist hsub), hmem.imp (fun h => hsub.subset h) fun h => hsub.subset h⟩
  · exact .inr ⟨hsub.subset hmem, hspills.mono (extent_sublist hsub)⟩

/-- What a literal string means can host what is shorter than it is without its tail. -/
theorem Hosts.of_spills {host key : List Char} {n : Nat} (h : Hosts host key) (hbare : ¬IsBare key)
    (hspills : Spills n host) : extent key < n := by
  obtain ⟨p, hp, e, he, part, r, rfl, hread⟩ := h
  obtain ⟨q, e', rfl, htail, hq, hquote, hlegal⟩ := hspills
  have hno : ∀ {c : Char}, Toml.isIllegal c = true → c ∉ q ++ e' := fun hc hmem => by
    rw [hlegal _ hmem] at hc
    cases hc
  rw [Toml.lineFeeds_of_not_mem (hno (by decide)), Toml.lineStarts, Toml.afterFeeds_of_not_mem (hno (by decide)),
    List.mem_singleton] at hp
  rw [hp, List.append_assoc] at hread
  have hq' : '\'' ∉ q := fun hmem => hquote (List.mem_append_left _ hmem)
  rcases host_cases (htail e) hread hbare with ⟨hlt, -⟩ | ⟨hmem, -⟩
  · exact hlt.trans hq
  · exact absurd hmem hq'

theorem not_isBare_of_mem {key : List Char} {c : Char} (hc : Toml.isBareKey c = false) (hmem : c ∈ key) :
    ¬IsBare key := fun hbare => by
  rw [hbare.2 c hmem] at hc
  cases hc

/-- A key that a literal string tells beyond the end of another. -/
def Spilt (keys : List (List Char)) (key : List Char) : Prop :=
  ∃ host ∈ keys, '\'' ∈ host ∧ Spills (extent host) key

theorem not_spilt_of_mem {keys : List (List Char)} {key : List Char} (h : '\'' ∈ key) : ¬Spilt keys key := by
  rintro ⟨host, -, -, q, e, -, -, -, hquote, -⟩
  exact hquote h

/-- **If each key that is not bare is read in the text of one of them, all are bare.** -/
theorem isBare_of_hosts {keys : List (List Char)}
    (h : ∀ key ∈ keys, ¬IsBare key → ∃ host ∈ keys, Hosts host key) : ∀ key ∈ keys, IsBare key := by
  classical
  by_contra hnot
  push Not at hnot
  obtain ⟨key, hkey, hbare⟩ := hnot
  let left := keys.toFinset.filter fun key => ¬IsBare key ∧ ¬Spilt keys key
  have hmem : ∀ {key}, key ∈ left ↔ key ∈ keys ∧ ¬IsBare key ∧ ¬Spilt keys key := fun {key} => by
    rw [Finset.mem_filter, List.mem_toFinset]
  have hquoted : ∀ {host}, host ∈ keys → '\'' ∈ host → host ∈ left := fun hhost hquote =>
    hmem.mpr ⟨hhost, not_isBare_of_mem (by decide) hquote, not_spilt_of_mem hquote⟩
  have hne : left.Nonempty := by
    by_cases hspilt : Spilt keys key
    · obtain ⟨host, hhost, hquote, -⟩ := hspilt
      exact ⟨host, hquoted hhost hquote⟩
    · exact ⟨key, hmem.mpr ⟨hkey, hbare, hspilt⟩⟩
  -- the longest of them has no host
  obtain ⟨key, hkey, hmax⟩ := left.exists_max_image extent hne
  obtain ⟨hkeys, hbare, hspilt⟩ := hmem.mp hkey
  obtain ⟨host, hhost, hhosts⟩ := h key hkeys hbare
  rcases hhosts.cases hbare with ⟨hlt, hquote⟩ | ⟨hquote, hspills⟩
  · by_cases hspilt' : Spilt keys host
    · obtain ⟨host', hhost', hquote', hspills'⟩ := hspilt'
      have hlt' := hhosts.of_spills hbare hspills'
      have hle := hmax host' (hquoted hhost' hquote')
      omega
    · have hbare' : ¬IsBare host := hquote.elim (not_isBare_of_mem (by decide)) (not_isBare_of_mem (by decide))
      have hle := hmax host (hmem.mpr ⟨hhost, hbare', hspilt'⟩)
      omega
  · exact hspilt ⟨host, hhost, hquote, hspills⟩

/-! ## The text of a file -/

/-- What is written behind a key. -/
theorem keyTail_tomlValue {v : Provenance φ} {text : List Char} (h : tomlValue pl v = some text) (s : List Char) :
    KeyTail ([' ', '=', ' '] ++ text ++ '\n' :: s) := by
  have hplain : ∀ c ∈ Toml.numerals, c ≠ '"' ∧ c ≠ '\'' ∧ c ≠ '\\' ∧ c ≠ '\n' :=
    Toml.forall_of_all (by decide)
  cases v with
  | str content =>
    cases h
    exact .quoted [' ', '=', ' '] _ (.inl rfl)
  | int n =>
    obtain ⟨-, rfl⟩ := reprInt_eq_some.mp h
    exact .plain _ s fun c hc => hplain c (Toml.numerals_decimal n c hc)
  | float x =>
    cases h
    exact .plain _ s fun c hc => hplain c ((pl.repr_text x).numerals c hc)
  | bool b =>
    cases h
    exact .plain _ s (by cases b <;> exact Toml.forall_of_all (by decide))
  | list items =>
    cases h
    cases items with
    | nil => exact .plain ['[', ']'] s (Toml.forall_of_all (by decide))
    | cons item items =>
      obtain ⟨rest, hrest⟩ : ∃ rest, Toml.literals (item :: items) = '"' :: rest := by
        cases items with
        | nil => exact ⟨_, Toml.literals_singleton item⟩
        | cons next items => exact ⟨_, Toml.literals_cons_cons item next items⟩
      change KeyTail ([' ', '=', ' '] ++ ('[' :: (Toml.literals (item :: items) ++ [']'])) ++ '\n' :: s)
      rw [hrest]
      exact .quoted [' ', '=', ' ', '['] _ (.inr rfl)

/-- The lines of a key and its value, before other lines. -/
theorem lineStarts_pairLine {key line : List Char} {v : Provenance φ} (h : pairLine pl key v = some line)
    (s : List Char) : ∃ e, KeyTail e ∧ Toml.lineStarts (Toml.lineFeeds (line ++ '\n' :: s)) =
      (Toml.lineStarts (Toml.lineFeeds key)).map (· ++ e) ++ Toml.lineStarts (Toml.lineFeeds s) := by
  obtain ⟨text, htext, rfl⟩ := Option.map_eq_some_iff.mp h
  refine ⟨_, keyTail_tomlValue htext (Toml.lineFeeds s), ?_⟩
  have hvalue : Toml.OnOneLine ([' ', '=', ' '] ++ text) :=
    Toml.OnOneLine.append (Toml.forall_of_all (by decide)) (onOneLine_tomlValue htext)
  have hfeed : '\n' ∉ [' ', '=', ' '] ++ text := hvalue.not_mem (by decide)
  have hreturn : '\r' ∉ [' ', '=', ' '] ++ text := hvalue.not_mem (by decide)
  have hhead : ([' ', '=', ' '] ++ text ++ '\n' :: s).head? ≠ some '\n' := by simp
  rw [List.append_assoc key, Toml.lineFeeds_append_of_head key hhead, Toml.lineFeeds_line hreturn, ← List.append_assoc,
    Toml.lineStarts_append_feed, Toml.lineStarts_append _ hfeed, List.map_map]
  refine congrArg (· ++ Toml.lineStarts (Toml.lineFeeds s)) (List.map_congr_left fun p _ => ?_)
  rw [Function.comp_apply, List.append_assoc]

/-- A line of the provenance starts in the text of a key. -/
theorem lineStarts_provenance {items : List (List CodePoint × Provenance φ)} {lines : List (List Char)}
    (h : (items.mapM fun e => (encode e.1).bind fun key => pairLine pl key e.2) = some lines) (s : List Char)
    {start : List Char} (hstart : start ∈ Toml.lineStarts (Toml.lineFeeds (Toml.unlines lines ++ s))) :
    (∃ item ∈ items, ∃ p ∈ Toml.lineStarts (Toml.lineFeeds (keyText item.1)), ∃ e, KeyTail e ∧ start = p ++ e) ∨
      start ∈ Toml.lineStarts (Toml.lineFeeds s) := by
  induction items generalizing lines with
  | nil =>
    cases h
    exact .inr hstart
  | cons item items ih =>
    obtain ⟨line, lines, hline, hlines, rfl⟩ := mapM_cons_eq_some.mp h
    obtain ⟨key, hkey, hpair⟩ := Option.bind_eq_some_iff.mp hline
    obtain ⟨e, he, hstarts⟩ := lineStarts_pairLine hpair (Toml.unlines lines ++ s)
    have htext : Toml.unlines (line :: lines) ++ s = line ++ '\n' :: (Toml.unlines lines ++ s) := by
      simp [Toml.unlines]
    rw [htext, hstarts] at hstart
    rcases List.mem_append.mp hstart with hstart | hstart
    · obtain ⟨p, hp, rfl⟩ := List.mem_map.mp hstart
      have hkeyText : keyText item.1 = key := by rw [keyText, hkey, Option.getD_some]
      exact .inl ⟨item, List.mem_cons_self, p, hkeyText ▸ hp, e, he, rfl⟩
    · rcases ih hlines hstart with ⟨item', hitem, hhost⟩ | hrest
      · exact .inl ⟨item', List.mem_cons_of_mem _ hitem, hhost⟩
      · exact .inr hrest

/-- The pairs in the text of the entries have bare keys. -/
theorem isBare_of_entryReads {es : List (String × ThresholdEntry pl)} {name : String} {v : Toml.Value φ}
    (h : some (some (.pair [name] v)) ∈ es.flatMap fun e => entryReads e.2.toEntryFields) : IsBare name.toList := by
  obtain ⟨e, -, hmem⟩ := List.mem_flatMap.mp h
  simp only [entryReads, pairReads, List.mem_cons, List.mem_map] at hmem
  rcases hmem with heq | heq | ⟨item, hitem, heq⟩
  · cases heq
  · cases heq
  · obtain ⟨w, -, hpair⟩ := Option.map_eq_some_iff.mp heq
    cases hpair
    exact isBare_of_written hitem

/-! ## What is read -/

theorem lookup_filter {t : Toml.Entries φ} {name other : String} (hne : name ≠ other) :
    (t.filter fun e => e.1 ≠ other).lookup name = t.lookup name := by
  induction t with
  | nil => rfl
  | cons e t ih =>
    obtain ⟨key, v⟩ := e
    by_cases hkey : key = other
    · rw [List.filter_cons_of_neg (by simp [hkey]), ih, List.lookup_cons,
        beq_false_of_ne (fun heq => hne (heq.trans hkey))]
    · rw [List.filter_cons_of_pos (by simpa using hkey), List.lookup_cons, List.lookup_cons, ih]

/-- The provenance of a file is that of the document. -/
theorem provenance_of_loads {text : List Char} {g : D1ThresholdFile pl} (h : loadThresholds pl text = .ok g) :
    ∃ raw, Toml.loads pl.float text = some raw ∧
      given raw "provenance" Dict.empty validateProvenances = some g.provenance := by
  rw [loadThresholds] at h
  split at h
  · cases h
  · rename_i raw hraw
    refine ⟨raw, hraw, ?_⟩
    split at h
    · cases h
    · split at h
      · cases h
      · rename_i items _ _ hvalid
        cases h
        rw [validateFile] at hvalid
        split at hvalid
        · obtain ⟨version, -, hvalid⟩ := Option.bind_eq_some_iff.mp hvalid
          obtain ⟨frozen, -, hvalid⟩ := Option.bind_eq_some_iff.mp hvalid
          obtain ⟨sha256, -, hvalid⟩ := Option.bind_eq_some_iff.mp hvalid
          obtain ⟨provenance, hprovenance, hvalid⟩ := Option.bind_eq_some_iff.mp hvalid
          obtain ⟨thresholds, -, hvalid⟩ := Option.bind_eq_some_iff.mp hvalid
          dsimp only at hvalid
          split at hvalid
          · cases hvalid
            rwa [given, lookup_filter (by decide)] at hprovenance
          · cases hvalid
        · cases hvalid

/-- A value of the provenance is no table, nor does it end in one. -/
theorem not_nested_of_validated {v : Toml.Value φ} {w : Provenance φ} (h : validateProvenance v = some w) :
    ¬Toml.Nested v := by
  cases v with
  | table t => cases h
  | array items =>
    rintro ⟨t, hlast⟩
    obtain ⟨texts, htexts, -⟩ := Option.map_eq_some_iff.mp h
    have hstr := mapM_isSome.mp (by rw [htexts]; rfl) _ (List.mem_of_getLast? hlast)
    cases hstr
  | _ => exact id

/-- A key of the provenance that is read. -/
theorem key_of_validated {raw : Toml.Entries φ} {d : Dict (List CodePoint) (Provenance φ)}
    (h : given raw "provenance" Dict.empty validateProvenances = some d) {key : List CodePoint} (hkey : key ∈ d.keys) :
    ∃ t k v, raw.lookup "provenance" = some (.table t) ∧ t.lookup k = some v ∧ codePoints k = key ∧
      ¬Toml.Nested v := by
  rw [given] at h
  split at h
  · cases h
    cases hkey
  · rename_i v hv
    obtain ⟨t, rfl⟩ : ∃ t, v = .table t := by
      cases v with
      | table t => exact ⟨t, rfl⟩
      | _ => cases h
    obtain ⟨pairs, hpairs, rfl⟩ := Option.map_eq_some_iff.mp h
    obtain ⟨pair, hpair, rfl⟩ := List.mem_map.mp (Dict.mem_keys_ofPairs.mp hkey)
    obtain ⟨e, he, hread⟩ := mem_of_mapM hpairs hpair
    obtain ⟨w, -, rfl⟩ := Option.map_eq_some_iff.mp hread
    obtain ⟨x, hx⟩ := Option.isSome_iff_exists.mp (List.lookup_isSome_iff.mpr ⟨e, he, beq_self_eq_true e.1⟩)
    obtain ⟨front, back, rfl, -⟩ := List.lookup_eq_some_iff.mp hx
    -- the value that is looked up has been validated with the others
    have hvalid := mapM_isSome.mp (by rw [hpairs]; rfl) (e.1, x) (List.mem_append_right _ List.mem_cons_self)
    rw [Option.isSome_map] at hvalid
    obtain ⟨y, hy⟩ := Option.isSome_iff_exists.mp hvalid
    exact ⟨_, e.1, x, hv, hx, rfl, not_nested_of_validated hy⟩

/-- The texts of the keys. -/
def keyTexts (f : D1ThresholdFile pl) : List (List Char) := (sortedProvenance f).map fun e => keyText e.1

/-- **A key that is read is read in the text of a key**, if it is not bare. -/
theorem hosts_of_loads {f g : D1ThresholdFile pl} {text : List Char} (h : dumpThresholds f = some text)
    (hnan : f.isNan = false) (hload : loadThresholds pl text = .ok g) {key : List Char}
    (hkey : key.map CodePoint.ofChar ∈ g.provenance.keys) (hbare : ¬IsBare key) :
    ∃ host ∈ keyTexts f, Hosts host key := by
  obtain ⟨raw, hraw, hprovenance⟩ := provenance_of_loads hload
  obtain ⟨t, k, v, ht, hv, hk, hnested⟩ := key_of_validated hprovenance hkey
  obtain ⟨sts, hsts, hput⟩ := Toml.put_of_loads hraw ht hv hnested
  obtain rfl : k.toList = key := CodePoint.ofChar_injective.list_map hk
  -- behind the head
  obtain ⟨lines, hlines, htext⟩ := Option.map_eq_some_iff.mp h
  obtain ⟨provenance, entries, hprovenances, hentries, rfl⟩ := dumpLines_some hlines
  have hne : headLines f ++ provenance ++ entries.flatten ≠ [] := by simp [headLines, comments]
  have hsplit : text = Toml.unlines (headLines f) ++ (Toml.unlines provenance ++ Toml.unlines entries.flatten) := by
    rw [← htext, Toml.intercalate_feed hne, Toml.unlines, List.flatMap_append, List.flatMap_append, List.append_assoc]
    rfl
  rw [hsplit] at hsts
  obtain ⟨hheadLines, hhead⟩ := lineReads_split (lineReads_head f)
  obtain ⟨hentryLines, hentry⟩ := lineReads_split (lineReads_entries hentries hnan)
  obtain ⟨n, later, hlater, rfl⟩ := Toml.statements_after hhead hheadLines hsts
  have hpair : .pair [k] v ∈ later := by
    have hheader : ["provenance"] ≠ ([] : Toml.Path) := List.cons_ne_nil _ _
    have hpaths : ∀ st ∈ later, st.path ≠ [] := fun st hst => by
      obtain ⟨start, -, rest, hline⟩ := Toml.mem_statementsWithin hlater hst
      exact (Toml.line_some hline).1
    -- the pairs of the head go elsewhere, and its header puts nothing
    have hput' : ([], .put v) ∈ Toml.below k (Toml.below "provenance" (Toml.opsFrom ["provenance"] later)) := hput
    exact Toml.pair_of_below hheader hpaths hput'
  obtain ⟨start, hstart, rest, hline⟩ := Toml.mem_statementsWithin hlater hpair
  rcases lineStarts_provenance hprovenances _ hstart with ⟨item, hitem, p, hp, e, he, rfl⟩ | hstart
  · obtain ⟨part, more, r, hpath, hread⟩ := (Toml.line_some hline).2 _ _ rfl
    obtain ⟨rfl, -⟩ := List.cons.inj hpath
    exact ⟨keyText item.1, List.mem_map_of_mem hitem, p, hp, e, he, k, r, rfl, hread⟩
  · rw [Toml.lineFeeds_of_not_mem (Toml.not_mem_unlines hentryLines)] at hstart
    exact absurd (isBare_of_entryReads (Toml.pair_of_lineStarts hentry hentryLines hstart hline)) hbare

/-- What has been written has keys that can be. -/
theorem encode_of_dump {f : D1ThresholdFile pl} {text : List Char} (h : dumpThresholds f = some text)
    {e : List CodePoint × Provenance φ} (he : e ∈ sortedProvenance f) : encode e.1 = some (keyText e.1) := by
  obtain ⟨lines, hlines, -⟩ := Option.map_eq_some_iff.mp h
  obtain ⟨provenance, -, hprovenance, -, -⟩ := dumpLines_some hlines
  have hline := mapM_isSome.mp (by rw [hprovenance]; rfl) e he
  cases hkey : encode e.1 with
  | none =>
    rw [hkey] at hline
    cases hline
  | some key => rw [keyText, hkey, Option.getD_some]

/-- **A file that is read back has bare keys.** -/
theorem bareKeys_of_loads {f g : D1ThresholdFile pl} {text : List Char} (h : dumpThresholds f = some text)
    (hnan : f.isNan = false) (hload : loadThresholds pl text = .ok g) (heq : f.eq g = true) : bareKeys f = true := by
  simp only [D1ThresholdFile.eq, Bool.and_eq_true] at heq
  have hall : ∀ key ∈ keyTexts f, IsBare key := by
    refine isBare_of_hosts fun key hkey hbare => hosts_of_loads h hnan hload ?_ hbare
    obtain ⟨e, he, rfl⟩ := List.mem_map.mp hkey
    have hget := Dict.mem_entries_iff.mp (mem_sortedProvenance.mp he)
    obtain ⟨w, hw, -⟩ := Dict.get?_of_eqBy heq.1.2 hget
    rw [← encode_eq_some (encode_of_dump h he)]
    exact Dict.mem_keys_iff.mpr ⟨w, hw⟩
  refine List.all_eq_true.mpr fun key hkey => ?_
  obtain ⟨e, he, rfl⟩ := List.mem_map.mp hkey
  have hmem := mem_sortedProvenance.mpr he
  exact bareKey_iff.mpr ⟨encode_of_dump h hmem, hall _ (List.mem_map_of_mem hmem)⟩

end Pirewall.Thresholds
