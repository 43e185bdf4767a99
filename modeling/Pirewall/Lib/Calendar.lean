/-
# Pirewall.Lib.Calendar -- the proleptic Gregorian calendar and its ISO text

Days since 1 January of the year 1, split into year, month and day by the cycles of 400, 100, 4 and 1 years,
and the text of a moment in UTC as `datetime.isoformat` writes it: fixed-width fields, with the microseconds
left out when there are none. What programs rely on when a moment becomes part of a name is that no two
moments have one text (`isoformat_injective`).
-/
import Mathlib.Tactic

namespace Pirewall.Lib

/-! ## Days -/

/-- The year a day falls in and its number in that year, from 0. -/
def yearOfDay (n : Nat) : Nat × Nat :=
  let n400 := n / 146097
  let n := n % 146097
  let n100 := n / 36524
  let n := n % 36524
  let n4 := n / 1461
  let n := n % 1461
  let n1 := n / 365
  let year := n400 * 400 + 1 + n100 * 100 + n4 * 4 + n1
  -- the last day of a cycle of 4 or 400 years belongs to the leap year before
  if n1 = 4 ∨ n100 = 4 then (year - 1, 365) else (year, n % 365)

def isLeap (year : Nat) : Bool := year % 4 == 0 && (year % 100 != 0 || year % 400 == 0)

def daysBeforeYear (year : Nat) : Nat :=
  let y := year - 1
  y * 365 + y / 4 - y / 100 + y / 400

def daysInYear (year : Nat) : Nat := if isLeap year then 366 else 365

theorem isLeap_iff (year : Nat) :
    isLeap year = true ↔ year % 4 = 0 ∧ (year % 100 ≠ 0 ∨ year % 400 = 0) := by
  simp [isLeap]

/-- The days before the year after `400 a + 100 b + 4 c + d` years. -/
theorem daysBeforeYear_cycles {a b c d : Nat} (hb : b ≤ 3) (hc : c ≤ 24) (hd : d ≤ 3) :
    daysBeforeYear (400 * a + 100 * b + 4 * c + d + 1) = 146097 * a + 36524 * b + 1461 * c + 365 * d := by
  have h4 : (400 * a + 100 * b + 4 * c + d) / 4 = 100 * a + 25 * b + c := by omega
  have h100 : (400 * a + 100 * b + 4 * c + d) / 100 = 4 * a + b := by omega
  have h400 : (400 * a + 100 * b + 4 * c + d) / 400 = a := by omega
  simp only [daysBeforeYear, Nat.add_sub_cancel, h4, h100, h400]
  omega

/-- A day is found again from its year and its number in it. -/
theorem yearOfDay_spec (n : Nat) :
    daysBeforeYear (yearOfDay n).1 + (yearOfDay n).2 = n ∧
      (yearOfDay n).2 < daysInYear (yearOfDay n).1 ∧ 0 < (yearOfDay n).1 := by
  -- the digits of the day in the cycles
  obtain ⟨a, ha⟩ : ∃ a, n / 146097 = a := ⟨_, rfl⟩
  obtain ⟨r, hr⟩ : ∃ r, n % 146097 = r := ⟨_, rfl⟩
  obtain ⟨b, hb⟩ : ∃ b, r / 36524 = b := ⟨_, rfl⟩
  obtain ⟨r₂, hr₂⟩ : ∃ r₂, r % 36524 = r₂ := ⟨_, rfl⟩
  obtain ⟨c, hc⟩ : ∃ c, r₂ / 1461 = c := ⟨_, rfl⟩
  obtain ⟨r₃, hr₃⟩ : ∃ r₃, r₂ % 1461 = r₃ := ⟨_, rfl⟩
  obtain ⟨d, hd⟩ : ∃ d, r₃ / 365 = d := ⟨_, rfl⟩
  have hn : n = 146097 * a + 36524 * b + 1461 * c + r₃ := by omega
  have hcle : c ≤ 24 := by omega
  simp only [yearOfDay, ha, hr, hb, hr₂, hc, hr₃, hd]
  split
  · rename_i hlast
    rcases hlast with rfl | rfl
    · by_cases hfour : b = 4
      · omega
      · -- the 366th day of a leap year that ends a cycle of four
        have hyear : a * 400 + 1 + b * 100 + c * 4 + 4 - 1 = 400 * a + 100 * b + 4 * c + 3 + 1 := by omega
        have hleap : isLeap (400 * a + 100 * b + 4 * c + 3 + 1) = true := by
          rw [isLeap_iff]
          omega
        have hbefore := daysBeforeYear_cycles (a := a) (b := b) (c := c) (d := 3) (by omega) (by omega)
          (le_refl 3)
        rw [hyear, hbefore, daysInYear, if_pos hleap]
        exact ⟨by omega, Nat.lt_succ_self 365, by omega⟩
    · -- the last day of a cycle of four hundred
      have hyear : a * 400 + 1 + 4 * 100 + c * 4 + d - 1 = 400 * a + 100 * 3 + 4 * 24 + 3 + 1 := by omega
      have hleap : isLeap (400 * a + 100 * 3 + 4 * 24 + 3 + 1) = true := by
        rw [isLeap_iff]
        omega
      have hbefore := daysBeforeYear_cycles (a := a) (b := 3) (c := 24) (d := 3) (le_refl 3) (le_refl 24)
        (le_refl 3)
      rw [hyear, hbefore, daysInYear, if_pos hleap]
      exact ⟨by omega, Nat.lt_succ_self 365, by omega⟩
  · have hyear : a * 400 + 1 + b * 100 + c * 4 + d = 400 * a + 100 * b + 4 * c + d + 1 := by omega
    have hbefore := daysBeforeYear_cycles (a := a) (b := b) (c := c) (d := d) (by omega) hcle (by omega)
    have hless : r₃ % 365 < daysInYear (400 * a + 100 * b + 4 * c + d + 1) := by
      unfold daysInYear
      split
      · omega
      · omega
    rw [hyear, hbefore]
    exact ⟨by omega, hless, by omega⟩

/-! ## Months -/

def monthLengths (leap : Bool) : List Nat :=
  [31, if leap then 29 else 28, 31, 30, 31, 30, 31, 31, 30, 31, 30, 31]

/-- Month and day of month, both from 1. -/
def monthDay : List Nat → Nat → Nat × Nat
  | [], n => (1, n + 1)
  | length :: rest, n =>
    if n < length then (1, n + 1) else ((monthDay rest (n - length)).1 + 1, (monthDay rest (n - length)).2)

theorem monthDay_pos (lengths : List Nat) (n : Nat) : 1 ≤ (monthDay lengths n).1 ∧ 1 ≤ (monthDay lengths n).2 := by
  induction lengths generalizing n with
  | nil => exact ⟨le_refl 1, Nat.le_add_left 1 n⟩
  | cons length rest ih =>
    rw [monthDay]
    split
    · exact ⟨le_refl 1, Nat.le_add_left 1 n⟩
    · exact ⟨Nat.le_add_left 1 _, (ih _).2⟩

theorem monthDay_spec (lengths : List Nat) (n : Nat) :
    (lengths.take ((monthDay lengths n).1 - 1)).sum + ((monthDay lengths n).2 - 1) = n := by
  induction lengths generalizing n with
  | nil => simp [monthDay]
  | cons length rest ih =>
    rw [monthDay]
    split
    · simp
    · rename_i hge
      have hpos := (monthDay_pos rest (n - length)).1
      have hrest := ih (n - length)
      obtain ⟨k, hk⟩ : ∃ k, (monthDay rest (n - length)).1 = k + 1 := ⟨_, (Nat.sub_add_cancel hpos).symm⟩
      simp only [hk, Nat.add_sub_cancel] at hrest ⊢
      rw [List.take_succ_cons, List.sum_cons]
      omega

/-- Two digits hold a month and a day. -/
theorem monthDay_lt {leap : Bool} {n : Nat} (h : n < if leap then 366 else 365) :
    (monthDay (monthLengths leap) n).1 < 100 ∧ (monthDay (monthLengths leap) n).2 < 100 := by
  have hall : ∀ leap : Bool, ∀ n < 366, (n < if leap then 366 else 365) →
      (monthDay (monthLengths leap) n).1 < 100 ∧ (monthDay (monthLengths leap) n).2 < 100 := by decide +kernel
  refine hall leap n ?_ h
  split at h
  · exact h
  · omega

/-! ## Text -/

/-- The last `width` decimal digits of a number. -/
def pad : Nat → Nat → List Char
  | 0, _ => []
  | width + 1, n => pad width (n / 10) ++ [Nat.digitChar (n % 10)]

@[simp] theorem length_pad (width n : Nat) : (pad width n).length = width := by
  induction width generalizing n with
  | zero => rfl
  | succ width ih => rw [pad, List.length_append, ih, List.length_singleton]

theorem digitChar_injective {a b : Nat} (ha : a < 10) (hb : b < 10)
    (h : Nat.digitChar a = Nat.digitChar b) : a = b := by
  have hall : ∀ a < 10, ∀ b < 10, Nat.digitChar a = Nat.digitChar b → a = b := by decide +kernel
  exact hall a ha b hb h

theorem pad_injective {width n m : Nat} (hn : n < 10 ^ width) (hm : m < 10 ^ width)
    (h : pad width n = pad width m) : n = m := by
  induction width generalizing n m with
  | zero => rw [Nat.lt_one_iff.mp hn, Nat.lt_one_iff.mp hm]
  | succ width ih =>
    rw [pad, pad] at h
    obtain ⟨hhigh, hlow⟩ := List.append_inj' h rfl
    have hdigit := digitChar_injective (Nat.mod_lt n (by decide)) (Nat.mod_lt m (by decide))
      (List.singleton_inj.mp hlow)
    have hrest := ih (by rw [Nat.pow_succ] at hn; omega) (by rw [Nat.pow_succ] at hm; omega) hhigh
    omega

/-- `YYYY-MM-DD` of a day. -/
def dateText (day : Nat) : List Char :=
  let year := (yearOfDay day).1
  let md := monthDay (monthLengths (isLeap year)) (yearOfDay day).2
  pad 4 year ++ '-' :: (pad 2 md.1 ++ '-' :: pad 2 md.2)

/-- `HH:MM:SS` of a second of the day. -/
def timeText (second : Nat) : List Char :=
  pad 2 (second / 3600) ++ ':' :: (pad 2 (second / 60 % 60) ++ ':' :: pad 2 (second % 60))

/-- `datetime.isoformat` in UTC, for a moment in microseconds since the year 1. -/
def isoformat (us : Nat) : List Char :=
  let second := us / 1000000
  dateText (second / 86400) ++ 'T' :: (timeText (second % 86400) ++
    ((if us % 1000000 = 0 then [] else '.' :: pad 6 (us % 1000000)) ++ "+00:00".toList))

example : String.ofList (isoformat 63839664000000007) = "2024-01-01T00:00:00.000007+00:00" := by decide +kernel

/-- The last day of the year 9999. -/
def lastDay : Nat := 3652058

theorem year_lt {day : Nat} (h : day ≤ lastDay) : (yearOfDay day).1 < 10000 := by
  obtain ⟨hday, _, hpos⟩ := yearOfDay_spec day
  simp only [daysBeforeYear] at hday
  unfold lastDay at h
  omega

theorem length_dateText (day : Nat) : (dateText day).length = 10 := by simp [dateText]

theorem length_timeText (second : Nat) : (timeText second).length = 8 := by simp [timeText]

theorem dateText_injective {day day' : Nat} (h : day ≤ lastDay) (h' : day' ≤ lastDay)
    (heq : dateText day = dateText day') : day = day' := by
  obtain ⟨hday, hnumber, _⟩ := yearOfDay_spec day
  obtain ⟨hday', hnumber', _⟩ := yearOfDay_spec day'
  simp only [dateText] at heq
  obtain ⟨hyear, hrest⟩ := List.append_inj heq (by simp)
  have hsame : (yearOfDay day).1 = (yearOfDay day').1 := pad_injective (year_lt h) (year_lt h') hyear
  have hfields := monthDay_lt hnumber
  have hfields' := monthDay_lt hnumber'
  obtain ⟨hmonth, hrest⟩ := List.append_inj (List.tail_eq_of_cons_eq hrest) (by simp)
  have hm := pad_injective hfields.1 hfields'.1 hmonth
  have hd := pad_injective hfields.2 hfields'.2 (List.tail_eq_of_cons_eq hrest)
  -- month and day give the number in the year, and the year the rest
  have hspec := monthDay_spec (monthLengths (isLeap (yearOfDay day).1)) (yearOfDay day).2
  have hspec' := monthDay_spec (monthLengths (isLeap (yearOfDay day').1)) (yearOfDay day').2
  rw [hm, hd, hsame] at hspec
  rw [← hday, ← hday', hsame]
  omega

theorem timeText_injective {second second' : Nat} (h : second < 86400) (h' : second' < 86400)
    (heq : timeText second = timeText second') : second = second' := by
  simp only [timeText] at heq
  obtain ⟨hhour, hrest⟩ := List.append_inj heq (by simp)
  obtain ⟨hminute, hrest⟩ := List.append_inj (List.tail_eq_of_cons_eq hrest) (by simp)
  have hh := pad_injective (by omega) (by omega) hhour
  have hm := pad_injective (by omega) (by omega) hminute
  have hs := pad_injective (by omega) (by omega) (List.tail_eq_of_cons_eq hrest)
  omega

theorem length_isoformat (us : Nat) :
    (isoformat us).length = if us % 1000000 = 0 then 25 else 32 := by
  simp only [isoformat, List.length_append, List.length_cons, length_dateText, length_timeText]
  split
  · rfl
  · simp [length_pad]

/-- No two moments have one text. -/
theorem isoformat_injective {us us' : Nat} (h : us / 1000000 / 86400 ≤ lastDay)
    (h' : us' / 1000000 / 86400 ≤ lastDay) (heq : isoformat us = isoformat us') : us = us' := by
  have hlength := congrArg List.length heq
  rw [length_isoformat, length_isoformat] at hlength
  simp only [isoformat] at heq
  obtain ⟨hdate, hrest⟩ := List.append_inj heq (by rw [length_dateText, length_dateText])
  obtain ⟨htime, hrest⟩ := List.append_inj (List.tail_eq_of_cons_eq hrest)
    (by rw [length_timeText, length_timeText])
  have hd := dateText_injective h h' hdate
  have hs := timeText_injective (Nat.mod_lt _ (by decide)) (Nat.mod_lt _ (by decide)) htime
  have hmicro : us % 1000000 = us' % 1000000 := by
    by_cases hzero : us % 1000000 = 0 <;> by_cases hzero' : us' % 1000000 = 0
    · rw [hzero, hzero']
    · rw [if_pos hzero, if_neg hzero'] at hlength
      exact absurd hlength (by decide)
    · rw [if_neg hzero, if_pos hzero'] at hlength
      exact absurd hlength (by decide)
    · rw [if_neg hzero, if_neg hzero'] at hrest
      obtain ⟨hmicro, _⟩ := List.append_inj (List.tail_eq_of_cons_eq hrest) (by simp)
      exact pad_injective (Nat.mod_lt _ (by decide)) (Nat.mod_lt _ (by decide)) hmicro
  omega

end Pirewall.Lib
