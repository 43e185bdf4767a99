/-
# Pirewall.Lib.Float -- numbers as binary64 floats

A float is the rational number it stands for, and an operation on floats is the exact operation followed by one
rounding. `pyRound` rounds a number to an integer, ties to even; `toDouble` does the same to the last of the 53 bits
of its mantissa, which is the rounding to the nearest float within the normal range. Overflow and the subnormal range
are outside.

Rounding is monotone (`toDouble_mono`) and keeps signs, so it never turns one test against a float into another. It
moves a number by half a unit in the last place at most (`toDouble_error`), and it leaves alone what a mantissa holds,
in particular every integer up to `2 ^ 53` (`toDouble_intCast`). Beyond that, rounding the parts of a quotient first
need not give what rounding the quotient gives.
-/
import Mathlib.Data.Int.Log
import Mathlib.Tactic

namespace Pirewall.Lib

/-! ## Rounding to an integer -/

/-- Python's `round`: to the nearest integer, ties to even. -/
def pyRound (q : ℚ) : Int :=
  let below := q.floor
  let part := q - below
  if part < 1 / 2 then below
  else if 1 / 2 < part then below + 1
  else if below % 2 = 0 then below else below + 1

theorem pyRound_nonneg {q : ℚ} (h : 0 ≤ q) : 0 ≤ pyRound q := by
  have hfloor : 0 ≤ q.floor := Rat.le_floor_iff.mpr (by simpa using h)
  unfold pyRound
  dsimp only
  split_ifs <;> omega

/-- Rounding goes down or up by less than one. -/
theorem floor_le_pyRound (q : ℚ) : q.floor ≤ pyRound q ∧ pyRound q ≤ q.floor + 1 := by
  unfold pyRound
  dsimp only
  split_ifs <;> omega

theorem pyRound_mono {q r : ℚ} (h : q ≤ r) : pyRound q ≤ pyRound r := by
  have hfloor : q.floor ≤ r.floor := Rat.le_floor_iff.mpr ((Rat.floor_le q).trans h)
  rcases Int.lt_or_eq_of_le hfloor with hlt | heq
  · have hq := (floor_le_pyRound q).2
    have hr := (floor_le_pyRound r).1
    omega
  · -- between the same two integers, the larger number has the larger part
    have hpart : q - q.floor ≤ r - r.floor := by
      rw [heq]
      exact sub_le_sub_right h _
    unfold pyRound
    dsimp only
    split_ifs <;> first | omega | linarith

/-- Rounding to an integer moves a number by one half at most. -/
theorem pyRound_error (q : ℚ) : |(pyRound q : ℚ) - q| ≤ 1 / 2 := by
  have hlo := Rat.floor_le q
  have hhi := Rat.lt_floor_add_one q
  push_cast at hhi
  unfold pyRound
  dsimp only
  rw [abs_le]
  split_ifs <;> push_cast <;> constructor <;> linarith

/-- So a number close to an integer rounds to it. -/
theorem pyRound_of_near {q : ℚ} {n : Int} (h : |q - n| < 1 / 2) : pyRound q = n := by
  have herror := pyRound_error q
  rw [abs_le] at herror
  rw [abs_lt] at h
  have hlo : (n : ℚ) < pyRound q + 1 := by linarith
  have hhi : (pyRound q : ℚ) < n + 1 := by linarith
  have hlo' : n < pyRound q + 1 := by exact_mod_cast hlo
  have hhi' : pyRound q < n + 1 := by exact_mod_cast hhi
  omega

@[simp] theorem pyRound_intCast (n : Int) : pyRound n = n := by
  apply pyRound_of_near
  rw [sub_self, abs_zero]
  norm_num

/-- The rule for ties does not look at the sign. -/
theorem pyRound_neg (q : ℚ) : pyRound (-q) = -pyRound q := by
  have hlo := Rat.floor_le q
  have hhi := Rat.lt_floor_add_one q
  push_cast at hhi
  by_cases htie : q - q.floor = 1 / 2
  · -- halfway, the even neighbour is the even neighbour from either side
    have hfloor : (-q).floor = -q.floor - 1 := by
      show ⌊-q⌋ = _
      rw [Int.floor_eq_iff]
      push_cast
      constructor <;> linarith
    have hpart : -q - ((-q).floor : ℚ) = 1 / 2 := by
      rw [hfloor]
      push_cast
      linarith
    unfold pyRound
    dsimp only
    rw [htie, hpart, hfloor]
    simp only [lt_irrefl, if_false]
    split_ifs <;> omega
  · have hnear : |q - pyRound q| < 1 / 2 := by
      rw [abs_sub_comm]
      refine lt_of_le_of_ne (pyRound_error q) ?_
      intro heq
      unfold pyRound at heq
      dsimp only at heq
      rcases lt_trichotomy (q - q.floor) (1 / 2) with hlt | hmid | hgt
      · rw [if_pos hlt, abs_of_nonpos (by linarith)] at heq
        linarith
      · exact htie hmid
      · rw [if_neg (not_lt.mpr hgt.le), if_pos hgt] at heq
        push_cast at heq
        rw [abs_of_nonneg (by linarith)] at heq
        linarith
    apply pyRound_of_near
    rw [← abs_neg] at hnear
    calc |-q - ((-pyRound q : Int) : ℚ)| = |-(q - pyRound q)| := by
          push_cast
          ring_nf
      _ < 1 / 2 := hnear

/-! ## Rounding to a float -/

/-- The binary64 float nearest to a number, within the normal range: 53 bits of mantissa, ties to even. -/
def toDouble (q : ℚ) : ℚ :=
  if q = 0 then 0
  else pyRound (q / 2 ^ (Int.log 2 |q| - 52)) * 2 ^ (Int.log 2 |q| - 52)

@[simp] theorem toDouble_zero : toDouble 0 = 0 := if_pos rfl

theorem toDouble_neg (q : ℚ) : toDouble (-q) = -toDouble q := by
  by_cases hzero : q = 0
  · rw [hzero, neg_zero, toDouble_zero, neg_zero]
  · unfold toDouble
    rw [if_neg (neg_ne_zero.mpr hzero), if_neg hzero, abs_neg, neg_div, pyRound_neg]
    push_cast
    ring

/-- The exponent of a number. -/
theorem log_eq {q : ℚ} {e : Int} (hlo : (2 : ℚ) ^ e ≤ q) (hhi : q < 2 ^ (e + 1)) : Int.log 2 |q| = e := by
  have hpos : 0 < q := lt_of_lt_of_le (by positivity) hlo
  rw [abs_of_pos hpos]
  have hle := (Int.zpow_le_iff_le_log (b := 2) (by norm_num) hpos).mp (by exact_mod_cast hlo)
  have hlt := (Int.lt_zpow_iff_log_lt (b := 2) (by norm_num) hpos).mp (by exact_mod_cast hhi)
  omega

/-- Every positive number has one. -/
theorem exists_exponent {q : ℚ} (h : 0 < q) : ∃ e : Int, (2 : ℚ) ^ e ≤ q ∧ q < 2 ^ (e + 1) := by
  refine ⟨Int.log 2 q, ?_, ?_⟩
  · exact_mod_cast Int.zpow_log_le_self (b := 2) (by norm_num) h
  · exact_mod_cast Int.lt_zpow_succ_log_self (b := 2) (by norm_num) q

/-- With its exponent known, a number is rounded in units of its last place. -/
theorem toDouble_eq {q : ℚ} {e : Int} (hlo : (2 : ℚ) ^ e ≤ q) (hhi : q < 2 ^ (e + 1)) :
    toDouble q = pyRound (q / 2 ^ (e - 52)) * 2 ^ (e - 52) := by
  have hpos : 0 < q := lt_of_lt_of_le (by positivity) hlo
  unfold toDouble
  rw [if_neg hpos.ne', log_eq hlo hhi]

/-- Rounding to a float moves a number by half a unit in the last place at most. -/
theorem toDouble_error {q : ℚ} {e : Int} (hlo : (2 : ℚ) ^ e ≤ q) (hhi : q < 2 ^ (e + 1)) :
    |toDouble q - q| ≤ 2 ^ (e - 52) / 2 := by
  have hulp : (0 : ℚ) < 2 ^ (e - 52) := by positivity
  rw [toDouble_eq hlo hhi]
  have herror := pyRound_error (q / 2 ^ (e - 52))
  have hscaled : (pyRound (q / 2 ^ (e - 52)) : ℚ) * 2 ^ (e - 52) - q =
      (pyRound (q / 2 ^ (e - 52)) - q / 2 ^ (e - 52)) * 2 ^ (e - 52) := by
    field_simp
  rw [hscaled, abs_mul, abs_of_pos hulp]
  calc |(pyRound (q / 2 ^ (e - 52)) : ℚ) - q / 2 ^ (e - 52)| * 2 ^ (e - 52)
      ≤ 1 / 2 * 2 ^ (e - 52) := mul_le_mul_of_nonneg_right herror hulp.le
    _ = 2 ^ (e - 52) / 2 := by ring

/-- The error is a part in `2 ^ 53` of the number. -/
theorem toDouble_relative {q : ℚ} (h : 0 ≤ q) : |toDouble q - q| ≤ q / 2 ^ 53 := by
  rcases h.eq_or_lt with rfl | hpos
  · rw [toDouble_zero, sub_zero, abs_zero, zero_div]
  · obtain ⟨e, hlo, hhi⟩ := exists_exponent hpos
    refine (toDouble_error hlo hhi).trans ?_
    have hulp : (2 : ℚ) ^ (e - 52) / 2 = 2 ^ e / 2 ^ 53 := by
      rw [zpow_sub₀ (by norm_num : (2 : ℚ) ≠ 0)]
      norm_num
      ring
    rw [hulp]
    exact div_le_div_of_nonneg_right hlo (by positivity)

/-- A number close to a float rounds to it. -/
theorem toDouble_of_near {q : ℚ} {e : Int} (hlo : (2 : ℚ) ^ e ≤ q) (hhi : q < 2 ^ (e + 1)) {n : Int}
    (h : |q / 2 ^ (e - 52) - n| < 1 / 2) : toDouble q = n * 2 ^ (e - 52) := by
  rw [toDouble_eq hlo hhi, pyRound_of_near h]

/-- The powers of two around a number are floats, and rounding does not cross them. -/
theorem toDouble_between {q : ℚ} {e : Int} (hlo : (2 : ℚ) ^ e ≤ q) (hhi : q < 2 ^ (e + 1)) :
    (2 : ℚ) ^ e ≤ toDouble q ∧ toDouble q ≤ 2 ^ (e + 1) := by
  have hulp : (0 : ℚ) < 2 ^ (e - 52) := by positivity
  have hlow : (2 : ℚ) ^ e = ((2 ^ 52 : Int) : ℚ) * 2 ^ (e - 52) := by
    rw [Int.cast_pow, Int.cast_ofNat, ← zpow_natCast, ← zpow_add₀ (by norm_num)]
    congr 1
    omega
  have hhigh : (2 : ℚ) ^ (e + 1) = ((2 ^ 53 : Int) : ℚ) * 2 ^ (e - 52) := by
    rw [Int.cast_pow, Int.cast_ofNat, ← zpow_natCast, ← zpow_add₀ (by norm_num)]
    congr 1
    omega
  rw [toDouble_eq hlo hhi]
  rw [hlow] at hlo ⊢
  rw [hhigh] at hhi ⊢
  have hmantissa : ((2 ^ 52 : Int) : ℚ) ≤ q / 2 ^ (e - 52) ∧ q / 2 ^ (e - 52) ≤ ((2 ^ 53 : Int) : ℚ) :=
    ⟨(le_div_iff₀ hulp).mpr hlo, (div_le_iff₀ hulp).mpr hhi.le⟩
  have hbelow := pyRound_mono hmantissa.1
  have habove := pyRound_mono hmantissa.2
  rw [pyRound_intCast] at hbelow habove
  exact ⟨mul_le_mul_of_nonneg_right (by exact_mod_cast hbelow) hulp.le,
    mul_le_mul_of_nonneg_right (by exact_mod_cast habove) hulp.le⟩

theorem toDouble_pos {q : ℚ} (h : 0 < q) : 0 < toDouble q := by
  obtain ⟨e, hlo, hhi⟩ := exists_exponent h
  exact lt_of_lt_of_le (by positivity) (toDouble_between hlo hhi).1

/-- Rounding keeps the sign. -/
theorem toDouble_nonneg_iff {q : ℚ} : 0 ≤ toDouble q ↔ 0 ≤ q := by
  constructor
  · intro h
    by_contra hneg
    have hpos := toDouble_pos (neg_pos.mpr (not_le.mp hneg))
    rw [toDouble_neg] at hpos
    linarith
  · intro h
    rcases h.eq_or_lt with rfl | hpos
    · exact toDouble_zero.ge
    · exact (toDouble_pos hpos).le

theorem toDouble_mono_of_pos {q r : ℚ} (hq : 0 < q) (h : q ≤ r) : toDouble q ≤ toDouble r := by
  obtain ⟨e, hlo, hhi⟩ := exists_exponent hq
  obtain ⟨f, hlo', hhi'⟩ := exists_exponent (hq.trans_le h)
  rcases lt_or_ge e f with hlt | hge
  · -- there is a power of two between them
    have hpower : (2 : ℚ) ^ (e + 1) ≤ 2 ^ f := zpow_le_zpow_right₀ (by norm_num) (by omega)
    exact (toDouble_between hlo hhi).2.trans (hpower.trans (toDouble_between hlo' hhi').1)
  · have hexponent : f = e := by
      have hpower : (2 : ℚ) ^ e < 2 ^ (f + 1) := hlo.trans_lt (h.trans_lt hhi')
      have hlt := (zpow_lt_zpow_iff_right₀ (by norm_num : (1 : ℚ) < 2)).mp hpower
      omega
    subst hexponent
    rw [toDouble_eq hlo hhi, toDouble_eq hlo' hhi']
    have hulp : (0 : ℚ) < 2 ^ (f - 52) := by positivity
    have hround := pyRound_mono (div_le_div_of_nonneg_right h hulp.le)
    exact mul_le_mul_of_nonneg_right (by exact_mod_cast hround) hulp.le

/-- Rounding is monotone. -/
theorem toDouble_mono {q r : ℚ} (h : q ≤ r) : toDouble q ≤ toDouble r := by
  rcases lt_trichotomy 0 q with hpos | rfl | hneg
  · exact toDouble_mono_of_pos hpos h
  · rw [toDouble_zero]
    exact toDouble_nonneg_iff.mpr h
  · rcases le_or_gt 0 r with hr | hr
    · -- a negative number rounds to one below zero
      have hlow := toDouble_pos (neg_pos.mpr hneg)
      rw [toDouble_neg] at hlow
      have hhigh := toDouble_nonneg_iff.mpr hr
      linarith
    · have hrev := toDouble_mono_of_pos (neg_pos.mpr hr) (neg_le_neg h)
      rw [toDouble_neg, toDouble_neg] at hrev
      linarith

/-! ## Numbers that are floats -/

/-- What fits the mantissa stays as it is. -/
theorem toDouble_of_mantissa {q : ℚ} {e : Int} (hlo : (2 : ℚ) ^ e ≤ q) (hhi : q < 2 ^ (e + 1)) {m : Int}
    (h : q = m * 2 ^ (e - 52)) : toDouble q = q := by
  have hulp : (2 : ℚ) ^ (e - 52) ≠ 0 := by positivity
  have hdiv : q / 2 ^ (e - 52) = m := by
    rw [h]
    exact mul_div_cancel_right₀ _ hulp
  rw [toDouble_eq hlo hhi, hdiv, pyRound_intCast, h]

theorem toDouble_natCast {n : Nat} (h : n ≤ 2 ^ 53) : toDouble n = n := by
  rcases Nat.eq_zero_or_pos n with rfl | hpos
  · rw [Nat.cast_zero, toDouble_zero]
  · have hlog := Nat.pow_log_le_self 2 hpos.ne'
    have hlt := Nat.lt_pow_succ_log_self (by norm_num : 1 < 2) n
    have hlo : (2 : ℚ) ^ (Nat.log 2 n : Int) ≤ n := by
      rw [zpow_natCast]
      exact_mod_cast hlog
    have hhi : (n : ℚ) < 2 ^ ((Nat.log 2 n : Int) + 1) := by
      rw [← Nat.cast_succ, zpow_natCast]
      exact_mod_cast hlt
    rcases h.eq_or_lt with htop | hbelow
    · -- `2 ^ 53` takes one more bit, but its last one is zero
      have hexponent : (Nat.log 2 n : Int) = 53 := by
        rw [htop, Nat.log_pow (by norm_num)]
        rfl
      refine toDouble_of_mantissa (m := 2 ^ 52) hlo hhi ?_
      rw [hexponent, htop]
      norm_num
    · have hsmall : Nat.log 2 n ≤ 52 := by
        have hpow : (2 : Nat) ^ Nat.log 2 n < 2 ^ 53 := hlog.trans_lt hbelow
        have := (Nat.pow_lt_pow_iff_right (by norm_num : 1 < 2)).mp hpow
        omega
      refine toDouble_of_mantissa (m := n * 2 ^ (52 - Nat.log 2 n)) hlo hhi ?_
      push_cast
      rw [mul_assoc, ← zpow_natCast (2 : ℚ) (52 - Nat.log 2 n), ← zpow_add₀ (by norm_num), Nat.cast_sub hsmall]
      simp

/-- Integers up to `2 ^ 53` in size are floats. -/
theorem toDouble_intCast {n : Int} (h : |n| ≤ 2 ^ 53) : toDouble n = n := by
  obtain ⟨m, rfl | rfl⟩ := n.eq_nat_or_neg
  · have hm : m ≤ 2 ^ 53 := by
      rw [abs_of_nonneg (Int.natCast_nonneg m)] at h
      exact_mod_cast h
    exact_mod_cast toDouble_natCast hm
  · have hm : m ≤ 2 ^ 53 := by
      rw [abs_neg, abs_of_nonneg (Int.natCast_nonneg m)] at h
      exact_mod_cast h
    push_cast
    rw [toDouble_neg, toDouble_natCast hm]

end Pirewall.Lib
