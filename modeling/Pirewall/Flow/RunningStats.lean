/-
# Pirewall.Flow.RunningStats -- running statistics are exact

`RunningStats` keeps a mean, a second moment and the extremes of the values it was given, one update a value. It
exists twice. `Accumulator` are its slots, for values of any sign; the aggregator's own model of it, whose values are
never negative, and the native one both update these slots (`slots_add`, `accumulator_add`).

In exact arithmetic the mean is that of the values, and the second moment the sum of their squared deviations from it
(`Follows.add`). So the two deviations that are reported are the roots of the population and the sample variance.
-/
import Mathlib.Analysis.Real.Sqrt
import Pirewall.Flow.Aggregator
import Pirewall.Flow.Native
import Pirewall.Lib.Moments

namespace Pirewall

open Lib

/-! ## The accumulator -/

/-- The slots of a `RunningStats`; `none` stands for the infinities the extremes start from. -/
structure Accumulator where
  count : Nat
  runningMean : ℚ
  m2 : ℚ
  least : Option ℚ
  greatest : Option ℚ

namespace Accumulator

def new : Accumulator := ⟨0, 0, 0, none, none⟩

/-- `RunningStats.add`. -/
def add (s : Accumulator) (value : ℚ) : Accumulator :=
  let count := s.count + 1
  let delta := value - s.runningMean
  let runningMean := s.runningMean + delta / (count : ℕ)
  { count, runningMean
    m2 := s.m2 + delta * (value - runningMean)
    least := some (match s.least with
      | none => value
      | some x => if value < x then value else x)
    greatest := some (match s.greatest with
      | none => value
      | some x => if value > x then value else x) }

/-- The accumulator after some values. -/
def of (values : List ℚ) : Accumulator := values.foldl add new

def mean (s : Accumulator) : ℚ := if s.count ≠ 0 then s.runningMean else 0

noncomputable def std (s : Accumulator) : ℝ := if s.count ≠ 0 then √((s.m2 / s.count : ℚ) : ℝ) else 0

noncomputable def sampleStd (s : Accumulator) : ℝ :=
  if s.count > 1 then √((s.m2 / (s.count - 1 : ℕ) : ℚ) : ℝ) else 0

def min (s : Accumulator) : ℚ := if s.count ≠ 0 then s.least.getD 0 else 0

def max (s : Accumulator) : ℚ := if s.count ≠ 0 then s.greatest.getD 0 else 0

end Accumulator

/-- The slots of the aggregator's accumulator. -/
def RunningStats.slots (s : RunningStats) : Accumulator := ⟨s.count, s.runningMean, s.m2, s.least, s.greatest⟩

/-- Where the values are not negative, the aggregator's accumulator adds them to its slots. -/
theorem RunningStats.slots_add (s : RunningStats) {value : ℚ} (h : 0 ≤ value) :
    (s.add value h).slots = s.slots.add value := rfl

/-- It reports the slots, with the squares of the deviations. -/
theorem RunningStats.slots_reported (s : RunningStats) :
    s.slots.mean = s.mean ∧ s.slots.min = s.min ∧ s.slots.max = s.max ∧
      s.slots.std ^ 2 = s.variance ∧ s.slots.sampleStd ^ 2 = s.sampleVariance := by
  have hnonneg : ∀ n : Nat, (0 : ℝ) ≤ (s.m2 / n : ℚ) := fun n =>
    Rat.cast_nonneg.mpr (div_nonneg s.m2_nonneg (Nat.cast_nonneg n))
  refine ⟨rfl, rfl, rfl, ?_, ?_⟩
  · show (if s.count ≠ 0 then √((s.m2 / s.count : ℚ) : ℝ) else 0) ^ 2 = _
    unfold RunningStats.variance
    split
    · exact Real.sq_sqrt (hnonneg _)
    · simp
  · show (if s.count > 1 then √((s.m2 / (s.count - 1 : ℕ) : ℚ) : ℝ) else 0) ^ 2 = _
    unfold RunningStats.sampleVariance
    split
    · exact Real.sq_sqrt (hnonneg _)
    · simp

/-! ## What the slots say -/

namespace Accumulator

/-- `best` is a value that no other one beats, if there is any value. -/
def IsBest (beats : ℚ → ℚ → Prop) (values : List ℚ) : Option ℚ → Prop
  | none => values = []
  | some best => best ∈ values ∧ ∀ x ∈ values, ¬ beats x best

/-- The best of the values so far, against one more. -/
theorem IsBest.snoc {beats : ℚ → ℚ → Prop} [DecidableRel beats] (hirrefl : ∀ x, ¬ beats x x)
    (hcotrans : ∀ {x y z}, beats y z → ¬ beats x z → ¬ beats x y) {values : List ℚ} {best : Option ℚ}
    (value : ℚ) :
    IsBest beats values best → IsBest beats (values ++ [value]) (some (match best with
      | none => value
      | some x => if beats value x then value else x)) := by
  intro h
  cases best with
  | none =>
    cases show values = [] from h
    refine ⟨List.mem_singleton.mpr rfl, ?_⟩
    intro x hx
    rw [List.mem_singleton.mp hx]
    exact hirrefl value
  | some best =>
    obtain ⟨hmem, hbest⟩ := h
    dsimp only
    split
    · rename_i hbeats
      refine ⟨List.mem_append_right _ List.mem_cons_self, ?_⟩
      intro x hx
      rcases List.mem_append.mp hx with hold | hnew
      · exact hcotrans hbeats (hbest x hold)
      · rw [List.mem_singleton.mp hnew]
        exact hirrefl value
    · rename_i hbeats
      refine ⟨List.mem_append_left _ hmem, ?_⟩
      intro x hx
      rcases List.mem_append.mp hx with hold | hnew
      · exact hbest x hold
      · rw [List.mem_singleton.mp hnew]
        exact hbeats

/-- The slots tell of these values. -/
structure Follows (s : Accumulator) (values : List ℚ) : Prop where
  count : s.count = values.length
  runningMean : s.runningMean = average values
  m2 : s.m2 = squaredDeviations values
  least : IsBest (· < ·) values s.least
  greatest : IsBest (· > ·) values s.greatest

theorem follows_new : new.Follows [] := by
  refine ⟨rfl, ?_, rfl, rfl, rfl⟩
  show (0 : ℚ) = 0 / (0 : ℕ)
  rw [zero_div]

/-- Welford's update. -/
theorem Follows.add {s : Accumulator} {values : List ℚ} (h : s.Follows values) (value : ℚ) :
    (s.add value).Follows (values ++ [value]) := by
  have hmean : (s.add value).runningMean = average (values ++ [value]) := by
    show s.runningMean + (value - s.runningMean) / (s.count + 1 : ℕ) = _
    rw [average_snoc, h.runningMean, h.count]
  refine ⟨?_, hmean, ?_, ?_, ?_⟩
  · show s.count + 1 = _
    rw [h.count, List.length_append, List.length_singleton]
  · -- the product of the distances from the old mean and from the new one
    show s.m2 + (value - s.runningMean) * (value - (s.add value).runningMean) = _
    rw [hmean, squaredDeviations_snoc, h.m2, h.runningMean]
  · refine IsBest.snoc ?_ ?_ value h.least
    · exact fun x => lt_irrefl x
    · exact fun hyz hxz hxy => hxz (lt_trans hxy hyz)
  · refine IsBest.snoc ?_ ?_ value h.greatest
    · exact fun x => lt_irrefl x
    · exact fun hyz hxz hxy => hxz (lt_trans hyz hxy)

theorem follows_of (values : List ℚ) : (of values).Follows values := by
  induction values using List.reverseRecOn with
  | nil => exact follows_new
  | append_singleton values value ih =>
    rw [of, List.foldl_concat]
    exact ih.add value

/-! ## What is reported -/

/-- What an accumulator reports of some values. -/
structure Reports (values : List ℚ) (count : Nat) (mean m2 min max : ℚ) (std sampleStd : ℝ) : Prop where
  count_eq : count = values.length
  mean_mul : mean * count = values.sum
  m2_eq : m2 = (values.map fun x => (x - mean) ^ 2).sum
  min_least : values ≠ [] → min ∈ values ∧ ∀ x ∈ values, min ≤ x
  max_greatest : values ≠ [] → max ∈ values ∧ ∀ x ∈ values, x ≤ max
  /-- The population variance. -/
  std_sq : values ≠ [] → std ^ 2 = ((values.map fun x => (x - mean) ^ 2).sum / values.length : ℚ)
  /-- The sample variance. -/
  sampleStd_sq : 1 < values.length →
    sampleStd ^ 2 = ((values.map fun x => (x - mean) ^ 2).sum / (values.length - 1 : ℕ) : ℚ)

/-- An extreme value that was found is reported. -/
theorem IsBest.reported {beats : ℚ → ℚ → Prop} {values : List ℚ} {best : Option ℚ} (h : IsBest beats values best)
    (hne : values ≠ []) : best.getD 0 ∈ values ∧ ∀ x ∈ values, ¬ beats x (best.getD 0) := by
  cases best with
  | none => exact absurd h hne
  | some best => exact h

theorem Follows.reports {s : Accumulator} {values : List ℚ} (h : s.Follows values) :
    Reports values s.count s.mean s.m2 s.min s.max s.std s.sampleStd := by
  have hmean : s.mean = average values := by
    unfold mean
    split
    · exact h.runningMean
    · -- no value: both are zero
      rename_i hzero
      rw [not_not, h.count, List.length_eq_zero_iff] at hzero
      rw [hzero, average, List.sum_nil, zero_div]
  have hm2 : s.m2 = (values.map fun x => (x - s.mean) ^ 2).sum := by
    rw [hmean]
    exact h.m2
  have hcount : values ≠ [] → s.count ≠ 0 := fun hne => by
    rw [h.count]
    exact fun hzero => hne (List.length_eq_zero_iff.mp hzero)
  have hnonneg : ∀ n : Nat, (0 : ℝ) ≤ (s.m2 / n : ℚ) := by
    intro n
    rw [h.m2]
    exact Rat.cast_nonneg.mpr (div_nonneg (squaresAround_nonneg _ _) (Nat.cast_nonneg n))
  refine ⟨h.count, ?_, hm2, ?_, ?_, ?_, ?_⟩
  · rw [hmean, h.count]
    exact average_mul_length values
  · intro hne
    rw [min, if_pos (hcount hne)]
    obtain ⟨hmem, hleast⟩ := h.least.reported hne
    exact ⟨hmem, fun x hx => not_lt.mp (hleast x hx)⟩
  · intro hne
    rw [max, if_pos (hcount hne)]
    obtain ⟨hmem, hgreatest⟩ := h.greatest.reported hne
    exact ⟨hmem, fun x hx => not_lt.mp (hgreatest x hx)⟩
  · intro hne
    rw [std, if_pos (hcount hne), Real.sq_sqrt (hnonneg _), ← hm2, h.count]
  · intro hmany
    rw [sampleStd, if_pos (by rw [h.count]; exact hmany), Real.sq_sqrt (hnonneg _), ← hm2, h.count]

end Accumulator

/-! ## The native accumulator -/

namespace Native.RunningStats

/-- The native accumulator after some values. -/
def of (values : List ℚ) : RunningStats := values.foldl add new

/-- The slots of the native accumulator. -/
def accumulator (s : RunningStats) : Accumulator := ⟨s.count, s.mean, s.m2, s.min, s.max⟩

noncomputable def std (s : RunningStats) : ℝ := if s.count > 0 then √((s.m2 / s.count : ℚ) : ℝ) else 0

noncomputable def sampleStd (s : RunningStats) : ℝ :=
  if s.count > 1 then √((s.m2 / (s.count - 1 : ℕ) : ℚ) : ℝ) else 0

theorem accumulator_add (s : RunningStats) (value : ℚ) :
    (s.add value).accumulator = s.accumulator.add value := rfl

theorem accumulator_of (values : List ℚ) : (of values).accumulator = Accumulator.of values := by
  induction values using List.reverseRecOn with
  | nil => rfl
  | append_singleton values value ih =>
    rw [of, Accumulator.of, List.foldl_concat, List.foldl_concat, accumulator_add]
    exact congrArg (·.add value) ih

/-- Both report the same of the same slots. -/
theorem reported (s : RunningStats) :
    s.getMean = s.accumulator.mean ∧ s.getMin = s.accumulator.min ∧ s.getMax = s.accumulator.max ∧
      s.std = s.accumulator.std ∧ s.sampleStd = s.accumulator.sampleStd := by
  have hpos : s.count > 0 ↔ s.count ≠ 0 := Nat.pos_iff_ne_zero
  exact ⟨if_congr hpos rfl rfl, if_congr hpos rfl rfl, if_congr hpos rfl rfl, if_congr hpos rfl rfl, rfl⟩

end Native.RunningStats

/-- After any values, the accumulator and its native twin report their mean, the sum of the squared deviations from
it, the extreme ones, and deviations whose squares are the population and the sample variance. -/
theorem running_stats_exact (values : List ℚ) :
    (let s := Accumulator.of values
     Accumulator.Reports values s.count s.mean s.m2 s.min s.max s.std s.sampleStd) ∧
    (let s := Native.RunningStats.of values
     Accumulator.Reports values s.count s.getMean s.m2 s.getMin s.getMax s.std s.sampleStd) := by
  have hpython := (Accumulator.follows_of values).reports
  refine ⟨hpython, ?_⟩
  obtain ⟨hmean, hmin, hmax, hstd, hsampleStd⟩ := (Native.RunningStats.of values).reported
  have haccumulator := Native.RunningStats.accumulator_of values
  rw [← haccumulator] at hpython
  dsimp only
  rw [hmean, hmin, hmax, hstd, hsampleStd]
  exact hpython

end Pirewall
