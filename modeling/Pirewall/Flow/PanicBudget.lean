/-
# Pirewall.Flow.PanicBudget -- too many panics in a minute

`NativePanicBudget` forgets old panics only when the next one is counted, and it never forgets that it was exhausted.
`panic_budget_iff` says what that comes to when the clock does not go back: it is exhausted once some window of a
minute, closed at a counted panic and open at its beginning, held `max_per_minute` of them.

The clock is `time.monotonic`, so the age of a panic is a difference of floats and is rounded to one. Rounding keeps
the order, so panics leave the deque oldest first all the same; and where the difference is a float already, the
window is that of exact arithmetic.

The fall-back engine asks its budget at every panic that is reported to it, so `abandoned_iff` says the same of the
native engine: that is when it was abandoned.
-/
import Pirewall.Flow.Fallback
import Pirewall.Lib.Window

namespace Pirewall

open Lib

/-! ## The window -/

namespace NativePanicBudget

/-- An earlier panic is older. -/
theorem age_anti {now at' later : ℚ} (h : at' ≤ later) : age now later ≤ age now at' :=
  toDouble_mono (sub_le_sub_left h now)

/-- Panics grow older. -/
theorem age_mono {now later at' : ℚ} (h : now ≤ later) : age now at' ≤ age later at' :=
  toDouble_mono (sub_le_sub_right h at')

/-- The panics less than a minute old. -/
def within (now : ℚ) (clock : List ℚ) : List ℚ := clock.filter fun at' => decide (age now at' < windowSeconds)

/-- At all times to come, what is remembered of the panics shows the same window as all of them. -/
structure Follows (clock : List ℚ) (budget : NativePanicBudget) : Prop where
  sublist : budget.recent.Sublist clock
  same : ∀ now, (∀ at' ∈ clock, at' ≤ now) →
    SameWindows (fun _ : Unit => True) (fun _ now at' => decide (age now at' < windowSeconds)) now budget.recent clock

variable {clock : List ℚ} {budget : NativePanicBudget} {now : ℚ}

/-- **One call.** What it leaves in the deque is the window that ends with it. -/
theorem Follows.record (h : Follows clock budget) (hsorted : clock.Pairwise (· ≤ ·))
    (hnow : ∀ at' ∈ clock, at' ≤ now) :
    (budget.record now).recent = within now (clock ++ [now]) ∧ Follows (clock ++ [now]) (budget.record now) := by
  have hkept : (budget.recent ++ [now]).Pairwise (· ≤ ·) := by
    refine List.pairwise_append.mpr ⟨hsorted.sublist h.sublist, List.pairwise_singleton _ _, ?_⟩
    intro at' hat other hother
    rw [List.mem_singleton.mp hother]
    exact hnow at' (h.sublist.subset hat)
  -- the deque is in order, so the loop drops all that is too old
  have hdrop : (budget.record now).recent = within now (budget.recent ++ [now]) := by
    show (budget.recent ++ [now]).dropWhile _ = _
    rw [dropWhile_eq_filter_not _ hkept]
    · exact List.filter_congr fun at' _ => by rw [← decide_not, decide_eq_decide, not_le]
    · intro earlier later hle hlater
      have hstale := of_decide_eq_true hlater
      exact decide_eq_true (hstale.trans (age_anti hle))
  have hgrown := (h.same now hnow).append [now]
  refine ⟨hdrop.trans (hgrown () trivial now le_rfl), ?_, ?_⟩
  · exact (List.dropWhile_sublist _).trans (h.sublist.append_right [now])
  · intro later hlater
    have hle : now ≤ later := hlater now (by simp)
    refine (hgrown.later hle).dropWhile fun _ _ t ht at' hat => ?_
    have hstale := of_decide_eq_true hat
    exact decide_eq_false (not_lt.mpr (hstale.trans (age_mono (hle.trans ht))))

/-- What the deque holds after a call of a run. -/
theorem recent_run {maxPerMinute : Nat} {hpos : 0 < maxPerMinute} (hsorted : clock.Pairwise (· ≤ ·)) :
    Follows clock (run record (new maxPerMinute hpos) clock) := by
  induction clock using List.reverseRecOn with
  | nil => exact ⟨List.Sublist.refl _, fun _ _ => SameWindows.refl _⟩
  | append_singleton clock now ih =>
    obtain ⟨hbefore, -, hnow⟩ := List.pairwise_append.mp hsorted
    rw [run_append]
    exact ((ih hbefore).record hbefore fun at' hat => hnow at' hat now (by simp)).2

/-- Whether the call at `now` finds too many panics. -/
theorem exhausted_snoc {maxPerMinute : Nat} {hpos : 0 < maxPerMinute}
    (hsorted : (clock ++ [now]).Pairwise (· ≤ ·)) :
    (run record (new maxPerMinute hpos) (clock ++ [now])).exhausted = true ↔
      (run record (new maxPerMinute hpos) clock).exhausted = true ∨
        maxPerMinute ≤ (within now (clock ++ [now])).length := by
  obtain ⟨hbefore, -, hnow⟩ := List.pairwise_append.mp hsorted
  have hmax : (run record (new maxPerMinute hpos) clock).maxPerMinute = maxPerMinute := by
    induction clock using List.reverseRecOn with
    | nil => rfl
    | append_singleton clock last ih =>
      rw [run_append]
      have hsub : (clock ++ [now]).Sublist (clock ++ [last] ++ [now]) :=
        (List.sublist_append_left clock [last]).append_right [now]
      have hstart := hsorted.sublist hsub
      exact ih hstart (List.pairwise_append.mp hstart).1 (List.pairwise_append.mp hstart).2.2
  have hfollows : Follows clock (run record (new maxPerMinute hpos) clock) := recent_run hbefore
  have hrecent := (hfollows.record hbefore fun at' hat => hnow at' hat now (by simp)).1
  rw [run_append, run_cons, run_nil]
  show (_ || decide (_ ≤ (NativePanicBudget.record _ now).recent.length)) = true ↔ _
  rw [hrecent, hmax, Bool.or_eq_true, decide_eq_true_eq]

/-- Once exhausted, always exhausted. -/
theorem exhausted_run (h : budget.exhausted = true) (more : List ℚ) : (run record budget more).exhausted = true := by
  induction more generalizing budget with
  | nil => exact h
  | cons now more ih =>
    refine ih ?_
    show (budget.exhausted || _) = true
    rw [h, Bool.true_or]

/-- Some call found as many panics as the limit less than a minute old, its own among them. -/
def Spent (limit : Nat) (clock : List ℚ) : Prop :=
  ∃ earlier now later, clock = earlier ++ now :: later ∧
    limit ≤ ((earlier ++ [now]).filter fun at' => decide (age now at' < 60)).length

theorem spent_snoc {limit : Nat} :
    Spent limit (clock ++ [now]) ↔ Spent limit clock ∨ limit ≤ (within now (clock ++ [now])).length := by
  constructor
  · rintro ⟨earlier, moment, later, hsplit, hcount⟩
    rcases List.eq_nil_or_concat later with rfl | ⟨later, last, rfl⟩
    · obtain ⟨rfl, hlast⟩ := List.append_inj' hsplit rfl
      cases hlast
      exact .inr hcount
    · rw [List.concat_eq_append, ← List.cons_append, ← List.append_assoc] at hsplit
      obtain ⟨rfl, -⟩ := List.append_inj' hsplit rfl
      exact .inl ⟨earlier, moment, later, rfl, hcount⟩
  · rintro (⟨earlier, moment, later, rfl, hcount⟩ | hcount)
    · exact ⟨earlier, moment, later ++ [now], by simp, hcount⟩
    · exact ⟨clock, now, [], rfl, hcount⟩

theorem exhausted_iff_spent {maxPerMinute : Nat} (hpos : 0 < maxPerMinute) (hsorted : clock.Pairwise (· ≤ ·)) :
    (run record (new maxPerMinute hpos) clock).exhausted = true ↔ Spent maxPerMinute clock := by
  induction clock using List.reverseRecOn with
  | nil =>
    constructor
    · intro h
      cases h
    · rintro ⟨earlier, now, later, hsplit, -⟩
      simp at hsplit
  | append_singleton clock now ih =>
    rw [exhausted_snoc hsorted, spent_snoc, ih (List.pairwise_append.mp hsorted).1]

end NativePanicBudget

/-- **The panic budget is a test of sliding windows**: after any calls at times in order it is exhausted exactly if at
one of the calls at least `max_per_minute` of the panics so far were less than 60 s old; and it stays so. The age is
the difference of the clock's floats, which is the exact one wherever that is a float. -/
theorem panic_budget_iff (maxPerMinute : Nat) (hpos : 0 < maxPerMinute) (clock : List ℚ)
    (hsorted : clock.Pairwise (· ≤ ·)) :
    ((run NativePanicBudget.record (.new maxPerMinute hpos) clock).exhausted = true ↔
      ∃ earlier now later, clock = earlier ++ now :: later ∧
        maxPerMinute ≤ ((earlier ++ [now]).filter fun at' =>
          decide (NativePanicBudget.age now at' < 60)).length) ∧
    ((run NativePanicBudget.record (.new maxPerMinute hpos) clock).exhausted = true → ∀ more,
      (run NativePanicBudget.record (.new maxPerMinute hpos) (clock ++ more)).exhausted = true) ∧
    ((∀ now ∈ clock, ∀ at' ∈ clock, at' ≤ now → toDouble (now - at') = now - at') →
      ((run NativePanicBudget.record (.new maxPerMinute hpos) clock).exhausted = true ↔
        ∃ earlier now later, clock = earlier ++ now :: later ∧
          maxPerMinute ≤ ((earlier ++ [now]).filter fun at' => decide (now - at' < 60)).length)) := by
  refine ⟨NativePanicBudget.exhausted_iff_spent hpos hsorted, fun h more => ?_, fun hexact => ?_⟩
  · rw [run_append]
    exact NativePanicBudget.exhausted_run h more
  · rw [NativePanicBudget.exhausted_iff_spent hpos hsorted]
    -- in the windows of the run the two ages are the same
    have hsame : ∀ earlier now later, clock = earlier ++ now :: later →
        ((earlier ++ [now]).filter fun at' => decide (NativePanicBudget.age now at' < 60)) =
          (earlier ++ [now]).filter fun at' => decide (now - at' < 60) := by
      rintro earlier now later rfl
      refine List.filter_congr fun at' hat => ?_
      have hin : at' ∈ earlier ++ now :: later := by
        rcases List.mem_append.mp hat with hat | hat
        · exact List.mem_append_left _ hat
        · rw [List.mem_singleton.mp hat]
          exact List.mem_append_right _ List.mem_cons_self
      have hle : at' ≤ now := by
        rcases List.mem_append.mp hat with hat | hat
        · exact (List.pairwise_append.mp hsorted).2.2 at' hat now List.mem_cons_self
        · exact (List.mem_singleton.mp hat).le
      rw [NativePanicBudget.age, hexact now (List.mem_append_right _ List.mem_cons_self) at' hin hle]
    constructor
    · rintro ⟨earlier, now, later, hsplit, hcount⟩
      exact ⟨earlier, now, later, hsplit, hsame _ _ _ hsplit ▸ hcount⟩
    · rintro ⟨earlier, now, later, hsplit, hcount⟩
      exact ⟨earlier, now, later, hsplit, (hsame _ _ _ hsplit).symm ▸ hcount⟩

/-- Two panics a minute apart are in no window of a minute, two half a minute apart are in one; then a quiet hour. -/
theorem panic_budget_half_minute :
    (run NativePanicBudget.record (.new 2 (by decide)) [0, 60, 90]).exhausted = true ∧
      (run NativePanicBudget.record (.new 2 (by decide)) ([0, 60, 90] ++ [3690])).exhausted = true := by
  obtain ⟨hiff, hstays, -⟩ := panic_budget_iff 2 (by decide) [0, 60, 90] (by norm_num)
  have hspent := hiff.mpr ⟨[0, 60], 90, [], rfl, by decide +kernel⟩
  exact ⟨hspent, hstays hspent [3690]⟩

/-! ## The fall-back engine -/

variable {Frame : Type} {native python : FlowTracker Frame}

namespace FallbackFlowEngine

/-- When a call reports a panic to the budget: one of `counters` is not reported. -/
def reports (f : FallbackFlowEngine native python) (input : FallbackInput Frame) : List ℚ :=
  match f.live, input.call with
  | .python _, _ => []
  | .native _, .counters => []
  | .native _, _ => if input.panics.call then [input.panics.clock] else []

/-- The native engine is live, or has been abandoned. -/
def abandoned (f : FallbackFlowEngine native python) : Bool :=
  match f.live with
  | .native _ => false
  | .python _ => true

theorem fallBack_budget (f : FallbackFlowEngine native python) (engine : NativeEngine native) (panics : CallPanics) :
    (f.fallBack engine panics).budget = f.budget := by
  unfold fallBack NativeEngine.drain NativeEngine.flush NativeEngine.counters NativeEngine.panicStats
    NativeEngine.guarded
  cases panics.drain <;> cases panics.flush <;> cases panics.counters <;> cases panics.panicStats <;> rfl

/-- A panic that is reported is counted, and abandons the engine if that spends the budget. -/
theorem panicked_budget (f : FallbackFlowEngine native python) (engine : NativeEngine native) (panics : CallPanics) :
    (f.panicked engine.recover panics).budget = f.budget.record panics.clock ∧
      (f.panicked engine.recover panics).abandoned = (f.budget.record panics.clock).exhausted := by
  cases hexhausted : (f.budget.record panics.clock).exhausted with
  | false =>
    rw [panicked_of_not_exhausted hexhausted]
    exact ⟨rfl, rfl⟩
  | true =>
    obtain ⟨hlive, -⟩ := panicked_left hexhausted engine
    refine ⟨?_, by rw [abandoned, hlive]⟩
    rw [panicked_of_exhausted hexhausted, fallBack_budget]

/-- **One call.** The budget has counted what was reported, and the engine is abandoned once it is exhausted. -/
theorem perform_budget (f : FallbackFlowEngine native python) (input : FallbackInput Frame)
    (h : f.abandoned = f.budget.exhausted) :
    (f.perform input.panics input.call).2.budget = run NativePanicBudget.record f.budget (f.reports input) ∧
      (f.perform input.panics input.call).2.abandoned = (f.perform input.panics input.call).2.budget.exhausted := by
  obtain ⟨call, panics⟩ := input
  cases hlive : f.live with
  | python table =>
    have hgone : f.budget.exhausted = true := by rw [← h, abandoned, hlive]
    cases call <;>
      simp [perform, feedUs, feedPython, drain, sweepTimeouts, flush, counters, reports, abandoned, hlive, hgone]
  | native engine =>
    have hleft : f.budget.exhausted = false := by rw [← h, abandoned, hlive]
    cases hpanic : panics.call with
    | false =>
      cases call <;>
        simp [perform, feedUs, drain, sweepTimeouts, flush, counters, reports, abandoned, hlive, hpanic, hleft,
          NativeEngine.feed, NativeEngine.drain, NativeEngine.sweepTimeouts, NativeEngine.flush,
          NativeEngine.counters, NativeEngine.guarded]
    | true =>
      -- a panic of `counters` only leaves the engine recovered
      have hpanicked : ∀ f' : FallbackFlowEngine native python, f'.budget = f.budget → ∀ engine',
          (f'.panicked (NativeEngine.recover engine') panics).budget = f.budget.record panics.clock ∧
            (f'.panicked engine'.recover panics).abandoned = (f.budget.record panics.clock).exhausted := by
        intro f' hsame engine'
        rw [← hsame]
        exact panicked_budget f' engine' panics
      cases call with
      | counters =>
        simp [perform, counters, reports, abandoned, hlive, hpanic, hleft, NativeEngine.counters,
          NativeEngine.guarded]
      | feedUs frame =>
        simp only [perform, feedUs, reports, hlive, hpanic, NativeEngine.feed, NativeEngine.guarded, if_true]
        obtain ⟨hbudget, habandoned⟩ := hpanicked f rfl { engine with packetsSeen := engine.packetsSeen + 1 }
        exact ⟨hbudget, habandoned.trans (congrArg NativePanicBudget.exhausted hbudget.symm)⟩
      | drain =>
        simp only [perform, drain, reports, hlive, hpanic, NativeEngine.drain, NativeEngine.guarded, if_true]
        obtain ⟨hbudget, habandoned⟩ := hpanicked
          { f with pending := .empty, batchesLostToPanics := f.batchesLostToPanics + 1 } rfl engine
        simp only [hlive] at hbudget habandoned
        exact ⟨hbudget, habandoned.trans (congrArg NativePanicBudget.exhausted hbudget.symm)⟩
      | sweepTimeouts now =>
        simp only [perform, sweepTimeouts, reports, hlive, hpanic, NativeEngine.sweepTimeouts,
          NativeEngine.guarded, if_true]
        obtain ⟨hbudget, habandoned⟩ := hpanicked f rfl engine
        exact ⟨hbudget, habandoned.trans (congrArg NativePanicBudget.exhausted hbudget.symm)⟩
      | flush =>
        simp only [perform, flush, reports, hlive, hpanic, NativeEngine.flush, NativeEngine.guarded, if_true]
        obtain ⟨hbudget, habandoned⟩ := hpanicked f rfl engine
        exact ⟨hbudget, habandoned.trans (congrArg NativePanicBudget.exhausted hbudget.symm)⟩

end FallbackFlowEngine

namespace FallbackRun

/-- The times of the panics that a run reports. -/
def reported : FallbackRun native python → List (FallbackInput Frame) → List ℚ
  | _, [] => []
  | r, input :: rest => r.engine.reports input ++ reported (r.step input) rest

theorem run_budget (r : FallbackRun native python) (inputs : List (FallbackInput Frame))
    (h : r.engine.abandoned = r.engine.budget.exhausted) :
    (run step r inputs).engine.budget = run NativePanicBudget.record r.engine.budget (r.reported inputs) ∧
      (run step r inputs).engine.abandoned = (run step r inputs).engine.budget.exhausted := by
  induction inputs generalizing r with
  | nil => exact ⟨rfl, h⟩
  | cons input rest ih =>
    obtain ⟨hbudget, habandoned⟩ := r.engine.perform_budget input h
    obtain ⟨hrest, hend⟩ := ih (r.step input) habandoned
    refine ⟨?_, hend⟩
    rw [run_cons, hrest, reported, run_append]
    exact congrArg (run NativePanicBudget.record · _) hbudget

/-- The native engine is abandoned once a minute held too many of the panics that were reported. -/
theorem abandoned_iff (maxPerMinute : Nat) (hpos : 0 < maxPerMinute) (inputs : List (FallbackInput Frame))
    (hsorted : ((start native python maxPerMinute hpos).reported inputs).Pairwise (· ≤ ·)) :
    (run step (start native python maxPerMinute hpos) inputs).engine.abandoned = true ↔
      NativePanicBudget.Spent maxPerMinute ((start native python maxPerMinute hpos).reported inputs) := by
  obtain ⟨hbudget, habandoned⟩ := run_budget (start native python maxPerMinute hpos) inputs rfl
  rw [habandoned, hbudget]
  exact NativePanicBudget.exhausted_iff_spent hpos hsorted

end FallbackRun

end Pirewall
