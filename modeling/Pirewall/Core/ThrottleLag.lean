/-
# Pirewall.Core.ThrottleLag -- a failure window that hears late

Several threads share a `FailureWindow`. Each reads the clock once, before anything else, and tells the window of its
failure when it is done, so the window hears of failures in another order than they have times. A failure that is
heard late can push an earlier one out of its bounded queue, and is itself soon too old; then the window has room
although it should not. `Late` is what remains true when no failure is heard of more than `lag` after its time:
whatever the queue has forgotten is nearly too old.
-/
import Pirewall.Core.ThrottleCount

namespace Pirewall

open Lib

namespace FailureWindow

variable {κ : Type} [DecidableEq κ] {window : FailureWindow κ} {key : κ} {times : List Time} {clock now : Time}
  {lag : Int}

/-- A key that need not be waited for has fewer failures than the limit. -/
theorem length_recent_lt (hpos : 0 < window.maxFailures) (h : (window.secondsUntilUnlocked key now).1 = 0) :
    (window.recent key now).1.length < window.maxFailures := by
  have hlimits := (sameLimits_recent window key now).1
  rw [secondsUntilUnlocked] at h
  split at h
  · rename_i hrecent
    rw [hrecent]
    exact hpos
  · rename_i oldest newer _ hrecent
    rw [hrecent] at hlimits ⊢
    split at h
    · rename_i hfew
      rwa [hlimits] at hfew
    · exact absurd h (Int.lt_of_lt_of_le Int.one_pos (le_max_left _ _)).ne'

theorem sameLimits_recordFailure (window : FailureWindow κ) (key : κ) (now : Time) :
    window.SameLimits (window.recordFailure key now).2 := by
  obtain ⟨hfailures, hseconds, htracked⟩ := window.sameLimits_added key now
  obtain ⟨hfailures', hseconds', htracked'⟩ := (window.added key now).sameLimits_recent key now
  rw [recordFailure_eq]
  exact ⟨hfailures'.trans hfailures, hseconds'.trans hseconds, htracked'.trans htracked⟩

/-- A window for one key that has been told of failures, none later than `lag`. -/
structure Late (window : FailureWindow κ) (key : κ) (times : List Time) (clock : Time) (lag : Int) : Prop where
  alone : ∀ other, other ≠ key → window.failures.get? other = none
  room : 0 < window.maxTrackedKeys
  recent : Recent window.maxFailures (clock - seconds window.windowSeconds + lag) times
    ((window.failures.get? key).getD [])
  lagging : times.Pairwise fun earlier later => earlier ≤ later + lag
  past : ∀ t ∈ times, t ≤ clock

namespace Late

/-- What was nearly too old when the clock was read is before a stretch that is shorter by twice the lag. -/
theorem before_horizon {now clock horizon t width lag : Int} (hhorizon : now ≤ horizon) (hheard : clock ≤ now + lag)
    (hold : t ≤ clock - width + lag) : t ≤ horizon - (width - 2 * lag) := by
  omega

theorem init (maxFailures windowSeconds : Nat) {maxTrackedKeys : Nat} (h : 0 < maxTrackedKeys) (key : κ)
    (clock : Time) (lag : Int) :
    Late ⟨maxFailures, windowSeconds, maxTrackedKeys, Dict.empty⟩ key [] clock lag where
  alone _ _ := rfl
  room := h
  recent := .of_old fun _ ht => absurd ht List.not_mem_nil
  lagging := .nil
  past _ ht := absurd ht List.not_mem_nil

/-- Time passes. -/
theorem later (h : window.Late key times clock lag) {clock' : Time} (hle : clock ≤ clock') :
    window.Late key times clock' lag where
  alone := h.alone
  room := h.room
  recent := h.recent.later (Int.add_le_add_right (Int.sub_le_sub_right hle _) lag)
  lagging := h.lagging
  past t ht := (h.past t ht).trans hle

/-- What a call that read the clock some time ago leaves under the key. -/
theorem kept (h : window.Late key times clock lag) (hlag : 0 ≤ lag) (hnow : now ≤ clock) :
    Recent window.maxFailures (clock - seconds window.windowSeconds + lag) times (window.recent key now).1 := by
  rw [(recent_spec window key now).1]
  have hcutoff : now - seconds window.windowSeconds ≤ clock - seconds window.windowSeconds :=
    Int.sub_le_sub_right hnow _
  refine h.recent.prune_lagging (hcutoff.trans (Int.le_add_of_nonneg_right hlag)) (h.lagging.imp fun hle hold => ?_)
  exact hle.trans (Int.add_le_add_right (le_trans hold hcutoff) lag)

theorem read (h : window.Late key times clock lag) (hlag : 0 ≤ lag) (hnow : now ≤ clock) :
    (window.recent key now).2.Late key times clock lag := by
  obtain ⟨hread, hwindow, hget⟩ := recent_spec window key now
  rw [hwindow]
  refine ⟨?_, h.room, ?_, h.lagging, h.past⟩
  · intro other hother
    show (window.recent key now).2.failures.get? other = none
    rw [hget, if_neg hother]
    exact h.alone other hother
  · have hkept := h.kept hlag hnow
    show Recent window.maxFailures _ times (((window.recent key now).2.failures.get? key).getD [])
    rw [hget, if_pos rfl]
    rw [hread] at hkept
    split
    · rename_i hnil
      rwa [hnil] at hkept
    · exact hkept

/-- There is always room for the one key. -/
theorem makeRoom (h : window.Late key times clock lag) : window.makeRoom key = window := by
  unfold FailureWindow.makeRoom
  cases hget : window.failures.get? key with
  | some kept =>
    have hcontains : window.failures.contains key = true := by
      simp [Dict.contains, hget]
    simp [hcontains]
  | none =>
    have hnil : window.failures.entries = [] := by
      refine List.eq_nil_iff_forall_not_mem.mpr fun entry hentry => ?_
      have hsome := Dict.mem_entries_iff.mp hentry
      by_cases hkey : entry.1 = key
      · rw [hkey, hget] at hsome
        exact absurd hsome (by simp)
      · rw [h.alone entry.1 hkey] at hsome
        exact absurd hsome (by simp)
    have hsize : ¬window.maxTrackedKeys ≤ window.failures.size := by
      have hroom := h.room
      rw [Dict.size, hnil]
      exact Nat.not_le.mpr hroom
    simp [hsize]

/-- The window is told of a failure. -/
theorem added (h : window.Late key times clock lag) (hlag : 0 ≤ lag) (hnow : now ≤ clock)
    (hheard : clock ≤ now + lag) : (window.added key now).Late key (times ++ [now]) clock lag := by
  have hread : (window.recent key now).2.Late key times clock lag := h.read hlag hnow
  unfold FailureWindow.added
  rw [hread.makeRoom]
  refine ⟨?_, hread.room, ?_, ?_, ?_⟩
  · intro other hother
    show Dict.get? (Dict.set _ _ _) other = none
    rw [Dict.get?_set, if_neg hother]
    exact hread.alone other hother
  · show Recent _ _ (times ++ [now]) ((Dict.get? (Dict.set _ _ _) key).getD [])
    rw [Dict.get?_set, if_pos rfl]
    exact hread.recent.append now
  · refine List.pairwise_append.mpr ⟨h.lagging, List.pairwise_singleton _ _, ?_⟩
    intro t ht later hlater
    rw [List.mem_singleton.mp hlater]
    exact (h.past t ht).trans hheard
  · intro t ht
    rcases List.mem_append.mp ht with ht | ht
    · exact h.past t ht
    · rw [List.mem_singleton.mp ht]
      exact hnow

theorem recordFailure (h : window.Late key times clock lag) (hlag : 0 ≤ lag) (hnow : now ≤ clock)
    (hheard : clock ≤ now + lag) : (window.recordFailure key now).2.Late key (times ++ [now]) clock lag := by
  rw [recordFailure_eq]
  exact (h.added hlag hnow hheard).read hlag hnow

/-- A key that is not locked has fewer failures than the limit in any stretch of time that is shorter than the window
by twice the lag and not over before the call. -/
theorem countP_lt (h : window.Late key times clock lag) (hlag : 0 ≤ lag) (hnow : now ≤ clock)
    (hheard : clock ≤ now + lag) (hfree : (window.recent key now).1.length < window.maxFailures) {horizon : Time}
    (hhorizon : now ≤ horizon) :
    (times.countP fun t => decide (horizon - (seconds window.windowSeconds - 2 * lag) < t ∧ t ≤ horizon)) <
      window.maxFailures := by
  obtain ⟨⟨gone, hsplit, hgone⟩, -⟩ := h.kept hlag hnow
  have hold : ∀ t ∈ gone, t ≤ clock - seconds window.windowSeconds + lag := hgone.resolve_right hfree.ne
  have hnone : (gone.countP fun t =>
      decide (horizon - (seconds window.windowSeconds - 2 * lag) < t ∧ t ≤ horizon)) = 0 := by
    refine List.countP_eq_zero.mpr fun t ht hin => ?_
    exact absurd (of_decide_eq_true hin).1 (not_lt.mpr (before_horizon hhorizon hheard (hold t ht)))
  rw [hsplit, List.countP_append, hnone, Nat.zero_add]
  exact List.countP_le_length.trans_lt hfree

end Late

end FailureWindow

end Pirewall
