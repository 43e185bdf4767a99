/-
# Pirewall.Core.ThrottleScopes -- what a call on a throttle does to each of its scopes

`ScopedThrottle` asks the windows of an attempt one after the other. Since an attempt has one key in a scope, each
window is asked once, and the order only decides which of several lockouts is named.
-/
import Pirewall.Core.ThrottleCount

namespace Pirewall

open Lib

namespace ScopedThrottle

variable {window : FailureWindow ThrottleKey} {now : Time} {pair : LockoutScope × ThrottleKey}
  {pairs : List (LockoutScope × ThrottleKey)} {scope : LockoutScope} {key : ThrottleKey}

/-- A scope is asked how long to wait, and answers with a lockout unless it need not be waited for. -/
theorem worseLockout_spec {state : Option Lockout × ScopedThrottle}
    (h : state.2.windows.get? pair.1 = some window) :
    (worseLockout now state pair).2.windows = state.2.windows.set pair.1 (window.secondsUntilUnlocked pair.2 now).2 ∧
      ((worseLockout now state pair).1 = none → state.1 = none ∧ (window.secondsUntilUnlocked pair.2 now).1 = 0) := by
  unfold worseLockout
  rw [h]
  obtain ⟨_ | worst, throttle⟩ := state
  · refine ⟨rfl, fun hnone => ⟨rfl, ?_⟩⟩
    by_contra hwait
    exact absurd hnone (by simp [hwait])
  · refine ⟨rfl, fun hnone => absurd hnone ?_⟩
    dsimp only
    split
    · exact Option.some_ne_none _
    · exact Option.some_ne_none _

/-- A scope without a window is passed over. -/
theorem worseLockout_of_none {state : Option Lockout × ScopedThrottle} (h : state.2.windows.get? pair.1 = none) :
    worseLockout now state pair = state := by
  unfold worseLockout
  rw [h]

/-- The other scopes are left alone. -/
theorem worseLockout_other (state : Option Lockout × ScopedThrottle) (h : scope ≠ pair.1) :
    (worseLockout now state pair).2.windows.get? scope = state.2.windows.get? scope := by
  cases hget : state.2.windows.get? pair.1 with
  | none => rw [worseLockout_of_none hget]
  | some window => rw [(worseLockout_spec hget).1, Dict.get?_set, if_neg h]

theorem foldl_worseLockout_other (state : Option Lockout × ScopedThrottle) (h : scope ∉ pairs.map Prod.fst) :
    (pairs.foldl (worseLockout now) state).2.windows.get? scope = state.2.windows.get? scope := by
  induction pairs generalizing state with
  | nil => rfl
  | cons pair pairs ih =>
    rw [List.map_cons, List.mem_cons, not_or] at h
    rw [List.foldl_cons, ih _ h.2, worseLockout_other state h.1]

/-- Once there is a lockout, there will be one. -/
theorem foldl_worseLockout_none {state : Option Lockout × ScopedThrottle}
    (h : (pairs.foldl (worseLockout now) state).1 = none) : state.1 = none := by
  induction pairs generalizing state with
  | nil => exact h
  | cons pair pairs ih =>
    have hnext : (worseLockout now state pair).1 = none := ih h
    cases hget : state.2.windows.get? pair.1 with
    | none => rwa [worseLockout_of_none hget] at hnext
    | some window => exact ((worseLockout_spec hget).2 hnext).1

/-- Every scope of an attempt is asked, and none of them is locked if there is no lockout. -/
theorem foldl_worseLockout_spec (hnodup : (pairs.map Prod.fst).Nodup) (hmem : (scope, key) ∈ pairs)
    (state : Option Lockout × ScopedThrottle) (hget : state.2.windows.get? scope = some window) :
    let after := pairs.foldl (worseLockout now) state
    after.2.windows.get? scope = some (window.secondsUntilUnlocked key now).2 ∧
      (after.1 = none → (window.secondsUntilUnlocked key now).1 = 0) := by
  induction pairs generalizing state with
  | nil => exact absurd hmem List.not_mem_nil
  | cons pair pairs ih =>
    rw [List.map_cons, List.nodup_cons] at hnodup
    rcases List.mem_cons.mp hmem with rfl | hmem
    · have hfirst : state.2.windows.get? (scope, key).1 = some window := hget
      obtain ⟨hwindows, hnone⟩ : (worseLockout now state (scope, key)).2.windows = _ ∧ _ := worseLockout_spec hfirst
      refine ⟨?_, fun hafter => ?_⟩
      · rw [List.foldl_cons, foldl_worseLockout_other _ hnodup.1, hwindows, Dict.get?_set, if_pos rfl]
      · exact (hnone (foldl_worseLockout_none hafter)).2
    · have hne : scope ≠ pair.1 := by
        rintro rfl
        exact hnodup.1 (List.mem_map.mpr ⟨_, hmem, rfl⟩)
      refine ih hnodup.2 hmem (worseLockout now state pair) ?_
      rw [worseLockout_other state hne]
      exact hget

/-- An attempt asks how long to wait in each scope, and is refused unless it need not wait in any. -/
theorem lockout_spec {t : ScopedThrottle} {given : List (LockoutScope × ThrottleKey)} (hkeys : t.keys given = pairs)
    (hnodup : (pairs.map Prod.fst).Nodup) (hmem : (scope, key) ∈ pairs) (hget : t.windows.get? scope = some window)
    (now : Time) :
    (t.lockout given now).2.windows.get? scope = some (window.secondsUntilUnlocked key now).2 ∧
      ((t.lockout given now).1 = none → (window.secondsUntilUnlocked key now).1 = 0) := by
  unfold lockout
  rw [hkeys]
  exact foldl_worseLockout_spec hnodup hmem (none, t) hget

/-! ## Failures -/

/-- A scope is told of a failure. -/
theorem recordIn_spec {state : List LockoutScope × ScopedThrottle}
    (h : state.2.windows.get? pair.1 = some window) :
    (recordIn now state pair).2.windows = state.2.windows.set pair.1 (window.recordFailure pair.2 now).2 := by
  unfold recordIn
  rw [h]

theorem recordIn_other (state : List LockoutScope × ScopedThrottle) (h : scope ≠ pair.1) :
    (recordIn now state pair).2.windows.get? scope = state.2.windows.get? scope := by
  cases hget : state.2.windows.get? pair.1 with
  | none =>
    unfold recordIn
    rw [hget]
  | some window => rw [recordIn_spec hget, Dict.get?_set, if_neg h]

theorem foldl_recordIn_other (state : List LockoutScope × ScopedThrottle) (h : scope ∉ pairs.map Prod.fst) :
    (pairs.foldl (recordIn now) state).2.windows.get? scope = state.2.windows.get? scope := by
  induction pairs generalizing state with
  | nil => rfl
  | cons pair pairs ih =>
    rw [List.map_cons, List.mem_cons, not_or] at h
    rw [List.foldl_cons, ih _ h.2, recordIn_other state h.1]

/-- Every scope of an attempt is told of its failure. -/
theorem foldl_recordIn_spec (hnodup : (pairs.map Prod.fst).Nodup) (hmem : (scope, key) ∈ pairs)
    (state : List LockoutScope × ScopedThrottle) (hget : state.2.windows.get? scope = some window) :
    (pairs.foldl (recordIn now) state).2.windows.get? scope = some (window.recordFailure key now).2 := by
  induction pairs generalizing state with
  | nil => exact absurd hmem List.not_mem_nil
  | cons pair pairs ih =>
    rw [List.map_cons, List.nodup_cons] at hnodup
    rcases List.mem_cons.mp hmem with rfl | hmem
    · have hfirst : state.2.windows.get? (scope, key).1 = some window := hget
      rw [List.foldl_cons, foldl_recordIn_other _ hnodup.1, recordIn_spec hfirst, Dict.get?_set, if_pos rfl]
    · have hne : scope ≠ pair.1 := by
        rintro rfl
        exact hnodup.1 (List.mem_map.mpr ⟨_, hmem, rfl⟩)
      refine ih hnodup.2 hmem (recordIn now state pair) ?_
      rw [recordIn_other state hne]
      exact hget

/-- A failure is told of in each scope. -/
theorem recordFailure_spec {t : ScopedThrottle} {given : List (LockoutScope × ThrottleKey)}
    (hkeys : t.keys given = pairs) (hnodup : (pairs.map Prod.fst).Nodup) (hmem : (scope, key) ∈ pairs)
    (hget : t.windows.get? scope = some window) (now : Time) :
    (t.recordFailure given now).2.windows.get? scope = some (window.recordFailure key now).2 := by
  unfold recordFailure
  rw [hkeys]
  exact foldl_recordIn_spec hnodup hmem ([], t) hget

/-- A success of one key. -/
theorem clear_spec {t : ScopedThrottle} (hscope : scope ≠ .global) (h : t.windows.get? scope = some window) :
    (t.clear scope key).windows = t.windows.set scope (window.clear key) := by
  unfold clear
  rw [h]
  dsimp only
  rw [if_neg hscope]

end ScopedThrottle

end Pirewall
