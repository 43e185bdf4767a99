/-
# Pirewall.Core.ThrottleCount -- a failure window counts failures

What a `FailureWindow` is for can be said with the whole history: a key is locked while at least `max_failures` of its
failures, since it was last cleared, lie within the window. `FailureLog` is that history. The code forgets in three
ways. A key keeps no more failures than the limit; reading a key drops what is too old, and the key with its last
failure; and a full table gives up the key whose newest failure is oldest.

`Tracks` is what survives of the log under a key. The first two ways keep it whatever happens; the third keeps it as
long as the table has room for the keys with a failure in the window, since the key that goes then has none.

The wait that is reported is told by the log as well: within its last second there is an instant up to which the key
stays locked, whatever is called, unless it is cleared, and from which on it is free unless it fails again
(`Sound.waits`).
-/
import Pirewall.Core.Throttle
import Pirewall.Lib.Run
import Pirewall.Lib.Window

namespace Pirewall

open Lib

variable {κ : Type} [DecidableEq κ]

/-! ## The reference -/

/-- Every failure since its key was last cleared, oldest first. -/
abbrev FailureLog (κ : Type) := List (κ × Time)

namespace FailureLog

/-- The failures of one key. -/
def times (log : FailureLog κ) (key : κ) : List Time := (log.filter fun failure => failure.1 = key).map Prod.snd

/-- How many failures of a key lie in `(now - window, now]`. -/
def count (log : FailureLog κ) (windowSeconds : Nat) (key : κ) (now : Time) : Nat :=
  (log.times key).countP fun t => decide (now - seconds windowSeconds < t ∧ t ≤ now)

/-- The keys with a failure in the window. -/
def liveKeys (log : FailureLog κ) (windowSeconds : Nat) (now : Time) : List κ :=
  ((log.filter fun failure => now - seconds windowSeconds < failure.2).map Prod.fst).dedup

theorem times_append_self (log : FailureLog κ) (key : κ) (now : Time) :
    FailureLog.times (log ++ [(key, now)]) key = log.times key ++ [now] := by
  simp [times]

theorem times_append_of_ne (log : FailureLog κ) {key key' : κ} (h : key' ≠ key) (now : Time) :
    FailureLog.times (log ++ [(key, now)]) key' = log.times key' := by
  simp [times, h.symm]

theorem times_filter_self (log : FailureLog κ) (key : κ) :
    FailureLog.times (log.filter fun failure => failure.1 ≠ key) key = [] := by
  simp [times]

theorem times_filter_of_ne (log : FailureLog κ) {key key' : κ} (h : key' ≠ key) :
    FailureLog.times (log.filter fun failure => failure.1 ≠ key) key' = log.times key' := by
  rw [times, List.filter_filter]
  congr 1
  exact List.filter_congr fun failure _ => by grind

theorem mem_times_iff {log : FailureLog κ} {key : κ} {t : Time} : t ∈ log.times key ↔ (key, t) ∈ log := by
  constructor
  · intro h
    obtain ⟨⟨key', t'⟩, hmem, rfl⟩ := List.mem_map.mp h
    obtain ⟨hlog, hkey⟩ := List.mem_filter.mp hmem
    rw [decide_eq_true_eq] at hkey
    exact hkey ▸ hlog
  · intro h
    exact List.mem_map.mpr ⟨(key, t), List.mem_filter.mpr ⟨h, decide_eq_true rfl⟩, rfl⟩

theorem mem_liveKeys {log : FailureLog κ} {windowSeconds : Nat} {now : Time} {key : κ} {t : Time}
    (h : t ∈ log.times key) (hlive : now - seconds windowSeconds < t) : key ∈ log.liveKeys windowSeconds now := by
  rw [liveKeys, List.mem_dedup]
  exact List.mem_map.mpr ⟨(key, t), List.mem_filter.mpr ⟨mem_times_iff.mp h, decide_eq_true hlive⟩, rfl⟩

theorem sub_seconds_lt {windowSeconds : Nat} (h : 0 < windowSeconds) (now : Time) :
    now - seconds windowSeconds < now :=
  Int.sub_lt_self now (by rw [seconds]; omega)

/-- When nothing lies in the future, the window needs no end. -/
theorem count_eq {log : FailureLog κ} {windowSeconds : Nat} {key : κ} {now : Time}
    (h : ∀ t ∈ log.times key, t ≤ now) :
    log.count windowSeconds key now = ((log.times key).filter fun t => now - seconds windowSeconds < t).length := by
  rw [count, List.countP_eq_length_filter]
  congr 1
  exact List.filter_congr fun t ht => by simp [h t ht]

end FailureLog

/-! ## Calls -/

/-- The calls on a `FailureWindow`. -/
inductive ThrottleCall (κ : Type) where
  | recordFailure (key : κ) (now : Time)
  | clear (key : κ)
  | isLockedOut (key : κ) (now : Time)
  | secondsUntilUnlocked (key : κ) (now : Time)

namespace ThrottleCall

/-- When a call is made; `clear` does not ask for the time. -/
def time : ThrottleCall κ → Option Time
  | recordFailure _ now | isLockedOut _ now | secondsUntilUnlocked _ now => some now
  | clear _ => none

/-- The key that a call fails or clears. -/
def changes : ThrottleCall κ → Option κ
  | recordFailure key _ | clear key => some key
  | isLockedOut _ _ | secondsUntilUnlocked _ _ => none

end ThrottleCall

/-- A window, the history of its calls, and the time of the last of them. -/
structure WatchedWindow (κ : Type) where
  window : FailureWindow κ
  log : FailureLog κ
  clock : Time

namespace WatchedWindow

/-- A new window, watched from some time on. -/
def init (maxFailures windowSeconds maxTrackedKeys : Nat) (start : Time) : WatchedWindow κ :=
  ⟨⟨maxFailures, windowSeconds, maxTrackedKeys, Dict.empty⟩, [], start⟩

/-- One call: the window moves as the code has it, the log takes a failure in and forgets a key that is cleared. -/
def step (s : WatchedWindow κ) (call : ThrottleCall κ) : WatchedWindow κ where
  window :=
    match call with
    | .recordFailure key now => (s.window.recordFailure key now).2
    | .clear key => s.window.clear key
    | .isLockedOut key now => (s.window.isLockedOut key now).2
    | .secondsUntilUnlocked key now => (s.window.secondsUntilUnlocked key now).2
  log :=
    match call with
    | .recordFailure key now => s.log ++ [(key, now)]
    | .clear key => s.log.filter fun failure => failure.1 ≠ key
    | _ => s.log
  clock := call.time.getD s.clock

/-- Whether a key is locked, by the history. -/
def Locked (s : WatchedWindow κ) (key : κ) (now : Time) : Prop :=
  s.window.maxFailures ≤ s.log.count s.window.windowSeconds key now

instance (s : WatchedWindow κ) (key : κ) (now : Time) : Decidable (s.Locked key now) :=
  inferInstanceAs (Decidable (_ ≤ _))

/-- Times do not decrease, and the table has room for the keys with a failure in the window. -/
def Meets (s : WatchedWindow κ) (call : ThrottleCall κ) : Prop :=
  (∀ now ∈ call.time, s.clock ≤ now) ∧
    ((s.step call).log.liveKeys s.window.windowSeconds (s.step call).clock).length ≤ s.window.maxTrackedKeys

end WatchedWindow

/-! ## What is kept under a key -/

namespace FailureWindow

/-- What the table holds under a key, for what the key's failures were: enough of the recent ones, and no empty
list. -/
structure Tracks (window : FailureWindow κ) (log : FailureLog κ) (clock : Time) (key : κ) : Prop where
  ne_nil : window.failures.get? key ≠ some []
  recent : Recent window.maxFailures (clock - seconds window.windowSeconds) (log.times key)
    ((window.failures.get? key).getD [])

variable {window : FailureWindow κ} {log : FailureLog κ} {clock now : Time} {key key' : κ}

/-- `_recent` reads a key and drops what is too old. -/
theorem recent_spec (window : FailureWindow κ) (key : κ) (now : Time) :
    let kept := ((window.failures.get? key).getD []).dropWhile fun t => decide (t ≤ now - seconds window.windowSeconds)
    (window.recent key now).1 = kept ∧
      (window.recent key now).2 =
        { window with failures := (window.recent key now).2.failures } ∧
      ∀ key', (window.recent key now).2.failures.get? key' =
        if key' = key then (if kept = [] then none else some kept) else window.failures.get? key' := by
  rw [recent]
  cases hget : window.failures.get? key with
  | none =>
    refine ⟨rfl, rfl, ?_⟩
    intro key'
    by_cases hkey : key' = key
    · rw [if_pos hkey, hkey, hget]
      rfl
    · rw [if_neg hkey]
  | some times =>
    refine ⟨rfl, rfl, ?_⟩
    intro key'
    simp only [Option.getD_some]
    cases hkept : times.dropWhile fun t => decide (t ≤ now - seconds window.windowSeconds) with
    | nil =>
      simp only [List.isEmpty_nil, if_true, Dict.get?_erase]
    | cons t kept =>
      simp only [List.isEmpty_cons, Bool.false_eq_true, if_false, Dict.get?_set]
      simp

theorem secondsUntilUnlocked_snd (window : FailureWindow κ) (key : κ) (now : Time) :
    (window.secondsUntilUnlocked key now).2 = (window.recent key now).2 := by
  rw [secondsUntilUnlocked]
  split
  · rename_i hrecent
    rw [hrecent]
  · rename_i hrecent
    rw [hrecent]
    split
    · rfl
    · rfl

/-- The limits of a window stay what they are. -/
def SameLimits (window window' : FailureWindow κ) : Prop :=
  window'.maxFailures = window.maxFailures ∧ window'.windowSeconds = window.windowSeconds ∧
    window'.maxTrackedKeys = window.maxTrackedKeys

theorem sameLimits_recent (window : FailureWindow κ) (key : κ) (now : Time) :
    window.SameLimits (window.recent key now).2 := by
  rw [(recent_spec window key now).2.1]
  exact ⟨rfl, rfl, rfl⟩

theorem sameLimits_makeRoom (window : FailureWindow κ) (key : κ) : window.SameLimits (window.makeRoom key) := by
  rw [makeRoom]
  split
  · split
    · exact ⟨rfl, rfl, rfl⟩
    · exact ⟨rfl, rfl, rfl⟩
  · exact ⟨rfl, rfl, rfl⟩

namespace Tracks

/-- Reading some key at a later time. -/
theorem read (h : window.Tracks log clock key') (hsorted : (log.times key').Pairwise (· ≤ ·)) (hle : clock ≤ now) :
    (window.recent key now).2.Tracks log now key' := by
  obtain ⟨-, hwindow, hget⟩ := recent_spec window key now
  have hlater := h.recent.later (Int.sub_le_sub_right hle (seconds window.windowSeconds))
  rw [hwindow]
  constructor
  · show (window.recent key now).2.failures.get? key' ≠ some []
    rw [hget]
    split
    · split
      · exact nofun
      · rename_i hkept
        exact fun heq => hkept (Option.some.inj heq)
    · exact h.ne_nil
  · show Recent window.maxFailures (now - seconds window.windowSeconds) (log.times key')
      (((window.recent key now).2.failures.get? key').getD [])
    rw [hget]
    split
    · rename_i hkey
      subst hkey
      have hprune := hlater.prune hsorted
      split
      · rename_i hkept
        rwa [hkept] at hprune
      · exact hprune
    · exact hlater

end Tracks

/-- Whether a key is locked is whether the log has so many failures in the window. -/
theorem isLockedOut_eq (h : window.Tracks log clock key) (hsorted : (log.times key).Pairwise (· ≤ ·))
    (hpast : ∀ t ∈ log.times key, t ≤ now) (hle : clock ≤ now) :
    (window.isLockedOut key now).1 = decide (window.maxFailures ≤ log.count window.windowSeconds key now) := by
  have hlater := h.recent.later (Int.sub_le_sub_right hle (seconds window.windowSeconds))
  show decide ((window.recent key now).2.maxFailures ≤ (window.recent key now).1.length) = _
  refine decide_eq_decide.mpr ?_
  rw [(sameLimits_recent window key now).1, (recent_spec window key now).1, FailureLog.count_eq hpast]
  exact hlater.limit_le_iff hsorted

/-- The last time kept under a key is its newest failure. -/
theorem Tracks.newest (h : window.Tracks log clock key) (hsorted : (log.times key).Pairwise (· ≤ ·))
    {kept : List Time} (hget : window.failures.get? key = some kept) :
    kept.getLastD 0 ∈ log.times key ∧ ∀ t ∈ log.times key, t ≤ kept.getLastD 0 := by
  have hne : kept ≠ [] := by
    rintro rfl
    exact h.ne_nil hget
  obtain ⟨⟨gone, hsplit, -⟩, -⟩ := h.recent
  obtain ⟨older, last, rfl⟩ := (List.eq_nil_or_concat kept).resolve_left hne
  rw [List.concat_eq_append] at hget ⊢
  rw [hget, Option.getD_some, ← List.append_assoc] at hsplit
  rw [hsplit, List.pairwise_append] at hsorted
  rw [hsplit, List.getLastD_concat]
  constructor
  · exact List.mem_append_right _ (List.mem_singleton_self last)
  · intro t ht
    rcases List.mem_append.mp ht with hold | hlast
    · exact hsorted.2.2 t hold last (List.mem_singleton_self last)
    · exact (List.mem_singleton.mp hlast).le

/-- No tracked key has an older newest failure than the one that goes first. -/
theorem stalest_spec {old : κ} (h : window.stalest = some old) :
    ∃ kept, window.failures.get? old = some kept ∧
      ∀ key times, window.failures.get? key = some times → kept.getLastD 0 ≤ times.getLastD 0 := by
  obtain ⟨⟨_, kept⟩, hmin, rfl⟩ := Option.map_eq_some_iff.mp h
  refine ⟨kept, Dict.mem_entries_iff.mp (firstMin_mem hmin), ?_⟩
  intro key times hget
  exact firstMin_le hmin (key, times) (Dict.mem_entries_iff.mpr hget)

/-- In a full table whose keys all have a failure in the window, there is none for one key more. -/
theorem stalest_old (hwindow : 0 < window.windowSeconds) (h : ∀ key, window.Tracks log now key)
    (hsorted : ∀ key, (log.times key).Pairwise (· ≤ ·)) (hnew : window.failures.get? key = none)
    (hfull : window.maxTrackedKeys ≤ window.failures.size)
    (hroom : (FailureLog.liveKeys (log ++ [(key, now)]) window.windowSeconds now).length ≤ window.maxTrackedKeys)
    {old : κ} (hstalest : window.stalest = some old) :
    ∀ t ∈ log.times old, t ≤ now - seconds window.windowSeconds := by
  obtain ⟨kept, hget, hleast⟩ := stalest_spec hstalest
  intro t ht
  by_contra hlive
  -- every tracked key is then live, and so is the new one
  have htracked : ∀ k ∈ window.failures.keys,
      k ∈ FailureLog.liveKeys (log ++ [(key, now)]) window.windowSeconds now := by
    intro k hk
    obtain ⟨times, htimes⟩ := Dict.mem_keys_iff.mp hk
    have hmem := ((h k).newest (hsorted k) htimes).1
    refine FailureLog.mem_liveKeys (FailureLog.mem_times_iff.mpr ?_) ?_ (t := times.getLastD 0)
    · exact List.mem_append_left _ (FailureLog.mem_times_iff.mp hmem)
    · calc now - seconds window.windowSeconds < t := not_le.mp hlive
        _ ≤ kept.getLastD 0 := ((h old).newest (hsorted old) hget).2 t ht
        _ ≤ times.getLastD 0 := hleast k times htimes
  have hown : key ∈ FailureLog.liveKeys (log ++ [(key, now)]) window.windowSeconds now := by
    refine FailureLog.mem_liveKeys (FailureLog.mem_times_iff.mpr ?_) ?_ (t := now)
    · exact List.mem_append_right _ (List.mem_singleton_self _)
    · exact FailureLog.sub_seconds_lt hwindow now
  have hnodup : (key :: window.failures.keys).Nodup :=
    List.nodup_cons.mpr ⟨Dict.get?_eq_none_iff.mp hnew, window.failures.nodup⟩
  have hcount := (hnodup.subperm (List.cons_subset.mpr ⟨hown, htracked⟩)).length_le
  have hsize : window.failures.keys.length = window.failures.size := List.length_map _
  rw [List.length_cons, hsize] at hcount
  omega

/-- A full table gives up a key that nothing need be kept of. -/
theorem makeRoom_tracks (hwindow : 0 < window.windowSeconds) (h : ∀ key, window.Tracks log now key)
    (hsorted : ∀ key, (log.times key).Pairwise (· ≤ ·))
    (hroom : (FailureLog.liveKeys (log ++ [(key, now)]) window.windowSeconds now).length ≤ window.maxTrackedKeys) :
    ∀ key', (window.makeRoom key).Tracks log now key' := by
  rw [makeRoom]
  split
  · rename_i hfull
    rw [Bool.and_eq_true, Bool.not_eq_true', decide_eq_true_eq, Dict.contains, Option.isSome_eq_false_iff,
      Option.isNone_iff_eq_none] at hfull
    split
    · exact h
    · rename_i old hstalest
      have hold := stalest_old hwindow h hsorted hfull.1 hfull.2 hroom hstalest
      intro key'
      by_cases hkey : key' = old
      · subst hkey
        constructor
        · simp
        · simpa using Recent.of_old hold
      · constructor
        · rw [Dict.get?_erase, if_neg hkey]
          exact (h key').ne_nil
        · rw [Dict.get?_erase, if_neg hkey]
          exact (h key').recent
  · exact h

/-- `record_failure` before it looks whether the key is locked now. -/
def added (window : FailureWindow κ) (key : κ) (now : Time) : FailureWindow κ :=
  let window := (window.recent key now).2.makeRoom key
  let times := (window.failures.get? key).getD [] ++ [now]
  { window with failures := window.failures.set key (times.drop (times.length - window.maxFailures)) }

theorem recordFailure_eq (window : FailureWindow κ) (key : κ) (now : Time) :
    window.recordFailure key now =
      (!(window.isLockedOut key now).1 && ((window.added key now).isLockedOut key now).1,
        ((window.added key now).recent key now).2) := rfl

theorem sameLimits_added (window : FailureWindow κ) (key : κ) (now : Time) :
    window.SameLimits (window.added key now) := by
  obtain ⟨hfailures, hwindow, htracked⟩ := sameLimits_recent window key now
  obtain ⟨hfailures', hwindow', htracked'⟩ := sameLimits_makeRoom (window.recent key now).2 key
  exact ⟨hfailures'.trans hfailures, hwindow'.trans hwindow, htracked'.trans htracked⟩

theorem added_tracks (hlimit : 0 < window.maxFailures) (hwindow : 0 < window.windowSeconds)
    (h : ∀ key, window.Tracks log clock key) (hsorted : ∀ key, (log.times key).Pairwise (· ≤ ·)) (hle : clock ≤ now)
    (hroom : (FailureLog.liveKeys (log ++ [(key, now)]) window.windowSeconds now).length ≤ window.maxTrackedKeys) :
    ∀ key', (window.added key now).Tracks (log ++ [(key, now)]) now key' := by
  obtain ⟨hfailures, hseconds, htracked⟩ := sameLimits_recent window key now
  have hmade := makeRoom_tracks (hseconds ▸ hwindow) (fun k => (h k).read (hsorted k) hle) hsorted
    (by rwa [hseconds, htracked])
  intro key'
  rw [added]
  by_cases hkey : key' = key
  · subst hkey
    have happend := (hmade key').recent.append now
    constructor
    · simp only [Dict.get?_set, if_true]
      intro hnil
      have hlength := congrArg List.length (Option.some.inj hnil)
      rw [List.length_drop, List.length_append, List.length_singleton, List.length_nil,
        (sameLimits_makeRoom _ key').1, hfailures] at hlength
      omega
    · simp only [Dict.get?_set, if_true, FailureLog.times_append_self]
      exact happend
  · constructor
    · simp only [Dict.get?_set, if_neg hkey]
      exact (hmade key').ne_nil
    · simp only [Dict.get?_set, if_neg hkey, FailureLog.times_append_of_ne log hkey]
      exact (hmade key').recent

/-- A key that is cleared has no failures, and the others keep theirs. -/
theorem clear_tracks (h : ∀ key, window.Tracks log clock key) (key : κ) :
    ∀ key', (window.clear key).Tracks (log.filter fun failure => failure.1 ≠ key) clock key' := by
  intro key'
  rw [clear]
  by_cases hkey : key' = key
  · subst hkey
    constructor
    · simp
    · simp only [Dict.get?_erase, if_true, FailureLog.times_filter_self]
      exact Recent.of_old (by simp)
  · constructor
    · simp only [Dict.get?_erase, if_neg hkey]
      exact (h key').ne_nil
    · simp only [Dict.get?_erase, if_neg hkey, FailureLog.times_filter_of_ne log hkey]
      exact (h key').recent

end FailureWindow

/-! ## A watched window -/

namespace WatchedWindow

variable {s : WatchedWindow κ} {call : ThrottleCall κ} {key : κ} {now : Time}

/-- The table keeps track of the log, and the log is in order. -/
structure Sound (s : WatchedWindow κ) : Prop where
  limit_pos : 0 < s.window.maxFailures
  window_pos : 0 < s.window.windowSeconds
  sorted : ∀ key, (s.log.times key).Pairwise (· ≤ ·)
  past : ∀ key, ∀ t ∈ s.log.times key, t ≤ s.clock
  tracks : ∀ key, s.window.Tracks s.log s.clock key

theorem sameLimits_step (s : WatchedWindow κ) (call : ThrottleCall κ) :
    s.window.SameLimits (s.step call).window := by
  cases call with
  | recordFailure key now =>
    obtain ⟨hfailures, hseconds, htracked⟩ := s.window.sameLimits_added key now
    obtain ⟨hfailures', hseconds', htracked'⟩ := (s.window.added key now).sameLimits_recent key now
    exact ⟨hfailures'.trans hfailures, hseconds'.trans hseconds, htracked'.trans htracked⟩
  | clear key => exact ⟨rfl, rfl, rfl⟩
  | isLockedOut key now => exact s.window.sameLimits_recent key now
  | secondsUntilUnlocked key now =>
    show s.window.SameLimits (s.window.secondsUntilUnlocked key now).2
    rw [s.window.secondsUntilUnlocked_snd key now]
    exact s.window.sameLimits_recent key now

/-- What a call leaves of a key's failures, unless it is a failure of that key. -/
theorem times_step_sublist (h : ∀ now, call ≠ .recordFailure key now) :
    ((s.step call).log.times key).Sublist (s.log.times key) := by
  cases call with
  | recordFailure other now =>
    have hkey : key ≠ other := by
      rintro rfl
      exact h now rfl
    exact (FailureLog.times_append_of_ne s.log hkey now).symm ▸ List.Sublist.refl _
  | clear other => exact List.Sublist.map Prod.snd (List.Sublist.filter _ List.filter_sublist)
  | isLockedOut other now => exact List.Sublist.refl _
  | secondsUntilUnlocked other now => exact List.Sublist.refl _

theorem times_step_of_changes_ne (h : call.changes ≠ some key) :
    (s.step call).log.times key = s.log.times key := by
  cases call with
  | recordFailure other now => exact FailureLog.times_append_of_ne s.log (fun hkey => h (congrArg some hkey.symm)) now
  | clear other => exact FailureLog.times_filter_of_ne s.log fun hkey => h (congrArg some hkey.symm)
  | isLockedOut other now => rfl
  | secondsUntilUnlocked other now => rfl

theorem Meets.clock_le (h : s.Meets call) : s.clock ≤ (s.step call).clock := by
  show s.clock ≤ call.time.getD s.clock
  cases htime : call.time with
  | none => exact le_refl _
  | some now => exact h.1 now htime

/-- The log stays in order. -/
theorem Sound.log_step (h : s.Sound) (hcall : s.Meets call) (key : κ) :
    ((s.step call).log.times key).Pairwise (· ≤ ·) ∧ ∀ t ∈ (s.step call).log.times key, t ≤ (s.step call).clock := by
  by_cases hrecord : ∃ now, call = .recordFailure key now
  · obtain ⟨now, rfl⟩ := hrecord
    have htimes : (s.step (.recordFailure key now)).log.times key = s.log.times key ++ [now] :=
      FailureLog.times_append_self s.log key now
    have hpast : ∀ t ∈ s.log.times key, t ≤ now := fun t ht => (h.past key t ht).trans (hcall.1 now rfl)
    rw [htimes]
    constructor
    · refine List.pairwise_append.mpr ⟨h.sorted key, List.pairwise_singleton _ _, ?_⟩
      intro t ht last hlast
      exact (hpast t ht).trans (List.mem_singleton.mp hlast).ge
    · intro t ht
      rcases List.mem_append.mp ht with hold | hnew
      · exact hpast t hold
      · exact (List.mem_singleton.mp hnew).le
  · have hsub := times_step_sublist (s := s) fun now hcall => hrecord ⟨now, hcall⟩
    exact ⟨(h.sorted key).sublist hsub, fun t ht => (h.past key t (hsub.subset ht)).trans hcall.clock_le⟩

/-- Every call keeps track. -/
theorem Sound.tracks_step (h : s.Sound) (hcall : s.Meets call) (key : κ) :
    (s.step call).window.Tracks (s.step call).log (s.step call).clock key := by
  have hlog := h.log_step hcall key
  cases call with
  | recordFailure failed now =>
    have hadded := FailureWindow.added_tracks h.limit_pos h.window_pos h.tracks h.sorted (hcall.1 now rfl) hcall.2
    exact (hadded key).read hlog.1 (le_refl now)
  | clear cleared => exact FailureWindow.clear_tracks h.tracks cleared key
  | isLockedOut asked now => exact (h.tracks key).read (h.sorted key) (hcall.1 now rfl)
  | secondsUntilUnlocked asked now =>
    show (s.window.secondsUntilUnlocked asked now).2.Tracks s.log now key
    rw [s.window.secondsUntilUnlocked_snd asked now]
    exact (h.tracks key).read (h.sorted key) (hcall.1 now rfl)

theorem sound_step (h : s.Sound) (hcall : s.Meets call) : (s.step call).Sound where
  limit_pos := (s.sameLimits_step call).1 ▸ h.limit_pos
  window_pos := (s.sameLimits_step call).2.1 ▸ h.window_pos
  sorted key := (h.log_step hcall key).1
  past key := (h.log_step hcall key).2
  tracks := h.tracks_step hcall

theorem sound_init {maxFailures windowSeconds : Nat} (hmax : 0 < maxFailures) (hwindow : 0 < windowSeconds)
    (maxTrackedKeys : Nat) (start : Time) :
    (init maxFailures windowSeconds maxTrackedKeys start : WatchedWindow κ).Sound where
  limit_pos := hmax
  window_pos := hwindow
  sorted _ := List.Pairwise.nil
  past _ _ ht := absurd ht List.not_mem_nil
  tracks _ := ⟨nofun, Recent.of_old fun _ ht => absurd ht List.not_mem_nil⟩

/-! ## What the calls answer -/

/-- `is_locked_out` tells what the log says. -/
theorem Sound.isLockedOut_eq (h : s.Sound) (key : κ) (hle : s.clock ≤ now) :
    (s.window.isLockedOut key now).1 = decide (s.Locked key now) :=
  FailureWindow.isLockedOut_eq (h.tracks key) (h.sorted key) (fun t ht => (h.past key t ht).trans hle) hle

/-- What a wait of `n` seconds means for a key: it is locked when the wait is not 0, and there is an instant, more than
`n - 1` and not more than `n` seconds away, up to which it stays locked unless it is cleared, and from which on it is
not unless it fails again. -/
def Waits (s : WatchedWindow κ) (key : κ) (now : Time) (n : Int) : Prop :=
  (n = 0 ↔ ¬s.Locked key now) ∧
    (s.Locked key now → ∃ unlockAt : Time, now + seconds (n - 1) < unlockAt ∧ unlockAt ≤ now + seconds n ∧
      ∀ more, Along step Meets (s.step (.secondsUntilUnlocked key now)) more →
        (∀ t, .recordFailure key t ∉ more) →
        ∀ t, (run step (s.step (.secondsUntilUnlocked key now)) more).clock ≤ t →
          (t < unlockAt → .clear key ∉ more →
            ((run step (s.step (.secondsUntilUnlocked key now)) more).window.isLockedOut key t).1 = true) ∧
          (unlockAt ≤ t →
            ((run step (s.step (.secondsUntilUnlocked key now)) more).window.isLockedOut key t).1 = false))

/-- A call answers what the log says. -/
def Answers (s : WatchedWindow κ) (call : ThrottleCall κ) : Prop :=
  match call with
  | .recordFailure key now =>
    (s.window.recordFailure key now).1 = (!decide (s.Locked key now) && decide ((s.step call).Locked key now))
  | .clear _ => True
  | .isLockedOut key now => (s.window.isLockedOut key now).1 = decide (s.Locked key now)
  | .secondsUntilUnlocked key now => s.Waits key now (s.window.secondsUntilUnlocked key now).1

theorem Sound.recordFailure_eq (h : s.Sound) (hcall : s.Meets (.recordFailure key now)) :
    (s.window.recordFailure key now).1 =
      (!decide (s.Locked key now) && decide ((s.step (.recordFailure key now)).Locked key now)) := by
  have hadded := FailureWindow.added_tracks h.limit_pos h.window_pos h.tracks h.sorted (hcall.1 now rfl) hcall.2
  have hlog := h.log_step hcall key
  obtain ⟨hmax, hseconds, -⟩ := (s.window.added key now).sameLimits_recent key now
  have hlocked : (s.step (.recordFailure key now)).Locked key now ↔ (s.window.added key now).maxFailures ≤
      FailureLog.count (s.log ++ [(key, now)]) (s.window.added key now).windowSeconds key now := by
    show ((s.window.added key now).recent key now).2.maxFailures ≤
      FailureLog.count _ ((s.window.added key now).recent key now).2.windowSeconds key now ↔ _
    rw [hmax, hseconds]
    exact Iff.rfl
  have hafter : ((s.window.added key now).isLockedOut key now).1 = _ :=
    FailureWindow.isLockedOut_eq (hadded key) hlog.1 hlog.2 (le_refl now)
  rw [FailureWindow.recordFailure_eq, h.isLockedOut_eq key (hcall.1 now rfl), hafter,
    decide_eq_decide.mpr hlocked]

theorem sameLimits_run (s : WatchedWindow κ) (more : List (ThrottleCall κ)) :
    s.window.SameLimits (run step s more).window := by
  induction more generalizing s with
  | nil => exact ⟨rfl, rfl, rfl⟩
  | cons call more ih =>
    obtain ⟨hmax, hseconds, htracked⟩ := s.sameLimits_step call
    obtain ⟨hmax', hseconds', htracked'⟩ := ih (s.step call)
    exact ⟨hmax'.trans hmax, hseconds'.trans hseconds, htracked'.trans htracked⟩

theorem times_run_sublist {more : List (ThrottleCall κ)} (h : ∀ t, .recordFailure key t ∉ more) :
    ((run step s more).log.times key).Sublist (s.log.times key) := by
  induction more generalizing s with
  | nil => exact List.Sublist.refl _
  | cons call more ih =>
    have hcall : ∀ t, call ≠ .recordFailure key t := fun t ht => h t (ht ▸ List.mem_cons_self)
    exact (ih fun t ht => h t (List.mem_cons_of_mem _ ht)).trans (times_step_sublist hcall)

theorem times_run_of_changes_ne {more : List (ThrottleCall κ)} (h : ∀ call ∈ more, call.changes ≠ some key) :
    (run step s more).log.times key = s.log.times key := by
  induction more generalizing s with
  | nil => rfl
  | cons call more ih =>
    exact (ih fun c hc => h c (List.mem_cons_of_mem _ hc)).trans
      (times_step_of_changes_ne (h call List.mem_cons_self))

omit [DecidableEq κ] in
theorem changes_ne_of_notMem {more : List (ThrottleCall κ)} (hrecord : ∀ t, .recordFailure key t ∉ more)
    (hclear : .clear key ∉ more) : ∀ call ∈ more, call.changes ≠ some key := by
  intro call hcall hchanges
  cases call with
  | recordFailure other now => exact hrecord now (Option.some.inj hchanges ▸ hcall)
  | clear other => exact hclear (Option.some.inj hchanges ▸ hcall)
  | isLockedOut other now => exact nomatch hchanges
  | secondsUntilUnlocked other now => exact nomatch hchanges

theorem Sound.locked_iff (h : s.Sound) (hle : s.clock ≤ now) :
    s.Locked key now ↔
      s.window.maxFailures ≤ ((s.log.times key).filter fun t => now - seconds s.window.windowSeconds < t).length := by
  rw [Locked, FailureLog.count_eq fun t ht => (h.past key t ht).trans hle]

/-- The unlock instant of a locked key is when the oldest of its latest `max_failures` failures leaves the window. -/
theorem Sound.locked_run_iff (h : s.Sound) {oldest : Time} {newer : List Time} {cutoff : Time}
    (hkept : Recent s.window.maxFailures cutoff (s.log.times key) (oldest :: newer))
    (hlength : (oldest :: newer).length = s.window.maxFailures) {more : List (ThrottleCall κ)}
    (hmore : Along step Meets s more) (hrecord : ∀ t, .recordFailure key t ∉ more)
    (hle : (run step s more).clock ≤ now) :
    (now < oldest + seconds s.window.windowSeconds → .clear key ∉ more → (run step s more).Locked key now) ∧
      (oldest + seconds s.window.windowSeconds ≤ now → ¬(run step s more).Locked key now) := by
  have hsound : (run step s more).Sound := Along.invariant (fun _ _ => sound_step) hmore h
  have hiff := hkept.limit_le_filter_iff (h.sorted key) hlength (now - seconds s.window.windowSeconds)
  obtain ⟨hmax, hseconds, -⟩ := s.sameLimits_run more
  rw [hsound.locked_iff hle, hmax, hseconds]
  constructor
  · intro hlt hclear
    rw [times_run_of_changes_ne (changes_ne_of_notMem hrecord hclear)]
    exact hiff.mpr (Int.sub_right_lt_of_lt_add hlt)
  · intro hge hlocked
    have hsub := ((times_run_sublist (s := s) hrecord).filter fun t =>
      decide (now - seconds s.window.windowSeconds < t)).length_le
    have hlt := hiff.mp (hlocked.trans hsub)
    exact absurd (Int.lt_add_of_sub_right_lt hlt) (not_lt.mpr hge)

/-- Rounding a wait up to whole seconds. -/
theorem ceilSeconds_spec {delta : Int} (h : 0 < delta) :
    1 ≤ ceilSeconds delta ∧ seconds (ceilSeconds delta - 1) < delta ∧ delta ≤ seconds (ceilSeconds delta) := by
  rw [seconds, seconds, ceilSeconds]
  omega

/-- `seconds_until_unlocked` tells how long the key stays locked. -/
theorem Sound.waits (h : s.Sound) (hcall : s.Meets (.secondsUntilUnlocked key now)) :
    s.Waits key now (s.window.secondsUntilUnlocked key now).1 := by
  have hle := hcall.1 now rfl
  obtain ⟨hread, hwindow, -⟩ := FailureWindow.recent_spec s.window key now
  have hlater := (h.tracks key).recent.later (Int.sub_le_sub_right hle (seconds s.window.windowSeconds))
  have hkept : Recent s.window.maxFailures (now - seconds s.window.windowSeconds) (s.log.times key)
      (s.window.recent key now).1 := hread ▸ hlater.prune (h.sorted key)
  -- locked means that the window has as many failures as the limit
  have hlocked : s.Locked key now ↔ s.window.maxFailures ≤ (s.window.recent key now).1.length := by
    rw [h.locked_iff hle, hread]
    exact (hlater.limit_le_iff (h.sorted key)).symm
  rw [FailureWindow.secondsUntilUnlocked]
  split
  · rename_i window hrecent
    rw [hrecent] at hlocked
    have hfree : ¬s.Locked key now := fun hlock => absurd (hlocked.mp hlock) (not_le.mpr h.limit_pos)
    exact ⟨⟨fun _ => hfree, fun _ => rfl⟩, fun hlock => absurd hlock hfree⟩
  · rename_i oldest newer window hrecent
    have hmax : window.maxFailures = s.window.maxFailures := by
      rw [← (s.window.sameLimits_recent key now).1, hrecent]
    have hseconds : window.windowSeconds = s.window.windowSeconds := by
      rw [← (s.window.sameLimits_recent key now).2.1, hrecent]
    rw [hrecent] at hkept hlocked
    rw [hmax, hseconds]
    by_cases hfew : (oldest :: newer).length < s.window.maxFailures
    · rw [if_pos hfew]
      have hfree : ¬s.Locked key now := fun hlock => absurd (hlocked.mp hlock) (not_le.mpr hfew)
      exact ⟨⟨fun _ => hfree, fun _ => rfl⟩, fun hlock => absurd hlock hfree⟩
    · rw [if_neg hfew]
      -- the oldest of those counted is still in the window, so there is a time to wait
      have hlive : now - seconds s.window.windowSeconds < oldest := by
        have hmem : oldest ∈ (s.window.recent key now).1 := by
          rw [hrecent]
          exact List.mem_cons_self
        rw [hread, dropWhile_eq_filter_of_sorted ((h.tracks key).recent.sorted (h.sorted key))] at hmem
        exact of_decide_eq_true (List.mem_filter.mp hmem).2
      have hlock : s.Locked key now := hlocked.mpr (not_lt.mp hfew)
      obtain ⟨hpos, hlow, hhigh⟩ :=
        ceilSeconds_spec (Int.sub_pos_of_lt (Int.lt_add_of_sub_right_lt hlive))
      rw [max_eq_right hpos]
      refine ⟨⟨fun hzero => absurd hzero (Int.lt_of_add_one_le hpos).ne', fun hfree => absurd hlock hfree⟩, fun _ => ?_⟩
      refine ⟨oldest + seconds s.window.windowSeconds, Int.add_lt_of_lt_sub_left hlow,
        Int.le_add_of_sub_left_le hhigh, ?_⟩
      -- whatever is called until then, the key is locked until the oldest failure leaves the window
      intro more hmore hrecord t ht
      have hsound := sound_step h hcall
      obtain ⟨hlimit, hwindow, -⟩ := s.sameLimits_step (.secondsUntilUnlocked key now)
      have hlength : (oldest :: newer).length = s.window.maxFailures := le_antisymm hkept.length_le (not_lt.mp hfew)
      rw [← hlimit] at hkept hlength
      have hafter := hsound.locked_run_iff hkept hlength hmore hrecord ht
      have hend : (run WatchedWindow.step (s.step (.secondsUntilUnlocked key now)) more).Sound :=
        Along.invariant (fun _ _ => sound_step) hmore hsound
      rw [hend.isLockedOut_eq key ht, decide_eq_true_eq, decide_eq_false_iff_not, ← hwindow]
      exact hafter

end WatchedWindow

open WatchedWindow in
/-- Over every run of calls in order of time in which the table has room for the keys that are live, every call
answers what the whole history of failures says. -/
theorem failure_window_counts {maxFailures windowSeconds : Nat} (hmax : 1 ≤ maxFailures) (hwindow : 0 < windowSeconds)
    (maxTrackedKeys : Nat) (start : Time) (calls : List (ThrottleCall κ))
    (h : Along step Meets (init maxFailures windowSeconds maxTrackedKeys start) calls) :
    Along step Answers (init maxFailures windowSeconds maxTrackedKeys start) calls := by
  refine Along.of_invariant (fun _ _ => sound_step) ?_ h (sound_init hmax hwindow maxTrackedKeys start)
  intro s call hs hcall
  cases call with
  | recordFailure key now => exact hs.recordFailure_eq hcall
  | clear key => trivial
  | isLockedOut key now => exact hs.isLockedOut_eq key (hcall.1 now rfl)
  | secondsUntilUnlocked key now => exact hs.waits hcall

open WatchedWindow in
/-- Two failures in ten seconds lock a key, and a table for one key takes another when the first is no longer live. -/
theorem failure_window_counts_evicted :
    let calls : List (ThrottleCall Nat) :=
      [.recordFailure 1 0, .recordFailure 1 5000000, .secondsUntilUnlocked 1 7500000, .recordFailure 2 16000000,
        .isLockedOut 1 16000000]
    Along step Answers (init 2 10 1 0) calls := by
  refine failure_window_counts (by decide) (by decide) 1 0 _ ?_
  refine ⟨⟨?_, ?_⟩, ⟨?_, ?_⟩, ⟨?_, ?_⟩, ⟨?_, ?_⟩, ⟨?_, ?_⟩, trivial⟩
  all_goals decide

end Pirewall
