/-
# Pirewall.Core.Throttle -- bounded sliding-window failure counters

`core/throttle.py`, and the portal's `LoginThrottle` (`portal/sessions.py`) over it. A window holds, for
each key, the times of its latest failures; a key with `max_failures` of them inside the window is
locked. Reading a key forgets what fell out of the window, so every reader also returns the window it
leaves behind.

`str.casefold` is a parameter: nothing here depends on which names it identifies.
-/
import Pirewall.Core.Models

namespace Pirewall

open Lib

/-- `math.ceil(delta.total_seconds())`. -/
def ceilSeconds (delta : Int) : Int := -(-delta / 1000000)

/-! ## One window -/

/-- `FailureWindow`: the recent failures of each key, oldest first. -/
structure FailureWindow (κ : Type) where
  maxFailures : Nat
  windowSeconds : Nat
  maxTrackedKeys : Nat
  failures : Dict κ (List Time)

namespace FailureWindow

variable {κ : Type} [DecidableEq κ]

/-- `_recent`: drop what fell out of the window, and the key with it when nothing is left. -/
def recent (window : FailureWindow κ) (key : κ) (now : Time) : List Time × FailureWindow κ :=
  match window.failures.get? key with
  | none => ([], window)
  | some times =>
    let kept := times.dropWhile fun time => decide (time ≤ now - seconds window.windowSeconds)
    (kept,
     { window with
       failures := if kept.isEmpty then window.failures.erase key else window.failures.set key kept })

/-- `is_locked_out`. -/
def isLockedOut (window : FailureWindow κ) (key : κ) (now : Time) : Bool × FailureWindow κ :=
  let (times, window) := window.recent key now
  (decide (window.maxFailures ≤ times.length), window)

/-- `seconds_until_unlocked`: whole seconds, rounded up; 0 when the key is not locked. -/
def secondsUntilUnlocked (window : FailureWindow κ) (key : κ) (now : Time) : Int × FailureWindow κ :=
  match window.recent key now with
  | ([], window) => (0, window)
  | (oldest :: newer, window) =>
    if (oldest :: newer).length < window.maxFailures then (0, window)
    else (max 1 (ceilSeconds (oldest + seconds window.windowSeconds - now)), window)

/-- The key whose newest failure is oldest. -/
def stalest (window : FailureWindow κ) : Option κ :=
  (firstMin (fun entry => entry.2.getLastD 0) window.failures.entries).map Prod.fst

/-- Make room for a key that is not tracked yet. -/
def makeRoom (window : FailureWindow κ) (key : κ) : FailureWindow κ :=
  if !window.failures.contains key && decide (window.maxTrackedKeys ≤ window.failures.size) then
    match window.stalest with
    | none => window
    | some old => { window with failures := window.failures.erase old }
  else window

/-- `record_failure`: whether this failure is the one that locks the key. -/
def recordFailure (window : FailureWindow κ) (key : κ) (now : Time) : Bool × FailureWindow κ :=
  let (wasLocked, window) := window.isLockedOut key now
  let window := window.makeRoom key
  -- `deque(maxlen=max_failures)`: the oldest goes when a full one grows
  let times := (window.failures.get? key).getD [] ++ [now]
  let times := times.drop (times.length - window.maxFailures)
  let (locked, window) := { window with failures := window.failures.set key times }.isLockedOut key now
  (!wasLocked && locked, window)

/-- `clear`. -/
def clear (window : FailureWindow κ) (key : κ) : FailureWindow κ :=
  { window with failures := window.failures.erase key }

end FailureWindow

/-! ## One window per scope -/

/-- What a lockout is counted over. -/
inductive LockoutScope where
  | source | account | global
  deriving DecidableEq, Repr

/-- What a scope counts: a client address, an account key, or the one shared key. -/
inductive ThrottleKey where
  | source (ip : IPv4Address)
  | account (name : String)
  | global
  deriving DecidableEq

/-- A refusal: which scope is locked, and for how long. -/
structure Lockout where
  scope : LockoutScope
  retryAfterSeconds : Int
  deriving DecidableEq

/-- `ScopedThrottle`: the windows of the scopes in use. -/
structure ScopedThrottle where
  windows : Dict LockoutScope (FailureWindow ThrottleKey)

namespace ScopedThrottle

/-- `ScopedThrottle.__init__`. -/
def init (limits : List (LockoutScope × Nat)) (windowSeconds maxTrackedKeys : Nat) : ScopedThrottle :=
  ⟨limits.foldl
    (fun windows limit => windows.set limit.1 ⟨limit.2, windowSeconds, maxTrackedKeys, Dict.empty⟩)
    Dict.empty⟩

/-- `_keys`: the keys of an attempt in the scopes in use, the shared one last. -/
def keys (throttle : ScopedThrottle) (given : List (LockoutScope × ThrottleKey)) :
    List (LockoutScope × ThrottleKey) :=
  (given.filter fun pair => throttle.windows.contains pair.1 && pair.1 != .global) ++
    if throttle.windows.contains .global then [(.global, .global)] else []

/-- One scope of the loop of `lockout`: a longer wait than the worst so far replaces it. -/
def worseLockout (now : Time) (state : Option Lockout × ScopedThrottle)
    (pair : LockoutScope × ThrottleKey) : Option Lockout × ScopedThrottle :=
  match state.2.windows.get? pair.1 with
  | none => state
  | some window =>
    let (wait, window) := window.secondsUntilUnlocked pair.2 now
    let throttle : ScopedThrottle := ⟨state.2.windows.set pair.1 window⟩
    match state.1 with
    | none => (if wait = 0 then none else some ⟨pair.1, wait⟩, throttle)
    | some worst =>
      (if wait ≠ 0 ∧ worst.retryAfterSeconds < wait then some ⟨pair.1, wait⟩ else some worst, throttle)

/-- `lockout`: the lockout refusing this attempt; with several, the longest wait wins. -/
def lockout (throttle : ScopedThrottle) (given : List (LockoutScope × ThrottleKey)) (now : Time) :
    Option Lockout × ScopedThrottle :=
  (throttle.keys given).foldl (worseLockout now) (none, throttle)

/-- One scope of the loop of `record_failure`. -/
def recordIn (now : Time) (state : List LockoutScope × ScopedThrottle)
    (pair : LockoutScope × ThrottleKey) : List LockoutScope × ScopedThrottle :=
  match state.2.windows.get? pair.1 with
  | none => state
  | some window =>
    let (locks, window) := window.recordFailure pair.2 now
    (if locks then state.1 ++ [pair.1] else state.1, ⟨state.2.windows.set pair.1 window⟩)

/-- `record_failure`: one failure in every scope, and the scopes it newly locked. -/
def recordFailure (throttle : ScopedThrottle) (given : List (LockoutScope × ThrottleKey)) (now : Time) :
    List LockoutScope × ScopedThrottle :=
  (throttle.keys given).foldl (recordIn now) ([], throttle)

/-- `clear`: the shared count is never cleared by a success. -/
def clear (throttle : ScopedThrottle) (scope : LockoutScope) (key : ThrottleKey) : ScopedThrottle :=
  match throttle.windows.get? scope with
  | none => throttle
  | some window => if scope = .global then throttle else ⟨throttle.windows.set scope (window.clear key)⟩

end ScopedThrottle

/-! ## The portal's throttle -/

/-- `_account_key`: case-folded, and never longer than a stored name. -/
def accountKey (casefold : String → String) (username : String) : ThrottleKey :=
  .account (String.ofList ((casefold username).toList.take 64))

/-- `_keys` of `portal/sessions.py`. -/
def loginKeys (casefold : String → String) (clientIp : IPv4Address) (username : Option String) :
    List (LockoutScope × ThrottleKey) :=
  (.source, .source clientIp) ::
    match username with
    | none => []
    | some name => [(.account, accountKey casefold name)]

/-- `LoginThrottle`: failed logins per source address, per account and globally. -/
structure LoginThrottle where
  casefold : String → String
  throttle : ScopedThrottle

namespace LoginThrottle

/-- `LoginThrottle.__init__` with all three limits, as `PortalService` builds it. -/
def init (casefold : String → String)
    (maxFailures windowSeconds maxFailuresPerAccount maxFailuresGlobal : Nat) : LoginThrottle :=
  ⟨casefold, .init [(.source, maxFailures), (.account, maxFailuresPerAccount), (.global, maxFailuresGlobal)]
    windowSeconds 4096⟩

/-- `lockout`. -/
def lockout (t : LoginThrottle) (clientIp : IPv4Address) (username : Option String) (now : Time) :
    Option Lockout × LoginThrottle :=
  let (refusal, throttle) := t.throttle.lockout (loginKeys t.casefold clientIp username) now
  (refusal, { t with throttle })

/-- `record_failure`. -/
def recordFailure (t : LoginThrottle) (clientIp : IPv4Address) (now : Time) (username : Option String) :
    List LockoutScope × LoginThrottle :=
  let (locked, throttle) := t.throttle.recordFailure (loginKeys t.casefold clientIp username) now
  (locked, { t with throttle })

/-- `clear`, on a successful login. -/
def clear (t : LoginThrottle) (clientIp : IPv4Address) (username : Option String) : LoginThrottle :=
  let throttle := t.throttle.clear .source (.source clientIp)
  match username with
  | none => { t with throttle }
  | some name => { t with throttle := throttle.clear .account (accountKey t.casefold name) }

end LoginThrottle

end Pirewall
