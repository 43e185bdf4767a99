/-
# Pirewall.Api.Panel -- guessing the password of the control panel

Whoever wants to log in, add an allowlist entry or let a guard enforce is asked for the admin password. Each request is
one thread of a pool: it reads the clock, asks the throttle whether it may go on, checks the password, and tells the
throttle of a failure. Each of these is a step here, with the other threads between any two.

So the throttle does not count what it admits. Several attempts can be admitted before the first of them has failed,
and the failures are heard late, in another order than they have times. `guesses_bounded` says what its limit is worth
nevertheless, and `session_live_iff` that nobody is let in without the password.
-/
import Mathlib.Data.List.Perm.Basic
import Pirewall.Api.Auth
import Pirewall.Core.ThrottleLag
import Pirewall.Core.ThrottleScopes

namespace Pirewall.Api

open Lib

/-! ## The throttle -/

/-- `_key`: a connection without an address is counted all the same. An address is a text here. -/
def hostKey : Option String → ThrottleKey
  | none => .account "unknown"
  | some clientHost => .account (if clientHost = "" then "unknown" else clientHost)

/-- `AdminLoginThrottle`. -/
structure AdminLoginThrottle where
  throttle : ScopedThrottle

namespace AdminLoginThrottle

/-- `AdminLoginThrottle.__init__`. -/
def init (maxFailedLoginsPerIp maxFailedLoginsGlobal failedLoginWindowSeconds : Nat) : AdminLoginThrottle :=
  ⟨.init [(.source, maxFailedLoginsPerIp), (.global, maxFailedLoginsGlobal)] failedLoginWindowSeconds 4096⟩

/-- `lockout`. -/
def lockout (t : AdminLoginThrottle) (clientHost : Option String) (now : Time) : Option Lockout × AdminLoginThrottle :=
  let (refusal, throttle) := t.throttle.lockout [(.source, hostKey clientHost)] now
  (refusal, ⟨throttle⟩)

/-- `record_failure`. -/
def recordFailure (t : AdminLoginThrottle) (clientHost : Option String) (now : Time) :
    List LockoutScope × AdminLoginThrottle :=
  let (locked, throttle) := t.throttle.recordFailure [(.source, hostKey clientHost)] now
  (locked, ⟨throttle⟩)

/-- `clear`. -/
def clear (t : AdminLoginThrottle) (clientHost : Option String) : AdminLoginThrottle :=
  ⟨t.throttle.clear .source (hostKey clientHost)⟩

/-- The window of all clients together. -/
def Counts (t : AdminLoginThrottle) (window : FailureWindow ThrottleKey) : Prop :=
  (∃ source, t.throttle.windows.get? .source = some source) ∧ t.throttle.windows.get? .global = some window

variable {t : AdminLoginThrottle} {window : FailureWindow ThrottleKey}

theorem counts_init (maxFailedLoginsPerIp maxFailedLoginsGlobal failedLoginWindowSeconds : Nat) :
    (init maxFailedLoginsPerIp maxFailedLoginsGlobal failedLoginWindowSeconds).Counts
      ⟨maxFailedLoginsGlobal, failedLoginWindowSeconds, 4096, Dict.empty⟩ :=
  ⟨⟨_, rfl⟩, rfl⟩

/-- An attempt is counted under its client and under all clients. -/
theorem Counts.keys (h : t.Counts window) (clientHost : Option String) :
    t.throttle.keys [(.source, hostKey clientHost)] = [(.source, hostKey clientHost), (.global, .global)] := by
  obtain ⟨⟨source, hsource⟩, hglobal⟩ := h
  have hcontains : t.throttle.windows.contains .source = true ∧ t.throttle.windows.contains .global = true := by
    simp [Dict.contains, hsource, hglobal]
  unfold ScopedThrottle.keys
  rw [if_pos hcontains.2, List.filter_cons_of_pos (by simp [hcontains.1])]
  rfl

theorem nodup_scopes : ([.source, .global] : List LockoutScope).Nodup := by
  decide

/-- An attempt that is not refused is locked in neither window. -/
theorem Counts.lockout (h : t.Counts window) (clientHost : Option String) (now : Time) :
    (t.lockout clientHost now).2.Counts (window.recent .global now).2 ∧
      ((t.lockout clientHost now).1 = none → (window.secondsUntilUnlocked .global now).1 = 0) := by
  have hkeys := h.keys clientHost
  obtain ⟨⟨source, hsource⟩, hglobal⟩ := h
  obtain ⟨hsource', -⟩ := ScopedThrottle.lockout_spec hkeys nodup_scopes List.mem_cons_self hsource now
  obtain ⟨hglobal', hfree⟩ :=
    ScopedThrottle.lockout_spec hkeys nodup_scopes (List.mem_cons_of_mem _ List.mem_cons_self) hglobal now
  rw [window.secondsUntilUnlocked_snd] at hglobal'
  exact ⟨⟨⟨_, hsource'⟩, hglobal'⟩, hfree⟩

theorem Counts.recordFailure (h : t.Counts window) (clientHost : Option String) (now : Time) :
    (t.recordFailure clientHost now).2.Counts (window.recordFailure .global now).2 := by
  have hkeys := h.keys clientHost
  obtain ⟨⟨source, hsource⟩, hglobal⟩ := h
  exact ⟨⟨_, ScopedThrottle.recordFailure_spec hkeys nodup_scopes List.mem_cons_self hsource now⟩,
    ScopedThrottle.recordFailure_spec hkeys nodup_scopes (List.mem_cons_of_mem _ List.mem_cons_self) hglobal now⟩

/-- A success clears nothing for all clients. -/
theorem Counts.clear (h : t.Counts window) (clientHost : Option String) : (t.clear clientHost).Counts window := by
  obtain ⟨⟨source, hsource⟩, hglobal⟩ := h
  have hclear : (t.clear clientHost).throttle.windows =
      t.throttle.windows.set .source (source.clear (hostKey clientHost)) :=
    ScopedThrottle.clear_spec (by decide) hsource
  refine ⟨⟨source.clear (hostKey clientHost), ?_⟩, ?_⟩
  · rw [hclear, Dict.get?_set, if_pos rfl]
  · rw [hclear, Dict.get?_set, if_neg (by decide)]
    exact hglobal

end AdminLoginThrottle

/-! ## The panel -/

/-- The administrator's credentials, and what `verify_password` says of a password and a stored hash. -/
structure Credentials where
  adminUsername : String
  adminPasswordHash : String
  verifyPassword : String → String → Bool

/-- What the password is asked for: to log in, or to confirm a change that the core is then asked for. -/
inductive PasswordRequest (ρ : Type) where
  | login (username password : String)
  | confirm (password : Option String) (change : ρ)

/-- One attempt to give the password: who makes it, and what its thread read from the clock. -/
structure Attempt (ρ : Type) where
  clientHost : Option String
  now : Time
  request : PasswordRequest ρ

/-- An `AUTHENTICATION_FAILURE` event: what failed, or which lockout it started. -/
inductive AuthenticationReport (ρ : Type) where
  | failed (attempt : Attempt ρ)
  | lockoutStarted (scope : LockoutScope) (attempt : Attempt ρ)

/-- `hmac.compare_digest` of two texts: a `TypeError` unless both are ASCII. -/
def compareDigest (a b : String) : Option Bool :=
  if a.toList.all (fun c => c.val < 128) && b.toList.all (fun c => c.val < 128) then some (decide (a = b)) else none

/-- What `login` or `confirm_password` says of an attempt. There is nothing to say of one that raises something else or
gives no password. -/
def Credentials.accepts {ρ : Type} (c : Credentials) : PasswordRequest ρ → Option Bool
  | .login username password =>
    (compareDigest username c.adminUsername).map fun usernameOk =>
      usernameOk && c.verifyPassword password c.adminPasswordHash
  | .confirm password _ => password.map fun password => c.verifyPassword password c.adminPasswordHash

/-- The control panel. The last four fields are its history: what the core recorded, what it was asked for, which
attempts failed, in the order in which the throttle heard of them, and the calls on the session store. -/
structure Panel (ρ : Type) where
  credentials : Credentials
  store : SessionStore
  throttle : AdminLoginThrottle
  clock : Time
  waiting : List (Attempt ρ)
  checking : List (Attempt ρ)
  reports : List (AuthenticationReport ρ)
  forwarded : List ρ
  failed : List (Attempt ρ)
  calls : List SessionCall

/-- Time passes, a request arrives and its thread reads the clock, a thread asks the throttle, a thread has checked the
password, or a session is used or ended. `token` is what `secrets` gives to a new session, `answered` how many events
the core takes in before a call fails. -/
inductive PanelAction (ρ : Type) where
  | tick (elapsed : Nat)
  | arrive (clientHost : Option String) (request : PasswordRequest ρ)
  | ask (thread : Nat)
  | settle (thread : Nat) (token : String) (answered : Nat)
  | visit (token : String) (now : Time)
  | logout (token : String) (now : Time)

namespace Panel

variable {ρ : Type}

/-- `create_app`. -/
def init (credentials : Credentials) (store : SessionStore) (throttle : AdminLoginThrottle) (start : Time) : Panel ρ :=
  ⟨credentials, store, throttle, start, [], [], [], [], [], []⟩

/-- `refuse_if_locked_out`: a refused attempt is over. -/
def ask (s : Panel ρ) (thread : Nat) : Panel ρ :=
  match s.waiting[thread]? with
  | none => s
  | some attempt =>
    let (refusal, throttle) := s.throttle.lockout attempt.clientHost attempt.now
    { s with
      throttle
      waiting := s.waiting.eraseIdx thread
      checking := if refusal.isNone then s.checking ++ [attempt] else s.checking }

/-- `record_failed_authentication`. -/
def recordFailedAuthentication (s : Panel ρ) (attempt : Attempt ρ) (answered : Nat) : Panel ρ :=
  let (newlyLocked, throttle) := s.throttle.recordFailure attempt.clientHost attempt.now
  let reports := .failed attempt :: newlyLocked.map fun scope => .lockoutStarted scope attempt
  { s with throttle, failed := s.failed ++ [attempt], reports := s.reports ++ reports.take answered }

/-- The right password: a session for a login, which clears the client's failures, or the change itself. -/
def grant (s : Panel ρ) (attempt : Attempt ρ) (token : String) : Panel ρ :=
  match attempt.request with
  | .login username _ =>
    { s with
      store := (s.store.create token username attempt.now).2
      throttle := s.throttle.clear attempt.clientHost
      calls := s.calls ++ [.create token username attempt.now] }
  | .confirm _ change => { s with forwarded := s.forwarded ++ [change] }

/-- A thread has checked the password. -/
def settle (s : Panel ρ) (thread : Nat) (token : String) (answered : Nat) : Panel ρ :=
  match s.checking[thread]? with
  | none => s
  | some attempt =>
    let s := { s with checking := s.checking.eraseIdx thread }
    match s.credentials.accepts attempt.request with
    | none => s
    | some true => s.grant attempt token
    | some false => s.recordFailedAuthentication attempt answered

/-- `require_session`. -/
def visit (s : Panel ρ) (token : String) (now : Time) : Panel ρ :=
  { s with store := (s.store.validate token now).2, calls := s.calls ++ [.validate token now] }

/-- `logout`, behind `require_session`. -/
def logout (s : Panel ρ) (token : String) (now : Time) : Panel ρ :=
  let visited := s.visit token now
  match (s.store.validate token now).1 with
  | none => visited
  | some session =>
    { visited with
      store := visited.store.invalidate session.token
      calls := visited.calls ++ [.invalidate session.token] }

def step (s : Panel ρ) : PanelAction ρ → Panel ρ
  | .tick elapsed => { s with clock := s.clock + elapsed }
  | .arrive clientHost request => { s with waiting := s.waiting ++ [⟨clientHost, s.clock, request⟩] }
  | .ask thread => s.ask thread
  | .settle thread token answered => s.settle thread token answered
  | .visit token now => s.visit token now
  | .logout token now => s.logout token now

/-! ## Guesses -/

/-- The pool has so many workers, and no attempt is under way for longer than `lag`. -/
def InTime (workers : Nat) (lag : Int) (s : Panel ρ) : Prop :=
  s.waiting.length + s.checking.length ≤ workers ∧
    ∀ attempt ∈ s.waiting ++ s.checking, s.clock ≤ attempt.now + lag

/-- How many of some attempts read the clock within a stretch of time that ends at the horizon. -/
def within (attempts : List (Attempt ρ)) (width : Int) (horizon : Time) : Nat :=
  attempts.countP fun attempt => decide (horizon - width < attempt.now ∧ attempt.now ≤ horizon)

/-- The throttle has been told of every failure, and has not admitted more attempts than that allows. -/
structure Guarded (limit windowSeconds workers : Nat) (lag : Int) (s : Panel ρ) : Prop where
  counts : ∃ window, s.throttle.Counts window ∧ window.maxFailures = limit ∧ window.windowSeconds = windowSeconds ∧
    window.Late .global (s.failed.map Attempt.now) s.clock lag
  past : ∀ attempt ∈ s.waiting ++ s.checking, attempt.now ≤ s.clock
  bound : ∀ horizon, within (s.failed ++ s.checking) (seconds windowSeconds - 2 * lag) horizon ≤ limit + workers - 1

variable {limit windowSeconds workers : Nat} {lag : Int} {s : Panel ρ}

theorem within_append (first rest : List (Attempt ρ)) (width : Int) (horizon : Time) :
    within (first ++ rest) width horizon = within first width horizon + within rest width horizon :=
  List.countP_append

theorem guarded_init (limit windowSeconds workers maxFailedLoginsPerIp : Nat) (lag : Int) (credentials : Credentials)
    (store : SessionStore) (start : Time) :
    Guarded limit windowSeconds workers lag
      (init credentials store (.init maxFailedLoginsPerIp limit windowSeconds) start : Panel ρ) where
  counts := ⟨_, AdminLoginThrottle.counts_init _ _ _, rfl, rfl, .init _ _ (by decide) _ _ _⟩
  past _ h := absurd h List.not_mem_nil
  bound _ := Nat.zero_le _

/-- A thread asks the throttle. -/
theorem Guarded.ask (h : s.Guarded limit windowSeconds workers lag) (hpos : 0 < limit) (hlag : 0 ≤ lag)
    (htime : s.InTime workers lag) (thread : Nat) : (s.ask thread).Guarded limit windowSeconds workers lag := by
  unfold Panel.ask
  split
  · exact h
  rename_i attempt hattempt
  obtain ⟨window, hcounts, hlimit, hwindow, hlate⟩ := h.counts
  have hmem : attempt ∈ s.waiting := List.mem_of_getElem? hattempt
  have hnow : attempt.now ≤ s.clock := h.past attempt (List.mem_append_left _ hmem)
  have hheard : s.clock ≤ attempt.now + lag := htime.2 attempt (List.mem_append_left _ hmem)
  obtain ⟨hcounts', hfree⟩ := hcounts.lockout attempt.clientHost attempt.now
  have hsame := window.sameLimits_recent .global attempt.now
  refine ⟨⟨_, hcounts', hsame.1.trans hlimit, hsame.2.1.trans hwindow, hlate.read hlag hnow⟩, ?_, ?_⟩
  · intro other hother
    refine h.past other ?_
    rcases List.mem_append.mp hother with hwaiting | hchecking
    · exact List.mem_append_left _ (List.mem_of_mem_eraseIdx hwaiting)
    · dsimp only at hchecking
      split at hchecking
      · rcases List.mem_append.mp hchecking with hchecking | hnew
        · exact List.mem_append_right _ hchecking
        · rw [List.mem_singleton.mp hnew]
          exact List.mem_append_left _ hmem
      · exact List.mem_append_right _ hchecking
  · intro horizon
    dsimp only
    split
    · rename_i hadmitted
      have hfew := FailureWindow.length_recent_lt (hlimit ▸ hpos) (hfree (Option.isNone_iff_eq_none.mp hadmitted))
      have hothers : s.checking.length + 1 ≤ workers := by
        have hwaiting := List.length_pos_of_mem hmem
        have hpool := htime.1
        omega
      rw [← List.append_assoc, within_append]
      -- a login that may go on has seen fewer failures than the limit; those being checked are at most the threads
      by_cases hin : horizon - (seconds windowSeconds - 2 * lag) < attempt.now ∧ attempt.now ≤ horizon
      · have hfailed := hlate.countP_lt hlag hnow hheard hfew hin.2
        rw [List.countP_map, hlimit, hwindow] at hfailed
        have hchecking : within s.checking (seconds windowSeconds - 2 * lag) horizon ≤ s.checking.length :=
          List.countP_le_length
        have hone : within [attempt] (seconds windowSeconds - 2 * lag) horizon = 1 :=
          List.countP_singleton.trans (if_pos (decide_eq_true hin))
        have hsplit := within_append s.failed s.checking (seconds windowSeconds - 2 * lag) horizon
        change within s.failed _ horizon < limit at hfailed
        omega
      · have hnone : within [attempt] (seconds windowSeconds - 2 * lag) horizon = 0 :=
          List.countP_singleton.trans (if_neg fun h => hin (of_decide_eq_true h))
        rw [hnone]
        exact h.bound horizon
    · exact h.bound horizon

/-- A thread tells the throttle of a failure. -/
theorem Guarded.settle (h : s.Guarded limit windowSeconds workers lag) (hlag : 0 ≤ lag) (htime : s.InTime workers lag)
    (thread : Nat) (token : String) (answered : Nat) :
    (s.settle thread token answered).Guarded limit windowSeconds workers lag := by
  unfold Panel.settle
  split
  · exact h
  rename_i attempt hattempt
  obtain ⟨hbound, rfl⟩ := List.getElem?_eq_some_iff.mp hattempt
  have hperm := List.getElem_cons_eraseIdx_perm hbound
  have hless : Guarded limit windowSeconds workers lag { s with checking := s.checking.eraseIdx thread } := by
    refine ⟨h.counts, fun other hother => h.past other ?_, fun horizon => ?_⟩
    · rcases List.mem_append.mp hother with hwaiting | hchecking
      · exact List.mem_append_left _ hwaiting
      · exact List.mem_append_right _ (List.mem_of_mem_eraseIdx hchecking)
    · exact ((List.eraseIdx_sublist _ _).append_left _).countP_le.trans (h.bound horizon)
  dsimp only
  split
  · exact hless
  · unfold grant
    split
    · obtain ⟨window, hcounts, hwindow⟩ := hless.counts
      exact ⟨⟨window, hcounts.clear _, hwindow⟩, hless.past, hless.bound⟩
    · exact ⟨hless.counts, hless.past, hless.bound⟩
  · obtain ⟨window, hcounts, hlimit, hwindow, hlate⟩ := h.counts
    have hmem : s.checking[thread] ∈ s.waiting ++ s.checking := List.mem_append_right _ (List.getElem_mem hbound)
    have hsame := window.sameLimits_recordFailure .global s.checking[thread].now
    refine ⟨⟨_, hcounts.recordFailure _ _, hsame.1.trans hlimit, hsame.2.1.trans hwindow, ?_⟩, hless.past,
      fun horizon => ?_⟩
    · show FailureWindow.Late _ _ (List.map Attempt.now (s.failed ++ [s.checking[thread]])) _ _
      rw [List.map_append]
      exact hlate.recordFailure hlag (h.past _ hmem) (htime.2 _ hmem)
    · -- the attempt has only moved
      have hmoved : (s.failed ++ [s.checking[thread]] ++ s.checking.eraseIdx thread).Perm (s.failed ++ s.checking) := by
        rw [List.append_assoc]
        exact hperm.append_left _
      exact (hmoved.countP_eq _).le.trans (h.bound horizon)

theorem Guarded.step (h : s.Guarded limit windowSeconds workers lag) (hpos : 0 < limit) (hlag : 0 ≤ lag)
    (htime : s.InTime workers lag) (action : PanelAction ρ) :
    (s.step action).Guarded limit windowSeconds workers lag := by
  cases action with
  | ask thread => exact h.ask hpos hlag htime thread
  | settle thread token answered => exact h.settle hlag htime thread token answered
  | visit token now => exact ⟨h.counts, h.past, h.bound⟩
  | logout token now =>
    show (s.logout token now).Guarded limit windowSeconds workers lag
    unfold Panel.logout
    dsimp only
    split
    · exact ⟨h.counts, h.past, h.bound⟩
    · exact ⟨h.counts, h.past, h.bound⟩
  | tick elapsed =>
    have hle : s.clock ≤ s.clock + elapsed := Int.le_add_of_nonneg_right (Int.natCast_nonneg elapsed)
    obtain ⟨window, hcounts, hlimit, hwindow, hlate⟩ := h.counts
    exact ⟨⟨window, hcounts, hlimit, hwindow, hlate.later hle⟩, fun other hother => (h.past other hother).trans hle,
      h.bound⟩
  | arrive clientHost request =>
    refine ⟨h.counts, fun other hother => ?_, h.bound⟩
    show other.now ≤ s.clock
    change other ∈ (s.waiting ++ [⟨clientHost, s.clock, request⟩]) ++ s.checking at hother
    rw [List.append_assoc] at hother
    rcases List.mem_append.mp hother with hwaiting | hrest
    · exact h.past other (List.mem_append_left _ hwaiting)
    · rcases List.mem_cons.mp hrest with rfl | hchecking
      · exact le_rfl
      · exact h.past other (List.mem_append_right _ hchecking)

/-- **What the limit on guesses is worth.** In every run in which at most `workers` attempts are under way at a time,
none of them for longer than `lag`, and in any order of their steps, any stretch of time that is shorter than the
window by twice the lag sees at most `workers - 1` failures more than the limit for all clients together. -/
theorem guesses_bounded {limit : Nat} (hpos : 0 < limit) (windowSeconds maxFailedLoginsPerIp workers : Nat) {lag : Int}
    (hlag : 0 ≤ lag) (credentials : Credentials) (store : SessionStore) (start : Time)
    (actions : List (PanelAction ρ))
    (htime : Along step (fun s _ => s.InTime workers lag)
      (init credentials store (.init maxFailedLoginsPerIp limit windowSeconds) start) actions) (horizon : Time) :
    within (run step (init credentials store (.init maxFailedLoginsPerIp limit windowSeconds) start) actions).failed
      (seconds windowSeconds - 2 * lag) horizon ≤ limit + workers - 1 := by
  have hguarded := Along.invariant (I := Guarded limit windowSeconds workers lag)
    (fun s action h htime => h.step hpos hlag htime action) htime
    (guarded_init limit windowSeconds workers maxFailedLoginsPerIp lag credentials store start)
  have hbound := hguarded.bound horizon
  rw [within_append] at hbound
  exact (Nat.le_add_right _ _).trans hbound

/-- Two wrong passwords at once, where one failure is allowed. -/
theorem guesses_bounded_two :
    within (run step (init ⟨"admin", "hash", fun password _ => decide (password = "secret")⟩ (.init 3600 none)
        (.init 5 1 300) 0)
      [.arrive none (.confirm (some "guess") ()), .arrive none (.confirm (some "other") ()), .ask 0, .tick 1000000,
        .ask 0, .settle 1 "" 2, .settle 0 "" 2]).failed (seconds 300 - 2 * 2000000) 1000000 ≤ 1 + 2 - 1 := by
  refine guesses_bounded (by decide) 300 5 2 (by decide) _ _ 0 _ ?_ 1000000
  refine ⟨⟨?_, ?_⟩, ⟨?_, ?_⟩, ⟨?_, ?_⟩, ⟨?_, ?_⟩, ⟨?_, ?_⟩, ⟨?_, ?_⟩, ⟨?_, ?_⟩, trivial⟩
  all_goals decide

/-! ## Sessions -/

/-- Where a state of the panel comes from: its sessions from the calls on the store, and what it let through from
requests with the right password. -/
structure Traced (credentials : Credentials) (store : SessionStore) (actions : List (PanelAction ρ)) (s : Panel ρ) :
    Prop where
  sameCredentials : s.credentials = credentials
  ofCalls : s.store = run SessionStore.step store s.calls
  arrived : ∀ attempt ∈ s.waiting ++ s.checking, .arrive attempt.clientHost attempt.request ∈ actions
  created : ∀ token username now, .create token username now ∈ s.calls →
    ∃ clientHost password, .arrive clientHost (.login username password) ∈ actions ∧
      credentials.accepts (.login username password : PasswordRequest ρ) = some true
  forwarded : ∀ change ∈ s.forwarded, ∃ clientHost password, .arrive clientHost (.confirm password change) ∈ actions ∧
    credentials.accepts (.confirm password change) = some true

variable {credentials : Credentials} {store : SessionStore} {actions : List (PanelAction ρ)}

/-- What a state that is traced becomes by more calls of the store that create nothing. -/
theorem Traced.call (h : s.Traced credentials store actions) (call : SessionCall)
    (hcall : ∀ token username now, call ≠ .create token username now) :
    Traced credentials store actions { s with store := s.store.step call, calls := s.calls ++ [call] } where
  sameCredentials := h.sameCredentials
  ofCalls := by
    show s.store.step call = _
    rw [run_append, ← h.ofCalls]
    rfl
  arrived := h.arrived
  created token username now hmem := by
    rcases List.mem_append.mp hmem with hmem | hmem
    · exact h.created token username now hmem
    · exact absurd (List.mem_singleton.mp hmem).symm (hcall token username now)
  forwarded := h.forwarded

theorem Traced.settle (h : s.Traced credentials store actions) (thread : Nat) (token : String) (answered : Nat) :
    (s.settle thread token answered).Traced credentials store actions := by
  unfold Panel.settle
  split
  · exact h
  rename_i attempt hattempt
  have harrived : .arrive attempt.clientHost attempt.request ∈ actions :=
    h.arrived attempt (List.mem_append_right _ (List.mem_of_getElem? hattempt))
  have hfewer : ∀ other ∈ s.waiting ++ s.checking.eraseIdx thread,
      .arrive other.clientHost other.request ∈ actions := by
    intro other hother
    refine h.arrived other ?_
    rcases List.mem_append.mp hother with hwaiting | hchecking
    · exact List.mem_append_left _ hwaiting
    · exact List.mem_append_right _ (List.mem_of_mem_eraseIdx hchecking)
  dsimp only
  split
  · exact ⟨h.sameCredentials, h.ofCalls, hfewer, h.created, h.forwarded⟩
  · rename_i haccepted
    rw [h.sameCredentials] at haccepted
    unfold grant
    split
    · rename_i username password hlogin
      rw [hlogin] at harrived haccepted
      refine ⟨h.sameCredentials, ?_, hfewer, ?_, h.forwarded⟩
      · show (s.store.create token username attempt.now).2 = _
        rw [run_append, ← h.ofCalls]
        rfl
      · intro token' username' now hmem
        rcases List.mem_append.mp hmem with hmem | hmem
        · exact h.created token' username' now hmem
        · obtain ⟨-, rfl, -⟩ := SessionCall.create.inj (List.mem_singleton.mp hmem)
          exact ⟨attempt.clientHost, password, harrived, haccepted⟩
    · rename_i password change hconfirm
      rw [hconfirm] at harrived haccepted
      refine ⟨h.sameCredentials, h.ofCalls, hfewer, h.created, fun other hother => ?_⟩
      rcases List.mem_append.mp hother with hother | hother
      · exact h.forwarded other hother
      · rw [List.mem_singleton.mp hother]
        exact ⟨attempt.clientHost, password, harrived, haccepted⟩
  · exact ⟨h.sameCredentials, h.ofCalls, hfewer, h.created, h.forwarded⟩

theorem Traced.step (h : s.Traced credentials store actions) {action : PanelAction ρ} (hmem : action ∈ actions) :
    (s.step action).Traced credentials store actions := by
  cases action with
  | tick elapsed => exact ⟨h.sameCredentials, h.ofCalls, h.arrived, h.created, h.forwarded⟩
  | settle thread token answered => exact h.settle thread token answered
  | visit token now => exact h.call (.validate token now) fun _ _ _ heq => SessionCall.noConfusion heq
  | arrive clientHost request =>
    refine ⟨h.sameCredentials, h.ofCalls, fun other hother => ?_, h.created, h.forwarded⟩
    change other ∈ (s.waiting ++ [⟨clientHost, s.clock, request⟩]) ++ s.checking at hother
    rw [List.append_assoc] at hother
    rcases List.mem_append.mp hother with hwaiting | hrest
    · exact h.arrived other (List.mem_append_left _ hwaiting)
    · rcases List.mem_cons.mp hrest with rfl | hchecking
      · exact hmem
      · exact h.arrived other (List.mem_append_right _ hchecking)
  | ask thread =>
    show (s.ask thread).Traced credentials store actions
    unfold Panel.ask
    split
    · exact h
    rename_i attempt hattempt
    refine ⟨h.sameCredentials, h.ofCalls, fun other hother => h.arrived other ?_, h.created, h.forwarded⟩
    rcases List.mem_append.mp hother with hwaiting | hchecking
    · exact List.mem_append_left _ (List.mem_of_mem_eraseIdx hwaiting)
    · dsimp only at hchecking
      split at hchecking
      · rcases List.mem_append.mp hchecking with hchecking | hnew
        · exact List.mem_append_right _ hchecking
        · rw [List.mem_singleton.mp hnew]
          exact List.mem_append_left _ (List.mem_of_getElem? hattempt)
      · exact List.mem_append_right _ hchecking
  | logout token now =>
    have hvisit : (s.visit token now).Traced credentials store actions :=
      h.call (.validate token now) fun _ _ _ heq => SessionCall.noConfusion heq
    show (s.logout token now).Traced credentials store actions
    unfold Panel.logout
    dsimp only
    split
    · exact hvisit
    · exact hvisit.call (.invalidate _) fun _ _ _ heq => SessionCall.noConfusion heq

/-- Only the admin's name and password are accepted for a login. -/
theorem accepts_login {username password : String}
    (h : credentials.accepts (.login username password : PasswordRequest ρ) = some true) :
    username = credentials.adminUsername ∧
      credentials.verifyPassword password credentials.adminPasswordHash = true := by
  obtain ⟨usernameOk, hcompare, hboth⟩ := Option.map_eq_some_iff.mp h
  rw [Bool.and_eq_true] at hboth
  rw [hboth.1, compareDigest] at hcompare
  split at hcompare
  · exact ⟨of_decide_eq_true (Option.some.inj hcompare), hboth.2⟩
  · exact absurd hcompare (by simp)

theorem traced_init (credentials : Credentials) (store : SessionStore) (throttle : AdminLoginThrottle) (start : Time)
    (actions : List (PanelAction ρ)) : (init credentials store throttle start).Traced credentials store actions where
  sameCredentials := rfl
  ofCalls := rfl
  arrived _ h := absurd h List.not_mem_nil
  created _ _ _ h := absurd h List.not_mem_nil
  forwarded _ h := absurd h List.not_mem_nil

/-- **Who is let in.** In every run of the panel, a token is answered with a session exactly if it was issued, has not
been ended since, and was presented in time every time since, this time included. It was issued to the admin, who had
given the right password; and nobody had a change made who had not. -/
theorem session_live_iff (credentials : Credentials) (tokenExpirySeconds : Nat) (idleTimeoutSeconds : Option Nat)
    (throttle : AdminLoginThrottle) (start : Time) (actions : List (PanelAction ρ)) :
    let store := SessionStore.init tokenExpirySeconds idleTimeoutSeconds
    let s := run step (init credentials store throttle start) actions
    (∀ token now, (s.store.validate token now).1 =
        (Life.live store.idleTimeout ((store.lifeOf s.calls token).map (Life.present now))).map Life.session) ∧
      (∀ token username now, .create token username now ∈ s.calls → username = credentials.adminUsername ∧
        ∃ clientHost password, .arrive clientHost (.login username password) ∈ actions ∧
          credentials.verifyPassword password credentials.adminPasswordHash = true) ∧
      ∀ change ∈ s.forwarded, ∃ clientHost password, .arrive clientHost (.confirm (some password) change) ∈ actions ∧
        credentials.verifyPassword password credentials.adminPasswordHash = true := by
  intro store s
  have htraced : s.Traced credentials store actions :=
    Along.invariant (fun s action h hmem => h.step hmem) (Along.of_forall (fun action hmem _ => hmem) _)
      (traced_init credentials store throttle start actions)
  refine ⟨fun token now => ?_, fun token username now hcreated => ?_, fun change hchange => ?_⟩
  · have hshows := (SessionStore.shows_init tokenExpirySeconds idleTimeoutSeconds token).run s.calls
    rw [htraced.ofCalls, (hshows.validate now).1, SessionStore.idleTimeout_run]
    rfl
  · obtain ⟨clientHost, password, harrive, haccepts⟩ := htraced.created token username now hcreated
    obtain ⟨husername, hpassword⟩ := accepts_login haccepts
    exact ⟨husername, clientHost, password, harrive, hpassword⟩
  · obtain ⟨clientHost, password, harrive, haccepts⟩ := htraced.forwarded change hchange
    obtain ⟨password, rfl, hpassword⟩ := Option.map_eq_some_iff.mp haccepts
    exact ⟨clientHost, password, harrive, hpassword⟩

end Panel

end Pirewall.Api
