/-
# Pirewall.Portal.Guesses -- guessing passwords at the portal

A wrong password is counted for its address, for its account and over all, and a login goes on only if none of the
three is locked. The tables of the addresses and of the accounts are bounded, and whoever guesses chooses the names:
failing under enough of them would push the counter of the account at stake out of its table. But every failure also
counts over all, so the table is never full of recent ones, and no counter is lost that still counts.

`LoginLog` is what a listener at the portal would write down: each wrong password, with its address, its account and
its time, and each right one, which clears the failures of its address and account. It is made from the answers alone.
`Keeps` says that the three windows of the throttle limit what the log says, and the bound of the log follows from it:
in every stretch as long as the window there are no more wrong passwords than the limit allows, for an account or an
address since its last success, and over all.

A table has room for a key because the keys that are live in it have failures in the window of the global counter
(`length_liveKeys_le`), and that counter admits no more failures in a window than a table has places (`room`). So the
limit over all must not exceed the 4096 places of a table, which is a condition on the settings.
-/
import Pirewall.Core.ThrottleScopes
import Pirewall.Portal.Grants

namespace Pirewall

open Lib

/-! ## One window -/

/-- The first microsecond of a window that ends now. -/
theorem windowStart_le {now width t : Int} : now - (width - 1) ≤ t ↔ now - width < t := by
  omega

/-- A window of this limit has been told of these failures, and there were never more of them than it allows. -/
structure FailureWindow.Limits {κ : Type} [DecidableEq κ] (limit windowSeconds maxTrackedKeys : Nat)
    (log : FailureLog κ) (clock : Time) (window : FailureWindow κ) : Prop where
  maxFailures : window.maxFailures = limit
  seconds : window.windowSeconds = windowSeconds
  tracked : window.maxTrackedKeys = maxTrackedKeys
  sound : ∃ last ≤ clock, (⟨window, log, last⟩ : WatchedWindow κ).Sound
  atMost : ∀ key, AtMost limit (Pirewall.seconds windowSeconds - 1) (log.times key)

namespace FailureWindow.Limits

variable {κ : Type} [DecidableEq κ] {limit windowSeconds maxTrackedKeys : Nat} {log : FailureLog κ} {clock now : Time}
  {window : FailureWindow κ} {key : κ}

theorem init (hlimit : 0 < limit) (hseconds : 0 < windowSeconds) (maxTrackedKeys : Nat) (clock : Time) :
    Limits limit windowSeconds maxTrackedKeys [] clock
      (⟨limit, windowSeconds, maxTrackedKeys, Dict.empty⟩ : FailureWindow κ) where
  maxFailures := rfl
  seconds := rfl
  tracked := rfl
  sound := ⟨clock, le_rfl, WatchedWindow.sound_init hlimit hseconds maxTrackedKeys clock⟩
  atMost _ := AtMost.nil _ _

theorem later (h : window.Limits limit windowSeconds maxTrackedKeys log clock) (hle : clock ≤ now) :
    window.Limits limit windowSeconds maxTrackedKeys log now :=
  { h with sound := h.sound.imp fun _ hlast => ⟨hlast.1.trans hle, hlast.2⟩ }

/-- A key is asked how long to wait. -/
theorem asked (h : window.Limits limit windowSeconds maxTrackedKeys log clock) (hle : clock ≤ now)
    (hroom : (log.liveKeys windowSeconds now).length ≤ maxTrackedKeys) (key : κ) :
    (window.secondsUntilUnlocked key now).2.Limits limit windowSeconds maxTrackedKeys log now ∧
      ((window.secondsUntilUnlocked key now).1 = 0 →
        ((log.times key).filter fun t => now - Pirewall.seconds windowSeconds < t).length < limit) := by
  obtain ⟨last, hlast, hsound⟩ := h.sound
  have hnow : last ≤ now := hlast.trans hle
  have hmeets : (⟨window, log, last⟩ : WatchedWindow κ).Meets (.secondsUntilUnlocked key now) := by
    refine ⟨fun _ ht => Option.some.inj ht ▸ hnow, ?_⟩
    show (log.liveKeys window.windowSeconds now).length ≤ window.maxTrackedKeys
    rw [h.seconds, h.tracked]
    exact hroom
  obtain ⟨hmax, hseconds, htracked⟩ := WatchedWindow.sameLimits_step ⟨window, log, last⟩ (.secondsUntilUnlocked key now)
  refine ⟨⟨hmax.trans h.maxFailures, hseconds.trans h.seconds, htracked.trans h.tracked,
    ⟨now, le_rfl, WatchedWindow.sound_step hsound hmeets⟩, h.atMost⟩, fun hwait => ?_⟩
  have hfree := (hsound.waits hmeets).1.mp hwait
  rw [hsound.locked_iff hnow] at hfree
  rw [← h.maxFailures, ← h.seconds]
  exact not_le.mp hfree

/-- A failure of a key that is not locked. -/
theorem failed (h : window.Limits limit windowSeconds maxTrackedKeys log clock) (hle : clock ≤ now)
    (hroom : (FailureLog.liveKeys (log ++ [(key, now)]) windowSeconds now).length ≤ maxTrackedKeys)
    (hfree : ((log.times key).filter fun t => now - Pirewall.seconds windowSeconds < t).length < limit) :
    (window.recordFailure key now).2.Limits limit windowSeconds maxTrackedKeys (log ++ [(key, now)]) now := by
  obtain ⟨last, hlast, hsound⟩ := h.sound
  have hmeets : (⟨window, log, last⟩ : WatchedWindow κ).Meets (.recordFailure key now) := by
    refine ⟨fun _ ht => Option.some.inj ht ▸ hlast.trans hle, ?_⟩
    show (FailureLog.liveKeys (log ++ [(key, now)]) window.windowSeconds now).length ≤ window.maxTrackedKeys
    rw [h.seconds, h.tracked]
    exact hroom
  obtain ⟨hmax, hseconds, htracked⟩ := WatchedWindow.sameLimits_step ⟨window, log, last⟩ (.recordFailure key now)
  refine ⟨hmax.trans h.maxFailures, hseconds.trans h.seconds, htracked.trans h.tracked,
    ⟨now, le_rfl, WatchedWindow.sound_step hsound hmeets⟩, fun key' => ?_⟩
  by_cases hkey : key' = key
  · subst hkey
    rw [FailureLog.times_append_self]
    refine (h.atMost key').append ?_
    simpa only [windowStart_le] using hfree
  · rw [FailureLog.times_append_of_ne log hkey]
    exact h.atMost key'

/-- A success of a key. -/
theorem cleared (h : window.Limits limit windowSeconds maxTrackedKeys log clock) (key : κ) :
    (window.clear key).Limits limit windowSeconds maxTrackedKeys (log.filter fun failure => failure.1 ≠ key) clock := by
  obtain ⟨last, hlast, hsound⟩ := h.sound
  have hless : ∀ key', (FailureLog.times (log.filter fun failure => failure.1 ≠ key) key').Sublist (log.times key') :=
    fun key' => (List.filter_sublist.filter _).map Prod.snd
  refine ⟨h.maxFailures, h.seconds, h.tracked, ⟨last, hlast, ?_⟩, fun key' start => ?_⟩
  · exact ⟨hsound.limit_pos, hsound.window_pos, fun key' => (hsound.sorted key').sublist (hless key'),
      fun key' t ht => hsound.past key' t ((hless key').subset ht), FailureWindow.clear_tracks hsound.tracks key⟩
  · exact (hless key').countP_le.trans (h.atMost key' start)

end FailureWindow.Limits

/-- The keys that are live in a log have failures in every log that has its times. -/
theorem FailureLog.length_liveKeys_le {κ : Type} [DecidableEq κ] {log : FailureLog κ} {times : List Time}
    (h : (log.map Prod.snd).Sublist times) (windowSeconds : Nat) (now : Time) :
    (log.liveKeys windowSeconds now).length ≤ times.countP fun t => now - seconds windowSeconds < t := by
  have hdedup : (log.liveKeys windowSeconds now).length ≤
      (log.filter fun failure => now - seconds windowSeconds < failure.2).length := by
    rw [← List.length_map Prod.fst]
    exact (List.dedup_sublist _).length_le
  have hcount := h.countP_le (p := fun t => decide (now - seconds windowSeconds < t))
  rw [List.countP_map, List.countP_eq_length_filter] at hcount
  exact hdedup.trans hcount

/-! ## The log of the portal -/

/-- The wrong passwords: of each address and of each account since it was last given a right one, and all. -/
structure LoginLog where
  source : FailureLog ThrottleKey
  account : FailureLog ThrottleKey
  global : FailureLog ThrottleKey

namespace LoginLog

def empty : LoginLog := ⟨[], [], []⟩

/-- A wrong password. -/
def failed (log : LoginLog) (source account : ThrottleKey) (now : Time) : LoginLog where
  source := log.source ++ [(source, now)]
  account := log.account ++ [(account, now)]
  global := log.global ++ [(.global, now)]

/-- A right password. -/
def succeeded (log : LoginLog) (source account : ThrottleKey) : LoginLog where
  source := log.source.filter fun failure => failure.1 ≠ source
  account := log.account.filter fun failure => failure.1 ≠ account
  global := log.global

/-- What the answer to a login says of its password; a login that is refused for another reason says nothing. -/
def answered (log : LoginLog) (source account : ThrottleKey) (now : Time) :
    Except PortalLoginError PortalSession → LoginLog
  | .error .invalidCredentials => log.failed source account now
  | .ok _ => log.succeeded source account
  | .error _ => log

/-- What a call of the portal adds to the log. -/
def step (log : LoginLog) (system : PortalSystem) (call : PortalCall) : LoginLog :=
  match call.op with
  | .login username password clientIp token =>
    log.answered (.source clientIp) (accountKey system.service.throttle.casefold username) (system.env call).now
      ((system.found call).login (system.env call) username password clientIp token).1
  | _ => log

end LoginLog

/-- The portal, and the log of its logins. -/
structure WatchedPortal where
  system : PortalSystem
  log : LoginLog

namespace WatchedPortal

def step (s : WatchedPortal) (call : PortalCall) : WatchedPortal :=
  ⟨s.system.step call, s.log.step s.system call⟩

end WatchedPortal

/-- No stretch of time as long as the window has seen more wrong passwords than the limit: in all, for an account since
it was last given the right one, or from an address since it last gave one. A stretch is as long as the window when its
last microsecond is the last before the window is over. -/
structure LoginLog.Bounded (config : PortalConfig) (log : LoginLog) : Prop where
  source : ∀ key, AtMost config.maxFailedLoginsPerIp (seconds config.failedLoginWindowSeconds - 1)
    (log.source.times key)
  account : ∀ key, AtMost config.maxFailedLoginsPerAccount (seconds config.failedLoginWindowSeconds - 1)
    (log.account.times key)
  global : AtMost config.maxFailedLoginsGlobal (seconds config.failedLoginWindowSeconds - 1)
    (log.global.map Prod.snd)

/-! ## The throttle keeps up -/

/-- The three windows of the throttle limit what the log says. -/
structure LoginThrottle.Keeps (config : PortalConfig) (log : LoginLog) (clock : Time) (t : LoginThrottle) : Prop where
  source : ∃ window, t.throttle.windows.get? .source = some window ∧
    window.Limits config.maxFailedLoginsPerIp config.failedLoginWindowSeconds 4096 log.source clock
  account : ∃ window, t.throttle.windows.get? .account = some window ∧
    window.Limits config.maxFailedLoginsPerAccount config.failedLoginWindowSeconds 4096 log.account clock
  global : ∃ window, t.throttle.windows.get? .global = some window ∧
    window.Limits config.maxFailedLoginsGlobal config.failedLoginWindowSeconds 4096 log.global clock
  shared : ∀ failure ∈ log.global, failure.1 = .global
  sources : (log.source.map Prod.snd).Sublist (log.global.map Prod.snd)
  accounts : (log.account.map Prod.snd).Sublist (log.global.map Prod.snd)

/-- None of the keys of a login has as many recent failures as its limit. -/
structure LoginLog.Free (config : PortalConfig) (log : LoginLog) (now : Time) (source account : ThrottleKey) :
    Prop where
  source : ((log.source.times source).filter fun t => now - seconds config.failedLoginWindowSeconds < t).length <
    config.maxFailedLoginsPerIp
  account : ((log.account.times account).filter fun t => now - seconds config.failedLoginWindowSeconds < t).length <
    config.maxFailedLoginsPerAccount
  global : ((log.global.times .global).filter fun t => now - seconds config.failedLoginWindowSeconds < t).length <
    config.maxFailedLoginsGlobal

namespace LoginThrottle.Keeps

variable {config : PortalConfig} {log : LoginLog} {clock now : Time} {t : LoginThrottle}

theorem times_global (h : t.Keeps config log clock) : log.global.times .global = log.global.map Prod.snd := by
  unfold FailureLog.times
  rw [List.filter_eq_self.mpr fun failure hfailure => decide_eq_true (h.shared failure hfailure)]

/-- No more failures in the window than the limit over all. -/
theorem countP_le (h : t.Keeps config log clock) (hle : clock ≤ now) :
    ((log.global.map Prod.snd).countP fun t => now - seconds config.failedLoginWindowSeconds < t) ≤
      config.maxFailedLoginsGlobal := by
  obtain ⟨window, -, hwindow⟩ := h.global
  obtain ⟨last, hlast, hsound⟩ := hwindow.sound
  have hatMost := hwindow.atMost .global (now - (seconds config.failedLoginWindowSeconds - 1))
  rw [h.times_global] at hatMost
  refine (List.countP_mono_left fun t ht hlive => ?_).trans hatMost
  have hpast : t ≤ now := ((hsound.past .global t (h.times_global ▸ ht)).trans hlast).trans hle
  exact decide_eq_true ⟨windowStart_le.mpr (of_decide_eq_true hlive), hpast.trans (Int.sub_add_cancel _ _).ge⟩

/-- There is room in every table for the keys that are live. -/
theorem room (h : t.Keeps config log clock) (hglobal : config.maxFailedLoginsGlobal ≤ 4096) (hle : clock ≤ now)
    {failures : FailureLog ThrottleKey} (hsub : (failures.map Prod.snd).Sublist (log.global.map Prod.snd)) :
    (failures.liveKeys config.failedLoginWindowSeconds now).length ≤ 4096 :=
  (FailureLog.length_liveKeys_le hsub _ now).trans ((h.countP_le hle).trans hglobal)

theorem nodup_scopes : ([.source, .account, .global] : List LockoutScope).Nodup := by
  decide

/-- The keys of a login. -/
theorem keys (h : t.Keeps config log clock) (clientIp : IPv4Address) (username : String) :
    t.throttle.keys (loginKeys t.casefold clientIp (some username)) =
      [(.source, .source clientIp), (.account, accountKey t.casefold username), (.global, .global)] := by
  obtain ⟨_, hsource, -⟩ := h.source
  obtain ⟨_, haccount, -⟩ := h.account
  obtain ⟨_, hglobal, -⟩ := h.global
  have hcontains : t.throttle.windows.contains .source = true ∧ t.throttle.windows.contains .account = true ∧
      t.throttle.windows.contains .global = true := by
    simp [Dict.contains, hsource, haccount, hglobal]
  unfold ScopedThrottle.keys loginKeys
  rw [if_pos hcontains.2.2, List.filter_cons_of_pos (by simp [hcontains.1]),
    List.filter_cons_of_pos (by simp [hcontains.2.1])]
  rfl

/-- A login asks whether one of its keys is locked. -/
theorem asked (h : t.Keeps config log clock) (hmost : config.maxFailedLoginsGlobal ≤ 4096) (hle : clock ≤ now)
    (clientIp : IPv4Address) (username : String) :
    (t.lockout clientIp (some username) now).2.Keeps config log now ∧
      ((t.lockout clientIp (some username) now).1 = none →
        log.Free config now (.source clientIp) (accountKey t.casefold username)) := by
  have hkeys := h.keys clientIp username
  obtain ⟨source, hsource, hsourceLimits⟩ := h.source
  obtain ⟨account, haccount, haccountLimits⟩ := h.account
  obtain ⟨global, hglobal, hglobalLimits⟩ := h.global
  obtain ⟨hsource', hsourceFree⟩ :=
    ScopedThrottle.lockout_spec hkeys nodup_scopes List.mem_cons_self hsource now
  obtain ⟨haccount', haccountFree⟩ :=
    ScopedThrottle.lockout_spec hkeys nodup_scopes (List.mem_cons_of_mem _ List.mem_cons_self) haccount now
  obtain ⟨hglobal', hglobalFree⟩ :=
    ScopedThrottle.lockout_spec hkeys nodup_scopes
      (List.mem_cons_of_mem _ (List.mem_cons_of_mem _ List.mem_cons_self)) hglobal now
  obtain ⟨hsourceAsked, hsourceRoom⟩ := hsourceLimits.asked hle (h.room hmost hle h.sources) (.source clientIp)
  obtain ⟨haccountAsked, haccountRoom⟩ :=
    haccountLimits.asked hle (h.room hmost hle h.accounts) (accountKey t.casefold username)
  obtain ⟨hglobalAsked, hglobalRoom⟩ :=
    hglobalLimits.asked hle (h.room hmost hle (List.Sublist.refl _)) ThrottleKey.global
  exact ⟨⟨⟨_, hsource', hsourceAsked⟩, ⟨_, haccount', haccountAsked⟩, ⟨_, hglobal', hglobalAsked⟩, h.shared, h.sources,
    h.accounts⟩, fun hnone => ⟨hsourceRoom (hsourceFree hnone), haccountRoom (haccountFree hnone),
      hglobalRoom (hglobalFree hnone)⟩⟩

/-- A wrong password is counted three times. -/
theorem failed (h : t.Keeps config log clock) (hmost : config.maxFailedLoginsGlobal ≤ 4096) (hle : clock ≤ now)
    (clientIp : IPv4Address) (username : String)
    (hfree : log.Free config now (.source clientIp) (accountKey t.casefold username)) :
    (t.recordFailure clientIp now (some username)).2.Keeps config
      (log.failed (.source clientIp) (accountKey t.casefold username) now) now := by
  have hkeys := h.keys clientIp username
  obtain ⟨source, hsource, hsourceLimits⟩ := h.source
  obtain ⟨account, haccount, haccountLimits⟩ := h.account
  obtain ⟨global, hglobal, hglobalLimits⟩ := h.global
  -- one failure more over all is still within the limit
  have hroom : ∀ (failures : FailureLog ThrottleKey) (key : ThrottleKey),
      (failures.map Prod.snd).Sublist (log.global.map Prod.snd) →
      (FailureLog.liveKeys (failures ++ [(key, now)]) config.failedLoginWindowSeconds now).length ≤ 4096 := by
    intro failures key hsub
    have hmore : ((failures ++ [(key, now)]).map Prod.snd).Sublist (log.global.map Prod.snd ++ [now]) := by
      rw [List.map_append]
      exact hsub.append_right [now]
    have hglobalFree := hfree.global
    rw [h.times_global, ← List.countP_eq_length_filter] at hglobalFree
    have hlive := FailureLog.length_liveKeys_le hmore config.failedLoginWindowSeconds now
    rw [List.countP_append] at hlive
    have hone : [now].countP (fun t => decide (now - seconds config.failedLoginWindowSeconds < t)) ≤ 1 :=
      List.countP_le_length
    omega
  have hsource' := ScopedThrottle.recordFailure_spec hkeys nodup_scopes List.mem_cons_self hsource now
  have haccount' :=
    ScopedThrottle.recordFailure_spec hkeys nodup_scopes (List.mem_cons_of_mem _ List.mem_cons_self) haccount now
  have hglobal' := ScopedThrottle.recordFailure_spec hkeys nodup_scopes
    (List.mem_cons_of_mem _ (List.mem_cons_of_mem _ List.mem_cons_self)) hglobal now
  refine ⟨⟨_, hsource', hsourceLimits.failed hle (hroom log.source _ h.sources) hfree.source⟩,
    ⟨_, haccount', haccountLimits.failed hle (hroom log.account _ h.accounts) hfree.account⟩,
    ⟨_, hglobal', hglobalLimits.failed hle (hroom log.global _ (List.Sublist.refl _)) hfree.global⟩, ?_, ?_, ?_⟩
  · intro failure hfailure
    rcases List.mem_append.mp hfailure with hfailure | hfailure
    · exact h.shared failure hfailure
    · rw [List.mem_singleton.mp hfailure]
  · show ((log.source ++ [_]).map Prod.snd).Sublist ((log.global ++ [_]).map Prod.snd)
    rw [List.map_append, List.map_append]
    exact h.sources.append_right [now]
  · show ((log.account ++ [_]).map Prod.snd).Sublist ((log.global ++ [_]).map Prod.snd)
    rw [List.map_append, List.map_append]
    exact h.accounts.append_right [now]

/-- A right password clears the address and the account. -/
theorem succeeded (h : t.Keeps config log clock) (clientIp : IPv4Address) (username : String) :
    (t.clear clientIp (some username)).Keeps config
      (log.succeeded (.source clientIp) (accountKey t.casefold username)) clock := by
  obtain ⟨source, hsource, hsourceLimits⟩ := h.source
  obtain ⟨account, haccount, haccountLimits⟩ := h.account
  obtain ⟨global, hglobal, hglobalLimits⟩ := h.global
  have hfirst : (t.throttle.clear .source (.source clientIp)).windows =
      t.throttle.windows.set .source (source.clear (.source clientIp)) :=
    ScopedThrottle.clear_spec (by decide) hsource
  have hstill : (t.throttle.clear .source (.source clientIp)).windows.get? .account = some account := by
    rw [hfirst, Dict.get?_set, if_neg (by decide)]
    exact haccount
  have hboth : (t.clear clientIp (some username)).throttle.windows =
      (t.throttle.clear .source (.source clientIp)).windows.set .account
        (account.clear (accountKey t.casefold username)) :=
    ScopedThrottle.clear_spec (by decide) hstill
  refine ⟨⟨source.clear (.source clientIp), ?_, hsourceLimits.cleared _⟩,
    ⟨account.clear (accountKey t.casefold username), ?_, haccountLimits.cleared _⟩, ⟨global, ?_, hglobalLimits⟩,
    h.shared, (List.filter_sublist.map _).trans h.sources, (List.filter_sublist.map _).trans h.accounts⟩
  · rw [hboth, Dict.get?_set, if_neg (by decide), hfirst, Dict.get?_set, if_pos rfl]
  · rw [hboth, Dict.get?_set, if_pos rfl]
  · rw [hboth, Dict.get?_set, if_neg (by decide), hfirst, Dict.get?_set, if_neg (by decide)]
    exact hglobal

theorem later (h : t.Keeps config log clock) (hle : clock ≤ now) : t.Keeps config log now where
  source := h.source.imp fun _ hwindow => ⟨hwindow.1, hwindow.2.later hle⟩
  account := h.account.imp fun _ hwindow => ⟨hwindow.1, hwindow.2.later hle⟩
  global := h.global.imp fun _ hwindow => ⟨hwindow.1, hwindow.2.later hle⟩
  shared := h.shared
  sources := h.sources
  accounts := h.accounts

end LoginThrottle.Keeps

/-! ## Runs -/

namespace PortalService

theorem foldl_throttle {α : Type} {f : PortalService → α → PortalService}
    (hf : ∀ s a, (f s a).throttle = s.throttle) (items : List α) (s : PortalService) :
    (items.foldl f s).throttle = s.throttle := by
  induction items generalizing s with
  | nil => rfl
  | cons a items ih => exact (ih (f s a)).trans (hf s a)

theorem endSessionsFor_throttle (s : PortalService) (env : PortalEnv) (username : String) :
    (s.endSessionsFor env username).throttle = s.throttle :=
  foldl_throttle (f := endSession) (fun _ _ => rfl) _ _

theorem reconcile_throttle (s : PortalService) (env : PortalEnv) : (s.reconcile env).2.throttle = s.throttle :=
  foldl_throttle (f := fun s (grant : PortalGrant) => s.deauthorize grant.1 grant.2) (fun _ _ => rfl) _ _

/-- The throttle after an operation other than a login. -/
theorem perform_throttle (s : PortalService) (env : PortalEnv) {op : PortalOp}
    (h : ∀ username password clientIp token, op ≠ .login username password clientIp token) :
    (s.perform env op).throttle = s.throttle := by
  cases op with
  | login username password clientIp token => exact absurd rfl (h username password clientIp token)
  | forceLogout clientIp => rfl
  | listSessions => rfl
  | keepalive token clientIp =>
    show (s.keepalive env token clientIp).2.throttle = s.throttle
    unfold keepalive
    split
    · rfl
    · split
      · rfl
      · dsimp only
        split
        · rfl
        · split <;> rfl
  | logout token clientIp =>
    show (s.logout env token clientIp).2.throttle = s.throttle
    unfold logout
    dsimp only
    split
    · rfl
    · split <;> rfl
  | setPassword username password generated salt =>
    show (s.setPassword env username password generated salt).2.throttle = s.throttle
    unfold setPassword
    dsimp only
    split
    · rfl
    · exact endSessionsFor_throttle _ env username
  | removeUser username =>
    show (s.removeUser env username).2.throttle = s.throttle
    unfold removeUser
    split
    · rfl
    · rfl
    · exact endSessionsFor_throttle _ env username
  | sweep =>
    show (s.sweep env).2.throttle = s.throttle
    exact (reconcile_throttle _ env).trans
      (foldl_throttle (f := fun s (session : PortalSession) => s.deauthorize session.clientIp session.clientMac)
        (fun _ _ => rfl) _ _)

end PortalService

namespace WatchedPortal

/-- The portal as the daemon starts it, with nothing failed yet. -/
def start (config : PortalConfig) (macBound : Bool) (store : PortalUserStore) (casefold : String → String)
    (authed : AuthedSet) (env : PortalEnv) : WatchedPortal :=
  ⟨.start config macBound store casefold authed env, .empty⟩

/-- A login, whatever its answer is. -/
theorem keeps_login {config : PortalConfig} {log : LoginLog} {clock : Time} {service : PortalService} {env : PortalEnv}
    (h : service.throttle.Keeps config log clock) (hmost : config.maxFailedLoginsGlobal ≤ 4096)
    (hle : clock ≤ env.now) (username password : String) (clientIp : IPv4Address) (token : String) :
    (service.login env username password clientIp token).2.throttle.Keeps config
      (log.answered (.source clientIp) (accountKey service.throttle.casefold username) env.now
        (service.login env username password clientIp token).1) env.now := by
  obtain ⟨hasked, hfree⟩ := h.asked hmost hle clientIp username
  unfold PortalService.login
  dsimp only
  split
  · exact hasked
  · rename_i hnone
    split
    · exact hasked
    · split
      · exact hasked
      · split
        · exact hasked.failed hmost le_rfl clientIp username (hfree hnone)
        · unfold PortalService.signIn
          dsimp only
          split
          · exact hasked.succeeded clientIp username
          · exact hasked

/-- The throttle of the portal keeps up with the log. -/
def Keeps (config : PortalConfig) (s : WatchedPortal) : Prop :=
  s.system.service.throttle.Keeps config s.log s.system.clock

variable {config : PortalConfig} {s : WatchedPortal}

theorem keeps_start (hsource : 0 < config.maxFailedLoginsPerIp) (haccount : 0 < config.maxFailedLoginsPerAccount)
    (hglobal : 0 < config.maxFailedLoginsGlobal) (hwindow : 0 < config.failedLoginWindowSeconds) (macBound : Bool)
    (store : PortalUserStore) (casefold : String → String) (authed : AuthedSet) (env : PortalEnv) :
    (start config macBound store casefold authed env).Keeps config := by
  have hthrottle : (start config macBound store casefold authed env).system.service.throttle =
      .init casefold config.maxFailedLoginsPerIp config.failedLoginWindowSeconds config.maxFailedLoginsPerAccount
        config.maxFailedLoginsGlobal :=
    PortalService.reconcile_throttle _ env
  unfold Keeps
  rw [hthrottle]
  exact ⟨⟨_, rfl, .init hsource hwindow _ _⟩, ⟨_, rfl, .init haccount hwindow _ _⟩, ⟨_, rfl, .init hglobal hwindow _ _⟩,
    fun _ h => absurd h List.not_mem_nil, List.Sublist.refl _, List.Sublist.refl _⟩

theorem Keeps.step (h : s.Keeps config) (hmost : config.maxFailedLoginsGlobal ≤ 4096) (call : PortalCall) :
    (s.step call).Keeps config := by
  have hle : s.system.clock ≤ (s.system.env call).now := Int.le_add_of_nonneg_right (Int.natCast_nonneg call.elapsed)
  by_cases hlogin : ∃ username password clientIp token, call.op = .login username password clientIp token
  · obtain ⟨username, password, clientIp, token, hop⟩ := hlogin
    have hstep : (s.step call).system.service =
        ((s.system.found call).login (s.system.env call) username password clientIp token).2 := by
      show (s.system.found call).perform (s.system.env call) call.op = _
      rw [hop]
      rfl
    have hlog : (s.step call).log = s.log.answered (.source clientIp)
        (accountKey s.system.service.throttle.casefold username) (s.system.env call).now
        ((s.system.found call).login (s.system.env call) username password clientIp token).1 := by
      show s.log.step s.system call = _
      unfold LoginLog.step
      rw [hop]
    show (s.step call).system.service.throttle.Keeps config (s.step call).log (s.system.env call).now
    rw [hstep, hlog]
    have hfound : (s.system.found call).throttle.Keeps config s.log s.system.clock := h
    exact keeps_login hfound hmost hle username password clientIp token
  · have hop : ∀ username password clientIp token, call.op ≠ .login username password clientIp token :=
      fun username password clientIp token heq => hlogin ⟨username, password, clientIp, token, heq⟩
    have hthrottle : (s.step call).system.service.throttle = s.system.service.throttle :=
      PortalService.perform_throttle (s.system.found call) (s.system.env call) hop
    have hlog : (s.step call).log = s.log := by
      show s.log.step s.system call = s.log
      unfold LoginLog.step
      split
      · rename_i heq
        exact absurd heq (hop _ _ _ _)
      · rfl
    show (s.step call).system.service.throttle.Keeps config (s.step call).log (s.system.env call).now
    rw [hthrottle, hlog]
    exact LoginThrottle.Keeps.later h hle

theorem Keeps.bounded (h : s.Keeps config) : s.log.Bounded config where
  source key := by
    obtain ⟨_, -, hwindow⟩ := h.source
    exact hwindow.atMost key
  account key := by
    obtain ⟨_, -, hwindow⟩ := h.account
    exact hwindow.atMost key
  global := by
    obtain ⟨_, -, hwindow⟩ := h.global
    rw [← LoginThrottle.Keeps.times_global h]
    exact hwindow.atMost .global

/-- **Guessing at the portal is bounded.** In every run of the portal, whoever calls it and with whatever names and
addresses, the wrong passwords stay within the three limits in every stretch of time. The tables of the throttle are
bounded too, but nobody can crowd a counter out: the limit over all keeps them from filling up. -/
theorem portal_guesses_bounded {config : PortalConfig} (hsource : 0 < config.maxFailedLoginsPerIp)
    (haccount : 0 < config.maxFailedLoginsPerAccount) (hglobal : 0 < config.maxFailedLoginsGlobal)
    (hmost : config.maxFailedLoginsGlobal ≤ 4096) (hwindow : 0 < config.failedLoginWindowSeconds) (macBound : Bool)
    (store : PortalUserStore) (casefold : String → String) (authed : AuthedSet) (env : PortalEnv)
    (calls : List PortalCall) : (run step (start config macBound store casefold authed env) calls).log.Bounded config :=
  Keeps.bounded (List.foldlRecOn calls step
    (keeps_start hsource haccount hglobal hwindow macBound store casefold authed env)
    fun _ h call _ => Keeps.step h hmost call)

/-- Two wrong passwords for one account from two addresses, the right one, and another wrong one. -/
theorem portal_guesses_bounded_alice :
    (run step (start (sitePortalConfig 512 (by decide)) true siteStore id Dict.empty
        ⟨0, fun _ => none, siteManager .active (some siteKernel), true⟩)
      [siteCall 1 phone true (.login "alice" "guess" (siteAddress 9) "first"),
        siteCall 1 tablet true (.login "alice" "guess" (siteAddress 8) "second"),
        siteCall 1 phone true (siteLogin 9 "third"),
        siteCall 1 tablet true (.login "alice" "guess" (siteAddress 8) "fourth")]).log.Bounded
      (sitePortalConfig 512 (by decide)) :=
  portal_guesses_bounded (by decide) (by decide) (by decide) (by decide) (by decide) true siteStore id Dict.empty
    ⟨0, fun _ => none, siteManager .active (some siteKernel), true⟩ _

end WatchedPortal

end Pirewall
