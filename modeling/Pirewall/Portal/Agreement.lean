/-
# Pirewall.Portal.Agreement -- when the sessions and the kernel's grants agree

Three statements about the two stores. Every grant has a session behind it as long as no login drops a
session whose grant stays: `create` forgets the session it replaces and the one it evicts, and only the
new grant is ever taken back. A live session has a grant that lasts as long as no login finds the pair's
element still in the kernel: a plain add leaves its old timeout. And a keepalive whose token is not that
of the session of its address ends the session, unless the token is empty.
-/
import Pirewall.Portal.Grants

namespace Pirewall

open Lib AuthedSet

namespace PortalService

variable {now : Time} {s s' : PortalService} {env : PortalEnv} {username password token : String}
  {clientIp : IPv4Address}

/-! ## A login -/

/-- The checks a login must pass before a session is made. -/
def admits (s : PortalService) (env : PortalEnv) (username password : String) (clientIp : IPv4Address) : Bool :=
  (s.throttle.lockout clientIp (some username) env.now).1.isNone && !isBlocked env clientIp
    && !(s.macBound && (s.boundMac env clientIp).isNone) && s.store.verify username password

/-- A login that is not admitted leaves both stores alone. -/
theorem login_refused (h : s.admits env username password clientIp = false) :
    Settles env.now s (s.login env username password clientIp token).2 := by
  unfold login
  dsimp only
  split
  · exact .of_eq rfl rfl rfl rfl
  · rename_i hlockout
    split
    · exact .of_eq rfl rfl rfl rfl
    · rename_i hblocked
      split
      · exact .of_eq rfl rfl rfl rfl
      · rename_i hbound
        split
        · exact .of_eq rfl rfl rfl rfl
        · rename_i hverify
          exfalso
          unfold admits at h
          simp only [hlockout, Option.isNone_none, hblocked, Bool.not_false, Bool.true_and] at h
          have hbound' : (s.macBound && (s.boundMac env clientIp).isNone) = false :=
            Bool.eq_false_iff.mpr hbound
          have hverify' : s.store.verify username password = true := by simpa using hverify
          rw [hbound', hverify'] at h
          exact absurd h (by simp)

/-- The session an admitted login makes, and the registry with it. -/
def created (s : PortalService) (env : PortalEnv) (username : String) (clientIp : IPv4Address) (token : String) :
    PortalSession × PortalSessionRegistry :=
  s.sessions.create username clientIp token env.now (s.boundMac env clientIp)

/-- What an admitted login does to the two stores. -/
structure SignedIn (s : PortalService) (env : PortalEnv) (username : String) (clientIp : IPv4Address)
    (token : String) (s' : PortalService) : Prop where
  config : s'.config = s.config
  macBound : s'.macBound = s.macBound
  bound : (s.boundMac env clientIp).isSome = s.macBound
  sessions : s'.sessions =
    if grantAccepted env clientIp then (s.created env username clientIp token).2
    else ((s.created env username clientIp token).2.invalidate token).2
  authed : s'.authed =
    if grantAccepted env clientIp then
      s.authed.addElement (clientIp, s.boundMac env clientIp)
        (env.now + seconds s.config.sessionTimeoutSeconds)
    else s.authed

theorem login_admitted (h : s.admits env username password clientIp = true) :
    SignedIn s env username clientIp token (s.login env username password clientIp token).2 := by
  unfold admits at h
  simp only [Bool.and_eq_true, Option.isNone_iff_eq_none, Bool.not_eq_true'] at h
  obtain ⟨⟨⟨hlockout, hblocked⟩, hbound⟩, hverify⟩ := h
  have hmac : (s.boundMac env clientIp).isSome = s.macBound := by
    cases hb : s.macBound with
    | false => simp [boundMac, hb]
    | true =>
      cases hm : s.boundMac env clientIp with
      | none => exact absurd hbound (by simp [hb, hm])
      | some mac => rfl
  unfold login
  dsimp only
  rw [hlockout]
  dsimp only
  rw [hblocked, if_neg Bool.false_ne_true]
  split
  · rename_i habs
    exact absurd habs (by rw [Bool.not_eq_true]; exact hbound)
  · rw [hverify, Bool.not_true, if_neg Bool.false_ne_true]
    unfold signIn
    dsimp only
    split
    · rename_i haccepted
      exact ⟨rfl, rfl, hmac, by rw [if_pos haccepted]; rfl, by rw [if_pos haccepted]; rfl⟩
    · rename_i hrefused
      exact ⟨rfl, rfl, hmac, by rw [if_neg hrefused]; rfl, by rw [if_neg hrefused]⟩

section SignedIn

variable (h : SignedIn s env username clientIp token s')
include h

/-- Under another token, a login leaves what `create` leaves. -/
theorem SignedIn.get?_of_ne {t : String} (hne : t ≠ token) :
    s'.sessions.byToken.get? t = (s.created env username clientIp token).2.byToken.get? t := by
  rw [h.sessions]
  split
  · rfl
  · rw [PortalSessionRegistry.invalidate_byToken, Dict.get?_erase, if_neg hne]

/-- Under its own token, a login leaves its session if the grant went through. -/
theorem SignedIn.get?_token (hi : s.sessions.Inverse) :
    s'.sessions.byToken.get? token =
      if grantAccepted env clientIp then some (s.created env username clientIp token).1 else none := by
  rw [h.sessions]
  split
  · exact (hi.create_get? username _ token).trans (if_pos rfl)
  · rw [PortalSessionRegistry.invalidate_byToken, Dict.get?_erase, if_pos rfl]

theorem SignedIn.sound (hs : s.Sound) (hfresh : s.sessions.byToken.get? token = none) : s'.Sound where
  inverse := by
    have hcreate : (s.created env username clientIp token).2.Inverse := hs.inverse.create hfresh username _
    rw [h.sessions]
    split
    · exact hcreate
    · exact hcreate.invalidate token
  grants_paired := by
    intro g e hg
    rw [h.macBound]
    rw [h.authed] at hg
    split at hg
    · rw [get?_addElement] at hg
      split at hg
      · rename_i heq
        rw [heq]
        exact h.bound
      · exact hs.grants_paired g e hg
    · exact hs.grants_paired g e hg
  sessions_paired := by
    intro t x hx
    rw [h.macBound]
    by_cases heq : t = token
    · rw [heq, h.get?_token hs.inverse] at hx
      split at hx
      · obtain rfl := Option.some.inj hx
        exact h.bound
      · exact absurd hx (by simp)
    · rw [h.get?_of_ne heq] at hx
      exact hs.sessions_paired t x (hs.inverse.create_old username _ hx heq).1
  timeout := by
    have hlimits : s'.sessions.limits = s.sessions.limits := by
      rw [h.sessions]
      split
      · exact s.sessions.create_limits username _
      · exact (PortalSessionRegistry.invalidate_limits _ _).trans (s.sessions.create_limits username _)
    rw [h.config, (Prod.mk.inj hlimits).1]
    exact hs.timeout

end SignedIn

theorem Sound.atTime (hs : s.Sound) (now : Time) : (s.atTime now).Sound where
  inverse := hs.inverse
  grants_paired := fun g e hg => hs.grants_paired g e (get?_lapse.mp hg).1
  sessions_paired := hs.sessions_paired
  timeout := hs.timeout

/-- Every operation but an admitted login lets go. -/
theorem perform_settles (hs : s.Sound) (env : PortalEnv) (op : PortalOp)
    (hop : ∀ username password clientIp token, op = .login username password clientIp token →
      s.admits env username password clientIp = false) : Settles env.now s (s.perform env op) := by
  cases op with
  | login username password clientIp token => exact login_refused (hop username password clientIp token rfl)
  | keepalive token clientIp => exact keepalive_settles env hs.inverse token clientIp
  | logout token clientIp => exact logout_settles env hs.inverse token clientIp
  | forceLogout clientIp => exact forceLogout_settles env.now hs.inverse clientIp
  | setPassword username password generated salt => exact setPassword_settles env s username password generated salt
  | removeUser username => exact removeUser_settles env s username
  | listSessions => exact Settles.of_lapses (s.sessions.lapses_purgeExpired env.now)
  | sweep => exact sweep_settles env hs

/-- What an operation did: it let go, or it was a login that got past its checks. -/
theorem perform_cases (hs : s.Sound) (env : PortalEnv) (op : PortalOp) :
    Settles env.now s (s.perform env op) ∨
      ∃ username password clientIp token, op = .login username password clientIp token ∧
        s.admits env username password clientIp = true ∧
        SignedIn s env username clientIp token (s.perform env op) := by
  by_cases hlogin : ∃ username password clientIp token, op = .login username password clientIp token ∧
      s.admits env username password clientIp = true
  · obtain ⟨username, password, clientIp, token, rfl, hadmits⟩ := hlogin
    exact .inr ⟨username, password, clientIp, token, rfl, hadmits, login_admitted hadmits⟩
  · refine .inl (perform_settles hs env op ?_)
    rintro username password clientIp token rfl
    rw [← Bool.not_eq_true]
    exact fun hadmits => hlogin ⟨username, password, clientIp, token, rfl, hadmits⟩

/-! ## Every grant has a session -/

/-- Each element in the kernel is that of a session that lasts at least as long, and none outlasts a
session made now. -/
structure Backed (now : Time) (s : PortalService) : Prop where
  session : ∀ grant expiry, s.authed.get? grant = some expiry →
    ∃ token session, s.sessions.byToken.get? token = some session ∧ session.grant = grant ∧
      expiry ≤ session.expiresAt
  bounded : ∀ grant expiry, s.authed.get? grant = some expiry →
    expiry ≤ now + seconds s.config.sessionTimeoutSeconds

theorem Backed.atTime {clock : Time} (h : Backed clock s) (hle : clock ≤ now) : Backed now (s.atTime now) where
  session := fun g e hg => h.session g e (get?_lapse.mp hg).1
  bounded := by
    intro g e hg
    have hbound := h.bounded g e (get?_lapse.mp hg).1
    show e ≤ now + seconds s.config.sessionTimeoutSeconds
    exact hbound.trans (Int.add_le_add_right hle _)

/-- Letting go keeps the grants backed: a session that went had expired, like its element, or lost it. -/
theorem Backed.settles (h : Backed now s) (hlive : ∀ grant expiry, s.authed.get? grant = some expiry → now < expiry)
    (hs : Settles now s s') : Backed now s' where
  session := by
    intro g e hg
    have hold := hs.grants g e hg
    obtain ⟨t, x, hx, rfl, hle⟩ := h.session g e hold
    rcases hs.dropped t x hx with hkept | hexpired | hnone
    · exact ⟨t, x, hkept, rfl, hle⟩
    · exact absurd (hlive _ e hold) (not_lt.mpr (hle.trans hexpired))
    · rw [hnone] at hg
      exact absurd hg (by simp)
  bounded := fun g e hg => by rw [hs.config]; exact h.bounded g e (hs.grants g e hg)

/-- A login loses no grant when every live session it drops (that of its own address, and the one a full
table makes it evict) has no element left, or the element is the one it grants, and the kernel takes the
grant. -/
def LosesNoGrant (s : PortalService) (env : PortalEnv) (clientIp : IPv4Address) : Prop :=
  ∀ session ∈ s.sessions.byToken.values, env.now < session.expiresAt →
    (session.clientIp = clientIp ∨ s.sessions.evicted clientIp env.now = some session) →
    s.authed.contains session.grant = true →
      session.grant = (clientIp, s.boundMac env clientIp) ∧ grantAccepted env clientIp = true

theorem Backed.signedIn (h : Backed env.now s) (hs : s.Sound)
    (hlive : ∀ grant expiry, s.authed.get? grant = some expiry → env.now < expiry)
    (hfresh : s.sessions.byToken.get? token = none) (hkeeps : s.LosesNoGrant env clientIp)
    (hin : SignedIn s env username clientIp token s') : Backed env.now s' := by
  -- an element that was there, other than the one granted, keeps its session
  have hold : ∀ g e, s.authed.get? g = some e →
      (grantAccepted env clientIp = true → g ≠ (clientIp, s.boundMac env clientIp)) →
      ∃ t x, s'.sessions.byToken.get? t = some x ∧ x.grant = g ∧ e ≤ x.expiresAt := by
    intro g e hg hother
    obtain ⟨t, x, hx, rfl, hle⟩ := h.session g e hg
    have hne : t ≠ token := by
      rintro rfl
      rw [hfresh] at hx
      exact absurd hx (by simp)
    have hxlive : env.now < x.expiresAt := lt_of_lt_of_le (hlive _ e hg) hle
    -- the session of such an element is not one that the login displaces: that grant would be lost
    have hnot : ¬ (x.clientIp = clientIp ∨ s.sessions.evicted clientIp env.now = some x) := by
      intro hdisplaced
      have hcontains : s.authed.contains x.grant = true := by simp [Dict.contains, hg]
      obtain ⟨hsame, haccepted⟩ :=
        hkeeps x (Dict.mem_values_iff.mpr ⟨t, hx⟩) hxlive hdisplaced hcontains
      exact hother haccepted hsame
    rw [not_or] at hnot
    refine ⟨t, x, ?_, rfl, hle⟩
    rw [hin.get?_of_ne hne]
    exact hs.inverse.create_kept username _ hx hne hxlive hnot.1 hnot.2
  constructor
  · intro g e hg
    rw [hin.authed] at hg
    split at hg
    · rename_i haccepted
      -- the element that is granted keeps an older timeout, which no session outlives
      rw [get?_addElement] at hg
      split at hg
      · rename_i heq
        refine ⟨token, _, (hin.get?_token hs.inverse).trans (if_pos haccepted), heq.symm, ?_⟩
        obtain rfl := Option.some.inj hg
        show _ ≤ env.now + seconds s.sessions.tokenExpirySeconds
        rw [hs.timeout]
        cases hget : s.authed.get? (clientIp, s.boundMac env clientIp) with
        | none => exact le_refl _
        | some old => exact h.bounded _ old hget
      · rename_i hne
        exact hold g e hg fun _ => hne
    · rename_i hrefused
      exact hold g e hg fun haccepted => absurd haccepted hrefused
  · intro g e hg
    rw [hin.config]
    rw [hin.authed] at hg
    split at hg
    · rw [get?_addElement] at hg
      split at hg
      · obtain rfl := Option.some.inj hg
        cases hget : s.authed.get? (clientIp, s.boundMac env clientIp) with
        | none => exact le_refl _
        | some old => exact h.bounded _ old hget
      · exact h.bounded g e hg
    · exact h.bounded g e hg

/-- No grant without a session: each unexpired element is the address and MAC of a live session. -/
def NoOrphan (s : PortalService) (now : Time) : Prop :=
  ∀ grant expiry, s.authed.get? grant = some expiry → now < expiry →
    ∃ session ∈ s.sessions.byToken.values, now < session.expiresAt ∧ session.grant = grant

theorem Backed.noOrphan (h : Backed now s) : s.NoOrphan now := by
  intro g e hg hlive
  obtain ⟨t, x, hx, hgrant, hle⟩ := h.session g e hg
  exact ⟨x, Dict.mem_values_iff.mpr ⟨t, hx⟩, lt_of_lt_of_le hlive hle, hgrant⟩

/-! ## Starting -/

/-- With nobody signed in, every grant is an orphan. -/
theorem scanGrant_init (now : Time) (keys orphans : List PortalGrant) (tokenExpirySeconds maxSessions : Nat) :
    keys.foldl (scanGrant now) (orphans, .init tokenExpirySeconds maxSessions) =
      (orphans ++ keys, .init tokenExpirySeconds maxSessions) := by
  induction keys generalizing orphans with
  | nil => rw [List.append_nil]; rfl
  | cons key keys ih =>
    have hstep : scanGrant now (orphans, .init tokenExpirySeconds maxSessions) key =
        (orphans ++ [key], .init tokenExpirySeconds maxSessions) := rfl
    rw [List.foldl_cons, hstep, ih, List.append_assoc]
    rfl

end PortalService

namespace PortalSystem

open PortalService

variable {system : PortalSystem} {call : PortalCall}

/-- The condition on a call: a login that gets past its checks has a fresh token and meets `P`. -/
def OnLogin (P : PortalService → PortalEnv → IPv4Address → Prop) (system : PortalSystem) (call : PortalCall) :
    Prop :=
  ∀ username password clientIp token, call.op = .login username password clientIp token →
    (system.found call).admits (system.env call) username password clientIp = true →
    (system.found call).sessions.byToken.get? token = none ∧ P (system.found call) (system.env call) clientIp

theorem found_live {grant : PortalGrant} {expiry : Time}
    (h : (system.found call).authed.get? grant = some expiry) : (system.env call).now < expiry :=
  (get?_lapse.mp h).2

theorem clock_le (system : PortalSystem) (call : PortalCall) : system.clock ≤ (system.env call).now := by
  show system.clock ≤ system.clock + call.elapsed
  exact Int.le_add_of_nonneg_right (Int.natCast_nonneg _)

theorem sound_step {P : PortalService → PortalEnv → IPv4Address → Prop} (hs : system.service.Sound)
    (hcall : OnLogin P system call) : (system.step call).service.Sound := by
  have hfound : (system.found call).Sound := hs.atTime _
  rcases perform_cases hfound (system.env call) call.op with hsettles | ⟨u, p, ip, t, hop, hadmits, hin⟩
  · exact hfound.settles hsettles
  · exact hin.sound hfound (hcall u p ip t hop hadmits).1

/-- The daemon starts with nobody signed in, in either store. -/
theorem start_spec (config : PortalConfig) (macBound : Bool) (store : PortalUserStore)
    (casefold : String → String) (authed : AuthedSet) (env : PortalEnv) :
    (start config macBound store casefold authed env).service.Sound ∧
    Backed env.now (start config macBound store casefold authed env).service ∧
    (start config macBound store casefold authed env).service.sessions.byToken = Dict.empty := by
  have hscan := scanGrant_init env.now (authed.lapse env.now).keys [] config.sessionTimeoutSeconds config.maxSessions
  have hservice : (start config macBound store casefold authed env).service =
      ((((authed.lapse env.now).keys.insertionSort fun x y => grantLe x y = true).foldl
        (fun s grant => s.deauthorize grant.1 grant.2)
        ((init config macBound store casefold authed).atTime env.now))) := by
    show (((init config macBound store casefold authed).atTime env.now).reconcile env).2 = _
    unfold reconcile
    dsimp only
    rw [show (((init config macBound store casefold authed).atTime env.now).authed.keys.foldl (scanGrant env.now)
      ([], ((init config macBound store casefold authed).atTime env.now).sessions)) = _ from hscan]
    rfl
  obtain ⟨hsessions, hconfig, hmac, hgrants⟩ := foldl_deauthorize
    ((authed.lapse env.now).keys.insertionSort fun x y => grantLe x y = true)
    ((init config macBound store casefold authed).atTime env.now)
  rw [← hservice] at hsessions hconfig hmac hgrants
  have hnone : ∀ g e, (start config macBound store casefold authed env).service.authed.get? g ≠ some e := by
    intro g e hg
    obtain ⟨hold, hnot⟩ := (hgrants g e).mp hg
    exact hnot g ((List.mem_insertionSort _).mpr (Dict.mem_keys_iff.mpr ⟨e, hold⟩)) ⟨rfl, .inr rfl⟩
  have hnobody : ∀ t x,
      (start config macBound store casefold authed env).service.sessions.byToken.get? t ≠ some x := by
    intro t x hx
    rw [hsessions] at hx
    exact absurd hx (by simp [init, PortalService.atTime, PortalSessionRegistry.init])
  refine ⟨⟨?_, fun g e hg => absurd hg (hnone g e), fun t x hx => absurd hx (hnobody t x), ?_⟩,
    ⟨fun g e hg => absurd hg (hnone g e), fun g e hg => absurd hg (hnone g e)⟩, ?_⟩
  · rw [hsessions]
    exact PortalSessionRegistry.inverse_init _ _
  · rw [hsessions, hconfig]
    rfl
  · rw [hsessions]
    rfl

/-- Both invariants of the grants, over one call. -/
theorem backed_step (hs : system.service.Sound) (hb : Backed system.clock system.service)
    (hcall : OnLogin LosesNoGrant system call) : Backed (system.env call).now (system.step call).service := by
  have hfound : (system.found call).Sound := hs.atTime _
  have hbacked : Backed (system.env call).now (system.found call) := hb.atTime (system.clock_le call)
  rcases perform_cases hfound (system.env call) call.op with hsettles | ⟨u, p, ip, t, hop, hadmits, hin⟩
  · exact hbacked.settles (fun _ _ => found_live) hsettles
  · obtain ⟨hfresh, hkeeps⟩ := hcall u p ip t hop hadmits
    exact hbacked.signedIn hfound (fun _ _ => found_live) hfresh hkeeps hin

/-- In a run whose logins lose no grant, every unexpired grant has a live session behind it after every
call, whether it succeeded or not. -/
theorem grants_have_sessions (config : PortalConfig) (macBound : Bool) (store : PortalUserStore)
    (casefold : String → String) (authed : AuthedSet) (env : PortalEnv) (calls : List PortalCall)
    (h : Along step (OnLogin LosesNoGrant) (start config macBound store casefold authed env) calls) :
    Along step (fun system call => (system.step call).service.NoOrphan (system.env call).now)
      (start config macBound store casefold authed env) calls := by
  obtain ⟨hsound, hbacked, _⟩ := start_spec config macBound store casefold authed env
  refine Along.of_invariant (I := fun system => system.service.Sound ∧ Backed system.clock system.service)
    ?_ ?_ h ⟨hsound, hbacked⟩
  · rintro system call ⟨hs, hb⟩ hcall
    exact ⟨sound_step hs hcall, backed_step hs hb hcall⟩
  · rintro system call ⟨hs, hb⟩ hcall
    exact (backed_step hs hb hcall).noOrphan

/-- A run of two logins from one address: the second grants the pair again. -/
def loginTwice : List PortalCall :=
  [siteCall 0 phone true (siteLogin 9 "first"), siteCall 60 phone true (siteLogin 9 "second")]

instance (s : PortalService) (env : PortalEnv) (clientIp : IPv4Address) :
    Decidable (s.LosesNoGrant env clientIp) :=
  List.decidableBAll _ _

theorem grants_have_sessions_relogin :
    Along step (fun system call => (system.step call).service.NoOrphan (system.env call).now)
      (siteStart 512 (by decide)) loginTwice := by
  refine grants_have_sessions (sitePortalConfig 512 (by decide)) true siteStore id Dict.empty _ loginTwice
    ⟨?_, ?_, trivial⟩
  · rintro username password clientIp token hop -
    obtain ⟨rfl, rfl, rfl, rfl⟩ := PortalOp.login.inj hop
    decide +kernel
  · rintro username password clientIp token hop -
    obtain ⟨rfl, rfl, rfl, rfl⟩ := PortalOp.login.inj hop
    decide +kernel

/-- An unexpired grant that no live session was issued is an orphan. -/
theorem orphan_of {system : PortalSystem} (grant : PortalGrant)
    (hgrant : (system.service.authed.get? grant).any (fun expiry => decide (system.clock < expiry)) = true)
    (hnone : (system.service.sessions.byToken.values.all fun session =>
      decide (system.clock < session.expiresAt → session.grant ≠ grant)) = true) :
    ¬ system.service.NoOrphan system.clock := by
  intro h
  obtain ⟨expiry, hget, hlive⟩ := Option.any_eq_true _ _ |>.mp hgrant
  obtain ⟨session, hmem, hsession, heq⟩ := h grant expiry hget (of_decide_eq_true hlive)
  exact of_decide_eq_true (List.all_eq_true.mp hnone session hmem) hsession heq

/-- A login leaves an orphan grant: with a full table, from an address that moved to another device, and
when the new grant is refused. -/
theorem login_leaves_orphan_grant :
    ¬ (run step (siteStart 1 (by decide))
        [siteCall 0 phone true (siteLogin 9 "first"), siteCall 60 tablet true (siteLogin 8 "second")]).service.NoOrphan
        60000000 ∧
    ¬ (run step (siteStart 512 (by decide))
        [siteCall 0 phone true (siteLogin 9 "first"), siteCall 60 tablet true (siteLogin 9 "second")]).service.NoOrphan
        60000000 ∧
    ¬ (run step (siteStart 512 (by decide))
        [siteCall 0 phone true (siteLogin 9 "first"), siteCall 60 phone false (siteLogin 9 "second")]).service.NoOrphan
        60000000 := by
  refine ⟨?_, ?_, ?_⟩
  · exact orphan_of (siteAddress 9, some phone) (by decide +kernel) (by decide +kernel)
  · exact orphan_of (siteAddress 9, some phone) (by decide +kernel) (by decide +kernel)
  · exact orphan_of (siteAddress 9, some phone) (by decide +kernel) (by decide +kernel)

end PortalSystem

/-! ## A live session has a grant -/

namespace PortalService

variable {now : Time} {s s' : PortalService} {env : PortalEnv} {username token : String} {clientIp : IPv4Address}

/-- Each live session's element is in the kernel for at least as long as the session. -/
def Working (now : Time) (s : PortalService) : Prop :=
  ∀ token session, s.sessions.byToken.get? token = some session → now < session.expiresAt →
    ∃ expiry, s.authed.get? session.grant = some expiry ∧ session.expiresAt ≤ expiry

theorem Working.atTime {clock : Time} (h : Working clock s) (hle : clock ≤ now) : Working now (s.atTime now) := by
  intro t x hx hlive
  obtain ⟨e, he, hlast⟩ := h t x hx (lt_of_le_of_lt hle hlive)
  exact ⟨e, get?_lapse.mpr ⟨he, lt_of_lt_of_le hlive hlast⟩, hlast⟩

theorem Working.settles (h : Working now s) (hs : Settles now s s') : Working now s' := by
  intro t x hx hlive
  obtain ⟨e, he, hlast⟩ := h t x (hs.registry t x hx) hlive
  exact ⟨e, (hs.kept t x hx hlive).trans he, hlast⟩

/-- A login renews its grant when the kernel holds no element of the pair that lapses before the new
session does: `add element` leaves the timeout of one that is there. -/
def RenewsGrant (s : PortalService) (env : PortalEnv) (clientIp : IPv4Address) : Prop :=
  grantAccepted env clientIp = true →
    ∀ expiry ∈ s.authed.get? (clientIp, s.boundMac env clientIp),
      env.now + seconds s.config.sessionTimeoutSeconds ≤ expiry

theorem Working.signedIn (h : Working env.now s) (hs : s.Sound) (hrenews : s.RenewsGrant env clientIp)
    (hin : SignedIn s env username clientIp token s') : Working env.now s' := by
  intro t x hx hlive
  by_cases heq : t = token
  · rw [heq, hin.get?_token hs.inverse] at hx
    split at hx
    · rename_i haccepted
      obtain rfl := Option.some.inj hx
      refine ⟨(s.authed.get? (clientIp, s.boundMac env clientIp)).getD
        (env.now + seconds s.config.sessionTimeoutSeconds), ?_, ?_⟩
      · rw [hin.authed, if_pos haccepted, get?_addElement]
        exact if_pos rfl
      · show env.now + seconds s.sessions.tokenExpirySeconds ≤ _
        rw [hs.timeout]
        cases hget : s.authed.get? (clientIp, s.boundMac env clientIp) with
        | none => exact le_refl _
        | some old => exact hrenews haccepted old hget
    · exact absurd hx (by simp)
  · rw [hin.get?_of_ne heq] at hx
    obtain ⟨hold, hip⟩ := hs.inverse.create_old username _ hx heq
    obtain ⟨e, he, hlast⟩ := h t x hold hlive
    refine ⟨e, ?_, hlast⟩
    rw [hin.authed]
    split
    · rw [get?_addElement, if_neg, he]
      intro hgrant
      exact hip (congrArg Prod.fst hgrant)
    · exact he

/-- The countdown is rounded down. -/
theorem add_seconds_remaining_le {expiry : Time} (h : now ≤ expiry) :
    now + seconds (max 0 (wholeSeconds (expiry - now))) ≤ expiry := by
  have hnonneg : 0 ≤ expiry - now := Int.sub_nonneg_of_le h
  have hwhole : wholeSeconds (expiry - now) = (expiry - now) / 1000000 := Int.tdiv_eq_ediv_of_nonneg hnonneg
  have hquot : 0 ≤ (expiry - now) / 1000000 := Int.ediv_nonneg hnonneg (by decide)
  have hmul : (expiry - now) / 1000000 * 1000000 ≤ expiry - now := Int.ediv_mul_le _ (by decide)
  rw [hwhole, max_eq_right hquot]
  show now + (expiry - now) / 1000000 * 1000000 ≤ expiry
  exact le_sub_iff_add_le'.mp hmul

/-- What a keepalive answers AUTHENTICATED for: the live session of the address, issued to the MAC the
address is bound to. -/
theorem keepalive_authenticated {polled : Option String} (hs : s.Sound)
    (h : (s.keepalive env polled clientIp).1.status = .authenticated) :
    ∃ t x, s.sessions.byToken.get? t = some x ∧ env.now < x.expiresAt ∧
      x.grant = (clientIp, s.boundMac env clientIp) ∧
      (s.keepalive env polled clientIp).1.secondsRemaining = max 0 (wholeSeconds (x.expiresAt - env.now)) ∧
      (s.keepalive env polled clientIp).2.authed = s.authed := by
  unfold keepalive at h ⊢
  split at h
  · exact absurd h (by simp)
  · split at h
    · exact absurd h (by simp)
    · rename_i hblocked _ t _
      rw [if_neg hblocked]
      dsimp only at h ⊢
      split at h
      · exact absurd h (by simp)
      · rename_i x hx
        split at h
        · rename_i hsame
          obtain ⟨hget, hlive, hip, hregistry⟩ := PortalSessionRegistry.validate_some hx
          rw [if_pos hsame]
          refine ⟨t, x, hget, hlive, ?_, rfl, rfl⟩
          have hpaired := hs.sessions_paired t x hget
          unfold sameDevice at hsame
          dsimp only at hsame
          refine Prod.ext hip ?_
          show x.clientMac = s.boundMac env clientIp
          unfold boundMac
          cases hmac : s.macBound with
          | false =>
            rw [hmac, Option.isSome_eq_false_iff, Option.isNone_iff_eq_none] at hpaired
            exact hpaired
          | true =>
            have hnone : x.clientMac.isNone = false := by
              rw [hmac] at hpaired
              cases hm : x.clientMac with
              | none => exact absurd hpaired (by simp [hm])
              | some mac => rfl
            rw [hmac, hnone] at hsame
            exact (beq_iff_eq.mp (by simpa using hsame)).symm
        · exact absurd h (by simp)

end PortalService

namespace PortalSystem

open PortalService

variable {system : PortalSystem} {call : PortalCall}

theorem working_step (hs : system.service.Sound) (hw : Working system.clock system.service)
    (hcall : OnLogin RenewsGrant system call) : Working (system.env call).now (system.step call).service := by
  have hfound : (system.found call).Sound := hs.atTime _
  have hworking : Working (system.env call).now (system.found call) := hw.atTime (system.clock_le call)
  rcases perform_cases hfound (system.env call) call.op with hsettles | ⟨u, p, ip, t, hop, hadmits, hin⟩
  · exact hworking.settles hsettles
  · exact hworking.signedIn hfound (hcall u p ip t hop hadmits).2 hin

/-- A keepalive that answers AUTHENTICATED with `n` seconds left finds the client's element live, and not
to lapse before these `n` seconds are over. -/
def HonestKeepalive (system : PortalSystem) (call : PortalCall) : Prop :=
  ∀ token clientIp, call.op = .keepalive token clientIp →
    ((system.found call).keepalive (system.env call) token clientIp).1.status = .authenticated →
    ∃ expiry,
      (system.step call).service.authed.get? (clientIp, (system.found call).boundMac (system.env call) clientIp) =
        some expiry ∧
      (system.env call).now < expiry ∧
      (system.env call).now +
        seconds ((system.found call).keepalive (system.env call) token clientIp).1.secondsRemaining ≤ expiry

/-- In a run whose logins renew their grant, a live session is a working one. -/
theorem live_sessions_work (config : PortalConfig) (macBound : Bool) (store : PortalUserStore)
    (casefold : String → String) (authed : AuthedSet) (env : PortalEnv) (calls : List PortalCall)
    (h : Along step (OnLogin RenewsGrant) (start config macBound store casefold authed env) calls) :
    Along step HonestKeepalive (start config macBound store casefold authed env) calls := by
  obtain ⟨hsound, _, hempty⟩ := start_spec config macBound store casefold authed env
  have hworking : Working env.now (start config macBound store casefold authed env).service := by
    intro t x hx
    rw [hempty] at hx
    exact absurd hx (by simp)
  refine Along.of_invariant (I := fun system => system.service.Sound ∧ Working system.clock system.service)
    ?_ ?_ h ⟨hsound, hworking⟩
  · rintro system call ⟨hs, hw⟩ hcall
    exact ⟨sound_step hs hcall, working_step hs hw hcall⟩
  · rintro system call ⟨hs, hw⟩ hcall token clientIp hop hstatus
    have hfound : (system.found call).Sound := hs.atTime _
    have hworking : Working (system.env call).now (system.found call) := hw.atTime (system.clock_le call)
    obtain ⟨t, x, hx, hlive, hgrant, hseconds, hauthed⟩ := keepalive_authenticated hfound hstatus
    obtain ⟨expiry, hget, hlast⟩ := hworking t x hx hlive
    refine ⟨expiry, ?_, lt_of_lt_of_le hlive hlast, ?_⟩
    · have hstep : (system.step call).service.authed =
          ((system.found call).keepalive (system.env call) token clientIp).2.authed := by
        unfold step perform
        rw [hop]
      rw [hstep, ← hgrant]
      exact (congrArg (fun a : AuthedSet => a.get? x.grant) hauthed).trans hget
    · rw [hseconds]
      exact (add_seconds_remaining_le (Int.le_of_lt hlive)).trans hlast

/-- The same address signs in, is polled, signs in again once its grant has lapsed, and is polled. -/
def loginAfterLapse : List PortalCall :=
  [siteCall 0 phone true (siteLogin 9 "first"),
   siteCall 60 phone true (.keepalive (some "first") (siteAddress 9)),
   siteCall 1740 phone true (siteLogin 9 "second"),
   siteCall 60 phone true (.keepalive (some "second") (siteAddress 9))]

theorem live_sessions_work_after_lapse : Along step HonestKeepalive (siteStart 512 (by decide)) loginAfterLapse := by
  refine live_sessions_work (sitePortalConfig 512 (by decide)) true siteStore id Dict.empty _ loginAfterLapse
    ⟨?_, ?_, ?_, ?_, trivial⟩
  · rintro username password clientIp token hop -
    obtain ⟨rfl, rfl, rfl, rfl⟩ := PortalOp.login.inj hop
    exact ⟨by decide +kernel, fun _ => by decide +kernel⟩
  · rintro username password clientIp token hop
    exact absurd hop (by simp [siteCall])
  · rintro username password clientIp token hop -
    obtain ⟨rfl, rfl, rfl, rfl⟩ := PortalOp.login.inj hop
    exact ⟨by decide +kernel, fun _ => by decide +kernel⟩
  · rintro username password clientIp token hop
    exact absurd hop (by simp [siteCall])

/-- A login after 1000 s, while the first grant is live, makes a session the grant does not last for: at
1800 s the client is told it has 1000 s left, and its element is gone. -/
theorem relogin_outlives_grant :
    ¬ Along step HonestKeepalive (siteStart 512 (by decide))
      [siteCall 0 phone true (siteLogin 9 "first"), siteCall 1000 phone true (siteLogin 9 "second"),
       siteCall 800 phone true (.keepalive (some "second") (siteAddress 9))] := by
  rintro ⟨-, -, hpoll, -⟩
  obtain ⟨expiry, hget, -, -⟩ := hpoll (some "second") (siteAddress 9) rfl (by decide +kernel)
  have hgone := Option.isSome_iff_exists.mpr ⟨expiry, hget⟩
  exact absurd hgone (by decide +kernel)

end PortalSystem

/-! ## Stale tokens -/

namespace PortalService

variable {s : PortalService} {env : PortalEnv} {session : PortalSession}

/-- A token that is not that of the session of the address does not validate there. -/
theorem validate_other {r : PortalSessionRegistry} (now : Time) {token : String}
    (hget : r.byToken.get? session.token = some session) (hne : token ≠ session.token) :
    (r.validate token session.clientIp now).1 = none := by
  cases hfound : (r.validate token session.clientIp now).1 with
  | none => rfl
  | some other =>
    obtain ⟨hother, _, hip, _⟩ := PortalSessionRegistry.validate_some hfound
    exact absurd (PortalSessionRegistry.token_eq_of_clientIp hother hget hip) hne

/-- What a stale token leaves of the live session of its address: the session still valid, and its grant
in the kernel as it was. -/
def SessionStands (s : PortalService) (env : PortalEnv) (session : PortalSession) (s' : PortalService) : Prop :=
  (s'.sessions.validate session.token session.clientIp env.now).1 = some session ∧
    s'.authed.get? session.grant = s.authed.get? session.grant

/-- For every state, every live session of an address no BLOCK rule matches and every other token: the
session survives a keepalive with that token exactly when the token is empty. -/
theorem stale_token_harmless_iff (s : PortalService) (env : PortalEnv) (session : PortalSession)
    (hget : s.sessions.byToken.get? session.token = some session) (hlive : env.now < session.expiresAt)
    (hblocked : isBlocked env session.clientIp = false) (token : String) (hne : token ≠ session.token) :
    SessionStands s env session (s.keepalive env (some token) session.clientIp).2 ↔ token = "" := by
  by_cases hempty : token = ""
  · -- no token at all: nothing is touched
    refine iff_of_true ?_ hempty
    have hsame : (s.keepalive env (some token) session.clientIp).2 = s := by
      simp [keepalive, hblocked, hempty, Option.filter_some]
    rw [hsame]
    exact ⟨by rw [PortalSessionRegistry.validate_live hget hlive], rfl⟩
  · refine iff_of_false ?_ hempty
    have hnone := validate_other env.now hget hne
    rintro ⟨hvalid, _⟩
    have hrevoked : (s.keepalive env (some token) session.clientIp).2 =
        { s with sessions := (s.sessions.validate token session.clientIp env.now).2 }.revoke session.clientIp := by
      simp [keepalive, hblocked, hempty, hnone, Option.filter_some]
    rw [hrevoked] at hvalid
    -- `_revoke` ends the session of the address, whichever token it has
    have hlive' := (PortalSessionRegistry.validate_some hvalid).1
    exact PortalSessionRegistry.invalidateIp_noneAt hlive' rfl

/-- The service after `alice` signed in twice from one address: the second session is live. -/
def signedInTwice : PortalSystem := run PortalSystem.step (siteStart 512 (by decide)) PortalSystem.loginTwice

def siteSession : PortalSession :=
  ⟨"second", "alice", siteAddress 9, 60000000, 1860000000, some phone⟩

def sitePoll : PortalEnv := ⟨70000000, fun _ => some phone, siteManager .active (some siteKernel), true⟩

theorem stale_token_harmless_iff_empty :
    SessionStands signedInTwice.service sitePoll siteSession
      (signedInTwice.service.keepalive sitePoll (some "") siteSession.clientIp).2 :=
  (stale_token_harmless_iff signedInTwice.service sitePoll siteSession (by decide +kernel) (by decide)
    (by decide +kernel) "" (by decide)).mpr rfl

/-- The token of the first login, polled from a second tab, ends the session of the second login. -/
theorem older_token_ends_session :
    (signedInTwice.service.sessions.validate siteSession.token siteSession.clientIp sitePoll.now).1 =
      some siteSession ∧
    isBlocked sitePoll siteSession.clientIp = false ∧
    ¬ SessionStands signedInTwice.service sitePoll siteSession
      (signedInTwice.service.keepalive sitePoll (some "first") siteSession.clientIp).2 := by
  refine ⟨by decide +kernel, by decide +kernel, ?_⟩
  rintro ⟨hvalid, -⟩
  exact absurd hvalid (by decide +kernel)

end PortalService

end Pirewall
