/-
# Pirewall.Portal.Accounts -- a session belongs to a current account

Every session in the registry was issued by a login of the run, and since that login nobody changed or removed the
account it names. The calls are the operations of the service together with `add_user`; the store's writes succeed.

Neither half of the session index is needed: whatever an operation does to the registry, by token it only drops
sessions (`DropsOnly`), but for the one that a login files. A changed password and a removed account end every session
of the name, whichever address it is at.

Two generations of an account can have one name, and a session knows the name only. So the statement is about what
happened since the login that issued the token, and the run is read from there: no call in between is one that changes
the account (`Current`). A login reads the store once, checks the password against what it read and issues the token
in the same call, so nothing comes between the two.
-/
import Pirewall.Portal.Agreement

namespace Pirewall

open Lib

namespace PortalSessionRegistry

variable {r : PortalSessionRegistry} {clientIp : IPv4Address} {token t : String} {session : PortalSession}

theorem invalidate_sub (h : (r.invalidate token).2.byToken.get? t = some session) :
    t ≠ token ∧ r.byToken.get? t = some session := by
  rw [invalidate_byToken, Dict.get?_erase] at h
  split at h
  · exact absurd h (by simp)
  · rename_i hne
    exact ⟨hne, h⟩

theorem invalidateIp_sub (h : (r.invalidateIp clientIp).2.byToken.get? t = some session) :
    r.byToken.get? t = some session := by
  unfold invalidateIp at h
  split at h
  · exact h
  · exact (invalidate_sub h).2

/-- Under another token, `create` leaves nothing that was not there, whatever token it files. -/
theorem create_sub {username : String} {now : Time} {clientMac : Option Mac} (hne : t ≠ token)
    (h : (r.create username clientIp token now clientMac).2.byToken.get? t = some session) :
    r.byToken.get? t = some session := by
  have hset : (((r.purgeExpired now).2.invalidateIp clientIp).2.makeRoom.byToken.set token
      (r.create username clientIp token now clientMac).1).get? t = some session := h
  rw [Dict.get?_set, if_neg hne] at hset
  exact (r.lapses_purgeExpired now).registry t session (invalidateIp_sub (makeRoom_le hset))

theorem create_self (username : String) (now : Time) (clientMac : Option Mac) :
    (r.create username clientIp token now clientMac).2.byToken.get? token =
      some (r.create username clientIp token now clientMac).1 := by
  show (((r.purgeExpired now).2.invalidateIp clientIp).2.makeRoom.byToken.set token _).get? token = _
  rw [Dict.get?_set, if_pos rfl]
  rfl

end PortalSessionRegistry

namespace PortalService

variable {s s' s'' : PortalService} {env : PortalEnv} {username : String} {token : String} {session : PortalSession}

/-! ## Operations that drop sessions only -/

/-- The accounts are as they were, and every session was there before. -/
structure DropsOnly (s s' : PortalService) : Prop where
  store : s'.store = s.store
  registry : ∀ token session, s'.sessions.byToken.get? token = some session →
    s.sessions.byToken.get? token = some session

theorem DropsOnly.refl (s : PortalService) : DropsOnly s s := ⟨rfl, fun _ _ => id⟩

theorem DropsOnly.trans (h : DropsOnly s s') (h' : DropsOnly s' s'') : DropsOnly s s'' :=
  ⟨h'.store.trans h.store, fun t x hx => h.registry t x (h'.registry t x hx)⟩

theorem DropsOnly.foldl {α : Type} {f : PortalService → α → PortalService} (hf : ∀ s x, DropsOnly s (f s x))
    (items : List α) (s : PortalService) : DropsOnly s (items.foldl f s) := by
  induction items generalizing s with
  | nil => exact .refl s
  | cons x items ih => exact (hf s x).trans (ih (f s x))

theorem DropsOnly.of_lapses {now : Time} {sessions : PortalSessionRegistry}
    (h : s.sessions.Lapses now sessions) : DropsOnly s { s with sessions } := ⟨rfl, h.registry⟩

theorem dropsOnly_deauthorize (s : PortalService) (clientIp : IPv4Address) (clientMac : Option Mac) :
    DropsOnly s (s.deauthorize clientIp clientMac) := ⟨rfl, fun _ _ => id⟩

theorem dropsOnly_endSession (s : PortalService) (session : PortalSession) :
    DropsOnly s (s.endSession session) :=
  ⟨rfl, fun _ _ h => (PortalSessionRegistry.invalidate_sub h).2⟩

theorem dropsOnly_revoke (s : PortalService) (clientIp : IPv4Address) : DropsOnly s (s.revoke clientIp) :=
  ⟨rfl, fun _ _ h => PortalSessionRegistry.invalidateIp_sub h⟩

theorem dropsOnly_keepalive (s : PortalService) (env : PortalEnv) (token : Option String)
    (clientIp : IPv4Address) : DropsOnly s (s.keepalive env token clientIp).2 := by
  unfold keepalive
  split
  · exact dropsOnly_revoke s clientIp
  · split
    · exact .refl s
    · rename_i token _
      have hlapses : DropsOnly s { s with sessions := (s.sessions.validate token clientIp env.now).2 } :=
        .of_lapses (s.sessions.lapses_validate token clientIp env.now)
      dsimp only
      split
      · exact hlapses.trans (dropsOnly_revoke _ clientIp)
      · split
        · exact hlapses
        · exact hlapses.trans (dropsOnly_revoke _ clientIp)

theorem dropsOnly_logout (s : PortalService) (env : PortalEnv) (token : String) (clientIp : IPv4Address) :
    DropsOnly s (s.logout env token clientIp).2 := by
  have hlapses : DropsOnly s { s with sessions := (s.sessions.validate token clientIp env.now).2 } :=
    .of_lapses (s.sessions.lapses_validate token clientIp env.now)
  unfold logout
  dsimp only
  split
  · exact hlapses
  · split
    · exact hlapses.trans ⟨rfl, fun _ _ h => (PortalSessionRegistry.invalidate_sub h).2⟩
    · exact hlapses.trans (dropsOnly_revoke _ clientIp)

theorem dropsOnly_reconcile (s : PortalService) (env : PortalEnv) : DropsOnly s (s.reconcile env).2 := by
  have hscanned := (foldl_scanGrant env.now s.authed.keys [] s.sessions).1
  exact (DropsOnly.of_lapses hscanned).trans
    (.foldl (fun s (grant : PortalGrant) => dropsOnly_deauthorize s grant.1 grant.2) _ _)

theorem dropsOnly_sweep (s : PortalService) (env : PortalEnv) : DropsOnly s (s.sweep env).2 := by
  have hpurged : DropsOnly s { s with sessions := (s.sessions.purgeExpired env.now).2 } :=
    .of_lapses (s.sessions.lapses_purgeExpired env.now)
  have hretired : DropsOnly { s with sessions := (s.sessions.purgeExpired env.now).2 }
      ((s.sessions.purgeExpired env.now).1.foldl
        (fun s session => s.deauthorize session.clientIp session.clientMac)
        { s with sessions := (s.sessions.purgeExpired env.now).2 }) :=
    .foldl (fun s (session : PortalSession) => dropsOnly_deauthorize s session.clientIp session.clientMac) _ _
  exact (hpurged.trans hretired).trans (dropsOnly_reconcile _ env)

/-! ## Ending the sessions of a name -/

theorem dropsOnly_endSessionsFor (s : PortalService) (env : PortalEnv) (username : String) :
    DropsOnly s (s.endSessionsFor env username) :=
  (DropsOnly.of_lapses (s.sessions.lapses_purgeExpired env.now)).trans (.foldl dropsOnly_endSession _ _)

/-- A session that is ended under its token is gone, whatever else is ended with it. -/
theorem foldl_endSession_get? {sessions : List PortalSession}
    (h : (sessions.foldl endSession s).sessions.byToken.get? token = some session) :
    ∀ ended ∈ sessions, ended.token ≠ token := by
  induction sessions generalizing s with
  | nil => exact fun _ h => absurd h List.not_mem_nil
  | cons first sessions ih =>
    have hrest := ih h
    have hfirst := (DropsOnly.foldl dropsOnly_endSession sessions (s.endSession first)).registry token session h
    intro ended hended
    rcases List.mem_cons.mp hended with rfl | hended
    · exact (PortalSessionRegistry.invalidate_sub hfirst).1.symm
    · exact hrest ended hended

/-- `_end_sessions_for` leaves no session of the name. -/
theorem endSessionsFor_username
    (h : (s.endSessionsFor env username).sessions.byToken.get? token = some session) :
    session.username ≠ username := by
  intro hname
  -- the session was in the list that is scanned: it is in the registry the scan starts from
  have hpurged : (s.sessions.purgeExpired env.now).2.byToken.get? token = some session :=
    (DropsOnly.foldl dropsOnly_endSession _ _).registry token session h
  have hlisted : session ∈ (s.sessions.listSessions env.now).1.filter fun x => x.username == username := by
    rw [List.mem_filter, beq_iff_eq]
    refine ⟨(List.mem_insertionSort _).mpr ?_, hname⟩
    exact Dict.mem_values_iff.mpr ⟨token, hpurged⟩
  exact foldl_endSession_get? h session hlisted
    ((s.sessions.purgeExpired env.now).2.indexed token session hpurged).1

/-! ## Logins -/

theorem login_store (s : PortalService) (env : PortalEnv) (username password : String) (clientIp : IPv4Address)
    (fresh : String) : (s.login env username password clientIp fresh).2.store = s.store := by
  unfold login signIn
  dsimp only
  split
  · rfl
  · split_ifs <;> rfl

/-- What a login leaves: the sessions that were there, and its own on the account it was checked against. -/
theorem login_registry {password : String} {clientIp : IPv4Address} {fresh : String}
    (h : (s.login env username password clientIp fresh).2.sessions.byToken.get? token = some session) :
    s.sessions.byToken.get? token = some session ∨
      ((s.login env username password clientIp fresh).1 = .ok session ∧ session.username = username ∧
        s.store.verify username password = true) := by
  unfold login at h ⊢
  dsimp only at h ⊢
  split at h
  · exact .inl h
  · split_ifs at h ⊢ with hblocked hbound hverify
    · exact .inl h
    · exact .inl h
    · exact .inl h
    · unfold signIn at h ⊢
      dsimp only at h ⊢
      split_ifs at h ⊢
      · by_cases htoken : token = fresh
        · subst htoken
          rw [PortalSessionRegistry.create_self] at h
          obtain rfl := Option.some.inj h
          exact .inr ⟨rfl, rfl, by simpa using hverify⟩
        · exact .inl (PortalSessionRegistry.create_sub htoken h)
      · -- the grant was refused: the session is taken back, and with it one that had its token
        obtain ⟨hne, hcreated⟩ := PortalSessionRegistry.invalidate_sub h
        exact .inl (PortalSessionRegistry.create_sub hne hcreated)

end PortalService

/-! ## The store -/

namespace PortalUserStore

theorem verify_account {store : PortalUserStore} {username password : String}
    (h : store.verify username password = true) : ∃ user, store.users.get? username = some user := by
  unfold verify at h
  split at h
  · exact absurd h (by simp)
  · rename_i user huser
    exact ⟨user, huser⟩

/-- A store whose writes do not fail writes. -/
theorem persist_reliable {store : PortalUserStore} (h : store.faults = []) (users : Dict String PortalUser) :
    persist { store with users } =
      (.ok (), { store with users, file := listUsers { store with users } }) := by
  cases store
  subst h
  rfl

/-- A new account takes the name of none there is. -/
theorem add_reliable {store : PortalUserStore} (hfaults : store.faults = []) (username password salt : String)
    (createdAt : Time) (createdBy note : String) (isDemo : Bool) :
    (store.add username password salt createdAt createdBy note isDemo).2.faults = [] ∧
      ∀ name user, store.users.get? name = some user →
        (store.add username password salt createdAt createdBy note isDemo).2.users.get? name = some user := by
  unfold add
  dsimp only
  split_ifs with hknown hvalid
  · exact ⟨hfaults, fun _ _ => id⟩
  · rw [persist_reliable hfaults]
    refine ⟨hfaults, ?_⟩
    intro name user huser
    refine (Dict.get?_set _ _ _ _).trans ((if_neg ?_).trans huser)
    rintro rfl
    exact hknown (by rw [Dict.contains, huser]; rfl)
  · exact ⟨hfaults, fun _ _ => id⟩

end PortalUserStore

namespace PortalService

/-- With a store that writes, a new password is refused for want of an account, or it is stored and the sessions
of the name end. -/
theorem setPassword_reliable (s : PortalService) (hfaults : s.store.faults = []) (env : PortalEnv)
    (username : String) (password : Option String) (generated salt : String) :
    (s.setPassword env username password generated salt = (.error (.doesNotExist username), s)) ∨
    ∃ user store, s.setPassword env username password generated salt =
        (.ok user, { s with store }.endSessionsFor env username) ∧ store.faults = [] ∧
      ∀ name, name ≠ username → store.users.get? name = s.store.users.get? name := by
  unfold setPassword PortalUserStore.setPassword
  cases s.store.users.get? username with
  | none => exact .inl rfl
  | some user =>
    dsimp only
    rw [PortalUserStore.persist_reliable hfaults]
    refine .inr ⟨_, _, rfl, hfaults, ?_⟩
    intro name hne
    exact (Dict.get?_set _ _ _ _).trans (if_neg hne)

/-- With a store that writes, there is no account to remove, or it goes and the sessions of the name end. -/
theorem removeUser_reliable (s : PortalService) (hfaults : s.store.faults = []) (env : PortalEnv)
    (username : String) :
    (s.removeUser env username = (.ok false, s)) ∨
    ∃ store, s.removeUser env username = (.ok true, { s with store }.endSessionsFor env username) ∧
      store.faults = [] ∧ ∀ name, name ≠ username → store.users.get? name = s.store.users.get? name := by
  unfold removeUser PortalUserStore.remove
  cases s.store.users.contains username with
  | false => exact .inl rfl
  | true =>
    rw [if_pos rfl, PortalUserStore.persist_reliable hfaults]
    refine .inr ⟨_, rfl, hfaults, ?_⟩
    intro name hne
    exact (Dict.get?_erase _ _ _).trans (if_neg hne)

/-- With a store that writes, a new account leaves the sessions and the accounts there are. -/
theorem addUser_reliable (s : PortalService) (hfaults : s.store.faults = []) (now : Time) (username : String)
    (password : Option String) (createdBy note generated salt : String) :
    ∃ store, (s.addUser now username password createdBy note generated salt).2 = { s with store } ∧
      store.faults = [] ∧
      ∀ name user, s.store.users.get? name = some user → store.users.get? name = some user := by
  obtain ⟨hadded, hkept⟩ := PortalUserStore.add_reliable hfaults username
    ((password.filter (· ≠ "")).getD generated) salt now createdBy note false
  unfold addUser
  dsimp only
  split
  · rename_i e store hadd
    rw [hadd] at hadded hkept
    exact ⟨store, rfl, hadded, hkept⟩
  · rename_i user store hadd
    rw [hadd] at hadded hkept
    exact ⟨store, rfl, hadded, hkept⟩

end PortalService

/-! ## Requests -/

/-- A request of the client or of the administrator: an operation, or a new account. -/
inductive PortalRequest where
  | operate (call : PortalCall)
  | addUser (elapsed : Nat) (username : String) (password : Option String) (createdBy note generated salt : String)

namespace PortalSystem

/-- One request of a run. -/
def request (system : PortalSystem) : PortalRequest → PortalSystem
  | .operate call => system.step call
  | .addUser elapsed username password createdBy note generated salt =>
    let now := system.clock + elapsed
    ⟨now, ((system.service.atTime now).addUser now username password createdBy note generated salt).2⟩

/-- The request is the login that issued the session. -/
def IssuedBy (system : PortalSystem) (session : PortalSession) : PortalRequest → Prop
  | .operate call =>
    match call.op with
    | .login username password clientIp token =>
      ((system.found call).login (system.env call) username password clientIp token).1 = .ok session
    | _ => False
  | .addUser .. => False

/-- The request changes the password of the account, or removes it. -/
def ChangesAccount (system : PortalSystem) (username : String) : PortalRequest → Prop
  | .operate call =>
    match call.op with
    | .setPassword name password generated salt =>
      name = username ∧
        ∃ user, ((system.found call).setPassword (system.env call) name password generated salt).1 = .ok user
    | .removeUser name =>
      name = username ∧ ((system.found call).removeUser (system.env call) name).1 = .ok true
    | _ => False
  | .addUser .. => False

/-- The account of a name. -/
def account (system : PortalSystem) (username : String) : Option PortalUser :=
  system.service.store.users.get? username

/-- A session the registry holds after a request was issued by it, or was there before and the request left its
account alone. -/
structure Continues (system : PortalSystem) (request : PortalRequest) (token : String) (session : PortalSession) :
    Prop where
  live : system.service.sessions.byToken.get? token = some session
  untouched : ¬system.ChangesAccount session.username request
  account : ∀ user, system.account session.username = some user →
    (system.request request).account session.username = some user

theorem Continues.of_dropsOnly {system : PortalSystem} {call : PortalCall} {token : String}
    {session : PortalSession} (h : (system.found call).DropsOnly (system.step call).service)
    (hlive : (system.step call).service.sessions.byToken.get? token = some session)
    (huntouched : ¬system.ChangesAccount session.username (.operate call)) :
    system.Continues (.operate call) token session where
  live := h.registry token session hlive
  untouched := huntouched
  account := by
    intro user huser
    show (system.step call).service.store.users.get? session.username = some user
    rw [h.store]
    exact huser

/-- Ending the sessions of a name leaves those of the other names, and the accounts of the other names are as
they were. -/
theorem Continues.of_ended {system : PortalSystem} {call : PortalCall} {token : String} {session : PortalSession}
    {username : String} {store : PortalUserStore}
    (hended : (system.step call).service =
      { system.found call with store }.endSessionsFor (system.env call) username)
    (hothers : ∀ name, name ≠ username → store.users.get? name = (system.found call).store.users.get? name)
    (hlive : (system.step call).service.sessions.byToken.get? token = some session)
    (htarget : ∀ name, system.ChangesAccount name (.operate call) → username = name) :
    system.Continues (.operate call) token session := by
  rw [hended] at hlive
  have hname := PortalService.endSessionsFor_username hlive
  have hdrops := PortalService.dropsOnly_endSessionsFor { system.found call with store } (system.env call) username
  refine ⟨hdrops.registry token session hlive, fun h => hname (htarget _ h).symm, ?_⟩
  intro user huser
  show (system.step call).service.store.users.get? session.username = some user
  rw [hended, hdrops.store]
  exact (hothers _ hname).trans huser

/-- A new account leaves the sessions and the other accounts alone. -/
theorem continues_addUser {system : PortalSystem} (hfaults : system.service.store.faults = []) {elapsed : Nat}
    {username createdBy note generated salt : String} {password : Option String} {token : String}
    {session : PortalSession} (hlive : (system.request (.addUser elapsed username password createdBy note generated
      salt)).service.sessions.byToken.get? token = some session) :
    system.Continues (.addUser elapsed username password createdBy note generated salt) token session := by
  obtain ⟨store, hadded, -, hkept⟩ := (system.service.atTime (system.clock + elapsed)).addUser_reliable hfaults
    (system.clock + elapsed) username password createdBy note generated salt
  have hservice : (system.request (.addUser elapsed username password createdBy note generated salt)).service =
      { system.service.atTime (system.clock + elapsed) with store } := hadded
  rw [hservice] at hlive
  refine ⟨hlive, fun h => h, fun user huser => ?_⟩
  show (system.request _).service.store.users.get? session.username = some user
  rw [hservice]
  exact hkept _ _ huser

/-- Only two operations change an account. -/
theorem not_changesAccount {system : PortalSystem} {call : PortalCall} {username : String}
    (hset : ∀ name password generated salt, call.op ≠ .setPassword name password generated salt)
    (hremove : ∀ name, call.op ≠ .removeUser name) : ¬system.ChangesAccount username (.operate call) := by
  unfold ChangesAccount
  dsimp only
  split
  · exact fun _ => hset _ _ _ _ (by assumption)
  · exact fun _ => hremove _ (by assumption)
  · exact id

/-- A login issues a session on an account that is there, and the others continue. -/
theorem login_cases {system : PortalSystem} {call : PortalCall} {username password fresh : String}
    {clientIp : IPv4Address} (hop : call.op = .login username password clientIp fresh) {token : String}
    {session : PortalSession}
    (hlive : (system.step call).service.sessions.byToken.get? token = some session) :
    (system.IssuedBy session (.operate call) ∧ ∃ user, system.account session.username = some user ∧
      (system.step call).account session.username = some user) ∨
    system.Continues (.operate call) token session := by
  have hstep : (system.step call).service = (system.found call).perform (system.env call) call.op := rfl
  rw [hop] at hstep
  have haccount : ∀ name, (system.step call).account name = system.account name := by
    intro name
    show (system.step call).service.store.users.get? name = _
    rw [hstep]
    exact congrArg (fun store => (PortalUserStore.users store).get? name)
      (PortalService.login_store _ _ username password clientIp fresh)
  rw [hstep] at hlive
  rcases PortalService.login_registry hlive with hold | ⟨hissued, hname, hverify⟩
  · refine .inr ⟨hold, not_changesAccount (by simp [hop]) (by simp [hop]), fun user huser => ?_⟩
    show (system.step call).account session.username = some user
    rw [haccount]
    exact huser
  · obtain ⟨user, huser⟩ := PortalUserStore.verify_account hverify
    refine .inl ⟨?_, user, hname ▸ huser, ?_⟩
    · unfold IssuedBy
      simp only [hop]
      exact hissued
    · rw [haccount, hname]
      exact huser

/-- After a new password, the account's sessions are gone and the others continue. -/
theorem continues_setPassword {system : PortalSystem} (hfaults : system.service.store.faults = [])
    {call : PortalCall} {username generated salt : String} {password : Option String}
    (hop : call.op = .setPassword username password generated salt) {token : String} {session : PortalSession}
    (hlive : (system.step call).service.sessions.byToken.get? token = some session) :
    system.Continues (.operate call) token session := by
  have hstep : (system.step call).service = (system.found call).perform (system.env call) call.op := rfl
  rw [hop] at hstep
  rcases (system.found call).setPassword_reliable hfaults (system.env call) username password generated salt with
    hrefused | ⟨user, store, hset, -, hothers⟩
  · have hstays : (system.step call).service = system.found call := hstep.trans (congrArg Prod.snd hrefused)
    refine .of_dropsOnly (hstays ▸ .refl _) hlive ?_
    simp only [ChangesAccount, hop, hrefused, reduceCtorEq, exists_false, and_false, not_false_eq_true]
  · refine .of_ended (hstep.trans (congrArg Prod.snd hset)) hothers hlive fun name hchanges => ?_
    simp only [ChangesAccount, hop] at hchanges
    exact hchanges.1

/-- So it is when the account is removed. -/
theorem continues_removeUser {system : PortalSystem} (hfaults : system.service.store.faults = [])
    {call : PortalCall} {username : String} (hop : call.op = .removeUser username) {token : String}
    {session : PortalSession} (hlive : (system.step call).service.sessions.byToken.get? token = some session) :
    system.Continues (.operate call) token session := by
  have hstep : (system.step call).service = (system.found call).perform (system.env call) call.op := rfl
  rw [hop] at hstep
  rcases (system.found call).removeUser_reliable hfaults (system.env call) username with
    hunknown | ⟨store, hremoved, -, hothers⟩
  · have hstays : (system.step call).service = system.found call := hstep.trans (congrArg Prod.snd hunknown)
    refine .of_dropsOnly (hstays ▸ .refl _) hlive ?_
    simp only [ChangesAccount, hop, hunknown, Except.ok.injEq, Bool.false_eq_true, and_false, not_false_eq_true]
  · refine .of_ended (hstep.trans (congrArg Prod.snd hremoved)) hothers hlive fun name hchanges => ?_
    simp only [ChangesAccount, hop] at hchanges
    exact hchanges.1

/-- What a request leaves in the registry: the session a login issued, on an account that is there, and sessions
that continue. -/
theorem request_cases {system : PortalSystem} (hfaults : system.service.store.faults = [])
    {request : PortalRequest} {token : String} {session : PortalSession}
    (hlive : (system.request request).service.sessions.byToken.get? token = some session) :
    (system.IssuedBy session request ∧ ∃ user, system.account session.username = some user ∧
      (system.request request).account session.username = some user) ∨
    system.Continues request token session := by
  cases request with
  | addUser elapsed username password createdBy note generated salt => exact .inr (continues_addUser hfaults hlive)
  | operate call =>
    -- what neither logs in nor changes an account only takes sessions away
    have hdrops : (system.found call).DropsOnly ((system.found call).perform (system.env call) call.op) →
        (∀ name password generated salt, call.op ≠ .setPassword name password generated salt) →
        (∀ name, call.op ≠ .removeUser name) → system.Continues (.operate call) token session :=
      fun hdrops hset hremove => .of_dropsOnly hdrops hlive (not_changesAccount hset hremove)
    cases hop : call.op with
    | login username password clientIp fresh => exact login_cases hop hlive
    | keepalive polled clientIp =>
      rw [hop] at hdrops
      exact .inr (hdrops (PortalService.dropsOnly_keepalive _ _ polled clientIp) (by simp) (by simp))
    | logout ended clientIp =>
      rw [hop] at hdrops
      exact .inr (hdrops (PortalService.dropsOnly_logout _ _ ended clientIp) (by simp) (by simp))
    | forceLogout clientIp =>
      rw [hop] at hdrops
      exact .inr (hdrops ⟨rfl, fun _ _ h => PortalSessionRegistry.invalidateIp_sub h⟩ (by simp) (by simp))
    | listSessions =>
      rw [hop] at hdrops
      exact .inr (hdrops (.of_lapses (PortalSessionRegistry.lapses_purgeExpired _ _)) (by simp) (by simp))
    | sweep =>
      rw [hop] at hdrops
      exact .inr (hdrops (PortalService.dropsOnly_sweep _ _) (by simp) (by simp))
    | setPassword username password generated salt => exact .inr (continues_setPassword hfaults hop hlive)
    | removeUser username => exact .inr (continues_removeUser hfaults hop hlive)

/-- The store stays one that writes. -/
theorem request_faults {system : PortalSystem} (hfaults : system.service.store.faults = [])
    (request : PortalRequest) : (system.request request).service.store.faults = [] := by
  cases request with
  | addUser elapsed username password createdBy note generated salt =>
    obtain ⟨store, hadded, hstore, -⟩ := (system.service.atTime (system.clock + elapsed)).addUser_reliable hfaults
      (system.clock + elapsed) username password createdBy note generated salt
    exact (congrArg (fun service => service.store.faults) hadded).trans hstore
  | operate call =>
    show ((system.found call).perform (system.env call) call.op).store.faults = []
    have hfound : (system.found call).store.faults = [] := hfaults
    have hdrops : ∀ {service : PortalService}, (system.found call).DropsOnly service →
        service.store.faults = [] := fun h => by rw [h.store]; exact hfound
    cases call.op with
    | login username password clientIp token =>
      exact (congrArg PortalUserStore.faults (PortalService.login_store _ _ _ _ _ _)).trans hfound
    | keepalive token clientIp => exact hdrops (PortalService.dropsOnly_keepalive _ _ _ _)
    | logout token clientIp => exact hdrops (PortalService.dropsOnly_logout _ _ _ _)
    | forceLogout clientIp => exact hfound
    | listSessions => exact hfound
    | sweep => exact hdrops (PortalService.dropsOnly_sweep _ _)
    | setPassword username password generated salt =>
      rcases (system.found call).setPassword_reliable hfound (system.env call) username password generated salt
        with hrefused | ⟨user, store, hset, hstore, -⟩
      · exact (congrArg (fun outcome => outcome.2.store.faults) hrefused).trans hfound
      · refine (congrArg (fun outcome => outcome.2.store.faults) hset).trans ?_
        exact (congrArg PortalUserStore.faults (PortalService.dropsOnly_endSessionsFor _ _ _).store).trans hstore
    | removeUser username =>
      rcases (system.found call).removeUser_reliable hfound (system.env call) username with
        hunknown | ⟨store, hremoved, hstore, -⟩
      · exact (congrArg (fun outcome => outcome.2.store.faults) hunknown).trans hfound
      · refine (congrArg (fun outcome => outcome.2.store.faults) hremoved).trans ?_
        exact (congrArg PortalUserStore.faults (PortalService.dropsOnly_endSessionsFor _ _ _).store).trans hstore

/-! ## Runs -/

/-- What a run knows about a session: the login that issued it, with an account that is still there, and nothing
since that changed the account's password or removed it. -/
def Current (start : PortalSystem) (requests : List PortalRequest) (session : PortalSession) : Prop :=
  ∃ before login after, requests = before ++ login :: after ∧
    (run request start before).IssuedBy session login ∧
    Along request (fun system request => ¬system.ChangesAccount session.username request)
      (run request start (before ++ [login])) after ∧
    ∃ user, (run request start before).account session.username = some user ∧
      (run request start requests).account session.username = some user

/-- One more request. -/
theorem Current.snoc {start : PortalSystem} {requests : List PortalRequest} {token : String}
    {session : PortalSession} {last : PortalRequest} (h : Current start requests session)
    (hcontinues : (run request start requests).Continues last token session) :
    Current start (requests ++ [last]) session := by
  obtain ⟨before, login, after, rfl, hissued, huntouched, user, hthen, hnow⟩ := h
  refine ⟨before, login, after ++ [last], by simp, hissued, ?_, user, hthen, ?_⟩
  · rw [Along.append_iff]
    refine ⟨huntouched, ?_, trivial⟩
    rw [← run_append, List.append_assoc, List.singleton_append]
    exact hcontinues.untouched
  · rw [run_append]
    exact hcontinues.account user hnow

/-- In every run over a store whose writes succeed, a session in the registry names an account that is there, and
that nobody changed or removed since the login that issued the session. -/
theorem sessions_have_current_accounts (config : PortalConfig) (macBound : Bool) (store : PortalUserStore)
    (hstore : store.faults = []) (casefold : String → String) (authed : AuthedSet) (env : PortalEnv)
    (requests : List PortalRequest) (token : String) (session : PortalSession)
    (hlive : (run request (start config macBound store casefold authed env) requests).service.sessions.byToken.get?
      token = some session) :
    Current (start config macBound store casefold authed env) requests session := by
  set first := start config macBound store casefold authed env with hfirst
  have hempty : first.service.sessions.byToken = Dict.empty := (start_spec _ _ _ _ _ _).2.2
  have hfaults : first.service.store.faults = [] := by
    have hdrops : ((PortalService.init config macBound store casefold authed).atTime env.now).DropsOnly
        first.service := PortalService.dropsOnly_reconcile _ env
    rw [hdrops.store]
    exact hstore
  -- the induction is on the run, from its end: the last request issued the session or left it as it was
  induction requests using List.reverseRecOn generalizing token session with
  | nil =>
    rw [run_nil, hempty] at hlive
    exact absurd hlive (by simp)
  | append_singleton requests last ih =>
    have hkept : (run request first requests).service.store.faults = [] :=
      Along.invariant (I := fun system => system.service.store.faults = []) (G := fun _ _ => True)
        (fun _ r h _ => request_faults h r)
        (Along.of_forall (fun _ _ _ => trivial) first) hfaults
    rw [run_append] at hlive
    rcases request_cases hkept hlive with ⟨hissued, user, hthen, hnow⟩ | hcontinues
    · refine ⟨requests, last, [], rfl, hissued, trivial, user, hthen, ?_⟩
      rw [run_append]
      exact hnow
    · exact (ih token session hcontinues.live).snoc hcontinues

/-- `alice` signs in on two devices, and gets a new password between the two logins. -/
def loginsAroundChange : List PortalRequest :=
  [.operate (siteCall 0 phone true (siteLogin 9 "first")),
    .operate (siteCall 60 phone true (.setPassword "alice" (some "changed") "" "")),
    .operate (siteCall 60 tablet true (.login "alice" "changed" (siteAddress 10) "second"))]

theorem sessions_have_current_accounts_change :
    ∃ session, (run request (siteStart 512 (by decide)) loginsAroundChange).service.sessions.byToken.get? "second" =
        some session ∧
      Current (siteStart 512 (by decide)) loginsAroundChange session := by
  have hlive : ((run request (siteStart 512 (by decide)) loginsAroundChange).service.sessions.byToken.get?
      "second").isSome = true := by decide +kernel
  obtain ⟨session, hsession⟩ := Option.isSome_iff_exists.mp hlive
  exact ⟨session, hsession, sessions_have_current_accounts _ _ siteStore rfl _ _ _ _ _ _ hsession⟩

end PortalSystem

end Pirewall
