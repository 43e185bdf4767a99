/-
# Pirewall.Portal.Service -- the core half of the captive portal

`PortalService` (`ipc/portal_service.py`) with what it drives: the user store (`portal/store.py`), the
session registry, the login throttle, and the kernel's `authed` set behind
`FirewallManager.authorize_portal_client` and `NftablesBackend`. An element of `authed` is a client's
address with its MAC, and the time it lapses; the kernel drops it then (`lapse`). Adding an element that
is present leaves its timeout as it was, as `firewall/sets.py` states for nft.

A call reads its surroundings from a `PortalEnv`: the clock, the binding table, the firewall manager the
block check asks, and whether the kernel takes an authorization. Deauthorizations succeed. The random
values (session tokens, salts, generated passwords) are arguments. Emitted events are left out: nothing
here reads them.
-/
import Pirewall.Core.Throttle
import Pirewall.Firewall.Manager
import Pirewall.Portal.Sessions

namespace Pirewall

open Lib

/-! ## Accounts -/

structure PortalUser where
  username : String
  passwordHash : String
  createdAt : Time
  createdBy : String
  note : String
  isDemo : Bool
  deriving DecidableEq

/-- The characters of a username. -/
def isUsernameChar (c : Char) : Bool := c.isAlphanum || c == '.' || c == '_' || c == '-'

/-- The field checks of the `PortalUser` model. -/
def PortalUser.isValid (user : PortalUser) : Bool :=
  decide (1 ≤ user.username.length) && decide (user.username.length ≤ 64)
    && user.username.toList.all isUsernameChar && user.passwordHash != "" && user.createdBy != ""
    && decide (user.note.length ≤ 200)

/-- `ConfigurationError`, as the store raises it, and the `ValidationError` of the account model. -/
inductive StoreError where
  | alreadyExists (username : String)
  | doesNotExist (username : String)
  | invalidUser
  | notWritten
  deriving DecidableEq

/-- `DEMO_USERNAME_PREFIX`: the name every seeded demo account has. -/
def demoUsernamePrefix : String := "demo-"

/-- `hash_password` and `verify_password`; the salt of a hash is random. -/
structure Passwords where
  hash (salt password : String) : String
  verify (password storedHash : String) : Bool

/-- `PortalUserStore`: the accounts in memory and on disk, with scripted write failures. -/
structure PortalUserStore where
  passwords : Passwords
  users : Dict String PortalUser
  file : List PortalUser
  faults : List Bool

namespace PortalUserStore

/-- `list_users`: username-sorted. -/
def listUsers (store : PortalUserStore) : List PortalUser :=
  store.users.values.insertionSort fun x y => x.username ≤ y.username

/-- `_persist`: the whole file is replaced, or it stays as it was. -/
def persist (store : PortalUserStore) : Except StoreError Unit × PortalUserStore :=
  let failed := store.faults.head? = some true
  let store := { store with faults := store.faults.tail }
  if failed then (.error .notWritten, store)
  else (.ok (), { store with file := store.listUsers })

/-- `verify`. -/
def verify (store : PortalUserStore) (username password : String) : Bool :=
  match store.users.get? username with
  | none => false
  | some user => store.passwords.verify password user.passwordHash

/-- The accounts `remove_demo_accounts` deletes, sorted. -/
def doomed (store : PortalUserStore) : List String :=
  ((store.users.entries.filter fun e =>
    e.2.isDemo || demoUsernamePrefix.toList.isPrefixOf e.1.toList).map Prod.fst).insertionSort (· ≤ ·)

/-- `remove_demo_accounts`: every demo account in one write. -/
def removeDemoAccounts (store : PortalUserStore) : Except StoreError (List String) × PortalUserStore :=
  if store.doomed = [] then (.ok [], store)
  else
    match persist { store with users := store.doomed.foldl (fun users name => users.erase name) store.users } with
    | (.error e, after) => (.error e, after)
    | (.ok (), after) => (.ok store.doomed, after)

/-- The account `add` builds. -/
def newUser (store : PortalUserStore) (username password salt : String) (createdAt : Time)
    (createdBy note : String) (isDemo : Bool) : PortalUser where
  username := username
  passwordHash := store.passwords.hash salt password
  createdAt := createdAt
  createdBy := createdBy
  note := note
  isDemo := isDemo

/-- `add`. -/
def add (store : PortalUserStore) (username password salt : String) (createdAt : Time)
    (createdBy note : String) (isDemo : Bool) : Except StoreError PortalUser × PortalUserStore :=
  if store.users.contains username then (.error (.alreadyExists username), store)
  else
    let user := store.newUser username password salt createdAt createdBy note isDemo
    if user.isValid then
      match persist { store with users := store.users.set username user } with
      | (.error e, store) => (.error e, store)
      | (.ok (), store) => (.ok user, store)
    else (.error .invalidUser, store)

/-- `set_password`: rotating a demo account's password takes it out of demo status. -/
def setPassword (store : PortalUserStore) (username password salt : String) :
    Except StoreError PortalUser × PortalUserStore :=
  match store.users.get? username with
  | none => (.error (.doesNotExist username), store)
  | some user =>
    let updated := { user with passwordHash := store.passwords.hash salt password, isDemo := false }
    match persist { store with users := store.users.set username updated } with
    | (.error e, store) => (.error e, store)
    | (.ok (), store) => (.ok updated, store)

/-- `remove`. -/
def remove (store : PortalUserStore) (username : String) : Except StoreError Bool × PortalUserStore :=
  if store.users.contains username then
    match persist { store with users := store.users.erase username } with
    | (.error e, store) => (.error e, store)
    | (.ok (), store) => (.ok true, store)
  else (.ok false, store)

end PortalUserStore

/-! ## The kernel's grants -/

/-- An element of `authed`: an address and, on the MAC-bound portal, its MAC. -/
abbrev PortalGrant := IPv4Address × Option Mac

/-- The `authed` set: each element with the time it lapses. -/
abbrev AuthedSet := Dict PortalGrant Time

/-- The element a session's login grants. -/
def PortalSession.grant (session : PortalSession) : PortalGrant := (session.clientIp, session.clientMac)

namespace AuthedSet

/-- The kernel drops what has timed out. -/
def lapse (authed : AuthedSet) (now : Time) : AuthedSet := authed.filter fun _ expiry => decide (now < expiry)

/-- `NftablesBackend.authorize_portal_client`: one `add element`. A present element keeps its timeout. -/
def addElement (authed : AuthedSet) (grant : PortalGrant) (expiry : Time) : AuthedSet :=
  if authed.contains grant then authed else authed.set grant expiry

/-- `FirewallManager.deauthorize_portal_client`: the named pair, or without a MAC every pair of the
address. Deleting an absent element is not an error. -/
def deauthorize (authed : AuthedSet) (clientIp : IPv4Address) (clientMac : Option Mac) : AuthedSet :=
  match clientMac with
  | some mac => authed.erase (clientIp, some mac)
  | none =>
    let grants := authed.keys.filter fun grant => grant.1 == clientIp
    (if grants.isEmpty then [(clientIp, none)] else grants).foldl (fun authed grant => authed.erase grant) authed

end AuthedSet

/-! ## State -/

structure PortalConfig where
  sessionTimeoutSeconds : Nat
  maxFailedLoginsPerIp : Nat
  failedLoginWindowSeconds : Nat
  maxFailedLoginsPerAccount : Nat
  maxFailedLoginsGlobal : Nat
  maxSessions : Nat
  contactMessage : String
  sessionTimeout_pos : 0 < sessionTimeoutSeconds
  maxSessions_pos : 0 < maxSessions

/-- `PortalService`, with the kernel set its grants live in. -/
structure PortalService where
  config : PortalConfig
  /-- Whether a binding table was passed in (`bindings is not None`). -/
  macBound : Bool
  store : PortalUserStore
  sessions : PortalSessionRegistry
  throttle : LoginThrottle
  authed : AuthedSet

/-- What one call reads from outside the service. -/
structure PortalEnv where
  now : Time
  /-- `BindingTable.resolve_mac`, which the manager's `mac_resolver` is too. -/
  resolveMac : IPv4Address → Option Mac
  manager : FirewallManager
  /-- Whether the kernel takes an authorization, or refuses it with `FirewallError`. -/
  accepts : Bool

/-- `PortalLoginError`: a login that failed for a reason the client may be told. -/
inductive PortalLoginError where
  | throttled (wait : Int)
  | blocked
  | noBinding
  | invalidCredentials
  | notGranted
  deriving DecidableEq

def blockedMessage : String :=
  "Malicious activity has been detected from this device and its network access has been suspended."

/-- The text of the exception. -/
def PortalLoginError.message (config : PortalConfig) : PortalLoginError → String
  | .throttled wait => "Too many failed attempts. Try again in " ++ toString wait ++ " seconds."
  | .blocked => blockedMessage ++ " " ++ config.contactMessage
  | .noBinding =>
    "This device does not have an address lease from this network yet. " ++
      "Disconnect from the Wi-Fi, reconnect, and try again."
  | .invalidCredentials => "Invalid username or password."
  | .notGranted => "Could not grant network access. Please try again."

inductive PortalClientStatus where
  | unauthenticated | authenticated | expired | blocked
  deriving DecidableEq, Repr

/-- The answer to one keepalive poll. -/
structure PortalClientState where
  status : PortalClientStatus
  username : Option String := none
  clientIp : IPv4Address
  secondsRemaining : Int := 0
  expiresAt : Option Time := none
  message : String := ""
  deriving DecidableEq

namespace PortalService

/-- `PortalService.__init__`, over whatever the kernel holds. -/
def init (config : PortalConfig) (macBound : Bool) (store : PortalUserStore) (casefold : String → String)
    (authed : AuthedSet) : PortalService where
  config := config
  macBound := macBound
  store := store
  sessions := .init config.sessionTimeoutSeconds config.maxSessions
  throttle := .init casefold config.maxFailedLoginsPerIp config.failedLoginWindowSeconds
    config.maxFailedLoginsPerAccount config.maxFailedLoginsGlobal
  authed := authed

/-! ## Helpers -/

/-- Whether an active BLOCK rule cuts the client off. -/
def isBlocked (env : PortalEnv) (clientIp : IPv4Address) : Bool :=
  !(env.manager.blockingRulesMatching env.resolveMac clientIp).isEmpty

/-- `_bound_mac`. -/
def boundMac (s : PortalService) (env : PortalEnv) (clientIp : IPv4Address) : Option Mac :=
  if s.macBound then env.resolveMac clientIp else none

/-- `_same_device`: whether the address is still bound to the MAC the session was issued to. -/
def sameDevice (s : PortalService) (env : PortalEnv) (session : PortalSession) (clientIp : IPv4Address) : Bool :=
  if !s.macBound || session.clientMac.isNone then true else env.resolveMac clientIp == session.clientMac

/-- `_deauthorize`. -/
def deauthorize (s : PortalService) (clientIp : IPv4Address) (clientMac : Option Mac) : PortalService :=
  { s with authed := s.authed.deauthorize clientIp clientMac }

/-- `_revoke`. -/
def revoke (s : PortalService) (clientIp : IPv4Address) : PortalService :=
  let (session, sessions) := s.sessions.invalidateIp clientIp
  { s with sessions }.deauthorize clientIp (session.bind PortalSession.clientMac)

/-- End one session and its grant. -/
def endSession (s : PortalService) (session : PortalSession) : PortalService :=
  { s with sessions := (s.sessions.invalidate session.token).2 }.deauthorize session.clientIp session.clientMac

/-- `_end_sessions_for`. -/
def endSessionsFor (s : PortalService) (env : PortalEnv) (username : String) : PortalService :=
  let (sessions, registry) := s.sessions.listSessions env.now
  (sessions.filter fun session => session.username == username).foldl endSession { s with sessions := registry }

/-! ## Client operations -/

/-- Whether the grant goes through: the manager refuses an address off the protected network, the kernel
may refuse any. -/
def grantAccepted (env : PortalEnv) (clientIp : IPv4Address) : Bool :=
  env.manager.config.network.protectedNetwork.contains clientIp && env.accepts

/-- The part of `login` after the credential check: the session, then the grant; without the grant the
session is taken back. -/
def signIn (s : PortalService) (env : PortalEnv) (username : String) (clientIp : IPv4Address)
    (clientMac : Option Mac) (token : String) : Except PortalLoginError PortalSession × PortalService :=
  let (session, sessions) := s.sessions.create username clientIp token env.now clientMac
  if grantAccepted env clientIp then
    (.ok session,
     { s with
       sessions
       throttle := s.throttle.clear clientIp (some username)
       authed := s.authed.addElement (clientIp, clientMac) (env.now + seconds s.config.sessionTimeoutSeconds) })
  else (.error .notGranted, { s with sessions := (sessions.invalidate token).2 })

/-- `login`. -/
def login (s : PortalService) (env : PortalEnv) (username password : String) (clientIp : IPv4Address)
    (token : String) : Except PortalLoginError PortalSession × PortalService :=
  let (lockout, throttle) := s.throttle.lockout clientIp (some username) env.now
  let s := { s with throttle }
  match lockout with
  | some lockout => (.error (.throttled lockout.retryAfterSeconds), s)
  | none =>
    if isBlocked env clientIp then (.error .blocked, s)
    else if s.macBound && (s.boundMac env clientIp).isNone then (.error .noBinding, s)
    else if !s.store.verify username password then
      (.error .invalidCredentials,
       { s with throttle := (s.throttle.recordFailure clientIp env.now (some username)).2 })
    else s.signIn env username clientIp (s.boundMac env clientIp) token

/-- What a keepalive answers for a live session of this device. -/
def authenticated (env : PortalEnv) (clientIp : IPv4Address) (session : PortalSession) : PortalClientState where
  status := .authenticated
  username := some session.username
  clientIp := clientIp
  secondsRemaining := max 0 (wholeSeconds (session.expiresAt - env.now))
  expiresAt := some session.expiresAt

/-- `keepalive`. -/
def keepalive (s : PortalService) (env : PortalEnv) (token : Option String) (clientIp : IPv4Address) :
    PortalClientState × PortalService :=
  if isBlocked env clientIp then
    ({ status := .blocked, clientIp, message := blockedMessage ++ " " ++ s.config.contactMessage },
     s.revoke clientIp)
  else
    -- an empty token is no token (`if token`)
    match token.filter (· ≠ "") with
    | none => ({ status := .unauthenticated, clientIp }, s)
    | some token =>
      let (session, sessions) := s.sessions.validate token clientIp env.now
      let s := { s with sessions }
      match session with
      | none => ({ status := .expired, clientIp }, s.revoke clientIp)
      | some session =>
        if s.sameDevice env session clientIp then (authenticated env clientIp session, s)
        else ({ status := .expired, clientIp }, s.revoke clientIp)

/-- `logout`: `false` if the token was not theirs. -/
def logout (s : PortalService) (env : PortalEnv) (token : String) (clientIp : IPv4Address) :
    Bool × PortalService :=
  let (session, sessions) := s.sessions.validate token clientIp env.now
  let s := { s with sessions }
  match session with
  | none => (false, s)
  | some session =>
    if s.sameDevice env session clientIp then
      (true, { s with sessions := (s.sessions.invalidate token).2 }.deauthorize clientIp session.clientMac)
    else (false, s.revoke clientIp)

/-! ## Admin operations -/

/-- `add_user`: the account, and the password when it was generated. -/
def addUser (s : PortalService) (now : Time) (username : String) (password : Option String)
    (createdBy note generated salt : String) :
    Except StoreError (PortalUser × Option String) × PortalService :=
  let given := password.filter (· ≠ "")
  match s.store.add username (given.getD generated) salt now createdBy note false with
  | (.error e, store) => (.error e, { s with store })
  | (.ok user, store) => (.ok (user, if given.isNone then some generated else none), { s with store })

/-- `set_password`: the password given, or the generated one. Ends the user's live sessions. -/
def setPassword (s : PortalService) (env : PortalEnv) (username : String) (password : Option String)
    (generated salt : String) : Except StoreError PortalUser × PortalService :=
  let chosen := (password.filter (· ≠ "")).getD generated
  match s.store.setPassword username chosen salt with
  | (.error e, store) => (.error e, { s with store })
  | (.ok user, store) => (.ok user, { s with store }.endSessionsFor env username)

/-- `remove_user`. -/
def removeUser (s : PortalService) (env : PortalEnv) (username : String) :
    Except StoreError Bool × PortalService :=
  match s.store.remove username with
  | (.error e, store) => (.error e, { s with store })
  | (.ok false, store) => (.ok false, { s with store })
  | (.ok true, store) => (.ok true, { s with store }.endSessionsFor env username)

/-- `list_sessions`. -/
def listSessions (s : PortalService) (env : PortalEnv) : List PortalSession × PortalService :=
  let (sessions, registry) := s.sessions.listSessions env.now
  (sessions, { s with sessions := registry })

/-- `force_logout`: every grant of the address goes with the session. -/
def forceLogout (s : PortalService) (clientIp : IPv4Address) : Bool × PortalService :=
  let (session, sessions) := s.sessions.invalidateIp clientIp
  (session.isSome, { s with sessions }.deauthorize clientIp none)

/-! ## The sweep -/

/-- One grant of the scan of `reconcile` (`_grant_has_session`). -/
def scanGrant (now : Time) (state : List PortalGrant × PortalSessionRegistry) (grant : PortalGrant) :
    List PortalGrant × PortalSessionRegistry :=
  let (session, sessions) := state.2.getByIp grant.1 now
  (if session.any fun session => session.clientMac == grant.2 then state.1 else state.1 ++ [grant], sessions)

/-- The order orphans are revoked in: by address, then by MAC. -/
def grantLe (x y : PortalGrant) : Bool :=
  if x.1 = y.1 then decide ((x.2.map Mac.text).getD "" ≤ (y.2.map Mac.text).getD "")
  else decide (x.1.toNat ≤ y.1.toNat)

/-- `reconcile`: drop the kernel grants with no live session behind them. -/
def reconcile (s : PortalService) (env : PortalEnv) : Nat × PortalService :=
  let (orphans, sessions) := s.authed.keys.foldl (scanGrant env.now) ([], s.sessions)
  let revoked := (orphans.insertionSort fun x y => grantLe x y = true).foldl
    (fun s grant => s.deauthorize grant.1 grant.2) { s with sessions }
  (orphans.length, revoked)

/-- `sweep`: retire lapsed sessions and reconcile the kernel set. -/
def sweep (s : PortalService) (env : PortalEnv) : Nat × PortalService :=
  let (expired, sessions) := s.sessions.purgeExpired env.now
  let s := expired.foldl (fun s session => s.deauthorize session.clientIp session.clientMac) { s with sessions }
  let (orphans, s) := s.reconcile env
  (expired.length + orphans, s)

end PortalService

/-! ## Runs -/

/-- The operations of the service. -/
inductive PortalOp where
  | login (username password : String) (clientIp : IPv4Address) (token : String)
  | keepalive (token : Option String) (clientIp : IPv4Address)
  | logout (token : String) (clientIp : IPv4Address)
  | forceLogout (clientIp : IPv4Address)
  | setPassword (username : String) (password : Option String) (generated salt : String)
  | removeUser (username : String)
  | listSessions
  | sweep

/-- One call of a run: the time since the one before it (a run's clock never steps back), what it finds
around it, and the operation. -/
structure PortalCall where
  elapsed : Nat
  resolveMac : IPv4Address → Option Mac
  manager : FirewallManager
  accepts : Bool
  op : PortalOp

namespace PortalService

/-- The kernel at the time of a call: what has timed out is gone. -/
def atTime (s : PortalService) (now : Time) : PortalService := { s with authed := s.authed.lapse now }

/-- The state an operation leaves. -/
def perform (s : PortalService) (env : PortalEnv) : PortalOp → PortalService
  | .login username password clientIp token => (s.login env username password clientIp token).2
  | .keepalive token clientIp => (s.keepalive env token clientIp).2
  | .logout token clientIp => (s.logout env token clientIp).2
  | .forceLogout clientIp => (s.forceLogout clientIp).2
  | .setPassword username password generated salt => (s.setPassword env username password generated salt).2
  | .removeUser username => (s.removeUser env username).2
  | .listSessions => (s.listSessions env).2
  | .sweep => (s.sweep env).2

end PortalService

/-- The service and the clock it shares with the kernel. -/
structure PortalSystem where
  clock : Time
  service : PortalService

namespace PortalSystem

/-- What a call reads, at the time it is made. -/
def env (system : PortalSystem) (call : PortalCall) : PortalEnv :=
  ⟨system.clock + call.elapsed, call.resolveMac, call.manager, call.accepts⟩

/-- The service as a call finds it. -/
def found (system : PortalSystem) (call : PortalCall) : PortalService :=
  system.service.atTime (system.env call).now

/-- One call of a run. -/
def step (system : PortalSystem) (call : PortalCall) : PortalSystem :=
  ⟨(system.env call).now, (system.found call).perform (system.env call) call.op⟩

/-- The system as the daemon starts it: a new registry, and the grants of a previous run revoked. -/
def start (config : PortalConfig) (macBound : Bool) (store : PortalUserStore) (casefold : String → String)
    (authed : AuthedSet) (env : PortalEnv) : PortalSystem :=
  ⟨env.now, (((PortalService.init config macBound store casefold authed).atTime env.now).reconcile env).2⟩

end PortalSystem

end Pirewall
