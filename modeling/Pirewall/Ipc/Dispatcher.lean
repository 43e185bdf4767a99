/-
# Pirewall.Ipc.Dispatcher -- the administrator's RPC operations

`CoreRpcDispatcher` (`ipc/dispatcher.py`): one request in, one response out, over the firewall manager and
the portal service. A handler changes them in sequence and may raise between two changes; `handle` turns
whatever it raised into a response with `ok = false`, and nothing is taken back. So the state after a
request is part of a handler's value here, whether it raised or not.

The parameters of a request come decoded: a parameter that is absent or not a string is `none`, and the
model validation of an allowlist entry or an event is its outcome. Random values (a generated password, a
salt) and the clock are in `RpcEnv`, with the answers nft gives when a guard's verdict chain is read:
`NftablesSetBackend.guard_mode` reads a chain that nft does not answer for as missing. The views of
`CoreStateStore` and the offender, binding and engine snapshots are left out.
-/
import Pirewall.Lib.Text
import Pirewall.Portal.Service

namespace Pirewall

open Lib

/-! ## Requests and responses -/

/-- `GuardModes`: the mode of every static guard, as read back from the kernel. -/
structure GuardModes where
  raw : GuardMode
  input : GuardMode
  forward : GuardMode
  readAt : Time
  deriving DecidableEq

/-- The operations that read or change the manager or the portal, with their parameters. -/
inductive RpcRequest where
  | listRules
  | disableRule (ruleId : Option String)
  | removeRule (ruleId : Option String)
  | approveRule (ruleId : Option String)
  | rejectRule (ruleId : Option String)
  | listAllowlist
  | addAllowlistEntry (entry : Except String AllowlistEntry) (portalUsername : Option String)
  | removeAllowlistEntry (entryId : Option String)
  | killSwitch
  | recordEvent (event : Except String SecurityEvent)
  | portalListUsers
  | portalAddUser (username password createdBy note : Option String)
  | portalSetPassword (username password : Option String)
  | portalRemoveUser (username : Option String)
  | portalListSessions
  | portalForceLogout (clientIp : Option String)
  | getGuardModes
  | setGuardMode (guard mode actor : Option String)
  | panic (actor : Option String)

/-- `RpcOperation`'s value for a request. -/
def RpcRequest.operation : RpcRequest → String
  | .listRules => "list_rules"
  | .disableRule _ => "disable_rule"
  | .removeRule _ => "remove_rule"
  | .approveRule _ => "approve_rule"
  | .rejectRule _ => "reject_rule"
  | .listAllowlist => "list_allowlist"
  | .addAllowlistEntry _ _ => "add_allowlist_entry"
  | .removeAllowlistEntry _ => "remove_allowlist_entry"
  | .killSwitch => "kill_switch"
  | .recordEvent _ => "record_event"
  | .portalListUsers => "portal_list_users"
  | .portalAddUser _ _ _ _ => "portal_add_user"
  | .portalSetPassword _ _ => "portal_set_password"
  | .portalRemoveUser _ => "portal_remove_user"
  | .portalListSessions => "portal_list_sessions"
  | .portalForceLogout _ => "portal_force_logout"
  | .getGuardModes => "get_guard_modes"
  | .setGuardMode _ _ _ => "set_guard_mode"
  | .panic _ => "panic"

/-- What a handler raised: an `_RpcError` with its text, or another exception. -/
inductive RpcFailure where
  | missingParameter (key : String)
  | invalidChoice (key raw : String) (allowed : List String)
  | invalidClientIp (raw : String)
  | refused (text : String)
  | manager (text : String)
  | store (error : StoreError)
  deriving DecidableEq

/-- What a handler answers with. -/
inductive RpcData where
  | rules (rules : List FirewallRule)
  | rule (rule : Option FirewallRule)
  | allowlist (entries : List AllowlistEntry)
  | entry (entry : AllowlistEntry) (account : Option (String × Option String))
  | found (found : Bool)
  | event (event : SecurityEvent)
  | users (users : List PortalUser)
  | user (user : PortalUser) (generated : Option String)
  | sessions (sessions : List PortalSession)
  | guardModes (modes : GuardModes)
  | panicked (result : PanicResult)

/-- `RpcResponse`: `ok` with data, or not `ok`, with the operation and what its handler raised. -/
inductive RpcResponse where
  | ok (data : RpcData)
  | error (operation : String) (failure : RpcFailure)

def RpcResponse.isOk : RpcResponse → Bool
  | .ok _ => true
  | .error _ _ => false

/-- What one request reads from outside the dispatcher. -/
structure RpcEnv where
  now : Time
  resolveMac : IPv4Address → Option Mac
  /-- Whether nft answers when this guard's verdict chain is listed. -/
  readable : GuardName → Bool
  generated : String
  salt : String

/-- The guard modes `V2Snapshots` last published, or why they could not be read. -/
structure GuardSnapshot where
  modes : Option GuardModes
  error : Option String

/-- `publish_guard_modes`. -/
def GuardSnapshot.publish (modes : Option GuardModes) (error : Option String) : GuardSnapshot :=
  ⟨modes, if modes.isSome then none else some ((error.filter (· ≠ "")).getD "guard modes unavailable")⟩

/-- `CoreRpcDispatcher`, with the events it has emitted. -/
structure CoreRpcDispatcher where
  manager : FirewallManager
  portal : Option PortalService
  snapshots : Option GuardSnapshot
  events : List SecurityEvent

/-! ## Parameters -/

/-- `_require_str`. -/
def requireStr (key : String) : Option String → Except RpcFailure String
  | none => .error (.missingParameter key)
  | some value => .ok value

/-- `_require_enum`, for an enumeration given by its members and their values. -/
def requireEnum {α : Type} (key : String) (members : List (String × α)) (raw : Option String) :
    Except RpcFailure α := do
  let raw ← requireStr key raw
  match members.lookup raw with
  | none => .error (.invalidChoice key raw (members.map Prod.fst))
  | some member => .ok member

def guardNames : List (String × GuardName) :=
  [GuardName.raw, .input, .forward].map fun guard => (guard.value, guard)

def guardModeValues : List (String × GuardMode) :=
  [GuardMode.observe, .enforce].map fun mode => (mode.value, mode)

/-- `_require_actor`. -/
def requireActor (raw : Option String) : Except RpcFailure String := do
  let actor := strip (← requireStr "actor" raw)
  if actor = "" then .error (.missingParameter "actor") else .ok actor

/-! ## Reading the guards back -/

namespace FirewallManager

/-- The read of one guard in `guard_modes`. -/
def readGuard (sets : FakeSetBackend) (readable : GuardName → Bool) (guard : GuardName) :
    Except String GuardMode :=
  match if readable guard then sets.guardMode guard else none with
  | some mode => .ok mode
  | none => .error ("guard verdict chain for " ++ guard.value ++ " is missing (is pirewall_static loaded?)")

/-- `guard_modes`. -/
def guardModes (m : FirewallManager) (readable : GuardName → Bool) (now : Time) : Except String GuardModes :=
  match m.sets with
  | none => .error "guard modes need the v2 set backend"
  | some sets => do
      let raw ← readGuard sets readable .raw
      let input ← readGuard sets readable .input
      let forward ← readGuard sets readable .forward
      .ok ⟨raw, input, forward, now⟩

end FirewallManager

/-! ## Handlers -/

namespace CoreRpcDispatcher

/-- `CoreRpcDispatcher.__init__` with `portal.enabled` off and no snapshots. -/
def withoutPortal (manager : FirewallManager) : CoreRpcDispatcher := ⟨manager, none, none, []⟩

/-- What a handler did: its answer or what it raised, and the state it left. -/
abbrev Outcome := Except RpcFailure RpcData × CoreRpcDispatcher

/-- `_emit`. -/
def emit (d : CoreRpcDispatcher) (event : SecurityEvent) : CoreRpcDispatcher :=
  { d with events := d.events ++ [event] }

/-- A handler that needs one parameter. -/
def withParameter {α : Type} (d : CoreRpcDispatcher) (parameter : Except RpcFailure α) (handler : α → Outcome) :
    Outcome :=
  match parameter with
  | .error e => (.error e, d)
  | .ok value => handler value

/-- `_require_portal`. -/
def withPortal (d : CoreRpcDispatcher) (handler : PortalService → Outcome) : Outcome :=
  match d.portal with
  | none => (.error (.refused "the captive portal is disabled (set portal.enabled in the config)"), d)
  | some portal => handler portal

/-- What the portal service reads while it serves a request. -/
def portalEnv (d : CoreRpcDispatcher) (env : RpcEnv) : PortalEnv := ⟨env.now, env.resolveMac, d.manager, true⟩

def disableRule (d : CoreRpcDispatcher) (env : RpcEnv) (ruleId : Option String) : Outcome :=
  d.withParameter (requireStr "rule_id" ruleId) fun ruleId =>
    let (rule, manager) := d.manager.disableRule ruleId env.now
    (.ok (.rule rule), { d with manager })

def removeRule (d : CoreRpcDispatcher) (env : RpcEnv) (ruleId : Option String) : Outcome :=
  d.withParameter (requireStr "rule_id" ruleId) fun ruleId =>
    let (rule, manager) := d.manager.removeRule ruleId env.now
    (.ok (.rule rule), { d with manager })

def approveRule (d : CoreRpcDispatcher) (env : RpcEnv) (ruleId : Option String) : Outcome :=
  d.withParameter (requireStr "rule_id" ruleId) fun ruleId =>
    match d.manager.approvePending ruleId env.now with
    | (.error e, manager) => (.error (.manager e), { d with manager })
    | (.ok result, manager) => (.ok (.rule (result.bind SubmissionResult.rule)), { d with manager })

def rejectRule (d : CoreRpcDispatcher) (env : RpcEnv) (ruleId : Option String) : Outcome :=
  d.withParameter (requireStr "rule_id" ruleId) fun ruleId =>
    let (rule, manager) := d.manager.rejectPending ruleId env.now
    (.ok (.rule rule), { d with manager })

/-- The account `_add_allowlist_entry` is asked for: a string that is not blank, stripped. -/
def requestedAccount (portalUsername : Option String) : Option String :=
  (portalUsername.map strip).filter (· ≠ "")

/-- The note of an account that came with an allowlist entry. -/
def provisionNote (entry : AllowlistEntry) : String :=
  "provisioned with allowlist entry " ++ IPv4Address.str entry.target.networkAddress ++ "/"
    ++ toString entry.target.prefixlen

/-- The portal half of `_add_allowlist_entry`. -/
def provision (d : CoreRpcDispatcher) (env : RpcEnv) (entry : AllowlistEntry) (portalUsername : Option String) :
    Outcome :=
  match requestedAccount portalUsername with
  | none => (.ok (.entry entry none), d)
  | some username =>
    match d.portal with
    | none => (.error (.refused "cannot provision a portal user: the captive portal is disabled"), d)
    | some portal =>
      match portal.addUser env.now username none entry.createdBy (provisionNote entry) env.generated
          env.salt with
      | (.error e, portal) => (.error (.store e), { d with portal := some portal })
      | (.ok (_, generated), portal) =>
        (.ok (.entry entry (some (username, generated))), { d with portal := some portal })

/-- `_add_allowlist_entry`: the entry first, then the account that may come with it. -/
def addAllowlistEntry (d : CoreRpcDispatcher) (env : RpcEnv) (entry : Except String AllowlistEntry)
    (portalUsername : Option String) : Outcome :=
  match entry with
  | .error e => (.error (.refused ("invalid allowlist entry: " ++ e)), d)
  | .ok entry =>
    match d.manager.addAllowlistEntry entry env.now with
    | (.error e, manager) => (.error (.manager e), { d with manager })
    | (.ok (), manager) => { d with manager }.provision env entry portalUsername

def removeAllowlistEntry (d : CoreRpcDispatcher) (env : RpcEnv) (entryId : Option String) : Outcome :=
  d.withParameter (requireStr "entry_id" entryId) fun entryId =>
    match d.manager.removeAllowlistEntry entryId env.now with
    | (.error e, manager) => (.error (.manager e), { d with manager })
    | (.ok found, manager) => (.ok (.found found), { d with manager })

/-- `_kill_switch`. -/
def killSwitch (d : CoreRpcDispatcher) (env : RpcEnv) : Outcome :=
  let (event, manager) := d.manager.revertToBase env.now
  (.ok (.event event), { d with manager }.emit event)

def recordEvent (d : CoreRpcDispatcher) (event : Except String SecurityEvent) : Outcome :=
  match event with
  | .error e => (.error (.refused ("invalid security event: " ++ e)), d)
  | .ok event => (.ok (.event event), d.emit event)

def portalAddUser (d : CoreRpcDispatcher) (env : RpcEnv) (username password createdBy note : Option String) :
    Outcome :=
  d.withPortal fun portal =>
    d.withParameter (requireStr "username" username) fun username =>
      d.withParameter (requireStr "created_by" createdBy) fun createdBy =>
        match portal.addUser env.now username password createdBy (note.getD "") env.generated env.salt with
        | (.error e, portal) => (.error (.store e), { d with portal := some portal })
        | (.ok (user, generated), portal) => (.ok (.user user generated), { d with portal := some portal })

def portalSetPassword (d : CoreRpcDispatcher) (env : RpcEnv) (username password : Option String) : Outcome :=
  d.withPortal fun portal =>
    d.withParameter (requireStr "username" username) fun username =>
      match portal.setPassword (d.portalEnv env) username password env.generated env.salt with
      | (.error e, portal) => (.error (.store e), { d with portal := some portal })
      | (.ok user, portal) =>
        (.ok (.user user (if (password.filter (· ≠ "")).isNone then some env.generated else none)),
         { d with portal := some portal })

def portalRemoveUser (d : CoreRpcDispatcher) (env : RpcEnv) (username : Option String) : Outcome :=
  d.withPortal fun portal =>
    d.withParameter (requireStr "username" username) fun username =>
      match portal.removeUser (d.portalEnv env) username with
      | (.error e, portal) => (.error (.store e), { d with portal := some portal })
      | (.ok removed, portal) => (.ok (.found removed), { d with portal := some portal })

def portalListSessions (d : CoreRpcDispatcher) (env : RpcEnv) : Outcome :=
  d.withPortal fun portal =>
    let (sessions, portal) := portal.listSessions (d.portalEnv env)
    (.ok (.sessions sessions), { d with portal := some portal })

def portalForceLogout (d : CoreRpcDispatcher) (clientIp : Option String) : Outcome :=
  d.withParameter (requireStr "client_ip" clientIp) fun raw =>
    match IPv4Address.ofString? raw with
    | none => (.error (.invalidClientIp raw), d)
    | some clientIp => d.withPortal fun portal =>
      let (found, portal) := portal.forceLogout clientIp
      (.ok (.found found), { d with portal := some portal })

def getGuardModes (d : CoreRpcDispatcher) : Outcome :=
  match d.snapshots with
  | none => (.error (.refused "v2 status is not available in this pirewall-core"), d)
  | some snapshot =>
    match snapshot.modes with
    | none => (.error (.refused ("guard modes unavailable: " ++ snapshot.error.getD "None")), d)
    | some modes => (.ok (.guardModes modes), d)

/-- `_set_guard_mode`: the write, the read-back, then the audit event. -/
def setGuardMode (d : CoreRpcDispatcher) (env : RpcEnv) (guard mode actor : Option String) : Outcome :=
  d.withParameter (requireEnum "guard" guardNames guard) fun guard =>
    d.withParameter (requireEnum "mode" guardModeValues mode) fun mode =>
      d.withParameter (requireActor actor) fun actor =>
        match d.manager.setGuardMode guard mode actor env.now with
        | (.error e, manager) => (.error (.refused ("set_guard_mode failed: " ++ e)), { d with manager })
        | (.ok event, manager) =>
          match manager.guardModes env.readable env.now with
          | .error e => (.error (.refused ("set_guard_mode failed: " ++ e)), { d with manager })
          | .ok modes =>
            (.ok (.guardModes modes),
             { { d with manager }.emit event with
               snapshots := d.snapshots.map fun _ => .publish (some modes) none })

/-- `_panic`. -/
def panic (d : CoreRpcDispatcher) (env : RpcEnv) (actor : Option String) : Outcome :=
  d.withParameter (requireActor actor) fun actor =>
    match d.manager.panic actor env.now with
    | (.error e, manager) => (.error (.refused ("panic failed: " ++ e)), { d with manager })
    | (.ok (result, event), manager) =>
      (.ok (.panicked result),
       { { d with manager }.emit event with
         snapshots := d.snapshots.map fun _ =>
           .publish none (some ("pirewall_static was deleted by panic (" ++ actor ++ ")")) })

/-- `_dispatch`. -/
def dispatch (d : CoreRpcDispatcher) (env : RpcEnv) : RpcRequest → Outcome
  | .listRules => (.ok (.rules d.manager.rules.values), d)
  | .disableRule ruleId => d.disableRule env ruleId
  | .removeRule ruleId => d.removeRule env ruleId
  | .approveRule ruleId => d.approveRule env ruleId
  | .rejectRule ruleId => d.rejectRule env ruleId
  | .listAllowlist => (.ok (.allowlist d.manager.allowlist), d)
  | .addAllowlistEntry entry portalUsername => d.addAllowlistEntry env entry portalUsername
  | .removeAllowlistEntry entryId => d.removeAllowlistEntry env entryId
  | .killSwitch => d.killSwitch env
  | .recordEvent event => d.recordEvent event
  | .portalListUsers => d.withPortal fun portal => (.ok (.users portal.store.listUsers), d)
  | .portalAddUser username password createdBy note => d.portalAddUser env username password createdBy note
  | .portalSetPassword username password => d.portalSetPassword env username password
  | .portalRemoveUser username => d.portalRemoveUser env username
  | .portalListSessions => d.portalListSessions env
  | .portalForceLogout clientIp => d.portalForceLogout clientIp
  | .getGuardModes => d.getGuardModes
  | .setGuardMode guard mode actor => d.setGuardMode env guard mode actor
  | .panic actor => d.panic env actor

/-- `handle`: whatever a handler raised is an error response, and its changes stay. -/
def handle (d : CoreRpcDispatcher) (env : RpcEnv) (request : RpcRequest) : RpcResponse × CoreRpcDispatcher :=
  match d.dispatch env request with
  | (.error failure, d) => (.error request.operation failure, d)
  | (.ok data, d) => (.ok data, d)

/-- The dispatcher after one request. -/
def step (d : CoreRpcDispatcher) (call : RpcEnv × RpcRequest) : CoreRpcDispatcher := (d.handle call.1 call.2).2

end CoreRpcDispatcher

end Pirewall
