/-
# Pirewall.Runtime.PipelineV2 -- evidence into the policy engine, decisions into the manager

`runtime/pipeline_v2.py`. The detection thread touches devices as it observes them; `evaluate` runs the
detectors for every touched device that is off its cooldown, then for the touched destinations, then LAN-wide,
and hands each device's bundle to the policy engine. A decision is submitted to the firewall manager and
counted as a strike when the manager made a rule of it and the bundle held D1 evidence.

An evaluation in progress (`Evaluation`) carries the passes it has made, one for each bundle it took to the
engine, and the exception it was left by, if any. What the models say of a flow, the connection-start tracker
and the gauges are outside; random ids are drawn from `uuid`, and `words` is the text of a reason.
-/
import Pirewall.Detection.D1
import Pirewall.Detection.Kernel
import Pirewall.Firewall.Lifecycle
import Pirewall.Policy.Noninterference

namespace Pirewall

open Lib

/-! ## State -/

/-- What other threads hand to the detection thread. -/
inductive InboxItem where
  | kernelPoll (result : KernelPollResult) (bindings : List Binding) (atTime : Time)
  | portalFailure (account : String) (mac : Option Mac) (atTime : Time)

/-- What the pipeline emits, without its wording. -/
inductive Emitted where
  | decision (id : String) (decision : PolicyDecision)
  | submission (event : SecurityEvent)
  | aggregate (item : D1Evidence)
  | untargetable (mac : Mac) (ids : List String)
  | setFill (alert : FillAlert)

structure V2Pipeline where
  config : PirewallConfig
  d1 : D1State
  engine : PolicyEngine
  manager : FirewallManager
  /-- The binding table's MAC to address lookup. -/
  resolveIp : Mac → Option IPv4Address
  /-- The `n`-th random id drawn. -/
  uuid : Nat → String
  drawn : Nat
  words : Reason → String
  inbox : List InboxItem
  inboxDropped : Nat
  /-- Sets. -/
  touchedMacs : Dict Mac Unit
  touchedDestinations : Dict IPv4Address Unit
  evaluatedAt : Dict Mac Rat
  kernel : Dict Mac (List KernelGuardEvidence)
  ml : Dict Mac (List ClassifierEvidence)
  anomalies : Dict Mac (List AnomalyEvidence)
  aggregateSeen : Dict String Unit
  /-- When the LAN-wide detectors last ran; none stands for `-inf`. -/
  lastGlobal : Option Rat
  emitted : List Emitted

def inboxMax : Nat := 4096

/-- `_ML_MEMORY`. -/
def mlMemory : Int := seconds 60

def aggregateSeenMax : Nat := 4096

/-- `DISPLAY_SCORE_BY_ACTION`. -/
def displayScoreByAction : FirewallAction → Rat
  | .allow => 0
  | .monitor => 40
  | .rateLimit => 70
  | .block => 100

namespace V2Pipeline

variable (s : V2Pipeline)

def init (config : PirewallConfig) (d1 : D1State) (table : PolicyTable) (manager : FirewallManager)
    (resolveIp : Mac → Option IPv4Address) (uuid : Nat → String) (words : Reason → String) : V2Pipeline where
  config := config
  d1 := d1
  engine := .init table config.policy
  manager := manager
  resolveIp := resolveIp
  uuid := uuid
  drawn := 0
  words := words
  inbox := []
  inboxDropped := 0
  touchedMacs := Dict.empty
  touchedDestinations := Dict.empty
  evaluatedAt := Dict.empty
  kernel := Dict.empty
  ml := Dict.empty
  anomalies := Dict.empty
  aggregateSeen := Dict.empty
  lastGlobal := none
  emitted := []

def touch (mac : Mac) : V2Pipeline := { s with touchedMacs := s.touchedMacs.set mac () }

def emit (event : Emitted) : V2Pipeline := { s with emitted := s.emitted ++ [event] }

/-! ## Inputs -/

/-- A connection start, from a signal or from a completed record: the device and the destination are touched. -/
def observeStart (start : ConnectionStart) : V2Pipeline :=
  { s.touch start.mac with
    d1 := s.d1.observe start
    touchedDestinations := s.touchedDestinations.set start.destinationIp () }

/-- `observe_signal`: a creation-time signal, if it is a TCP connection of a device. -/
def observeSignal (sourceMac : Option String) (sourceIp destinationIp : IPv4Address)
    (destinationPort : Option Nat) (protocol : Protocol) (moment : Time) : V2Pipeline :=
  match startFromSignal sourceMac sourceIp destinationIp destinationPort protocol moment with
  | none => s
  | some start => s.observeStart start

/-- `observe_slow_cluster`. -/
def observeSlowCluster (mac : Mac) (sourceIp destinationIp : IPv4Address) (count : Nat) (now : Time) :
    V2Pipeline :=
  { s.touch mac with d1 := s.d1.observeSlowCluster mac sourceIp destinationIp count now }

/-- `_put`. -/
def put (item : InboxItem) : V2Pipeline :=
  if inboxMax ≤ s.inbox.length then { s with inboxDropped := s.inboxDropped + 1 }
  else { s with inbox := s.inbox ++ [item] }

/-- The evidence of a poll, filed under its MACs. -/
def byMac (evidence : List KernelGuardEvidence) : Dict Mac (List KernelGuardEvidence) :=
  evidence.foldl (fun current item => current.set item.mac ((current.get? item.mac).getD [] ++ [item])) Dict.empty

/-- `_apply_kernel_poll`: an offender that expired simply stops contributing. -/
def applyKernelPoll (result : KernelPollResult) (bindings : List Binding) (atTime : Time) : V2Pipeline :=
  let current := byMac result.evidence
  { s with
    d1 := s.d1.observeBindings bindings atTime
    kernel := current
    touchedMacs := current.keys.foldl (fun touched mac => touched.set mac ()) s.touchedMacs
    emitted := s.emitted ++ result.alerts.map Emitted.setFill }

/-- One item of `drain_inbox`. -/
def takeItem : InboxItem → V2Pipeline
  | .kernelPoll result bindings atTime => s.applyKernelPoll result bindings atTime
  | .portalFailure account mac atTime =>
    let s := { s with d1 := s.d1.observePortalFailure account mac atTime }
    match mac with
    | none => s
    | some mac => s.touch mac

/-- `drain_inbox`. -/
def drainInbox : V2Pipeline := s.inbox.foldl takeItem { s with inbox := [] }

/-! ## Submitting -/

/-- `_is_protected`. -/
def isProtected (target : RuleTarget) : Bool :=
  [s.config.network.pirewallLanIp, s.config.network.upstreamGateway, s.config.admin.adminPcIp].contains target.ip
    || (target.mac != none && target.mac == s.config.admin.adminPcMac)
    || s.manager.allowlist.any fun entry => entry.protects target

/-- `_approval_pending`: a BLOCK of the device waits in the approval queue. -/
def approvalPending (target : RuleTarget) : Bool :=
  s.manager.rules.values.any fun rule =>
    rule.status == .pendingApproval && rule.action == .block &&
      rule.target.any fun held =>
        match target.mac with
        | some mac => held.mac == some mac
        | none => held.ip == target.ip

/-- The candidate a decision becomes. -/
def candidateOf (decision : PolicyDecision) (now : Time) : CandidateRule where
  action := decision.action
  direction := .inbound
  source := .host decision.target.ip
  destination := .wholeInternet
  protocol := .any
  sourcePort := none
  destinationPort := none
  reason := "; ".intercalate (decision.reasons.map s.words)
  threatScore := some (displayScoreByAction decision.action)
  evidence := decision.evidenceIds
  metadata := (Dict.empty.set "engine" "v2").set "policy_decision_id" (s.uuid s.drawn)
  target := some decision.target
  target_is_source := fun _ h => by rw [Option.some.inj h]
  id := s.uuid (s.drawn + 1)
  decisionId := s.uuid s.drawn
  createdAt := now
  expiresAt := some (now + seconds (decision.ttlSeconds.getD s.config.policy.rateLimitTtlSeconds))

/-- `_submit`: a rule the manager made counts, whatever became of it. -/
def submit (env : Env) (hadD1 : Bool) (decision : PolicyDecision) : Except String Unit × V2Pipeline :=
  let submitted := (s.manager.registerDecision ⟨s.uuid s.drawn⟩).submitCandidate env
    (s.candidateOf decision env.now)
  let s := { s.emit (.decision (s.uuid s.drawn) decision) with
    manager := submitted.2
    drawn := s.drawn + 2 }
  match submitted.1 with
  | .error e => (.error e, s)
  | .ok result =>
    let s := if result.rule.isNone then s else { s with engine := s.engine.recordEnforced decision hadD1 }
    (.ok (), s.emit (.submission result.event))

/-- The loop of `_decide_for` over a bundle's decisions: one BLOCK of a device waits for approval at a time. -/
def submitAll (env : Env) (hadD1 : Bool) : List PolicyDecision → V2Pipeline → Except String Unit × V2Pipeline
  | [], s => (.ok (), s)
  | decision :: rest, s =>
    if decision.requiresApproval && s.approvalPending decision.target then submitAll env hadD1 rest s
    else
      match s.submit env hadD1 decision with
      | (.error e, s) => (.error e, s)
      | (.ok (), s) => submitAll env hadD1 rest s

/-! ## One device -/

/-- `_recent_ml`. -/
def recentMl (mac : Mac) (now : Time) : List ClassifierEvidence × V2Pipeline :=
  match s.ml.get? mac with
  | none => ([], s)
  | some recent =>
    let kept := recent.dropWhile fun item => decide (item.generatedAt < now - mlMemory)
    (kept, { s with ml := s.ml.set mac kept })

/-- `_recent_anomalies`. -/
def recentAnomalies (mac : Mac) (now : Time) : List AnomalyEvidence × V2Pipeline :=
  match s.anomalies.get? mac with
  | none => ([], s)
  | some recent =>
    let kept := recent.dropWhile fun item => decide (item.generatedAt < now - mlMemory)
    (kept, { s with anomalies := s.anomalies.set mac kept })

/-- What is known of a device right now, and the tables once it was read. -/
def gather (mac : Mac) (now : Time) (extra : List D1Evidence) : List Evidence × V2Pipeline :=
  let (found, d1) := s.d1.evaluateDevice mac now
  let (ml, s) := { s with d1 }.recentMl mac now
  let (anomalies, s) := s.recentAnomalies mac now
  (((s.kernel.get? mac).getD []).map Evidence.kernel ++ (found ++ extra).map Evidence.d1
    ++ (ml.map Evidence.classifier ++ anomalies.map Evidence.anomaly), s)

/-- The device as a rule can name it, when an address of it is known. -/
def targetOf (mac : Mac) : Option RuleTarget :=
  ((s.resolveIp mac).or (s.d1.lastIp mac)).map fun ip => ⟨ip, some mac⟩

/-- `_report_untargetable`. The v1 anomaly model has no `id`, so it is not named. -/
def reportUntargetable (mac : Mac) (items : List Evidence) : V2Pipeline :=
  let ids := items.filterMap fun item =>
    match item with
    | .anomaly _ => none
    | item => some item.id
  let key := "untargetable:" ++ ",".intercalate (ids.insertionSort fun a b => a ≤ b)
  if s.aggregateSeen.contains key then s
  else { s.emit (.untargetable mac ids) with aggregateSeen := s.aggregateSeen.set key () }

/-- `_report_aggregate`, one item. -/
def reportAggregate (item : D1Evidence) : V2Pipeline :=
  if s.aggregateSeen.contains item.id then s
  else
    { s.emit (.aggregate item) with
      aggregateSeen := (s.aggregateSeen.set item.id ()).keepLast aggregateSeenMax }

end V2Pipeline

/-! ## Evaluations -/

/-- One bundle taken to the engine. -/
structure Pass where
  mac : Mac
  bundle : EvidenceBundle
  /-- What the engine remembers of the device when the bundle comes. -/
  history : History
  /-- What the engine classifies it on: evidence new to the device. -/
  classified : List Evidence
  decisions : List PolicyDecision
  /-- The strikes of the device once the decisions were submitted. -/
  strikes : Nat

/-- `had_d1`. -/
def EvidenceBundle.hasD1 (bundle : EvidenceBundle) : Bool := bundle.evidence.any fun item => item.d1?.isSome

/-- A call of `evaluate` in progress. -/
structure Evaluation where
  pipeline : V2Pipeline
  passes : List Pass
  /-- The exception that ended the call. -/
  raised : Option String

namespace Evaluation

/-- The engine call a bundle makes. -/
def policyCall (s : V2Pipeline) (bundle : EvidenceBundle) (now : Time) : PolicyCall :=
  .decide s.isProtected bundle s.manager.enforcementMode now

/-- The bundle is decided on and its decisions are submitted. -/
def decideOn (c : Evaluation) (env : Env) (mac : Mac) (bundle : EvidenceBundle) : Evaluation :=
  let s := c.pipeline
  let decided := s.engine.decide s.isProtected bundle s.manager.enforcementMode env.now
  let submitted := V2Pipeline.submitAll env bundle.hasD1 decided.1 { s with engine := decided.2 }
  { pipeline := submitted.2
    passes := c.passes ++
      [⟨mac, bundle, s.engine.recalled (historyKey bundle.target),
        s.engine.classified (policyCall s bundle env.now), decided.1,
        submitted.2.engine.strikes (historyKey bundle.target)⟩]
    raised :=
      match submitted.1 with
      | .error e => some e
      | .ok () => none }

/-- `_decide_for`. -/
def decideFor (c : Evaluation) (env : Env) (mac : Mac) (extra : List D1Evidence) : Evaluation :=
  if c.raised.isSome then c
  else
    let (items, s) := c.pipeline.gather mac env.now extra
    if items.isEmpty then { c with pipeline := s }
    else
      match s.targetOf mac with
      | none => { c with pipeline := s.reportUntargetable mac items }
      | some target => { c with pipeline := s }.decideOn env mac ⟨target, items⟩

/-- The device was evaluated less than the cooldown ago. -/
def onCooldown (c : Evaluation) (monotonic : Rat) (mac : Mac) : Bool :=
  (c.pipeline.evaluatedAt.get? mac).any fun last =>
    decide (monotonic - last < c.pipeline.d1.config.evaluationCooldownSeconds)

/-- The device is being evaluated now. -/
def markEvaluated (c : Evaluation) (monotonic : Rat) (mac : Mac) : Evaluation :=
  { c with pipeline := { c.pipeline with
      evaluatedAt := ((c.pipeline.evaluatedAt.set mac monotonic).moveToEnd mac).keepLast
        c.pipeline.d1.config.maxTrackedMacs } }

/-- One touched device: skipped by the cooldown it stays touched. -/
def evaluateMac (env : Env) (monotonic : Rat) (c : Evaluation) (mac : Mac) : Evaluation :=
  if c.raised.isSome then c
  else if c.onCooldown monotonic mac then { c with pipeline := c.pipeline.touch mac }
  else (c.markEvaluated monotonic mac).decideFor env mac []

/-- One touched destination: fan-in names no device, so it is only reported. -/
def evaluateDestination (now : Time) (c : Evaluation) (destination : IPv4Address) : Evaluation :=
  let (found, d1) := c.pipeline.d1.evaluateDestination destination now
  { c with pipeline := found.foldl V2Pipeline.reportAggregate { c.pipeline with d1 } }

/-- The LAN-wide evidence that names a device, by device. -/
def byDevice (items : List D1Evidence) : Dict Mac (List D1Evidence) :=
  items.foldl
    (fun filed item =>
      match item.mac with
      | none => filed
      | some mac => filed.set mac ((filed.get? mac).getD [] ++ [item]))
    Dict.empty

/-- `sorted(by_device.items())`. -/
def named (items : List D1Evidence) : List (Mac × List D1Evidence) :=
  (byDevice items).entries.insertionSort fun a b => a.1.text ≤ b.1.text

/-- One device the LAN-wide detectors name. -/
def evaluateNamed (env : Env) (c : Evaluation) (entry : Mac × List D1Evidence) : Evaluation :=
  c.decideFor env entry.1 entry.2

end Evaluation

namespace V2Pipeline

variable (s : V2Pipeline)

/-- The LAN-wide detectors run once in each kernel poll interval. -/
def globalDue (monotonic : Rat) : Bool :=
  s.lastGlobal.all fun last => decide (s.d1.config.kernelPollIntervalSeconds ≤ monotonic - last)

/-- The call of `evaluate` before its first pass. -/
def start : Evaluation := ⟨s, [], none⟩

/-- `sorted(pending)`. -/
def pending : List Mac := s.touchedMacs.keys.insertionSort fun a b => a.text ≤ b.text

/-- The touched devices, one after the other. -/
def evaluateTouched (env : Env) (monotonic : Rat) : Evaluation :=
  run (Evaluation.evaluateMac env monotonic) { s with touchedMacs := Dict.empty }.start s.pending

/-- Then the touched destinations. -/
def evaluateLocal (env : Env) (monotonic : Rat) : Evaluation :=
  let c := s.evaluateTouched env monotonic
  if c.raised.isSome then c
  else
    run (Evaluation.evaluateDestination env.now)
      { c with pipeline := { c.pipeline with touchedDestinations := Dict.empty } }
      (c.pipeline.touchedDestinations.keys.insertionSort fun a b => a.toNat ≤ b.toNat)

/-- `evaluate`: then, when they are due, the LAN-wide detectors, one bundle for each device they name. -/
def evaluate (env : Env) (monotonic : Rat) : Evaluation :=
  let c := s.evaluateLocal env monotonic
  if c.raised.isSome || !c.pipeline.globalDue monotonic then c
  else
    let found := c.pipeline.d1.evaluateGlobal env.now
    let c := run (Evaluation.evaluateNamed env)
      { c with pipeline := { c.pipeline with lastGlobal := some monotonic } } (Evaluation.named found)
    if c.raised.isSome then c
    else
      { c with pipeline :=
          (found.filter fun item => item.mac.isNone).foldl V2Pipeline.reportAggregate c.pipeline }

end V2Pipeline

end Pirewall
