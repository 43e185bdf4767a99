/-
# Pirewall.Runtime.Pipeline -- one completed flow, from its features to a submitted rule

`FlowPipeline` wires the layers together: the coordinator collects the evidence about a flow, the engine scores it
and decides, the generator makes a candidate of a decision that acts, and the manager validates and enforces it. What
any of them raises costs the flow and is reported.

A flow goes through in one piece, or in two: while scoring is batched, `process` collects all evidence but the anomaly
score and hands the flow over, and `finish` goes on from there when the score has come in. `process` here ends where the
two part (`Processed`).

The extractor, the LightGBM booster and the behavior analyzer are parameters; of the Isolation Forest its
`decision_function` is. Random ids are drawn from `uuid`.
-/
import Pirewall.Engine.Decision
import Pirewall.Firewall.Manager
import Pirewall.Flow.Packet

namespace Pirewall.Engine

open Lib

/-! ## Evidence about a flow -/

/-- A flow with its random id. -/
structure FlowRecord extends Flow where
  flowId : String

/-- `FeatureVector`. -/
structure FeatureVector (Values : Type) where
  flowId : String
  values : Values

/-- `AnomalyEvidence`, with the fields that the engine does not read. -/
structure ScoredAnomaly extends AnomalyEvidence where
  flowId : String
  threshold : ℚ
  modelVersion : String
  featureSchemaVersion : String
  generatedAt : Time

/-- `DetectionRecord`. -/
structure DetectionRecord where
  flowId : String
  known : Option KnownEvidence
  anomaly : Option ScoredAnomaly
  protocolSignature : Option ProtocolSignatureEvidence
  recordedAt : Time

/-- `DetectionOutcome`. -/
structure DetectionOutcome where
  record : DetectionRecord
  behavior : Option BehaviorAssessment

/-- `with_anomaly_evidence`. -/
def withAnomalyEvidence (outcome : DetectionOutcome) (anomaly : Option ScoredAnomaly) : DetectionOutcome :=
  { outcome with record := { outcome.record with anomaly := anomaly } }

/-- The evidence of an outcome, as the engine takes it. -/
def DetectionOutcome.evidence (outcome : DetectionOutcome) : ThreatEvidence where
  known := outcome.record.known
  anomaly := outcome.record.anomaly.map ScoredAnomaly.toAnomalyEvidence
  behavior := outcome.behavior
  protocolSignature := outcome.record.protocolSignature

/-! ## The Isolation Forest -/

/-- `LoadedIsolationForestModel`: the check of a vector against the model's schema, the scores of some rows, one for
each, and the metadata that its callers read. -/
structure IsolationForest (Values : Type) where
  validates : Values → Bool
  decisionFunction : List Values → List ℚ
  length_decisionFunction : ∀ rows, (decisionFunction rows).length = rows.length
  modelVersion : String
  featureSchemaVersion : String
  operatingThreshold : Option ℚ

namespace IsolationForest

variable {Values : Type} (model : IsolationForest Values)

/-- Each row is scored for itself, whatever the others are. -/
def RowWise : Prop := ∀ rows, model.decisionFunction rows = rows.flatMap fun row => model.decisionFunction [row]

/-- `anomaly_score`; `none` for what `validate_feature_vector` raises. -/
def anomalyScore (vector : FeatureVector Values) : Option ℚ :=
  if model.validates vector.values then (model.decisionFunction [vector.values]).head? else none

/-- `anomaly_score_batch`. -/
def anomalyScoreBatch (vectors : List (FeatureVector Values)) : Option (List ℚ) :=
  if vectors.all fun vector => model.validates vector.values then
    some (model.decisionFunction (vectors.map FeatureVector.values))
  else none

/-- The evidence that a score is, for the threshold it is held against. -/
def verdict (vector : FeatureVector Values) (threshold : ℚ) (generatedAt : Time) (score : ℚ) : ScoredAnomaly where
  anomalyScore := score
  isAnomaly := score < threshold
  flowId := vector.flowId
  threshold := threshold
  modelVersion := model.modelVersion
  featureSchemaVersion := model.featureSchemaVersion
  generatedAt := generatedAt

/-- `detect`. -/
def detect (vector : FeatureVector Values) (threshold : ℚ) (generatedAt : Time) : Option ScoredAnomaly :=
  (model.anomalyScore vector).map (model.verdict vector threshold generatedAt)

/-- `detect_batch`. -/
def detectBatch (vectors : List (FeatureVector Values)) (threshold : ℚ) (generatedAt : Time) :
    Option (List ScoredAnomaly) :=
  (model.anomalyScoreBatch vectors).map fun scores =>
    vectors.zipWith (fun vector score => model.verdict vector threshold generatedAt score) scores

/-- What a batch finds out about its vectors, each would have found out alone. -/
theorem detectBatch_eq (h : model.RowWise) {vectors : List (FeatureVector Values)} {threshold : ℚ} {generatedAt : Time}
    {verdicts : List ScoredAnomaly} (hverdicts : model.detectBatch vectors threshold generatedAt = some verdicts) :
    vectors.map (fun vector => model.detect vector threshold generatedAt) = verdicts.map some := by
  obtain ⟨scores, hscores, rfl⟩ := Option.map_eq_some_iff.mp hverdicts
  unfold anomalyScoreBatch at hscores
  split_ifs at hscores with hvalid
  obtain rfl := Option.some.inj hscores
  clear hscores hverdicts
  rw [h]
  induction vectors with
  | nil => rfl
  | cons vector vectors ih =>
    rw [List.all_cons, Bool.and_eq_true] at hvalid
    obtain ⟨score, hscore⟩ := List.length_eq_one_iff.mp (model.length_decisionFunction [vector.values])
    have hdetect : model.detect vector threshold generatedAt =
        some (model.verdict vector threshold generatedAt score) := by
      rw [detect, anomalyScore, if_pos hvalid.1, hscore]
      rfl
    rw [List.map_cons, hdetect, ih hvalid.2, List.map_cons, List.flatMap_cons, hscore]
    rfl

end IsolationForest

/-! ## The pipeline -/

/-- What `DetectionCoordinator` asks for its evidence, and the extractor. The analyzer goes from state to state. -/
structure Detectors (Values Analyzer : Type) where
  extractFeatures : Flow → Except String Values
  lightgbm : Option (Values → Option KnownEvidence)
  isolationForest : Option (IsolationForest Values)
  anomalyScoreThreshold : ℚ
  observeNewConnection : Analyzer → NewFlowSignal → Analyzer
  noteSlowConnections : Analyzer → SlowConnectionCluster → Time → Analyzer
  observeCompletion : Analyzer → Flow → Analyzer
  assess : Analyzer → IPv4Address → Option BehaviorAssessment
  assessAt : Analyzer → IPv4Address → DateTime → Option BehaviorAssessment × Analyzer

/-- What a pipeline is built from. -/
structure PipelineSettings (Values Analyzer : Type) where
  detectors : Detectors Values Analyzer
  threat : ThreatConfig
  defaultRuleTtlSeconds : Nat
  quoted : String → String
  uuid : Nat → String
  /-- There is an `anomaly_scorer`. -/
  batched : Bool

/-- What is emitted about a flow. -/
inductive PipelineEvent where
  | threatDetected (flow : FlowRecord) (assessment : ThreatAssessment) (action : FirewallAction)
  | submission (event : SecurityEvent)
  | modelError (flowId : String) (failures : Nat)
  | flowError (flow : FlowRecord) (reason : String)

/-- `RuntimeCounters`, those that the pipeline adds to. -/
structure PipelineCounters where
  inferences : Nat
  detections : Nat
  blocks : Nat
  rulesRejected : Nat

/-- The state the pipeline works on. Of the histories it is told what goes into them, oldest first. -/
structure FlowPipeline (Analyzer : Type) where
  analyzer : Analyzer
  tracker : EvidenceMaturityTracker
  manager : FirewallManager
  drawn : Nat
  flows : List FlowRecord
  records : List DetectionRecord
  threats : List ThreatAssessment
  decisions : List EngineDecision
  lightgbmFailures : Nat
  isolationForestFailures : Nat
  counters : PipelineCounters
  emitted : List PipelineEvent

/-- `PendingAnomalyScoring`. -/
structure PendingAnomalyScoring (Values : Type) where
  flow : FlowRecord
  now : Time
  features : FeatureVector Values
  outcome : DetectionOutcome

/-- How far `process` gets: it fails, hands the flow over to be scored, or has all the evidence. -/
inductive Processed (Values : Type) where
  | failed
  | pending (scoring : PendingAnomalyScoring Values)
  | complete (outcome : DetectionOutcome)

/-- `in_model_domain`. -/
def inModelDomain (flow : Flow) : Bool := flow.protocol == .tcp || flow.protocol == .udp

/-- Whether the `count`-th of many failures is one to report: the first, and from then on each multiple of the
interval. -/
def reportable (interval count : Nat) : Bool := count == 1 || count % interval == 0

/-- `_INFERENCE_FAILURE_EVENT_INTERVAL`. -/
def inferenceFailureEventInterval : Nat := 100

/-- `_target_mac`: the device bound to the source, or the sender of a frame that was not from it. -/
def targetMac (flow : Flow) (resolveMac : IPv4Address → Option Mac) : Option Mac :=
  (resolveMac flow.sourceIp).map fun bound =>
    match flow.sourceMac.bind Mac.ofString? with
    | none => bound
    | some observed => if observed ≠ bound then observed else bound

/-- `generate_candidate_rule`, with the new id of the candidate. -/
def generateCandidateRule (decision : EngineDecision) (flow : Flow) (id : String) (createdAt : Time)
    (defaultTtlSeconds : Nat) (resolveMac : IPv4Address → Option Mac) : Option CandidateRule :=
  if decision.action = .allow then none
  else some
    { action := decision.action
      direction := .inbound
      source := .host flow.sourceIp
      destination := .host flow.destinationIp
      protocol := flow.protocol
      sourcePort := none
      destinationPort := flow.destinationPort
      reason := decision.reason
      threatScore := some decision.threatScore
      evidence := decision.evidence
      metadata := .empty
      target := some ⟨flow.sourceIp, targetMac flow resolveMac⟩
      target_is_source := fun _ h => by rw [← Option.some.inj h]
      id := id
      decisionId := decision.id
      createdAt := createdAt
      expiresAt := some (createdAt + seconds defaultTtlSeconds) }

/-- `_DEFAULT_KNOWN_ATTACK_CONFIDENCE`, the bar `decide` holds a classification to when its caller names none. -/
def defaultKnownAttackConfidence : ℚ := 4 / 5

namespace FlowPipeline

variable {Values Analyzer : Type} (settings : PipelineSettings Values Analyzer) (p : FlowPipeline Analyzer)

/-- A pipeline at startup. -/
def init (analyzer : Analyzer) (manager : FirewallManager) : FlowPipeline Analyzer where
  analyzer := analyzer
  tracker := .fromConfig settings.threat
  manager := manager
  drawn := 0
  flows := []
  records := []
  threats := []
  decisions := []
  lightgbmFailures := 0
  isolationForestFailures := 0
  counters := ⟨0, 0, 0, 0⟩
  emitted := []

def emit (event : PipelineEvent) : FlowPipeline Analyzer := { p with emitted := p.emitted ++ [event] }

/-- `_report_failure`. -/
def reportFailure (flow : FlowRecord) (reason : String) : FlowPipeline Analyzer := p.emit (.flowError flow reason)

/-- `_report_inference_failure`, from the number of failures there have been. -/
def reportInferenceFailure (flowId : String) (failures : Nat) : FlowPipeline Analyzer :=
  if reportable inferenceFailureEventInterval failures then p.emit (.modelError flowId failures) else p

/-- `_classify_known`. -/
def classifyKnown (features : FeatureVector Values) : Option KnownEvidence × FlowPipeline Analyzer :=
  match settings.detectors.lightgbm with
  | none => (none, p)
  | some classify =>
    match classify features.values with
    | some known => (some known, p)
    | none =>
      (none, { p with lightgbmFailures := p.lightgbmFailures + 1 }.reportInferenceFailure features.flowId
        (p.lightgbmFailures + 1))

/-- `_detect_anomaly`: the model's own threshold counts, if it has one. -/
def detectAnomaly (features : FeatureVector Values) (now : Time) : Option ScoredAnomaly × FlowPipeline Analyzer :=
  match settings.detectors.isolationForest with
  | none => (none, p)
  | some model =>
    match model.detect features (model.operatingThreshold.getD settings.detectors.anomalyScoreThreshold) now with
    | some anomaly => (some anomaly, p)
    | none =>
      (none, { p with isolationForestFailures := p.isolationForestFailures + 1 }.reportInferenceFailure
        features.flowId (p.isolationForestFailures + 1))

/-- `analyze_except_anomaly`: the analyzer takes the flow's completion in before it assesses the source. -/
def analyzeExceptAnomaly (flow : FlowRecord) (features : FeatureVector Values) (now : Time)
    (signature : Option ProtocolSignatureEvidence) : DetectionOutcome × FlowPipeline Analyzer :=
  let observed := { p with analyzer := settings.detectors.observeCompletion p.analyzer flow.toFlow }
  let classified :=
    if inModelDomain flow.toFlow then observed.classifyKnown settings features else (none, observed)
  (⟨⟨flow.flowId, classified.1, none, signature, now⟩, settings.detectors.assess classified.2.analyzer flow.sourceIp⟩,
    classified.2)

/-- `analyze`. -/
def analyze (flow : FlowRecord) (features : FeatureVector Values) (now : Time)
    (signature : Option ProtocolSignatureEvidence) : DetectionOutcome × FlowPipeline Analyzer :=
  let analyzed := p.analyzeExceptAnomaly settings flow features now signature
  let detected :=
    if inModelDomain flow.toFlow then analyzed.2.detectAnomaly settings features now else (none, analyzed.2)
  (withAnomalyEvidence analyzed.1 detected.1, detected.2)

/-- One more inference, if it ran. -/
def inferred (ran : Bool) : FlowPipeline Analyzer :=
  { p with counters := { p.counters with inferences := p.counters.inferences + if ran then 1 else 0 } }

/-- `_process` up to where it hands the flow over or goes on with `_finish`. -/
def process (flow : FlowRecord) (now : Time) (signature : Option ProtocolSignatureEvidence) :
    Processed Values × FlowPipeline Analyzer :=
  let p := { p with flows := p.flows ++ [flow] }
  match settings.detectors.extractFeatures flow.toFlow with
  | .error e => (.failed, p.reportFailure flow e)
  | .ok values =>
    let features : FeatureVector Values := ⟨flow.flowId, values⟩
    if settings.batched && settings.detectors.isolationForest.isSome && inModelDomain flow.toFlow then
      let analyzed := p.analyzeExceptAnomaly settings flow features now signature
      (.pending ⟨flow, now, features, analyzed.1⟩, analyzed.2.inferred settings.detectors.lightgbm.isSome)
    else
      let analyzed := p.analyze settings flow features now signature
      (.complete analyzed.1,
        analyzed.2.inferred (settings.detectors.lightgbm.isSome || settings.detectors.isolationForest.isSome))

/-- The part of `_finish` that hands a candidate to the manager. -/
def submit (decision : EngineDecision) (env : Env) (candidate : CandidateRule) :
    Except String Unit × FlowPipeline Analyzer :=
  let submitted := (p.manager.registerDecision decision.toFirewallDecision).submitCandidate env candidate
  let p := { p with manager := submitted.2 }
  match submitted.1 with
  | .error e => (.error e, p)
  | .ok result =>
    let counters :=
      if result.rule.isNone then { p.counters with rulesRejected := p.counters.rulesRejected + 1 }
      else if decision.action = .block then { p.counters with blocks := p.counters.blocks + 1 }
      else p.counters
    (.ok (), { p with counters := counters }.emit (.submission result.event))

/-- The part of `_finish` from a decision on: it is recorded, and made a candidate of if it acts. -/
def enact (flow : FlowRecord) (outcome : DetectionOutcome) (assessment : ThreatAssessment) (decision : EngineDecision)
    (now : Time) (env : Env) : Except String Unit × FlowPipeline Analyzer :=
  let p := { p with
    records := p.records ++ [outcome.record]
    threats := p.threats ++ [assessment]
    decisions := p.decisions ++ [decision]
    counters := { p.counters with detections := p.counters.detections + 1 } }
  let p := if assessment.threatLevel = .low then p else p.emit (.threatDetected flow assessment decision.action)
  match generateCandidateRule decision flow.toFlow (settings.uuid (p.drawn + 2)) now settings.defaultRuleTtlSeconds
      env.resolveMac with
  | none => (.ok (), { p with drawn := p.drawn + 2 })
  | some candidate => { p with drawn := p.drawn + 3 }.submit decision env candidate

/-- `_finish`: the assessment, the decision and what follows from it. -/
def finishOrRaise (flow : FlowRecord) (now : Time) (env : Env) (outcome : DetectionOutcome) :
    Except String Unit × FlowPipeline Analyzer :=
  let subject : AssessmentSubject := ⟨settings.uuid p.drawn, flow.flowId, flow.sourceIp, flow.destinationIp, now⟩
  match assessThreat settings.quoted settings.threat subject outcome.evidence with
  | .error _ => (.error "ValueError", p)
  | .ok assessment =>
    let decided := assessment.decide (settings.uuid (p.drawn + 1)) now (some p.tracker)
      defaultKnownAttackConfidence
    let p := { p with tracker := decided.2.getD p.tracker }
    p.enact settings flow outcome assessment decided.1 now env

/-- `finish`. -/
def finish (flow : FlowRecord) (now : Time) (env : Env) (outcome : DetectionOutcome) : FlowPipeline Analyzer :=
  match p.finishOrRaise settings flow now env outcome with
  | (.ok (), p) => p
  | (.error e, p) => p.reportFailure flow e

/-- `process_snapshot`: a flow that is still open stands for its source, and only its behavior counts. -/
def processSnapshot (flow : FlowRecord) (now : Time) (env : Env) : FlowPipeline Analyzer :=
  let (behavior, analyzer) := settings.detectors.assessAt p.analyzer flow.sourceIp flow.lastSeen
  { p with flows := p.flows ++ [flow], analyzer := analyzer }.finish settings flow now env
    ⟨⟨flow.flowId, none, none, none, now⟩, behavior⟩

end FlowPipeline

end Pirewall.Engine
