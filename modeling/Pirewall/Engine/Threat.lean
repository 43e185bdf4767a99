/-
# Pirewall.Engine.Threat -- scoring the evidence about a flow

`engine/scoring.py` and `engine/threat.py`: known-attack, anomaly, behavioral and protocol-signature
evidence, each up to its weight, summed into one score and read as a level. While
`ml_evidence_can_enforce` is false an assessment also carries the level the deterministic evidence reaches
alone.

Scores are exact rationals. `quoted` stands for the `repr` of a class label, the one text of an explanation
that is not spelled out here.
-/
import Pirewall.Core.Models
import Pirewall.Flow.Packet
import Pirewall.Lib.Calendar
import Pirewall.Lib.Text

namespace Pirewall.Engine

open Lib

/-! ## Evidence -/

/-- `ThreatLevel`. -/
inductive ThreatLevel where
  | low | medium | high | critical
  deriving DecidableEq, Repr

/-- `BehaviorPatternType`. -/
inductive BehaviorPatternType where
  | repeatedConnections | highFrequency | burst | persistence | destinationDiversity | repeatedFailures
  | temporalPattern | scanning | slowRateDos | flood
  deriving DecidableEq, Repr

def BehaviorPatternType.value : BehaviorPatternType → String
  | .repeatedConnections => "repeated_connections"
  | .highFrequency => "high_frequency"
  | .burst => "burst"
  | .persistence => "persistence"
  | .destinationDiversity => "destination_diversity"
  | .repeatedFailures => "repeated_failures"
  | .temporalPattern => "temporal_pattern"
  | .scanning => "scanning"
  | .slowRateDos => "slow_rate_dos"
  | .flood => "flood"

/-- A classification by LightGBM. -/
structure KnownEvidence where
  predictedClass : String
  confidence : ℚ
  confidence_range : 0 ≤ confidence ∧ confidence ≤ 1

/-- A verdict of the Isolation Forest. -/
structure AnomalyEvidence where
  anomalyScore : ℚ
  isAnomaly : Bool

/-- A structural TLS match. -/
structure ProtocolSignatureEvidence where
  signature : String
  confidence : ℚ
  detail : String
  confidence_range : 0 ≤ confidence ∧ confidence ≤ 1

/-- The behavioral findings for a source. -/
structure BehaviorAssessment where
  detectedPatterns : List BehaviorPatternType
  confidence : ℚ
  confidence_range : 0 ≤ confidence ∧ confidence ≤ 1

/-- The evidence about one flow. -/
structure ThreatEvidence where
  known : Option KnownEvidence
  anomaly : Option AnomalyEvidence
  behavior : Option BehaviorAssessment
  protocolSignature : Option ProtocolSignatureEvidence

/-- The same evidence without what the models produced. -/
def ThreatEvidence.withoutMl (evidence : ThreatEvidence) : ThreatEvidence :=
  { evidence with known := none, anomaly := none }

/-- `is_attack_label`: not one of `_BENIGN_LABELS`. -/
def isAttackLabel (label : String) : Bool := !(["benign", "normal"].contains (strip label).toLower)

/-! ## Configuration -/

/-- `ThreatConfig`, with what its model validates. -/
structure ThreatConfig where
  lowThreshold : ℚ
  mediumThreshold : ℚ
  highThreshold : ℚ
  criticalThreshold : ℚ
  knownAttackWeight : ℚ
  anomalyWeight : ℚ
  behaviorWeight : ℚ
  /-- A pattern the deployment's table leaves out has no points, and looking them up raises. -/
  behaviorPatternPoints : BehaviorPatternType → Option ℚ
  protocolSignatureWeight : ℚ
  evidenceMaturityConsistencyWindows : Nat
  maxTrackedMaturitySources : Nat
  mlEvidenceCanEnforce : Bool
  low_nonneg : 0 ≤ lowThreshold
  critical_le : criticalThreshold ≤ 100
  /-- `_check_ascending`. -/
  ascending : lowThreshold < mediumThreshold ∧ mediumThreshold < highThreshold ∧
    highThreshold < criticalThreshold
  weights_range : ∀ weight ∈ [knownAttackWeight, anomalyWeight, behaviorWeight, protocolSignatureWeight],
    0 ≤ weight ∧ weight ≤ 100
  windows_pos : 0 < evidenceMaturityConsistencyWindows
  maxTracked_pos : 0 < maxTrackedMaturitySources

/-- `behavior_pattern_points` as it ships. -/
def defaultPatternPoints : BehaviorPatternType → ℚ
  | .scanning => 55
  | .repeatedFailures => 45
  | .slowRateDos => 45
  | .flood => 80
  | .burst => 10
  | .highFrequency => 10
  | .repeatedConnections => 5
  | .temporalPattern => 10
  | .destinationDiversity => 5
  | .persistence => 0

/-- The `[threat]` section as it ships. -/
def defaultThreatConfig : ThreatConfig where
  lowThreshold := 25
  mediumThreshold := 50
  highThreshold := 75
  criticalThreshold := 90
  knownAttackWeight := 60
  anomalyWeight := 15
  behaviorWeight := 80
  behaviorPatternPoints pattern := some (defaultPatternPoints pattern)
  protocolSignatureWeight := 75
  evidenceMaturityConsistencyWindows := 3
  maxTrackedMaturitySources := 10000
  mlEvidenceCanEnforce := false
  low_nonneg := by norm_num
  critical_le := by norm_num
  ascending := by norm_num
  weights_range := by
    intro weight hweight
    fin_cases hweight <;> norm_num
  windows_pos := by decide
  maxTracked_pos := by decide

/-! ## Scoring -/

/-- What an assessment can raise: an unknown pattern, or a score below zero. -/
inductive AssessmentError where
  | keyError (pattern : BehaviorPatternType)
  | invalidScore
  deriving DecidableEq

/-- `ScoreBreakdown`. -/
structure ScoreBreakdown where
  total : ℚ
  knownAttackContribution : ℚ
  anomalyContribution : ℚ
  behaviorContribution : ℚ
  protocolSignatureContribution : ℚ

/-- `non_ml_total`: the score from the deterministic evidence alone. -/
def ScoreBreakdown.nonMlTotal (breakdown : ScoreBreakdown) : ℚ :=
  min 100 (breakdown.behaviorContribution + breakdown.protocolSignatureContribution)

/-- The known-attack part of `score_evidence`: a benign classification contributes nothing. -/
def knownContribution (config : ThreatConfig) : Option KnownEvidence → ℚ
  | none => 0
  | some known =>
    if isAttackLabel known.predictedClass then config.knownAttackWeight * known.confidence else 0

def anomalyContribution (config : ThreatConfig) : Option AnomalyEvidence → ℚ
  | none => 0
  | some anomaly => if anomaly.isAnomaly then config.anomalyWeight else 0

/-- `config.behavior_pattern_points[pattern]`. -/
def patternPoints (config : ThreatConfig) (pattern : BehaviorPatternType) : Except AssessmentError ℚ :=
  match config.behaviorPatternPoints pattern with
  | none => .error (.keyError pattern)
  | some points => .ok points

/-- The behavioral part: the points of each pattern, capped. -/
def behaviorContribution (config : ThreatConfig) : Option BehaviorAssessment → Except AssessmentError ℚ
  | none => .ok 0
  | some behavior =>
    if behavior.detectedPatterns = [] then .ok 0
    else (behavior.detectedPatterns.mapM (patternPoints config)).map fun points =>
      min config.behaviorWeight points.sum

def protocolContribution (config : ThreatConfig) : Option ProtocolSignatureEvidence → ℚ
  | none => 0
  | some signature => config.protocolSignatureWeight * signature.confidence

/-- `score_evidence`. -/
def scoreEvidence (config : ThreatConfig) (evidence : ThreatEvidence) : Except AssessmentError ScoreBreakdown := do
  let known := knownContribution config evidence.known
  let anomaly := anomalyContribution config evidence.anomaly
  let behavior ← behaviorContribution config evidence.behavior
  let signature := protocolContribution config evidence.protocolSignature
  pure
    { total := min 100 (known + anomaly + behavior + signature)
      knownAttackContribution := known
      anomalyContribution := anomaly
      behaviorContribution := behavior
      protocolSignatureContribution := signature }

/-! ## The assessment -/

/-- `_determine_level`. -/
def determineLevel (score : ℚ) (config : ThreatConfig) : ThreatLevel :=
  if score ≥ config.criticalThreshold then .critical
  else if score ≥ config.highThreshold then .high
  else if score ≥ config.mediumThreshold then .medium
  else .low

/-- `{:.0%}` of a share. -/
def percentText (share : ℚ) : String := toString (pyRound (share * 100)) ++ "%"

/-- `{:.3f}`. -/
def thousandthsText (value : ℚ) : String :=
  let thousandths := (pyRound (|value| * 1000)).toNat
  (if value < 0 then "-" else "") ++ toString (thousandths / 1000) ++ "."
    ++ String.ofList (pad 3 (thousandths % 1000))

/-- `_explain`: each kind of evidence that contributed, in words and as labels. -/
def explain (quoted : String → String) (breakdown : ScoreBreakdown) (evidence : ThreatEvidence) :
    String × List String :=
  let known := evidence.known.toList.filter fun _ => decide (breakdown.knownAttackContribution > 0)
  let anomaly := evidence.anomaly.toList.filter fun _ => decide (breakdown.anomalyContribution > 0)
  let behavior := evidence.behavior.toList.filter fun _ => decide (breakdown.behaviorContribution > 0)
  let signature := evidence.protocolSignature.toList.filter fun _ =>
    decide (breakdown.protocolSignatureContribution > 0)
  let parts :=
    known.map (fun e => "classified as " ++ quoted e.predictedClass ++ " with " ++ percentText e.confidence
      ++ " confidence")
    ++ anomaly.map (fun e => "anomalous traffic pattern (score=" ++ thousandthsText e.anomalyScore ++ ")")
    ++ behavior.map (fun e => "behavioral patterns: "
      ++ ", ".intercalate (e.detectedPatterns.map BehaviorPatternType.value))
    ++ signature.map fun e => "protocol signature match: " ++ e.detail
  let contributing :=
    known.map (fun e => "known_evidence:" ++ e.predictedClass)
    ++ anomaly.map (fun _ => "anomaly_evidence:anomalous")
    ++ behavior.flatMap (fun e => e.detectedPatterns.map fun pattern => "behavior:" ++ pattern.value)
    ++ signature.map fun e => "protocol_signature:" ++ e.signature
  (if parts = [] then "no significant threat indicators observed" else "; ".intercalate parts, contributing)

/-- `_overall_confidence`: the strongest single piece of evidence. -/
def overallConfidence (evidence : ThreatEvidence) : ℚ :=
  let known := (evidence.known.filter fun e => isAttackLabel e.predictedClass).map KnownEvidence.confidence
  let anomaly := (evidence.anomaly.filter AnomalyEvidence.isAnomaly).map fun _ => (7 / 10 : ℚ)
  let behavior := (evidence.behavior.filter fun e => decide (e.detectedPatterns ≠ [])).map
    BehaviorAssessment.confidence
  let signature := evidence.protocolSignature.map ProtocolSignatureEvidence.confidence
  (known.toList ++ anomaly.toList ++ behavior.toList ++ signature.toList).foldl max 0

/-- `ThreatAssessment`, with the range of its score. -/
structure ThreatAssessment where
  id : String
  flowId : String
  sourceIp : IPv4Address
  destinationIp : IPv4Address
  threatScore : ℚ
  threatLevel : ThreatLevel
  /-- The level the evidence reaches without the models; none when they may enforce. -/
  enforceableLevel : Option ThreatLevel
  confidence : ℚ
  evidence : ThreatEvidence
  explanation : String
  contributingEvidence : List String
  assessedAt : Time
  score_range : 0 ≤ threatScore ∧ threatScore ≤ 100

/-- The flow an assessment is about, and its new id. -/
structure AssessmentSubject where
  id : String
  flowId : String
  sourceIp : IPv4Address
  destinationIp : IPv4Address
  assessedAt : Time

/-- `assess_threat`. -/
def assessThreat (quoted : String → String) (config : ThreatConfig) (subject : AssessmentSubject)
    (evidence : ThreatEvidence) : Except AssessmentError ThreatAssessment := do
  let breakdown ← scoreEvidence config evidence
  let explained := explain quoted breakdown evidence
  if h : 0 ≤ breakdown.total ∧ breakdown.total ≤ 100 then
    pure
      { id := subject.id
        flowId := subject.flowId
        sourceIp := subject.sourceIp
        destinationIp := subject.destinationIp
        threatScore := breakdown.total
        threatLevel := determineLevel breakdown.total config
        enforceableLevel :=
          if config.mlEvidenceCanEnforce then none else some (determineLevel breakdown.nonMlTotal config)
        confidence := overallConfidence evidence
        evidence := evidence
        explanation := explained.1
        contributingEvidence := explained.2
        assessedAt := subject.assessedAt
        score_range := h }
  else throw .invalidScore

/-! ## What the deterministic evidence decides -/

/-- An assessment that went through, read back: its levels are those of the two totals. -/
structure Assessed (config : ThreatConfig) (evidence : ThreatEvidence) (breakdown : ScoreBreakdown)
    (assessment : ThreatAssessment) : Prop where
  scored : scoreEvidence config evidence = .ok breakdown
  evidence : assessment.evidence = evidence
  level : assessment.threatLevel = determineLevel breakdown.total config
  enforceable : assessment.enforceableLevel =
    if config.mlEvidenceCanEnforce then none else some (determineLevel breakdown.nonMlTotal config)

theorem assessThreat_ok {quoted : String → String} {config : ThreatConfig} {subject : AssessmentSubject}
    {evidence : ThreatEvidence} {assessment : ThreatAssessment}
    (h : assessThreat quoted config subject evidence = .ok assessment) :
    ∃ breakdown, Assessed config evidence breakdown assessment := by
  unfold assessThreat at h
  cases hscore : scoreEvidence config evidence with
  | error e =>
    rw [hscore] at h
    exact absurd h (by simp [bind, Except.bind])
  | ok breakdown =>
    simp only [hscore, bind, Except.bind] at h
    split at h
    · obtain rfl := Except.ok.inj h
      exact ⟨breakdown, hscore, rfl, rfl, rfl⟩
    · exact absurd h (by simp [throw, throwThe, MonadExceptOf.throw])

/-- With a score in range the assessment goes through. -/
theorem assessThreat_of_score (quoted : String → String) {config : ThreatConfig} (subject : AssessmentSubject)
    {evidence : ThreatEvidence} {breakdown : ScoreBreakdown}
    (hscore : scoreEvidence config evidence = .ok breakdown)
    (hrange : 0 ≤ breakdown.total ∧ breakdown.total ≤ 100) :
    ∃ assessment, assessThreat quoted config subject evidence = .ok assessment := by
  unfold assessThreat
  simp only [hscore, bind, Except.bind]
  rw [dif_pos hrange]
  exact ⟨_, rfl⟩

/-- What `score_evidence` returned: each contribution, and their clamped sum. -/
theorem scoreEvidence_ok {config : ThreatConfig} {evidence : ThreatEvidence} {breakdown : ScoreBreakdown}
    (h : scoreEvidence config evidence = .ok breakdown) :
    behaviorContribution config evidence.behavior = .ok breakdown.behaviorContribution ∧
      breakdown.protocolSignatureContribution = protocolContribution config evidence.protocolSignature := by
  unfold scoreEvidence at h
  cases hbehavior : behaviorContribution config evidence.behavior with
  | error e =>
    rw [hbehavior] at h
    exact absurd h (by simp [bind, Except.bind])
  | ok behavior =>
    simp only [hbehavior, bind, Except.bind] at h
    obtain rfl := Except.ok.inj h
    exact ⟨rfl, rfl⟩

/-- Without the models, the total is what the deterministic evidence reaches. -/
theorem scoreEvidence_withoutMl {config : ThreatConfig} {evidence : ThreatEvidence}
    {breakdown : ScoreBreakdown} (h : scoreEvidence config evidence = .ok breakdown) :
    ∃ alone, scoreEvidence config evidence.withoutMl = .ok alone ∧ alone.total = breakdown.nonMlTotal ∧
      alone.nonMlTotal = breakdown.nonMlTotal := by
  obtain ⟨hbehavior, hsignature⟩ := scoreEvidence_ok h
  refine ⟨⟨breakdown.nonMlTotal, 0, 0, breakdown.behaviorContribution,
    breakdown.protocolSignatureContribution⟩, ?_, rfl, rfl⟩
  unfold scoreEvidence ThreatEvidence.withoutMl ScoreBreakdown.nonMlTotal
  simp only [hbehavior, hsignature, knownContribution, anomalyContribution, bind, Except.bind, pure,
    Except.pure, zero_add]

/-- A deterministic score above zero comes from a detected pattern or a protocol signature. -/
theorem evidence_of_nonMlTotal_pos {config : ThreatConfig} {evidence : ThreatEvidence}
    {breakdown : ScoreBreakdown} (h : scoreEvidence config evidence = .ok breakdown)
    (hpos : 0 < breakdown.nonMlTotal) :
    evidence.protocolSignature ≠ none ∨
      ∃ behavior, evidence.behavior = some behavior ∧ behavior.detectedPatterns ≠ [] := by
  obtain ⟨hbehavior, hsignature⟩ := scoreEvidence_ok h
  by_contra hneither
  rw [not_or, not_not] at hneither
  obtain ⟨hnone, hpatterns⟩ := hneither
  have hzero : breakdown.behaviorContribution = 0 := by
    cases hcase : evidence.behavior with
    | none =>
      rw [hcase] at hbehavior
      exact (Except.ok.inj hbehavior).symm
    | some behavior =>
      have hempty : behavior.detectedPatterns = [] :=
        not_not.mp fun hne => hpatterns ⟨behavior, hcase, hne⟩
      rw [hcase, behaviorContribution, if_pos hempty] at hbehavior
      exact (Except.ok.inj hbehavior).symm
  rw [hnone] at hsignature
  have hsum : breakdown.nonMlTotal = 0 := by
    rw [ScoreBreakdown.nonMlTotal, hzero, hsignature]
    norm_num [protocolContribution]
  exact absurd hsum hpos.ne'

end Pirewall.Engine
