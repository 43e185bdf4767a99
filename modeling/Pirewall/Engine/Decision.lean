/-
# Pirewall.Engine.Decision -- from an assessment to an action

`engine/decision.py`: each level has one action, the interim ceiling holds the action down to what the
deterministic evidence reaches alone, and the maturity gate turns a restriction without mature evidence into
MONITOR. The gate's last path counts per source (`EvidenceMaturityTracker`), so a decision returns the tracker.

The ceiling is applied after the models' scores have been mixed in. `restrictive_decision` is what it leaves:
a restriction is one the deterministic evidence asks for, and that evidence alone is mature.
-/
import Pirewall.Engine.Threat

namespace Pirewall.Engine

open Lib

/-! ## Actions -/

/-- `_ACTION_BY_LEVEL`. -/
def actionByLevel : ThreatLevel → FirewallAction
  | .low => .allow
  | .medium => .monitor
  | .high => .rateLimit
  | .critical => .block

/-- `_ACTION_RANK`. -/
def actionRank : FirewallAction → Nat
  | .allow => 0
  | .monitor => 1
  | .rateLimit => 2
  | .block => 3

/-- The gated actions (`_MATURITY_GATED_ACTIONS`) are the two above MONITOR. -/
theorem restrictive_iff_rank {action : FirewallAction} :
    action.restrictive = true ↔ actionRank .monitor < actionRank action := by
  cases action <;> decide

/-! ## The maturity tracker -/

/-- `EvidenceMaturityTracker`: how often each source was elevated without mature evidence. -/
structure EvidenceMaturityTracker where
  consistencyWindows : Nat
  maxTrackedSources : Nat
  sources : Dict IPv4Address Nat

namespace EvidenceMaturityTracker

/-- `from_config`. -/
def fromConfig (config : ThreatConfig) : EvidenceMaturityTracker :=
  ⟨config.evidenceMaturityConsistencyWindows, config.maxTrackedMaturitySources, Dict.empty⟩

/-- `observe`: one more weak but elevated window, and whether there have been enough. -/
def observe (tracker : EvidenceMaturityTracker) (sourceIp : IPv4Address) : Bool × EvidenceMaturityTracker :=
  let count := min ((tracker.sources.get? sourceIp).getD 0 + 1) tracker.consistencyWindows
  let room :=
    if !tracker.sources.contains sourceIp && decide (tracker.maxTrackedSources ≤ tracker.sources.size) then
      tracker.sources.popFirst
    else tracker.sources
  (decide (tracker.consistencyWindows ≤ count),
   { tracker with sources := (room.set sourceIp count).moveToEnd sourceIp })

end EvidenceMaturityTracker

/-! ## Deciding -/

/-- `FirewallDecision`, as the v1 engine fills it. -/
structure EngineDecision extends FirewallDecision where
  threatAssessmentId : String
  flowId : Option String
  action : FirewallAction
  threatScore : ℚ
  threatLevel : ThreatLevel
  reason : String
  evidence : List String
  decidedAt : Time

namespace ThreatAssessment

/-- `_ml_ceiling`: the action of the non-ML level, raised to MONITOR where the full level asks for one. -/
def mlCeiling (assessment : ThreatAssessment) : Option FirewallAction :=
  assessment.enforceableLevel.map fun enforceable =>
    let ceiling := actionByLevel enforceable
    if actionRank .monitor ≤ actionRank (actionByLevel assessment.threatLevel)
        ∧ actionRank ceiling < actionRank .monitor then .monitor
    else ceiling

/-- Paths (a) and (b) of `_has_mature_evidence`: a confident attack class, a protocol signature, or a
behavioral pattern. -/
def hasConclusiveEvidence (assessment : ThreatAssessment) (knownAttackConfidenceThreshold : ℚ) : Bool :=
  (assessment.evidence.known.any fun known =>
      isAttackLabel known.predictedClass && knownAttackConfidenceThreshold ≤ known.confidence)
    || assessment.evidence.protocolSignature.isSome
    || assessment.evidence.behavior.any fun behavior => !behavior.detectedPatterns.isEmpty

/-- `_has_mature_evidence`: the tracker is asked, and moves, only where nothing is conclusive. -/
def hasMatureEvidence (assessment : ThreatAssessment) (tracker : Option EvidenceMaturityTracker)
    (knownAttackConfidenceThreshold : ℚ) : Bool × Option EvidenceMaturityTracker :=
  if assessment.hasConclusiveEvidence knownAttackConfidenceThreshold then (true, tracker)
  else
    match tracker with
    | none => (false, none)
    | some tracker =>
      let (mature, tracker) := tracker.observe assessment.sourceIp
      (mature, some tracker)

/-- The ceiling's part of `decide`: the action it leaves, and the reason. -/
def capped (assessment : ThreatAssessment) : FirewallAction × String :=
  let action := actionByLevel assessment.threatLevel
  match assessment.mlCeiling with
  | none => (action, assessment.explanation)
  | some ceiling =>
    if actionRank ceiling < actionRank action then
      (ceiling, assessment.explanation ++ "; action capped at " ++ ceiling.value ++ " (would be "
        ++ action.value ++ "): ML evidence alone may not enforce (threat.ml_evidence_can_enforce = false)")
    else (action, assessment.explanation)

/-- The gate's part of `decide`: the action it lets through, and the tracker after it. -/
def gated (assessment : ThreatAssessment) (action : FirewallAction) (tracker : Option EvidenceMaturityTracker)
    (knownAttackConfidenceThreshold : ℚ) : FirewallAction × Option EvidenceMaturityTracker :=
  if action.restrictive then
    let (mature, tracker) := assessment.hasMatureEvidence tracker knownAttackConfidenceThreshold
    (if mature then action else .monitor, tracker)
  else (action, tracker)

/-- `decide`, with the new id of the decision. -/
def decide (assessment : ThreatAssessment) (id : String) (decidedAt : Time)
    (tracker : Option EvidenceMaturityTracker) (knownAttackConfidenceThreshold : ℚ) :
    EngineDecision × Option EvidenceMaturityTracker :=
  let (action, reason) := assessment.capped
  let (action, tracker) := assessment.gated action tracker knownAttackConfidenceThreshold
  ({ id := id
     threatAssessmentId := assessment.id
     flowId := some assessment.flowId
     action := action
     threatScore := assessment.threatScore
     threatLevel := assessment.threatLevel
     reason := reason
     evidence := assessment.contributingEvidence
     decidedAt := decidedAt }, tracker)

/-! ## What the ceiling leaves -/

variable {assessment : ThreatAssessment} {level : ThreatLevel}

/-- The ceiling and the level's own action, whichever is milder. -/
theorem capped_rank (h : assessment.enforceableLevel = some level) :
    actionRank assessment.capped.1 ≤ max (actionRank .monitor) (actionRank (actionByLevel level)) := by
  unfold capped mlCeiling
  rw [h]
  dsimp only [Option.map_some]
  split_ifs <;> dsimp only <;> omega

/-- Where the full level and the non-ML level agree, the ceiling changes nothing. -/
theorem capped_of_same_level (h : assessment.enforceableLevel = some assessment.threatLevel) :
    assessment.capped.1 = actionByLevel assessment.threatLevel := by
  unfold capped mlCeiling
  rw [h]
  cases assessment.threatLevel <;> rfl

/-- Conclusive evidence lets every action through. -/
theorem gated_of_conclusive {bar : ℚ} (h : assessment.hasConclusiveEvidence bar = true)
    (action : FirewallAction) (tracker : Option EvidenceMaturityTracker) :
    (assessment.gated action tracker bar).1 = action := by
  unfold gated hasMatureEvidence
  rw [if_pos h]
  split
  · rfl
  · rfl

/-- The gate only ever makes an action milder. -/
theorem gated_restrictive {action : FirewallAction} {tracker : Option EvidenceMaturityTracker} {bar : ℚ}
    (h : (assessment.gated action tracker bar).1.restrictive = true) :
    (assessment.gated action tracker bar).1 = action := by
  unfold gated at h ⊢
  split
  · rename_i hrestrictive
    rw [if_pos hrestrictive] at h
    dsimp only at h ⊢
    split
    · rfl
    · rename_i himmature
      rw [if_neg himmature] at h
      exact absurd h (by decide)
  · rfl

/-- The deterministic evidence that asks for an enforceable level is conclusive by itself. -/
theorem conclusive_of_enforceable {config : ThreatConfig} {evidence : ThreatEvidence}
    {breakdown : ScoreBreakdown} (hscore : scoreEvidence config evidence = .ok breakdown)
    (hpos : 0 < breakdown.nonMlTotal)
    (hsame : assessment.evidence.protocolSignature = evidence.protocolSignature ∧
      assessment.evidence.behavior = evidence.behavior) (bar : ℚ) :
    assessment.hasConclusiveEvidence bar = true := by
  unfold hasConclusiveEvidence
  rw [hsame.1, hsame.2]
  rcases evidence_of_nonMlTotal_pos hscore hpos with hsignature | ⟨behavior, hbehavior, hpatterns⟩
  · rw [Option.isSome_iff_ne_none.mpr hsignature]
    simp
  · rw [hbehavior]
    simp [hpatterns]

end ThreatAssessment

/-- A level whose action restricts was reached with a score above zero. -/
theorem pos_of_restrictive_level {config : ThreatConfig} {score : ℚ} (hpos : 0 < config.highThreshold)
    (h : (actionByLevel (determineLevel score config)).restrictive = true) : 0 < score := by
  have hcritical := config.ascending.2.2
  unfold determineLevel at h
  split_ifs at h with hc hh hm
  · linarith
  · linarith
  · exact absurd h (by decide)
  · exact absurd h (by decide)

/-- While the models may not enforce, a RATE_LIMIT or BLOCK is no stronger than what the same evidence without
the models' gets, whatever the tracker has counted in either case. -/
theorem ml_never_raises_enforcement (quoted : String → String) {config : ThreatConfig}
    (hml : config.mlEvidenceCanEnforce = false) (hthreshold : 0 < config.highThreshold)
    (subject subject' : AssessmentSubject) (evidence : ThreatEvidence) {assessment : ThreatAssessment}
    (hassessed : assessThreat quoted config subject evidence = .ok assessment) (id id' : String)
    (decidedAt decidedAt' : Time) (tracker tracker' : Option EvidenceMaturityTracker) (bar : ℚ)
    (henforces : (assessment.decide id decidedAt tracker bar).1.action.restrictive = true) :
    ∃ alone, assessThreat quoted config subject' evidence.withoutMl = .ok alone ∧
      actionRank (assessment.decide id decidedAt tracker bar).1.action ≤
        actionRank (alone.decide id' decidedAt' tracker' bar).1.action := by
  obtain ⟨breakdown, hread⟩ := assessThreat_ok hassessed
  have henforceable : assessment.enforceableLevel = some (determineLevel breakdown.nonMlTotal config) := by
    rw [hread.enforceable, hml]
    rfl
  -- what is enforced got past the gate, so it is what the ceiling left
  have haction : (assessment.decide id decidedAt tracker bar).1.action = assessment.capped.1 :=
    ThreatAssessment.gated_restrictive henforces
  have hrank : actionRank assessment.capped.1 ≤
      actionRank (actionByLevel (determineLevel breakdown.nonMlTotal config)) := by
    have hle := ThreatAssessment.capped_rank henforceable
    rw [haction, restrictive_iff_rank] at henforces
    omega
  have hrestrictive : (actionByLevel (determineLevel breakdown.nonMlTotal config)).restrictive = true := by
    rw [haction, restrictive_iff_rank] at henforces
    rw [restrictive_iff_rank]
    omega
  have hpos : 0 < breakdown.nonMlTotal := pos_of_restrictive_level hthreshold hrestrictive
  -- the same evidence without the models: its score is the non-ML total, so the ceiling does not bite
  obtain ⟨alone, hscore, htotal, hnonMl⟩ := scoreEvidence_withoutMl hread.scored
  have hrange : 0 ≤ alone.total ∧ alone.total ≤ 100 := by
    rw [htotal]
    exact ⟨hpos.le, min_le_left _ _⟩
  obtain ⟨unaided, hunaided⟩ := assessThreat_of_score quoted subject' hscore hrange
  obtain ⟨breakdown', hread'⟩ := assessThreat_ok hunaided
  obtain rfl : alone = breakdown' := Except.ok.inj (hscore.symm.trans hread'.scored)
  have hlevel : unaided.threatLevel = determineLevel breakdown.nonMlTotal config := by
    rw [hread'.level, htotal]
  have hsame : unaided.enforceableLevel = some unaided.threatLevel := by
    rw [hread'.enforceable, hml, hnonMl, hlevel]
    rfl
  have hconclusive : unaided.hasConclusiveEvidence bar = true :=
    ThreatAssessment.conclusive_of_enforceable hread.scored hpos
      (by rw [hread'.evidence]; exact ⟨rfl, rfl⟩) bar
  refine ⟨unaided, hunaided, ?_⟩
  calc actionRank (assessment.decide id decidedAt tracker bar).1.action
      = actionRank assessment.capped.1 := by rw [haction]
    _ ≤ actionRank (actionByLevel (determineLevel breakdown.nonMlTotal config)) := hrank
    _ = actionRank unaided.capped.1 := by rw [ThreatAssessment.capped_of_same_level hsame, hlevel]
    _ = actionRank (unaided.decide id' decidedAt' tracker' bar).1.action :=
        congrArg actionRank (ThreatAssessment.gated_of_conclusive hconclusive _ tracker').symm

/-- A scan, seen by every detector: the models put it at CRITICAL, its behavior alone reaches HIGH. -/
def scanEvidence : ThreatEvidence where
  known := some ⟨"PortScan", 99 / 100, by norm_num⟩
  anomaly := some ⟨7 / 10, true⟩
  behavior := some ⟨[.scanning, .burst, .highFrequency], 9 / 10, by norm_num⟩
  protocolSignature := none

def scanSubject : AssessmentSubject := ⟨"t-1", "f-1", 0xC0A86405#32, 0xCB007107#32, 0⟩

/-- The scan is capped at RATE_LIMIT, and gets it without the models too. -/
theorem ml_never_raises_enforcement_scan : ∃ assessment alone,
    assessThreat id defaultThreatConfig scanSubject scanEvidence = .ok assessment ∧
      (assessment.decide "d-1" 0 none (4 / 5)).1.action = .rateLimit ∧
      assessThreat id defaultThreatConfig scanSubject scanEvidence.withoutMl = .ok alone ∧
      actionRank .rateLimit ≤ actionRank (alone.decide "d-2" 0 none (4 / 5)).1.action := by
  have hrun : (assessThreat id defaultThreatConfig scanSubject scanEvidence).toOption.map (fun assessment =>
      (assessment.decide "d-1" 0 none (4 / 5)).1.action) = some .rateLimit := by decide +kernel
  obtain ⟨assessment, hassessed, haction⟩ := Option.map_eq_some_iff.mp hrun
  have hassessed : assessThreat id defaultThreatConfig scanSubject scanEvidence = .ok assessment := by
    cases hcase : assessThreat id defaultThreatConfig scanSubject scanEvidence with
    | error e =>
      rw [hcase] at hassessed
      exact absurd hassessed (by simp [Except.toOption])
    | ok other =>
      rw [hcase] at hassessed
      exact congrArg Except.ok (Option.some.inj hassessed)
  obtain ⟨alone, halone, hrank⟩ := ml_never_raises_enforcement id
    (rfl : defaultThreatConfig.mlEvidenceCanEnforce = false)
    (by norm_num [defaultThreatConfig]) scanSubject scanSubject scanEvidence hassessed "d-1" "d-2" 0 0 none
    none (4 / 5) (by rw [haction]; rfl)
  exact ⟨assessment, alone, hassessed, haction, halone, haction ▸ hrank⟩

end Pirewall.Engine
