/-
# Pirewall.Runtime.RuleProvenance -- which evidence a rule stands on

A rule lives long after the flow it was made for: it is validated, held, approved, superseded, retired, and other
threads go on meanwhile. What it does to whom never changes on the way (`RuleProposal`), and one submission proposed
it. So every rule can be traced back to a flow and the evidence that flow was finished with. While the models may not
enforce, that evidence asks for the rule without them.

Three layers meet here, and each contributes one lemma about a step. In the manager every call leaves each rule with
the proposal it was filed with, or files the submitted candidate's, or adopts an element of the kernel (`step_stems`).
In the policy a restriction is one that the deterministic part of the score reaches, as long as the settings keep the
models from enforcing (`restrictive_without_models`). In the daemon a candidate reaches the manager in `finish` only,
where it is made of the flow at hand and of the decision on its outcome (`enact_cases`).

`Grounded` puts the first two together for a manager, and `Founded` says it of the daemon, with what its threads have
judged so far: a flow that has ended, with the outcome it ended with, or one that is open, by its source's behavior.
That set only grows, so nothing that was warranted ceases to be (`Grounded.mono`). The operator may call the manager
at any point of the interleaving, in any way but one: a candidate of the operator's own is on nobody's evidence.
-/
import Pirewall.Firewall.Transitions
import Pirewall.Runtime.DetectionThreads

namespace Pirewall

open Lib

/-! ## Proposals -/

/-- What a rule does, to whom and why: as it was proposed. -/
structure RuleProposal where
  id : String
  action : FirewallAction
  direction : RuleDirection
  source : IPv4Network
  destination : IPv4Network
  protocol : Protocol
  sourcePort : Option (Fin 65536)
  destinationPort : Option (Fin 65536)
  reason : String
  threatScore : Option Rat
  evidence : List String
  createdAt : Time
  expiresAt : Option Time

/-- What a rule on file was proposed as. -/
def FirewallRule.proposal (rule : FirewallRule) : RuleProposal :=
  ⟨rule.id, rule.action, rule.direction, rule.source, rule.destination, rule.protocol, rule.sourcePort,
    rule.destinationPort, rule.reason, rule.threatScore, rule.evidence, rule.createdAt, rule.expiresAt⟩

def CandidateRule.proposal (candidate : CandidateRule) : RuleProposal :=
  ⟨candidate.id, candidate.action, candidate.direction, candidate.source, candidate.destination, candidate.protocol,
    candidate.sourcePort, candidate.destinationPort, candidate.reason, candidate.threatScore, candidate.evidence,
    candidate.createdAt, candidate.expiresAt⟩

namespace FirewallManager

/-- A rule is as it was proposed before, is the submitted candidate's, or was adopted by reconcile. -/
structure Stems (m m' : FirewallManager) (op : ManagerOp) : Prop where
  keyed : Keyed m'
  rules : ∀ id rule, m'.rules.get? id = some rule →
    (∃ old, m.rules.get? id = some old ∧ rule.proposal = old.proposal) ∨
      (∃ candidate, op = .submitCandidate candidate ∧ rule.proposal = candidate.proposal) ∨
      (op = .reconcile ∧ IsReconciledId id)

variable {m m' : FirewallManager} {op : ManagerOp}

/-- A call that leaves the rules alone proposes nothing. -/
theorem Stems.same (hkeyed : Keyed m) (hrules : m'.rules = m.rules) : Stems m m' op where
  keyed id rule hrule := hkeyed id rule (hrules ▸ hrule)
  rules _ rule hrule := .inl ⟨rule, hrules ▸ hrule, rfl⟩

/-- Nor does one that only retires. -/
theorem Retires.stems (h : Retires m m') (hkeyed : Keyed m) : Stems m m' op where
  keyed := h.keyed hkeyed
  rules id rule hrule := by
    obtain ⟨old, hold, rfl | ⟨status, -, -, rfl⟩⟩ := h.rules id rule hrule
    · exact .inl ⟨rule, hold, rfl⟩
    · exact .inl ⟨old, hold, rfl⟩

/-- The rule is as the one filed under its id was proposed, or as the candidate is. -/
def Proposed (m : FirewallManager) (op : ManagerOp) (rule : FirewallRule) : Prop :=
  (∃ old, m.rules.get? rule.id = some old ∧ rule.proposal = old.proposal) ∨
    ∃ candidate, op = .submitCandidate candidate ∧ rule.proposal = candidate.proposal

/-- Filing one rule that was proposed. -/
theorem Stems.set (hkeyed : Keyed m) (rule : FirewallRule) (hrules : m'.rules = m.rules.set rule.id rule)
    (hproposed : Proposed m op rule) : Stems m m' op where
  keyed := keyed_set hkeyed hrules
  rules id other hother := by
    rw [hrules, Dict.get?_set] at hother
    split at hother
    · rename_i hid
      obtain rfl := Option.some.inj hother
      rw [hid]
      exact hproposed.imp_right .inl
    · exact .inl ⟨other, hother, rfl⟩

theorem deployToSets_stems (hkeyed : Keyed m) (sets : FakeSetBackend) (rule : FirewallRule) (now : Time)
    (upgradeOf : Option String)
    (hproposed : Proposed m op rule) : Stems m (m.deployToSets sets rule now upgradeOf).2 op := by
  refine ⟨deployToSets_keyed hkeyed sets rule now upgradeOf, ?_⟩
  rcases m.deployToSets_cases sets rule now upgradeOf with
    heq | ⟨faults, transitions, _, heq⟩ | ⟨target, additions, metadata, sets', hdeploy⟩
  · rw [heq]
    exact fun _ other hother => .inl ⟨other, hother, rfl⟩
  · rw [heq]
    have hset : Stems m { m with rules := m.rules.set rule.id { rule with status := .rejected } } op :=
      .set hkeyed { rule with status := .rejected } rfl hproposed
    exact hset.rules
  · obtain ⟨transitions, hm'⟩ := hdeploy.result
    rw [hm']
    intro id other hother
    rw [get?_deployedRules] at hother
    split at hother
    · rename_i hid
      obtain rfl := Option.some.inj hother
      rw [hid]
      exact hproposed.imp_right .inl
    · split at hother
      · -- the rule it supersedes keeps its id and its proposal
        rename_i hreplaced
        obtain ⟨old, hold, rfl⟩ := Option.map_eq_some_iff.mp hother
        obtain ⟨hget, -⟩ := Option.filter_eq_some_iff.mp hold
        obtain ⟨id', -, hrule⟩ := Option.bind_eq_some_iff.mp hget
        have hid : old.id = id := by
          rw [hold] at hreplaced
          exact Option.some.inj hreplaced
        refine .inl ⟨old, ?_, rfl⟩
        rw [← hid, hkeyed id' old hrule]
        exact hrule
      · exact .inl ⟨other, hother, rfl⟩

theorem deploy_stems (hkeyed : Keyed m) (rule : FirewallRule) (now : Time)
    (hproposed : Proposed m op rule) : Stems m (m.deploy rule now).2 op := by
  obtain ⟨backend, transitions, rule', _, hrule', heq⟩ := m.deploy_cases rule now
  rw [heq]
  rcases hrule' with rfl | rfl
  · exact .set hkeyed { rule with status := .rejected } rfl hproposed
  · exact .set hkeyed (rule.activated now rule.metadata) rfl hproposed

/-- A submission files what the candidate proposes. -/
theorem submitCandidate_stems (hkeyed : Keyed m) (env : Env) (candidate : CandidateRule) :
    Stems m (m.submitCandidate env candidate).2 (.submitCandidate candidate) := by
  unfold submitCandidate
  split
  · rename_i sets hsets
    rcases m.submitToSets_cases env sets candidate with
      ⟨_, heq⟩ | ⟨target, upgradeOf, rule, _, _, ⟨priority, hsource, rfl⟩, hcases⟩
    · rw [heq]
      exact .same hkeyed rfl
    · rcases hcases with ⟨status, _, _, _, heq⟩ | ⟨_, rateLimiter, transitions, heq⟩
      · rw [heq]
        exact .set hkeyed { candidate.toRule priority (some target) hsource with status := status } rfl
          (.inr ⟨candidate, rfl, rfl⟩)
      · rw [heq]
        have hsame : Keyed { m with rateLimiter, transitions, targets := m.targets.set candidate.id target } := hkeyed
        have h := deployToSets_stems hsame sets (candidate.toRule priority (some target) hsource) env.now upgradeOf
          (.inr ⟨candidate, rfl, rfl⟩)
        exact ⟨h.keyed, h.rules⟩
  · rcases m.submitToBackend_cases env candidate with
      ⟨_, heq⟩ | ⟨priority, rateLimiter, _, ⟨status, _, _, heq⟩ | ⟨_, transitions, heq⟩⟩
    · rw [heq]
      exact .same hkeyed rfl
    · rw [heq]
      exact .set hkeyed { candidate.toRule priority candidate.target candidate.target_is_source with
        status := status } rfl (.inr ⟨candidate, rfl, rfl⟩)
    · rw [heq]
      have hsame : Keyed { m with rateLimiter, transitions } := hkeyed
      have h := deploy_stems hsame (candidate.toRule priority candidate.target candidate.target_is_source) env.now
        (.inr ⟨candidate, rfl, rfl⟩)
      exact ⟨h.keyed, h.rules⟩

/-- An approval files what was proposed before. -/
theorem approvePending_stems (hkeyed : Keyed m) (ruleId : String) (now : Time) :
    Stems m (m.approvePending ruleId now).2 op := by
  rcases m.approvePending_cases ruleId now with heq | ⟨rule, hrule, _, hcases⟩
  · rw [heq]
    exact .same hkeyed rfl
  · have hproposed : Proposed m op { rule with status := .approved } := by
      refine .inl ⟨rule, ?_, rfl⟩
      show m.rules.get? rule.id = some rule
      rw [hkeyed ruleId rule hrule]
      exact hrule
    rcases hcases with ⟨sets, transitions, _, heq⟩ | ⟨_, transitions, heq⟩
    · rw [heq]
      have hsame : Keyed { m with transitions } := hkeyed
      have h := deployToSets_stems hsame sets { rule with status := .approved } now
        (m.rateLimitToUpgrade { rule with status := .approved }) hproposed
      exact ⟨h.keyed, h.rules⟩
    · rw [heq]
      have hsame : Keyed { m with transitions } := hkeyed
      have h := deploy_stems hsame { rule with status := .approved } now hproposed
      exact ⟨h.keyed, h.rules⟩

/-- Reconcile adopts, and retires. -/
theorem reconcile_stems (hkeyed : Keyed m) (now : Time) : Stems m (m.reconcile now).2 .reconcile := by
  cases hsets : m.sets with
  | none =>
    have heq : (m.reconcile now).2 = m := by
      unfold reconcile
      rw [hsets]
    rw [heq]
    exact .same hkeyed rfl
  | some b =>
    rcases reconcile_cases hsets now with heq | ⟨b', e, _, heq⟩ | ⟨b', live, report, _, heq⟩
    · rw [heq]
      exact .same hkeyed rfl
    · rw [heq]
      exact .same hkeyed rfl
    · rw [heq]
      refine adoptUnknown_induction (I := fun m' => Stems m m' .reconcile) _ ?_ _ report ?_
      · intro m' setName key expiresIn _ _ hset hm'
        rcases m'.adopt_cases setName key expiresIn now with heq | ⟨rule, ip, transitions, hid, _, _, heq⟩
        · rw [heq]
          exact hm'
        · rw [heq]
          refine ⟨keyed_set hm'.keyed (r := rule) rfl, fun id other hother => ?_⟩
          rw [Dict.get?_set] at hother
          split at hother
          · rename_i hsame
            exact .inr (.inr ⟨rfl, setName, hset, key, hsame.trans hid⟩)
          · exact hm'.rules id other hother
      · have hdemoted := retireMissing_demoted (m := { m with sets := some b' }) hkeyed (live.map Prod.fst) now
        have hretires : Retires m _ := hdemoted.retiresFrom (.of_eq rfl rfl rfl)
        exact hretires.stems hkeyed

/-- Where the rules come from that there are after a call. -/
theorem step_stems (hkeyed : Keyed m) (env : Env) (op : ManagerOp) : Stems m (m.step (env, op)) op := by
  by_cases hother : (∀ candidate, op ≠ .submitCandidate candidate) ∧ (∀ ruleId, op ≠ .approvePending ruleId) ∧
      op ≠ .reconcile
  · exact (step_retires hkeyed env op hother.1 hother.2.1 hother.2.2).stems hkeyed
  · cases op with
    | submitCandidate candidate => exact submitCandidate_stems hkeyed env candidate
    | approvePending ruleId => exact approvePending_stems hkeyed ruleId env.now
    | reconcile => exact reconcile_stems hkeyed env.now
    | _ => exact absurd ⟨by simp, by simp, by simp⟩ hother

end FirewallManager

namespace Engine

/-! ## What a rule is decided on -/

/-- While the models may not enforce, a restriction is one that the deterministic part of the score reaches, and there
is evidence in that part. -/
theorem restrictive_without_models {quoted : String → String} {config : ThreatConfig}
    (hml : config.mlEvidenceCanEnforce = false) {subject : AssessmentSubject} {evidence : ThreatEvidence}
    {assessment : ThreatAssessment} (hassessed : assessThreat quoted config subject evidence = .ok assessment)
    {id : String} {decidedAt : Time} {tracker : Option EvidenceMaturityTracker} {bar : ℚ}
    (hrestricts : (assessment.decide id decidedAt tracker bar).1.action.restrictive = true) :
    ∃ breakdown, scoreEvidence config evidence = .ok breakdown ∧
      actionRank (assessment.decide id decidedAt tracker bar).1.action ≤
        actionRank (actionByLevel (determineLevel breakdown.nonMlTotal config)) ∧
      (evidence.protocolSignature ≠ none ∨
        ∃ behavior, evidence.behavior = some behavior ∧ behavior.detectedPatterns ≠ []) := by
  obtain ⟨breakdown, hread⟩ := assessThreat_ok hassessed
  have henforceable : assessment.enforceableLevel = some (determineLevel breakdown.nonMlTotal config) := by
    rw [hread.enforceable, hml]
    rfl
  -- the gate let it through, and the ceiling is MONITOR or what the deterministic score reaches
  have haction : (assessment.decide id decidedAt tracker bar).1.action = assessment.capped.1 :=
    ThreatAssessment.gated_restrictive hrestricts
  have hceiling := ThreatAssessment.capped_rank henforceable
  have habove := restrictive_iff_rank.mp hrestricts
  rw [haction] at habove
  have hrank : actionRank assessment.capped.1 ≤
      actionRank (actionByLevel (determineLevel breakdown.nonMlTotal config)) := by omega
  have hthreshold : 0 < config.highThreshold := by
    have hlow := config.low_nonneg
    obtain ⟨hmedium, hhigh, -⟩ := config.ascending
    linarith
  have hpos : 0 < breakdown.nonMlTotal :=
    pos_of_restrictive_level hthreshold (restrictive_iff_rank.mpr (by omega))
  exact ⟨breakdown, hread.scored, by rw [haction]; exact hrank, evidence_of_nonMlTotal_pos hread.scored hpos⟩

variable {Values Analyzer : Type} (settings : PipelineSettings Values Analyzer)

/-- The proposal is about the flow, and is what was decided on the evidence. -/
structure Warrants (flow : FlowRecord) (evidence : ThreatEvidence) (proposal : RuleProposal) : Prop where
  source : proposal.source = .host flow.sourceIp
  destination : proposal.destination = .host flow.destinationIp
  protocol : proposal.protocol = flow.protocol
  destinationPort : proposal.destinationPort = flow.destinationPort
  decided : ∃ subject assessment id decidedAt tracker,
    assessThreat settings.quoted settings.threat subject evidence = .ok assessment ∧
      proposal.action = (assessment.decide id decidedAt tracker defaultKnownAttackConfidence).1.action

/-- What is known of a flow when its rule is decided: what it ended with, or, while it is open, what its source does. -/
def Judged (ended : List (FlowRecord × Option DetectionOutcome)) (flows : List FlowRecord) (flow : FlowRecord)
    (outcome : DetectionOutcome) : Prop :=
  (flow, some outcome) ∈ ended ∨
    flow ∈ flows ∧ outcome.record.known = none ∧ outcome.record.anomaly = none ∧
      outcome.record.protocolSignature = none ∧
      ∃ analyzer moment, outcome.behavior = (settings.detectors.assessAt analyzer flow.sourceIp moment).1

/-- Every rule was adopted from the kernel, or a judged flow warrants it. -/
structure Grounded (judged : FlowRecord → DetectionOutcome → Prop) (m : FirewallManager) : Prop where
  keyed : FirewallManager.Keyed m
  rules : ∀ id rule, m.rules.get? id = some rule → FirewallManager.IsReconciledId id ∨
    ∃ flow outcome, judged flow outcome ∧ Warrants settings flow outcome.evidence rule.proposal

variable {settings} {judged judged' : FlowRecord → DetectionOutcome → Prop} {m : FirewallManager}

/-- What warrants a rule warrants it when more has been judged. -/
theorem Grounded.mono (h : Grounded settings judged m)
    (hjudged : ∀ flow outcome, judged flow outcome → judged' flow outcome) : Grounded settings judged' m where
  keyed := h.keyed
  rules id rule hrule := by
    rcases h.rules id rule hrule with hid | ⟨flow, outcome, hflow, hwarrants⟩
    · exact .inl hid
    · exact .inr ⟨flow, outcome, hjudged flow outcome hflow, hwarrants⟩

/-- A call keeps the rules grounded if the candidate it submits is. -/
theorem Grounded.step (h : Grounded settings judged m) (env : Env) {op : ManagerOp}
    (hsubmits : ∀ candidate, op = .submitCandidate candidate →
      ∃ flow outcome, judged flow outcome ∧ Warrants settings flow outcome.evidence candidate.proposal) :
    Grounded settings judged (m.step (env, op)) := by
  have hstems := FirewallManager.step_stems h.keyed env op
  refine ⟨hstems.keyed, fun id rule hrule => ?_⟩
  rcases hstems.rules id rule hrule with ⟨old, hold, heq⟩ | ⟨candidate, hop, heq⟩ | ⟨-, hid⟩
  · rw [heq]
    exact h.rules id old hold
  · rw [heq]
    exact .inr (hsubmits candidate hop)
  · exact .inl hid

namespace FlowPipeline

variable (settings) (p : FlowPipeline Analyzer)

/-- A candidate is about the flow, and has the decision's action. -/
theorem proposal_of_generate {decision : EngineDecision} {flow : FlowRecord} {id : String} {createdAt : Time}
    {ttl : Nat} {resolveMac : IPv4Address → Option Mac} {candidate : CandidateRule}
    (h : generateCandidateRule decision flow.toFlow id createdAt ttl resolveMac = some candidate) :
    candidate.proposal.source = .host flow.sourceIp ∧ candidate.proposal.destination = .host flow.destinationIp ∧
      candidate.proposal.protocol = flow.protocol ∧ candidate.proposal.destinationPort = flow.destinationPort ∧
      candidate.proposal.action = decision.action := by
  unfold generateCandidateRule at h
  split at h
  · cases h
  · obtain rfl := Option.some.inj h
    exact ⟨rfl, rfl, rfl, rfl, rfl⟩

theorem submit_manager (decision : EngineDecision) (env : Env) (candidate : CandidateRule) :
    (p.submit decision env candidate).2.manager =
        ((p.manager.registerDecision decision.toFirewallDecision).submitCandidate env candidate).2 ∧
      (p.submit decision env candidate).2.flows = p.flows := by
  unfold submit
  dsimp only
  split <;> exact ⟨rfl, rfl⟩

/-- A decision that makes a candidate of the flow is handed to the manager with it, and nothing else is. -/
theorem enact_cases (flow : FlowRecord) (outcome : DetectionOutcome) (assessment : ThreatAssessment)
    (decision : EngineDecision) (now : Time) (env : Env) :
    (p.enact settings flow outcome assessment decision now env).2.flows = p.flows ∧
      ((p.enact settings flow outcome assessment decision now env).2.manager = p.manager ∨
        ∃ candidate id, generateCandidateRule decision flow.toFlow id now settings.defaultRuleTtlSeconds
            env.resolveMac = some candidate ∧
          (p.enact settings flow outcome assessment decision now env).2.manager =
            ((p.manager.registerDecision decision.toFirewallDecision).submitCandidate env candidate).2) := by
  have hemit : ∀ (p : FlowPipeline Analyzer) (event : PipelineEvent),
      (if assessment.threatLevel = .low then p else p.emit event).flows = p.flows ∧
        (if assessment.threatLevel = .low then p else p.emit event).manager = p.manager := by
    intro p event
    split <;> exact ⟨rfl, rfl⟩
  unfold enact
  dsimp only
  split
  · obtain ⟨hflows, hmanager⟩ := hemit _ (.threatDetected flow assessment decision.action)
    exact ⟨hflows, .inl hmanager⟩
  · rename_i candidate hcandidate
    obtain ⟨hsubmitted, hkept⟩ := submit_manager _ decision env candidate
    obtain ⟨hflows, hmanager⟩ := hemit _ (.threatDetected flow assessment decision.action)
    refine ⟨hkept.trans hflows, .inr ⟨candidate, _, hcandidate, hsubmitted.trans ?_⟩⟩
    rw [hmanager]

/-- What `finish` reports about a failure touches neither. -/
theorem finish_frame (flow : FlowRecord) (now : Time) (env : Env) (outcome : DetectionOutcome) :
    (p.finish settings flow now env outcome).manager = (p.finishOrRaise settings flow now env outcome).2.manager ∧
      (p.finish settings flow now env outcome).flows = (p.finishOrRaise settings flow now env outcome).2.flows := by
  unfold finish
  generalize p.finishOrRaise settings flow now env outcome = result
  obtain ⟨_ | _, q⟩ := result
  · exact ⟨rfl, rfl⟩
  · exact ⟨rfl, rfl⟩

/-- A decision on a judged flow's evidence keeps the rules grounded. -/
theorem enact_grounded (h : Grounded settings judged p.manager) {flow : FlowRecord} {outcome : DetectionOutcome}
    (hjudged : judged flow outcome) {subject : AssessmentSubject} {assessment : ThreatAssessment}
    (hassessed : assessThreat settings.quoted settings.threat subject outcome.evidence = .ok assessment) (id : String)
    (tracker : Option EvidenceMaturityTracker) (now : Time) (env : Env) :
    let decision := (assessment.decide id now tracker defaultKnownAttackConfidence).1
    Grounded settings judged (p.enact settings flow outcome assessment decision now env).2.manager ∧
      (p.enact settings flow outcome assessment decision now env).2.flows = p.flows := by
  intro decision
  obtain ⟨hflows, hmanager | ⟨candidate, candidateId, hcandidate, hmanager⟩⟩ :=
    p.enact_cases settings flow outcome assessment decision now env
  · rw [hmanager]
    exact ⟨h, hflows⟩
  · rw [hmanager]
    refine ⟨?_, hflows⟩
    obtain ⟨hsource, hdestination, hprotocol, hport, haction⟩ := proposal_of_generate hcandidate
    have hregistered : Grounded settings judged (p.manager.registerDecision decision.toFirewallDecision) :=
      ⟨h.keyed, h.rules⟩
    have hsubmits : ∀ other, ManagerOp.submitCandidate candidate = .submitCandidate other → ∃ flow outcome,
        judged flow outcome ∧ Warrants settings flow outcome.evidence other.proposal := by
      intro other hother
      obtain rfl := ManagerOp.submitCandidate.inj hother
      exact ⟨flow, outcome, hjudged, hsource, hdestination, hprotocol, hport, subject, assessment, id, now, tracker,
        hassessed, haction⟩
    exact hregistered.step env hsubmits

/-- Finishing a judged flow keeps the rules grounded, and changes no history of flows. -/
theorem finish_grounded (h : Grounded settings judged p.manager) {flow : FlowRecord} {outcome : DetectionOutcome}
    (hjudged : judged flow outcome) (now : Time) (env : Env) :
    Grounded settings judged (p.finish settings flow now env outcome).manager ∧
      (p.finish settings flow now env outcome).flows = p.flows := by
  obtain ⟨hmanager, hflows⟩ := p.finish_frame settings flow now env outcome
  rw [hmanager, hflows]
  unfold finishOrRaise
  dsimp only
  split
  · exact ⟨h, rfl⟩
  · rename_i assessment hassessed
    let decided := assessment.decide (settings.uuid (p.drawn + 1)) now (some p.tracker) defaultKnownAttackConfidence
    exact enact_grounded settings { p with tracker := decided.2.getD p.tracker } h hjudged hassessed
      (settings.uuid (p.drawn + 1)) (some p.tracker) now env

/-- A flow that is open when it is finished is judged by its source's behavior. -/
theorem processSnapshot_grounded {ended : List (FlowRecord × Option DetectionOutcome)}
    (h : Grounded settings (Judged settings ended p.flows) p.manager) (flow : FlowRecord) (now : Time) (env : Env) :
    Grounded settings (Judged settings ended (p.processSnapshot settings flow now env).flows)
      (p.processSnapshot settings flow now env).manager := by
  have hmore : Grounded settings (Judged settings ended (p.flows ++ [flow])) p.manager := by
    refine h.mono fun other outcome hother => ?_
    rcases hother with hended | ⟨hflow, hrest⟩
    · exact .inl hended
    · exact .inr ⟨List.mem_append_left _ hflow, hrest⟩
  let assessed := settings.detectors.assessAt p.analyzer flow.sourceIp flow.lastSeen
  let q : FlowPipeline Analyzer := { p with flows := p.flows ++ [flow], analyzer := assessed.2 }
  have hgrounded : Grounded settings (Judged settings ended q.flows) q.manager := hmore
  have hjudged : Judged settings ended q.flows flow ⟨⟨flow.flowId, none, none, none, now⟩, assessed.1⟩ :=
    .inr ⟨List.mem_append_right _ (List.mem_singleton_self _), rfl, rfl, rfl, p.analyzer, flow.lastSeen, rfl⟩
  obtain ⟨hfinished, hflows⟩ := finish_grounded settings q hgrounded hjudged now env
  show Grounded settings (Judged settings ended (q.finish settings flow now env _).flows) _
  rw [hflows]
  exact hfinished

theorem snapshots_grounded {ended : List (FlowRecord × Option DetectionOutcome)}
    (h : Grounded settings (Judged settings ended p.flows) p.manager) (snapshots : List FlowRecord) (now : Time)
    (env : Env) :
    let q := snapshots.foldl (fun p flow => p.processSnapshot settings flow now env) p
    Grounded settings (Judged settings ended q.flows) q.manager := by
  induction snapshots generalizing p with
  | nil => exact h
  | cons flow snapshots ih => exact ih _ (p.processSnapshot_grounded settings h flow now env)

theorem classifyKnown_frame (features : FeatureVector Values) :
    (p.classifyKnown settings features).2.manager = p.manager ∧
      (p.classifyKnown settings features).2.flows = p.flows := by
  unfold classifyKnown reportInferenceFailure
  repeat' split
  all_goals exact ⟨rfl, rfl⟩

theorem detectAnomaly_frame (features : FeatureVector Values) (now : Time) :
    (p.detectAnomaly settings features now).2.manager = p.manager ∧
      (p.detectAnomaly settings features now).2.flows = p.flows := by
  unfold detectAnomaly reportInferenceFailure
  repeat' split
  all_goals exact ⟨rfl, rfl⟩

theorem analyzeExceptAnomaly_frame (flow : FlowRecord) (features : FeatureVector Values) (now : Time)
    (signature : Option ProtocolSignatureEvidence) :
    (p.analyzeExceptAnomaly settings flow features now signature).2.manager = p.manager ∧
      (p.analyzeExceptAnomaly settings flow features now signature).2.flows = p.flows := by
  unfold analyzeExceptAnomaly
  dsimp only
  split
  · exact classifyKnown_frame settings _ features
  · exact ⟨rfl, rfl⟩

/-- The analysis of a flow changes neither the rules nor the history of flows. -/
theorem analyze_frame (flow : FlowRecord) (features : FeatureVector Values) (now : Time)
    (signature : Option ProtocolSignatureEvidence) :
    (p.analyze settings flow features now signature).2.manager = p.manager ∧
      (p.analyze settings flow features now signature).2.flows = p.flows := by
  have hanalyzed := p.analyzeExceptAnomaly_frame settings flow features now signature
  unfold analyze
  dsimp only
  split
  · have hdetected := detectAnomaly_frame settings (p.analyzeExceptAnomaly settings flow features now signature).2
      features now
    exact ⟨hdetected.1.trans hanalyzed.1, hdetected.2.trans hanalyzed.2⟩
  · exact hanalyzed

/-- Up to `finish`, the manager is not asked. -/
theorem process_frame (flow : FlowRecord) (now : Time) (signature : Option ProtocolSignatureEvidence) :
    (p.process settings flow now signature).2.manager = p.manager ∧
      (p.process settings flow now signature).2.flows = p.flows ++ [flow] := by
  unfold process
  dsimp only
  split
  · exact ⟨rfl, rfl⟩
  · split
    · exact analyzeExceptAnomaly_frame settings { p with flows := p.flows ++ [flow] } flow _ now signature
    · exact analyze_frame settings { p with flows := p.flows ++ [flow] } flow _ now signature

end FlowPipeline

namespace DetectionDaemon

variable {limits : DaemonLimits} {d d' : DetectionDaemon Values Analyzer}

variable (settings) in
/-- The manager's rules are grounded in what the threads have judged so far. -/
def Founded (d : DetectionDaemon Values Analyzer) : Prop :=
  Grounded settings (Judged settings d.ended d.pipeline.flows) d.pipeline.manager

/-- A step that leaves the manager alone, and forgets nothing that was judged. -/
theorem Founded.congr (h : d.Founded settings) (hmanager : d'.pipeline.manager = d.pipeline.manager)
    (hflows : d.pipeline.flows ⊆ d'.pipeline.flows) (hended : d.ended ⊆ d'.ended) : d'.Founded settings := by
  unfold Founded at h ⊢
  rw [hmanager]
  refine h.mono fun flow outcome hjudged => ?_
  rcases hjudged with hdone | ⟨hflow, hrest⟩
  · exact .inl (hended hdone)
  · exact .inr ⟨hflows hflow, hrest⟩

theorem Founded.finishFlow (h : d.Founded settings) (env : Env) (flow : FlowRecord) (now : Time)
    (outcome : DetectionOutcome) : (d.finishFlow settings env flow now outcome).Founded settings := by
  have hmore : Grounded settings (Judged settings (d.ended ++ [(flow, some outcome)]) d.pipeline.flows)
      d.pipeline.manager := by
    refine h.mono fun other found hjudged => ?_
    rcases hjudged with hdone | hopen
    · exact .inl (List.mem_append_left _ hdone)
    · exact .inr hopen
  obtain ⟨hgrounded, hflows⟩ := FlowPipeline.finish_grounded settings d.pipeline hmore
    (.inl (List.mem_append_right _ (List.mem_singleton_self _))) now env
  show Grounded settings (Judged settings _ (d.pipeline.finish settings flow now env outcome).flows) _
  rw [hflows]
  exact hgrounded

theorem Founded.processFlow (h : d.Founded settings) (input : DetectionInput) (flow : FlowRecord) :
    (d.processFlow settings input flow).Founded settings := by
  obtain ⟨hmanager, hflows⟩ := d.pipeline.process_frame settings flow input.now input.signature
  have hsubset : d.pipeline.flows ⊆ (d.pipeline.process settings flow input.now input.signature).2.flows := by
    rw [hflows]
    exact List.subset_append_left _ _
  unfold DetectionDaemon.processFlow
  dsimp only
  split
  · exact h.congr hmanager hsubset (List.subset_append_left _ _)
  · exact h.congr hmanager hsubset (List.Subset.refl _)
  · exact h.congr hmanager hsubset (List.Subset.refl _)

theorem Founded.detect (h : d.Founded settings) (input : DetectionInput) :
    (d.detect settings input).Founded settings := by
  have hsame : ∀ point : DetectionPoint Values, Founded settings { d with detection := point } := fun _ => h
  unfold DetectionDaemon.detect
  cases d.detection with
  | top => exact hsame _
  | signals reason =>
    unfold DetectionDaemon.drainSignal
    cases d.newFlowQueue.items with
    | cons signal rest => exact h
    | nil => exact FlowPipeline.snapshots_grounded settings d.pipeline h input.snapshots input.now input.env
  | clusters reason =>
    unfold DetectionDaemon.drainCluster
    cases d.slowClusterQueue.items with
    | cons entry rest =>
      let analyzer := settings.detectors.noteSlowConnections d.pipeline.analyzer entry.1 input.now
      exact FlowPipeline.processSnapshot_grounded settings { d.pipeline with analyzer := analyzer } h
        ⟨entry.1.representativeFlow, entry.2⟩ input.now input.env
    | nil => exact hsame _
  | get =>
    unfold DetectionDaemon.takeFlow
    cases d.flowQueue.items with
    | cons flow rest => exact h
    | nil => exact hsame _
  | process flow => exact h.processFlow input flow
  | handOver scoring => exact h
  | finish flow now outcome => exact h.finishFlow input.env flow now outcome
  | exited => exact h

theorem Founded.infer (h : d.Founded settings) (now : Time) (env : Env) (expired : Bool) :
    (d.infer settings limits now env expired).Founded settings := by
  unfold DetectionDaemon.infer
  cases d.inference with
  | top => exact h
  | get =>
    unfold DetectionDaemon.takeFirst
    cases d.anomalyQueue.items <;> exact h
  | collect batch =>
    unfold DetectionDaemon.collect
    cases d.anomalyQueue.items with
    | nil => exact h
    | cons next rest =>
      dsimp only
      split <;> exact h
  | leftover batch =>
    unfold DetectionDaemon.collectLeftover
    cases d.anomalyQueue.items <;> exact h
  | score batch last =>
    unfold DetectionDaemon.scoreBatch
    dsimp only
    cases settings.detectors.isolationForest <;> exact h
  | finish scored last =>
    cases scored with
    | nil => exact h
    | cons entry rest => exact h.finishFlow env entry.1.flow entry.1.now _
  | exited => exact h

/-- The step lemma: any action of any thread, but a candidate of the operator's own. -/
theorem Founded.step (h : d.Founded settings) {action : DaemonAction}
    (hsubmits : ∀ env candidate, action ≠ .manage (env, .submitCandidate candidate)) :
    (d.step settings limits action).Founded settings := by
  cases action with
  | detect input => exact h.detect input
  | infer now env expired => exact h.infer now env expired
  | manage call =>
    obtain ⟨env, op⟩ := call
    exact Grounded.step h env fun candidate hop => absurd (hop ▸ rfl) (hsubmits env candidate)
  | _ => exact h

variable (settings) in
/-- The behavior that a flow is judged by is its source's. -/
def OfSource (flow : FlowRecord) (outcome : DetectionOutcome) : Prop :=
  ∃ analyzer, outcome.behavior = settings.detectors.assess analyzer flow.sourceIp

theorem upholds_ofSource :
    Upholds settings (fun scoring => OfSource settings scoring.flow scoring.outcome) (OfSource settings) where
  pending p flow now signature scoring h := by
    unfold FlowPipeline.process at h
    dsimp only at h
    split at h
    · cases h
    · split at h
      · obtain rfl := Processed.pending.inj h
        exact ⟨_, rfl⟩
      · cases h
  complete p flow now signature outcome h := by
    unfold FlowPipeline.process at h
    dsimp only at h
    split at h
    · cases h
    · split at h
      · cases h
      · obtain rfl := Processed.complete.inj h
        exact ⟨_, rfl⟩
  unscored scoring h := h
  scored batch now hbatch entry hentry := hbatch entry.1 (List.of_mem_zip hentry).1

/-- **A restriction stands on deterministic evidence.** However the threads interleave, a rule that blocks or limits,
unless it was found in the kernel after a restart, is about the source, the destination and the port of a flow that was
judged. The patterns of that very source, or the flow's TLS signature, already reach what the rule does without the
models' scores. -/
theorem restriction_stands_on_deterministic_evidence (settings : PipelineSettings Values Analyzer)
    (limits : DaemonLimits) (hml : settings.threat.mlEvidenceCanEnforce = false) (analyzer : Analyzer)
    (config : PirewallConfig) (backend : FakeFirewallBackend) (store : Option AllowlistStore)
    (sets : Option FakeSetBackend) (actions : List DaemonAction)
    (hsubmits : ∀ env candidate, DaemonAction.manage (env, .submitCandidate candidate) ∉ actions) (id : String)
    (rule : FirewallRule) (hid : ¬FirewallManager.IsReconciledId id) (hrestricts : rule.action.restrictive = true)
    (hrule : (run (step settings limits) (init settings limits analyzer (.init config backend store sets))
      actions).pipeline.manager.rules.get? id = some rule) :
    let d := run (step settings limits) (init settings limits analyzer (.init config backend store sets)) actions
    ∃ flow outcome, Judged settings d.ended d.pipeline.flows flow outcome ∧
      rule.source = .host flow.sourceIp ∧ rule.destination = .host flow.destinationIp ∧
      rule.protocol = flow.protocol ∧ rule.destinationPort = flow.destinationPort ∧
      ((∃ analyzer, outcome.behavior = settings.detectors.assess analyzer flow.sourceIp) ∨
        ∃ analyzer moment, outcome.behavior = (settings.detectors.assessAt analyzer flow.sourceIp moment).1) ∧
      (outcome.record.protocolSignature ≠ none ∨
        ∃ behavior, outcome.behavior = some behavior ∧ behavior.detectedPatterns ≠ []) ∧
      ∃ breakdown, scoreEvidence settings.threat outcome.evidence = .ok breakdown ∧
        actionRank rule.action ≤
          actionRank (actionByLevel (determineLevel breakdown.nonMlTotal settings.threat)) := by
  intro d
  have hfounded : d.Founded settings := by
    have hinit : (init settings limits analyzer (.init config backend store sets)).Founded settings :=
      ⟨FirewallManager.keyed_init config backend store sets, fun id rule h => absurd h (by simp [init,
        FlowPipeline.init, FirewallManager.init])⟩
    exact List.foldlRecOn actions _ hinit fun _ hd action haction =>
      hd.step fun env candidate heq => hsubmits env candidate (heq ▸ haction)
  have hattests : d.Attests settings _ (OfSource settings) :=
    Attests.run upholds_ofSource analyzer (.init config backend store sets) actions
  rcases hfounded.rules id rule hrule with hreconciled | ⟨flow, outcome, hjudged, hwarrants⟩
  · exact absurd hreconciled hid
  · obtain ⟨subject, assessment, decisionId, decidedAt, tracker, hassessed, haction⟩ := hwarrants.decided
    have haction : rule.action = _ := haction
    obtain ⟨breakdown, hscored, hrank, hevidence⟩ := restrictive_without_models hml hassessed (haction ▸ hrestricts)
    refine ⟨flow, outcome, hjudged, hwarrants.source, hwarrants.destination, hwarrants.protocol,
      hwarrants.destinationPort, ?_, hevidence, breakdown, hscored, ?_⟩
    · rcases hjudged with hended | ⟨-, -, -, -, hassessedAt⟩
      · exact .inl (hattests.ended flow outcome hended)
      · exact .inr hassessedAt
    · rw [haction]
      exact hrank

/-- The pipeline with the forest, to whose analyzer one source floods and scans and the others do nothing. -/
def floodSettings : PipelineSettings Nat Unit :=
  { forestSettings true with
    detectors := { (forestSettings true).detectors with
      assess := fun _ source =>
        if source = IPv4Address.ofOctets 10 0 0 9 then some ⟨[.flood, .scanning], 1, by norm_num⟩ else none } }

def floodFlow : FlowRecord where
  toFlow := { ConnectionStartTracker.attempt 5000 with
    sourceIp := IPv4Address.ofOctets 10 0 0 9
    destinationIp := IPv4Address.ofOctets 203 0 113 5 }
  flowId := "flood"

/-- Two flows are processed, the first of a source that does nothing, and an operator is at the manager in between.
Then the anomaly thread scores them in one batch and finishes them. -/
def floodActions : List DaemonAction :=
  [.newFlow openedSignal, .completed openedFlow] ++ List.replicate 9 turn ++
    [.manage (siteEnv 0, .revertToBase), .completed floodFlow] ++ List.replicate 9 turn ++
    List.replicate 7 (.infer 0 (siteEnv 0) false)

/-- Both flows are anomalies to the model. The source that floods and scans is limited for that, and the other one is
left alone. -/
theorem restriction_stands_on_deterministic_evidence_flood :
    let d := run (step floodSettings shippedLimits)
      (init floodSettings shippedLimits () (.init (siteConfig .active) siteBackend none none)) floodActions
    (d.ended.map fun entry => entry.2.bind fun outcome => outcome.record.anomaly.map fun anomaly => anomaly.isAnomaly) =
      [some true, some true] ∧
    d.pipeline.manager.rules.keys = ["uuuu"] ∧
    ∃ rule, d.pipeline.manager.rules.get? "uuuu" = some rule ∧ rule.action = .rateLimit ∧
      ∃ flow outcome, Judged floodSettings d.ended d.pipeline.flows flow outcome ∧
        rule.source = .host flow.sourceIp ∧
        (outcome.record.protocolSignature ≠ none ∨
          ∃ behavior, outcome.behavior = some behavior ∧ behavior.detectedPatterns ≠ []) := by
  intro d
  have hlimited : (d.pipeline.manager.rules.get? "uuuu").map (fun rule => rule.action) = some .rateLimit := by
    decide +kernel
  obtain ⟨rule, hrule, haction⟩ := Option.map_eq_some_iff.mp hlimited
  have hadopted : ¬FirewallManager.IsReconciledId "uuuu" := by
    rintro ⟨setName, -, key, heq⟩
    have hlength := congrArg String.length heq
    rw [FirewallManager.reconciledId, String.length_append, String.length_append, String.length_append,
      show "uuuu".length = 4 from rfl, show (reconciledPrefix ++ ":").length = 11 from rfl] at hlength
    omega
  have hsubmits : ∀ env candidate, DaemonAction.manage (env, .submitCandidate candidate) ∉ floodActions := by
    intro env candidate h
    -- the operator's is the only call among them
    have hcall : ∀ action ∈ floodActions,
        (∀ call, action ≠ .manage call) ∨ action = .manage (siteEnv 0, .revertToBase) := by
      simp [floodActions, turn]
    rcases hcall _ h with hnone | hrevert
    · exact hnone _ rfl
    · cases hrevert
  obtain ⟨flow, outcome, hjudged, hsource, -, -, -, -, hevidence, -⟩ :=
    restriction_stands_on_deterministic_evidence floodSettings shippedLimits rfl () (siteConfig .active) siteBackend
      none none floodActions hsubmits "uuuu" rule hadopted (by rw [haction]; rfl) hrule
  exact ⟨by decide +kernel, by decide +kernel, rule, hrule, haction, flow, outcome, hjudged, hsource, hevidence⟩

end DetectionDaemon

end Engine

end Pirewall
