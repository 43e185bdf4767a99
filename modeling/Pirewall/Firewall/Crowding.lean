/-
# Pirewall.Firewall.Crowding -- what MONITOR candidates do to the others

Two runs of submissions on the set path in ACTIVE mode, with and without the MONITOR candidates of the sequence. A
MONITOR rule inserts no element and takes no part in the conflict, duplicate and escalation stages of any other
action, so the two managers stay the same but for its rule (`Alongside`). But every candidate that passes the chain
spends a unit of the rule-creation budget, a MONITOR too: the two rate limiters hold the same log with and without the
MONITOR entries (`Spends`), and the verdicts agree as long as no other candidate finds the window full while a MONITOR
of the sequence is in it.

That condition is exact, and the induction shows it together with the agreement. `Beside` is what holds of the two
runs up to some point. At a MONITOR only the first manager moves; at any other candidate both do, and they give one
verdict unless it asks for a budget that only one of them has left (`Alongside.verdict`). Where the first has none
left and a MONITOR in its window, the first run has a rejection by the cap and the second has none (`Beside.differs`),
and no later result can make up for that: the lists of results differ in this place for good.

The limiter forgets what has left the window whenever it is asked. With its MONITOR entries, one of the two may be
asked more often than the other, so what relates them is not the lists they keep but what is in the window
(`Spends.count`).
-/
import Pirewall.Firewall.RateCap

namespace Pirewall

open Lib

/-! ## Two budgets, one spent on more than the other -/

namespace RuleCreationRateLimiter

variable {l : RuleCreationRateLimiter} {last now : Time}

/-- The limiter `l` has spent its budget as `l'` has, and on the entries tagged `true` besides. Once there
are such entries `l` is within its cap, which it was when the first of them was admitted. -/
structure Spends (tagged : List (Time × Bool)) (last : Time) (l l' : RuleCreationRateLimiter) : Prop where
  whole : l.Logs (tagged.map Prod.fst) last
  rest : l'.Logs ((tagged.filter fun e => !e.2).map Prod.fst) last
  window : l'.windowSeconds = l.windowSeconds
  cap : l'.maxPerWindow = l.maxPerWindow
  capped : (tagged.any fun e => e.2) = true → l.timestamps.length ≤ l.maxPerWindow

/-- The times of the tagged entries. -/
def taggedTimes (tagged : List (Time × Bool)) : List Time := (tagged.filter fun e => e.2).map Prod.fst

/-- Entries of either tag. -/
theorem length_filter_tagged (tagged : List (Time × Bool)) (p : Time → Bool) :
    ((tagged.map Prod.fst).filter p).length =
      (((tagged.filter fun e => !e.2).map Prod.fst).filter p).length + ((taggedTimes tagged).filter p).length := by
  induction tagged with
  | nil => rfl
  | cons e tagged ih =>
    obtain ⟨t, tag⟩ := e
    unfold taggedTimes at ih ⊢
    cases tag <;> cases hp : p t <;> simp [hp, ih] <;> omega

namespace Spends

variable {l' : RuleCreationRateLimiter} {tagged : List (Time × Bool)}

/-- The two counts differ by the tagged entries in the window. -/
theorem count (h : Spends tagged last l l') (hle : last ≤ now) :
    (l.prune now).timestamps.length = (l'.prune now).timestamps.length +
      ((taggedTimes tagged).filter fun t => decide (now - seconds l.windowSeconds ≤ t)).length := by
  rw [h.whole.pruned hle, h.rest.pruned hle, h.window]
  exact length_filter_tagged tagged _

/-- Forgetting makes no list longer. -/
theorem prune_length_le (l : RuleCreationRateLimiter) (now : Time) :
    (l.prune now).timestamps.length ≤ l.timestamps.length :=
  (List.dropWhile_sublist _).length_le

/-- A limiter that has room has room after it has forgotten what is past. -/
theorem wouldAllow_prune (h : (l.wouldAllow now).1 = true) : ((l.prune now).wouldAllow now).1 = true :=
  decide_eq_true (lt_of_le_of_lt (prune_length_le (l.prune now) now) (of_decide_eq_true h))

/-- Only the first limiter is asked. -/
theorem pruneLeft (h : Spends tagged last l l') (hle : last ≤ now) : Spends tagged now (l.prune now) l' where
  whole := h.whole.prune hle
  rest := h.rest.mono hle
  window := h.window
  cap := h.cap
  capped := fun htag => (prune_length_le l now).trans (h.capped htag)

/-- Both are asked. -/
theorem prune (h : Spends tagged last l l') (hle : last ≤ now) :
    Spends tagged now (l.prune now) (l'.prune now) where
  whole := h.whole.prune hle
  rest := h.rest.prune hle
  window := h.window
  cap := h.cap
  capped := fun htag => (prune_length_le l now).trans (h.capped htag)

/-- Time goes on. -/
theorem mono (h : Spends tagged last l l') (hle : last ≤ now) : Spends tagged now l l' :=
  ⟨h.whole.mono hle, h.rest.mono hle, h.window, h.cap, h.capped⟩

/-- A unit that there was room for fits. -/
theorem record_length_le {l : RuleCreationRateLimiter} (hroom : (l.wouldAllow now).1 = true) :
    (l.record now).timestamps.length ≤ l.maxPerWindow := by
  have hlt : (l.prune now).timestamps.length < l.maxPerWindow := of_decide_eq_true hroom
  show ((l.prune now).timestamps ++ [now]).length ≤ l.maxPerWindow
  rw [List.length_append, List.length_singleton]
  exact hlt

/-- Both limiters spend a unit. -/
theorem record (h : Spends tagged last l l') (hle : last ≤ now) (hroom : (l.wouldAllow now).1 = true) :
    Spends (tagged ++ [(now, false)]) now (l.record now) (l'.record now) where
  whole := by
    rw [List.map_append]
    exact h.whole.record hle
  rest := by
    rw [List.filter_append, List.map_append]
    exact h.rest.record hle
  window := h.window
  cap := h.cap
  capped := fun _ => record_length_le hroom

/-- Only the first spends one. -/
theorem recordLeft (h : Spends tagged last l l') (hle : last ≤ now) (hroom : (l.wouldAllow now).1 = true) :
    Spends (tagged ++ [(now, true)]) now (l.record now) l' where
  whole := by
    rw [List.map_append]
    exact h.whole.record hle
  rest := by
    rw [List.filter_append]
    show l'.Logs ((tagged.filter _ ++ []).map Prod.fst) now
    rw [List.append_nil]
    exact h.rest.mono hle
  window := h.window
  cap := h.cap
  capped := fun _ => record_length_le hroom

/-- The two limiters give one answer exactly when the first has room or no tagged entry is in the window. -/
theorem wouldAllow_eq_iff (h : Spends tagged last l l') (hle : last ≤ now) :
    (l'.wouldAllow now).1 = (l.wouldAllow now).1 ↔
      (l.wouldAllow now).1 = true ∨ ∀ t ∈ taggedTimes tagged, t < now - seconds l.windowSeconds := by
  have hcount := h.count hle
  have hcap := h.cap
  have hanswer : (l.wouldAllow now).1 = decide ((l.prune now).timestamps.length < l.maxPerWindow) := rfl
  have hanswer' : (l'.wouldAllow now).1 = decide ((l'.prune now).timestamps.length < l'.maxPerWindow) := rfl
  have hnone : ((taggedTimes tagged).filter fun t => decide (now - seconds l.windowSeconds ≤ t)).length = 0 ↔
      ∀ t ∈ taggedTimes tagged, t < now - seconds l.windowSeconds := by
    rw [List.length_eq_zero_iff, List.filter_eq_nil_iff]
    simp only [decide_eq_true_eq, not_le]
  rw [← hnone, hanswer, hanswer', hcap, decide_eq_decide, decide_eq_true_eq]
  by_cases htag : (tagged.any fun e => e.2) = true
  · have hwithin := (prune_length_le l now).trans (h.capped htag)
    omega
  · have hempty : taggedTimes tagged = [] := by
      unfold taggedTimes
      rw [List.map_eq_nil_iff, List.filter_eq_nil_iff]
      intro e he htrue
      exact htag (List.any_eq_true.mpr ⟨e, he, htrue⟩)
    rw [hempty] at hcount ⊢
    rw [List.filter_nil, List.length_nil, Nat.add_zero] at hcount
    exact ⟨fun _ => .inr rfl, fun _ => by rw [hcount]⟩

end Spends

end RuleCreationRateLimiter

namespace FirewallManager

/-! ## Two managers side by side -/

/-- `m'` is `m` without the rules of `ids`, which are MONITOR rules. -/
structure Alongside (ids : List String) (m m' : FirewallManager) : Prop where
  config : m'.config = m.config
  sets : m'.sets = m.sets
  decisions : m'.knownDecisionIds = m.knownDecisionIds
  mode : m'.enforcementMode = m.enforcementMode
  allowlist : m'.allowlist = m.allowlist
  rules : m'.rules = m.rules.filter fun id _ => decide (id ∉ ids)
  targets : m'.targets = m.targets.filter fun id _ => decide (id ∉ ids)
  monitors : ∀ id ∈ ids, ∀ rule, m.rules.get? id = some rule → rule.action = .monitor
  keyed : Keyed m

variable {ids : List String} {m m' : FirewallManager}

/-- Rules other than the MONITORs are filed alike. -/
theorem Alongside.get?_rules (h : Alongside ids m m') {id : String} (hid : id ∉ ids) :
    m'.rules.get? id = m.rules.get? id := by
  rw [h.rules, Dict.get?_filter]
  cases m.rules.get? id with
  | none => rfl
  | some rule => rw [Option.filter_some, if_pos (decide_eq_true hid)]

/-- And so are their targets. -/
theorem Alongside.get?_targets (h : Alongside ids m m') {id : String} (hid : id ∉ ids) :
    m'.targets.get? id = m.targets.get? id := by
  rw [h.targets, Dict.get?_filter]
  cases m.targets.get? id with
  | none => rfl
  | some target => rw [Option.filter_some, if_pos (decide_eq_true hid)]

/-- Filing a rule of neither list in both managers. -/
theorem Alongside.setRule (h : Alongside ids m m') (rule : FirewallRule) (hid : rule.id ∉ ids) :
    Alongside ids (m.setRule rule.id rule) (m'.setRule rule.id rule) where
  config := h.config
  sets := h.sets
  decisions := h.decisions
  mode := h.mode
  allowlist := h.allowlist
  rules := by
    show m'.rules.set rule.id rule = (m.rules.set rule.id rule).filter fun id _ => decide (id ∉ ids)
    rw [Dict.filter_set_of_pos (p := fun id => decide (id ∉ ids)) (decide_eq_true hid), h.rules]
  targets := h.targets
  monitors := by
    intro id' hid' rule' hget
    rw [FirewallManager.setRule, Dict.get?_set, if_neg] at hget
    · exact h.monitors id' hid' rule' hget
    · rintro rfl
      exact hid hid'
  keyed := by
    intro id' rule' hget
    rw [FirewallManager.setRule, Dict.get?_set] at hget
    split at hget
    · rename_i heq
      obtain rfl := Option.some.inj hget
      exact heq.symm
    · exact h.keyed id' rule' hget

theorem Alongside.withSets (h : Alongside ids m m') (sets : Option FakeSetBackend) :
    Alongside ids { m with sets } { m' with sets } :=
  ⟨h.config, rfl, h.decisions, h.mode, h.allowlist, h.rules, h.targets, h.monitors, h.keyed⟩

theorem Alongside.withLimiters (h : Alongside ids m m') (l l' : RuleCreationRateLimiter) :
    Alongside ids { m with rateLimiter := l } { m' with rateLimiter := l' } :=
  ⟨h.config, h.sets, h.decisions, h.mode, h.allowlist, h.rules, h.targets, h.monitors, h.keyed⟩

theorem Alongside.record (h : Alongside ids m m') (ruleId : String) (fromStatus : Option RuleStatus)
    (toStatus : RuleStatus) (atTime : Time) (reason : String) :
    Alongside ids (m.record ruleId fromStatus toStatus atTime reason)
      (m'.record ruleId fromStatus toStatus atTime reason) :=
  ⟨h.config, h.sets, h.decisions, h.mode, h.allowlist, h.rules, h.targets, h.monitors, h.keyed⟩

theorem Alongside.supersede (h : Alongside ids m m') {replaced : Option FirewallRule}
    (hreplaced : ∀ old ∈ replaced, old.id ∉ ids) (ruleId : String) (now : Time) :
    Alongside ids (m.supersede replaced ruleId now) (m'.supersede replaced ruleId now) := by
  cases replaced with
  | none => exact h
  | some old => exact (h.setRule { old with status := .removed } (hreplaced old rfl)).record _ _ _ _ _

/-- The same deployment in both managers: one result, and they stay side by side. -/
theorem Alongside.deployToSets (h : Alongside ids m m') (sets : FakeSetBackend) (rule : FirewallRule)
    (hid : rule.id ∉ ids) (now : Time) {upgradeOf : Option String} (hup : ∀ id ∈ upgradeOf, id ∉ ids) :
    (m'.deployToSets sets rule now upgradeOf).1 = (m.deployToSets sets rule now upgradeOf).1 ∧
      Alongside ids (m.deployToSets sets rule now upgradeOf).2 (m'.deployToSets sets rule now upgradeOf).2 := by
  have hsuperseded : upgradeOf.bind m'.rules.get? = upgradeOf.bind m.rules.get? := by
    cases upgradeOf with
    | none => rfl
    | some id => exact h.get?_rules (hup id rfl)
  have hreplaced : ∀ old ∈ (upgradeOf.bind m.rules.get?).filter (fun old => old.status == .active),
      old.id ∉ ids := by
    intro old hold
    obtain ⟨id, hid', hget⟩ := Option.bind_eq_some_iff.mp (Option.filter_eq_some_iff.mp hold).1
    rw [h.keyed id old hget]
    exact hup id hid'
  have hmaxTtl : m'.config.policy.maxTtlSeconds = m.config.policy.maxTtlSeconds := by rw [h.config]
  unfold FirewallManager.deployToSets
  rw [h.get?_targets hid, hsuperseded, hmaxTtl]
  split
  · exact ⟨rfl, h⟩
  · dsimp only
    split
    · exact ⟨rfl, h⟩
    · split
      · exact ⟨rfl, ((h.withSets _).setRule { rule with status := .rejected } hid).record _ _ _ _ _⟩
      · exact ⟨rfl, ((((h.withSets _).supersede hreplaced _ _).setRule (rule.activated now _) hid).record
          _ _ _ _ _).record _ _ _ _ _⟩

/-! ## The chain does not see MONITOR rules -/

section Chain

variable {candidate : CandidateRule} {target : RuleTarget} {active : List ActiveTarget}
  {p : ActiveTarget → Bool}

/-- The conflict stage passes over MONITOR rules. -/
theorem validateSetConflict_filter (haction : candidate.action ≠ .monitor)
    (hdropped : ∀ entry ∈ active, p entry = false → entry.rule.action = .monitor) (upgradeOf : List String) :
    validateSetConflict candidate target upgradeOf (active.filter p) =
      validateSetConflict candidate target upgradeOf active := by
  induction active generalizing upgradeOf with
  | nil => rfl
  | cons entry active ih =>
    rw [List.forall_mem_cons] at hdropped
    cases hp : p entry with
    | true =>
      rw [List.filter_cons_of_pos hp]
      unfold validateSetConflict
      rw [ih hdropped.2, ih hdropped.2]
    | false =>
      have hmonitor := hdropped.1 hp
      rw [List.filter_cons_of_neg (by simp [hp]), ih hdropped.2]
      conv_rhs => unfold validateSetConflict
      simp [hmonitor, Ne.symm haction]

/-- A test that every dropped entry fails. -/
theorem any_filter_of_dropped {q : ActiveTarget → Bool}
    (h : ∀ entry ∈ active, p entry = false → q entry = false) : (active.filter p).any q = active.any q := by
  rw [Bool.eq_iff_iff, List.any_eq_true, List.any_eq_true]
  constructor
  · rintro ⟨entry, hmem, hq⟩
    exact ⟨entry, List.mem_of_mem_filter hmem, hq⟩
  · rintro ⟨entry, hmem, hq⟩
    cases hp : p entry with
    | true => exact ⟨entry, List.mem_filter.mpr ⟨hmem, hp⟩, hq⟩
    | false => exact absurd hq (by simp [h entry hmem hp])

/-- The duplicate stage compares rules of one action. -/
theorem validateSetDuplicate_filter (haction : candidate.action ≠ .monitor)
    (hdropped : ∀ entry ∈ active, p entry = false → entry.rule.action = .monitor) :
    validateSetDuplicate candidate target (active.filter p) = validateSetDuplicate candidate target active := by
  unfold validateSetDuplicate
  rw [any_filter_of_dropped]
  intro entry hmem hp
  simp [hdropped entry hmem hp, Ne.symm haction]

/-- The escalation stage looks at what would be superseded, and no MONITOR ever is. -/
theorem validateEscalation_filter {upgradeOf : List String}
    (hdropped : ∀ entry ∈ active, p entry = false → entry.rule.id ∉ upgradeOf) :
    validateEscalation candidate (active.filter p) upgradeOf = validateEscalation candidate active upgradeOf := by
  unfold validateEscalation
  rw [any_filter_of_dropped]
  intro entry hmem hp
  simp [hdropped entry hmem hp]

end Chain

/-- The entries of the second manager are those of the first without the MONITORs. -/
theorem Alongside.activeTargets (h : Alongside ids m m') :
    m'.activeTargets = m.activeTargets.filter fun entry => decide (entry.rule.id ∉ ids) := by
  have hvalues : m'.rules.values = m.rules.values.filter fun rule => decide (rule.id ∉ ids) := by
    rw [h.rules]
    show (m.rules.entries.filter fun e => decide (e.1 ∉ ids)).map Prod.snd =
      (m.rules.entries.map Prod.snd).filter fun rule => decide (rule.id ∉ ids)
    rw [List.filter_map]
    refine congrArg _ (List.filter_congr ?_)
    intro e he
    show decide (e.1 ∉ ids) = decide (e.2.id ∉ ids)
    rw [h.keyed e.1 e.2 (Dict.mem_entries_iff.mp he)]
  unfold FirewallManager.activeTargets FirewallManager.activeRules
  rw [hvalues, List.filter_filterMap, List.filterMap_filter, List.filterMap_filter, List.filterMap_filter]
  refine List.filterMap_congr ?_
  intro rule _
  by_cases hid : rule.id ∈ ids
  · cases m.targets.get? rule.id with
    | none => simp [hid]
    | some target => simp [hid, Option.filter_some]
  · rw [h.get?_targets hid]
    cases m.targets.get? rule.id with
    | none => simp [hid]
    | some target => simp [hid, Option.filter_some]

/-- What only the first has is a MONITOR. -/
theorem Alongside.monitor (h : Alongside ids m m') {entry : ActiveTarget} (hmem : entry ∈ m.activeTargets)
    (hid : entry.rule.id ∈ ids) : entry.rule.action = .monitor :=
  h.monitors _ hid _ ((mem_activeTargets h.keyed).mp hmem).1

/-! ## One verdict -/

theorem Alongside.targetFor (h : Alongside ids m m') (env : Env) (rule : RuleFields) :
    m'.targetFor env rule = m.targetFor env rule := by
  unfold FirewallManager.targetFor
  rw [h.config]

/-- Up to the cap both chains answer a candidate alike. -/
theorem Alongside.stagesBeforeCap (h : Alongside ids m m') (env : Env) {candidate : CandidateRule}
    (haction : candidate.action ≠ .monitor) (target : RuleTarget) :
    m'.stagesBeforeCap env candidate target = m.stagesBeforeCap env candidate target := by
  unfold FirewallManager.stagesBeforeCap
  have hdropped : ∀ entry ∈ m.activeTargets, decide (entry.rule.id ∉ ids) = false →
      entry.rule.action = .monitor := by
    intro entry hmem hid
    exact h.monitor hmem (by simpa using hid)
  rw [h.activeTargets, h.allowlist, h.config, validateSetConflict_filter haction hdropped,
    validateSetDuplicate_filter haction hdropped]

/-- And after it. -/
theorem Alongside.stagesAfterCap (h : Alongside ids m m') (env : Env) {candidate : CandidateRule}
    (haction : candidate.action ≠ .monitor) (target : RuleTarget) :
    m'.stagesAfterCap env candidate target = m.stagesAfterCap env candidate target := by
  unfold FirewallManager.stagesAfterCap
  have hdropped : ∀ entry ∈ m.activeTargets, decide (entry.rule.id ∉ ids) = false →
      entry.rule.action = .monitor := by
    intro entry hmem hid
    exact h.monitor hmem (by simpa using hid)
  rw [h.activeTargets, h.config, h.decisions, validateSetConflict_filter haction hdropped,
    validateEscalation_filter]
  -- a RATE_LIMIT to upgrade is no MONITOR
  intro entry hmem hid hup
  rcases validateSetConflict_upgrades (Prod.ext rfl rfl) _ hup with hnil | ⟨_, other, hother, heq, hrate, _⟩
  · exact absurd hnil List.not_mem_nil
  · have hsame : other.rule = entry.rule := by
      have hgetOther := ((mem_activeTargets h.keyed).mp hother).1
      rw [heq, ((mem_activeTargets h.keyed).mp hmem).1] at hgetOther
      exact (Option.some.inj hgetOther).symm
    rw [hsame, hdropped entry hmem hid] at hrate
    exact absurd hrate (by simp)

/-- Both managers give a candidate other than a MONITOR one verdict, unless it asks for a budget that only
one of them has left. -/
theorem Alongside.verdict (h : Alongside ids m m') (env : Env) {candidate : CandidateRule}
    (haction : candidate.action ≠ .monitor)
    (hcap : m.asksCap env candidate = true →
      (m'.rateLimiter.wouldAllow env.now).1 = (m.rateLimiter.wouldAllow env.now).1) :
    (m'.verdict env candidate).1 = (m.verdict env candidate).1 ∧
      (((m.verdict env candidate).2 = m.rateLimiter ∧ (m'.verdict env candidate).2 = m'.rateLimiter) ∨
       ((m.verdict env candidate).2 = m.rateLimiter.prune env.now ∧
         (m'.verdict env candidate).2 = m'.rateLimiter.prune env.now)) := by
  have htargets := h.targetFor env candidate.toRuleFields
  cases htarget : m.targetFor env candidate.toRuleFields with
  | none =>
    rw [verdict_none env htarget, verdict_none env (htargets.trans htarget)]
    exact ⟨rfl, .inl ⟨rfl, rfl⟩⟩
  | some target =>
    have hconflict : validateSetConflict candidate target [] m'.activeTargets =
        validateSetConflict candidate target [] m.activeTargets := by
      rw [h.activeTargets, validateSetConflict_filter haction]
      intro entry hmem hid
      exact h.monitor hmem (by simpa using hid)
    rw [verdict_some env htarget, verdict_some env (htargets.trans htarget),
      h.stagesBeforeCap env haction, h.stagesAfterCap env haction, hconflict]
    unfold asksCap at hcap
    rw [htarget, Option.any_some] at hcap
    cases hbefore : firstRejection (m.stagesBeforeCap env candidate target) with
    | some rejection => exact ⟨rfl, .inl ⟨rfl, rfl⟩⟩
    | none =>
      rw [hcap (by rw [hbefore]; rfl)]
      exact ⟨rfl, .inr ⟨rfl, rfl⟩⟩

/-! ## Deployments -/

/-- A MONITOR goes into force without a word to the kernel. -/
theorem deployToSets_monitor (sets : FakeSetBackend) (rule : FirewallRule) {target : RuleTarget}
    (hfiled : m.targets.get? rule.id = some target) (haction : rule.action = .monitor) (now : Time) :
    ∃ transitions, (m.deployToSets sets rule now none).2 = { m with
      sets := some sets
      rules := m.rules.set rule.id (rule.activated now rule.metadata)
      transitions } := by
  have haddition : elementAddition rule target now m.config.policy.maxTtlSeconds = .ok ([], rule.metadata) := by
    unfold elementAddition
    rw [haction]
    rfl
  unfold deployToSets
  rw [hfiled]
  dsimp only
  rw [haddition]
  exact ⟨_, rfl⟩

/-- Whatever a deployment comes to, its result names the rule; a refusal of the chain names none. -/
theorem deployToSets_ne_rejection (m : FirewallManager) (sets : FakeSetBackend) (rule : FirewallRule)
    (now : Time) (upgradeOf : Option String) (candidate : CandidateRule) (reason : String) :
    (m.deployToSets sets rule now upgradeOf).1 ≠ .ok (rejection candidate now reason) := by
  unfold deployToSets
  split
  · simp
  · dsimp only
    split
    · simp
    · split
      · simp [deployFailed, rejection]
      · simp [deployed, rejection]

/-! ## The two runs -/

/-- The results of a sequence of submissions, each with its candidate. -/
def submissions (m : FirewallManager) :
    List (Env × CandidateRule) → List (CandidateRule × Except String SubmissionResult)
  | [] => []
  | (env, candidate) :: calls =>
    (candidate, (m.submitCandidate env candidate).1) ::
      submissions (m.submitCandidate env candidate).2 calls

/-- One submission, keeping the times at which MONITOR candidates were admitted. -/
def crowdStep (s : FirewallManager × List Time) (call : Env × CandidateRule) : FirewallManager × List Time :=
  ((s.1.submitCandidate call.1 call.2).2,
   if call.2.action = .monitor ∧ (s.1.verdict call.1 call.2).1.isOk = true then s.2 ++ [call.1.now] else s.2)

/-- A candidate that is no MONITOR and gets to the rate cap finds room there, or no MONITOR in the window. -/
def RoomFor (s : FirewallManager × List Time) (call : Env × CandidateRule) : Prop :=
  call.2.action ≠ .monitor → s.1.asksCap call.1 call.2 = true →
    (s.1.rateLimiter.wouldAllow call.1.now).1 = true ∨
      ∀ t ∈ s.2, t < call.1.now - seconds s.1.rateLimiter.windowSeconds

/-- The two runs at one point: the managers side by side, their budgets spent alike but for MONITOR. -/
structure Beside (ids : List String) (tagged : List (Time × Bool)) (last : Time) (m m' : FirewallManager) :
    Prop where
  alongside : Alongside ids m m'
  spends : RuleCreationRateLimiter.Spends tagged last m.rateLimiter m'.rateLimiter
  mode : m.enforcementMode = .active
  path : m.sets.isSome = true

section Runs

open RuleCreationRateLimiter (taggedTimes)

variable {tagged : List (Time × Bool)} {last : Time} {env : Env} {candidate : CandidateRule}

theorem taggedTimes_append (tagged : List (Time × Bool)) (now : Time) (tag : Bool) :
    taggedTimes (tagged ++ [(now, tag)]) = taggedTimes tagged ++ if tag then [now] else [] := by
  unfold RuleCreationRateLimiter.taggedTimes
  rw [List.filter_append, List.map_append]
  cases tag <;> rfl

/-- Filing an admitted candidate in both managers. -/
theorem Alongside.admitted (h : Alongside ids m m') (env : Env) {candidate : CandidateRule}
    (hid : candidate.id ∉ ids) (target : RuleTarget) :
    Alongside ids (m.admitted env candidate target) (m'.admitted env candidate target) where
  config := h.config
  sets := h.sets
  decisions := h.decisions
  mode := h.mode
  allowlist := h.allowlist
  rules := h.rules
  targets := by
    show m'.targets.set candidate.id target =
      (m.targets.set candidate.id target).filter fun id _ => decide (id ∉ ids)
    rw [Dict.filter_set_of_pos (p := fun id => decide (id ∉ ids)) (decide_eq_true hid), h.targets]
  monitors := h.monitors
  keyed := h.keyed

/-- A MONITOR of `ids` goes into force in the first manager only. -/
theorem Alongside.admitMonitor (h : Alongside ids m m') (rule : FirewallRule) (hid : rule.id ∈ ids)
    (haction : rule.action = .monitor) (target : RuleTarget) (limiter : RuleCreationRateLimiter)
    (transitions : List RuleTransition) :
    Alongside ids { m with
      rateLimiter := limiter
      targets := m.targets.set rule.id target
      rules := m.rules.set rule.id rule
      transitions } m' where
  config := h.config
  sets := h.sets
  decisions := h.decisions
  mode := h.mode
  allowlist := h.allowlist
  rules := by
    rw [Dict.filter_set_of_neg (p := fun id => decide (id ∉ ids)) (by simpa using hid)]
    exact h.rules
  targets := by
    rw [Dict.filter_set_of_neg (p := fun id => decide (id ∉ ids)) (by simpa using hid)]
    exact h.targets
  monitors := by
    intro id' hid' rule' hget
    rw [Dict.get?_set] at hget
    split at hget
    · obtain rfl := Option.some.inj hget
      exact haction
    · exact h.monitors id' hid' rule' hget
  keyed := keyed_set h.keyed rfl

/-- With sets loaded a submission takes the set path. -/
theorem submitCandidate_of_sets {b : FakeSetBackend} (hsets : m.sets = some b) (env : Env)
    (candidate : CandidateRule) : m.submitCandidate env candidate = m.submitToSets env b candidate := by
  unfold submitCandidate
  rw [hsets]

/-- A MONITOR submitted to the first manager only. -/
theorem Beside.monitor (h : Beside ids tagged last m m') (hle : last ≤ env.now)
    (haction : candidate.action = .monitor) (hid : candidate.id ∈ ids) :
    ∃ tagged', taggedTimes tagged' = (crowdStep (m, taggedTimes tagged) (env, candidate)).2 ∧
      Beside ids tagged' env.now (m.submitCandidate env candidate).2 m' := by
  obtain ⟨b, hb⟩ := Option.isSome_iff_exists.mp h.path
  unfold crowdStep
  rw [submitCandidate_of_sets hb]
  cases hverdict : (m.verdict env candidate).1 with
  | error r =>
    refine ⟨tagged, ?_, ?_⟩
    · simp [Except.isOk, Except.toBool]
    · rw [submitToSets_error b hverdict]
      refine ⟨h.alongside.withLimiters _ m'.rateLimiter, ?_, h.mode, h.path⟩
      cases htarget : m.targetFor env candidate.toRuleFields with
      | none =>
        rw [verdict_none env htarget]
        exact h.spends.mono hle
      | some target =>
        rw [verdict_some env htarget]
        split
        · exact h.spends.mono hle
        · exact h.spends.pruneLeft hle
  | ok upgradeOf =>
    obtain ⟨⟨target, htarget, hadmitted⟩, _, hroom, _⟩ := verdict_ok hverdict
    refine ⟨tagged ++ [(env.now, true)], ?_, ?_⟩
    · rw [taggedTimes_append]
      simp [haction, Except.isOk, Except.toBool]
    · have hnone : upgradeOf = none := by
        cases upgradeOf with
        | none => rfl
        | some id => exact absurd ((hadmitted.upgrade id rfl).1.symm.trans haction) (by simp)
      rw [submitToSets_ok h.mode b hverdict htarget, hnone]
      obtain ⟨transitions, heq⟩ := deployToSets_monitor (m := m.admitted env candidate target) b
        (candidate.toRule (assignPriority candidate.threatScore) (some target)
          (targetFor_source htarget))
        ((Dict.get?_set _ _ _ _).trans (if_pos rfl)) haction env.now
      rw [heq]
      have hfiled := h.alongside.admitMonitor ((candidate.toRule
        (assignPriority candidate.threatScore) (some target) (targetFor_source htarget)).activated env.now
        candidate.metadata)
        hid haction target ((m.rateLimiter.prune env.now).record env.now) transitions
      exact ⟨⟨hfiled.config, h.alongside.sets.trans hb, hfiled.decisions, hfiled.mode, hfiled.allowlist,
        hfiled.rules, hfiled.targets, hfiled.monitors, hfiled.keyed⟩,
        (h.spends.pruneLeft hle).recordLeft le_rfl (RuleCreationRateLimiter.Spends.wouldAllow_prune hroom),
        h.mode, rfl⟩

/-- Any other candidate, submitted to both, that finds room or no MONITOR in its way. -/
theorem Beside.other (h : Beside ids tagged last m m') (hle : last ≤ env.now)
    (haction : candidate.action ≠ .monitor) (hid : candidate.id ∉ ids)
    (hroom : RoomFor (m, taggedTimes tagged) (env, candidate)) :
    (m'.submitCandidate env candidate).1 = (m.submitCandidate env candidate).1 ∧
      ∃ tagged', taggedTimes tagged' = (crowdStep (m, taggedTimes tagged) (env, candidate)).2 ∧
        Beside ids tagged' env.now (m.submitCandidate env candidate).2
          (m'.submitCandidate env candidate).2 := by
  obtain ⟨b, hb⟩ := Option.isSome_iff_exists.mp h.path
  obtain ⟨hsame, hlimiters⟩ := h.alongside.verdict env haction fun hasks =>
    (h.spends.wouldAllow_eq_iff hle).mpr (hroom haction hasks)
  have hstep : (crowdStep (m, taggedTimes tagged) (env, candidate)).2 = taggedTimes tagged :=
    if_neg fun hmonitor => haction hmonitor.1
  rw [hstep, submitCandidate_of_sets hb, submitCandidate_of_sets (h.alongside.sets.trans hb)]
  cases hverdict : (m.verdict env candidate).1 with
  | error r =>
    rw [submitToSets_error b hverdict, submitToSets_error b (hsame.trans hverdict)]
    refine ⟨rfl, tagged, rfl, h.alongside.withLimiters _ _, ?_, h.mode, h.path⟩
    rcases hlimiters with ⟨hl, hl'⟩ | ⟨hl, hl'⟩
    · rw [hl, hl']
      exact h.spends.mono hle
    · rw [hl, hl']
      exact h.spends.prune hle
  | ok upgradeOf =>
    obtain ⟨⟨target, htarget, hadmitted⟩, _, hallowed, _⟩ := verdict_ok hverdict
    have hup : ∀ id ∈ upgradeOf, id ∉ ids := by
      intro id hmem hin
      obtain ⟨_, entry, hentry, rfl, hrate, _⟩ := hadmitted.upgrade id hmem
      exact absurd (hrate.symm.trans (h.alongside.monitor hentry hin)) (by simp)
    rw [submitToSets_ok h.mode b hverdict htarget, submitToSets_ok (h.alongside.mode.trans h.mode) b
      (hsame.trans hverdict) ((h.alongside.targetFor env _).trans htarget)]
    obtain ⟨hresult, hnext⟩ := (h.alongside.admitted env hid target).deployToSets b
      (candidate.toRule (assignPriority candidate.threatScore) (some target)
        (targetFor_source htarget)) hid env.now hup
    refine ⟨hresult, tagged ++ [(env.now, false)], ?_, hnext, ?_, ?_, ?_⟩
    · rw [taggedTimes_append]
      exact List.append_nil _
    · rw [((m.admitted env candidate target).deployToSets_frame b _ env.now upgradeOf h.path).1,
        ((m'.admitted env candidate target).deployToSets_frame b _ env.now upgradeOf
          ((congrArg Option.isSome h.alongside.sets).trans h.path)).1]
      exact (h.spends.prune hle).record le_rfl (RuleCreationRateLimiter.Spends.wouldAllow_prune hallowed)
    · rw [((m.admitted env candidate target).deployToSets_frame b _ env.now upgradeOf h.path).2.1]
      exact h.mode
    · exact ((m.admitted env candidate target).deployToSets_frame b _ env.now upgradeOf h.path).2.2

/-- A rejection after the cap reads otherwise than one by the cap. -/
theorem rejectionText_ne_rateCap {rejection : ValidationRejection}
    (h : rejection.stage = "escalation" ∨ rejection.stage = "expiration" ∨ rejection.stage = "authorization") :
    rejectionText rejection ≠ rejectionText ⟨"rate_cap", .rateLimited⟩ := by
  obtain ⟨stage, reason⟩ := rejection
  rcases h with rfl | rfl | rfl <;> cases reason <;> decide

/-- A rejection names one of the stages. -/
theorem firstRejection_stage {stages : List (String × Option RuleRejectionReason)} {r : ValidationRejection}
    (h : firstRejection stages = some r) : r.stage ∈ stages.map Prod.fst := by
  induction stages with
  | nil => exact absurd h (by simp [firstRejection])
  | cons stage stages ih =>
    obtain ⟨name, reason⟩ := stage
    cases reason with
    | none => exact List.mem_cons_of_mem _ (ih h)
    | some reason =>
      obtain rfl := Option.some.inj h
      exact List.mem_cons_self

/-- Where the cap is reached with a MONITOR in the window, the candidate is turned away by the cap in the
first run and not in the second. -/
theorem Beside.differs (h : Beside ids tagged last m m') (hle : last ≤ env.now)
    (haction : candidate.action ≠ .monitor)
    (hroom : ¬ RoomFor (m, taggedTimes tagged) (env, candidate)) :
    (m'.submitCandidate env candidate).1 ≠ (m.submitCandidate env candidate).1 := by
  obtain ⟨b, hb⟩ := Option.isSome_iff_exists.mp h.path
  obtain ⟨_, hroom⟩ := Classical.not_imp.mp hroom
  obtain ⟨hasks, hcrowded⟩ := Classical.not_imp.mp hroom
  have hfull : ¬ (m.rateLimiter.wouldAllow env.now).1 = true := fun hallow => hcrowded (.inl hallow)
  have hallow' : (m'.rateLimiter.wouldAllow env.now).1 = true := by
    by_contra hfull'
    refine hcrowded ((h.spends.wouldAllow_eq_iff hle).mp ?_)
    rw [Bool.eq_false_iff.mpr hfull, Bool.eq_false_iff.mpr hfull']
  obtain ⟨target, htarget, hbefore⟩ := (Option.any_eq_true _ _).mp hasks
  rw [Option.isNone_iff_eq_none] at hbefore
  have hverdict : (m.verdict env candidate).1 = .error ⟨"rate_cap", .rateLimited⟩ := by
    rw [verdict_some env htarget, hbefore, if_neg hfull]
    rfl
  have htarget' := (h.alongside.targetFor env candidate.toRuleFields).trans htarget
  rw [submitCandidate_of_sets hb, submitCandidate_of_sets (h.alongside.sets.trans hb),
    submitToSets_error b hverdict]
  cases hverdict' : (m'.verdict env candidate).1 with
  | error r =>
    rw [submitToSets_error b hverdict']
    rw [verdict_some env htarget', h.alongside.stagesBeforeCap env haction, hbefore, if_pos hallow'] at hverdict'
    have hstage : r.stage = "escalation" ∨ r.stage = "expiration" ∨ r.stage = "authorization" := by
      dsimp only at hverdict'
      split at hverdict'
      · rename_i r' hr'
        obtain rfl := Except.error.inj hverdict'
        have hmem : r'.stage ∈ (m'.stagesAfterCap env candidate target).map Prod.fst :=
          firstRejection_stage hr'
        simpa [FirewallManager.stagesAfterCap] using hmem
      · exact absurd hverdict' (by simp)
    intro heq
    refine rejectionText_ne_rateCap hstage ?_
    simpa [rejection] using heq
  | ok upgradeOf =>
    rw [submitToSets_ok (h.alongside.mode.trans h.mode) b hverdict' htarget']
    exact deployToSets_ne_rejection _ _ _ _ _ _ _

/-- With and without the MONITOR candidates, from two managers side by side. -/
theorem Beside.submissions_iff {calls : List (Env × CandidateRule)}
    (htimes : (calls.map fun call => call.1.now).Pairwise (· ≤ ·))
    (hids : ∀ call ∈ calls, call.2.action = .monitor ↔ call.2.id ∈ ids)
    (h : Beside ids tagged last m m') (hle : ∀ call ∈ calls, last ≤ call.1.now) :
    m'.submissions (calls.filter fun call => decide (call.2.action ≠ .monitor)) =
        (m.submissions calls).filter (fun result => decide (result.1.action ≠ .monitor)) ↔
      Along crowdStep RoomFor (m, taggedTimes tagged) calls := by
  induction calls generalizing m m' tagged last with
  | nil => exact ⟨fun _ => trivial, fun _ => rfl⟩
  | cons call calls ih =>
    obtain ⟨env, candidate⟩ := call
    rw [List.map_cons, List.pairwise_cons] at htimes
    rw [List.forall_mem_cons] at hids hle
    have hlater : ∀ call ∈ calls, env.now ≤ call.1.now := fun call hcall =>
      htimes.1 _ (List.mem_map_of_mem hcall)
    show _ ↔ RoomFor _ _ ∧ Along crowdStep RoomFor _ calls
    by_cases haction : candidate.action = .monitor
    · -- dropped from the second run, and from the results of the first
      obtain ⟨tagged', htagged, hnext⟩ := h.monitor hle.1 haction (hids.1.mp haction)
      have hroom : RoomFor (m, taggedTimes tagged) (env, candidate) := fun hother => absurd haction hother
      rw [List.filter_cons_of_neg (by simpa using haction)]
      show _ = List.filter _ ((candidate, _) :: _) ↔ _
      rw [List.filter_cons_of_neg (by simpa using haction), ih htimes.2 hids.2 hnext hlater, htagged]
      exact ⟨fun hrest => ⟨hroom, hrest⟩, fun hboth => hboth.2⟩
    · have hid : candidate.id ∉ ids := fun hmem => haction (hids.1.mpr hmem)
      rw [List.filter_cons_of_pos (by simpa using haction)]
      show (candidate, _) :: _ = List.filter _ ((candidate, _) :: _) ↔ _
      rw [List.filter_cons_of_pos (by simpa using haction), List.cons_eq_cons]
      by_cases hroom : RoomFor (m, taggedTimes tagged) (env, candidate)
      · obtain ⟨hresult, tagged', htagged, hnext⟩ := h.other hle.1 haction hid hroom
        rw [hresult, ih htimes.2 hids.2 hnext hlater, htagged]
        exact ⟨fun hrest => ⟨hroom, hrest.2⟩, fun hboth => ⟨rfl, hboth.2⟩⟩
      · exact ⟨fun heq => absurd (Prod.mk.inj heq.1).2 (h.differs hle.1 haction hroom),
          fun hboth => absurd hboth.1 hroom⟩

/-- A manager beside itself, before any of the ids was submitted. -/
theorem Alongside.self (hkeyed : Keyed m) (hrules : ∀ id ∈ ids, id ∉ m.rules.keys)
    (htargets : ∀ id ∈ ids, id ∉ m.targets.keys) : Alongside ids m m where
  config := rfl
  sets := rfl
  decisions := rfl
  mode := rfl
  allowlist := rfl
  rules := (Dict.filter_eq_self (p := fun id => decide (id ∉ ids)) fun id hid =>
    decide_eq_true fun hmem => hrules id hmem hid).symm
  targets := (Dict.filter_eq_self (p := fun id => decide (id ∉ ids)) fun id hid =>
    decide_eq_true fun hmem => htargets id hmem hid).symm
  monitors := fun id hid rule hget => absurd (Dict.mem_keys_iff.mpr ⟨rule, hget⟩) (hrules id hid)
  keyed := hkeyed

/-- A limiter beside itself, before the first call. -/
theorem spends_self {l : RuleCreationRateLimiter} (hsorted : l.timestamps.Pairwise (· ≤ ·))
    (hle : ∀ t ∈ l.timestamps, t ≤ last) :
    RuleCreationRateLimiter.Spends (l.timestamps.map fun t => (t, false)) last l l where
  whole := by
    rw [List.map_map]
    exact ⟨(List.map_id _).symm ▸ hsorted, (List.map_id _).symm ▸ hle, [], List.map_id _, by simp⟩
  rest := by
    rw [List.filter_eq_self.mpr (by simp), List.map_map]
    exact ⟨(List.map_id _).symm ▸ hsorted, (List.map_id _).symm ▸ hle, [], List.map_id _, by simp⟩
  window := rfl
  cap := rfl
  capped := by simp

end Runs

/-- In ACTIVE mode on the set path, a sequence of submissions has the same results with and without its
MONITOR candidates exactly when each of the others that gets to the rate cap finds room there, or no MONITOR
of the sequence in the window. -/
theorem submissions_without_monitors_iff (config : PirewallConfig) (backend : FakeFirewallBackend)
    (store : Option AllowlistStore) (sets : FakeSetBackend) (earlier : List (Env × ManagerOp))
    (calls : List (Env × CandidateRule)) (m : FirewallManager)
    (hm : m = (init config backend store (some sets)).run earlier)
    (hmode : m.enforcementMode = .active) (hpath : m.sets.isSome = true)
    (htimes : (m.rateLimiter.timestamps ++ calls.map fun call => call.1.now).Pairwise (· ≤ ·))
    (hdistinct : (calls.map fun call => call.2.id).Nodup)
    (hnew : ∀ call ∈ calls, call.2.id ∉ m.rules.keys ∧ call.2.id ∉ m.targets.keys) :
    m.submissions (calls.filter fun call => decide (call.2.action ≠ .monitor)) =
        (m.submissions calls).filter (fun result => decide (result.1.action ≠ .monitor)) ↔
      Along crowdStep RoomFor (m, []) calls := by
  cases calls with
  | nil => exact ⟨fun _ => trivial, fun _ => rfl⟩
  | cons call calls =>
    have hkeyed : Keyed m := hm ▸ run_keyed (keyed_init config backend store (some sets)) earlier
    rw [List.pairwise_append] at htimes
    obtain ⟨hsorted, hcalls, hafter⟩ := htimes
    generalize hall : call :: calls = all at *
    have hmem : call ∈ all := hall ▸ List.mem_cons_self
    have hfirst : ∀ other ∈ all, call.1.now ≤ other.1.now := by
      intro other hother
      rw [← hall] at hcalls hother
      rcases List.mem_cons.mp hother with rfl | hlater
      · exact le_rfl
      · exact (List.pairwise_cons.mp hcalls).1 _ (List.mem_map_of_mem hlater)
    -- the ids of the MONITOR candidates, which tell them from the others since no two are the same
    let ids := (all.filter fun call => decide (call.2.action = .monitor)).map fun call => call.2.id
    have hids : ∀ id ∈ ids, id ∉ m.rules.keys ∧ id ∉ m.targets.keys := by
      intro id hid
      obtain ⟨other, hother, rfl⟩ := List.mem_map.mp hid
      exact hnew other (List.mem_of_mem_filter hother)
    have hmonitors : ∀ call ∈ all, call.2.action = .monitor ↔ call.2.id ∈ ids := by
      intro other hother
      constructor
      · intro haction
        exact List.mem_map.mpr ⟨other, List.mem_filter.mpr ⟨hother, decide_eq_true haction⟩, rfl⟩
      · intro hid
        obtain ⟨twin, htwin, heq⟩ := List.mem_map.mp hid
        rw [← List.inj_on_of_nodup_map hdistinct (List.mem_of_mem_filter htwin) hother heq]
        exact of_decide_eq_true (List.mem_filter.mp htwin).2
    -- before the first call the manager stands beside itself
    have hstart : Beside ids (m.rateLimiter.timestamps.map fun t => (t, false)) call.1.now m m :=
      ⟨.self hkeyed (fun id hid => (hids id hid).1) (fun id hid => (hids id hid).2),
        spends_self hsorted fun t ht => hafter t ht _ (List.mem_map_of_mem hmem), hmode, hpath⟩
    have hnone : RuleCreationRateLimiter.taggedTimes
        (m.rateLimiter.timestamps.map fun t => (t, false)) = [] := by
      simp [RuleCreationRateLimiter.taggedTimes]
    rw [← hnone]
    exact hstart.submissions_iff hcalls hmonitors hfirst

/-- The site's manager once the candidates' decision is known. -/
def siteReady : FirewallManager := (siteManager .active (some siteKernel)).run [siteDecision]

/-- A device that is watched first and blocked a second later. -/
def watchedThenBlocked : List (Env × CandidateRule) :=
  [(siteEnv 0, siteCandidate "watch" .monitor 9 (seconds 60)),
   (siteEnv (seconds 1), siteCandidate "block" .block 9 (seconds 60))]

theorem submissions_without_monitors_iff_watchedThenBlocked :
    siteReady.submissions (watchedThenBlocked.filter fun call => decide (call.2.action ≠ .monitor)) =
      (siteReady.submissions watchedThenBlocked).filter
        (fun result => decide (result.1.action ≠ .monitor)) := by
  refine (submissions_without_monitors_iff (siteConfig .active) siteBackend none siteKernel [siteDecision]
    watchedThenBlocked siteReady rfl rfl rfl (by decide +kernel) (by decide +kernel)
    (by decide +kernel)).mpr ⟨?_, ?_, trivial⟩
  · exact fun hother => absurd rfl hother
  · exact fun _ _ => .inl (by decide +kernel)

/-- Twenty devices under watch, as many as the window admits, and then a device to block. -/
def crowd : List (Env × CandidateRule) :=
  (List.range 20).map (fun i =>
    (siteEnv 0, siteCandidate ("watch " ++ toString i) .monitor (100 + i) (seconds 60))) ++
  [(siteEnv 0, siteCandidate "block" .block 9 (seconds 60))]

/-- The rejection reason, or the deployment's reason, of each result. -/
def reasons (results : List (CandidateRule × Except String SubmissionResult)) : List (Option String) :=
  results.map fun result => result.2.toOption.bind fun submission => submission.event.reason

/-- The default cap of twenty is spent on MONITOR rules, and the BLOCK is turned away. -/
theorem monitors_crowd_out_a_block :
    siteReady.enforcementMode = .active ∧ siteReady.sets.isSome = true ∧
    (siteReady.rateLimiter.timestamps ++ crowd.map fun call => call.1.now).Pairwise (· ≤ ·) ∧
    (crowd.map fun call => call.2.id).Nodup ∧
    reasons ((siteReady.submissions crowd).filter fun result => decide (result.1.action ≠ .monitor)) =
      [some "rate_cap:rate_limited"] ∧
    siteReady.submissions (crowd.filter fun call => decide (call.2.action ≠ .monitor)) ≠
      (siteReady.submissions crowd).filter (fun result => decide (result.1.action ≠ .monitor)) := by
  refine ⟨rfl, rfl, by decide +kernel, by decide +kernel, by decide +kernel, ?_⟩
  intro heq
  have hreasons : reasons (siteReady.submissions
      (crowd.filter fun call => decide (call.2.action ≠ .monitor))) ≠
    reasons ((siteReady.submissions crowd).filter fun result => decide (result.1.action ≠ .monitor)) := by
    decide +kernel
  exact hreasons (congrArg reasons heq)

end FirewallManager

end Pirewall
