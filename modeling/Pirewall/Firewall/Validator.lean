/-
# Pirewall.Firewall.Validator -- the two validation chains and the rule-creation rate cap

`firewall/validator.py` and `firewall/rate_limiter.py`. Every stage is its own function and answers
with the reason it refuses a candidate, or nothing; a chain is a list of named stages and stops at the
first refusal. The rate cap is the one stage with a side effect: asking it drops the timestamps that
have left the window, so a chain returns the limiter along with its verdict.

`validateCandidateRule` is the v1 chain (per rule tuple), `validateSetCandidate` the v2 chain (per
device). What the lifecycle relies on is collected in `SetAdmitted`: everything a candidate that passed
the v2 chain is known to satisfy.
-/
import Pirewall.Firewall.Sets

namespace Pirewall

/-! ## The rate cap -/

/-- `RuleCreationRateLimiter`: the times of the rules created in the current window. -/
structure RuleCreationRateLimiter where
  maxPerWindow : Nat
  windowSeconds : Nat
  timestamps : List Time

namespace RuleCreationRateLimiter

/-- `_prune`. -/
def prune (l : RuleCreationRateLimiter) (now : Time) : RuleCreationRateLimiter :=
  let cutoff := now - seconds l.windowSeconds
  { l with timestamps := l.timestamps.dropWhile fun t => decide (t < cutoff) }

/-- `would_allow`. -/
def wouldAllow (l : RuleCreationRateLimiter) (now : Time) : Bool × RuleCreationRateLimiter :=
  let l := l.prune now
  (decide (l.timestamps.length < l.maxPerWindow), l)

/-- `record`. -/
def record (l : RuleCreationRateLimiter) (now : Time) : RuleCreationRateLimiter :=
  let l := l.prune now
  { l with timestamps := l.timestamps ++ [now] }

end RuleCreationRateLimiter

/-! ## Chains -/

/-- Which stage rejected a candidate, and why. -/
structure ValidationRejection where
  stage : String
  reason : RuleRejectionReason
  deriving DecidableEq

/-- The first stage that refuses. -/
def firstRejection : List (String × Option RuleRejectionReason) → Option ValidationRejection
  | [] => none
  | (stage, some reason) :: _ => some ⟨stage, reason⟩
  | (_, none) :: rest => firstRejection rest

theorem firstRejection_eq_none_iff {stages : List (String × Option RuleRejectionReason)} :
    firstRejection stages = none ↔ ∀ s ∈ stages, s.2 = none := by
  induction stages with
  | nil => simp [firstRejection]
  | cons s rest ih =>
    obtain ⟨stage, reason⟩ := s
    cases reason with
    | none => simp [firstRejection, ih]
    | some reason => simp [firstRejection]

/-- `_validate_rate_cap`, after the stages `before` and ahead of the stages `rest`. The limiter is
only asked once every earlier stage has passed. -/
def runChain (before : List (String × Option RuleRejectionReason)) (limiter : RuleCreationRateLimiter)
    (now : Time) (rest : List (String × Option RuleRejectionReason)) :
    Option ValidationRejection × RuleCreationRateLimiter :=
  match firstRejection before with
  | some rejection => (some rejection, limiter)
  | none =>
    let (allowed, limiter) := limiter.wouldAllow now
    (firstRejection (("rate_cap", if allowed then none else some .rateLimited) :: rest), limiter)

theorem runChain_eq_none {before rest : List (String × Option RuleRejectionReason)}
    {limiter limiter' : RuleCreationRateLimiter} {now : Time}
    (h : runChain before limiter now rest = (none, limiter')) :
    (∀ s ∈ before, s.2 = none) ∧ (∀ s ∈ rest, s.2 = none) := by
  unfold runChain at h
  split at h
  · exact absurd h (by simp)
  · rename_i hbefore
    have hrest := firstRejection_eq_none_iff.mp (congrArg Prod.fst h)
    exact ⟨firstRejection_eq_none_iff.mp hbefore, fun s hs => hrest s (List.mem_cons_of_mem _ hs)⟩

/-! ## Stages of the v1 chain -/

/-- `_validate_schema`: an adaptive rule carries the threat score that justified it. -/
def validateSchema (candidate : CandidateRule) : Option RuleRejectionReason :=
  if candidate.threatScore = none then some .invalidSchema else none

/-- `_validate_network`: both networks are `IPv4Network`s, which the type already says. -/
def validateNetwork (_candidate : CandidateRule) : Option RuleRejectionReason := none

/-- `_validate_identity`: the evidence came from the device the source address is bound to. -/
def validateIdentity (candidate : CandidateRule) (boundMac : Option Mac) : Option RuleRejectionReason :=
  match candidate.target.bind RuleTarget.mac, boundMac with
  | some mac, some bound => if mac ≠ bound then some .spoofedSource else none
  | _, _ => none

/-- `_matches_allowlist`. -/
def matchesAllowlist (candidate : CandidateRule) (entry : AllowlistEntry) : Bool :=
  if entry.protocol ≠ none ∧ entry.protocol ≠ some candidate.protocol then false
  else
    let sourceMatch := candidate.source.overlaps entry.target
      && (entry.port == none || entry.port == candidate.sourcePort)
    let destinationMatch := candidate.destination.overlaps entry.target
      && (entry.port == none || entry.port == candidate.destinationPort)
    -- a MAC pins the entry to a device, and a rule's device is its source
    let deviceMatch := entry.mac != none && candidate.target.bind RuleTarget.mac == entry.mac
      && (entry.port == none || entry.port == candidate.sourcePort)
    sourceMatch || destinationMatch || deviceMatch

/-- `_validate_allowlist`. -/
def validateAllowlist (candidate : CandidateRule) (allowlist : List AllowlistEntry) :
    Option RuleRejectionReason :=
  if candidate.action.restrictive = false then none
  else if allowlist.any (matchesAllowlist candidate) then some .allowlisted
  else none

/-- `_is_targetable_network`: neither end is an address no host can own. -/
def isTargetableNetwork (network : IPv4Network) : Bool :=
  [network.networkAddress, network.broadcastAddress].all fun address =>
    !(address.isUnspecified || address.isLoopback || address.isMulticast || address.isLinkLocal
      || address.isReserved)

/-- `_covers`: the target itself, or a supernet of it. -/
def covers (candidateNetwork target : IPv4Network) : Bool :=
  candidateNetwork == target || candidateNetwork.supernetOf target

/-- `_validate_safety`. -/
def validateSafety (candidate : CandidateRule) (config : PirewallConfig)
    (localAddresses : LocalAddresses) : Option RuleRejectionReason :=
  let sides := [candidate.source, candidate.destination]
  let names (address : IPv4Address) : Bool := sides.any fun side => side.overlaps (.host address)
  if candidate.action.restrictive = false then none
  else if sides.all isTargetableNetwork = false then some .unsafeTarget
  else if (localAddresses.host ++ localAddresses.broadcast).any names then some .unsafeTarget
  else if names config.admin.adminPcIp then some .unsafeTarget
  else if names config.network.pirewallLanIp then some .unsafeTarget
  else if names config.network.upstreamGateway then some .unsafeTarget
  else if sides.any fun side => covers side config.network.protectedNetwork then some .unsafeTarget
  else if sides.any fun side => side == .wholeInternet then some .unsafeTarget
  else if sides.any fun side => decide (side.prefixlen < config.firewall.minRulePrefixLength) then
    some .unsafeTarget
  else none

/-- `_target_key`. -/
def targetKey (rule : RuleFields) :
    RuleDirection × IPv4Network × IPv4Network × Protocol × Option (Fin 65536) :=
  (rule.direction, rule.source, rule.destination, rule.protocol, rule.destinationPort)

/-- `_full_key`: `targetKey` with the action and the source port. -/
def fullKey (rule : RuleFields) :
    FirewallAction × (RuleDirection × IPv4Network × IPv4Network × Protocol × Option (Fin 65536))
      × Option (Fin 65536) :=
  (rule.action, targetKey rule, rule.sourcePort)

/-- `_validate_conflict`. -/
def validateConflict (candidate : CandidateRule) (activeRules : List FirewallRule) :
    Option RuleRejectionReason :=
  if activeRules.any fun rule => rule.status == .active && rule.action != candidate.action
      && targetKey rule.toRuleFields == targetKey candidate.toRuleFields then some .conflict
  else none

/-- `_validate_duplicate`. -/
def validateDuplicate (candidate : CandidateRule) (activeRules : List FirewallRule) :
    Option RuleRejectionReason :=
  if activeRules.any fun rule => rule.status == .active
      && fullKey rule.toRuleFields == fullKey candidate.toRuleFields then some .duplicate
  else none

/-- `_validate_priority`: an active rule of the same action already covers the candidate. -/
def validatePriority (candidate : CandidateRule) (activeRules : List FirewallRule) :
    Option RuleRejectionReason :=
  if activeRules.any fun rule => rule.status == .active && rule.action == candidate.action
      && rule.protocol == candidate.protocol
      && (rule.destinationPort == none || rule.destinationPort == candidate.destinationPort)
      && covers rule.source candidate.source && covers rule.destination candidate.destination then
    some .shadowed
  else none

/-- `_validate_expiration`. -/
def validateExpiration (candidate : CandidateRule) : Option RuleRejectionReason :=
  if candidate.expiresAt = none then some .missingExpiration else none

/-- `_validate_authorization`. -/
def validateAuthorization (candidate : CandidateRule) (knownDecisionIds : List String) :
    Option RuleRejectionReason :=
  if candidate.decisionId ∈ knownDecisionIds then none else some .unauthorized

/-- Python's `round`: to the nearest integer, halves to even. -/
def pythonRound (q : Rat) : Int :=
  let below := q.floor
  let rest := q - below
  if rest < 1 / 2 then below
  else if 1 / 2 < rest then below + 1
  else if below % 2 = 0 then below
  else below + 1

/-- `_assign_priority`, `_display_priority`: a higher threat score gives a lower number. -/
def assignPriority (threatScore : Option Rat) : Int :=
  pythonRound (100 - min (max (threatScore.getD 0) 0) 100)

/-- The result of the v1 chain: a priority, or the rejecting stage. -/
abbrev ValidationOutcome := Except ValidationRejection Int

/-- `validate_candidate_rule`. -/
def validateCandidateRule (candidate : CandidateRule) (config : PirewallConfig)
    (knownDecisionIds : List String) (activeRules : List FirewallRule)
    (allowlist : List AllowlistEntry) (rateLimiter : RuleCreationRateLimiter) (now : Time)
    (localAddresses : LocalAddresses) (boundMac : Option Mac) :
    ValidationOutcome × RuleCreationRateLimiter :=
  let (rejection, rateLimiter) := runChain
    [("schema", validateSchema candidate),
     ("network", (validateNetwork candidate).or (validateIdentity candidate boundMac)),
     ("allowlist", validateAllowlist candidate allowlist),
     ("safety", validateSafety candidate config localAddresses),
     ("conflict", validateConflict candidate activeRules),
     ("duplicate", validateDuplicate candidate activeRules)]
    rateLimiter now
    [("priority", validatePriority candidate activeRules),
     ("expiration", validateExpiration candidate),
     ("authorization", validateAuthorization candidate knownDecisionIds)]
  match rejection with
  | some rejection => (.error rejection, rateLimiter)
  | none => (.ok (assignPriority candidate.threatScore), rateLimiter)

/-! ## Stages of the v2 chain -/

/-- An ACTIVE rule and the device its set element enforces on. -/
structure ActiveTarget where
  rule : FirewallRule
  target : RuleTarget

/-- `same_device`: the MACs decide when both are known, the addresses otherwise. -/
def sameDevice (left right : RuleTarget) : Bool :=
  match left.mac, right.mac with
  | some l, some r => l == r
  | _, _ => left.ip == right.ip

/-- Whether an allowlist entry covers the device: by its address, or by its MAC. -/
def AllowlistEntry.protects (entry : AllowlistEntry) (target : RuleTarget) : Bool :=
  entry.target.contains target.ip || (target.mac != none && entry.mac == target.mac)

/-- `_validate_set_allowlist`. -/
def validateSetAllowlist (candidate : CandidateRule) (target : RuleTarget)
    (allowlist : List AllowlistEntry) : Option RuleRejectionReason :=
  if candidate.action.restrictive = false then none
  else if allowlist.any fun entry => entry.protects target then some .allowlisted
  else none

/-- `_validate_set_safety`. -/
def validateSetSafety (candidate : CandidateRule) (target : RuleTarget) (config : PirewallConfig)
    (localAddresses : LocalAddresses) : Option RuleRejectionReason :=
  let infrastructure := localAddresses.host ++ localAddresses.broadcast ++
    [config.network.pirewallLanIp, config.network.upstreamGateway, config.admin.adminPcIp,
     config.network.protectedNetwork.networkAddress, config.network.protectedNetwork.broadcastAddress]
  if candidate.action.restrictive = false then none
  else if isTargetableNetwork (.host target.ip) = false then some .unsafeTarget
  else if target.ip ∈ infrastructure then some .unsafeTarget
  else if config.admin.adminPcMac ≠ none ∧ target.mac = config.admin.adminPcMac then some .unsafeTarget
  else none

/-- `_validate_set_conflict`, with the RATE_LIMITs a BLOCK would upgrade, appended to `upgradeOf`. -/
def validateSetConflict (candidate : CandidateRule) (target : RuleTarget) (upgradeOf : List String) :
    List ActiveTarget → Option RuleRejectionReason × List String
  | [] => (none, upgradeOf)
  | entry :: rest =>
    if sameDevice entry.target target = false ∨ entry.rule.action = candidate.action then
      validateSetConflict candidate target upgradeOf rest
    else if entry.rule.action = .block ∧ candidate.action = .rateLimit then
      (some .conflict, upgradeOf)
    else if entry.rule.action = .rateLimit ∧ candidate.action = .block then
      validateSetConflict candidate target (upgradeOf ++ [entry.rule.id]) rest
    else validateSetConflict candidate target upgradeOf rest

/-- `_validate_set_duplicate`. -/
def validateSetDuplicate (candidate : CandidateRule) (target : RuleTarget)
    (active : List ActiveTarget) : Option RuleRejectionReason :=
  if active.any fun entry => sameDevice entry.target target && entry.rule.action == candidate.action then
    some .duplicate
  else none

/-- `_validate_escalation`: an upgrade needs evidence the active rule did not carry. -/
def validateEscalation (candidate : CandidateRule) (active : List ActiveTarget)
    (upgradeOf : List String) : Option RuleRejectionReason :=
  if active.any fun entry => decide (entry.rule.id ∈ upgradeOf)
      && candidate.evidence.all fun id => decide (id ∈ entry.rule.evidence) then some .noNewEvidence
  else none

/-- `_validate_set_expiration`. -/
def validateSetExpiration (candidate : CandidateRule) (config : PirewallConfig) (now : Time) :
    Option RuleRejectionReason :=
  match candidate.expiresAt with
  | none => some .missingExpiration
  | some expiresAt =>
    if expiresAt ≤ now then some .missingExpiration
    else if seconds config.policy.maxTtlSeconds < expiresAt - now then some .expirationTooLong
    else none

/-- The v2 chain's verdict: the RATE_LIMIT a BLOCK replaces (if any), or the rejecting stage. -/
abbrev SetValidationOutcome := Except ValidationRejection (Option String)

/-- `validate_set_candidate`. The stages after "network" only run on a target. -/
def validateSetCandidate (candidate : CandidateRule) (target : Option RuleTarget)
    (config : PirewallConfig) (knownDecisionIds : List String) (active : List ActiveTarget)
    (allowlist : List AllowlistEntry) (rateLimiter : RuleCreationRateLimiter) (now : Time)
    (localAddresses : LocalAddresses) : SetValidationOutcome × RuleCreationRateLimiter :=
  match target with
  | none =>
    let (rejection, rateLimiter) := runChain
      [("schema", validateSchema candidate), ("network", some .unenforceable)] rateLimiter now []
    match rejection with
    | some rejection => (.error rejection, rateLimiter)
    | none => (.ok none, rateLimiter)
  | some target =>
    let (conflict, upgradeOf) := validateSetConflict candidate target [] active
    let (rejection, rateLimiter) := runChain
      [("schema", validateSchema candidate),
       ("network", none),
       ("allowlist", validateSetAllowlist candidate target allowlist),
       ("safety", validateSetSafety candidate target config localAddresses),
       ("conflict", conflict),
       ("duplicate", validateSetDuplicate candidate target active)]
      rateLimiter now
      [("escalation", validateEscalation candidate active upgradeOf),
       ("expiration", validateSetExpiration candidate config now),
       ("authorization", validateAuthorization candidate knownDecisionIds)]
    match rejection with
    | some rejection => (.error rejection, rateLimiter)
    | none => (.ok upgradeOf.head?, rateLimiter)

/-! ## What passing a chain means -/

/-- What the v2 chain has established about a candidate it lets through. -/
structure SetAdmitted (candidate : CandidateRule) (target : RuleTarget) (config : PirewallConfig)
    (active : List ActiveTarget) (allowlist : List AllowlistEntry) (now : Time)
    (localAddresses : LocalAddresses) (upgradeOf : Option String) : Prop where
  allowlist : candidate.action.restrictive = true → ∀ entry ∈ allowlist, entry.protects target = false
  safety : validateSetSafety candidate target config localAddresses = none
  distinct : ∀ entry ∈ active, sameDevice entry.target target = true →
    entry.rule.action ≠ candidate.action
  upgrade : ∀ id, upgradeOf = some id → candidate.action = .block ∧ ∃ entry ∈ active,
    entry.rule.id = id ∧ entry.rule.action = .rateLimit ∧ sameDevice entry.target target = true
  expiry : ∃ expiresAt, candidate.expiresAt = some expiresAt ∧ now < expiresAt ∧
    expiresAt - now ≤ seconds config.policy.maxTtlSeconds

theorem validateSetConflict_upgrades {candidate : CandidateRule} {target : RuleTarget}
    {upgradeOf upgrades : List String} {active : List ActiveTarget}
    {conflict : Option RuleRejectionReason}
    (h : validateSetConflict candidate target upgradeOf active = (conflict, upgrades)) :
    ∀ id ∈ upgrades, id ∈ upgradeOf ∨ (candidate.action = .block ∧ ∃ entry ∈ active,
      entry.rule.id = id ∧ entry.rule.action = .rateLimit ∧ sameDevice entry.target target = true) := by
  induction active generalizing upgradeOf with
  | nil =>
    simp only [validateSetConflict, Prod.mk.injEq] at h
    intro id hid
    exact .inl (h.2 ▸ hid)
  | cons entry rest ih =>
    have hweaken : ∀ id, (candidate.action = .block ∧ ∃ entry ∈ rest,
        entry.rule.id = id ∧ entry.rule.action = .rateLimit ∧
          sameDevice entry.target target = true) →
        (candidate.action = .block ∧ ∃ entry' ∈ entry :: rest, entry'.rule.id = id ∧
          entry'.rule.action = .rateLimit ∧ sameDevice entry'.target target = true) := by
      rintro id ⟨hblock, e, he, hrest⟩
      exact ⟨hblock, e, List.mem_cons_of_mem _ he, hrest⟩
    unfold validateSetConflict at h
    split at h
    · intro id hid
      exact (ih h id hid).imp_right (hweaken id)
    · rename_i hsame
      split at h
      · simp only [Prod.mk.injEq] at h
        intro id hid
        exact .inl (h.2 ▸ hid)
      · split at h
        · rename_i hup
          intro id hid
          rcases ih h id hid with hin | hrest
          · rcases List.mem_append.mp hin with hin | hnew
            · exact .inl hin
            · obtain rfl := List.mem_singleton.mp hnew
              refine .inr ⟨hup.2, entry, List.mem_cons_self, rfl, hup.1, ?_⟩
              simpa using fun hd => hsame (.inl hd)
          · exact .inr (hweaken id hrest)
        · intro id hid
          exact (ih h id hid).imp_right (hweaken id)

/-- A candidate the v2 chain lets through has a target and satisfies every stage. -/
theorem validateSetCandidate_ok {candidate : CandidateRule} {target : Option RuleTarget}
    {config : PirewallConfig} {knownDecisionIds : List String} {active : List ActiveTarget}
    {allowlist : List AllowlistEntry} {rateLimiter rateLimiter' : RuleCreationRateLimiter} {now : Time}
    {localAddresses : LocalAddresses} {upgradeOf : Option String}
    (h : validateSetCandidate candidate target config knownDecisionIds active allowlist rateLimiter now
      localAddresses = (.ok upgradeOf, rateLimiter')) :
    ∃ t, target = some t ∧
      SetAdmitted candidate t config active allowlist now localAddresses upgradeOf := by
  cases target with
  -- without a target the first stage refuses
  | none =>
    simp only [validateSetCandidate] at h
    split at h
    · exact absurd h (by simp)
    · rename_i hchain
      obtain ⟨hbefore, _⟩ := runChain_eq_none (Prod.ext hchain rfl)
      exact absurd (hbefore ("network", some .unenforceable) (by simp)) (by simp)
  | some t =>
    refine ⟨t, rfl, ?_⟩
    simp only [validateSetCandidate] at h
    split at h
    · exact absurd h (by simp)
    · rename_i hchain
      obtain ⟨hbefore, hrest⟩ := runChain_eq_none (Prod.ext hchain rfl)
      simp only [List.forall_mem_cons] at hbefore hrest
      -- stage by stage, what it means to have passed
      obtain ⟨_, _, hallow, hsafety, _, hdup, _⟩ := hbefore
      obtain ⟨_, hexp, _⟩ := hrest
      simp only [Prod.mk.injEq, Except.ok.injEq] at h
      refine ⟨?_, hsafety, ?_, ?_, ?_⟩
      · intro hr entry hentry
        simp only [validateSetAllowlist, hr] at hallow
        simp only [Bool.true_eq_false, if_false, ite_eq_right_iff, List.any_eq_true] at hallow
        by_contra hprot
        exact absurd (hallow ⟨entry, hentry, by simpa using hprot⟩) (by simp)
      · intro entry hentry hsame hact
        simp only [validateSetDuplicate, ite_eq_right_iff, List.any_eq_true] at hdup
        exact absurd (hdup ⟨entry, hentry, by simp [hsame, hact]⟩) (by simp)
      · rintro id rfl
        have hmem : id ∈ (validateSetConflict candidate t [] active).2 :=
          List.mem_of_mem_head? (by rw [h.1]; rfl)
        rcases validateSetConflict_upgrades (Prod.ext rfl rfl) id hmem with hin | hup
        · exact absurd hin (by simp)
        · exact hup
      · simp only [validateSetExpiration] at hexp
        cases hexpires : candidate.expiresAt with
        | none => exact absurd hexp (by simp [hexpires])
        | some expiresAt =>
          simp only [hexpires] at hexp
          refine ⟨expiresAt, rfl, ?_⟩
          split at hexp
          · exact absurd hexp (by simp)
          · split at hexp
            · exact absurd hexp (by simp)
            · rename_i hlate hlong
              exact ⟨not_le.mp hlate, not_lt.mp hlong⟩

theorem validateCandidateRule_ok {candidate : CandidateRule} {config : PirewallConfig}
    {knownDecisionIds : List String} {activeRules : List FirewallRule}
    {allowlist : List AllowlistEntry} {rateLimiter rateLimiter' : RuleCreationRateLimiter} {now : Time}
    {localAddresses : LocalAddresses} {boundMac : Option Mac} {priority : Int}
    (h : validateCandidateRule candidate config knownDecisionIds activeRules allowlist rateLimiter now
      localAddresses boundMac = (.ok priority, rateLimiter')) :
    ∃ expiresAt, candidate.expiresAt = some expiresAt := by
  simp only [validateCandidateRule] at h
  split at h
  · exact absurd h (by simp)
  · rename_i hchain
    obtain ⟨_, hrest⟩ := runChain_eq_none (Prod.ext hchain rfl)
    simp only [List.forall_mem_cons] at hrest
    obtain ⟨_, hexp, _⟩ := hrest
    simp only [validateExpiration, ite_eq_right_iff] at hexp
    exact Option.ne_none_iff_exists'.mp fun hnone => absurd (hexp hnone) (by simp)

end Pirewall
