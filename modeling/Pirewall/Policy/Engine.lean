/-
# Pirewall.Policy.Engine -- from a device's evidence to decisions

`PolicyEngine`: classification of the evidence a device has not been decided on yet, the rows those classes
match, and the strongest action of their cells. The engine remembers, for each device, the evidence ids it
has decided on and how many enforcing D1 decisions were accepted (strikes). Both memories are bounded; a
call that fits in them acts on the device's `History` alone (`decide_eq`, `recall_decide`), which is what
every statement about whole histories is made from.

`is_protected` is a callback into the firewall manager, whose allowlist changes: each call gets its own.
-/
import Pirewall.Policy.Table

namespace Pirewall

open Lib

/-! ## Classification -/

/-- The row of one kernel offender. -/
def kernelClass (sustainedPolls : Nat) (item : KernelGuardEvidence) : EvidenceClass :=
  match item.guardMode with
  | .observe => .kObserve
  | .enforce => if sustainedPolls ≤ item.sustainedPolls then .kEnforceSustained else .kEnforcePending

/-- `classify`: the rows a bundle matches. -/
def classify (bundle : List Evidence) (table : PolicyTable) (sustainedPolls priorD1Strikes : Nat)
    (newIds : List String) : List EvidenceClass :=
  let kernel := (bundle.filterMap Evidence.kernel?).map (kernelClass sustainedPolls)
  let d1 := bundle.filterMap Evidence.d1?
  let sustained := kernel.contains .kEnforceSustained
  let actingD1 := d1.any fun item => table.acting item.detector
  let newD1 := d1.any fun item => table.acting item.detector && newIds.contains item.id
  kernel
    ++ (if d1.any fun item => table.high.contains item.detector then [.d1High] else [])
    ++ (if d1.any fun item => table.standard.contains item.detector then [.d1Standard] else [])
    ++ (if actingD1 && newD1 && (sustained || decide (0 < priorD1Strikes)) then [.d1Escalated] else [])
    ++ (if bundle.any Evidence.isMlHit && actingD1 then [.mlWithD1] else [])
    ++ (if bundle.any Evidence.isMlHit && !actingD1 then [.mlOnly] else [])

section Classify

variable {bundle : List Evidence} {table : PolicyTable} {sustainedPolls strikes : Nat} {newIds : List String}

theorem mem_filterMap_kernel {item : KernelGuardEvidence} :
    item ∈ bundle.filterMap Evidence.kernel? ↔ .kernel item ∈ bundle := by
  rw [List.mem_filterMap]
  constructor
  · rintro ⟨e, he, hitem⟩
    cases e with
    | kernel k => exact Option.some.inj hitem ▸ he
    | d1 _ => exact absurd hitem (by simp [Evidence.kernel?])
    | anomaly _ => exact absurd hitem (by simp [Evidence.kernel?])
    | classifier _ => exact absurd hitem (by simp [Evidence.kernel?])
  · exact fun h => ⟨_, h, rfl⟩

theorem mem_filterMap_d1 {item : D1Evidence} : item ∈ bundle.filterMap Evidence.d1? ↔ .d1 item ∈ bundle := by
  rw [List.mem_filterMap]
  constructor
  · rintro ⟨e, he, hitem⟩
    cases e with
    | d1 d => exact Option.some.inj hitem ▸ he
    | kernel _ => exact absurd hitem (by simp [Evidence.d1?])
    | anomaly _ => exact absurd hitem (by simp [Evidence.d1?])
    | classifier _ => exact absurd hitem (by simp [Evidence.d1?])
  · exact fun h => ⟨_, h, rfl⟩

/-- A detector of either tier fired. -/
def ActingD1 (bundle : List Evidence) (table : PolicyTable) : Prop :=
  ∃ item, .d1 item ∈ bundle ∧ table.acting item.detector = true

/-- Sustained kernel evidence of an enforcing guard. -/
def Sustained (bundle : List Evidence) (sustainedPolls : Nat) : Prop :=
  ∃ item, .kernel item ∈ bundle ∧ kernelClass sustainedPolls item = .kEnforceSustained

/-- When a row matches. -/
def Matches (bundle : List Evidence) (table : PolicyTable) (sustainedPolls strikes : Nat)
    (newIds : List String) : EvidenceClass → Prop
  | .kObserve => ∃ item, .kernel item ∈ bundle ∧ kernelClass sustainedPolls item = .kObserve
  | .kEnforcePending => ∃ item, .kernel item ∈ bundle ∧ kernelClass sustainedPolls item = .kEnforcePending
  | .kEnforceSustained => Sustained bundle sustainedPolls
  | .d1High => ∃ item, .d1 item ∈ bundle ∧ item.detector ∈ table.high
  | .d1Standard => ∃ item, .d1 item ∈ bundle ∧ item.detector ∈ table.standard
  | .d1Escalated =>
    (∃ item, .d1 item ∈ bundle ∧ table.acting item.detector = true ∧ item.id ∈ newIds) ∧
      (Sustained bundle sustainedPolls ∨ 0 < strikes)
  | .mlOnly => (∃ item ∈ bundle, item.isMlHit = true) ∧ ¬ ActingD1 bundle table
  | .mlWithD1 => (∃ item ∈ bundle, item.isMlHit = true) ∧ ActingD1 bundle table

/-- A kernel item is in one of the three kernel rows. -/
theorem kernelClass_cases (sustainedPolls : Nat) (item : KernelGuardEvidence) :
    kernelClass sustainedPolls item = .kObserve ∨ kernelClass sustainedPolls item = .kEnforcePending ∨
      kernelClass sustainedPolls item = .kEnforceSustained := by
  unfold kernelClass
  split
  · exact .inl rfl
  · split
    · exact .inr (.inr rfl)
    · exact .inr (.inl rfl)

theorem any_d1_iff (p : D1Evidence → Bool) :
    (bundle.filterMap Evidence.d1?).any p = true ↔ ∃ item, .d1 item ∈ bundle ∧ p item = true := by
  simp only [List.any_eq_true, mem_filterMap_d1]

theorem mem_classify (c : EvidenceClass) :
    c ∈ classify bundle table sustainedPolls strikes newIds ↔
      Matches bundle table sustainedPolls strikes newIds c := by
  have hkernel : ∀ c, c ∈ (bundle.filterMap Evidence.kernel?).map (kernelClass sustainedPolls) ↔
      ∃ item, .kernel item ∈ bundle ∧ kernelClass sustainedPolls item = c := by
    intro c
    simp only [List.mem_map, mem_filterMap_kernel]
  have hnotKernel : ∀ c, c ≠ .kObserve → c ≠ .kEnforcePending → c ≠ .kEnforceSustained →
      ¬ ∃ item, .kernel item ∈ bundle ∧ kernelClass sustainedPolls item = c := by
    rintro c h₁ h₂ h₃ ⟨item, _, rfl⟩
    rcases kernelClass_cases sustainedPolls item with h | h | h
    · exact h₁ h
    · exact h₂ h
    · exact h₃ h
  have hml : bundle.any Evidence.isMlHit = true ↔ ∃ item ∈ bundle, item.isMlHit = true := List.any_eq_true
  have hacting : (bundle.filterMap Evidence.d1?).any (fun item => table.acting item.detector) = true ↔
      ActingD1 bundle table := any_d1_iff _
  have hnew : (bundle.filterMap Evidence.d1?).any
      (fun item => table.acting item.detector && newIds.contains item.id) = true ↔ _ := any_d1_iff _
  have hactingOfNew : (∃ item, .d1 item ∈ bundle ∧ table.acting item.detector = true ∧
      item.id ∈ newIds) → ActingD1 bundle table := by
    rintro ⟨item, hmem, hact, _⟩
    exact ⟨item, hmem, hact⟩
  simp only [classify, List.mem_append, hkernel, List.mem_ite_nil_right, List.mem_singleton,
    Bool.and_eq_true, Bool.or_eq_true, Bool.not_eq_true', ← Bool.not_eq_true, decide_eq_true_eq,
    List.contains_iff_mem, any_d1_iff, hml, hacting, hnew]
  cases c with
  | kObserve => simp [Matches]
  | kEnforcePending => simp [Matches]
  | kEnforceSustained => simp [Matches, Sustained]
  | d1High => simp [Matches, hnotKernel .d1High]
  | d1Standard => simp [Matches, hnotKernel .d1Standard]
  | d1Escalated =>
    simp only [Matches, Sustained, hnotKernel .d1Escalated, reduceCtorEq, not_false_eq_true, and_true,
      and_false, false_or, or_false, ne_eq]
    exact ⟨fun h => ⟨h.1.2, h.2⟩, fun h => ⟨⟨hactingOfNew h.1, h.1⟩, h.2⟩⟩
  | mlOnly => simp [Matches, hnotKernel .mlOnly]
  | mlWithD1 => simp [Matches, hnotKernel .mlWithD1]

end Classify

/-! ## What is remembered about a device -/

/-- The evidence ids a device has been decided on, and its accepted enforcing D1 decisions. -/
structure History where
  used : Dict String Unit
  d1Strikes : Nat

/-- Each id becomes the most recent of those used. -/
def rememberIds (used : Dict String Unit) (ids : List String) : Dict String Unit :=
  ids.foldl (fun used id => (used.set id ()).moveToEnd id) used

namespace History

def new : History := ⟨Dict.empty, 0⟩

/-- The ids of a bundle that the device has not been decided on. -/
def newIds (h : History) (bundle : EvidenceBundle) : List String :=
  bundle.ids.filter fun id => !h.used.contains id

/-- Only evidence new to this device classifies it. -/
def fresh (h : History) (bundle : EvidenceBundle) : List Evidence :=
  bundle.evidence.filter fun item => (h.newIds bundle).contains item.id

/-- The history once a bundle's ids are remembered, without a bound. -/
def remember (h : History) (ids : List String) : History := { h with used := rememberIds h.used ids }

end History

/-! ## Decisions -/

/-- `max(actions, key=_STRENGTH)` over the actions that have one. -/
def strongest (actions : List TableAction) : Option TableAction :=
  [.block, .rateLimit, .monitor].find? fun action => actions.contains action

/-- `_block_ttl`. -/
def blockTtl (config : PolicyConfig) (escalate : Bool) (history : History) : Nat :=
  let ttl := config.blockTtlSeconds
  let ttl := if escalate then ttl * config.escalationTtlMultiplier ^ max history.d1Strikes 1 else ttl
  min ttl config.maxTtlSeconds

section Decisions

variable (config : PolicyConfig) (bundle : EvidenceBundle) (escalate : Bool) (history : History)
  (ids : List String) (now : Time)

/-- The BLOCK that waits in the approval queue. -/
def blockHeld : PolicyDecision where
  target := bundle.target
  action := .block
  ttlSeconds := some (blockTtl config escalate history)
  reasons := .heldForApproval :: bundle.evidence.map Evidence.reason
  evidenceIds := ids
  requiresApproval := true
  decidedAt := now

def blockNow : PolicyDecision where
  target := bundle.target
  action := .block
  ttlSeconds := some (blockTtl config escalate history)
  reasons := bundle.evidence.map Evidence.reason
  evidenceIds := ids
  requiresApproval := false
  decidedAt := now

def rateLimitNow : PolicyDecision where
  target := bundle.target
  action := .rateLimit
  ttlSeconds := some (min config.rateLimitTtlSeconds config.maxTtlSeconds)
  reasons := bundle.evidence.map Evidence.reason
  evidenceIds := ids
  requiresApproval := false
  decidedAt := now

def monitorNow : PolicyDecision where
  target := bundle.target
  action := .monitor
  ttlSeconds := none
  reasons := bundle.evidence.map Evidence.reason
  evidenceIds := ids
  requiresApproval := false
  decidedAt := now

/-- `_decisions`: the BLOCK held for approval first, then the strongest direct action. -/
def decisions (actions : List TableAction) : List PolicyDecision :=
  let direct := strongest actions
  let held :=
    if actions.contains .blockApproval && direct != some .block then
      [blockHeld config bundle escalate history ids now]
    else []
  match direct with
  | some .block => held ++ [blockNow config bundle escalate history ids now]
  | some .rateLimit => held ++ [rateLimitNow config bundle ids now]
  | some .monitor => if held.isEmpty then [monitorNow bundle ids now] else held
  | _ => held

end Decisions

/-! ## The engine -/

structure PolicyEngine where
  table : PolicyTable
  config : PolicyConfig
  history : Dict String History

/-- The name a device is remembered under: its MAC, or else its address. -/
def historyKey (target : RuleTarget) : String :=
  match target.mac with
  | some mac => mac.text
  | none => target.ip.str

namespace PolicyEngine

def init (table : PolicyTable) (config : PolicyConfig) : PolicyEngine := ⟨table, config, Dict.empty⟩

/-- The device's history is now `history`. -/
def put (e : PolicyEngine) (target : RuleTarget) (history : History) : PolicyEngine :=
  { e with history := e.history.set (historyKey target) history }

/-- `_history_for`. -/
def historyFor (e : PolicyEngine) (target : RuleTarget) : History × PolicyEngine :=
  match e.history.get? (historyKey target) with
  | none =>
    let history := e.history.set (historyKey target) .new
    (.new, { e with history :=
      if history.size > e.config.maxTrackedDevices then history.popFirst else history })
  | some found => (found, { e with history := e.history.moveToEnd (historyKey target) })

/-- `_remember`. -/
def remember (e : PolicyEngine) (target : RuleTarget) (history : History) (ids : List String) :
    PolicyEngine :=
  e.put target
    { history with used := (rememberIds history.used ids).keepLast e.config.maxEvidenceIdsPerDevice }

/-- `decide`: the decisions in submission order, and the engine after it. -/
def decide (e : PolicyEngine) (isProtected : RuleTarget → Bool) (bundle : EvidenceBundle)
    (mode : EnforcementMode) (now : Time) : List PolicyDecision × PolicyEngine :=
  if bundle.evidence.isEmpty || isProtected bundle.target then ([], e)
  else
    let found := e.historyFor bundle.target
    let newIds := found.1.newIds bundle
    if newIds.isEmpty then ([], found.2)
    else
      let classes := classify (found.1.fresh bundle) e.table e.config.sustainedPolls found.1.d1Strikes newIds
      let remembered := found.2.remember bundle.target found.1 bundle.ids
      if classes.isEmpty then ([], remembered)
      else
        let actions := classes.flatMap fun c => (e.table.row c).cell mode
        let escalate := classes.any fun c => (e.table.row c).escalate && c == .d1Escalated
        (decisions e.config bundle escalate found.1 bundle.ids now actions, remembered)

/-- `record_enforced`. -/
def recordEnforced (e : PolicyEngine) (decision : PolicyDecision) (hadD1 : Bool) : PolicyEngine :=
  if hadD1 && decision.action.restrictive then
    let found := e.historyFor decision.target
    found.2.put decision.target { found.1 with d1Strikes := found.1.d1Strikes + 1 }
  else e

/-! ## A call reads the device's history -/

/-- What the engine remembers of a device, nothing if it does not track it. -/
def recalled (e : PolicyEngine) (key : String) : History := (e.history.get? key).getD .new

/-- The strikes of a device. -/
def strikes (e : PolicyEngine) (key : String) : Nat := (e.recalled key).d1Strikes

theorem historyFor_fst (e : PolicyEngine) (target : RuleTarget) :
    (e.historyFor target).1 = e.recalled (historyKey target) := by
  unfold historyFor recalled
  split
  · rename_i hnone
    rw [hnone, Option.getD_none]
  · rename_i found hfound
    rw [hfound, Option.getD_some]

end PolicyEngine

/-- `decide` for a device with this history. -/
def History.decide (history : History) (table : PolicyTable) (config : PolicyConfig) (bundle : EvidenceBundle)
    (mode : EnforcementMode) (now : Time) : List PolicyDecision :=
  let newIds := history.newIds bundle
  let classes := classify (history.fresh bundle) table config.sustainedPolls history.d1Strikes newIds
  if newIds.isEmpty then []
  else if classes.isEmpty then []
  else
    decisions config bundle (classes.any fun c => (table.row c).escalate && c == .d1Escalated) history
      bundle.ids now (classes.flatMap fun c => (table.row c).cell mode)

namespace PolicyEngine

variable (e : PolicyEngine) (isProtected : RuleTarget → Bool) (bundle : EvidenceBundle)
  (mode : EnforcementMode) (now : Time)

/-- A call that `decide` returns from at once. -/
def quiet : Bool := bundle.evidence.isEmpty || isProtected bundle.target

theorem decide_fst :
    (e.decide isProtected bundle mode now).1 =
      if quiet isProtected bundle then []
      else (e.recalled (historyKey bundle.target)).decide e.table e.config bundle mode now := by
  simp only [decide, History.decide, quiet, historyFor_fst, apply_ite Prod.fst]
  rfl

end PolicyEngine

/-! ## What decisions can be made of -/

theorem mem_strongest {actions : List TableAction} {action : TableAction}
    (h : strongest actions = some action) : action ∈ actions := by
  have hfound := List.find?_some h
  exact List.contains_iff_mem.mp hfound

/-- The decisions there can be, each with the cell it comes from. -/
theorem mem_decisions {config : PolicyConfig} {bundle : EvidenceBundle} {actions : List TableAction}
    {escalate : Bool} {history : History} {ids : List String} {now : Time} {d : PolicyDecision}
    (h : d ∈ decisions config bundle escalate history ids now actions) :
    (d = blockHeld config bundle escalate history ids now ∧ .blockApproval ∈ actions) ∨
      (d = blockNow config bundle escalate history ids now ∧ .block ∈ actions) ∨
      (d = rateLimitNow config bundle ids now ∧ .rateLimit ∈ actions) ∨
      (d = monitorNow bundle ids now ∧ .monitor ∈ actions) := by
  have hheld : d ∈ (if actions.contains .blockApproval && strongest actions != some .block then
      [blockHeld config bundle escalate history ids now] else []) →
      d = blockHeld config bundle escalate history ids now ∧ .blockApproval ∈ actions := by
    intro hmem
    rw [List.mem_ite_nil_right, Bool.and_eq_true, List.contains_iff_mem, List.mem_singleton] at hmem
    exact ⟨hmem.2, hmem.1.1⟩
  simp only [decisions] at h
  generalize hlist : (if actions.contains .blockApproval && strongest actions != some .block then
      [blockHeld config bundle escalate history ids now] else []) = held at h hheld
  split at h
  · rename_i hdirect
    rcases List.mem_append.mp h with h | h
    · exact .inl (hheld h)
    · exact .inr (.inl ⟨List.mem_singleton.mp h, mem_strongest hdirect⟩)
  · rename_i hdirect
    rcases List.mem_append.mp h with h | h
    · exact .inl (hheld h)
    · exact .inr (.inr (.inl ⟨List.mem_singleton.mp h, mem_strongest hdirect⟩))
  · rename_i hdirect
    split at h
    · exact .inr (.inr (.inr ⟨List.mem_singleton.mp h, mem_strongest hdirect⟩))
    · exact .inl (hheld h)
  · exact .inl (hheld h)

/-- A decision of `decide`: a row that matched the fresh evidence has its cell. -/
theorem History.mem_decide {history : History} {table : PolicyTable} {config : PolicyConfig}
    {bundle : EvidenceBundle} {mode : EnforcementMode} {now : Time} {d : PolicyDecision}
    (h : d ∈ history.decide table config bundle mode now) :
    ∃ escalate actions, d ∈ decisions config bundle escalate history bundle.ids now actions ∧
      (escalate = true ↔ (table.row .d1Escalated).escalate = true ∧ Matches (history.fresh bundle) table
        config.sustainedPolls history.d1Strikes (history.newIds bundle) .d1Escalated) ∧
      ∀ action ∈ actions, ∃ c, action ∈ (table.row c).cell mode ∧
        Matches (history.fresh bundle) table config.sustainedPolls history.d1Strikes (history.newIds bundle)
          c := by
  simp only [History.decide] at h
  split at h
  · exact absurd h List.not_mem_nil
  · split at h
    · exact absurd h List.not_mem_nil
    · refine ⟨_, _, h, ?_, fun action haction => ?_⟩
      · rw [← mem_classify, List.any_eq_true]
        constructor
        · rintro ⟨c, hc, hescalate⟩
          rw [Bool.and_eq_true, beq_iff_eq] at hescalate
          obtain ⟨hescalate, rfl⟩ := hescalate
          exact ⟨hescalate, hc⟩
        · rintro ⟨hescalate, hc⟩
          exact ⟨_, hc, by rw [hescalate]; rfl⟩
      · obtain ⟨c, hc, hcell⟩ := List.mem_flatMap.mp haction
        exact ⟨c, hcell, (mem_classify c).mp hc⟩

theorem blockTtl_range (config : PolicyConfig) (escalate : Bool) (history : History) :
    1 ≤ blockTtl config escalate history ∧ blockTtl config escalate history ≤ config.maxTtlSeconds := by
  refine ⟨?_, min_le_right _ _⟩
  have hpow : 0 < config.escalationTtlMultiplier ^ max history.d1Strikes 1 :=
    Nat.pow_pos config.multiplier_pos
  have hblock := config.blockTtl_pos
  simp only [blockTtl]
  refine le_min ?_ config.maxTtl_pos
  split
  · exact Nat.mul_pos hblock hpow
  · exact hblock

/-- Every decision passes its model's own validation. -/
theorem History.decide_valid {history : History} {table : PolicyTable} {config : PolicyConfig}
    {bundle : EvidenceBundle} {mode : EnforcementMode} {now : Time} (hne : bundle.evidence ≠ [])
    {d : PolicyDecision} (h : d ∈ history.decide table config bundle mode now) : d.Valid := by
  obtain ⟨escalate, actions, hd, _, _⟩ := History.mem_decide h
  have hids : bundle.ids ≠ [] := by
    obtain ⟨item, hitem⟩ := List.exists_mem_of_ne_nil _ hne
    exact List.ne_nil_of_mem (EvidenceBundle.mem_ids.mpr ⟨item, hitem, rfl⟩)
  have hreasons : bundle.evidence.map Evidence.reason ≠ [] := by simpa using hne
  have hmax := config.maxTtl_le
  have hblock := blockTtl_range config escalate history
  rcases mem_decisions hd with ⟨rfl, _⟩ | ⟨rfl, _⟩ | ⟨rfl, _⟩ | ⟨rfl, _⟩
  · refine ⟨List.cons_ne_nil _ _, ?_, rfl, fun _ => hids, fun _ => rfl⟩
    rintro ttl ⟨rfl⟩
    exact ⟨hblock.1, hblock.2.trans hmax⟩
  · refine ⟨hreasons, ?_, rfl, fun _ => hids, fun _ => rfl⟩
    rintro ttl ⟨rfl⟩
    exact ⟨hblock.1, hblock.2.trans hmax⟩
  · refine ⟨hreasons, ?_, rfl, fun _ => hids, fun h => absurd h Bool.false_ne_true⟩
    rintro ttl ⟨rfl⟩
    exact ⟨lt_min config.rateLimitTtl_pos config.maxTtl_pos, (min_le_right _ _).trans hmax⟩
  · exact ⟨hreasons, fun _ h => absurd h (by simp [monitorNow]), rfl, fun _ => hids,
      fun h => absurd h Bool.false_ne_true⟩

/-! ## Ceilings -/

/-- Evidence that may not enforce: a model's, an observing guard's, or an enforcing guard's that has not
lasted `policy.sustained_polls` polls. -/
def Evidence.capped (sustainedPolls : Nat) : Evidence → Prop
  | .anomaly _ | .classifier _ => True
  | .kernel item => item.guardMode = .observe ∨ item.sustainedPolls < sustainedPolls
  | .d1 _ => False

theorem kernelClass_of_capped {sustainedPolls : Nat} {item : KernelGuardEvidence}
    (h : (Evidence.kernel item).capped sustainedPolls) :
    (kernelClass sustainedPolls item).monitorCeiling = true := by
  unfold kernelClass
  split
  · rfl
  · rename_i hmode
    rcases h with h | h
    · exact absurd (hmode.symm.trans h) (by decide)
    · rw [if_neg (Nat.not_le.mpr h)]
      rfl

/-- Capped evidence matches rows with the ceiling only. -/
theorem matches_of_capped {bundle : List Evidence} {table : PolicyTable} {sustainedPolls strikes : Nat}
    {newIds : List String} (hcapped : ∀ item ∈ bundle, item.capped sustainedPolls) {c : EvidenceClass}
    (h : Matches bundle table sustainedPolls strikes newIds c) : c.monitorCeiling = true := by
  have hkernel : ∀ item, .kernel item ∈ bundle → kernelClass sustainedPolls item = c →
      c.monitorCeiling = true := by
    rintro item hmem rfl
    exact kernelClass_of_capped (hcapped _ hmem)
  have hd1 : ∀ item, .d1 item ∈ bundle → c.monitorCeiling = true := fun item hmem =>
    absurd (hcapped _ hmem) id
  cases c with
  | kObserve => rfl
  | kEnforcePending => rfl
  | kEnforceSustained =>
    obtain ⟨item, hmem, hclass⟩ := h
    exact hkernel item hmem hclass
  | d1High =>
    obtain ⟨item, hmem, _⟩ := h
    exact hd1 item hmem
  | d1Standard =>
    obtain ⟨item, hmem, _⟩ := h
    exact hd1 item hmem
  | d1Escalated =>
    obtain ⟨⟨item, hmem, _⟩, _⟩ := h
    exact hd1 item hmem
  | mlOnly => rfl
  | mlWithD1 =>
    obtain ⟨_, item, hmem, _⟩ := h
    exact hd1 item hmem

theorem History.mem_fresh {history : History} {bundle : EvidenceBundle} {item : Evidence} :
    item ∈ history.fresh bundle ↔ item ∈ bundle.evidence ∧ history.used.contains item.id = false := by
  simp only [fresh, newIds, List.mem_filter, List.contains_iff_mem, Bool.not_eq_true']
  constructor
  · rintro ⟨hmem, _, hnew⟩
    exact ⟨hmem, hnew⟩
  · rintro ⟨hmem, hnew⟩
    exact ⟨hmem, EvidenceBundle.mem_ids.mpr ⟨item, hmem, rfl⟩, hnew⟩

/-- Fresh evidence that may not enforce is decided on with MONITOR, whatever was decided on before. -/
theorem History.monitor_of_capped {history : History} {table : PolicyTable} {config : PolicyConfig}
    {bundle : EvidenceBundle} {mode : EnforcementMode} {now : Time}
    (hcapped : ∀ item ∈ history.fresh bundle, item.capped config.sustainedPolls) {d : PolicyDecision}
    (hd : d ∈ history.decide table config bundle mode now) : d.action = .monitor := by
  obtain ⟨escalate, actions, hdec, _, hactions⟩ := History.mem_decide hd
  have hmonitor : ∀ action ∈ actions, action = .monitor := by
    intro action haction
    obtain ⟨c, hcell, hmatch⟩ := hactions action haction
    exact (table.row c).ceiling (by rw [table.row_evidence c]; exact matches_of_capped hcapped hmatch) action
      (PolicyRow.mem_cell hcell)
  rcases mem_decisions hdec with ⟨_, h⟩ | ⟨_, h⟩ | ⟨_, h⟩ | ⟨rfl, _⟩
  · exact absurd (hmonitor _ h) (by decide)
  · exact absurd (hmonitor _ h) (by decide)
  · exact absurd (hmonitor _ h) (by decide)
  · rfl

/-- When nothing the device has not been decided on may enforce, the engine at most monitors: for every table
the loader accepts, every memory and every mode, whatever was decided on before. -/
theorem PolicyEngine.capped_evidence_monitors (e : PolicyEngine) (isProtected : RuleTarget → Bool)
    (bundle : EvidenceBundle) (mode : EnforcementMode) (now : Time)
    (hcapped : ∀ item ∈ bundle.evidence,
      (e.recalled (historyKey bundle.target)).used.contains item.id = false →
        item.capped e.config.sustainedPolls) :
    ∀ d ∈ (e.decide isProtected bundle mode now).1, d.action = .monitor := by
  intro d hd
  rw [decide_fst] at hd
  split at hd
  · exact absurd hd List.not_mem_nil
  · refine History.monitor_of_capped (fun item hitem => ?_) hd
    obtain ⟨hmem, hnew⟩ := History.mem_fresh.mp hitem
    exact hcapped item hmem hnew

/-- A device without a known MAC. -/
def quietDevice : RuleTarget := ⟨0x0a2a0014#32, none⟩

/-- A port scan of it. -/
def scanItem : D1Evidence := ⟨"d1:vertical_scan:device:10:10.42.0.20:0", .verticalScan, 10, 40, 15, none, 0⟩

/-- The scan, and an anomaly that corroborates it. -/
def scanBundle : EvidenceBundle := ⟨quietDevice, [.d1 scanItem, .anomaly ⟨"flow-1", 9 / 10, true, 0⟩]⟩

/-- The scan again, with the anomaly of another flow. -/
def afterScanBundle : EvidenceBundle := ⟨quietDevice, [.d1 scanItem, .anomaly ⟨"flow-2", 9 / 10, true, 0⟩]⟩

/-- Once the scan was decided on, only the anomaly of the other flow is new, and it may not enforce. -/
theorem PolicyEngine.capped_evidence_monitors_after_scan :
    (((init shippedTable defaultPolicyConfig).decide (fun _ => false) scanBundle .active 0).2.decide
        (fun _ => false) afterScanBundle .active 1000000).1 ≠ [] ∧
      ∀ d ∈ (((init shippedTable defaultPolicyConfig).decide (fun _ => false) scanBundle .active 0).2.decide
          (fun _ => false) afterScanBundle .active 1000000).1,
        d.action = .monitor := by
  refine ⟨by decide +kernel, capped_evidence_monitors _ _ _ _ _ fun item hitem hnew => ?_⟩
  rcases List.mem_cons.mp hitem with rfl | hitem
  · have hused : (((init shippedTable defaultPolicyConfig).decide (fun _ => false) scanBundle .active 0).2.recalled
        (historyKey afterScanBundle.target)).used.contains scanItem.id = true := by decide +kernel
    exact absurd (hused.symm.trans hnew) (by decide)
  · obtain rfl := List.mem_singleton.mp hitem
    trivial

end Pirewall
