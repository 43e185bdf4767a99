/-
# Pirewall.Policy.Noninterference -- the models move no enforcing decision

Two runs of the engine under the shipped table: one as it happens, one with all anomaly and classifier evidence taken
out of every bundle. Model evidence marks ids as used, makes the engine track devices it would not, and turns two more
rows on. `Shadows` is what still agrees: the strikes, the use of every other id. The enforcing decisions of a call
read nothing else (`SameFresh.enforcing_decide`).

That they read nothing else is a fact about the shipped table and not about the engine. The rows that model evidence
turns on ask for MONITOR, or for RATE_LIMIT where a deterministic detector fired beside it, and the row of that
detector asks for RATE_LIMIT or BLOCK by itself (`shipped_ml_cell`, `shipped_acting`); a table in which a model's row
blocked would decide otherwise, and the statement names the table for that reason. MONITOR is no enforcement, so it is
not in what is compared.

The second point is what the engine remembers. A strike is counted when a decision on D1 evidence is enforced, so the
feedback of both runs counts the same strikes. But a device that only models have reported on is tracked in the first
run and unknown in the second, and a full table would forget another device for it: the first run has to fit in the
engine's memory, and then the second one fits as well (`fits_shadow`).
-/
import Pirewall.Policy.Memory

namespace Pirewall

open Lib

/-! ## What a decision enforces -/

/-- Target, action, TTL and whether it waits for approval, of the decisions that are enforced. -/
def enforcing (ds : List PolicyDecision) : List (RuleTarget × FirewallAction × Option Nat × Bool) :=
  (ds.filter fun d => d.action.restrictive).map fun d =>
    (d.target, d.action, d.ttlSeconds, d.requiresApproval)

/-- The enforced part of `_decisions`: MONITOR plays no part in it. -/
theorem enforcing_decisions (config : PolicyConfig) (bundle : EvidenceBundle) (escalate : Bool)
    (history : History) (ids : List String) (now : Time) (actions : List TableAction) :
    enforcing (decisions config bundle escalate history ids now actions) =
      (if .blockApproval ∈ actions ∧ .block ∉ actions then
        [(bundle.target, .block, some (blockTtl config escalate history), true)] else []) ++
      (if .block ∈ actions then [(bundle.target, .block, some (blockTtl config escalate history), false)]
        else if .rateLimit ∈ actions then
          [(bundle.target, .rateLimit, some (min config.rateLimitTtlSeconds config.maxTtlSeconds), false)]
        else []) := by
  by_cases hblock : TableAction.block ∈ actions <;> by_cases hrate : TableAction.rateLimit ∈ actions <;>
    by_cases hmonitor : TableAction.monitor ∈ actions <;>
    by_cases happroval : TableAction.blockApproval ∈ actions <;>
    simp [decisions, strongest, hblock, hrate, hmonitor, happroval, enforcing, blockHeld,
      blockNow, rateLimitNow, monitorNow, FirewallAction.restrictive]

/-- The actions of the rows a history's fresh evidence matches. -/
def History.actions (history : History) (table : PolicyTable) (config : PolicyConfig)
    (bundle : EvidenceBundle) (mode : EnforcementMode) : List TableAction :=
  (classify (history.fresh bundle) table config.sustainedPolls history.d1Strikes
    (history.newIds bundle)).flatMap fun c => (table.row c).cell mode

/-- Whether the escalating row matches. -/
def History.escalates (history : History) (table : PolicyTable) (config : PolicyConfig)
    (bundle : EvidenceBundle) : Bool :=
  (classify (history.fresh bundle) table config.sustainedPolls history.d1Strikes
    (history.newIds bundle)).any fun c => (table.row c).escalate && c == .d1Escalated

/-- `decide` returns early only where `_decisions` would enforce nothing. -/
theorem enforcing_decide (history : History) (table : PolicyTable) (config : PolicyConfig)
    (bundle : EvidenceBundle) (mode : EnforcementMode) (now : Time) :
    enforcing (history.decide table config bundle mode now) =
      enforcing (decisions config bundle (history.escalates table config bundle) history bundle.ids now
        (history.actions table config bundle mode)) := by
  have hempty : classify (history.fresh bundle) table config.sustainedPolls history.d1Strikes
      (history.newIds bundle) = [] → enforcing (decisions config bundle
        (history.escalates table config bundle) history bundle.ids now
        (history.actions table config bundle mode)) = [] := by
    intro hclasses
    rw [enforcing_decisions, History.actions, hclasses]
    rfl
  simp only [History.decide]
  split
  · rename_i hnone
    have hfresh : history.fresh bundle = [] := by
      refine List.eq_nil_iff_forall_not_mem.mpr fun item hitem => ?_
      obtain ⟨hmem, hfree⟩ := History.mem_fresh.mp hitem
      have hnew := History.mem_newIds.mpr ⟨EvidenceBundle.mem_ids.mpr ⟨item, hmem, rfl⟩, hfree⟩
      exact List.ne_nil_of_mem hnew (List.isEmpty_iff.mp hnone)
    rw [hempty (by rw [hfresh]; rfl)]
    rfl
  · split
    · rename_i hclasses
      rw [hempty (List.isEmpty_iff.mp hclasses)]
      rfl
    · rfl

theorem History.mem_actions {history : History} {table : PolicyTable} {config : PolicyConfig}
    {bundle : EvidenceBundle} {mode : EnforcementMode} {action : TableAction} :
    action ∈ history.actions table config bundle mode ↔ ∃ c, Matches (history.fresh bundle) table
      config.sustainedPolls history.d1Strikes (history.newIds bundle) c ∧ action ∈ (table.row c).cell mode := by
  simp only [History.actions, List.mem_flatMap, mem_classify]

theorem History.escalates_iff {history : History} {table : PolicyTable} {config : PolicyConfig}
    {bundle : EvidenceBundle} :
    history.escalates table config bundle = true ↔ Matches (history.fresh bundle) table
      config.sustainedPolls history.d1Strikes (history.newIds bundle) .d1Escalated ∧
      (table.row .d1Escalated).escalate = true := by
  simp only [History.escalates, List.any_eq_true, mem_classify, Bool.and_eq_true, beq_iff_eq]
  constructor
  · rintro ⟨c, hmatch, hrow, rfl⟩
    exact ⟨hmatch, hrow⟩
  · rintro ⟨hmatch, hrow⟩
    exact ⟨_, hmatch, hrow, rfl⟩

/-! ## Taking the model evidence out -/

/-- The bundle without anomaly and classifier evidence. -/
def EvidenceBundle.withoutMl (bundle : EvidenceBundle) : EvidenceBundle :=
  { bundle with evidence := bundle.evidence.filter fun item => !item.isMl }

theorem EvidenceBundle.mem_withoutMl {bundle : EvidenceBundle} {item : Evidence} :
    item ∈ bundle.withoutMl.evidence ↔ item ∈ bundle.evidence ∧ item.isMl = false := by
  rw [withoutMl, List.mem_filter, Bool.not_eq_true']

/-- The rows of the models. -/
def EvidenceClass.isMl : EvidenceClass → Bool
  | .mlOnly | .mlWithD1 => true
  | _ => false

/-- There are two rows of the models. -/
theorem EvidenceClass.eq_of_isMl {c : EvidenceClass} (h : c.isMl = true) : c = .mlOnly ∨ c = .mlWithD1 := by
  unfold isMl at h
  split at h
  · exact .inl rfl
  · exact .inr rfl
  · exact absurd h Bool.false_ne_true

/-- Rows other than the models' read kernel and D1 evidence only. -/
theorem matches_congr {l l' : List Evidence} {table : PolicyTable} {sustainedPolls strikes : Nat}
    {newIds newIds' : List String} (hsame : ∀ item, item.isMl = false → (item ∈ l ↔ item ∈ l'))
    (hnew : ∀ item ∈ l, item.id ∈ newIds) (hnew' : ∀ item ∈ l', item.id ∈ newIds') {c : EvidenceClass}
    (hc : c.isMl = false) :
    Matches l table sustainedPolls strikes newIds c ↔ Matches l' table sustainedPolls strikes newIds' c := by
  have hkernel : ∀ item, .kernel item ∈ l ↔ .kernel item ∈ l' := fun item => hsame _ rfl
  have hd1 : ∀ item, .d1 item ∈ l ↔ .d1 item ∈ l' := fun item => hsame _ rfl
  have hsustained : Sustained l sustainedPolls ↔ Sustained l' sustainedPolls := by
    simp only [Sustained, hkernel]
  have hfresh : ∀ item, (.d1 item ∈ l ∧ table.acting item.detector = true ∧ item.id ∈ newIds) ↔
      (.d1 item ∈ l' ∧ table.acting item.detector = true ∧ item.id ∈ newIds') := by
    intro item
    rw [hd1 item]
    exact ⟨fun h => ⟨h.1, h.2.1, hnew' _ h.1⟩, fun h => ⟨h.1, h.2.1, hnew _ ((hd1 item).mpr h.1)⟩⟩
  cases c with
  | kObserve => simp only [Matches, hkernel]
  | kEnforcePending => simp only [Matches, hkernel]
  | kEnforceSustained => exact hsustained
  | d1High => simp only [Matches, hd1]
  | d1Standard => simp only [Matches, hd1]
  | d1Escalated => simp only [Matches, hfresh, hsustained]
  | mlOnly => exact absurd hc (by decide)
  | mlWithD1 => exact absurd hc (by decide)

/-- The cell of a row in the shipped table. -/
theorem shipped_cell (c : EvidenceClass) (mode : EnforcementMode) :
    (shippedTable.row c).cell mode = if mode = .assisted then (shippedCells c).1 else (shippedCells c).2.1 := by
  rw [← shippedTable_row]
  cases mode with
  | shadow => rfl
  | assisted => rfl
  | active => rfl

/-- The rows of the models neither block nor ask for approval. -/
theorem shipped_ml_cell {c : EvidenceClass} {mode : EnforcementMode} {action : TableAction}
    (hc : c.isMl = true) (h : action ∈ (shippedTable.row c).cell mode) :
    action = .monitor ∨ (action = .rateLimit ∧ c = .mlWithD1) := by
  rw [shipped_cell] at h
  rcases EvidenceClass.eq_of_isMl hc with rfl | rfl
  · refine .inl ?_
    split at h
    · exact List.mem_singleton.mp h
    · exact List.mem_singleton.mp h
  · refine .inr ⟨?_, rfl⟩
    split at h
    · exact List.mem_singleton.mp h
    · exact List.mem_singleton.mp h

/-- Where a detector of either tier fired, RATE_LIMIT or BLOCK is in a D1 row already. -/
theorem shipped_acting {l : List Evidence} {sustainedPolls strikes : Nat} {newIds : List String}
    (h : ActingD1 l shippedTable) (mode : EnforcementMode) :
    ∃ c action, c.isMl = false ∧ Matches l shippedTable sustainedPolls strikes newIds c ∧
      action ∈ (shippedTable.row c).cell mode ∧ (action = .block ∨ action = .rateLimit) := by
  obtain ⟨item, hmem, hacting⟩ := h
  rw [PolicyTable.acting, Bool.or_eq_true, List.contains_iff_mem, List.contains_iff_mem] at hacting
  rcases hacting with hhigh | hstandard
  · refine ⟨.d1High, if mode = .assisted then .rateLimit else .block, rfl, ⟨item, hmem, hhigh⟩, ?_, ?_⟩
    · rw [shipped_cell]
      split
      · exact List.mem_cons_self
      · exact List.mem_cons_self
    · split
      · exact .inr rfl
      · exact .inl rfl
  · refine ⟨.d1Standard, .rateLimit, rfl, ⟨item, hmem, hstandard⟩, ?_, .inr rfl⟩
    rw [shipped_cell]
    split
    · exact List.mem_cons_self
    · exact List.mem_cons_self

section Congr

variable {history history' : History} {config : PolicyConfig} {bundle : EvidenceBundle}

theorem History.fresh_newIds {history : History} {bundle : EvidenceBundle} :
    ∀ item ∈ history.fresh bundle, item.id ∈ history.newIds bundle := fun item hitem =>
  History.mem_newIds.mpr ⟨EvidenceBundle.mem_ids.mpr ⟨item, (History.mem_fresh.mp hitem).1, rfl⟩,
    (History.mem_fresh.mp hitem).2⟩

/-- The other evidence that is fresh is the same on both sides. -/
def SameFresh (history history' : History) (bundle : EvidenceBundle) : Prop :=
  ∀ item, item.isMl = false → (item ∈ history.fresh bundle ↔ item ∈ history'.fresh bundle.withoutMl)

theorem SameFresh.matches_iff (hfresh : SameFresh history history' bundle)
    (hstrikes : history.d1Strikes = history'.d1Strikes) {c : EvidenceClass} (hc : c.isMl = false) :
    Matches (history.fresh bundle) shippedTable config.sustainedPolls history.d1Strikes
        (history.newIds bundle) c ↔
      Matches (history'.fresh bundle.withoutMl) shippedTable config.sustainedPolls history'.d1Strikes
        (history'.newIds bundle.withoutMl) c :=
  hstrikes ▸ matches_congr hfresh History.fresh_newIds History.fresh_newIds hc

/-- Without model evidence the rows of the models do not match. -/
theorem not_matches_withoutMl {c : EvidenceClass} (hc : c.isMl = true) :
    ¬ Matches (history.fresh bundle.withoutMl) shippedTable config.sustainedPolls history.d1Strikes
      (history.newIds bundle.withoutMl) c := by
  have hnone : ¬ ∃ item ∈ history.fresh bundle.withoutMl, item.isMlHit = true := by
    rintro ⟨item, hitem, hhit⟩
    have hml := (EvidenceBundle.mem_withoutMl.mp (History.mem_fresh.mp hitem).1).2
    exact absurd ((Evidence.isMl_of_isMlHit hhit).symm.trans hml) (by decide)
  rcases EvidenceClass.eq_of_isMl hc with rfl | rfl
  · exact fun h => hnone h.1
  · exact fun h => hnone h.1

theorem SameFresh.actions_of_withoutMl (hfresh : SameFresh history history' bundle)
    (hstrikes : history.d1Strikes = history'.d1Strikes) {mode : EnforcementMode} {action : TableAction}
    (h : action ∈ history'.actions shippedTable config bundle.withoutMl mode) :
    action ∈ history.actions shippedTable config bundle mode := by
  obtain ⟨c, hc, hcell⟩ := History.mem_actions.mp h
  cases hml : c.isMl with
  | true => exact absurd hc (not_matches_withoutMl hml)
  | false => exact History.mem_actions.mpr ⟨c, (hfresh.matches_iff hstrikes hml).mpr hc, hcell⟩

/-- The models add a MONITOR, or a RATE_LIMIT where there is a BLOCK. -/
theorem SameFresh.actions_withoutMl (hfresh : SameFresh history history' bundle)
    (hstrikes : history.d1Strikes = history'.d1Strikes) {mode : EnforcementMode} {action : TableAction}
    (h : action ∈ history.actions shippedTable config bundle mode) :
    action ∈ history'.actions shippedTable config bundle.withoutMl mode ∨ action = .monitor ∨
      (action = .rateLimit ∧ .block ∈ history'.actions shippedTable config bundle.withoutMl mode) := by
  obtain ⟨c, hc, hcell⟩ := History.mem_actions.mp h
  cases hml : c.isMl with
  | false => exact .inl (History.mem_actions.mpr ⟨c, (hfresh.matches_iff hstrikes hml).mp hc, hcell⟩)
  | true =>
    rcases shipped_ml_cell hml hcell with hmonitor | ⟨hrate, rfl⟩
    · exact .inr (.inl hmonitor)
    · obtain ⟨c', action', hml', hc', hcell', haction'⟩ := shipped_acting hc.2 mode
      have hmem : action' ∈ history'.actions shippedTable config bundle.withoutMl mode :=
        History.mem_actions.mpr ⟨c', (hfresh.matches_iff hstrikes hml').mp hc', hcell'⟩
      rcases haction' with rfl | rfl
      · exact .inr (.inr ⟨hrate, hmem⟩)
      · exact .inl (hrate ▸ hmem)

/-- Under the shipped table, the enforced decisions of a call depend on the strikes and on which of the other
evidence is fresh. -/
theorem SameFresh.enforcing_decide (hfresh : SameFresh history history' bundle)
    (hstrikes : history.d1Strikes = history'.d1Strikes) (mode : EnforcementMode) (now : Time) :
    enforcing (history.decide shippedTable config bundle mode now) =
      enforcing (history'.decide shippedTable config bundle.withoutMl mode now) := by
  have hexact : ∀ action, action ≠ .monitor → action ≠ .rateLimit →
      (action ∈ history.actions shippedTable config bundle mode ↔
        action ∈ history'.actions shippedTable config bundle.withoutMl mode) := by
    intro action hmonitor hrate
    refine ⟨fun h => ?_, hfresh.actions_of_withoutMl hstrikes⟩
    rcases hfresh.actions_withoutMl hstrikes h with h | h | h
    · exact h
    · exact absurd h hmonitor
    · exact absurd h.1 hrate
  have hblockIff := hexact .block (by decide) (by decide)
  have happrovalIff := hexact .blockApproval (by decide) (by decide)
  have hescalate : history.escalates shippedTable config bundle =
      history'.escalates shippedTable config bundle.withoutMl := by
    rw [Bool.eq_iff_iff, History.escalates_iff, History.escalates_iff, hfresh.matches_iff hstrikes rfl]
  have httl : ∀ escalate, blockTtl config escalate history = blockTtl config escalate history' := by
    intro escalate
    simp only [blockTtl, hstrikes]
  have htarget : bundle.withoutMl.target = bundle.target := rfl
  rw [Pirewall.enforcing_decide, Pirewall.enforcing_decide, enforcing_decisions, enforcing_decisions]
  simp only [hblockIff, happrovalIff, hescalate, httl, htarget]
  by_cases hblock : TableAction.block ∈ history'.actions shippedTable config bundle.withoutMl mode
  · simp only [hblock, if_true]
  · have hrate : TableAction.rateLimit ∈ history.actions shippedTable config bundle mode ↔
        TableAction.rateLimit ∈ history'.actions shippedTable config bundle.withoutMl mode := by
      refine ⟨fun h => ?_, hfresh.actions_of_withoutMl hstrikes⟩
      rcases hfresh.actions_withoutMl hstrikes h with h | h | h
      · exact h
      · exact absurd h (by decide)
      · exact absurd h.2 hblock
    simp only [hblock, hrate, if_false]

end Congr

/-! ## Two runs -/

/-- The call without model evidence; feedback stays as it is. -/
def PolicyCall.withoutMl : PolicyCall → PolicyCall
  | .decide isProtected bundle mode now => .decide isProtected bundle.withoutMl mode now
  | .enforced decision hadD1 => .enforced decision hadD1

def PolicyCall.evidence : PolicyCall → List Evidence
  | .decide _ bundle _ _ => bundle.evidence
  | .enforced _ _ => []

/-- `marked` holds of the ids of model evidence and of no others. -/
def PolicyCall.Marked (marked : String → Prop) (call : PolicyCall) : Prop :=
  ∀ item ∈ call.evidence, item.isMl = true ↔ marked item.id

/-- The memory of the run without model evidence, beside the one with it. -/
structure Shadows (marked : String → Prop) (m m' : Memory) : Prop where
  strikes : ∀ key, (m.recalled key).d1Strikes = (m'.recalled key).d1Strikes
  used : ∀ key id, ¬ marked id →
    ((m.recalled key).used.contains id = true ↔ (m'.recalled key).used.contains id = true)
  subset : ∀ key id, (m'.recalled key).used.contains id = true → (m.recalled key).used.contains id = true
  tracked : ∀ key, (m' key).isSome = true → (m key).isSome = true

section Step

variable {marked : String → Prop} {m m' : Memory}

/-- A bundle on which something is decided without the models is not quiet with them. -/
theorem quiet_withoutMl {isProtected : RuleTarget → Bool} {bundle : EvidenceBundle}
    (h : PolicyEngine.quiet isProtected bundle.withoutMl = false) :
    PolicyEngine.quiet isProtected bundle = false := by
  rw [PolicyEngine.quiet, Bool.or_eq_false_iff] at h ⊢
  refine ⟨?_, h.2⟩
  cases hlist : bundle.evidence with
  | nil => exact absurd h.1 (by rw [EvidenceBundle.withoutMl, hlist]; simp)
  | cons _ _ => rfl

theorem device_withoutMl {call : PolicyCall} {target : RuleTarget}
    (h : call.withoutMl.device = some target) : call.device = some target := by
  cases call with
  | decide isProtected bundle mode now =>
    simp only [PolicyCall.withoutMl, PolicyCall.device] at h ⊢
    split at h
    · exact absurd h (by simp)
    · rename_i hquiet
      rw [quiet_withoutMl (by simpa using hquiet)]
      exact h
  | enforced decision hadD1 => exact h

/-- What is fresh beside the models' evidence is the same in both runs. -/
theorem Shadows.sameFresh (h : Shadows marked m m') {bundle : EvidenceBundle}
    (hmarked : ∀ item ∈ bundle.evidence, item.isMl = true ↔ marked item.id) (key : String) :
    SameFresh (m.recalled key) (m'.recalled key) bundle := by
  intro item hml
  rw [History.mem_fresh, History.mem_fresh, EvidenceBundle.mem_withoutMl]
  constructor
  · rintro ⟨hmem, hfree⟩
    have hid : ¬ marked item.id := fun hid => absurd ((hmarked item hmem).mpr hid) (by rw [hml]; decide)
    refine ⟨⟨hmem, hml⟩, ?_⟩
    rw [← Bool.not_eq_true, ← h.used key item.id hid, hfree]
    decide
  · rintro ⟨⟨hmem, _⟩, hfree⟩
    have hid : ¬ marked item.id := fun hid => absurd ((hmarked item hmem).mpr hid) (by rw [hml]; decide)
    refine ⟨hmem, ?_⟩
    rw [← Bool.not_eq_true, h.used key item.id hid, hfree]
    decide

/-- The ids that are used after a call. -/
theorem contains_step_iff {call : PolicyCall} {key id : String} :
    ((m.step call).recalled key).used.contains id = true ↔ (m.recalled key).used.contains id = true ∨
      (call.device.map historyKey = some key ∧ ∃ item ∈ call.evidence, item.id = id) := by
  rw [Memory.recalled_step]
  split
  · rename_i hdevice
    cases call with
    | decide isProtected bundle mode now =>
      rw [Memory.updated, History.contains_after, EvidenceBundle.mem_ids]
      exact or_congr_right ⟨fun h => ⟨hdevice, h⟩, fun h => h.2⟩
    | enforced decision hadD1 => simp [Memory.updated, PolicyCall.evidence]
  · rename_i hdevice
    simp [hdevice]

/-- Deciding changes no strikes. -/
theorem strikes_decide (m : Memory) (isProtected : RuleTarget → Bool) (bundle : EvidenceBundle)
    (mode : EnforcementMode) (now : Time) (key : String) :
    ((m.step (.decide isProtected bundle mode now)).recalled key).d1Strikes =
      (m.recalled key).d1Strikes := by
  rw [Memory.recalled_step]
  split
  · exact History.after_d1Strikes _ _
  · rfl

/-- The strikes after a call are the same in both runs. -/
theorem Shadows.step_strikes (h : Shadows marked m m') (call : PolicyCall) (key : String) :
    ((m.step call).recalled key).d1Strikes = ((m'.step call.withoutMl).recalled key).d1Strikes := by
  cases call with
  | decide isProtected bundle mode now =>
    rw [PolicyCall.withoutMl, strikes_decide, strikes_decide]
    exact h.strikes key
  | enforced decision hadD1 =>
    rw [PolicyCall.withoutMl, Memory.recalled_step, Memory.recalled_step]
    by_cases hdevice : (PolicyCall.enforced decision hadD1).device.map historyKey = some key
    · rw [if_pos hdevice, if_pos hdevice]
      show (m.recalled key).d1Strikes + 1 = (m'.recalled key).d1Strikes + 1
      rw [h.strikes key]
    · rw [if_neg hdevice, if_neg hdevice]
      exact h.strikes key

/-- The devices tracked after a call. -/
theorem Memory.isSome_step (m : Memory) (call : PolicyCall) (key : String) :
    ((m.step call) key).isSome = true ↔
      (m key).isSome = true ∨ call.device.map historyKey = some key := by
  unfold Memory.step
  cases call.device with
  | none => simp
  | some target =>
    simp only [Function.update_apply, Option.map_some, Option.some.injEq, eq_comm]
    split
    · rename_i heq
      simp [heq]
    · rename_i hne
      simp [hne]

/-- A call keeps the two memories side by side. -/
theorem Shadows.step (h : Shadows marked m m') {call : PolicyCall} (hmarked : call.Marked marked) :
    Shadows marked (m.step call) (m'.step call.withoutMl) where
  strikes := h.step_strikes call
  used := by
    intro key id hid
    rw [contains_step_iff, contains_step_iff, h.used key id hid]
    refine or_congr_right ⟨?_, ?_⟩
    · rintro ⟨hdevice, item, hitem, rfl⟩
      have hml : item.isMl = false := by
        rw [← Bool.not_eq_true, hmarked item hitem]
        exact hid
      cases call with
      | decide isProtected bundle mode now =>
        -- the item is left, so the call still acts
        have hleft : item ∈ bundle.withoutMl.evidence := EvidenceBundle.mem_withoutMl.mpr ⟨hitem, hml⟩
        refine ⟨?_, item, hleft, rfl⟩
        rw [← hdevice]
        have hnonempty : bundle.evidence.isEmpty = false :=
          List.isEmpty_eq_false_iff.mpr (List.ne_nil_of_mem hitem)
        have hnonempty' : bundle.withoutMl.evidence.isEmpty = false :=
          List.isEmpty_eq_false_iff.mpr (List.ne_nil_of_mem hleft)
        simp only [PolicyCall.withoutMl, PolicyCall.device, PolicyEngine.quiet, hnonempty, hnonempty']
        rfl
      | enforced decision hadD1 => exact absurd hitem List.not_mem_nil
    · rintro ⟨hdevice, item, hitem, rfl⟩
      obtain ⟨target, htarget, hkey⟩ := Option.map_eq_some_iff.mp hdevice
      refine ⟨by rw [device_withoutMl htarget, Option.map_some, hkey], item, ?_, rfl⟩
      cases call with
      | decide isProtected bundle mode now => exact (EvidenceBundle.mem_withoutMl.mp hitem).1
      | enforced decision hadD1 => exact hitem
  subset := by
    intro key id hused
    rw [contains_step_iff] at hused ⊢
    refine hused.imp (h.subset key id) ?_
    rintro ⟨hdevice, item, hitem, rfl⟩
    obtain ⟨target, htarget, hkey⟩ := Option.map_eq_some_iff.mp hdevice
    refine ⟨by rw [device_withoutMl htarget, Option.map_some, hkey], item, ?_, rfl⟩
    cases call with
    | decide isProtected bundle mode now => exact (EvidenceBundle.mem_withoutMl.mp hitem).1
    | enforced decision hadD1 => exact hitem
  tracked := by
    intro key hsome
    rw [Memory.isSome_step] at hsome ⊢
    refine hsome.imp (h.tracked key) fun hdevice => ?_
    obtain ⟨target, htarget, hkey⟩ := Option.map_eq_some_iff.mp hdevice
    rw [device_withoutMl htarget, Option.map_some, hkey]

end Step

namespace PolicyEngine

variable {marked : String → Prop} {e e' : PolicyEngine} {call : PolicyCall}

theorem mem_keys_iff_memory {key : String} : key ∈ e.history.keys ↔ (e.memory key).isSome = true := by
  rw [Dict.mem_keys_iff, Option.isSome_iff_exists]
  rfl

/-- A call that fits keeps the number of tracked devices under its bound. -/
theorem size_step (hfits : e.Fits call) (hsize : e.history.size ≤ e.config.maxTrackedDevices) :
    (e.step call).history.size ≤ e.config.maxTrackedDevices := by
  have hkeys : ∀ key ∈ (e.step call).history.keys,
      key ∈ e.history.keys ∨ call.device.map historyKey = some key := by
    intro key hkey
    rw [mem_keys_iff_memory, memory_step hfits, Memory.isSome_step] at hkey
    exact hkey.imp mem_keys_iff_memory.mpr id
  cases hdevice : call.device with
  | none =>
    refine (Dict.size_le_of_keys fun key hkey => ?_).trans hsize
    exact (hkeys key hkey).elim id fun h => absurd h (by rw [hdevice]; simp)
  | some target =>
    have hroom : e.HasRoom target := by
      cases call with
      | decide isProtected bundle mode now =>
        simp only [PolicyCall.device] at hdevice
        split at hdevice
        · exact absurd hdevice (by simp)
        · rename_i hquiet
          exact Option.some.inj hdevice ▸ (hfits (by simpa using hquiet)).1
      | enforced decision hadD1 =>
        simp only [PolicyCall.device] at hdevice
        split at hdevice
        · rename_i hcounts
          exact Option.some.inj hdevice ▸ hfits hcounts
        · exact absurd hdevice (by simp)
    rw [hdevice, Option.map_some] at hkeys
    rcases hroom with htracked | hless
    · refine (Dict.size_le_of_keys fun key hkey => ?_).trans hsize
      rcases hkeys key hkey with h | h
      · exact h
      · rw [← Option.some.inj h]
        exact mem_keys_iff_memory.mpr htracked
    · have hmore : (e.history.set (historyKey target) History.new).size ≤ e.history.size + 1 := by
        cases hget : e.history.get? (historyKey target) with
        | none => exact le_of_eq (Dict.size_set_of_none hget _)
        | some found =>
          refine (Dict.size_le_of_keys fun key hkey => ?_).trans (Nat.le_succ _)
          rcases Dict.mem_keys_set.mp hkey with rfl | h
          · exact Dict.mem_keys_iff.mpr ⟨found, hget⟩
          · exact h
      have hstep : (e.step call).history.size ≤ (e.history.set (historyKey target) History.new).size := by
        refine Dict.size_le_of_keys fun key hkey => Dict.mem_keys_set.mpr ?_
        exact (hkeys key hkey).symm.imp (fun h => (Option.some.inj h).symm) id
      omega

theorem hasRoom_shadow (h : Shadows marked e.memory e'.memory) (hconfig : e'.config = e.config)
    (hsize : e.history.size ≤ e.config.maxTrackedDevices) {target : RuleTarget} (hroom : e.HasRoom target) :
    e'.HasRoom target := by
  have hkeys : ∀ key ∈ e'.history.keys, key ∈ e.history.keys := fun key hkey =>
    mem_keys_iff_memory.mpr (h.tracked key (mem_keys_iff_memory.mp hkey))
  rw [HasRoom, hconfig]
  cases hget : e'.history.get? (historyKey target) with
  | some found => exact .inl rfl
  | none =>
    refine .inr ?_
    rcases hroom with htracked | hless
    · -- the device is tracked on the one side only, so that side tracks one more
      have hmore : (e'.history.set (historyKey target) History.new).size ≤ e.history.size := by
        refine Dict.size_le_of_keys fun key hkey => ?_
        rcases Dict.mem_keys_set.mp hkey with rfl | hmem
        · exact mem_keys_iff_memory.mpr htracked
        · exact hkeys key hmem
      rw [Dict.size_set_of_none hget] at hmore
      omega
    · exact lt_of_le_of_lt (Dict.size_le_of_keys hkeys) hless

/-- Where a call fits, it fits without its model evidence. -/
theorem fits_shadow (h : Shadows marked e.memory e'.memory) (hconfig : e'.config = e.config)
    (hsize : e.history.size ≤ e.config.maxTrackedDevices) (hfits : e.Fits call) :
    e'.Fits call.withoutMl := by
  cases call with
  | decide isProtected bundle mode now =>
    intro hacts
    obtain ⟨hroom, hids⟩ := hfits (quiet_withoutMl hacts)
    refine ⟨hasRoom_shadow h hconfig hsize hroom, ?_⟩
    rw [hconfig]
    refine (size_rememberIds_le (h.subset _) fun id hid => ?_).trans hids
    obtain ⟨item, hitem, hitemId⟩ := EvidenceBundle.mem_ids.mp hid
    exact EvidenceBundle.mem_ids.mpr ⟨item, (EvidenceBundle.mem_withoutMl.mp hitem).1, hitemId⟩
  | enforced decision hadD1 => exact fun hcounts => hasRoom_shadow h hconfig hsize (hfits hcounts)

theorem output_decide (e : PolicyEngine) (isProtected : RuleTarget → Bool) (bundle : EvidenceBundle)
    (mode : EnforcementMode) (now : Time) :
    e.output (.decide isProtected bundle mode now) = if isProtected bundle.target then []
      else (e.recalled (historyKey bundle.target)).decide e.table e.config bundle mode now := by
  rw [output, decide_fst, quiet]
  cases hempty : bundle.evidence.isEmpty with
  | false => rfl
  | true =>
    -- no evidence, nothing new
    have hids : bundle.ids = [] := by
      rw [EvidenceBundle.ids, List.isEmpty_iff.mp hempty]
      rfl
    simp only [Bool.true_or, if_true, History.decide, History.newIds, hids, List.filter_nil,
      List.isEmpty_nil, ite_self]

/-- What a call enforces, in either run. -/
theorem enforcing_output (h : Shadows marked e.memory e'.memory) (htable : e.table = shippedTable)
    (htable' : e'.table = shippedTable) (hconfig : e'.config = e.config) (hmarked : call.Marked marked) :
    enforcing (e.output call) = enforcing (e'.output call.withoutMl) := by
  cases call with
  | decide isProtected bundle mode now =>
    rw [PolicyCall.withoutMl, output_decide, output_decide, htable, htable', hconfig]
    show enforcing (if isProtected bundle.target then [] else _) =
      enforcing (if isProtected bundle.target then [] else _)
    split
    · rfl
    · exact (h.sameFresh hmarked (historyKey bundle.target)).enforcing_decide (h.strikes _) mode now
  | enforced decision hadD1 => rfl

/-- The two runs, side by side. -/
theorem enforcing_outputs (h : Shadows marked e.memory e'.memory) (htable : e.table = shippedTable)
    (htable' : e'.table = shippedTable) (hconfig : e'.config = e.config)
    (hsize : e.history.size ≤ e.config.maxTrackedDevices) {calls : List PolicyCall}
    (hmarked : ∀ call ∈ calls, call.Marked marked) (hfits : Along step Fits e calls) :
    (e.outputs calls).map enforcing = (e'.outputs (calls.map PolicyCall.withoutMl)).map enforcing := by
  induction calls generalizing e e' with
  | nil => rfl
  | cons call rest ih =>
    have hcall := hmarked call List.mem_cons_self
    have hstep : Shadows marked (e.step call).memory (e'.step call.withoutMl).memory := by
      rw [memory_step hfits.1, memory_step (fits_shadow h hconfig hsize hfits.1)]
      exact h.step hcall
    have hsettings := e.step_settings call
    have hsettings' := e'.step_settings call.withoutMl
    have hrest := ih hstep (hsettings.1.trans htable) (hsettings'.1.trans htable')
      (by rw [hsettings'.2, hconfig, hsettings.2]) (by rw [hsettings.2]; exact size_step hfits.1 hsize)
      (fun call' hmem => hmarked call' (List.mem_cons_of_mem call hmem)) hfits.2
    show enforcing (e.output call) :: _ = enforcing (e'.output call.withoutMl) :: _
    rw [enforcing_output h htable htable' hconfig hcall, hrest]

/-- Under the shipped table the models move no enforced decision: along every run that fits in the engine's
memory, with feedback for the same enforced decisions, taking all anomaly and classifier evidence out leaves
the targets, actions, TTLs and approvals of the enforced decisions as they are, call by call. -/
theorem ml_noninterference (config : PolicyConfig) (calls : List PolicyCall)
    (hdistinct : ∀ call ∈ calls, ∀ item ∈ call.evidence, ∀ call' ∈ calls, ∀ item' ∈ call'.evidence,
      item.isMl = true → item'.isMl = false → item.id ≠ item'.id)
    (hfits : Along step Fits (init shippedTable config) calls) :
    ((init shippedTable config).outputs calls).map enforcing =
      ((init shippedTable config).outputs (calls.map PolicyCall.withoutMl)).map enforcing := by
  have hstart : Shadows (fun id => ∃ call ∈ calls, ∃ item ∈ call.evidence, item.isMl = true ∧ item.id = id)
      (init shippedTable config).memory (init shippedTable config).memory :=
    ⟨fun _ => rfl, fun _ _ _ => Iff.rfl, fun _ _ h => h, fun _ h => h⟩
  refine enforcing_outputs hstart rfl rfl rfl (Nat.zero_le _) ?_ hfits
  intro call hcall item hitem
  refine ⟨fun hml => ⟨call, hcall, item, hitem, hml, rfl⟩, ?_⟩
  rintro ⟨call', hcall', item', hitem', hml', hid⟩
  by_contra hother
  exact hdistinct call' hcall' item' hitem' call hcall item hitem hml' (by simpa using hother) hid

/-- A corroborated scan whose BLOCK is enforced, then what a second detector and both models find, then the models
alone. -/
def corroboratedScan : List PolicyCall :=
  [.decide (fun _ => false) scanBundle .active 0,
   .enforced (blockNow defaultPolicyConfig scanBundle false .new scanBundle.ids 0) true,
   .decide (fun _ => false) ⟨quietDevice, handshakeBundle.evidence ++
      [.anomaly ⟨"flow-2", 9 / 10, true, 0⟩,
       .classifier ⟨"classifier:flow-2", "flow-2", none, 95 / 100, 9 / 10, true, some "scan", 0, by decide +kernel⟩]⟩
     .active 2000000,
   .decide (fun _ => false) ⟨quietDevice, [.anomaly ⟨"flow-3", 9 / 10, true, 0⟩]⟩ .active 3000000]

theorem corroboratedScan_fits : Along step Fits (init shippedTable defaultPolicyConfig) corroboratedScan :=
  ⟨fun _ => ⟨.inr (by decide), by decide +kernel⟩, fun _ => .inl (by decide +kernel),
    fun _ => ⟨.inl (by decide +kernel), by decide +kernel⟩,
    fun _ => ⟨.inl (by decide +kernel), by decide +kernel⟩, trivial⟩

theorem ml_noninterference_scan :
    ((init shippedTable defaultPolicyConfig).outputs corroboratedScan).map enforcing =
        [[(quietDevice, .block, some 300, false)], [], [(quietDevice, .block, some 600, false)], []] ∧
      ((init shippedTable defaultPolicyConfig).outputs corroboratedScan).map enforcing =
        ((init shippedTable defaultPolicyConfig).outputs
          (corroboratedScan.map PolicyCall.withoutMl)).map enforcing :=
  ⟨by decide +kernel, ml_noninterference defaultPolicyConfig corroboratedScan (by decide +kernel)
    corroboratedScan_fits⟩

end PolicyEngine

end Pirewall
