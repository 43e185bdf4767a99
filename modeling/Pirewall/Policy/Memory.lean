/-
# Pirewall.Policy.Memory -- runs of the engine, and what repetition does

As long as neither bound of the engine's memory is exceeded, the engine is its memory: a map from devices to histories
that each call updates at one device (`memory_step`). The order in which devices are tracked and the order in which
ids were used are gone at this level, so two engines with the same map behave alike for good (`SameMemory`).

From it: an id classifies a device once, evidence a device has been decided on decides nothing more and leaves no
trace, and the TTL of a decision grows with the strikes and stays under its cap.

Both bounds forget the oldest. The table of devices drops the one that was not looked at for longest, and a history
drops the id that was used first; a device or an id that comes back after that is new to the engine. So every result
about repetition has the condition that a call fits (`Fits`), which is about the state before the call: the device is
tracked or there is room for it, and the ids of the bundle have room in its history. The bounds are settings, and a
run that fits may be as long as it likes.

A used id stays used (`contains_run`), and a bundle in which every id is used is quiet: no decision, no strike, and
the same map (`repeat_quiet`). The engine still puts the device to the end of its order, which the map does not have.
-/
import Pirewall.Lib.Run
import Pirewall.Policy.Engine

namespace Pirewall

open Lib

/-! ## Ids -/

/-- An id is used when it is a key. -/
theorem contains_iff_mem_keys {used : Dict String Unit} {id : String} :
    used.contains id = true ↔ id ∈ used.keys := by
  rw [Dict.contains, Option.isSome_iff_exists, Dict.mem_keys_iff]

theorem contains_rememberIds {used : Dict String Unit} {ids : List String} {id : String} :
    (rememberIds used ids).contains id = true ↔ used.contains id = true ∨ id ∈ ids := by
  unfold rememberIds
  induction ids generalizing used with
  | nil => simp
  | cons first rest ih =>
    rw [List.foldl_cons, ih, List.mem_cons, Dict.contains, Dict.get?_moveToEnd, Dict.get?_set]
    by_cases hid : id = first
    · simp [hid]
    · simp [hid, Dict.contains]

theorem size_rememberIds_le {used used' : Dict String Unit} {ids ids' : List String}
    (hused : ∀ id, used.contains id = true → used'.contains id = true) (hids : ∀ id ∈ ids, id ∈ ids') :
    (rememberIds used ids).size ≤ (rememberIds used' ids').size := by
  refine Dict.size_le_of_keys fun id hid => ?_
  rw [← contains_iff_mem_keys, contains_rememberIds] at hid ⊢
  rcases hid with hid | hid
  · exact .inl (hused id hid)
  · exact .inr (hids id hid)

namespace History

theorem mem_newIds {history : History} {bundle : EvidenceBundle} {id : String} :
    id ∈ history.newIds bundle ↔ id ∈ bundle.ids ∧ history.used.contains id = false := by
  rw [newIds, List.mem_filter, Bool.not_eq_true']

/-- The history after a bundle was decided on. -/
def after (history : History) (bundle : EvidenceBundle) : History :=
  if (history.newIds bundle).isEmpty then history else history.remember bundle.ids

theorem after_d1Strikes (history : History) (bundle : EvidenceBundle) :
    (history.after bundle).d1Strikes = history.d1Strikes := by
  unfold after
  split
  · rfl
  · rfl

/-- A bundle's ids are used after it, and no others. -/
theorem contains_after {history : History} {bundle : EvidenceBundle} {id : String} :
    (history.after bundle).used.contains id = true ↔ history.used.contains id = true ∨ id ∈ bundle.ids := by
  unfold after
  split
  · rename_i hnone
    refine ⟨.inl, fun h => h.elim (fun hused => hused) fun hmem => ?_⟩
    by_contra hnew
    exact List.ne_nil_of_mem (mem_newIds.mpr ⟨hmem, by simpa using hnew⟩) (List.isEmpty_iff.mp hnone)
  · exact contains_rememberIds

end History

/-! ## Calls and runs -/

/-- A call of the engine. -/
inductive PolicyCall where
  | decide (isProtected : RuleTarget → Bool) (bundle : EvidenceBundle) (mode : EnforcementMode) (now : Time)
  | enforced (decision : PolicyDecision) (hadD1 : Bool)

/-- The device a call acts on, when it acts. -/
def PolicyCall.device : PolicyCall → Option RuleTarget
  | .decide isProtected bundle _ _ => if PolicyEngine.quiet isProtected bundle then none else some bundle.target
  | .enforced decision hadD1 => if hadD1 && decision.action.restrictive then some decision.target else none

namespace PolicyEngine

def step (e : PolicyEngine) : PolicyCall → PolicyEngine
  | .decide isProtected bundle mode now => (e.decide isProtected bundle mode now).2
  | .enforced decision hadD1 => e.recordEnforced decision hadD1

/-- The decisions a call returns. -/
def output (e : PolicyEngine) : PolicyCall → List PolicyDecision
  | .decide isProtected bundle mode now => (e.decide isProtected bundle mode now).1
  | .enforced _ _ => []

/-- The decisions of a run, call by call. -/
def outputs (e : PolicyEngine) : List PolicyCall → List (List PolicyDecision)
  | [] => []
  | call :: rest => e.output call :: (e.step call).outputs rest

/-- The evidence a call classifies. -/
def classified (e : PolicyEngine) : PolicyCall → List Evidence
  | .decide isProtected bundle _ _ =>
    if quiet isProtected bundle then [] else (e.recalled (historyKey bundle.target)).fresh bundle
  | .enforced _ _ => []

/-- The device is tracked, or there is room for one more. -/
def HasRoom (e : PolicyEngine) (target : RuleTarget) : Prop :=
  (e.history.get? (historyKey target)).isSome = true ∨ e.history.size < e.config.maxTrackedDevices

/-- The call exceeds neither bound of the memory. -/
def Fits (e : PolicyEngine) : PolicyCall → Prop
  | .decide isProtected bundle _ _ => quiet isProtected bundle = false → e.HasRoom bundle.target ∧
      (rememberIds (e.recalled (historyKey bundle.target)).used bundle.ids).size ≤
        e.config.maxEvidenceIdsPerDevice
  | .enforced decision hadD1 =>
    (hadD1 && decision.action.restrictive) = true → e.HasRoom decision.target

end PolicyEngine

/-! ## The memory as a map -/

/-- What is known of each device, with no bound and no order. -/
abbrev Memory := String → Option History

namespace Memory

def recalled (m : Memory) (key : String) : History := (m key).getD .new

/-- The history a call leaves the device it acts on. -/
def updated (m : Memory) (key : String) : PolicyCall → History
  | .decide _ bundle _ _ => (m.recalled key).after bundle
  | .enforced _ _ => { m.recalled key with d1Strikes := (m.recalled key).d1Strikes + 1 }

def step (m : Memory) (call : PolicyCall) : Memory :=
  match call.device with
  | none => m
  | some target => Function.update m (historyKey target) (some (m.updated (historyKey target) call))

end Memory

namespace PolicyEngine

/-- The map an engine holds. -/
def memory (e : PolicyEngine) : Memory := e.history.get?

/-- A device that is not tracked has an empty history. -/
theorem recalled_memory (e : PolicyEngine) (key : String) :
    Memory.recalled e.history.get? key = e.recalled key := rfl

theorem historyFor_settings (e : PolicyEngine) (target : RuleTarget) :
    (e.historyFor target).2.table = e.table ∧ (e.historyFor target).2.config = e.config := by
  unfold historyFor
  split
  · exact ⟨rfl, rfl⟩
  · exact ⟨rfl, rfl⟩

/-- No call changes the table or the configuration. -/
theorem step_settings (e : PolicyEngine) (call : PolicyCall) :
    (e.step call).table = e.table ∧ (e.step call).config = e.config := by
  cases call with
  | decide isProtected bundle mode now =>
    have hfound := e.historyFor_settings bundle.target
    simp only [step, decide, apply_ite Prod.snd, remember, put]
    split
    · exact ⟨rfl, rfl⟩
    · split
      · exact hfound
      · split
        · exact hfound
        · exact hfound
  | enforced decision hadD1 =>
    have hfound := e.historyFor_settings decision.target
    simp only [step, recordEnforced, put]
    split
    · exact hfound
    · exact ⟨rfl, rfl⟩

/-- With room for the device, looking it up tracks it and forgets nothing. -/
theorem get?_historyFor {e : PolicyEngine} {target : RuleTarget} (hroom : e.HasRoom target) (key : String) :
    (e.historyFor target).2.history.get? key =
      if key = historyKey target then some (e.recalled (historyKey target)) else e.history.get? key := by
  unfold historyFor recalled
  split
  · rename_i hnone
    have hsize : ¬ (e.history.set (historyKey target) .new).size > e.config.maxTrackedDevices := by
      rw [Dict.size_set_of_none hnone]
      rcases hroom with h | h
      · rw [hnone] at h
        exact absurd h (by decide)
      · omega
    simp only [hsize, if_false, Dict.get?_set, hnone, Option.getD_none]
  · rename_i found hfound
    simp only [Dict.get?_moveToEnd, hfound, Option.getD_some]
    split
    · rename_i heq
      rw [heq, hfound]
    · rfl

/-- A call that fits acts on the map at its device. -/
theorem memory_step {e : PolicyEngine} {call : PolicyCall} (hfits : e.Fits call) :
    (e.step call).memory = e.memory.step call := by
  funext key
  cases call with
  | decide isProtected bundle mode now =>
    simp only [memory, step, decide, apply_ite Prod.snd, Memory.step, PolicyCall.device]
    by_cases hquiet : quiet isProtected bundle = true
    · have hquiet' : (bundle.evidence.isEmpty || isProtected bundle.target) = true := hquiet
      simp only [hquiet, hquiet', if_true]
    · have hquiet' : ¬ (bundle.evidence.isEmpty || isProtected bundle.target) = true := hquiet
      obtain ⟨hroom, hsize⟩ := hfits (by simpa using hquiet)
      have hconfig := (e.historyFor_settings bundle.target).2
      simp only [hquiet, hquiet', if_false, ite_self, historyFor_fst, Bool.false_eq_true]
      rw [Function.update_apply, Memory.updated, History.after, recalled_memory]
      split
      · rw [get?_historyFor hroom]
      · simp only [remember, put, hconfig, Dict.keepLast_of_le hsize, Dict.get?_set,
          get?_historyFor hroom]
        split
        · rfl
        · rfl
  | enforced decision hadD1 =>
    simp only [memory, step, recordEnforced, Memory.step, PolicyCall.device]
    by_cases hcounts : (hadD1 && decision.action.restrictive) = true
    · have hroom := hfits hcounts
      simp only [hcounts, if_true, put, Dict.get?_set, get?_historyFor hroom, historyFor_fst]
      rw [Function.update_apply, Memory.updated, recalled_memory]
      split
      · rfl
      · rfl
    · simp only [hcounts, Bool.false_eq_true, if_false]

/-! ## Engines with the same map -/

/-- Two engines that remember the same of every device. -/
structure SameMemory (e e' : PolicyEngine) : Prop where
  table : e.table = e'.table
  config : e.config = e'.config
  memory : e.memory = e'.memory

theorem SameMemory.keys {e e' : PolicyEngine} (h : SameMemory e e') (key : String) :
    key ∈ e.history.keys ↔ key ∈ e'.history.keys := by
  rw [Dict.mem_keys_iff, Dict.mem_keys_iff]
  exact Iff.of_eq (congrArg (fun m : Memory => ∃ v, m key = some v) h.memory)

theorem SameMemory.recalled {e e' : PolicyEngine} (h : SameMemory e e') (key : String) :
    e.recalled key = e'.recalled key := congrArg (fun m : Memory => m.recalled key) h.memory

theorem SameMemory.fits {e e' : PolicyEngine} (h : SameMemory e e') {call : PolicyCall}
    (hfits : e.Fits call) : e'.Fits call := by
  have hsize : e'.history.size = e.history.size := Nat.le_antisymm
    (Dict.size_le_of_keys fun key hkey => (h.keys key).mpr hkey)
    (Dict.size_le_of_keys fun key hkey => (h.keys key).mp hkey)
  have hroom : ∀ target, e.HasRoom target → e'.HasRoom target := by
    intro target hroom
    have hget := congrArg (fun m : Memory => m (historyKey target)) h.memory
    rw [HasRoom, hsize, ← h.config]
    exact hroom.imp (fun hsome => by rw [← show _ = e'.history.get? _ from hget]; exact hsome) id
  cases call with
  | decide isProtected bundle mode now =>
    intro hacts
    obtain ⟨hfirst, hids⟩ := hfits hacts
    refine ⟨hroom _ hfirst, ?_⟩
    rw [← h.recalled, ← h.config]
    exact hids
  | enforced decision hadD1 => exact fun hcounts => hroom _ (hfits hcounts)

theorem SameMemory.output {e e' : PolicyEngine} (h : SameMemory e e') (call : PolicyCall) :
    e.output call = e'.output call := by
  cases call with
  | decide isProtected bundle mode now =>
    simp only [PolicyEngine.output, decide_fst, h.recalled, h.table, h.config]
  | enforced decision hadD1 => rfl

theorem SameMemory.step {e e' : PolicyEngine} (h : SameMemory e e') {call : PolicyCall}
    (hfits : e.Fits call) : SameMemory (e.step call) (e'.step call) where
  table := ((e.step_settings call).1.trans h.table).trans (e'.step_settings call).1.symm
  config := ((e.step_settings call).2.trans h.config).trans (e'.step_settings call).2.symm
  memory := by rw [memory_step hfits, memory_step (h.fits hfits), h.memory]

/-- They answer alike for good. -/
theorem SameMemory.outputs {e e' : PolicyEngine} (h : SameMemory e e') {calls : List PolicyCall}
    (hfits : Along PolicyEngine.step Fits e calls) : e.outputs calls = e'.outputs calls := by
  induction calls generalizing e e' with
  | nil => rfl
  | cons call rest ih =>
    show e.output call :: (e.step call).outputs rest = e'.output call :: (e'.step call).outputs rest
    rw [h.output call, ih (h.step hfits.1) hfits.2]

end PolicyEngine

/-! ## What is used stays used -/

namespace Memory

theorem recalled_step (m : Memory) (call : PolicyCall) (key : String) :
    (m.step call).recalled key =
      if call.device.map historyKey = some key then m.updated key call else m.recalled key := by
  unfold step
  cases call.device with
  | none => simp
  | some target =>
    simp only [Option.map_some, Option.some.injEq, recalled, Function.update_apply, eq_comm]
    split
    · rename_i heq
      rw [← heq, Option.getD_some]
    · rfl

/-- A call forgets no id. -/
theorem contains_step {m : Memory} {key id : String} (h : (m.recalled key).used.contains id = true)
    (call : PolicyCall) : ((m.step call).recalled key).used.contains id = true := by
  rw [recalled_step]
  split
  · cases call with
    | decide _ bundle _ _ => exact History.contains_after.mpr (.inl h)
    | enforced _ _ => exact h
  · exact h

end Memory

namespace PolicyEngine

variable {e : PolicyEngine} {calls : List PolicyCall}

/-- Along a run that fits, a used id stays used. -/
theorem contains_run (hfits : Along step Fits e calls) {key id : String}
    (h : (e.recalled key).used.contains id = true) :
    ((run step e calls).recalled key).used.contains id = true := by
  induction calls generalizing e with
  | nil => exact h
  | cons call rest ih =>
    refine ih hfits.2 ?_
    have hstep := Memory.contains_step (m := e.memory) h call
    rwa [← memory_step hfits.1] at hstep

/-- What a call classified is used after it. -/
theorem contains_of_classified {call : PolicyCall} (hfits : e.Fits call) {target : RuleTarget}
    (hdevice : call.device = some target) {item : Evidence} (hitem : item ∈ e.classified call) :
    ((e.step call).recalled (historyKey target)).used.contains item.id = true := by
  show ((e.step call).memory.recalled (historyKey target)).used.contains item.id = true
  rw [memory_step hfits, Memory.recalled_step, if_pos (by rw [hdevice]; rfl)]
  cases call with
  | decide isProtected bundle mode now =>
    simp only [classified] at hitem
    split at hitem
    · exact absurd hitem List.not_mem_nil
    · exact History.contains_after.mpr
        (.inr (EvidenceBundle.mem_ids.mpr ⟨item, (History.mem_fresh.mp hitem).1, rfl⟩))
  | enforced _ _ => exact absurd hitem List.not_mem_nil

/-- A call classifies nothing that is used. -/
theorem not_contains_of_classified {call : PolicyCall} {item : Evidence} (hitem : item ∈ e.classified call) :
    ∃ target, call.device = some target ∧
      (e.recalled (historyKey target)).used.contains item.id = false := by
  cases call with
  | decide isProtected bundle mode now =>
    simp only [classified] at hitem
    split at hitem
    · exact absurd hitem List.not_mem_nil
    · rename_i hquiet
      exact ⟨bundle.target, by simp only [PolicyCall.device, if_neg hquiet],
        (History.mem_fresh.mp hitem).2⟩
  | enforced _ _ => exact absurd hitem List.not_mem_nil

theorem run_settings (e : PolicyEngine) (calls : List PolicyCall) :
    (run step e calls).table = e.table ∧ (run step e calls).config = e.config := by
  induction calls generalizing e with
  | nil => exact ⟨rfl, rfl⟩
  | cons call rest ih =>
    obtain ⟨htable, hconfig⟩ := e.step_settings call
    exact ⟨(ih (e.step call)).1.trans htable, (ih (e.step call)).2.trans hconfig⟩

end PolicyEngine

/-- An earlier call decided the device on an id. -/
def DecidedOn (calls : List PolicyCall) (key id : String) : Prop :=
  ∃ isProtected bundle mode now, .decide isProtected bundle mode now ∈ calls ∧
    PolicyEngine.quiet isProtected bundle = false ∧ historyKey bundle.target = key ∧ id ∈ bundle.ids

namespace PolicyEngine

/-- What was decided on is used. -/
theorem contains_of_decidedOn {e : PolicyEngine} {calls : List PolicyCall}
    (hfits : Along step Fits e calls) {key id : String} (h : DecidedOn calls key id) :
    ((run step e calls).recalled key).used.contains id = true := by
  obtain ⟨isProtected, bundle, mode, now, hmem, hquiet, rfl, hid⟩ := h
  obtain ⟨before, after, rfl⟩ := List.append_of_mem hmem
  obtain ⟨_, hcall, hafter⟩ := Along.append_iff.mp hfits
  rw [run_append, run_cons]
  refine contains_run hafter ?_
  show ((PolicyEngine.step _ _).memory.recalled _).used.contains id = true
  rw [memory_step hcall, Memory.recalled_step, if_pos (by simp [PolicyCall.device, hquiet])]
  exact History.contains_after.mpr (.inr hid)

/-- A bundle with nothing new: no decision, and the map stays as it is. -/
theorem repeat_quiet {e : PolicyEngine} {isProtected : RuleTarget → Bool} {bundle : EvidenceBundle}
    (mode : EnforcementMode) (now : Time) (hfits : e.Fits (.decide isProtected bundle mode now))
    (hused : ∀ id ∈ bundle.ids, (e.recalled (historyKey bundle.target)).used.contains id = true) :
    e.output (.decide isProtected bundle mode now) = [] ∧
      SameMemory (e.step (.decide isProtected bundle mode now)) e := by
  have hnew : (e.recalled (historyKey bundle.target)).newIds bundle = [] := by
    refine List.eq_nil_iff_forall_not_mem.mpr fun id hid => ?_
    obtain ⟨hmem, hfree⟩ := History.mem_newIds.mp hid
    exact absurd (hused id hmem) (by rw [hfree]; exact Bool.false_ne_true)
  refine ⟨?_, (e.step_settings _).1, (e.step_settings _).2, ?_⟩
  · simp only [output, decide_fst, History.decide, hnew, List.isEmpty_nil, if_true, ite_self]
  · rw [memory_step hfits]
    unfold Memory.step
    split
    · rfl
    · rename_i target hdevice
      simp only [PolicyCall.device] at hdevice
      split at hdevice
      · exact absurd hdevice (by simp)
      · rename_i hquiet
        obtain rfl := Option.some.inj hdevice
        -- the device has an entry: an id of the bundle is in it
        obtain ⟨item, hitem⟩ : ∃ item, item ∈ bundle.evidence := by
          refine List.exists_mem_of_ne_nil _ fun hnil => hquiet ?_
          rw [quiet, hnil, List.isEmpty_nil, Bool.true_or]
        have hentry := hused item.id (EvidenceBundle.mem_ids.mpr ⟨item, hitem, rfl⟩)
        obtain ⟨found, hfound⟩ : ∃ found, e.history.get? (historyKey bundle.target) = some found := by
          rw [← Option.isSome_iff_exists]
          by_contra hnone
          rw [Option.not_isSome_iff_eq_none] at hnone
          rw [recalled, hnone] at hentry
          exact absurd hentry (by simp [History.new, Dict.contains])
        have hsame : e.memory.updated (historyKey bundle.target) (.decide isProtected bundle mode now) =
            found := by
          show (e.recalled (historyKey bundle.target)).after bundle = found
          rw [History.after, hnew, List.isEmpty_nil, if_pos rfl, recalled, hfound, Option.getD_some]
        rw [hsame, show some found = e.memory (historyKey bundle.target) from hfound.symm,
          Function.update_eq_self]

end PolicyEngine

/-! ## TTLs -/

theorem blockTtl_mono (config : PolicyConfig) {escalate escalate' : Bool} {history history' : History}
    (hescalate : escalate = true → escalate' = true) (hstrikes : history.d1Strikes ≤ history'.d1Strikes) :
    blockTtl config escalate history ≤ blockTtl config escalate' history' := by
  have hpow : config.escalationTtlMultiplier ^ max history.d1Strikes 1 ≤
      config.escalationTtlMultiplier ^ max history'.d1Strikes 1 :=
    Nat.pow_le_pow_right config.multiplier_pos (max_le_max hstrikes (le_refl 1))
  have hone : 1 ≤ config.escalationTtlMultiplier ^ max history'.d1Strikes 1 :=
    Nat.one_le_pow _ _ config.multiplier_pos
  simp only [blockTtl]
  refine min_le_min ?_ (le_refl _)
  cases escalate with
  | true =>
    rw [hescalate rfl, if_pos rfl, if_pos rfl]
    exact Nat.mul_le_mul_left _ hpow
  | false =>
    cases escalate' with
    | true =>
      rw [if_neg Bool.false_ne_true, if_pos rfl]
      exact Nat.le_mul_of_pos_right _ hone
    | false => exact le_refl _

/-- More strikes keep a match of the escalating row. -/
theorem escalated_mono {bundle : List Evidence} {table : PolicyTable} {sustainedPolls strikes strikes' : Nat}
    {newIds : List String} (h : strikes ≤ strikes')
    (hmatch : Matches bundle table sustainedPolls strikes newIds .d1Escalated) :
    Matches bundle table sustainedPolls strikes' newIds .d1Escalated :=
  ⟨hmatch.1, hmatch.2.imp id fun hpos => lt_of_lt_of_le hpos h⟩

/-- The TTL a decision for an action has. -/
def ttlOf (config : PolicyConfig) (escalate : Bool) (history : History) : FirewallAction → Option Nat
  | .block => some (blockTtl config escalate history)
  | .rateLimit => some (min config.rateLimitTtlSeconds config.maxTtlSeconds)
  | .monitor | .allow => none

/-- The TTL of each decision. -/
theorem decisions_ttl {config : PolicyConfig} {bundle : EvidenceBundle} {actions : List TableAction}
    {escalate : Bool} {history : History} {ids : List String} {now : Time} {d : PolicyDecision}
    (h : d ∈ decisions config bundle escalate history ids now actions) :
    d.ttlSeconds = ttlOf config escalate history d.action := by
  rcases mem_decisions h with ⟨rfl, _⟩ | ⟨rfl, _⟩ | ⟨rfl, _⟩ | ⟨rfl, _⟩
  · rfl
  · rfl
  · rfl
  · rfl

/-- Same device, same evidence, more strikes: a decision for the same action lasts no less. -/
theorem History.ttl_mono {history : History} {strikes : Nat} (hstrikes : history.d1Strikes ≤ strikes)
    {table : PolicyTable} {config : PolicyConfig} {bundle : EvidenceBundle} {mode : EnforcementMode}
    {now : Time} {d d' : PolicyDecision} (hd : d ∈ history.decide table config bundle mode now)
    (hd' : d' ∈ History.decide { history with d1Strikes := strikes } table config bundle mode now)
    (haction : d.action = d'.action) : d.ttlSeconds.getD 0 ≤ d'.ttlSeconds.getD 0 := by
  obtain ⟨escalate, actions, hmem, hiff, _⟩ := History.mem_decide hd
  obtain ⟨escalate', actions', hmem', hiff', _⟩ := History.mem_decide hd'
  have hescalate : escalate = true → escalate' = true := fun h =>
    hiff'.mpr ⟨(hiff.mp h).1, escalated_mono hstrikes (hiff.mp h).2⟩
  rw [decisions_ttl hmem, decisions_ttl hmem', ← haction]
  cases d.action with
  | block => exact blockTtl_mono config hescalate hstrikes
  | rateLimit => exact le_refl _
  | monitor => exact le_refl _
  | allow => exact le_refl _

theorem History.ttl_range {history : History} {table : PolicyTable} {config : PolicyConfig}
    {bundle : EvidenceBundle} {mode : EnforcementMode} {now : Time} {d : PolicyDecision}
    (hd : d ∈ history.decide table config bundle mode now) (haction : d.action.restrictive = true) :
    ∃ ttl, d.ttlSeconds = some ttl ∧ 1 ≤ ttl ∧ ttl ≤ config.maxTtlSeconds := by
  obtain ⟨escalate, actions, hmem, _, _⟩ := History.mem_decide hd
  rw [decisions_ttl hmem]
  cases hact : d.action with
  | block => exact ⟨_, rfl, blockTtl_range config escalate history⟩
  | rateLimit => exact ⟨_, rfl, le_min config.rateLimitTtl_pos config.maxTtl_pos, min_le_right _ _⟩
  | monitor => exact absurd (hact ▸ haction) (by decide)
  | allow => exact absurd (hact ▸ haction) (by decide)

/-! ## Repetition -/

namespace PolicyEngine

/-- Two calls of a run that fits classify a device on different ids. -/
theorem classified_once {e : PolicyEngine} {before between after : List PolicyCall} {call call' : PolicyCall}
    (hfits : Along step Fits e (before ++ call :: (between ++ call' :: after)))
    (hdevice : call.device.map historyKey = call'.device.map historyKey) {item item' : Evidence}
    (hitem : item ∈ (run step e before).classified call)
    (hitem' : item' ∈ (run step e (before ++ call :: between)).classified call') : item.id ≠ item'.id := by
  intro hid
  obtain ⟨_, hcall, hrest⟩ := Along.append_iff.mp hfits
  obtain ⟨hbetween, _⟩ := Along.append_iff.mp hrest
  obtain ⟨target, htarget, _⟩ := not_contains_of_classified hitem
  obtain ⟨target', htarget', hfree⟩ := not_contains_of_classified hitem'
  have hkey : historyKey target = historyKey target' := by
    rw [htarget, htarget'] at hdevice
    exact Option.some.inj hdevice
  -- used by the first call, still used at the second
  have hused := contains_run hbetween (contains_of_classified hcall htarget hitem)
  rw [run_append, run_cons, ← hkey, ← hid] at hfree
  exact absurd (hused.symm.trans hfree) (by decide)

/-- Along every run that fits in the engine's memory: an evidence id classifies a device in at most one call;
a bundle whose ids the device was all decided on gives no decision and changes none that comes after; and
what is decided lasts between one second and the cap, no less with more strikes. -/
theorem repeated_evidence_does_nothing (table : PolicyTable) (config : PolicyConfig) (calls : List PolicyCall)
    (hfits : Along step Fits (init table config) calls) :
    (∀ before call between call' after, calls = before ++ call :: (between ++ call' :: after) →
      call.device.map historyKey = call'.device.map historyKey →
      ∀ item ∈ (run step (init table config) before).classified call,
      ∀ item' ∈ (run step (init table config) (before ++ call :: between)).classified call',
        item.id ≠ item'.id) ∧
    (∀ before isProtected bundle mode now after,
      calls = before ++ .decide isProtected bundle mode now :: after →
      (∀ id ∈ bundle.ids, DecidedOn before (historyKey bundle.target) id) →
      (run step (init table config) before).output (.decide isProtected bundle mode now) = [] ∧
        (run step (init table config) (before ++ [.decide isProtected bundle mode now])).outputs after =
          (run step (init table config) before).outputs after) ∧
    (∀ before call after, calls = before ++ call :: after →
      ∀ d ∈ (run step (init table config) before).output call, d.action.restrictive = true →
        ∃ ttl, d.ttlSeconds = some ttl ∧ 1 ≤ ttl ∧ ttl ≤ config.maxTtlSeconds) ∧
    (∀ (history : History) (strikes : Nat), history.d1Strikes ≤ strikes → ∀ bundle mode now,
      ∀ d ∈ history.decide table config bundle mode now,
      ∀ d' ∈ History.decide { history with d1Strikes := strikes } table config bundle mode now,
        d.action = d'.action → d.ttlSeconds.getD 0 ≤ d'.ttlSeconds.getD 0) := by
  refine ⟨?_, ?_, ?_, fun _ _ hstrikes _ _ _ _ hd _ hd' haction => History.ttl_mono hstrikes hd hd' haction⟩
  · rintro before call between call' after rfl hdevice item hitem item' hitem'
    exact classified_once hfits hdevice hitem hitem'
  · rintro before isProtected bundle mode now after rfl hdecided
    obtain ⟨hbefore, hcall, hafter⟩ := Along.append_iff.mp hfits
    obtain ⟨hquiet, hsame⟩ := repeat_quiet mode now hcall fun id hid =>
      contains_of_decidedOn hbefore (hdecided id hid)
    refine ⟨hquiet, ?_⟩
    rw [run_append]
    exact hsame.outputs hafter
  · rintro before call after rfl d hd haction
    have hconfig := (run_settings (init table config) before).2
    cases call with
    | decide isProtected bundle mode now =>
      rw [output, decide_fst] at hd
      split at hd
      · exact absurd hd List.not_mem_nil
      · rw [hconfig] at hd
        exact History.ttl_range hd haction
    | enforced _ _ => exact absurd hd List.not_mem_nil

/-- What a second detector finds of the scanning device. -/
def handshakeBundle : EvidenceBundle :=
  ⟨quietDevice, [.d1 ⟨"d1:failed_handshake:device:10:10.42.0.20:0", .failedHandshake, 10, 30, 10, none, 0⟩]⟩

/-- A scan is decided on and its BLOCK enforced, the same scan comes again, and then evidence of a second detector. -/
def scanTwice : List PolicyCall :=
  [.decide (fun _ => false) scanBundle .active 0,
   .enforced (blockNow defaultPolicyConfig scanBundle false .new scanBundle.ids 0) true,
   .decide (fun _ => false) scanBundle .active 1000000, .decide (fun _ => false) handshakeBundle .active 2000000]

theorem scanTwice_fits : Along step Fits (init shippedTable defaultPolicyConfig) scanTwice :=
  ⟨fun _ => ⟨.inr (by decide), by decide +kernel⟩, fun _ => .inl (by decide +kernel),
    fun _ => ⟨.inl (by decide +kernel), by decide +kernel⟩,
    fun _ => ⟨.inl (by decide +kernel), by decide +kernel⟩, trivial⟩

/-- Nothing is decided on the scan twice; the second detector meets a device with a strike, and blocks it for
longer. -/
theorem repeated_evidence_does_nothing_scan :
    (run step (init shippedTable defaultPolicyConfig) (scanTwice.take 2)).output
        (.decide (fun _ => false) scanBundle .active 1000000) = [] ∧
      ((run step (init shippedTable defaultPolicyConfig) (scanTwice.take 3)).output
        (.decide (fun _ => false) handshakeBundle .active 2000000)).map (fun d => (d.action, d.ttlSeconds)) =
          [(.block, some 600)] ∧
      ∀ d ∈ (run step (init shippedTable defaultPolicyConfig) (scanTwice.take 3)).output
          (.decide (fun _ => false) handshakeBundle .active 2000000), d.action.restrictive = true →
        ∃ ttl, d.ttlSeconds = some ttl ∧ 1 ≤ ttl ∧ ttl ≤ defaultPolicyConfig.maxTtlSeconds := by
  obtain ⟨_, hrepeat, hlasts, _⟩ :=
    repeated_evidence_does_nothing shippedTable defaultPolicyConfig scanTwice scanTwice_fits
  refine ⟨(hrepeat (scanTwice.take 2) _ _ _ _ (scanTwice.drop 3) rfl ?_).1, by decide +kernel,
    hlasts (scanTwice.take 3) _ [] rfl⟩
  exact fun id hid => ⟨_, _, _, _, List.mem_cons_self, rfl, rfl, hid⟩

end PolicyEngine

end Pirewall
