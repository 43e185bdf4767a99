/-
# Pirewall.Firewall.Lifecycle -- the manager as a state machine

The operations of `FirewallManager` as one step function, and what each of them can do, said once: every result about
runs is derived from the inversion lemmas of this module and of `Pirewall.Firewall.Transitions`, and never unfolds an
operation again.

Most operations only move rules out of the ACTIVE and PENDING states (`Retires`), and some leave the rule table and
the enforcement sets alone altogether (`Housekeeping`). The ones that can make a rule ACTIVE are submission, approval
and reconcile; `Pirewall.Firewall.Transitions` says exactly how.

On the kernel's side two questions are asked of a write: does it add this element to an adaptive set (`addsTo`), and
does it add to an enforcement set at all (`enforces`)? `LeavesEnforcement` is the frame of a write that does neither,
and the allowlist, the bindings and the guards only ever make such writes, because their sets have other names: that
is what the `not_isEnforcementSet` lemmas check, set by set, and it is why the calls that use them are housekeeping.

The module ends with one small site, a LAN with a manager in each mode and candidates against its devices, on which
the concrete runs of the following modules are played.
-/
import Pirewall.Lib.Run
import Pirewall.Firewall.Manager

namespace Pirewall

open Lib NftNames

/-! ## Operations and runs -/

/-- One call of the manager's interface. -/
inductive ManagerOp where
  | registerDecision (decision : FirewallDecision)
  | submitCandidate (candidate : CandidateRule)
  | approvePending (ruleId : String)
  | rejectPending (ruleId : String)
  | disableRule (ruleId : String)
  | removeRule (ruleId : String)
  | expireRules
  | revertToBase
  | failOpenShutdown
  | panic (actor : String)
  | setGuardMode (guard : GuardName) (mode : GuardMode) (actor : String)
  | reconcile
  | addAllowlistEntry (entry : AllowlistEntry)
  | removeAllowlistEntry (entryId : String)
  | syncAllowlist
  | syncBindings (change : BindingChange)
  | replaceBindings (bindings : List Binding)

/-! ## What a kernel write enforces -/

/-- The write adds this element of an adaptive set. -/
def KernelWrite.addsTo (write : KernelWrite) (element : String × ElementKey) : Prop :=
  ∃ ops op, write = .apply ops ∧ op ∈ ops ∧ op.kind = .add ∧ op.address = adaptiveSet element.1 ∧
    op.key = element.2

/-- `addsTo`, computed. -/
def KernelWrite.adds (element : String × ElementKey) : KernelWrite → Bool
  | .apply ops => ops.any fun op =>
    op.kind == .add && op.address == adaptiveSet element.1 && op.key == element.2
  | _ => false

/-- What is computed is so. -/
theorem KernelWrite.addsTo_of_adds {write : KernelWrite} {element : String × ElementKey}
    (h : write.adds element = true) : write.addsTo element := by
  cases write with
  | apply ops =>
    obtain ⟨op, hop, hcond⟩ := List.any_eq_true.mp h
    simp only [Bool.and_eq_true, beq_iff_eq] at hcond
    exact ⟨ops, op, rfl, hop, hcond.1.1, hcond.1.2, hcond.2⟩
  | _ => exact absurd h (by simp [adds])

/-- The write adds an element to one of the four enforcement sets. -/
def KernelWrite.enforces (write : KernelWrite) : Prop :=
  ∃ element : String × ElementKey, element.1 ∈ adaptiveEnforcementSets ∧ write.addsTo element

/-- Some logged write added this element. -/
def FakeSetBackend.Added (b : FakeSetBackend) (element : String × ElementKey) : Prop :=
  ∃ write ∈ b.ops, write.addsTo element

/-- The address of an enforcement set. -/
def IsEnforcementSet (a : SetAddress) : Prop := ∃ name ∈ adaptiveEnforcementSets, a = adaptiveSet name

namespace FakeSetBackend

/-- The enforcement sets hold what they held, and no logged write added to them. -/
structure LeavesEnforcement (b b' : FakeSetBackend) : Prop where
  expiry : ∀ a, IsEnforcementSet a → ∀ k, b'.expiry? a k = b.expiry? a k
  loaded : ∀ a, (b'.find? a).isSome = (b.find? a).isSome
  tables : ∀ location, b'.tables.contains location = b.tables.contains location
  faults : b.faults = [] → b'.faults = []
  log : ∃ writes, b'.ops = b.ops ++ writes ∧ ∀ w ∈ writes, ¬ w.enforces

namespace LeavesEnforcement

variable {b b' b'' : FakeSetBackend}

/-- Consuming a scripted fault is no write. -/
theorem of_faults {b : FakeSetBackend} {f : List Bool} (h : b.faults = [] → f = []) :
    LeavesEnforcement b { b with faults := f } where
  expiry := fun _ _ _ => rfl
  loaded := fun _ => rfl
  tables := fun _ => rfl
  faults := h
  log := ⟨[], by simp, by simp⟩

theorem refl (b : FakeSetBackend) : LeavesEnforcement b b := of_faults (f := b.faults) id

theorem trans (h : LeavesEnforcement b b') (h' : LeavesEnforcement b' b'') :
    LeavesEnforcement b b'' where
  expiry := fun a ha k => (h'.expiry a ha k).trans (h.expiry a ha k)
  loaded := fun a => (h'.loaded a).trans (h.loaded a)
  tables := fun location => (h'.tables location).trans (h.tables location)
  faults := fun hf => h'.faults (h.faults hf)
  log := by
    obtain ⟨w, hw, hq⟩ := h.log
    obtain ⟨w', hw', hq'⟩ := h'.log
    refine ⟨w ++ w', by rw [hw', hw, List.append_assoc], ?_⟩
    intro x hx
    rcases List.mem_append.mp hx with hx | hx
    · exact hq x hx
    · exact hq' x hx

/-- No element was added that had not been before. -/
theorem added (h : LeavesEnforcement b b') {element : String × ElementKey}
    (hset : element.1 ∈ adaptiveEnforcementSets) (hadded : b'.Added element) : b.Added element := by
  obtain ⟨writes, hops, hquiet⟩ := h.log
  obtain ⟨write, hmem, hadds⟩ := hadded
  rw [hops] at hmem
  rcases List.mem_append.mp hmem with hold | hnew
  · exact ⟨write, hold, hadds⟩
  · exact absurd ⟨element, hset, hadds⟩ (hquiet write hnew)

/-- A batch on other sets. -/
theorem apply (b : FakeSetBackend) {ops : List SetOp} (now : Time)
    (hops : ∀ op ∈ ops, ¬ IsEnforcementSet op.address) : LeavesEnforcement b (b.apply ops now).2 := by
  rcases b.apply_cases ops now with ⟨_, happlied⟩ | ⟨e, faults, heq, hf⟩
  · refine ⟨?_, happlied.loaded, happlied.tables, happlied.faults, _, happlied.log, ?_⟩
    · intro a ha k
      rw [happlied.expiry, if_neg]
      intro hmem
      obtain ⟨op, hop, rfl⟩ := List.mem_map.mp hmem
      exact hops op hop ha
    · rintro w hw ⟨element, hset, ops', op, rfl, hop, _, haddr, _⟩
      split at hw
      · exact absurd hw (by simp)
      · obtain rfl := KernelWrite.apply.inj (List.mem_singleton.mp hw)
        exact hops op hop ⟨element.1, hset, haddr⟩
  · rw [heq]
    exact of_faults hf

/-- A listing of another set. -/
theorem listSet (b : FakeSetBackend) {a : SetAddress} (now : Time) (ha : ¬ IsEnforcementSet a) :
    LeavesEnforcement b (b.listSet a now).2 := by
  obtain ⟨_, hops, hfaults, hloaded, htables⟩ := b.listSet_frame a now
  refine ⟨?_, hloaded, htables, fun hf => hfaults.trans hf, [], by simp [hops], by simp⟩
  intro a' ha' k
  rw [FakeSetBackend.listSet]
  split
  · rfl
  · have hne : a' ≠ a := fun h => ha (h ▸ ha')
    simp only
    rw [expiry?_putElements, if_neg hne]

/-- A guard flip. -/
theorem setGuardModes (b : FakeSetBackend) (modes : List (GuardName × GuardMode)) :
    LeavesEnforcement b (b.setGuardModes modes).2 := by
  rw [FakeSetBackend.setGuardModes]
  rcases hb : b.begin with ⟨r, b₁⟩
  obtain ⟨hb₁, hf⟩ := begin_faults hb
  have hleft : LeavesEnforcement b b₁ := hb₁ ▸ of_faults fun h => (hf h).1
  cases r with
  | error e => exact hleft
  | ok u =>
    simp only
    split
    · refine hleft.trans ⟨fun _ _ _ => rfl, fun _ => rfl, fun _ => rfl, id, _, rfl, ?_⟩
      intro w hw
      obtain rfl := List.mem_singleton.mp hw
      rintro ⟨element, _, ops, op, heq, _⟩
      exact absurd heq (by simp)
    · exact hleft

end LeavesEnforcement

end FakeSetBackend

namespace FirewallManager

/-- The manager after one call. -/
def step (m : FirewallManager) (call : Env × ManagerOp) : FirewallManager :=
  match call.2 with
  | .registerDecision decision => m.registerDecision decision
  | .submitCandidate candidate => (m.submitCandidate call.1 candidate).2
  | .approvePending ruleId => (m.approvePending ruleId call.1.now).2
  | .rejectPending ruleId => (m.rejectPending ruleId call.1.now).2
  | .disableRule ruleId => (m.disableRule ruleId call.1.now).2
  | .removeRule ruleId => (m.removeRule ruleId call.1.now).2
  | .expireRules => (m.expireRules call.1.now).2
  | .revertToBase => (m.revertToBase call.1.now).2
  | .failOpenShutdown => (m.failOpenShutdown call.1.now).2
  | .panic actor => (m.panic actor call.1.now).2
  | .setGuardMode guard mode actor => (m.setGuardMode guard mode actor call.1.now).2
  | .reconcile => (m.reconcile call.1.now).2
  | .addAllowlistEntry entry => (m.addAllowlistEntry entry call.1.now).2
  | .removeAllowlistEntry entryId => (m.removeAllowlistEntry entryId call.1.now).2
  | .syncAllowlist => (m.syncAllowlist call.1.now).2
  | .syncBindings change => (m.syncBindings change call.1.now call.1.now).2
  | .replaceBindings bindings => (m.replaceBindings bindings call.1.now call.1.now).2

/-- The manager after a series of calls. -/
abbrev run (m : FirewallManager) (calls : List (Env × ManagerOp)) : FirewallManager :=
  Lib.run step m calls

/-- `FirewallManager.__init__`. -/
def init (config : PirewallConfig) (backend : FakeFirewallBackend) (store : Option AllowlistStore)
    (sets : Option FakeSetBackend) : FirewallManager where
  config := config
  backend := backend
  sets := sets
  targets := Dict.empty
  rules := Dict.empty
  knownDecisionIds := []
  transitions := []
  rateLimiter := ⟨config.firewall.maxAdaptiveRulesPerWindow, config.firewall.rateWindowSeconds, []⟩
  enforcementMode := config.firewall.enforcementMode
  allowlistStore := store
  allowlist := config.firewall.allowlist ++ (store.map AllowlistStore.listEntries).getD []

/-- `rule` is ACTIVE after the step and was not there, as it is, before it. -/
def BecomesActive (m m' : FirewallManager) (rule : FirewallRule) : Prop :=
  m'.rules.get? rule.id = some rule ∧ rule.status = .active ∧ m.rules.get? rule.id ≠ some rule

/-- Every rule is filed under its own id. -/
def Keyed (m : FirewallManager) : Prop := ∀ id rule, m.rules.get? id = some rule → rule.id = id

/-- A manager that was just built has filed nothing. -/
theorem keyed_init (config : PirewallConfig) (backend : FakeFirewallBackend)
    (store : Option AllowlistStore) (sets : Option FakeSetBackend) :
    Keyed (init config backend store sets) := by
  intro id rule h
  exact absurd h (by simp [init])

/-! ## Moving rules out of force -/

/-- Every rule of `m'` is a rule of `m`, as it was or retired; targets and configuration are kept. -/
structure Retires (m m' : FirewallManager) : Prop where
  rules : ∀ id rule', m'.rules.get? id = some rule' → ∃ rule, m.rules.get? id = some rule ∧
    (rule' = rule ∨ ∃ status, status ≠ .active ∧ status ≠ .pendingApproval ∧
      rule' = { rule with status := status })
  targets : m'.targets = m.targets
  config : m'.config = m.config

namespace Retires

variable {m m' m'' : FirewallManager}

/-- A call that keeps the rules, their targets and the configuration retires, if nothing else. -/
theorem of_eq (hrules : m'.rules = m.rules) (htargets : m'.targets = m.targets)
    (hconfig : m'.config = m.config) : Retires m m' where
  rules := fun _ rule' h => ⟨rule', hrules ▸ h, .inl rfl⟩
  targets := htargets
  config := hconfig

theorem refl (m : FirewallManager) : Retires m m := of_eq rfl rfl rfl

theorem trans (h : Retires m m') (h' : Retires m' m'') : Retires m m'' where
  rules := by
    intro id rule'' hrule''
    obtain ⟨rule', hrule', hcase'⟩ := h'.rules id rule'' hrule''
    obtain ⟨rule, hrule, hcase⟩ := h.rules id rule' hrule'
    refine ⟨rule, hrule, ?_⟩
    rcases hcase' with rfl | ⟨status, hactive, hpending, rfl⟩
    · exact hcase
    · rcases hcase with rfl | ⟨_, _, _, rfl⟩
      · exact .inr ⟨status, hactive, hpending, rfl⟩
      · exact .inr ⟨status, hactive, hpending, rfl⟩
  targets := h'.targets.trans h.targets
  config := h'.config.trans h.config

/-- Retiring one filed rule. -/
theorem setRule {ruleId : String} {rule : FirewallRule} (status : RuleStatus)
    (hrule : m.rules.get? ruleId = some rule) (hactive : status ≠ .active)
    (hpending : status ≠ .pendingApproval) :
    Retires m (m.setRule ruleId { rule with status := status }) where
  rules := by
    intro id rule' h
    simp only [FirewallManager.setRule, Dict.get?_set] at h
    split at h
    · rename_i hid
      obtain rfl := Option.some.inj h
      exact ⟨rule, hid ▸ hrule, .inr ⟨status, hactive, hpending, rfl⟩⟩
    · exact ⟨rule', h, .inl rfl⟩
  targets := rfl
  config := rfl

/-- A rule that is retired stays where it is filed. -/
theorem keyed (h : Retires m m') (hkeyed : Keyed m) : Keyed m' := by
  intro id rule' hrule'
  obtain ⟨rule, hrule, hcase⟩ := h.rules id rule' hrule'
  have hid := hkeyed id rule hrule
  rcases hcase with rfl | ⟨_, _, _, rfl⟩
  · exact hid
  · exact hid

/-- What is still ACTIVE, or still PENDING, is what it was. -/
theorem unchanged (h : Retires m m') {id : String} {rule : FirewallRule}
    (hrule : m'.rules.get? id = some rule)
    (hstatus : rule.status = .active ∨ rule.status = .pendingApproval) :
    m.rules.get? id = some rule := by
  obtain ⟨rule₀, hrule₀, rfl | ⟨_, hactive, hpending, rfl⟩⟩ := h.rules id rule hrule
  · exact hrule₀
  · rcases hstatus with hs | hs
    · exact absurd hs hactive
    · exact absurd hs hpending

/-- A call that only retires puts no rule in force. -/
theorem not_becomesActive (h : Retires m m') (rule : FirewallRule) : ¬ BecomesActive m m' rule := by
  rintro ⟨hrule, hactive, hnew⟩
  exact hnew (h.unchanged hrule (.inl hactive))

/-- Nor does it file a new one. -/
theorem keys (h : Retires m m') {id : String} (hid : id ∈ m'.rules.keys) : id ∈ m.rules.keys := by
  obtain ⟨rule', hrule'⟩ := Dict.mem_keys_iff.mp hid
  obtain ⟨rule, hrule, _⟩ := h.rules id rule' hrule'
  exact Dict.mem_keys_iff.mpr ⟨rule, hrule⟩

end Retires

/-! ## The calls that leave the rules alone -/

/-- The rule table, the mode and the enforcement sets are as they were. -/
structure Housekeeping (m m' : FirewallManager) : Prop where
  rules : m'.rules = m.rules
  targets : m'.targets = m.targets
  config : m'.config = m.config
  backend : m'.backend = m.backend
  enforcementMode : m'.enforcementMode = m.enforcementMode
  sets : Option.Rel FakeSetBackend.LeavesEnforcement m.sets m'.sets

theorem leaves_refl (sets : Option FakeSetBackend) :
    Option.Rel FakeSetBackend.LeavesEnforcement sets sets := by
  cases sets with
  | none => exact .none
  | some b => exact .some (.refl b)

theorem Housekeeping.refl (m : FirewallManager) : Housekeeping m m :=
  ⟨rfl, rfl, rfl, rfl, rfl, leaves_refl m.sets⟩

/-- A new set backend that leaves enforcement alone, and nothing else. -/
theorem Housekeeping.of_sets {m : FirewallManager} {b b' : FakeSetBackend} (hsets : m.sets = some b)
    (h : b.LeavesEnforcement b') : Housekeeping m { m with sets := some b' } :=
  ⟨rfl, rfl, rfl, rfl, rfl, hsets ▸ .some h⟩

/-- The sets of the allowlist are not enforcement sets. -/
theorem not_isEnforcementSet_allowBound (table : String) :
    ¬ IsEnforcementSet ⟨inetFamily, table, setAllowBound⟩ := by
  rintro ⟨name, hname, heq⟩
  simp only [adaptiveSet, SetAddress.mk.injEq] at heq
  exact absurd (heq.2.2 ▸ hname) (by decide)

theorem not_isEnforcementSet_allowBoundOps {kind : SetOpKind} {pair : String × String} {op : SetOp}
    (h : op ∈ allowBoundOps kind pair) : ¬ IsEnforcementSet op.address := by
  obtain ⟨table, _, rfl⟩ := List.mem_map.mp h
  exact not_isEnforcementSet_allowBound table

/-- Nor are those of the bindings. -/
theorem not_isEnforcementSet_binding {family table setName : String}
    (h : setName = setBound4 ∨ setName = setMacbind) : ¬ IsEnforcementSet ⟨family, table, setName⟩ := by
  rintro ⟨name, hname, heq⟩
  simp only [adaptiveSet, SetAddress.mk.injEq] at heq
  rw [← heq.2.2] at hname
  rcases h with rfl | rfl
  · exact absurd hname (by decide)
  · exact absurd hname (by decide)

theorem not_isEnforcementSet_bindingOps {kind : SetOpKind} {binding : Binding} {timeout : Option Int}
    {op : SetOp} (h : op ∈ bindingOps kind binding timeout) : ¬ IsEnforcementSet op.address := by
  obtain ⟨⟨family, table⟩, _, hop⟩ := List.mem_flatMap.mp h
  simp only [List.mem_cons, List.not_mem_nil, or_false] at hop
  rcases hop with rfl | rfl
  · exact not_isEnforcementSet_binding (.inl rfl)
  · exact not_isEnforcementSet_binding (.inr rfl)

/-- The store's part of a change is in the store. -/
theorem storing_frame {m m' : FirewallManager} {r : Except String Unit}
    {f : AllowlistStore → Except String Unit × AllowlistStore} (h : m.storing f = (r, m')) :
    ∃ allowlistStore, m' = { m with allowlistStore } := by
  unfold storing at h
  split at h
  · cases h
    exact ⟨m.allowlistStore, rfl⟩
  · cases h
    exact ⟨_, rfl⟩

/-- A change of the allowlist store touches neither rules nor sets. -/
theorem storing_housekeeping {m m' : FirewallManager} {r : Except String Unit}
    {f : AllowlistStore → Except String Unit × AllowlistStore} (h : m.storing f = (r, m')) :
    Housekeeping m m' := by
  obtain ⟨store, rfl⟩ := storing_frame h
  exact ⟨rfl, rfl, rfl, rfl, rfl, leaves_refl m.sets⟩

theorem Housekeeping.trans {m m' m'' : FirewallManager} (h : Housekeeping m m')
    (h' : Housekeeping m' m'') : Housekeeping m m'' where
  rules := h'.rules.trans h.rules
  targets := h'.targets.trans h.targets
  config := h'.config.trans h.config
  backend := h'.backend.trans h.backend
  enforcementMode := h'.enforcementMode.trans h.enforcementMode
  sets := by
    have h1 := h.sets
    have h2 := h'.sets
    generalize m.sets = x at h1
    generalize m'.sets = y at h1 h2
    generalize m''.sets = z at h2
    cases h1 with
    | none =>
      cases h2
      exact .none
    | some hr =>
      cases h2 with
      | some hr' => exact .some (hr.trans hr')

theorem addAllowlistEntry_housekeeping (m : FirewallManager) (entry : AllowlistEntry) (now : Time) :
    Housekeeping m (m.addAllowlistEntry entry now).2 := by
  have happend : Housekeeping m { m with allowlist := m.allowlist ++ [entry] } :=
    ⟨rfl, rfl, rfl, rfl, rfl, leaves_refl m.sets⟩
  unfold addAllowlistEntry
  split
  · rename_i heq
    exact happend.trans (storing_housekeeping heq)
  · rename_i m₁ heq
    have h₁ := happend.trans (storing_housekeeping heq)
    split
    · rename_i pair sets _ hsets
      split
      · exact h₁
      · exact h₁.trans (.of_sets hsets (.apply sets now fun op => not_isEnforcementSet_allowBoundOps))
    · exact h₁

theorem removeAllowlistEntry_housekeeping (m : FirewallManager) (entryId : String) (now : Time) :
    Housekeeping m (m.removeAllowlistEntry entryId now).2 := by
  have hdrop : Housekeeping m { m with allowlist := m.allowlist.eraseP fun entry => entry.id == entryId } :=
    ⟨rfl, rfl, rfl, rfl, rfl, leaves_refl m.sets⟩
  unfold removeAllowlistEntry
  split
  · exact .refl m
  · simp only
    split
    · rename_i heq
      exact hdrop.trans (storing_housekeeping heq)
    · rename_i m₁ heq
      have h₁ := hdrop.trans (storing_housekeeping heq)
      split
      · rename_i pair sets _ hsets
        split
        · exact h₁
        · exact h₁.trans (.of_sets hsets (.apply sets now fun op => not_isEnforcementSet_allowBoundOps))
      · exact h₁

/-- Listing the sets of the allowlist leaves the enforcement sets as they were, and so will the ops made of what was
listed. -/
theorem allowlistOps_leaves (wanted : List (String × String)) (now : Time) (tables : List String)
    (sets : FakeSetBackend) :
    sets.LeavesEnforcement (allowlistOps sets wanted now tables).2 ∧
      ∀ ops, (allowlistOps sets wanted now tables).1 = .ok ops →
        ∀ op ∈ ops, ¬ IsEnforcementSet op.address := by
  induction tables generalizing sets with
  | nil =>
    refine ⟨.refl sets, ?_⟩
    intro ops h
    obtain rfl := Except.ok.inj h
    simp
  | cons table tables ih =>
    have hlist := FakeSetBackend.LeavesEnforcement.listSet sets now
      (not_isEnforcementSet_allowBound table)
    unfold allowlistOps
    split
    · rename_i e sets₁ heq
      rw [heq] at hlist
      exact ⟨hlist, fun ops h => absurd h (by simp)⟩
    · rename_i elements sets₁ heq
      rw [heq] at hlist
      obtain ⟨hrest, hops⟩ := ih sets₁
      simp only
      split
      · rename_i e sets₂ heq₂
        rw [heq₂] at hrest
        exact ⟨hlist.trans hrest, fun ops h => absurd h (by simp)⟩
      · rename_i rest sets₂ heq₂
        rw [heq₂] at hrest hops
        refine ⟨hlist.trans hrest, ?_⟩
        intro ops h op hop
        obtain rfl := Except.ok.inj h
        rcases List.mem_append.mp hop with hop | hop
        · simp only [allowBoundDiff, List.mem_append, List.mem_map] at hop
          rcases hop with ⟨pair, _, rfl⟩ | ⟨pair, _, rfl⟩
          · exact not_isEnforcementSet_allowBound table
          · exact not_isEnforcementSet_allowBound table
        · exact hops rest rfl op hop

theorem syncAllowlist_housekeeping (m : FirewallManager) (now : Time) :
    Housekeeping m (m.syncAllowlist now).2 := by
  unfold syncAllowlist
  split
  · exact .refl m
  · rename_i sets hsets
    obtain ⟨hleaves, hops⟩ := allowlistOps_leaves (allowBoundPairs m.allowlist none) now
      allowBoundTables sets
    split
    · rename_i e sets₁ heq
      rw [heq] at hleaves
      exact .of_sets hsets hleaves
    · rename_i ops sets₁ heq
      rw [heq] at hleaves hops
      exact .of_sets hsets (hleaves.trans (.apply sets₁ now (hops ops rfl)))

theorem syncBindings_housekeeping (m : FirewallManager) (change : BindingChange) (now clock : Time) :
    Housekeeping m (m.syncBindings change now clock).2 := by
  unfold syncBindings
  split
  · exact .refl m
  · rename_i sets hsets
    split
    · exact .refl m
    · refine .of_sets hsets (.apply sets clock ?_)
      intro op hop
      simp only [List.mem_append, List.mem_flatMap] at hop
      rcases hop with ⟨binding, _, hop⟩ | ⟨binding, _, hop⟩
      · exact not_isEnforcementSet_bindingOps hop
      · exact not_isEnforcementSet_bindingOps hop

/-- So does listing any sets for stale elements, if none of them is an enforcement set. -/
theorem staleOps_leaves (wanted : String → ElementKey → Bool) (now : Time) (addresses : List SetAddress)
    (haddr : ∀ a ∈ addresses, ¬ IsEnforcementSet a) (sets : FakeSetBackend) :
    sets.LeavesEnforcement (staleOps sets wanted now addresses).2 ∧
      ∀ ops, (staleOps sets wanted now addresses).1 = .ok ops →
        ∀ op ∈ ops, ¬ IsEnforcementSet op.address := by
  induction addresses generalizing sets with
  | nil =>
    refine ⟨.refl sets, ?_⟩
    intro ops h
    obtain rfl := Except.ok.inj h
    simp
  | cons a rest ih =>
    have ha := haddr a List.mem_cons_self
    have hlist := FakeSetBackend.LeavesEnforcement.listSet sets now ha
    unfold staleOps
    split
    · rename_i e sets₁ heq
      rw [heq] at hlist
      exact ⟨hlist, fun ops h => absurd h (by simp)⟩
    · rename_i elements sets₁ heq
      rw [heq] at hlist
      obtain ⟨hrest, hops⟩ := ih (fun a' ha' => haddr a' (List.mem_cons_of_mem _ ha')) sets₁
      simp only
      split
      · rename_i e sets₂ heq₂
        rw [heq₂] at hrest
        exact ⟨hlist.trans hrest, fun ops h => absurd h (by simp)⟩
      · rename_i rest sets₂ heq₂
        rw [heq₂] at hrest hops
        refine ⟨hlist.trans hrest, ?_⟩
        intro ops h op hop
        obtain rfl := Except.ok.inj h
        rcases List.mem_append.mp hop with hop | hop
        · obtain ⟨key, _, rfl⟩ := List.mem_map.mp hop
          exact ha
        · exact hops rest rfl op hop

theorem not_isEnforcementSet_bindingSets {a : SetAddress} (h : a ∈ bindingSets) :
    ¬ IsEnforcementSet a := by
  obtain ⟨⟨family, table⟩, _, ha⟩ := List.mem_flatMap.mp h
  simp only [List.mem_cons, List.not_mem_nil, or_false] at ha
  rcases ha with rfl | rfl
  · exact not_isEnforcementSet_binding (.inr rfl)
  · exact not_isEnforcementSet_binding (.inl rfl)

theorem replaceBindings_housekeeping (m : FirewallManager) (bindings : List Binding)
    (now clock : Time) : Housekeeping m (m.replaceBindings bindings now clock).2 := by
  unfold replaceBindings
  split
  · exact .refl m
  · rename_i sets hsets
    obtain ⟨hleaves, hops⟩ := staleOps_leaves (isWanted bindings) clock bindingSets
      (fun a => not_isEnforcementSet_bindingSets) sets
    split
    · rename_i e sets₁ heq
      rw [heq] at hleaves
      exact .of_sets hsets hleaves
    · rename_i stale sets₁ heq
      rw [heq] at hleaves hops
      refine .of_sets hsets (hleaves.trans (.apply sets₁ clock ?_))
      intro op hop
      simp only [List.mem_append, List.mem_flatMap] at hop
      rcases hop with (hop | ⟨binding, _, hop⟩) | ⟨binding, _, hop⟩
      · exact hops stale rfl op hop
      · exact not_isEnforcementSet_bindingOps hop
      · exact not_isEnforcementSet_bindingOps hop

theorem setGuardMode_housekeeping (m : FirewallManager) (guard : GuardName) (mode : GuardMode)
    (actor : String) (now : Time) : Housekeeping m (m.setGuardMode guard mode actor now).2 := by
  unfold setGuardMode
  split
  · exact .refl m
  · rename_i sets hsets
    have hleaves := FakeSetBackend.LeavesEnforcement.setGuardModes sets [(guard, mode)]
    split
    · rename_i e sets₁ heq
      rw [heq] at hleaves
      exact .of_sets hsets hleaves
    · rename_i sets₁ heq
      rw [heq] at hleaves
      exact .of_sets hsets hleaves

/-- The calls that change no rule. -/
def isHousekeeping : ManagerOp → Bool
  | .registerDecision _ => true
  | .setGuardMode _ _ _ => true
  | .addAllowlistEntry _ => true
  | .removeAllowlistEntry _ => true
  | .syncAllowlist => true
  | .syncBindings _ => true
  | .replaceBindings _ => true
  | _ => false

/-- The calls of `isHousekeeping` change neither the rules nor the enforcement sets. -/
theorem step_housekeeping (m : FirewallManager) (env : Env) (op : ManagerOp)
    (h : isHousekeeping op = true) : Housekeeping m (m.step (env, op)) := by
  cases op with
  | registerDecision _ => exact ⟨rfl, rfl, rfl, rfl, rfl, leaves_refl m.sets⟩
  | setGuardMode guard mode actor => exact m.setGuardMode_housekeeping guard mode actor env.now
  | addAllowlistEntry entry => exact m.addAllowlistEntry_housekeeping entry env.now
  | removeAllowlistEntry entryId => exact m.removeAllowlistEntry_housekeeping entryId env.now
  | syncAllowlist => exact m.syncAllowlist_housekeeping env.now
  | syncBindings change => exact m.syncBindings_housekeeping change env.now env.now
  | replaceBindings bindings => exact m.replaceBindings_housekeeping bindings env.now env.now
  | _ => exact absurd h (by simp [isHousekeeping])

/-- What housekeeping may change at all. -/
theorem step_housekeeping_frame (m : FirewallManager) (env : Env) (op : ManagerOp) (h : isHousekeeping op = true) :
    ∃ sets allowlist allowlistStore knownDecisionIds,
      m.step (env, op) = { m with sets, allowlist, allowlistStore, knownDecisionIds } := by
  cases op with
  | registerDecision _ => exact ⟨_, _, _, _, rfl⟩
  | setGuardMode guard mode actor =>
    simp only [step, setGuardMode]
    split
    · exact ⟨_, _, _, _, rfl⟩
    · split
      · exact ⟨_, _, _, _, rfl⟩
      · exact ⟨_, _, _, _, rfl⟩
  -- the store may fail before the sets are written, and the sets may be missing or refuse
  | addAllowlistEntry entry =>
    simp only [step, addAllowlistEntry]
    split
    · rename_i heq
      obtain ⟨_, rfl⟩ := storing_frame heq
      exact ⟨_, _, _, _, rfl⟩
    · rename_i heq
      obtain ⟨_, rfl⟩ := storing_frame heq
      split
      · split
        · exact ⟨_, _, _, _, rfl⟩
        · exact ⟨_, _, _, _, rfl⟩
      · exact ⟨_, _, _, _, rfl⟩
  | removeAllowlistEntry entryId =>
    simp only [step, removeAllowlistEntry]
    split
    · exact ⟨_, _, _, _, rfl⟩
    · split
      · rename_i heq
        obtain ⟨_, rfl⟩ := storing_frame heq
        exact ⟨_, _, _, _, rfl⟩
      · rename_i heq
        obtain ⟨_, rfl⟩ := storing_frame heq
        split
        · split
          · exact ⟨_, _, _, _, rfl⟩
          · exact ⟨_, _, _, _, rfl⟩
        · exact ⟨_, _, _, _, rfl⟩
  | syncAllowlist =>
    simp only [step, syncAllowlist]
    split
    · exact ⟨_, _, _, _, rfl⟩
    · split
      · exact ⟨_, _, _, _, rfl⟩
      · exact ⟨_, _, _, _, rfl⟩
  | syncBindings change =>
    simp only [step, syncBindings]
    split
    · exact ⟨_, _, _, _, rfl⟩
    · split
      · exact ⟨_, _, _, _, rfl⟩
      · exact ⟨_, _, _, _, rfl⟩
  | replaceBindings bindings =>
    simp only [step, replaceBindings]
    split
    · exact ⟨_, _, _, _, rfl⟩
    · split
      · exact ⟨_, _, _, _, rfl⟩
      · exact ⟨_, _, _, _, rfl⟩
  | _ => exact absurd h (by simp [isHousekeeping])

end FirewallManager

/-! ## A small site

A `10.0.0.0/24` LAN behind the appliance, with freshly loaded tables and no leases: the concrete inputs
of the witnesses and counterexamples about runs. -/

/-- A LAN behind a gateway, with one administrator. -/
def siteConfig (mode : EnforcementMode) : PirewallConfig where
  network := ⟨siteLan, IPv4Address.ofOctets 192 168 1 1, IPv4Address.ofOctets 10 0 0 1⟩
  admin := ⟨IPv4Address.ofOctets 10 0 0 2, none⟩
  firewall := ⟨mode, 75, 20, 60, [], 24⟩
  antispoof := ⟨300⟩
  policy := { defaultPolicyConfig with
    blockTtlSeconds := 900
    maxTrackedDevices := 1024
    blockTtl_pos := by decide
    maxTrackedDevices_pos := by decide
    ttls_within_cap := by decide }

/-- The reviewed tables, with empty sets and every guard in observe mode. -/
def siteKernel : FakeSetBackend := .load (some 4096) (some 1024) fun _ => .observe

def siteBackend : FakeFirewallBackend := ⟨Dict.empty, 0, 0, []⟩

/-- A manager over these, or over the rule backend alone. -/
def siteManager (mode : EnforcementMode) (sets : Option FakeSetBackend) : FirewallManager :=
  .init (siteConfig mode) siteBackend none sets

/-- The site at a moment at which no lease is known. -/
def siteEnv (now : Time) : Env := ⟨now, fun _ => none, ⟨[], []⟩⟩

/-- A candidate against the LAN device with this last octet, on the evidence `id` names. -/
def siteCandidate (id : String) (action : FirewallAction) (device : Nat) (expiresAt : Time) :
    CandidateRule where
  action := action
  direction := .inbound
  source := .host (IPv4Address.ofOctets 10 0 0 device)
  destination := .host (IPv4Address.ofOctets 203 0 113 5)
  protocol := .any
  sourcePort := none
  destinationPort := none
  reason := "scan"
  threatScore := some 80
  evidence := [id]
  metadata := Dict.empty
  target := none
  target_is_source := fun _ h => nomatch h
  id := id
  decisionId := "decision"
  createdAt := 0
  expiresAt := some expiresAt

/-- Registering the decision every site candidate names. -/
def siteDecision : Env × ManagerOp := (siteEnv 0, .registerDecision ⟨"decision"⟩)

end Pirewall
