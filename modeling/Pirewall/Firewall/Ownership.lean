/-
# Pirewall.Firewall.Ownership -- who owns an element of the enforcement sets

On the set path a rule's claim on a kernel element is only recorded in the rule's metadata, and every path that
retires a rule deletes by that record. So the question is whether every element the manager put into an enforcement
set has an ACTIVE rule that records it: an element without one would restrict a device until its timeout, and nothing
in the manager would know. `Accounted` is the invariant that answers it, for whole runs. That the owner is the only
one is the question of `Pirewall.Firewall.Exclusion`.

Each kind of call keeps the invariant for a reason of its own. A retirement deletes the element its rule records; the
deletion is refused only by a scripted fault, and of those a sound kernel has none. A kill switch empties the sets
before it demotes the rules (`Cleared`). A deployment files the new rule with the element that its batch added, and
the one rule it supersedes had its own element deleted in the same batch. `reconcile` retires only rules whose element
was not listed, and files a rule for what it adopts.

The last of these is where ids come in. `reconcile` names a rule after the element it adopts, so it finds nothing else
under that name as long as candidates have names of their own (`AdoptedIds`). A candidate that was given one of
reconcile's names is overwritten by the next adoption, and its element is left without an owner: the last section
plays that run.
-/
import Pirewall.Firewall.Transitions

namespace Pirewall

open Lib NftNames

namespace FirewallManager

/-! ## Every element the manager added has an owner -/

/-- Some ACTIVE rule records this element as its own. -/
def Owned (m : FirewallManager) (element : String × ElementKey) : Prop :=
  ∃ id rule, m.rules.get? id = some rule ∧ rule.status = .active ∧ elementOf rule = some element

/-- The deletion of an element of an adaptive set. -/
def deletion (element : String × ElementKey) : SetOp :=
  { kind := .delete, setName := element.1, key := element.2 }

/-- The kernel side of the invariant: no scripted fault, and the adaptive table whole or absent. -/
structure SoundKernel (b : FakeSetBackend) : Prop where
  faults : b.faults = []
  loaded : (∀ name ∈ adaptiveEnforcementSets, (b.find? (adaptiveSet name)).isSome = true) ∨
    b.tables.contains (inetFamily, adaptiveTable) = false

/-- Every element of the enforcement sets that the manager added is some ACTIVE rule's own. -/
structure Accounted (m : FirewallManager) (b : FakeSetBackend) : Prop where
  sets : m.sets = some b
  keyed : Keyed m
  kernel : SoundKernel b
  owned : ∀ element : String × ElementKey, element.1 ∈ adaptiveEnforcementSets → b.Added element →
    (b.expiry? (adaptiveSet element.1) element.2).isSome = true → Owned m element
  /-- What was added can be deleted: its key is in normal form. -/
  valid : ∀ element : String × ElementKey, element.1 ∈ adaptiveEnforcementSets → b.Added element →
    validateElement (deletion element) = .ok ()

/-- Only reconcile files rules under its own ids: each records the element the id names. -/
def AdoptedIds (m : FirewallManager) : Prop :=
  ∀ setName ∈ ipKeyedSets, ∀ key rule, m.rules.get? (reconciledId setName key) = some rule →
    elementOf rule = some (setName, .one key) ∧ rule.status ≠ .pendingApproval

/-- Where the adaptive table is gone, no element is found. -/
theorem expiry?_of_missing {b : FakeSetBackend} {name : String} {k : ElementKey}
    (h : b.tables.contains (inetFamily, adaptiveTable) = false) :
    b.expiry? (adaptiveSet name) k = none := by
  have hnone : b.tables.get? (inetFamily, adaptiveTable) = none := by
    simpa [Dict.contains] using h
  simp [FakeSetBackend.expiry?, FakeSetBackend.find?, adaptiveSet, hnone]

/-- A call that leaves enforcement alone leaves the kernel sound. -/
theorem SoundKernel.leaves {b b' : FakeSetBackend} (h : SoundKernel b) (hl : b.LeavesEnforcement b') :
    SoundKernel b' where
  faults := hl.faults h.faults
  loaded := by
    rcases h.loaded with hall | hmissing
    · exact .inl fun name hname => (hl.loaded _).trans (hall name hname)
    · exact .inr ((hl.tables _).trans hmissing)

/-- Only the rule table and the kernel matter. -/
theorem Accounted.congr {m m' : FirewallManager} {b : FakeSetBackend} (h : Accounted m b)
    (hrules : m'.rules = m.rules) (hsets : m'.sets = m.sets) : Accounted m' b where
  sets := hsets.trans h.sets
  keyed := fun id rule hrule => h.keyed id rule (hrules ▸ hrule)
  kernel := h.kernel
  owned := by
    intro element hset hadded hrec
    obtain ⟨id, rule, hrule, hrest⟩ := h.owned element hset hadded hrec
    exact ⟨id, rule, hrules ▸ hrule, hrest⟩
  valid := h.valid

/-- A housekeeping call changes neither side. -/
theorem Accounted.housekeeping {m m' : FirewallManager} {b : FakeSetBackend} (h : Accounted m b)
    (hk : Housekeeping m m') : ∃ b', Accounted m' b' := by
  have hsets := hk.sets
  rw [h.sets] at hsets
  generalize hm' : m'.sets = sets' at hsets
  cases hsets with
  | @some _ b' hl =>
    refine ⟨b', hm', ?_, h.kernel.leaves hl, ?_, ?_⟩
    · exact fun id rule hrule => h.keyed id rule (hk.rules ▸ hrule)
    · intro element hset hadded hlive
      rw [hl.expiry _ ⟨_, hset, rfl⟩] at hlive
      obtain ⟨id, rule, hrule, hactive, hel⟩ := h.owned element hset (hl.added hset hadded) hlive
      exact ⟨id, rule, hk.rules ▸ hrule, hactive, hel⟩
    · exact fun element hset hadded => h.valid element hset (hl.added hset hadded)

/-! ### Retiring one rule -/

/-- A rule's withdrawal is the deletion of the element it records. -/
theorem mem_deleteOps {rule : FirewallRule} {op : SetOp} (h : op ∈ deleteOps rule) :
    ∃ element, elementOf rule = some element ∧ op = deletion element := by
  unfold deleteOps at h
  split at h
  · exact absurd h (by simp)
  · rename_i setName key hel
    exact ⟨(setName, key), hel, List.mem_singleton.mp h⟩

/-- A batch of deletions adds nothing to the log that counts as an addition. -/
theorem added_of_applied {b b' : FakeSetBackend} {ops : List SetOp} {now : Time}
    (h : b.Applied ops now b') {element : String × ElementKey} (hadded : b'.Added element) :
    b.Added element ∨ ∃ op ∈ ops, op.kind = .add ∧ op.address = adaptiveSet element.1 ∧
      op.key = element.2 := by
  obtain ⟨write, hmem, ops', op, rfl, hop, hkind, haddr, hkey⟩ := hadded
  rw [h.log] at hmem
  rcases List.mem_append.mp hmem with hold | hnew
  · exact .inl ⟨_, hold, ops', op, rfl, hop, hkind, haddr, hkey⟩
  · split at hnew
    · exact absurd hnew (by simp)
    · obtain rfl := KernelWrite.apply.inj (List.mem_singleton.mp hnew)
      exact .inr ⟨op, hop, hkind, haddr, hkey⟩

theorem SoundKernel.applied {b b' : FakeSetBackend} {ops : List SetOp} {now : Time}
    (h : SoundKernel b) (ha : b.Applied ops now b') : SoundKernel b' where
  faults := ha.faults h.faults
  loaded := by
    rcases h.loaded with hall | hmissing
    · exact .inl fun name hname => (ha.loaded _).trans (hall name hname)
    · exact .inr ((ha.tables _).trans hmissing)

/-- Adaptive sets are told apart by their names. -/
theorem adaptiveSet_injective {s t : String} (h : adaptiveSet s = adaptiveSet t) : s = t := by
  simp only [adaptiveSet, SetAddress.mk.injEq, true_and] at h
  exact h

/-- What an element that a batch did not add was before the batch. -/
theorem recorded_of_applied {b b' : FakeSetBackend} {ops : List SetOp} {now : Time}
    (h : b.Applied ops now b') {element : String × ElementKey}
    (hadd : ∀ op ∈ ops, op.kind = .add → ¬ (op.address = adaptiveSet element.1 ∧ op.key = element.2))
    (hrec : (b'.expiry? (adaptiveSet element.1) element.2).isSome = true) :
    (b.expiry? (adaptiveSet element.1) element.2).isSome = true ∧
      ∀ op ∈ ops, ¬ (op.address = adaptiveSet element.1 ∧ op.key = element.2) := by
  obtain ⟨e, he⟩ := Option.isSome_iff_exists.mp hrec
  rw [h.expiry] at he
  split at he
  · obtain ⟨hbefore, _, hops⟩ := FakeSetBackend.keyResult_eq_some hadd he
    exact ⟨by rw [hbefore]; rfl, hops⟩
  · rename_i hout
    refine ⟨by rw [he]; rfl, ?_⟩
    intro op hop hon
    exact hout (List.mem_map.mpr ⟨op, hop, hon.1⟩)

/-- Retiring a rule takes its element out of the kernel, so no element loses its only owner. -/
theorem Accounted.retireRule {m : FirewallManager} {b : FakeSetBackend} (h : Accounted m b)
    (ruleId : String) {toStatus : RuleStatus} (now : Time) (reason : String)
    (hactive : toStatus ≠ .active) (hpending : toStatus ≠ .pendingApproval) :
    ∃ b', Accounted (m.retireRule ruleId toStatus now reason).2 b' := by
  have hretires := Retires.retireRule m ruleId now reason hactive hpending
  rcases m.retireRule_cases ruleId toStatus now reason with heq | ⟨rule, hrule, hrule_active, heq⟩
  · rw [heq]
    exact ⟨b, h⟩
  rw [heq] at hretires ⊢
  have hsets : (((m.withdraw ruleId rule now).setRule ruleId { rule with status := toStatus }).record
      ruleId (some .active) toStatus now reason).sets = some (b.apply (deleteOps rule) now).2 := by
    rw [(m.withdraw_frame ruleId rule now).1]
    simp [record, setRule, h.sets]
  -- an owner other than the retired rule is still there
  have hkept : ∀ element, Owned m element → elementOf rule ≠ some element →
      Owned (((m.withdraw ruleId rule now).setRule ruleId { rule with status := toStatus }).record
        ruleId (some .active) toStatus now reason) element := by
    rintro element ⟨id, owner, howner, howner_active, hel⟩ hne
    refine ⟨id, owner, ?_, howner_active, hel⟩
    rw [(m.withdraw_frame ruleId rule now).1]
    simp only [record, setRule, Dict.get?_set]
    rw [if_neg]
    · exact howner
    · rintro rfl
      rw [hrule] at howner
      exact hne (Option.some.inj howner ▸ hel)
  refine ⟨_, hsets, hretires.keyed h.keyed, ?_, ?_, ?_⟩
  · rcases b.apply_cases (deleteOps rule) now with ⟨_, ha⟩ | ⟨e, faults, he, hf⟩
    · exact h.kernel.applied ha
    · rw [he]
      exact h.kernel.leaves (.of_faults hf)
  · intro element hset hadded hrec
    rcases b.apply_cases (deleteOps rule) now with ⟨_, ha⟩ | ⟨e, faults, he, hf⟩
    · have hnoadd : ∀ op ∈ deleteOps rule, op.kind = .add →
          ¬ (op.address = adaptiveSet element.1 ∧ op.key = element.2) := by
        intro op hop hkind
        obtain ⟨el, _, rfl⟩ := mem_deleteOps hop
        exact absurd hkind (by simp [deletion])
      obtain ⟨hbefore, huntouched⟩ := recorded_of_applied ha hnoadd hrec
      rcases added_of_applied ha hadded with hadded | ⟨op, hop, hkind, hon⟩
      · refine hkept element (h.owned element hset hadded hbefore) ?_
        intro hel
        refine huntouched (deletion element) ?_ ⟨rfl, rfl⟩
        simp [deleteOps, hel, deletion]
      · exact absurd hon (hnoadd op hop hkind)
    · rw [he] at hadded hrec
      refine hkept element (h.owned element hset hadded hrec) ?_
      intro hel
      -- the deletion of an element that is there cannot have been refused
      have hops : deleteOps rule = [deletion element] := by
        simp [deleteOps, hel, deletion]
      have hfound : (b.find? (deletion element).address).isSome = true := by
        obtain ⟨x, hx⟩ := Option.isSome_iff_exists.mp hrec
        obtain ⟨fake, hfake, _⟩ := Option.bind_eq_some_iff.mp hx
        exact Option.isSome_iff_exists.mpr ⟨fake, hfake⟩
      have hvalid := h.valid element hset hadded
      have hok : (b.apply [deletion element] now).1 = .ok () :=
        FakeSetBackend.apply_deletes_ok now h.kernel.faults (by simp [deletion]) (by simpa using hvalid)
          (by simpa using hfound)
      rw [← hops, he] at hok
      exact absurd hok (by simp)
  · intro element hset hadded
    rcases b.apply_cases (deleteOps rule) now with ⟨_, ha⟩ | ⟨e, faults, he, hf⟩
    · rcases added_of_applied ha hadded with hadded | ⟨op, hop, hkind, _⟩
      · exact h.valid element hset hadded
      · obtain ⟨el, _, rfl⟩ := mem_deleteOps hop
        exact absurd hkind (by simp [deletion])
    · rw [he] at hadded
      exact h.valid element hset hadded

/-! ### Retiring everything -/

/-- Nothing is left in the enforcement sets. -/
def EnforcementEmpty (b : FakeSetBackend) : Prop :=
  ∀ name ∈ adaptiveEnforcementSets, ∀ k, b.expiry? (adaptiveSet name) k = none

theorem EnforcementEmpty.leaves {b b' : FakeSetBackend} (h : EnforcementEmpty b)
    (hl : b.LeavesEnforcement b') : EnforcementEmpty b' := fun name hname k =>
  (hl.expiry _ ⟨name, hname, rfl⟩ k).trans (h name hname k)

/-- A flush is no addition. -/
theorem added_of_flushed {b b' : FakeSetBackend} {names : List String} (h : b.Flushed names b')
    {element : String × ElementKey} (hadded : b'.Added element) : b.Added element := by
  obtain ⟨write, hmem, hadds⟩ := hadded
  rw [h.log] at hmem
  rcases List.mem_append.mp hmem with hold | hnew
  · exact ⟨write, hold, hadds⟩
  · obtain rfl := List.mem_singleton.mp hnew
    obtain ⟨_, _, heq, _⟩ := hadds
    exact absurd heq (by simp)

/-- Flushing the enforcement sets of a sound kernel empties them. -/
theorem SoundKernel.flush {b : FakeSetBackend} (h : SoundKernel b) :
    SoundKernel (b.flushSets adaptiveEnforcementSets).2 ∧
      EnforcementEmpty (b.flushSets adaptiveEnforcementSets).2 ∧
      ∀ element, (b.flushSets adaptiveEnforcementSets).2.Added element → b.Added element := by
  rcases b.flushSets_cases adaptiveEnforcementSets with ⟨_, hflushed⟩ | ⟨e, faults, heq, hfaults⟩
  · refine ⟨⟨hflushed.faults h.faults, ?_⟩, ?_, fun element => added_of_flushed hflushed⟩
    · rcases h.loaded with hall | hmissing
      · exact .inl fun name hname => (hflushed.loaded _).trans (hall name hname)
      · exact .inr ((hflushed.tables _).trans hmissing)
    · intro name hname k
      rw [hflushed.expiry, if_pos (List.mem_map_of_mem hname)]
  · have hleaves : b.LeavesEnforcement (b.flushSets adaptiveEnforcementSets).2 := by
      rw [heq]
      exact .of_faults hfaults
    refine ⟨h.leaves hleaves, ?_, ?_⟩
    · -- a flush of loaded sets is not refused, so there was nothing to flush
      rcases h.loaded with hall | hmissing
      · have hok := FakeSetBackend.flushSets_ok h.faults hall
        rw [heq] at hok
        exact absurd hok (by simp)
      · intro name _ k
        exact expiry?_of_missing ((hleaves.tables _).trans hmissing)
    · intro element hadded
      rw [heq] at hadded
      exact hadded

/-- No rule is in force and the enforcement sets are empty. -/
def Cleared (m : FirewallManager) : Prop :=
  (∀ id rule, m.rules.get? id = some rule → rule.status ≠ .active) ∧
    ∃ b, m.sets = some b ∧ EnforcementEmpty b

/-- Demoting every ACTIVE rule over empty enforcement sets leaves nothing to own. -/
theorem Accounted.cleared {m m₀ m' : FirewallManager} {b b' : FakeSetBackend} (h : Accounted m b)
    (hrules : m₀.rules = m.rules) (htargets : m₀.targets = m.targets) (hconfig : m₀.config = m.config)
    (hsets : m₀.sets = some b') (hdemoted : Demoted m₀ m' fun rule => rule.status == .active)
    (hkernel : SoundKernel b') (hempty : EnforcementEmpty b')
    (hadded : ∀ element, element.1 ∈ adaptiveEnforcementSets → b'.Added element → b.Added element) :
    (∃ b', Accounted m' b') ∧ Cleared m' := by
  have hretires : Retires m m' := (Retires.of_eq hrules htargets hconfig).trans hdemoted.retires
  have hsets' : m'.sets = some b' := hdemoted.sets.trans hsets
  refine ⟨⟨b', hsets', hretires.keyed h.keyed, hkernel, ?_, ?_⟩,
    fun id rule hrule => hdemoted.none_active hrule, b', hsets', hempty⟩
  · intro element hset _ hrec
    rw [hempty element.1 hset] at hrec
    exact absurd hrec (by simp)
  · exact fun element hset ha => h.valid element hset (hadded element hset ha)

/-- The kill switch clears the board. -/
theorem Accounted.revertToBase {m : FirewallManager} {b : FakeSetBackend} (h : Accounted m b)
    (now : Time) :
    (∃ b', Accounted (m.revertToBase now).2 b') ∧ Cleared (m.revertToBase now).2 := by
  obtain ⟨hkernel, hempty, hadded⟩ := h.kernel.flush
  have hguards := FakeSetBackend.LeavesEnforcement.setGuardModes
    (b.flushSets adaptiveEnforcementSets).2 allObserve
  have hdemoted := revertToBase_demoted h.sets h.keyed now
  exact h.cleared (by rfl) (by rfl) (by rfl) (by rfl) hdemoted (hkernel.leaves hguards)
    (hempty.leaves hguards) fun element hset ha => hadded element (hguards.added hset ha)

/-- So does a fail-open shutdown. -/
theorem Accounted.failOpenShutdown {m : FirewallManager} {b : FakeSetBackend} (h : Accounted m b)
    (now : Time) :
    (∃ b', Accounted (m.failOpenShutdown now).2 b') ∧ Cleared (m.failOpenShutdown now).2 := by
  obtain ⟨hkernel, hempty, hadded⟩ := h.kernel.flush
  have hdemoted := failOpenShutdown_demoted h.sets h.keyed now
  exact h.cleared (by rfl) (by rfl) (by rfl) (by rfl) hdemoted hkernel hempty
    fun element _ ha => hadded element ha

/-- And so does a panic. -/
theorem Accounted.panic {m : FirewallManager} {b : FakeSetBackend} (h : Accounted m b)
    (actor : String) (now : Time) :
    (∃ b', Accounted (m.panic actor now).2 b') ∧ Cleared (m.panic actor now).2 := by
  rcases b.panic_cases with ⟨hok, hempty, hmissing, hlog, hfaults⟩ | ⟨e, faults, _, hfaults⟩
  · rcases panic_demoted h.sets h.keyed actor now with ⟨e, herr, _⟩ | hdemoted
    · exact absurd (hok.symm.trans herr) (by simp)
    · refine h.cleared (by rfl) (by rfl) (by rfl) (by rfl) hdemoted
        ⟨hfaults h.kernel.faults, .inr hmissing⟩ (fun name _ k => hempty name k) ?_
      rintro element _ ⟨write, hmem, hadds⟩
      rw [hlog] at hmem
      rcases List.mem_append.mp hmem with hold | hnew
      · exact ⟨write, hold, hadds⟩
      · obtain rfl := List.mem_singleton.mp hnew
        obtain ⟨_, _, heq, _⟩ := hadds
        exact absurd heq (by simp)
  · exact absurd h.kernel.faults hfaults

/-! ### Putting a rule in force -/

/-- What passed the checks as an addition passes them as a deletion. -/
theorem validateElement_deletion {op : SetOp} (h : validateElement op = .ok ())
    (htable : op.table = adaptiveTable) (hfamily : op.family = inetFamily) :
    validateElement (deletion (op.setName, op.key)) = .ok () := by
  obtain ⟨kind, setName, key, timeout, table, family⟩ := op
  subst htable hfamily
  unfold validateElement at h ⊢
  simp only [deletion, SetOp.address] at h ⊢
  cases hshape : managerWritableSets.lookup ⟨inetFamily, adaptiveTable, setName⟩ with
  | none => simp [hshape] at h
  | some shape =>
    simp only [hshape] at h ⊢
    cases hkey : normaliseKey shape.keyType key with
    | error e => simp [hkey] at h
    | ok normal =>
      simp only [hkey] at h ⊢
      by_cases hne : normal = key
      · simp [hne]
      · simp [hne] at h

/-- The rule to supersede is filed, ACTIVE, and the one that was named. -/
theorem replacedBy_some {m : FirewallManager} (hkeyed : Keyed m) {upgradeOf : Option String}
    {old : FirewallRule} (h : m.replacedBy upgradeOf = some old) :
    m.rules.get? old.id = some old ∧ old.status = .active ∧ upgradeOf = some old.id := by
  obtain ⟨hget, hactive⟩ := Option.filter_eq_some_iff.mp h
  obtain ⟨id, hid, hrule⟩ := Option.bind_eq_some_iff.mp hget
  have hsame := hkeyed id old hrule
  exact ⟨by rw [hsame]; exact hrule, by simpa using hactive, by rw [hid, hsame]⟩

/-- Filing a rule that is not in force under an id that held none in force. -/
theorem Accounted.file {m m' : FirewallManager} {b b' : FakeSetBackend} (h : Accounted m b)
    {r : FirewallRule} (hrules : m'.rules = m.rules.set r.id r) (hsets : m'.sets = some b')
    (hl : b.LeavesEnforcement b')
    (hfree : ∀ old, m.rules.get? r.id = some old → old.status ≠ .active) : Accounted m' b' where
  sets := hsets
  keyed := keyed_set h.keyed hrules
  kernel := h.kernel.leaves hl
  owned := by
    intro element hset hadded hrec
    rw [hl.expiry _ ⟨_, hset, rfl⟩] at hrec
    obtain ⟨id, owner, howner, hactive, hel⟩ := h.owned element hset (hl.added hset hadded) hrec
    refine ⟨id, owner, ?_, hactive, hel⟩
    rw [hrules, Dict.get?_set, if_neg]
    · exact howner
    · rintro rfl
      exact hfree owner howner hactive
  valid := fun element hset hadded => h.valid element hset (hl.added hset hadded)

section Deployment

variable {m m' : FirewallManager} {b b' : FakeSetBackend} {rule : FirewallRule} {now : Time}
  {upgradeOf : Option String} {target : RuleTarget} {additions : List SetOp} {metadata : Metadata}

/-- The rule table after a deployment. -/
theorem SetDeployment.get?
    (h : SetDeployment m b rule now upgradeOf m' target additions metadata b') (id : String) :
    m'.rules.get? id =
      if id = rule.id then some (rule.activated now metadata)
      else if (m.replacedBy upgradeOf).map FirewallRule.id = some id then
        (m.replacedBy upgradeOf).map demote
      else m.rules.get? id := by
  obtain ⟨transitions, hm'⟩ := h.result
  rw [hm']
  exact get?_deployedRules m.rules (m.replacedBy upgradeOf) (rule.activated now metadata) id

/-- A rule other than the new one that is ACTIVE or PENDING was there before and is not the superseded
one. -/
theorem SetDeployment.unchanged
    (h : SetDeployment m b rule now upgradeOf m' target additions metadata b') {id : String}
    {other : FirewallRule} (hother : m'.rules.get? id = some other) (hne : id ≠ rule.id)
    (hstatus : other.status = .active ∨ other.status = .pendingApproval) :
    m.rules.get? id = some other ∧ ∀ old, m.replacedBy upgradeOf = some old → id ≠ old.id := by
  rw [h.get?, if_neg hne] at hother
  split at hother
  · obtain ⟨old, _, rfl⟩ := Option.map_eq_some_iff.mp hother
    rcases hstatus with hs | hs <;> exact absurd hs (by simp [demote])
  · rename_i hrep
    exact ⟨hother, fun old heq hid => hrep (by rw [heq, hid]; rfl)⟩

theorem mem_replaced_deleteOps {op : SetOp}
    (h : op ∈ ((m.replacedBy upgradeOf).map deleteOps).getD []) :
    ∃ old element, m.replacedBy upgradeOf = some old ∧ elementOf old = some element ∧
      op = deletion element := by
  cases hrep : m.replacedBy upgradeOf with
  | none => simp [hrep] at h
  | some old =>
    simp only [hrep, Option.map_some, Option.getD_some] at h
    obtain ⟨element, hel, rfl⟩ := mem_deleteOps h
    exact ⟨old, element, rfl, hel, rfl⟩

/-- The batch's one addition is the element the rule records. -/
theorem SetDeployment.addition_op
    (h : SetDeployment m b rule now upgradeOf m' target additions metadata b') {op : SetOp}
    (hop : op ∈ ((m.replacedBy upgradeOf).map deleteOps).getD [] ++ additions) (hkind : op.kind = .add) :
    elementOf (rule.activated now metadata) = some (op.setName, op.key) ∧ op.table = adaptiveTable ∧
      op.family = inetFamily := by
  obtain ⟨element, _, _, _, rfl, hel⟩ := h.added_op hop hkind
  exact ⟨hel, rfl, rfl⟩

/-- A deployment's batch adds no element but the new rule's. -/
theorem SetDeployment.no_addition
    (h : SetDeployment m b rule now upgradeOf m' target additions metadata b')
    {element : String × ElementKey} (hne : elementOf (rule.activated now metadata) ≠ some element) :
    ∀ op ∈ ((m.replacedBy upgradeOf).map deleteOps).getD [] ++ additions, op.kind = .add →
      ¬ (op.address = adaptiveSet element.1 ∧ op.key = element.2) := by
  rintro op hop hkind ⟨haddr, hkey⟩
  have hname : op.setName = element.1 := congrArg SetAddress.setName haddr
  apply hne
  rw [(h.addition_op hop hkind).1, hname, hkey]

/-- The new rule owns its element; any other element's owner was not superseded. -/
theorem Accounted.deployed (h : Accounted m b)
    (hdeploy : SetDeployment m b rule now upgradeOf m' target additions metadata b')
    (hkeyed : Keyed m') (hfree : ∀ old, m.rules.get? rule.id = some old → old.status ≠ .active) :
    Accounted m' b' where
  sets := by
    obtain ⟨transitions, hm'⟩ := hdeploy.result
    rw [hm']
  keyed := hkeyed
  kernel := h.kernel.applied hdeploy.applied
  owned := by
    intro element hset hadded hrec
    by_cases hown : elementOf (rule.activated now metadata) = some element
    · exact ⟨rule.id, rule.activated now metadata, by rw [hdeploy.get?, if_pos rfl], rfl, hown⟩
    have hother := hdeploy.no_addition hown
    obtain ⟨hbefore, huntouched⟩ := recorded_of_applied hdeploy.applied hother hrec
    rcases added_of_applied hdeploy.applied hadded with hadded | ⟨op, hop, hkind, hon⟩
    · obtain ⟨id, owner, howner, hactive, hel⟩ := h.owned element hset hadded hbefore
      refine ⟨id, owner, ?_, hactive, hel⟩
      rw [hdeploy.get?, if_neg, if_neg]
      · exact howner
      · intro hrep
        obtain ⟨old, hold, rfl⟩ := Option.map_eq_some_iff.mp hrep
        obtain ⟨hrule, _, _⟩ := replacedBy_some h.keyed hold
        rw [howner] at hrule
        obtain rfl := Option.some.inj hrule
        refine huntouched (deletion element) (List.mem_append_left _ ?_) ⟨rfl, rfl⟩
        simp [hold, deleteOps, hel, deletion]
      · rintro rfl
        exact hfree owner howner hactive
    · exact absurd hon (hother op hop hkind)
  valid := by
    intro element hset hadded
    rcases added_of_applied hdeploy.applied hadded with hadded | ⟨op, hop, hkind, haddr, hkey⟩
    · exact h.valid element hset hadded
    · obtain ⟨_, htable, hfamily⟩ := hdeploy.addition_op hop hkind
      have hdel := validateElement_deletion (hdeploy.applied.validated op hop) htable hfamily
      rw [hkey, show op.setName = element.1 from congrArg SetAddress.setName haddr] at hdel
      exact hdel

end Deployment

/-- A deployment keeps every element owned, if no rule in force is overwritten. -/
theorem Accounted.deployToSets {m : FirewallManager} {b : FakeSetBackend} (h : Accounted m b)
    (rule : FirewallRule) (now : Time) (upgradeOf : Option String)
    (hfree : ∀ old, m.rules.get? rule.id = some old → old.status ≠ .active) :
    ∃ b', Accounted (m.deployToSets b rule now upgradeOf).2 b' := by
  have hkeyed := deployToSets_keyed h.keyed b rule now upgradeOf
  rcases m.deployToSets_cases b rule now upgradeOf with
    heq | ⟨faults, transitions, hf, heq⟩ | ⟨target, additions, metadata, b', hdeploy⟩
  · rw [heq]
    exact ⟨b, h⟩
  · rw [heq]
    exact ⟨{ b with faults }, h.file (r := { rule with status := .rejected }) rfl rfl (.of_faults hf)
      hfree⟩
  · exact ⟨b', h.deployed hdeploy hkeyed hfree⟩

/-! ### Reconcile -/

theorem Listed.kernel {b b' : FakeSetBackend} {now : Time} {names : List String}
    {live : Except String (List ((String × ElementKey) × Option Int))} (h : SoundKernel b)
    (hlisted : Listed b b' now names live) : SoundKernel b' where
  faults := hlisted.faults.trans h.faults
  loaded := by
    rcases h.loaded with hall | hmissing
    · exact .inl fun name hname => (hlisted.loaded _).trans (hall name hname)
    · exact .inr ((hlisted.tables _).trans hmissing)

theorem Accounted.listed {m : FirewallManager} {b b' : FakeSetBackend} {now : Time}
    {names : List String} {live : Except String (List ((String × ElementKey) × Option Int))}
    (h : Accounted m b) (hlisted : Listed b b' now names live) :
    Accounted { m with sets := some b' } b' where
  sets := rfl
  keyed := h.keyed
  kernel := hlisted.kernel h.kernel
  owned := by
    rintro element hset ⟨write, hmem, hadds⟩ hrec
    obtain ⟨e, he⟩ := Option.isSome_iff_exists.mp hrec
    exact h.owned element hset ⟨write, hlisted.ops ▸ hmem, hadds⟩ (by rw [hlisted.of_some he]; rfl)
  valid := by
    rintro element hset ⟨write, hmem, hadds⟩
    exact h.valid element hset ⟨write, hlisted.ops ▸ hmem, hadds⟩

/-- Retiring the rules whose element is gone leaves every element's owner. -/
theorem Accounted.retireMissing {m : FirewallManager} {b : FakeSetBackend} (h : Accounted m b)
    (live : List (String × ElementKey)) (now : Time)
    (hlive : ∀ element : String × ElementKey, element.1 ∈ adaptiveEnforcementSets →
      (b.expiry? (adaptiveSet element.1) element.2).isSome = true → element ∈ live) :
    Accounted (m.retireMissing live now).2 b := by
  have hdemoted := retireMissing_demoted h.keyed live now
  refine ⟨hdemoted.sets.trans h.sets, hdemoted.retires.keyed h.keyed, h.kernel, ?_, h.valid⟩
  intro element hset hadded hrec
  obtain ⟨id, owner, howner, hactive, hel⟩ := h.owned element hset hadded hrec
  refine ⟨id, owner, hdemoted.kept howner ?_, hactive, hel⟩
  simp [hel, hlive element hset hrec]

theorem reconciledId_injective {s t k l : String} (hs : s ∈ ipKeyedSets) (ht : t ∈ ipKeyedSets)
    (h : reconciledId s k = reconciledId t l) : s = t ∧ k = l := by
  have hlist : s.toList ++ ':' :: k.toList = t.toList ++ ':' :: l.toList := by
    have := congrArg String.toList h
    simpa [reconciledId, String.toList_append] using this
  simp only [ipKeyedSets, List.mem_cons, List.not_mem_nil, or_false] at hs ht
  rcases hs with rfl | rfl <;> rcases ht with rfl | rfl
  · exact ⟨rfl, String.toList_inj.mp (by simpa using hlist)⟩
  · exact absurd (congrArg List.head? hlist) (by simp [setBlock4, setRatelimit4])
  · exact absurd (congrArg List.head? hlist) (by simp [setBlock4, setRatelimit4])
  · exact ⟨rfl, String.toList_inj.mp (by simpa using hlist)⟩

theorem AdoptedIds.retires {m m' : FirewallManager} (h : AdoptedIds m) (hr : Retires m m') :
    AdoptedIds m' := by
  intro setName hset key rule' hrule'
  obtain ⟨rule, hrule, hcase⟩ := hr.rules _ _ hrule'
  obtain ⟨hel, hstatus⟩ := h setName hset key rule hrule
  rcases hcase with rfl | ⟨status, _, hpending, rfl⟩
  · exact ⟨hel, hstatus⟩
  · exact ⟨hel, hpending⟩

/-- Adopting an element files a rule for it where only a rule for it could be. -/
theorem Accounted.adopt {m : FirewallManager} {b : FakeSetBackend} (h : Accounted m b)
    (hids : AdoptedIds m) {setName : String} (key : String) (expiresIn : Option Int) (now : Time)
    (hset : setName ∈ ipKeyedSets) :
    Accounted (m.adopt setName key expiresIn now).2 b ∧
      AdoptedIds (m.adopt setName key expiresIn now).2 := by
  rcases m.adopt_cases setName key expiresIn now with
    heq | ⟨rule, ip, transitions, hid, hactive, hel, heq⟩
  · rw [heq]
    exact ⟨h, hids⟩
  rw [heq]
  refine ⟨⟨h.sets, keyed_set h.keyed rfl, h.kernel, ?_, h.valid⟩, ?_⟩
  · intro element hset' hadded hrec
    obtain ⟨id, owner, howner, howner_active, howner_el⟩ := h.owned element hset' hadded hrec
    by_cases hsame : id = rule.id
    · -- the rule that was there owned this very element
      refine ⟨rule.id, rule, by simp, hactive, ?_⟩
      rw [hsame, hid] at howner
      rw [hel, ← howner_el, (hids setName hset key owner howner).1]
    · exact ⟨id, owner, by simpa [hsame] using howner, howner_active, howner_el⟩
  · intro setName' hset' key' r hr
    simp only [Dict.get?_set] at hr
    split at hr
    · rename_i hsame
      obtain rfl := Option.some.inj hr
      obtain ⟨rfl, rfl⟩ := reconciledId_injective hset' hset (hsame.trans hid)
      exact ⟨hel, by simp [hactive]⟩
    · exact hids setName' hset' key' r hr

theorem Accounted.reconcile {m : FirewallManager} {b : FakeSetBackend} (h : Accounted m b)
    (hids : AdoptedIds m) (now : Time) :
    (∃ b', Accounted (m.reconcile now).2 b') ∧ AdoptedIds (m.reconcile now).2 := by
  rcases reconcile_cases h.sets now with heq | ⟨b', e, hlisted, heq⟩ | ⟨b', live, report, hlisted, heq⟩
  · rw [heq]
    exact ⟨⟨b, h⟩, hids⟩
  · rw [heq]
    exact ⟨⟨b', h.listed hlisted⟩, hids⟩
  · have hlisted_accounted := h.listed hlisted
    have hretired := hlisted_accounted.retireMissing (live.map Prod.fst) now (by
      intro element hset hrec
      obtain ⟨e, he⟩ := Option.isSome_iff_exists.mp hrec
      exact hlisted.complete live rfl element.1 hset element.2 e he)
    have hids' : AdoptedIds { m with sets := some b' } := hids
    have hretired_ids := hids'.retires (retireMissing_demoted hlisted_accounted.keyed
      (live.map Prod.fst) now).retires
    rw [heq]
    have hboth := adoptUnknown_induction (I := fun m => Accounted m b' ∧ AdoptedIds m)
      (K := m.knownElements (live.map Prod.fst)) (sortedLive live)
      (fun m setName key expiresIn _ _ hset hm => hm.1.adopt hm.2 key expiresIn now hset) _ report
      ⟨hretired, hretired_ids⟩
    exact ⟨⟨b', hboth.1⟩, hboth.2⟩

/-! ### Whole runs -/

theorem Accounted.submitCandidate {m : FirewallManager} {b : FakeSetBackend} (h : Accounted m b)
    (env : Env) (candidate : CandidateRule) (hnew : candidate.id ∉ m.rules.keys) :
    ∃ b', Accounted (m.submitCandidate env candidate).2 b' := by
  have hfree : ∀ old, m.rules.get? candidate.id = some old → old.status ≠ .active := fun old hold =>
    absurd (Dict.mem_keys_iff.mpr ⟨old, hold⟩) hnew
  unfold FirewallManager.submitCandidate
  rw [h.sets]
  rcases m.submitToSets_cases env b candidate with
    ⟨rateLimiter, heq⟩ | ⟨target, upgradeOf, rule, _, _, ⟨priority, hsource, rfl⟩, hcases⟩
  · exact ⟨b, by rw [heq]; exact h.congr rfl rfl⟩
  · rcases hcases with ⟨status, rateLimiter, transitions, _, heq⟩ | ⟨_, rateLimiter, transitions, heq⟩
    · simp only
      rw [heq]
      exact ⟨b, h.file (r := { candidate.toRule priority (some target) hsource with status := status })
        rfl h.sets (.refl b) hfree⟩
    · simp only
      rw [heq]
      have hrecorded : Accounted { m with
          rateLimiter, transitions
          targets := m.targets.set candidate.id target } b := h.congr rfl rfl
      exact hrecorded.deployToSets (candidate.toRule priority (some target) hsource) env.now upgradeOf
        hfree

theorem Accounted.approvePending {m : FirewallManager} {b : FakeSetBackend} (h : Accounted m b)
    (ruleId : String) (now : Time) : ∃ b', Accounted (m.approvePending ruleId now).2 b' := by
  rcases m.approvePending_cases ruleId now with heq | ⟨rule, hrule, hpending, hcases⟩
  · exact ⟨b, by rw [heq]; exact h⟩
  have hkey : rule.id = ruleId := h.keyed ruleId rule hrule
  rcases hcases with ⟨b₁, transitions, hsets, heq⟩ | ⟨hsets, _⟩
  · obtain rfl := Option.some.inj (hsets.symm.trans h.sets)
    rw [heq]
    have hrecorded : Accounted { m with transitions } b₁ := h.congr rfl rfl
    refine hrecorded.deployToSets { rule with status := .approved } now _ ?_
    intro old hold
    have hsame : old = rule := Option.some.inj ((hkey ▸ hold).symm.trans hrule)
    rw [hsame, hpending]
    simp
  · exact absurd (hsets.symm.trans h.sets) (by simp)

theorem Accounted.rejectPending {m : FirewallManager} {b : FakeSetBackend} (h : Accounted m b)
    (ruleId : String) (now : Time) : ∃ b', Accounted (m.rejectPending ruleId now).2 b' := by
  have hretires := Retires.rejectPending m ruleId now
  unfold FirewallManager.rejectPending at hretires ⊢
  split
  · exact ⟨b, h⟩
  · rename_i rule hrule
    split
    · exact ⟨b, h⟩
    · rename_i hpending
      have hkey : rule.id = ruleId := h.keyed ruleId rule hrule
      refine ⟨b, h.file (r := { rule with status := .rejected }) ?_ h.sets (.refl b) ?_⟩
      · simp [record, setRule, hkey]
      · intro old hold
        have hsame : old = rule := Option.some.inj ((hkey ▸ hold).symm.trans hrule)
        rw [hsame, not_not.mp hpending]
        simp

theorem Accounted.step {m : FirewallManager} {b : FakeSetBackend} (h : Accounted m b)
    (call : Env × ManagerOp) (hfresh : FreshCandidate m call)
    (hids : call.2 = .reconcile → AdoptedIds m) : ∃ b', Accounted (m.step call) b' := by
  obtain ⟨env, op⟩ := call
  by_cases hk : isHousekeeping op = true
  · exact h.housekeeping (m.step_housekeeping env op hk)
  cases op with
  | submitCandidate candidate => exact h.submitCandidate env candidate (hfresh candidate rfl)
  | approvePending ruleId => exact h.approvePending ruleId env.now
  | rejectPending ruleId => exact h.rejectPending ruleId env.now
  | disableRule ruleId => exact h.retireRule ruleId env.now _ (by simp) (by simp)
  | removeRule ruleId => exact h.retireRule ruleId env.now _ (by simp) (by simp)
  | expireRules =>
    refine expireRules_induction (I := fun m => ∃ b, Accounted m b) m env.now ?_ ⟨b, h⟩
    rintro m' ruleId ⟨b', h'⟩
    exact h'.retireRule ruleId env.now _ (by simp) (by simp)
  | revertToBase => exact (h.revertToBase env.now).1
  | failOpenShutdown => exact (h.failOpenShutdown env.now).1
  | panic actor => exact (h.panic actor env.now).1
  | reconcile => exact (h.reconcile (hids rfl) env.now).1
  | _ => exact absurd rfl hk

/-- Filing a rule under an id that is not reconcile's. -/
theorem AdoptedIds.set {m m' : FirewallManager} (h : AdoptedIds m) {r : FirewallRule}
    (hid : ¬ IsReconciledId r.id) (hrules : m'.rules = m.rules.set r.id r) : AdoptedIds m' := by
  intro setName hset key other hr
  rw [hrules, Dict.get?_set, if_neg] at hr
  · exact h setName hset key other hr
  · intro heq
    exact hid ⟨setName, hset, key, heq.symm⟩

theorem AdoptedIds.deployToSets {m : FirewallManager} (h : AdoptedIds m) (hkeyed : Keyed m)
    (b : FakeSetBackend) (rule : FirewallRule) (now : Time) (upgradeOf : Option String)
    (hid : ¬ IsReconciledId rule.id) : AdoptedIds (m.deployToSets b rule now upgradeOf).2 := by
  rcases m.deployToSets_cases b rule now upgradeOf with
    heq | ⟨faults, transitions, _, heq⟩ | ⟨target, additions, metadata, b', hdeploy⟩
  · rw [heq]
    exact h
  · rw [heq]
    exact h.set (r := { rule with status := .rejected }) hid rfl
  · intro setName hset key r hr
    rw [hdeploy.get?, if_neg fun heq => hid ⟨setName, hset, key, heq.symm⟩] at hr
    split at hr
    · rename_i heq
      obtain ⟨old, hold, rfl⟩ := Option.map_eq_some_iff.mp hr
      obtain ⟨hrule, _, _⟩ := replacedBy_some hkeyed hold
      rw [hold] at heq
      rw [show old.id = reconciledId setName key from Option.some.inj heq] at hrule
      exact ⟨(h setName hset key old hrule).1, by simp [demote]⟩
    · exact h setName hset key r hr

/-- No call files a candidate under one of reconcile's ids, if none has such an id. -/
theorem AdoptedIds.step {m : FirewallManager} {b : FakeSetBackend} (h : AdoptedIds m)
    (haccounted : Accounted m b) (call : Env × ManagerOp)
    (hids : ∀ id, candidateId call.2 = some id → ¬ IsReconciledId id) : AdoptedIds (m.step call) := by
  obtain ⟨env, op⟩ := call
  have hkeyed := haccounted.keyed
  by_cases hother : (∀ candidate, op ≠ .submitCandidate candidate) ∧
      (∀ ruleId, op ≠ .approvePending ruleId) ∧ op ≠ .reconcile
  · exact h.retires (step_retires hkeyed env op hother.1 hother.2.1 hother.2.2)
  cases op with
  | submitCandidate candidate =>
    have hid : ¬ IsReconciledId candidate.id := hids candidate.id rfl
    simp only [FirewallManager.step, FirewallManager.submitCandidate, haccounted.sets]
    rcases m.submitToSets_cases env b candidate with
      ⟨_, heq⟩ | ⟨target, upgradeOf, rule, _, _, ⟨priority, hsource, rfl⟩, hcases⟩
    · rw [heq]
      exact h
    · rcases hcases with ⟨status, _, _, _, heq⟩ | ⟨_, rateLimiter, transitions, heq⟩
      · rw [heq]
        exact h.set (r := { candidate.toRule priority (some target) hsource with status := status })
          hid rfl
      · rw [heq]
        have hrecorded : AdoptedIds { m with
          rateLimiter, transitions
          targets := m.targets.set candidate.id target } := h
        exact hrecorded.deployToSets hkeyed b (candidate.toRule priority (some target) hsource) env.now
          upgradeOf hid
  | approvePending ruleId =>
    simp only [FirewallManager.step]
    rcases m.approvePending_cases ruleId env.now with heq | ⟨rule, hrule, hpending, hcases⟩
    · rw [heq]
      exact h
    rcases hcases with ⟨b₁, transitions, _, heq⟩ | ⟨hsets, _⟩
    · rw [heq]
      have hrecorded : AdoptedIds { m with transitions } := h
      refine hrecorded.deployToSets hkeyed b₁ { rule with status := .approved } env.now _ ?_
      rintro ⟨setName, hset, key, hid⟩
      have hkey : rule.id = ruleId := hkeyed ruleId rule hrule
      exact (h setName hset key rule (by rw [← hid, hkey]; exact hrule)).2 hpending
    · exact absurd (hsets.symm.trans haccounted.sets) (by simp)
  | reconcile => exact (haccounted.reconcile h env.now).2
  | _ => exact absurd ⟨by simp, by simp, by simp⟩ hother

/-- A kernel that logged no addition yet has nothing to be owned. -/
theorem Accounted.init (config : PirewallConfig) (backend : FakeFirewallBackend)
    (store : Option AllowlistStore) {b : FakeSetBackend} (hkernel : SoundKernel b) (hlog : b.ops = []) :
    Accounted (init config backend store (some b)) b where
  sets := rfl
  keyed := keyed_init config backend store (some b)
  kernel := hkernel
  owned := by
    rintro element _ ⟨write, hmem, _⟩
    rw [hlog] at hmem
    exact absurd hmem (by simp)
  valid := by
    rintro element _ ⟨write, hmem, _⟩
    rw [hlog] at hmem
    exact absurd hmem (by simp)

/-- The calls that take every rule out of force at once. -/
def isReset : ManagerOp → Bool
  | .revertToBase => true
  | .failOpenShutdown => true
  | .panic _ => true
  | _ => false

/-- After each of the calls that clear the board, it is clear. -/
theorem Accounted.reset {m : FirewallManager} {b : FakeSetBackend} (h : Accounted m b) (env : Env)
    {op : ManagerOp} (hreset : isReset op = true) : Cleared (m.step (env, op)) := by
  cases op with
  | revertToBase => exact (h.revertToBase env.now).2
  | failOpenShutdown => exact (h.failOpenShutdown env.now).2
  | panic actor => exact (h.panic actor env.now).2
  | _ => exact absurd hreset (by simp [isReset])

/-- The run lemma: fresh candidate ids, none of them one of reconcile's. -/
theorem Accounted.along {m : FirewallManager} {b : FakeSetBackend} (h : Accounted m b)
    (hadopted : AdoptedIds m) {calls : List (Env × ManagerOp)}
    (hfresh : Along FirewallManager.step FreshCandidate m calls)
    (hids : ∀ id ∈ candidateIds calls, ¬ IsReconciledId id) : ∃ b', Accounted (m.run calls) b' := by
  induction calls generalizing m b with
  | nil => exact ⟨b, h⟩
  | cons call calls ih =>
    obtain ⟨b₁, h₁⟩ := h.step call hfresh.1 fun _ => hadopted
    refine ih h₁ (hadopted.step h call ?_) hfresh.2 fun id hid => hids id (candidateIds_cons hid)
    exact fun id hid => hids id (by simp [candidateIds, hid])

/-- **Every element has an owner.** After any run on a kernel that refuses nothing, with whatever the
kernel held before, candidate ids distinct from each other and from reconcile's: what the manager added
to an enforcement set and is still there is the element of some ACTIVE rule. After a kill switch, a
fail-open shutdown or a panic the sets are empty and no rule is ACTIVE. -/
theorem added_elements_have_owners (config : PirewallConfig) (backend : FakeFirewallBackend)
    (store : Option AllowlistStore) (b : FakeSetBackend) (hkernel : SoundKernel b) (hlog : b.ops = [])
    (calls : List (Env × ManagerOp)) (hdistinct : (candidateIds calls).Nodup)
    (hids : ∀ id ∈ candidateIds calls, ¬ IsReconciledId id) :
    (∃ b', ((init config backend store (some b)).run calls).sets = some b' ∧
      ∀ element : String × ElementKey, element.1 ∈ adaptiveEnforcementSets → b'.Added element →
        (b'.expiry? (adaptiveSet element.1) element.2).isSome = true →
        Owned ((init config backend store (some b)).run calls) element) ∧
    ∀ env op, isReset op = true →
      Cleared (((init config backend store (some b)).run calls).step (env, op)) := by
  have hstart := Accounted.init config backend store hkernel hlog
  have hfresh : Along step FreshCandidate (init config backend store (some b)) calls :=
    freshCandidate_along hdistinct (.inr hids) hstart.keyed fun _ _ => by
      simp [init, Dict.keys, Dict.empty]
  have hadopted : AdoptedIds (init config backend store (some b)) := fun _ _ _ _ h =>
    absurd h (by simp [init])
  obtain ⟨b', h'⟩ := hstart.along hadopted hfresh hids
  exact ⟨⟨b', h'.sets, h'.owned⟩, fun env op hreset => h'.reset env hreset⟩

/-- How an id of reconcile starts. -/
theorem head?_of_isReconciledId {id : String} (h : IsReconciledId id) : id.toList.head? = some 'r' := by
  obtain ⟨setName, _, key, rfl⟩ := h
  simp [reconciledId, reconciledPrefix, String.toList_append]

/-- The site's kernel refuses nothing. -/
theorem siteKernel_sound : SoundKernel siteKernel := ⟨rfl, .inl (by decide +kernel)⟩

/-- A BLOCK against one device, upgraded from a RATE_LIMIT, with an expiry and a reconcile in between. -/
def siteCalls : List (Env × ManagerOp) :=
  [siteDecision,
   (siteEnv 0, .submitCandidate (siteCandidate "first" .rateLimit 9 (seconds 300))),
   (siteEnv (seconds 1), .submitCandidate (siteCandidate "second" .block 9 (seconds 900))),
   (siteEnv (seconds 2), .reconcile),
   (siteEnv (seconds 400), .expireRules)]

theorem added_elements_have_owners_site :
    Cleared (((siteManager .active (some siteKernel)).run siteCalls).step
      (siteEnv (seconds 500), .revertToBase)) ∧
    ((siteManager .active (some siteKernel)).run siteCalls).activeRules.map FirewallRule.id =
      ["second"] := by
  refine ⟨?_, by decide +kernel⟩
  refine (added_elements_have_owners (siteConfig .active) siteBackend none siteKernel siteKernel_sound rfl
    siteCalls (by decide +kernel) ?_).2 (siteEnv (seconds 500)) .revertToBase rfl
  intro id hid hreconciled
  have hhead := head?_of_isReconciledId hreconciled
  have hall : ∀ id ∈ candidateIds siteCalls, id.toList.head? ≠ some 'r' := by decide +kernel
  exact hall id hid hhead

/-! A candidate under one of reconcile's ids is overwritten by the next adoption, and its element stays
behind without an owner. -/

/-- A kernel in which a previous run left one block, logged nowhere. -/
def leftoverKernel : FakeSetBackend :=
  { (siteKernel.apply [{ kind := .add, setName := setBlock4, key := .one "10.0.0.7",
                         timeoutSeconds := some 3000 }] 0).2 with ops := [] }

/-- A candidate under the id that reconcile would give the leftover element; then a reconcile. -/
def clashingCalls : List (Env × ManagerOp) :=
  [siteDecision,
   (siteEnv 0, .submitCandidate (siteCandidate "reconciled:block4:10.0.0.7" .block 9 (seconds 600))),
   (siteEnv 0, .reconcile)]

theorem not_owned_of_activeRules {m : FirewallManager} (hkeyed : Keyed m)
    {element : String × ElementKey}
    (h : m.activeRules.all (fun rule => decide (elementOf rule ≠ some element)) = true) :
    ¬ Owned m element := by
  rintro ⟨id, rule, hrule, hactive, hel⟩
  have hmem : rule ∈ m.activeRules :=
    (mem_activeRules hkeyed).mpr ⟨by rw [hkeyed id rule hrule]; exact hrule, hactive⟩
  exact of_decide_eq_true (List.all_eq_true.mp h rule hmem) hel

theorem added_element_without_owner :
    SoundKernel leftoverKernel ∧ leftoverKernel.ops = [] ∧ (candidateIds clashingCalls).Nodup ∧
    ∃ b', ((siteManager .active (some leftoverKernel)).run clashingCalls).sets = some b' ∧
      b'.Added (setBlock4, .one "10.0.0.9") ∧
      b'.expiry? (adaptiveSet setBlock4) (.one "10.0.0.9") = some (some (seconds 600)) ∧
      ¬ Owned ((siteManager .active (some leftoverKernel)).run clashingCalls)
        (setBlock4, .one "10.0.0.9") := by
  refine ⟨⟨rfl, .inl (by decide +kernel)⟩, rfl, by decide +kernel, ?_⟩
  have hkernel : (((siteManager .active (some leftoverKernel)).run clashingCalls).sets.map fun b =>
      (b.ops.any (KernelWrite.adds (setBlock4, .one "10.0.0.9")),
        b.expiry? (adaptiveSet setBlock4) (.one "10.0.0.9"))) =
      some (true, some (some (seconds 600))) := by
    decide +kernel
  obtain ⟨b', hsets, hb'⟩ := Option.map_eq_some_iff.mp hkernel
  obtain ⟨hadded, hexpiry⟩ := Prod.mk.inj hb'
  obtain ⟨write, hmem, hadds⟩ := List.any_eq_true.mp hadded
  refine ⟨b', hsets, ⟨write, hmem, KernelWrite.addsTo_of_adds hadds⟩, hexpiry, ?_⟩
  exact not_owned_of_activeRules (run_keyed (keyed_init _ _ _ _) clashingCalls) (by decide +kernel)

end FirewallManager

end Pirewall
