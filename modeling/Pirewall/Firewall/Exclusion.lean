/-
# Pirewall.Firewall.Exclusion -- one owner for one element

Retiring a rule deletes by key, so what a rule relies on is safe only while no other ACTIVE rule records the same
element. Submission guarantees it: the duplicate stage compares devices the way the elements key them. Approval does
not: `approve_pending` deploys what was validated when it was held, whatever has been put in force since, and a
MONITOR rule keeps whatever metadata its candidate came with.

`Exclusive` is the invariant and `Unshared` the condition on a call under which it is kept. The last clause of the
invariant is about time: the element of an ACTIVE rule is in the kernel with exactly the rule's own deadline until
that deadline has passed. It rests on the rule being the only owner, since an addition that finds the element present
keeps its old timeout: the batch of a deployment adds an element that was absent, or deletes it first.

The proof goes call by call. What retires rules leaves those that are still in force as they were, over elements that
at most ran out (`Exclusive.of_retires`). What puts a rule in force brings one new owner: by `unrecorded` the element
it records is absent when nobody owns it, so that the batch puts it there afresh (`keyResult_addition`), and the batch
touches no element but that one and the superseded rule's (`untouched`). A submission finds its element unowned
because the chain would have refused it otherwise: whoever owned it would be a restriction on the same device
(`owner_target`). For an approval that is the condition.

Clocks may not go back along a run, since a listing or a write drops what has run out by its own clock. The last
section has the run in which the condition is not met.
-/
import Pirewall.Firewall.Ownership

namespace Pirewall

open Lib NftNames

namespace FirewallManager

/-! ## One device, one element -/

/-- A device with a MAC is keyed by it. -/
theorem elementFor_of_mac {action : FirewallAction} {target : RuleTarget} {mac : Mac} {element : String × ElementKey}
    (hmac : target.mac = some mac) (h : elementFor action target = some element) :
    element.1 ∈ [setBlockMac, setRatelimitMac] ∧ element.2 = .one mac.text := by
  rcases elementFor_eq_some_iff.mp h with
    ⟨-, m, hm, rfl⟩ | ⟨-, hnone, -⟩ | ⟨-, m, hm, rfl⟩ | ⟨-, hnone, -⟩
  · obtain rfl := Option.some.inj (hm.symm.trans hmac)
    exact ⟨by simp, rfl⟩
  · exact absurd (hnone.symm.trans hmac) (by simp)
  · obtain rfl := Option.some.inj (hm.symm.trans hmac)
    exact ⟨by simp, rfl⟩
  · exact absurd (hnone.symm.trans hmac) (by simp)

/-- Any other is keyed by its address. -/
theorem elementFor_of_no_mac {action : FirewallAction} {target : RuleTarget} {element : String × ElementKey}
    (hmac : target.mac = none) (h : elementFor action target = some element) :
    element.1 ∈ [setBlock4, setRatelimit4] ∧ element.2 = .one (IPv4Address.str target.ip) := by
  rcases elementFor_eq_some_iff.mp h with
    ⟨-, m, hm, -⟩ | ⟨-, -, rfl⟩ | ⟨-, m, hm, -⟩ | ⟨-, -, rfl⟩
  · exact absurd (hm.symm.trans hmac) (by simp)
  · exact ⟨by simp, rfl⟩
  · exact absurd (hm.symm.trans hmac) (by simp)
  · exact ⟨by simp, rfl⟩

/-- Two targets with one element are one device, restricted in one way. -/
theorem elementFor_sameDevice {a c : FirewallAction} {s t : RuleTarget} {element : String × ElementKey}
    (ha : elementFor a s = some element) (hc : elementFor c t = some element) :
    a = c ∧ sameDevice s t = true := by
  refine ⟨elementFor_action ha hc, ?_⟩
  -- no name is that of a set keyed by MAC and of one keyed by address
  have hdisjoint : ∀ name, name ∈ [setBlockMac, setRatelimitMac] → name ∉ [setBlock4, setRatelimit4] := by
    decide
  unfold sameDevice
  cases hs : s.mac with
  | some left =>
    obtain ⟨hleft, hleftKey⟩ := elementFor_of_mac hs ha
    cases ht : t.mac with
    | some right =>
      obtain ⟨-, hrightKey⟩ := elementFor_of_mac ht hc
      have htext : left.text = right.text := ElementKey.one.inj (hleftKey.symm.trans hrightKey)
      exact beq_iff_eq.mpr (Mac.ext_text htext)
    | none => exact absurd (elementFor_of_no_mac ht hc).1 (hdisjoint _ hleft)
  | none =>
    obtain ⟨hleft, hleftKey⟩ := elementFor_of_no_mac hs ha
    cases ht : t.mac with
    | some right => exact absurd hleft (hdisjoint _ (elementFor_of_mac ht hc).1)
    | none =>
      obtain ⟨-, hrightKey⟩ := elementFor_of_no_mac ht hc
      have htext : IPv4Address.str s.ip = IPv4Address.str t.ip := ElementKey.one.inj (hleftKey.symm.trans hrightKey)
      exact beq_iff_eq.mpr (IPv4Address.str_injective htext)

/-! ## The invariant -/

/-- When the element of a deployed rule runs out. -/
def deadline? (config : PirewallConfig) (rule : FirewallRule) : Option Time :=
  match rule.expiresAt, rule.deployedAt with
  | some expiresAt, some deployedAt =>
    some (deployedAt + seconds (elementTimeoutSeconds expiresAt deployedAt config.policy.maxTtlSeconds))
  | _, _ => none

/-- The kernel holds `element` until `deadline`; by `last` it may only be gone if that has passed. -/
def HeldUntil (b : FakeSetBackend) (element : String × ElementKey) (deadline last : Time) : Prop :=
  b.expiry? (adaptiveSet element.1) element.2 = some (some deadline) ∨
    (deadline ≤ last ∧ b.expiry? (adaptiveSet element.1) element.2 = none)

/-- An ACTIVE rule on the set path: it records the element its filed target keys, or none. -/
structure InForce (m : FirewallManager) (b : FakeSetBackend) (last : Time) (id : String)
    (rule : FirewallRule) : Prop where
  recorded : rule.action.restrictive = true → ∃ target element deadline,
    m.targets.get? id = some target ∧ elementFor rule.action target = some element ∧
      elementOf rule = some element ∧ deadline? m.config rule = some deadline ∧
      HeldUntil b element deadline last
  bare : rule.action.restrictive = false → elementOf rule = none

/-- No two ACTIVE rules record one element, and each has its own in the kernel until its deadline. -/
structure Exclusive (m : FirewallManager) (b : FakeSetBackend) (last : Time) : Prop where
  accounted : Accounted m b
  /-- Nothing is in the enforcement sets but what the manager added. -/
  closed : ∀ element : String × ElementKey, element.1 ∈ adaptiveEnforcementSets →
    (b.expiry? (adaptiveSet element.1) element.2).isSome = true → b.Added element
  inForce : ∀ id rule, m.rules.get? id = some rule → rule.status = .active → InForce m b last id rule
  pending : ∀ id rule, m.rules.get? id = some rule → rule.status = .pendingApproval →
    rule.action = .block
  distinct : ∀ id₁ id₂ rule₁ rule₂, m.rules.get? id₁ = some rule₁ → rule₁.status = .active →
    m.rules.get? id₂ = some rule₂ → rule₂.status = .active →
    ∀ element, elementOf rule₁ = some element → elementOf rule₂ = some element → id₁ = id₂

/-- How an element that was left alone looks later: as it was, or dropped because it expired. -/
def Aged (now : Time) (before after : Option (Option Time)) : Prop :=
  after = before ∨ after = before.filter (isLive now)

/-- An element that only aged is held until its deadline as before. -/
theorem HeldUntil.aged {b b' : FakeSetBackend} {element : String × ElementKey} {deadline last now : Time}
    (h : HeldUntil b element deadline last) (hle : last ≤ now)
    (haged : Aged now (b.expiry? (adaptiveSet element.1) element.2)
      (b'.expiry? (adaptiveSet element.1) element.2)) : HeldUntil b' element deadline now := by
  rcases h with hheld | ⟨hpast, hgone⟩
  · rw [hheld] at haged
    rcases haged with heq | heq
    · exact .inl heq
    · by_cases hlive : now < deadline
      · exact .inl (by rw [heq]; simp [isLive, hlive])
      · exact .inr ⟨not_lt.mp hlive, by rw [heq]; simp [isLive, hlive]⟩
  · rw [hgone] at haged
    refine .inr ⟨le_trans hpast hle, ?_⟩
    rcases haged with heq | heq
    · exact heq
    · exact heq

/-- A batch that does not touch an element lets it age. -/
theorem aged_of_applied {b b' : FakeSetBackend} {ops : List SetOp} {now : Time}
    (h : b.Applied ops now b') {element : String × ElementKey}
    (hops : ∀ op ∈ ops, ¬ (op.address = adaptiveSet element.1 ∧ op.key = element.2)) :
    Aged now (b.expiry? (adaptiveSet element.1) element.2)
      (b'.expiry? (adaptiveSet element.1) element.2) := by
  rw [h.expiry]
  split
  · exact .inr (FakeSetBackend.keyResult_untouched _ hops)
  · exact .inl rfl

/-- A rule whose element only aged stands as it stood. -/
theorem InForce.mono {m m' : FirewallManager} {b b' : FakeSetBackend} {last now : Time} {id : String}
    {rule : FirewallRule} (h : InForce m b last id rule) (hle : last ≤ now)
    (htarget : m'.targets.get? id = m.targets.get? id) (hconfig : m'.config = m.config)
    (haged : ∀ element, elementOf rule = some element →
      Aged now (b.expiry? (adaptiveSet element.1) element.2)
        (b'.expiry? (adaptiveSet element.1) element.2)) : InForce m' b' now id rule where
  recorded := by
    intro hr
    obtain ⟨target, element, deadline, ht, hfor, hel, hdeadline, hheld⟩ := h.recorded hr
    exact ⟨target, element, deadline, htarget.trans ht, hfor, hel, hconfig ▸ hdeadline,
      hheld.aged hle (haged element hel)⟩
  bare := h.bare

/-- A state whose ACTIVE and PENDING rules were all there before, over elements that only aged. -/
theorem Exclusive.of_retires {m m' : FirewallManager} {b b' : FakeSetBackend} {last now : Time}
    (h : Exclusive m b last) (hle : last ≤ now) (hretires : Retires m m') (haccounted : Accounted m' b')
    (hclosed : ∀ element : String × ElementKey, element.1 ∈ adaptiveEnforcementSets →
      (b'.expiry? (adaptiveSet element.1) element.2).isSome = true → b'.Added element)
    (haged : ∀ id rule element, m'.rules.get? id = some rule → rule.status = .active →
      elementOf rule = some element → Aged now (b.expiry? (adaptiveSet element.1) element.2)
        (b'.expiry? (adaptiveSet element.1) element.2)) : Exclusive m' b' now where
  accounted := haccounted
  closed := hclosed
  inForce := by
    intro id rule hrule hactive
    exact (h.inForce id rule (hretires.unchanged hrule (.inl hactive)) hactive).mono hle
      (by rw [hretires.targets]) hretires.config fun element hel => haged id rule element hrule hactive hel
  pending := fun id rule hrule hpending =>
    h.pending id rule (hretires.unchanged hrule (.inr hpending)) hpending
  distinct := fun id₁ id₂ rule₁ rule₂ h₁ ha₁ h₂ ha₂ =>
    h.distinct id₁ id₂ rule₁ rule₂ (hretires.unchanged h₁ (.inl ha₁)) ha₁
      (hretires.unchanged h₂ (.inl ha₂)) ha₂

/-! ## The calls that retire -/

/-- What was added has been added since. -/
theorem added_mono {b b' : FakeSetBackend} {w : List KernelWrite} (h : b'.ops = b.ops ++ w)
    {element : String × ElementKey} (hadded : b.Added element) : b'.Added element := by
  obtain ⟨write, hmem, hadds⟩ := hadded
  exact ⟨write, h ▸ List.mem_append_left _ hmem, hadds⟩

/-- The calls that leave rules and enforcement sets alone. -/
theorem Exclusive.housekeeping {m m' : FirewallManager} {b : FakeSetBackend} {last now : Time}
    (h : Exclusive m b last) (hle : last ≤ now) (hk : Housekeeping m m') :
    ∃ b', Exclusive m' b' now := by
  obtain ⟨b', haccounted⟩ := h.accounted.housekeeping hk
  have hsets := hk.sets
  rw [h.accounted.sets, haccounted.sets] at hsets
  cases hsets with
  | some hl =>
    obtain ⟨writes, hlog, _⟩ := hl.log
    have hsame : ∀ element : String × ElementKey, element.1 ∈ adaptiveEnforcementSets →
        b'.expiry? (adaptiveSet element.1) element.2 = b.expiry? (adaptiveSet element.1) element.2 :=
      fun element hset => hl.expiry _ ⟨_, hset, rfl⟩ _
    refine ⟨b', h.of_retires hle (.of_eq hk.rules hk.targets hk.config) haccounted ?_ ?_⟩
    · intro element hset hrec
      rw [hsame element hset] at hrec
      exact added_mono hlog (h.closed element hset hrec)
    · intro id rule element hrule hactive hel
      have hin := h.inForce id rule (hk.rules ▸ hrule) hactive
      by_cases hr : rule.action.restrictive = true
      · obtain ⟨_, element', _, _, hfor, hel', _⟩ := hin.recorded hr
        obtain rfl := Option.some.inj (hel'.symm.trans hel)
        exact .inl (hsame element' (elementFor_mem_sets hfor))
      · rw [hin.bare (Bool.eq_false_iff.mpr hr)] at hel
        exact absurd hel (by simp)

/-- A retirement: the rule that goes takes with it an element that no other records. -/
theorem Exclusive.retireRule {m : FirewallManager} {b : FakeSetBackend} {last now : Time}
    (h : Exclusive m b last) (hle : last ≤ now) (ruleId : String) {toStatus : RuleStatus}
    (reason : String) (hactive : toStatus ≠ .active) (hpending : toStatus ≠ .pendingApproval) :
    ∃ b', Exclusive (m.retireRule ruleId toStatus now reason).2 b' now := by
  obtain ⟨b', haccounted⟩ := h.accounted.retireRule ruleId now reason hactive hpending
  have hretires := Retires.retireRule m ruleId now reason hactive hpending
  refine ⟨b', h.of_retires hle hretires haccounted ?_ ?_⟩
  all_goals
    rcases m.retireRule_cases ruleId toStatus now reason with heq | ⟨rule, hrule, hrule_active, heq⟩
  · have hb : b' = b := Option.some.inj ((haccounted.sets.symm.trans (by rw [heq])).trans h.accounted.sets)
    rw [hb]
    exact h.closed
  · have hb : b' = (b.apply (deleteOps rule) now).2 := by
      have hsets := haccounted.sets
      rw [heq, (m.withdraw_frame ruleId rule now).1] at hsets
      simpa [record, setRule, h.accounted.sets, eq_comm] using hsets
    subst hb
    intro element hset hrec
    rcases b.apply_cases (deleteOps rule) now with ⟨_, ha⟩ | ⟨e, faults, he, _⟩
    -- the batch adds nothing, so what is recorded now was recorded before
    · have hnoadd : ∀ op ∈ deleteOps rule, op.kind = .add →
          ¬ (op.address = adaptiveSet element.1 ∧ op.key = element.2) := by
        intro op hop hkind
        obtain ⟨el, _, rfl⟩ := mem_deleteOps hop
        exact absurd hkind (by simp [deletion])
      exact added_mono ha.log (h.closed element hset (recorded_of_applied ha hnoadd hrec).1)
    · rw [he] at hrec ⊢
      exact h.closed element hset hrec
  · have hb : b' = b := Option.some.inj ((haccounted.sets.symm.trans (by rw [heq])).trans h.accounted.sets)
    rw [hb]
    exact fun _ _ _ _ _ _ => .inl rfl
  · have hb : b' = (b.apply (deleteOps rule) now).2 := by
      have hsets := haccounted.sets
      rw [heq, (m.withdraw_frame ruleId rule now).1] at hsets
      simpa [record, setRule, h.accounted.sets, eq_comm] using hsets
    subst hb
    -- the element of a rule that stays in force is not in the batch
    intro id other element hother hother_active hel
    rcases b.apply_cases (deleteOps rule) now with ⟨_, ha⟩ | ⟨e, faults, he, _⟩
    · -- the retired rule is the only one that recorded what the batch deletes
      refine aged_of_applied ha ?_
      rintro op hop ⟨haddr, hkey⟩
      obtain ⟨el, hel', rfl⟩ := mem_deleteOps hop
      have hsame : el = element := Prod.ext (adaptiveSet_injective haddr) hkey
      subst hsame
      have hid := h.distinct id ruleId other rule (hretires.unchanged hother (.inl hother_active))
        hother_active hrule hrule_active el hel hel'
      subst hid
      rw [heq] at hother
      simp only [record, setRule, Dict.get?_set, if_true] at hother
      obtain rfl := Option.some.inj hother
      exact hactive hother_active
    · rw [he]
      exact .inl rfl

theorem Exclusive.expireRules {m : FirewallManager} {b : FakeSetBackend} {last now : Time}
    (h : Exclusive m b last) (hle : last ≤ now) : ∃ b', Exclusive (m.expireRules now).2 b' now := by
  obtain ⟨last', hle', b', h'⟩ := expireRules_induction
    (I := fun m => ∃ last', last' ≤ now ∧ ∃ b', Exclusive m b' last') m now (by
      rintro m' ruleId ⟨last', hle', b', h'⟩
      exact ⟨now, le_refl now, h'.retireRule hle' ruleId _ (by simp) (by simp)⟩) ⟨last, hle, b, h⟩
  refine ⟨b', h'.accounted, h'.closed, ?_, h'.pending, h'.distinct⟩
  intro id rule hrule hactive
  exact (h'.inForce id rule hrule hactive).mono hle' rfl rfl fun _ _ => .inl rfl

/-- The calls that clear the board leave no owner at all. -/
theorem Exclusive.of_cleared {m m' : FirewallManager} {b : FakeSetBackend} {last now : Time}
    (h : Exclusive m b last) (hretires : Retires m m') (haccounted : ∃ b', Accounted m' b')
    (hcleared : Cleared m') : ∃ b', Exclusive m' b' now := by
  obtain ⟨b', haccounted⟩ := haccounted
  obtain ⟨hnone, b₁, hsets, hempty⟩ := hcleared
  obtain rfl := Option.some.inj (hsets.symm.trans haccounted.sets)
  refine ⟨b₁, haccounted, ?_, ?_, ?_, ?_⟩
  · intro element hset hrec
    rw [hempty element.1 hset] at hrec
    exact absurd hrec (by simp)
  · exact fun id rule hrule hactive => absurd hactive (hnone id rule hrule)
  · exact fun id rule hrule hpending =>
      h.pending id rule (hretires.unchanged hrule (.inr hpending)) hpending
  · exact fun id₁ _ rule₁ _ h₁ ha₁ => absurd ha₁ (hnone id₁ rule₁ h₁)

/-! ## The calls that file and deploy -/

/-- An element that nobody owns is not in the kernel. -/
theorem Exclusive.unrecorded {m : FirewallManager} {b : FakeSetBackend} {last : Time}
    (h : Exclusive m b last) {element : String × ElementKey}
    (hset : element.1 ∈ adaptiveEnforcementSets) (hfree : ¬ Owned m element) :
    b.expiry? (adaptiveSet element.1) element.2 = none := by
  by_contra hrec
  have hsome := Option.isSome_iff_ne_none.mpr hrec
  exact hfree (h.accounted.owned element hset (h.closed element hset hsome) hsome)

/-- Filing a rule that is not in force under an id that held none in force. -/
theorem Exclusive.file {m m' : FirewallManager} {b b' : FakeSetBackend} {last now : Time}
    (h : Exclusive m b last) (hle : last ≤ now) {r : FirewallRule}
    (hrules : m'.rules = m.rules.set r.id r) (haccounted : Accounted m' b')
    (hexpiry : ∀ a k, b'.expiry? a k = b.expiry? a k) (hlog : b'.ops = b.ops)
    (htargets : ∀ id, id ≠ r.id → m'.targets.get? id = m.targets.get? id)
    (hconfig : m'.config = m.config) (hinactive : r.status ≠ .active)
    (hpending : r.status = .pendingApproval → r.action = .block) : Exclusive m' b' now := by
  have hold : ∀ id other, m'.rules.get? id = some other → other ≠ r →
      m.rules.get? id = some other ∧ id ≠ r.id := by
    intro id other hr hne
    rw [hrules, Dict.get?_set] at hr
    split at hr
    · exact absurd (Option.some.inj hr).symm hne
    · rename_i hid
      exact ⟨hr, hid⟩
  have hother : ∀ other : FirewallRule, other.status = .active → other ≠ r := fun other ha heq =>
    hinactive (heq ▸ ha)
  refine ⟨haccounted, ?_, ?_, ?_, ?_⟩
  · intro element hset hrec
    rw [hexpiry] at hrec
    exact added_mono (w := []) (by simp [hlog]) (h.closed element hset hrec)
  · intro id other hr hactive
    obtain ⟨hr₀, hid⟩ := hold id other hr (hother other hactive)
    exact (h.inForce id other hr₀ hactive).mono hle (htargets id hid) hconfig
      fun element _ => .inl (hexpiry _ _)
  · intro id other hr hp
    by_cases hsame : other = r
    · subst hsame
      exact hpending hp
    · exact h.pending id other (hold id other hr hsame).1 hp
  · intro id₁ id₂ r₁ r₂ h₁ ha₁ h₂ ha₂
    exact h.distinct id₁ id₂ r₁ r₂ (hold id₁ r₁ h₁ (hother r₁ ha₁)).1 ha₁
      (hold id₂ r₂ h₂ (hother r₂ ha₂)).1 ha₂

/-- A batch of deletions and then one addition of an absent element puts it there. -/
theorem keyResult_addition {now : Time} {deletions : List SetOp} {op : SetOp}
    (hdelete : ∀ op ∈ deletions, op.kind = .delete) (hkind : op.kind = .add) :
    FakeSetBackend.keyResult now (deletions ++ [op]) op.address op.key none =
      some (op.timeoutSeconds.map fun t => now + seconds t) := by
  have hnone : ∀ ds : List SetOp, (∀ op ∈ ds, op.kind = .delete) →
      ds.foldl (FakeSetBackend.keyStep now) none = none := by
    intro ds
    induction ds with
    | nil => exact fun _ => rfl
    | cons d ds ih =>
      intro hds
      have hhead : FakeSetBackend.keyStep now none d = none := by
        simp [FakeSetBackend.keyStep, hds d List.mem_cons_self]
      rw [List.foldl_cons, hhead]
      exact ih fun d' h' => hds d' (List.mem_cons_of_mem _ h')
  have hbefore : FakeSetBackend.keyResult now deletions op.address op.key none = none :=
    hnone _ fun d hd => hdelete d (List.mem_of_mem_filter hd)
  rw [FakeSetBackend.keyResult_concat, if_pos ⟨rfl, rfl⟩, hbefore]
  simp [FakeSetBackend.keyStep, hkind]

section Deployment

variable {m m' : FirewallManager} {b b' : FakeSetBackend} {last now : Time} {rule : FirewallRule}
  {upgradeOf : Option String} {target : RuleTarget} {additions : List SetOp} {metadata : Metadata}

/-- A deployment's ops touch the superseded element and the new one, neither of which another ACTIVE
rule records. -/
theorem Exclusive.untouched (h : Exclusive m b last)
    (hdeploy : SetDeployment m b rule now upgradeOf m' target additions metadata b')
    (hunowned : ∀ element, elementFor rule.action target = some element → ¬ Owned m element)
    (hbare : rule.action.restrictive = false → elementOf rule = none) {id : String}
    {other : FirewallRule} {element : String × ElementKey} (hother : m'.rules.get? id = some other)
    (hne : id ≠ rule.id) (hactive : other.status = .active) (hel : elementOf other = some element) :
    (∀ op ∈ ((m.replacedBy upgradeOf).map deleteOps).getD [] ++ additions,
      ¬ (op.address = adaptiveSet element.1 ∧ op.key = element.2)) ∧
    elementOf (rule.activated now metadata) ≠ some element := by
  obtain ⟨hother₀, hrep⟩ := hdeploy.unchanged hother hne (.inl hactive)
  have hnew : elementOf (rule.activated now metadata) ≠ some element := by
    intro hsame
    rcases elementAddition_ok hdeploy.addition with ⟨hrestr, _, rfl⟩ | ⟨el, _, hfor, _, _, hel'⟩
    · have hnone : elementOf (rule.activated now rule.metadata) = none := hbare hrestr
      exact absurd (hnone.symm.trans hsame) (by simp)
    · obtain rfl := Option.some.inj (hel'.symm.trans hsame)
      exact hunowned el hfor ⟨id, other, hother₀, hactive, hel⟩
  refine ⟨?_, hnew⟩
  intro op hop hon
  cases hkind : op.kind with
  | add => exact hdeploy.no_addition hnew op hop hkind hon
  | delete =>
    rcases List.mem_append.mp hop with hop | hop
    · obtain ⟨old, el, hold, hel', rfl⟩ := mem_replaced_deleteOps hop
      have hsame : el = element := Prod.ext (adaptiveSet_injective hon.1) hon.2
      obtain ⟨hold₀, hold_active, _⟩ := replacedBy_some h.accounted.keyed hold
      exact hrep old hold (h.distinct id old.id other old hother₀ hactive hold₀ hold_active element hel
        (hsame ▸ hel'))
    · rcases elementAddition_ok hdeploy.addition with ⟨_, rfl, _⟩ | ⟨_, _, _, _, rfl, _⟩
      · exact absurd hop (by simp)
      · obtain rfl := List.mem_singleton.mp hop
        exact absurd hkind (by simp)

/-- The new rule records the element its target keys, and the kernel holds it until the rule's
deadline. -/
theorem Exclusive.inForce_new (h : Exclusive m b last)
    (hdeploy : SetDeployment m b rule now upgradeOf m' target additions metadata b')
    (hunowned : ∀ element, elementFor rule.action target = some element → ¬ Owned m element)
    (hbare : rule.action.restrictive = false → elementOf rule = none) :
    InForce m' b' now rule.id (rule.activated now metadata) := by
  obtain ⟨transitions, hm'⟩ := hdeploy.result
  have htargets : m'.targets = m.targets := by rw [hm']
  have hconfig : m'.config = m.config := by rw [hm']
  rcases elementAddition_ok hdeploy.addition with
    ⟨hrestr, rfl, rfl⟩ | ⟨el, expiresAt, hfor, hexpires, rfl, hel⟩
  · exact ⟨fun hr => absurd (hrestr.symm.trans hr) (by simp), fun _ => hbare hrestr⟩
  · have habsent := h.unrecorded (elementFor_mem_sets hfor) (hunowned el hfor)
    have hdelete : ∀ op ∈ ((m.replacedBy upgradeOf).map deleteOps).getD [], op.kind = .delete := by
      intro op hop
      obtain ⟨_, _, _, _, rfl⟩ := mem_replaced_deleteOps hop
      rfl
    refine ⟨fun _ => ⟨target, el,
      now + seconds (elementTimeoutSeconds expiresAt now m.config.policy.maxTtlSeconds),
      by rw [htargets]; exact hdeploy.filed, hfor, hel, ?_, .inl ?_⟩, ?_⟩
    · simp [deadline?, FirewallRule.activated, hexpires, hconfig]
    · rw [hdeploy.applied.expiry, if_pos (by simp [SetOp.address, adaptiveSet]), habsent]
      exact keyResult_addition hdelete rfl
    · exact fun hr => absurd (elementFor_restrictive hfor) (by simpa [FirewallRule.activated] using hr)

/-- A deployment that went through, of a rule whose element nobody owned. -/
theorem Exclusive.deployed (h : Exclusive m b last) (hle : last ≤ now)
    (hdeploy : SetDeployment m b rule now upgradeOf m' target additions metadata b')
    (haccounted : Accounted m' b')
    (hunowned : ∀ element, elementFor rule.action target = some element → ¬ Owned m element)
    (hbare : rule.action.restrictive = false → elementOf rule = none) : Exclusive m' b' now := by
  obtain ⟨transitions, hm'⟩ := hdeploy.result
  have htargets : m'.targets = m.targets := by rw [hm']
  have hconfig : m'.config = m.config := by rw [hm']
  have hnew : m'.rules.get? rule.id = some (rule.activated now metadata) := by
    rw [hdeploy.get?, if_pos rfl]
  refine ⟨haccounted, ?_, ?_, ?_, ?_⟩
  -- an element that is recorded was added: by this batch, or before
  · intro element hset hrec
    by_cases hadd : ∃ op ∈ ((m.replacedBy upgradeOf).map deleteOps).getD [] ++ additions,
        op.kind = .add ∧ op.address = adaptiveSet element.1 ∧ op.key = element.2
    · obtain ⟨op, hop, hkind, haddr, hkey⟩ := hadd
      refine ⟨_, ?_, _, op, rfl, hop, hkind, haddr, hkey⟩
      rw [hdeploy.applied.log, if_neg (List.ne_nil_of_mem hop)]
      simp
    · have hnoadd : ∀ op ∈ ((m.replacedBy upgradeOf).map deleteOps).getD [] ++ additions, op.kind = .add →
          ¬ (op.address = adaptiveSet element.1 ∧ op.key = element.2) := fun op hop hkind hon =>
        hadd ⟨op, hop, hkind, hon⟩
      exact added_mono hdeploy.applied.log
        (h.closed element hset (recorded_of_applied hdeploy.applied hnoadd hrec).1)
  -- the new rule has its element afresh, and those of the others only aged
  · intro id r hr hactive
    by_cases hsame : id = rule.id
    · subst hsame
      obtain rfl := Option.some.inj (hnew.symm.trans hr)
      exact h.inForce_new hdeploy hunowned hbare
    · obtain ⟨hr₀, _⟩ := hdeploy.unchanged hr hsame (.inl hactive)
      exact (h.inForce id r hr₀ hactive).mono hle (by rw [htargets]) hconfig fun element hel =>
        aged_of_applied hdeploy.applied (h.untouched hdeploy hunowned hbare hr hsame hactive hel).1
  · intro id r hr hpending
    by_cases hsame : id = rule.id
    · subst hsame
      obtain rfl := Option.some.inj (hnew.symm.trans hr)
      exact absurd hpending (by simp [FirewallRule.activated])
    · exact h.pending id r (hdeploy.unchanged hr hsame (.inr hpending)).1 hpending
  · intro id₁ id₂ r₁ r₂ h₁ ha₁ h₂ ha₂ element hel₁ hel₂
    -- one of two owners is the new rule, or neither is
    by_cases hs₁ : id₁ = rule.id <;> by_cases hs₂ : id₂ = rule.id
    · rw [hs₁, hs₂]
    · rw [hs₁] at h₁
      obtain rfl := Option.some.inj (hnew.symm.trans h₁)
      exact absurd hel₁ (h.untouched hdeploy hunowned hbare h₂ hs₂ ha₂ hel₂).2
    · rw [hs₂] at h₂
      obtain rfl := Option.some.inj (hnew.symm.trans h₂)
      exact absurd hel₂ (h.untouched hdeploy hunowned hbare h₁ hs₁ ha₁ hel₁).2
    · exact h.distinct id₁ id₂ r₁ r₂ (hdeploy.unchanged h₁ hs₁ (.inl ha₁)).1 ha₁
        (hdeploy.unchanged h₂ hs₂ (.inl ha₂)).1 ha₂ element hel₁ hel₂

end Deployment

/-- A deployment keeps the invariant when its element is free and the rule brings no metadata of its
own. -/
theorem Exclusive.deployToSets {m : FirewallManager} {b : FakeSetBackend} {last now : Time}
    (h : Exclusive m b last) (hle : last ≤ now) (rule : FirewallRule) (upgradeOf : Option String)
    (hfree : ∀ old, m.rules.get? rule.id = some old → old.status ≠ .active)
    (hunowned : ∀ target element, m.targets.get? rule.id = some target →
      elementFor rule.action target = some element → ¬ Owned m element)
    (hbare : rule.action.restrictive = false → elementOf rule = none) :
    ∃ b', Exclusive (m.deployToSets b rule now upgradeOf).2 b' now := by
  have hkeyed := deployToSets_keyed h.accounted.keyed b rule now upgradeOf
  rcases m.deployToSets_cases b rule now upgradeOf with
    heq | ⟨faults, transitions, hf, heq⟩ | ⟨target, additions, metadata, b', hdeploy⟩
  · rw [heq]
    exact h.housekeeping hle (.refl m)
  · rw [heq]
    refine ⟨{ b with faults }, h.file hle (r := { rule with status := .rejected }) rfl
      (h.accounted.file (r := { rule with status := .rejected }) rfl rfl (.of_faults hf) hfree)
      (fun _ _ => rfl) rfl (fun _ _ => rfl) rfl (by simp) (by simp)⟩
  · exact ⟨b', h.deployed hle hdeploy (h.accounted.deployed hdeploy hkeyed hfree)
      (fun element => hunowned target element hdeploy.filed) hbare⟩

/-- The condition under which a call keeps elements apart: an approval finds the element of its rule
free, a MONITOR or ALLOW candidate does not carry both metadata keys, and nothing is adopted. -/
def Unshared (m : FirewallManager) (call : Env × ManagerOp) : Prop :=
  (∀ ruleId, call.2 = .approvePending ruleId → ∀ rule target element,
    m.rules.get? ruleId = some rule → rule.status = .pendingApproval →
    m.targets.get? ruleId = some target → elementFor rule.action target = some element →
    ¬ Owned m element) ∧
  (∀ candidate, call.2 = .submitCandidate candidate → candidate.action.restrictive = false →
    candidate.metadata.get? metaSet = none ∨ candidate.metadata.get? metaKey = none) ∧
  call.2 ≠ .reconcile

/-- Whoever owns an element is an ACTIVE restriction on a device the element keys. -/
theorem Exclusive.owner_target {m : FirewallManager} {b : FakeSetBackend} {last : Time}
    (h : Exclusive m b last) {element : String × ElementKey} (howned : Owned m element) :
    ∃ entry ∈ m.activeTargets, elementFor entry.rule.action entry.target = some element := by
  obtain ⟨id, rule, hrule, hactive, hel⟩ := howned
  have hin := h.inForce id rule hrule hactive
  by_cases hr : rule.action.restrictive = true
  · obtain ⟨target, element', _, htarget, hfor, hel', _⟩ := hin.recorded hr
    obtain rfl := Option.some.inj (hel'.symm.trans hel)
    have hid : rule.id = id := h.accounted.keyed id rule hrule
    refine ⟨⟨rule, target⟩, (mem_activeTargets h.accounted.keyed).mpr ⟨?_, hactive, ?_⟩, hfor⟩
    · rw [hid]
      exact hrule
    · rw [hid]
      exact htarget
  · rw [hin.bare (Bool.eq_false_iff.mpr hr)] at hel
    exact absurd hel (by simp)

/-- Metadata that lack the set or the key record no element. -/
theorem elementOf_eq_none {rule : FirewallRule}
    (h : rule.metadata.get? metaSet = none ∨ rule.metadata.get? metaKey = none) :
    elementOf rule = none := by
  unfold elementOf
  split
  · rename_i hset hkey
    rcases h with h | h
    · exact absurd (hset.symm.trans h) (by simp)
    · exact absurd (hkey.symm.trans h) (by simp)
  · rfl

/-- Filing the target of a new id leaves the targets of the filed rules. -/
theorem Exclusive.fileTarget {m m' : FirewallManager} {b : FakeSetBackend} {last : Time} {id : String}
    (h : Exclusive m b last) (hnew : id ∉ m.rules.keys) (hrules : m'.rules = m.rules)
    (hsets : m'.sets = m.sets) (hconfig : m'.config = m.config)
    (htargets : ∀ id', id' ≠ id → m'.targets.get? id' = m.targets.get? id') : Exclusive m' b last := by
  refine ⟨h.accounted.congr hrules hsets, h.closed, ?_, ?_, ?_⟩
  · intro id' rule hrule hactive
    rw [hrules] at hrule
    refine (h.inForce id' rule hrule hactive).mono (le_refl last) (htargets id' ?_) hconfig
      fun _ _ => .inl rfl
    rintro rfl
    exact hnew (Dict.mem_keys_iff.mpr ⟨rule, hrule⟩)
  · exact fun id' rule hrule => h.pending id' rule (hrules ▸ hrule)
  · exact fun id₁ id₂ r₁ r₂ h₁ ha₁ h₂ => h.distinct id₁ id₂ r₁ r₂ (hrules ▸ h₁) ha₁ (hrules ▸ h₂)

/-- A submission under a new id: the chain has seen to it that the element is free. -/
theorem Exclusive.submitCandidate {m : FirewallManager} {b : FakeSetBackend} {last : Time} {env : Env}
    (h : Exclusive m b last) (hle : last ≤ env.now) (candidate : CandidateRule)
    (hnew : candidate.id ∉ m.rules.keys)
    (hmeta : candidate.action.restrictive = false →
      candidate.metadata.get? metaSet = none ∨ candidate.metadata.get? metaKey = none) :
    ∃ b', Exclusive (m.submitCandidate env candidate).2 b' env.now := by
  have hfree : ∀ old, m.rules.get? candidate.id = some old → old.status ≠ .active := fun old hold =>
    absurd (Dict.mem_keys_iff.mpr ⟨old, hold⟩) hnew
  have hothers : ∀ target id, id ≠ candidate.id →
      (m.targets.set candidate.id target).get? id = m.targets.get? id := fun target id hne => by
    rw [Dict.get?_set, if_neg hne]
  obtain ⟨b', haccounted⟩ := h.accounted.submitCandidate env candidate hnew
  unfold FirewallManager.submitCandidate at haccounted ⊢
  rw [h.accounted.sets] at haccounted ⊢
  simp only at haccounted ⊢
  rcases m.submitToSets_cases env b candidate with
    ⟨rateLimiter, heq⟩ | ⟨target, upgradeOf, rule, _, hadmitted, ⟨priority, hsource, rfl⟩, hcases⟩
  · rw [heq]
    exact h.housekeeping hle ⟨rfl, rfl, rfl, rfl, rfl, leaves_refl m.sets⟩
  · rcases hcases with ⟨status, rateLimiter, transitions, hkept, heq⟩ | ⟨_, rateLimiter, transitions, heq⟩
    · rw [heq] at haccounted ⊢
      obtain rfl := Option.some.inj (haccounted.sets.symm.trans h.accounted.sets)
      refine ⟨b', h.file hle
        (r := { candidate.toRule priority (some target) hsource with status := status }) rfl haccounted
        (fun _ _ => rfl) rfl (hothers target) rfl ?_ ?_⟩
      · rcases hkept with ⟨rfl, _⟩ | ⟨rfl, _⟩ <;> simp
      · intro hpending
        rcases hkept with ⟨rfl, _⟩ | ⟨_, _, hblock⟩
        · exact absurd hpending (by simp)
        · exact hblock
    · rw [heq]
      have hfiled : Exclusive { m with
          rateLimiter, transitions
          targets := m.targets.set candidate.id target } b last :=
        h.fileTarget hnew rfl rfl rfl (hothers target)
      refine hfiled.deployToSets hle (candidate.toRule priority (some target) hsource) upgradeOf hfree ?_
        fun hr => elementOf_eq_none (hmeta hr)
      -- the duplicate stage has compared the device with every ACTIVE rule's
      intro target' element htarget' hfor howned
      have hsame : target' = target := by
        simpa [CandidateRule.toRule, eq_comm] using htarget'
      subst hsame
      obtain ⟨entry, hentry, hentry_for⟩ := h.owner_target howned
      obtain ⟨hact, hdevice⟩ := elementFor_sameDevice hentry_for hfor
      exact hadmitted.distinct entry hentry hdevice hact

/-- An approval that finds its element free. -/
theorem Exclusive.approvePending {m : FirewallManager} {b : FakeSetBackend} {last now : Time}
    (h : Exclusive m b last) (hle : last ≤ now) (ruleId : String)
    (hunshared : ∀ rule target element, m.rules.get? ruleId = some rule →
      rule.status = .pendingApproval → m.targets.get? ruleId = some target →
      elementFor rule.action target = some element → ¬ Owned m element) :
    ∃ b', Exclusive (m.approvePending ruleId now).2 b' now := by
  rcases m.approvePending_cases ruleId now with heq | ⟨rule, hrule, hpending, hcases⟩
  · rw [heq]
    exact h.housekeeping hle (.refl m)
  have hkey : rule.id = ruleId := h.accounted.keyed ruleId rule hrule
  rcases hcases with ⟨b₁, transitions, hsets, heq⟩ | ⟨hsets, _⟩
  · obtain rfl := Option.some.inj (hsets.symm.trans h.accounted.sets)
    rw [heq]
    have hrecorded : Exclusive { m with transitions } b₁ last :=
      ⟨h.accounted.congr rfl rfl, h.closed,
        fun id r hr ha => (h.inForce id r hr ha).mono (le_refl last) rfl rfl fun _ _ => .inl rfl,
        h.pending, h.distinct⟩
    refine hrecorded.deployToSets hle { rule with status := .approved } _ ?_ ?_ ?_
    · intro old hold
      have hsame : old = rule := Option.some.inj ((hkey ▸ hold).symm.trans hrule)
      rw [hsame, hpending]
      simp
    · intro target element htarget hfor
      exact hunshared rule target element hrule hpending (hkey ▸ htarget) hfor
    · intro hr
      have hblock := h.pending ruleId rule hrule hpending
      rw [show ({ rule with status := .approved } : FirewallRule).action = .block from hblock] at hr
      exact absurd hr (by simp [FirewallAction.restrictive])
  · exact absurd (hsets.symm.trans h.accounted.sets) (by simp)

theorem Exclusive.rejectPending {m : FirewallManager} {b : FakeSetBackend} {last now : Time}
    (h : Exclusive m b last) (hle : last ≤ now) (ruleId : String) :
    ∃ b', Exclusive (m.rejectPending ruleId now).2 b' now := by
  obtain ⟨b', haccounted⟩ := h.accounted.rejectPending ruleId now
  have hsets : (m.rejectPending ruleId now).2.sets = m.sets := by
    unfold FirewallManager.rejectPending
    split
    · rfl
    · split <;> rfl
  obtain rfl := Option.some.inj ((haccounted.sets.symm.trans hsets).trans h.accounted.sets)
  exact ⟨b', h.of_retires hle (.rejectPending m ruleId now) haccounted h.closed
    fun _ _ _ _ _ _ => .inl rfl⟩

/-- The step lemma: a fresh id, a clock that does not go back, and a call that shares nothing. -/
theorem Exclusive.step {m : FirewallManager} {b : FakeSetBackend} {last : Time} (h : Exclusive m b last)
    (call : Env × ManagerOp) (hle : last ≤ call.1.now) (hfresh : FreshCandidate m call)
    (hunshared : Unshared m call) : ∃ b', Exclusive (m.step call) b' call.1.now := by
  obtain ⟨env, op⟩ := call
  by_cases hk : isHousekeeping op = true
  · exact h.housekeeping hle (m.step_housekeeping env op hk)
  obtain ⟨happrove, hmeta, hreconcile⟩ := hunshared
  cases op with
  | submitCandidate candidate =>
    exact h.submitCandidate hle candidate (hfresh candidate rfl) (hmeta candidate rfl)
  | approvePending ruleId => exact h.approvePending hle ruleId (happrove ruleId rfl)
  | rejectPending ruleId => exact h.rejectPending hle ruleId
  | disableRule ruleId => exact h.retireRule hle ruleId _ (by simp) (by simp)
  | removeRule ruleId => exact h.retireRule hle ruleId _ (by simp) (by simp)
  | expireRules => exact h.expireRules hle
  | revertToBase =>
    have hboth := h.accounted.revertToBase env.now
    exact h.of_cleared (step_retires h.accounted.keyed env .revertToBase (by simp) (by simp) (by simp))
      hboth.1 hboth.2
  | failOpenShutdown =>
    have hboth := h.accounted.failOpenShutdown env.now
    exact h.of_cleared (step_retires h.accounted.keyed env .failOpenShutdown (by simp) (by simp) (by simp))
      hboth.1 hboth.2
  | panic actor =>
    have hboth := h.accounted.panic actor env.now
    exact h.of_cleared (step_retires h.accounted.keyed env (.panic actor) (by simp) (by simp) (by simp))
      hboth.1 hboth.2
  | reconcile => exact absurd rfl hreconcile
  | _ => exact absurd rfl hk

/-! ## Whole runs -/

/-- The clock of the last call, or `start` when there is none. -/
def lastTime (start : Time) (calls : List (Env × ManagerOp)) : Time :=
  calls.foldl (fun _ call => call.1.now) start

/-- The run lemma. -/
theorem Exclusive.along {m : FirewallManager} {b : FakeSetBackend} {last : Time} (h : Exclusive m b last)
    {calls : List (Env × ManagerOp)} (hclock : (calls.map fun call => call.1.now).Pairwise (· ≤ ·))
    (hlast : ∀ call ∈ calls, last ≤ call.1.now)
    (hfresh : Along FirewallManager.step FreshCandidate m calls)
    (hunshared : Along FirewallManager.step Unshared m calls) :
    ∃ b', Exclusive (m.run calls) b' (lastTime last calls) := by
  induction calls generalizing m b last with
  | nil => exact ⟨b, h⟩
  | cons call calls ih =>
    obtain ⟨b₁, h₁⟩ := h.step call (hlast call List.mem_cons_self) hfresh.1 hunshared.1
    rw [List.map_cons, List.pairwise_cons] at hclock
    exact ih h₁ hclock.2 (fun c hc => hclock.1 c.1.now (List.mem_map_of_mem hc)) hfresh.2 hunshared.2

/-- At the start the enforcement sets are empty and nothing is in force. -/
theorem Exclusive.init (config : PirewallConfig) (backend : FakeFirewallBackend)
    (store : Option AllowlistStore) {b : FakeSetBackend} (hkernel : SoundKernel b) (hlog : b.ops = [])
    (hempty : EnforcementEmpty b) (last : Time) :
    Exclusive (FirewallManager.init config backend store (some b)) b last where
  accounted := .init config backend store hkernel hlog
  closed := by
    intro element hset hrec
    rw [hempty element.1 hset] at hrec
    exact absurd hrec (by simp)
  inForce := fun _ _ h => absurd h (by simp [FirewallManager.init])
  pending := fun _ _ h => absurd h (by simp [FirewallManager.init])
  distinct := fun _ _ _ _ h => absurd h (by simp [FirewallManager.init])

/-- A run that shares nothing does not reconcile. -/
theorem unshared_not_reconcile {m : FirewallManager} {calls : List (Env × ManagerOp)}
    (h : Along step Unshared m calls) : ∀ call ∈ calls, call.2 ≠ .reconcile := by
  induction calls generalizing m with
  | nil => simp
  | cons call calls ih => exact List.forall_mem_cons.mpr ⟨h.1.2.2, ih h.2⟩

/-- What one owner for each element means for the rules in force at `now`: no two restrictions record
one element, and each has its element in the kernel while its own timeout has not run out. -/
structure ElementsKept (m : FirewallManager) (now : Time) : Prop where
  distinct : ∀ id₁ id₂ rule₁ rule₂, m.rules.get? id₁ = some rule₁ → rule₁.status = .active →
    m.rules.get? id₂ = some rule₂ → rule₂.status = .active → rule₁.action.restrictive = true →
    rule₂.action.restrictive = true → elementOf rule₁ = elementOf rule₂ → id₁ = id₂
  live : ∀ id rule, m.rules.get? id = some rule → rule.status = .active →
    rule.action.restrictive = true → ∃ b element deadline, m.sets = some b ∧
      elementOf rule = some element ∧ deadline? m.config rule = some deadline ∧
      ∀ t, now ≤ t → t < deadline →
        ∃ expiry, b.expiry? (adaptiveSet element.1) element.2 = some expiry ∧ isLive t expiry = true

/-- What the invariant says of the rules in force. -/
theorem Exclusive.elementsKept {m : FirewallManager} {b : FakeSetBackend} {last : Time}
    (h : Exclusive m b last) : ElementsKept m last where
  distinct := by
    intro id₁ id₂ rule₁ rule₂ h₁ ha₁ h₂ ha₂ hr₁ _ hsame
    obtain ⟨_, element, _, _, _, hel, _⟩ := (h.inForce id₁ rule₁ h₁ ha₁).recorded hr₁
    exact h.distinct id₁ id₂ rule₁ rule₂ h₁ ha₁ h₂ ha₂ element hel (hsame ▸ hel)
  live := by
    intro id rule hrule hactive hr
    obtain ⟨_, element, deadline, _, _, hel, hdeadline, hheld⟩ := (h.inForce id rule hrule hactive).recorded hr
    refine ⟨b, element, deadline, h.accounted.sets, hel, hdeadline, ?_⟩
    intro t hnow hlt
    rcases hheld with hheld | ⟨hpast, _⟩
    · exact ⟨_, hheld, by simpa [isLive] using hlt⟩
    · exact absurd (lt_of_lt_of_le hlt (le_trans hpast hnow)) (lt_irrefl t)

/-- **One owner for each element.** Along every run on freshly loaded sets that refuse nothing, with
distinct candidate ids and a clock that does not go back, whose approvals each find their element free:
in every state on the way no two ACTIVE restrictions own one element, and the element of each is live
until its own deadline, whatever else was retired, expired or upgraded. -/
theorem active_rules_own_their_elements (config : PirewallConfig) (backend : FakeFirewallBackend)
    (store : Option AllowlistStore) (b : FakeSetBackend) (hkernel : SoundKernel b) (hlog : b.ops = [])
    (hempty : EnforcementEmpty b) (start : Time) (calls : List (Env × ManagerOp))
    (hdistinct : (candidateIds calls).Nodup)
    (hclock : (start :: calls.map fun call => call.1.now).Pairwise (· ≤ ·))
    (hunshared : Along step Unshared (init config backend store (some b)) calls) :
    ElementsKept ((init config backend store (some b)).run calls) (lastTime start calls) := by
  have hstart := Exclusive.init config backend store hkernel hlog hempty start
  have hfresh : Along step FreshCandidate (init config backend store (some b)) calls :=
    freshCandidate_along hdistinct (.inl (unshared_not_reconcile hunshared)) hstart.accounted.keyed
      fun _ _ => by simp [init, Dict.keys, Dict.empty]
  rw [List.pairwise_cons] at hclock
  obtain ⟨b', h'⟩ := hstart.along hclock.2
    (fun call hcall => hclock.1 call.1.now (List.mem_map_of_mem hcall)) hfresh hunshared
  exact h'.elementsKept

theorem siteKernel_empty : EnforcementEmpty siteKernel := by
  intro name hname k
  simp only [adaptiveEnforcementSets, List.mem_cons, List.not_mem_nil, or_false] at hname
  rcases hname with rfl | rfl | rfl | rfl <;> rfl

/-- A RATE_LIMIT in force, and two BLOCKs held: one for the same device, one for another. -/
def heldCalls : List (Env × ManagerOp) :=
  [siteDecision,
   (siteEnv 0, .submitCandidate (siteCandidate "first" .rateLimit 9 (seconds 300))),
   (siteEnv (seconds 1), .submitCandidate (siteCandidate "second" .block 9 (seconds 900))),
   (siteEnv (seconds 1), .submitCandidate (siteCandidate "third" .block 8 (seconds 900)))]

/-- Both BLOCKs are approved, the first one in place of the RATE_LIMIT, and the other is disabled before an expiry
pass. -/
def upgradeCalls : List (Env × ManagerOp) :=
  heldCalls ++
    [(siteEnv (seconds 2), .approvePending "second"),
     (siteEnv (seconds 2), .approvePending "third"),
     (siteEnv (seconds 3), .disableRule "third"),
     (siteEnv (seconds 400), .expireRules)]

/-- A restrictive submission and a retirement share nothing, from any state. -/
theorem unshared_of_plain {op : ManagerOp} (happrove : ∀ ruleId, op ≠ .approvePending ruleId)
    (hsubmit : ∀ candidate, op = .submitCandidate candidate → candidate.action.restrictive = true)
    (hreconcile : op ≠ .reconcile) (m : FirewallManager) (env : Env) : Unshared m (env, op) :=
  ⟨fun ruleId h => absurd h (happrove ruleId),
    fun candidate h hr => absurd (hr.symm.trans (hsubmit candidate h)) (by simp), hreconcile⟩

/-- Nor does an approval whose element no ACTIVE rule records. -/
theorem unshared_of_free {m : FirewallManager} (env : Env) {ruleId : String}
    (hfree : ∀ rule ∈ m.rules.get? ruleId, ∀ target ∈ m.targets.get? ruleId, ∀ entry ∈ m.rules.entries,
      entry.2.status = .active → elementOf entry.2 ≠ elementFor rule.action target) :
    Unshared m (env, .approvePending ruleId) := by
  refine ⟨fun id heq rule target element hrule _ htarget hfor => ?_, fun candidate h => absurd h (by simp), by simp⟩
  obtain rfl := ManagerOp.approvePending.inj heq
  rintro ⟨other, owner, howner, hactive, hel⟩
  exact hfree rule hrule target htarget (other, owner) (Dict.mem_entries_iff.mpr howner) hactive (hel.trans hfor.symm)

theorem active_rules_own_their_elements_upgrade :
    ElementsKept ((siteManager .assisted (some siteKernel)).run upgradeCalls) (seconds 400) ∧
    ((siteManager .assisted (some siteKernel)).run heldCalls).activeRules.map FirewallRule.id = ["first"] ∧
    ((siteManager .assisted (some siteKernel)).run upgradeCalls).activeRules.map FirewallRule.id = ["second"] := by
  have hplain : ∀ calls ⊆ upgradeCalls, (∀ call ∈ calls, ∀ ruleId, call.2 ≠ .approvePending ruleId) → ∀ m,
      Along step Unshared m calls := by
    intro calls hsubset happrove
    refine Along.of_forall fun call hcall m => unshared_of_plain (happrove call hcall) ?_ ?_ m call.1
    · have hrestrictive : ∀ call ∈ upgradeCalls, ∀ candidate, call.2 = .submitCandidate candidate →
          candidate.action.restrictive = true := by
        simp [upgradeCalls, heldCalls, siteDecision, siteCandidate, FirewallAction.restrictive]
      exact hrestrictive call (hsubset hcall)
    · have hkept : ∀ call ∈ upgradeCalls, call.2 ≠ .reconcile := by
        simp [upgradeCalls, heldCalls, siteDecision]
      exact hkept call (hsubset hcall)
  refine ⟨?_, by decide +kernel, by decide +kernel⟩
  apply active_rules_own_their_elements (siteConfig .assisted) siteBackend none siteKernel siteKernel_sound rfl
    siteKernel_empty 0 upgradeCalls (by decide +kernel) (by decide +kernel)
  apply Along.append_iff.mpr
  refine ⟨hplain _ (List.subset_append_left _ _) (by simp [heldCalls, siteDecision]) _, ?_⟩
  -- each approval finds its element free
  refine ⟨unshared_of_free _ (by decide +kernel), unshared_of_free _ (by decide +kernel), ?_⟩
  exact hplain _ (by simp [upgradeCalls]) (by simp) _

/-- Two BLOCKs held for one device, both approved, and the first one then disabled. -/
def sharedCalls : List (Env × ManagerOp) :=
  [siteDecision,
   (siteEnv 0, .submitCandidate (siteCandidate "first" .block 9 (seconds 600))),
   (siteEnv 0, .submitCandidate (siteCandidate "second" .block 9 (seconds 600))),
   (siteEnv 0, .approvePending "first"),
   (siteEnv 0, .approvePending "second")]

/-- After both approvals two ACTIVE rules own `10.0.0.9` in `block4`; disabling the first takes the
element from the second, ten minutes before its timeout. -/
theorem approved_rules_share_an_element :
    (candidateIds sharedCalls).Nodup ∧
    ¬ ElementsKept ((siteManager .assisted (some siteKernel)).run sharedCalls) 0 ∧
    ¬ ElementsKept ((siteManager .assisted (some siteKernel)).run
      (sharedCalls ++ [(siteEnv 0, .disableRule "first")])) 0 := by
  have hboth : ∀ id ∈ ["first", "second"],
      (((siteManager .assisted (some siteKernel)).run sharedCalls).rules.get? id).map
        (fun rule => (rule.status, rule.action, elementOf rule)) =
        some (.active, .block, some (setBlock4, .one "10.0.0.9")) := by
    decide +kernel
  have hleft : (((siteManager .assisted (some siteKernel)).run
      (sharedCalls ++ [(siteEnv 0, .disableRule "first")])).rules.get? "second").map
        (fun rule => (rule.status, rule.action, elementOf rule, deadline? (siteConfig .assisted) rule)) =
        some (.active, .block, some (setBlock4, .one "10.0.0.9"), some (seconds 600)) := by
    decide +kernel
  have hgone : ((siteManager .assisted (some siteKernel)).run
      (sharedCalls ++ [(siteEnv 0, .disableRule "first")])).sets.map
        (fun b => b.expiry? (adaptiveSet setBlock4) (.one "10.0.0.9")) = some none := by
    decide +kernel
  refine ⟨by decide +kernel, ?_, ?_⟩
  · intro h
    obtain ⟨rule₁, h₁, hr₁⟩ := Option.map_eq_some_iff.mp (hboth "first" (by simp))
    obtain ⟨rule₂, h₂, hr₂⟩ := Option.map_eq_some_iff.mp (hboth "second" (by simp))
    simp only [Prod.mk.injEq] at hr₁ hr₂
    have hsame := h.distinct "first" "second" rule₁ rule₂ h₁ hr₁.1 h₂ hr₂.1 (by rw [hr₁.2.1]; rfl)
      (by rw [hr₂.2.1]; rfl) (by rw [hr₁.2.2, hr₂.2.2])
    exact absurd hsame (by decide)
  · intro h
    obtain ⟨rule, hrule, hfields⟩ := Option.map_eq_some_iff.mp hleft
    simp only [Prod.mk.injEq] at hfields
    obtain ⟨b, element, deadline, hsets, hel, hdeadline, hlive⟩ := h.live "second" rule hrule hfields.1
      (by rw [hfields.2.1]; rfl)
    obtain rfl := Option.some.inj (hel.symm.trans hfields.2.2.1)
    obtain ⟨expiry, hexpiry, _⟩ := hlive 0 (le_refl 0) (by
      have hconfig : deadline? (siteConfig .assisted) rule = some deadline := hdeadline
      rw [hfields.2.2.2] at hconfig
      rw [← Option.some.inj hconfig]
      decide)
    rw [hsets] at hgone
    exact absurd (hexpiry.symm.trans (Option.some.inj hgone)) (by simp)

end FirewallManager

end Pirewall
