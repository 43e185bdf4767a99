/-
# Pirewall.Firewall.Infrastructure -- what enforcement never keys

An element of an enforcement set cuts a device off, or slows it down, by its address or its MAC. None may
ever name the appliance itself, its gateway, the Admin PC or an address that is no device's. The chain looks
at this once, at submission, while the key is only made when the element is added: at once, or when an
administrator approves the rule, from the target that was filed at submission.

`SafeTarget` is what the chain established, `HeldSafe` that every held rule still has it, and
`infrastructure_is_never_keyed` what follows for every element the manager adds in any run.
-/
import Pirewall.Firewall.Activation

namespace Pirewall

open Lib NftNames

/-! ## Infrastructure -/

/-- The addresses that are never a device's: this host's own, the appliance on the LAN, its gateway, the
Admin PC, and the two ends of the protected network. -/
def infrastructure (config : PirewallConfig) (view : LocalAddresses) : List IPv4Address :=
  view.host ++ view.broadcast ++
    [config.network.pirewallLanIp, config.network.upstreamGateway, config.admin.adminPcIp,
     config.network.protectedNetwork.networkAddress, config.network.protectedNetwork.broadcastAddress]

/-- An address a LAN device may have. -/
structure DeviceAddress (config : PirewallConfig) (view : LocalAddresses) (ip : IPv4Address) : Prop where
  inside : config.network.protectedNetwork.contains ip = true
  apart : ip ∉ infrastructure config view
  unspecified : ip.isUnspecified = false
  loopback : ip.isLoopback = false
  multicast : ip.isMulticast = false
  linkLocal : ip.isLinkLocal = false
  reserved : ip.isReserved = false

/-- The element's key is an address or a MAC, and of a device: an address key is one a LAN device may have,
and no key is the Admin PC's MAC. -/
structure KeysDevice (config : PirewallConfig) (view : LocalAddresses) (element : String × ElementKey) :
    Prop where
  form : (∃ ip, element.2 = .one (IPv4Address.str ip)) ∨ ∃ mac : Mac, element.2 = .one mac.text
  address : ∀ ip, element.2 = .one (IPv4Address.str ip) → DeviceAddress config view ip
  admin : ∀ mac, config.admin.adminPcMac = some mac → element.2 ≠ .one mac.text

/-! ## What the chain establishes about a target -/

/-- The target of a restrictive action is a device's address, and its MAC not the Admin PC's. -/
def SafeTarget (config : PirewallConfig) (view : LocalAddresses) (action : FirewallAction)
    (target : RuleTarget) : Prop :=
  action.restrictive = true → DeviceAddress config view target.ip ∧
    ∀ mac, config.admin.adminPcMac = some mac → target.mac ≠ some mac

/-- The safety stage, on a target inside the protected network. -/
theorem safeTarget_of_safety {candidate : CandidateRule} {target : RuleTarget} {config : PirewallConfig}
    {view : LocalAddresses} (hinside : config.network.protectedNetwork.contains target.ip = true)
    (h : validateSetSafety candidate target config view = none) :
    SafeTarget config view candidate.action target := by
  intro hrestrictive
  simp only [validateSetSafety, hrestrictive, Bool.true_eq_false, if_false] at h
  split at h
  · exact absurd h (by simp)
  rename_i htargetable
  split at h
  · exact absurd h (by simp)
  rename_i hapart
  split at h
  · exact absurd h (by simp)
  rename_i hadmin
  simp only [Bool.not_eq_false, isTargetableNetwork, List.all_cons, IPv4Network.host, Bool.and_eq_true,
    Bool.not_eq_true', Bool.or_eq_false_iff] at htargetable
  obtain ⟨⟨⟨⟨⟨hunspecified, hloopback⟩, hmulticast⟩, hlinkLocal⟩, hreserved⟩, _⟩ := htargetable
  refine ⟨⟨hinside, hapart, hunspecified, hloopback, hmulticast, hlinkLocal, hreserved⟩, ?_⟩
  intro mac hmac hsame
  exact hadmin ⟨by simp [hmac], hsame.trans hmac.symm⟩

theorem deviceTarget_contains {rule : RuleFields} {protectedNetwork : IPv4Network} {mac : Option Mac}
    {target : RuleTarget} (h : deviceTarget rule protectedNetwork mac = some target) :
    protectedNetwork.contains target.ip = true := by
  have hsource := deviceTarget_source h
  unfold deviceTarget at h
  split at h
  · exact absurd h (by simp)
  · rename_i hcond
    apply IPv4Network.contains_of_subnetOf
    rw [← hsource]
    exact Bool.eq_true_of_not_eq_false fun hsub => hcond (.inr hsub)

/-- The element of a safe target keys a device. -/
theorem SafeTarget.keysDevice {config : PirewallConfig} {view : LocalAddresses} {action : FirewallAction}
    {target : RuleTarget} (h : SafeTarget config view action target) {element : String × ElementKey}
    (hel : elementFor action target = some element) : KeysDevice config view element := by
  obtain ⟨hdevice, hadmin⟩ := h (elementFor_restrictive hel)
  -- a MAC-keyed element and an address-keyed one, whichever of the two actions it is
  have hmac : ∀ mac : Mac, target.mac = some mac → element.2 = .one mac.text →
      KeysDevice config view element := by
    intro mac htarget hkey
    refine ⟨.inr ⟨mac, hkey⟩, ?_, ?_⟩
    · intro ip hip
      exact absurd (ElementKey.one.inj (hkey.symm.trans hip)) (mac.text_ne_str ip)
    · intro adminMac hconfigured hsame
      obtain rfl := Mac.ext_text (ElementKey.one.inj (hkey.symm.trans hsame))
      exact hadmin mac hconfigured htarget
  have hip : element.2 = .one (IPv4Address.str target.ip) → KeysDevice config view element := by
    intro hkey
    refine ⟨.inl ⟨target.ip, hkey⟩, ?_, ?_⟩
    · intro ip hsame
      obtain rfl := IPv4Address.str_injective (ElementKey.one.inj (hkey.symm.trans hsame))
      exact hdevice
    · intro adminMac _ hsame
      exact absurd (ElementKey.one.inj (hsame.symm.trans hkey)) (adminMac.text_ne_str target.ip)
  rcases elementFor_eq_some_iff.mp hel with
    ⟨_, mac, htarget, rfl⟩ | ⟨_, _, rfl⟩ | ⟨_, mac, htarget, rfl⟩ | ⟨_, _, rfl⟩
  · exact hmac mac htarget rfl
  · exact hip rfl
  · exact hmac mac htarget rfl
  · exact hip rfl

namespace FirewallManager

/-! ## Calls that key devices only -/

section

variable {config : PirewallConfig} {view : LocalAddresses} {m m' : FirewallManager}
  {b b' b'' : FakeSetBackend}

/-- What was logged between `b` and `b'` keys devices only. -/
def LogsDevices (config : PirewallConfig) (view : LocalAddresses) (b b' : FakeSetBackend) : Prop :=
  ∃ writes, b'.ops = b.ops ++ writes ∧ ∀ write ∈ writes, ∀ element : String × ElementKey,
    element.1 ∈ adaptiveEnforcementSets → write.addsTo element → KeysDevice config view element

theorem LogsDevices.of_quiet (h : b.LogsQuietly b') : LogsDevices config view b b' := by
  obtain ⟨writes, hlog, hquiet⟩ := h
  refine ⟨writes, hlog, ?_⟩
  intro write hwrite element hset hadds
  exact absurd ⟨element, hset, hadds⟩ (hquiet write hwrite)

theorem LogsDevices.trans (h : LogsDevices config view b b') (h' : LogsDevices config view b' b'') :
    LogsDevices config view b b'' := by
  obtain ⟨writes, hlog, hkeys⟩ := h
  obtain ⟨writes', hlog', hkeys'⟩ := h'
  exact ⟨writes ++ writes', by rw [hlog', hlog, List.append_assoc], List.forall_mem_append.mpr ⟨hkeys, hkeys'⟩⟩

theorem SetDeployment.logsDevices {rule : FirewallRule} {now : Time} {upgradeOf : Option String}
    {target : RuleTarget} {additions : List SetOp} {metadata : Metadata}
    (h : SetDeployment m b rule now upgradeOf m' target additions metadata b')
    (hsafe : SafeTarget config view rule.action target) : LogsDevices config view b b' := by
  refine ⟨_, h.applied.log, ?_⟩
  rintro write hwrite element _ ⟨ops, op, rfl, hop, hkind, haddress, hkey⟩
  split at hwrite
  · exact absurd hwrite (by simp)
  obtain rfl := KernelWrite.apply.inj (List.mem_singleton.mp hwrite)
  obtain ⟨element', _, hel, _, rfl, _⟩ := h.added_op hop hkind
  obtain rfl : element' = element := Prod.ext (congrArg SetAddress.setName haddress) hkey
  exact hsafe.keysDevice hel

/-- The call kept the configuration, and what it logged keys devices only. -/
structure EnforcesDevices (config : PirewallConfig) (view : LocalAddresses) (m m' : FirewallManager) :
    Prop where
  configured : m'.config = m.config
  log : ∀ b, m.sets = some b → ∃ b', m'.sets = some b' ∧ LogsDevices config view b b'

theorem EnforcesDevices.of_sets (hconfig : m'.config = m.config) (hsets : m'.sets = m.sets) :
    EnforcesDevices config view m m' where
  configured := hconfig
  log := fun b hb => ⟨b, hsets.trans hb, .of_quiet (.of_ops rfl)⟩

theorem EnforcesDevices.of_quiet (h : Quiet m m') (hconfig : m'.config = m.config) :
    EnforcesDevices config view m m' where
  configured := hconfig
  log := by
    intro b hb
    have hsets := h.sets
    rw [hb] at hsets
    generalize m'.sets = after at hsets ⊢
    cases hsets with
    | some hquiet => exact ⟨_, rfl, .of_quiet hquiet⟩

/-- A deployment, if the target filed for its rule is safe. `m` is the manager before the call. -/
theorem EnforcesDevices.deployToSets {before : FirewallManager} {base : FirewallRule} {now : Time}
    {upgradeOf : Option String} (hsets : before.sets = some b) (hsame : m.sets = before.sets)
    (hconfig : m.config = before.config)
    (hsafe : ∀ target, m.targets.get? base.id = some target → SafeTarget config view base.action target) :
    EnforcesDevices config view before (m.deployToSets b base now upgradeOf).2 := by
  rcases m.deployToSets_cases b base now upgradeOf with
    heq | ⟨faults, transitions, _, heq⟩ | ⟨target, additions, metadata, b', hdeploy⟩
  · rw [heq]
    exact .of_sets hconfig hsame
  · rw [heq]
    refine ⟨hconfig, ?_⟩
    intro b₁ hb₁
    obtain rfl := Option.some.inj (hsets.symm.trans hb₁)
    exact ⟨_, rfl, .of_quiet (.of_ops rfl)⟩
  · have hlog := hdeploy.logsDevices (hsafe target hdeploy.filed)
    obtain ⟨transitions, hresult⟩ := hdeploy.result
    rw [hresult]
    refine ⟨hconfig, ?_⟩
    intro b₁ hb₁
    obtain rfl := Option.some.inj (hsets.symm.trans hb₁)
    exact ⟨b', rfl, hlog⟩

/-! ## The invariant -/

/-- The filed target of every held rule is safe for its action. -/
def HeldSafe (config : PirewallConfig) (view : LocalAddresses) (m : FirewallManager) : Prop :=
  ∀ id rule, m.rules.get? id = some rule → rule.status = .pendingApproval →
    ∃ target, m.targets.get? id = some target ∧ SafeTarget config view rule.action target

/-- What the chain let through has a safe target. -/
theorem safeTarget_of_admitted {env : Env} {candidate : CandidateRule} {target : RuleTarget}
    {active : List ActiveTarget} {allowlist : List AllowlistEntry} {upgradeOf : Option String}
    (htarget : m.targetFor env candidate.toRuleFields = some target)
    (hadmitted : SetAdmitted candidate target m.config active allowlist env.now env.localAddresses upgradeOf) :
    SafeTarget m.config env.localAddresses candidate.action target :=
  safeTarget_of_safety (deviceTarget_contains htarget) hadmitted.safety

theorem HeldSafe.step (h : HeldSafe m.config view m) (hkeyed : Keyed m) (hsets : m.sets.isSome = true)
    {call : Env × ManagerOp} (hview : call.1.localAddresses = view) :
    HeldSafe m.config view (m.step call) := by
  intro id rule hrule hpending
  have hid := step_keyed hkeyed call id rule hrule
  rcases held_of_step hkeyed call hrule hpending with ⟨hold, htarget⟩ | ⟨candidate, _, hnew⟩
  · rw [htarget]
    exact h id rule hold hpending
  · obtain ⟨b, hb⟩ := Option.isSome_iff_exists.mp hsets
    obtain ⟨target, upgradeOf, htarget, hadmitted, hfiled⟩ := hnew.target b hb
    refine ⟨target, hid ▸ hfiled, ?_⟩
    rw [hnew.action, ← hview]
    exact safeTarget_of_admitted htarget hadmitted

theorem EnforcesDevices.submitToSets {env : Env} (hview : env.localAddresses = view)
    (hsets : m.sets = some b) (candidate : CandidateRule) :
    EnforcesDevices m.config view m (m.submitToSets env b candidate).2 := by
  rcases m.submitToSets_cases env b candidate with
    ⟨_, heq⟩ | ⟨target, upgradeOf, base, htarget, hadmitted, ⟨priority, hsource, rfl⟩, hcases⟩
  · rw [heq]
    exact .of_sets rfl rfl
  · rcases hcases with ⟨status, _, _, _, heq⟩ | ⟨_, rateLimiter, transitions, heq⟩
    · rw [heq]
      exact .of_sets rfl rfl
    · rw [heq]
      refine .deployToSets hsets rfl rfl ?_
      intro target' htarget'
      obtain rfl : target = target' := by
        simpa [CandidateRule.toRule] using htarget'
      rw [← hview]
      exact safeTarget_of_admitted htarget hadmitted

theorem EnforcesDevices.approvePending (hkeyed : Keyed m) (hheld : HeldSafe config view m)
    (hsets : m.sets = some b) (ruleId : String) (now : Time) :
    EnforcesDevices config view m (m.approvePending ruleId now).2 := by
  rcases m.approvePending_cases ruleId now with
    heq | ⟨rule, hrule, hpending, ⟨b', transitions, hsets', heq⟩ | ⟨hnone, _⟩⟩
  · rw [heq]
    exact .of_sets rfl rfl
  · obtain rfl := Option.some.inj (hsets.symm.trans hsets')
    rw [heq]
    refine .deployToSets hsets rfl rfl ?_
    -- the target used now is the one filed when the rule was held
    intro target htarget
    obtain ⟨target', htarget', hsafe⟩ := hheld ruleId rule hrule hpending
    rw [← hkeyed ruleId rule hrule] at htarget'
    obtain rfl := Option.some.inj (htarget'.symm.trans htarget)
    exact hsafe
  · exact absurd (hnone.symm.trans hsets) (by simp)

theorem reconcile_config (hkeyed : Keyed m) (now : Time) : (m.reconcile now).2.config = m.config := by
  cases hsets : m.sets with
  | none => simp only [FirewallManager.reconcile, hsets]
  | some b =>
    rcases reconcile_cases hsets now with heq | ⟨b', e, _, heq⟩ | ⟨b', live, report, _, heq⟩
    · rw [heq]
    · rw [heq]
    · rw [heq]
      refine adoptUnknown_induction (I := fun m' => m'.config = m.config) _ ?_ _ report ?_
      · intro m' setName key expiresIn _ _ _ hm'
        rcases m'.adopt_cases setName key expiresIn now with heq | ⟨rule, ip, transitions, _, _, _, heq⟩
        · rw [heq]
          exact hm'
        · rw [heq]
          exact hm'
      · exact (retireMissing_demoted (m := { m with sets := some b' }) hkeyed (live.map Prod.fst) now).config

/-- Every call of a run on the set path enforces on devices only. -/
theorem step_enforcesDevices (hkeyed : Keyed m) (hheld : HeldSafe m.config view m) (hsets : m.sets = some b)
    {call : Env × ManagerOp} (hview : call.1.localAddresses = view) :
    EnforcesDevices m.config view m (m.step call) := by
  obtain ⟨env, op⟩ := call
  by_cases hother : (∀ candidate, op ≠ .submitCandidate candidate) ∧ ∀ ruleId, op ≠ .approvePending ruleId
  · refine .of_quiet (step_quiet hkeyed env op hother.1 hother.2) ?_
    by_cases hreconcile : op = .reconcile
    · subst hreconcile
      exact reconcile_config hkeyed env.now
    · exact (step_retires hkeyed env op hother.1 hother.2 hreconcile).config
  cases op with
  | submitCandidate candidate =>
    simp only [step, submitCandidate, hsets]
    exact .submitToSets hview hsets candidate
  | approvePending ruleId => exact .approvePending hkeyed hheld hsets ruleId env.now
  | _ => exact absurd ⟨by simp, by simp⟩ hother

/-- The manager is on the set path, still configured as at the start, what it holds is safe, and what was
logged since `b` keys devices only. -/
structure Guarded (config : PirewallConfig) (view : LocalAddresses) (b : FakeSetBackend)
    (m : FirewallManager) : Prop where
  keyed : Keyed m
  configured : m.config = config
  held : HeldSafe config view m
  log : ∃ b', m.sets = some b' ∧ LogsDevices config view b b'

theorem Guarded.step (h : Guarded config view b m) {call : Env × ManagerOp}
    (hview : call.1.localAddresses = view) : Guarded config view b (m.step call) := by
  obtain ⟨hkeyed, rfl, hheld, b₁, hsets, hlog⟩ := h
  have hstep := step_enforcesDevices hkeyed hheld hsets hview
  obtain ⟨b₂, hsets₂, hlog₂⟩ := hstep.log b₁ hsets
  refine ⟨step_keyed hkeyed call, hstep.configured, ?_, b₂, hsets₂, hlog.trans hlog₂⟩
  exact hheld.step hkeyed (by rw [hsets]; rfl) hview

end

/-- **Infrastructure is never keyed.** With one configuration and one view of the local addresses, in every
run on the set path: every element the manager adds to an enforcement set is keyed by an address of the
protected network that is neither infrastructure nor a special-purpose address, or by a MAC that is not the
Admin PC's. Candidates, resolver answers, modes and faults are arbitrary. -/
theorem infrastructure_is_never_keyed (config : PirewallConfig) (backend : FakeFirewallBackend)
    (store : Option AllowlistStore) (b : FakeSetBackend) (view : LocalAddresses)
    (calls : List (Env × ManagerOp)) (hview : ∀ call ∈ calls, call.1.localAddresses = view) :
    ∃ b' writes, ((init config backend store (some b)).run calls).sets = some b' ∧
      b'.ops = b.ops ++ writes ∧
      ∀ write ∈ writes, ∀ element : String × ElementKey, element.1 ∈ adaptiveEnforcementSets →
        write.addsTo element → KeysDevice config view element := by
  have hguarded : Guarded config view b ((init config backend store (some b)).run calls) := by
    refine Along.invariant (G := fun _ call => call.1.localAddresses = view) ?_
      (.of_forall (fun call hcall _ => hview call hcall) _) ?_
    · exact fun m call h hcall => h.step hcall
    · refine ⟨keyed_init config backend store (some b), rfl, ?_, b, rfl, .of_quiet (.of_ops rfl)⟩
      exact fun _ _ hrule => absurd hrule (by simp [init])
  obtain ⟨b', hsets, writes, hlog, hkeys⟩ := hguarded.log
  exact ⟨b', writes, hsets, hlog, hkeys⟩

/-- A BLOCK held for review while no lease is known, and approved later. -/
def heldThenApproved : List (Env × ManagerOp) :=
  [siteDecision,
   (siteEnv 0, .submitCandidate (siteCandidate "held" .block 9 (seconds 600))),
   (siteEnv (seconds 60), .approvePending "held")]

/-- The approval adds an element, and its key is the device's address. -/
theorem infrastructure_is_never_keyed_heldThenApproved :
    (∀ call ∈ heldThenApproved, call.1.localAddresses = ⟨[], []⟩) ∧
    ∃ b', ((siteManager .assisted (some siteKernel)).run heldThenApproved).sets = some b' ∧
      b'.Added (setBlock4, .one "10.0.0.9") ∧
      KeysDevice (siteConfig .assisted) ⟨[], []⟩ (setBlock4, .one "10.0.0.9") := by
  have hview : ∀ call ∈ heldThenApproved, call.1.localAddresses = ⟨[], []⟩ := by
    simp [heldThenApproved, siteDecision, siteEnv]
  obtain ⟨b', writes, hsets, hlog, hkeys⟩ := infrastructure_is_never_keyed (siteConfig .assisted) siteBackend
    none siteKernel ⟨[], []⟩ heldThenApproved hview
  have hadds : ((siteManager .assisted (some siteKernel)).run heldThenApproved).sets.any
      (fun b => b.ops.any (KernelWrite.adds (setBlock4, .one "10.0.0.9"))) = true := by
    decide +kernel
  have hsets' : ((siteManager .assisted (some siteKernel)).run heldThenApproved).sets = some b' := hsets
  rw [hsets', Option.any_some] at hadds
  obtain ⟨write, hwrite, hadd⟩ := List.any_eq_true.mp hadds
  have hadded := KernelWrite.addsTo_of_adds hadd
  refine ⟨hview, b', hsets', ⟨write, hwrite, hadded⟩, ?_⟩
  rw [hlog] at hwrite
  have hnew : write ∈ writes := by simpa [siteKernel, FakeSetBackend.load] using hwrite
  exact hkeys write hnew _ (by decide) hadded

end FirewallManager

end Pirewall
