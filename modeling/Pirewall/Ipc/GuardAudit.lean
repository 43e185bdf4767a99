/-
# Pirewall.Ipc.GuardAudit -- which guard changes reach the audit trail

SET_GUARD_MODE, PANIC and KILL_SWITCH change what the kernel enforces, and each is meant to leave an audit
event. The kill switch always emits one. `panic` emits one whenever the tables were deleted, and a refused
deletion changes nothing. `_set_guard_mode` writes the guard, reads all guards back and emits after that:
when nft does not answer the read, the guard has flipped and the event is lost with the exception.

`audited_iff` is that statement for one request, over every state and every pattern of failures; a run is
audited throughout exactly when no flip of it goes without its read-back.
-/
import Pirewall.Lib.Run
import Pirewall.Firewall.Lifecycle
import Pirewall.Ipc.Dispatcher

namespace Pirewall

open Lib NftNames

/-! ## The kernel's side of a guard change -/

namespace FakeSetBackend

/-- The next write is not refused by the transport. -/
def takesWrite (b : FakeSetBackend) : Bool := b.faults.head? != some true

/-- The guard modes and the tables are as they were. -/
def SameGuards (b b' : FakeSetBackend) : Prop := b'.guards = b.guards ∧ b'.tables = b.tables

theorem begin_ok_iff (b : FakeSetBackend) : b.begin.1 = .ok () ↔ b.takesWrite = true := by
  unfold begin takesWrite
  split
  · rename_i hnil
    simp [hnil]
  · rename_i rest hcons
    simp [hcons]
  · rename_i rest hcons
    simp [hcons]

/-- `set_guard_modes` of one guard: the write goes through on a loaded static table, or nothing changes. -/
theorem setGuardModes_one (b : FakeSetBackend) (guard : GuardName) (mode : GuardMode) :
    if b.takesWrite = true ∧ b.tables.contains (inetFamily, staticTable) = true then
      (b.setGuardModes [(guard, mode)]).1 = .ok () ∧
        (b.setGuardModes [(guard, mode)]).2.tables = b.tables ∧
        (b.setGuardModes [(guard, mode)]).2.guards = fun g => if g = guard then mode else b.guards g
    else (∃ e, (b.setGuardModes [(guard, mode)]).1 = .error e) ∧
      b.SameGuards (b.setGuardModes [(guard, mode)]).2 := by
  have hbegin := b.begin_ok_iff
  rw [setGuardModes]
  rcases hb : b.begin with ⟨r, b₁⟩
  obtain ⟨hb₁, _⟩ := begin_faults hb
  rw [hb] at hbegin
  rw [hb₁]
  cases r with
  | error e =>
    have hrefused : ¬ (b.takesWrite = true ∧ b.tables.contains (inetFamily, staticTable) = true) :=
      fun h => absurd (hbegin.mpr h.1) (by simp)
    rw [if_neg hrefused]
    exact ⟨⟨e, rfl⟩, rfl, rfl⟩
  | ok u =>
    have htakes := hbegin.mp rfl
    cases hloaded : b.tables.contains (inetFamily, staticTable) with
    | false =>
      simp only [hloaded, Bool.false_eq_true, and_false, if_false]
      exact ⟨⟨_, rfl⟩, rfl, rfl⟩
    | true =>
      simp only [htakes, hloaded, if_true, and_self]
      refine ⟨trivial, trivial, ?_⟩
      funext g
      by_cases hg : g = guard
      · simp [hg]
      · rw [if_neg hg, List.lookup_cons, beq_eq_false_iff_ne.mpr hg]
        rfl

end FakeSetBackend

namespace CoreRpcDispatcher

/-! ## What is audited -/

/-- A guard's verdict chain, the v2 tables or the enforcement mode changed. -/
def GuardsChanged (before after : CoreRpcDispatcher) : Prop :=
  after.manager.enforcementMode ≠ before.manager.enforcementMode ∨
  ∃ b b', before.manager.sets = some b ∧ after.manager.sets = some b' ∧
    (b'.guards ≠ b.guards ∨
      ∃ location ∈ panicTables, b.tables.contains location = true ∧ b'.tables.contains location = false)

/-- The three operations whose changes are audited. -/
def isGuardRequest : RpcRequest → Bool
  | .setGuardMode _ _ _ => true
  | .panic _ => true
  | .killSwitch => true
  | _ => false

/-- A guard request that changed something has emitted an event. -/
def Audited (d : CoreRpcDispatcher) (call : RpcEnv × RpcRequest) : Prop :=
  isGuardRequest call.2 = true → GuardsChanged d (d.step call) → ∃ event, (d.step call).events = d.events ++ [event]

/-- The request flips a guard: its parameters are valid, the write is taken and the mode is another. -/
def Flips (d : CoreRpcDispatcher) (guard mode actor : Option String) : Prop :=
  ∃ g m a b, requireEnum "guard" guardNames guard = .ok g ∧ requireEnum "mode" guardModeValues mode = .ok m ∧
    requireActor actor = .ok a ∧ d.manager.sets = some b ∧ b.takesWrite = true ∧
    b.tables.contains (inetFamily, staticTable) = true ∧ b.guards g ≠ m

/-- Where the request flips a guard, nft answers the reads that follow. -/
def ReadsBack (d : CoreRpcDispatcher) (call : RpcEnv × RpcRequest) : Prop :=
  ∀ guard mode actor, call.2 = .setGuardMode guard mode actor → d.Flips guard mode actor →
    ∀ g, call.1.readable g = true

theorem not_guardsChanged {d d' : CoreRpcDispatcher}
    (hmode : d'.manager.enforcementMode = d.manager.enforcementMode)
    (hsets : ∀ b b', d.manager.sets = some b → d'.manager.sets = some b' → b.SameGuards b') :
    ¬ GuardsChanged d d' := by
  rintro (hchanged | ⟨b, b', hb, hb', hguards | ⟨location, _, hbefore, hafter⟩⟩)
  · exact hchanged hmode
  · exact hguards (hsets b b' hb hb').1
  · rw [(hsets b b' hb hb').2, hbefore] at hafter
    exact absurd hafter (by simp)

theorem not_guardsChanged_self (d : CoreRpcDispatcher) : ¬ GuardsChanged d d := by
  refine not_guardsChanged rfl ?_
  intro b b' hb hb'
  obtain rfl := Option.some.inj (hb.symm.trans hb')
  exact ⟨rfl, rfl⟩

/-! ## The kill switch and panic -/

theorem killSwitch_emits (d : CoreRpcDispatcher) (env : RpcEnv) :
    ∃ event, (d.step (env, .killSwitch)).events = d.events ++ [event] :=
  ⟨_, rfl⟩

/-- `panic` emits its event, or it was refused and nothing changed. -/
theorem panic_audited (d : CoreRpcDispatcher) (env : RpcEnv) (actor : Option String) :
    Audited d (env, .panic actor) := by
  intro _ hchanged
  simp only [step, handle, dispatch, panic] at hchanged ⊢
  cases hactor : requireActor actor with
  | error e =>
    simp only [hactor, withParameter] at hchanged
    exact absurd hchanged d.not_guardsChanged_self
  | ok actor =>
    simp only [hactor, withParameter, FirewallManager.panic] at hchanged ⊢
    cases hsets : d.manager.sets with
    | none =>
      simp only [hsets] at hchanged
      exact absurd hchanged (not_guardsChanged rfl fun b _ hb => absurd (hsets.symm.trans hb) (by simp))
    | some sets =>
      simp only [hsets] at hchanged ⊢
      rcases sets.panic_cases with ⟨hok, _⟩ | ⟨e, faults, herror, _⟩
      · have hpanic : sets.panic = (.ok panicTables, sets.panic.2) := Prod.ext hok rfl
        rw [hpanic]
        exact ⟨_, rfl⟩
      · simp only [herror] at hchanged
        refine absurd hchanged (not_guardsChanged rfl ?_)
        intro b b' hb hb'
        obtain rfl := Option.some.inj (hsets.symm.trans hb)
        obtain rfl := Option.some.inj hb'
        exact ⟨rfl, rfl⟩

/-! ## Setting a guard -/

/-- Reading the guards back needs every verdict chain. -/
theorem guardModes_cases {m : FirewallManager} {b : FakeSetBackend} (hsets : m.sets = some b)
    (hloaded : b.tables.contains (inetFamily, staticTable) = true) (readable : GuardName → Bool) (now : Time) :
    ((∀ g, readable g = true) ∧ ∃ modes, m.guardModes readable now = .ok modes) ∨
      (¬ (∀ g, readable g = true) ∧ ∃ e, m.guardModes readable now = .error e) := by
  have hread : ∀ g, FirewallManager.readGuard b readable g =
      if readable g = true then .ok (b.guards g)
      else .error ("guard verdict chain for " ++ g.value ++ " is missing (is pirewall_static loaded?)") := by
    intro g
    unfold FirewallManager.readGuard FakeSetBackend.guardMode
    rw [if_pos hloaded]
    cases readable g with
    | true => rfl
    | false => rfl
  unfold FirewallManager.guardModes
  simp only [hsets, hread]
  cases hraw : readable .raw with
  | false => exact .inr ⟨fun h => absurd (hraw.symm.trans (h .raw)) (by simp), _, rfl⟩
  | true =>
    cases hinput : readable .input with
    | false => exact .inr ⟨fun h => absurd (hinput.symm.trans (h .input)) (by simp), _, rfl⟩
    | true =>
      cases hforward : readable .forward with
      | false => exact .inr ⟨fun h => absurd (hforward.symm.trans (h .forward)) (by simp), _, rfl⟩
      | true =>
        refine .inl ⟨?_, _, rfl⟩
        intro g
        cases g with
        | raw => exact hraw
        | input => exact hinput
        | forward => exact hforward

/-- A request with valid parameters over a set backend. -/
theorem setGuardMode_audited_iff {d : CoreRpcDispatcher} {env : RpcEnv} {guard mode actor : Option String}
    {g : GuardName} {m : GuardMode} {a : String} {b : FakeSetBackend}
    (hguard : requireEnum "guard" guardNames guard = .ok g)
    (hmode : requireEnum "mode" guardModeValues mode = .ok m) (hactor : requireActor actor = .ok a)
    (hsets : d.manager.sets = some b) :
    Audited d (env, .setGuardMode guard mode actor) ↔
      (b.takesWrite = true ∧ b.tables.contains (inetFamily, staticTable) = true ∧ b.guards g ≠ m →
        ∀ g, env.readable g = true) := by
  -- the write either sets the one guard or changes nothing
  have hwrite := b.setGuardModes_one g m
  simp only [Audited, isGuardRequest, step, handle, dispatch, setGuardMode, hguard, hmode, hactor, withParameter,
    FirewallManager.setGuardMode, hsets, forall_const]
  split at hwrite
  · rename_i htaken
    obtain ⟨hok, htables, hguards⟩ := hwrite
    generalize hset : b.setGuardModes [(g, m)] = outcome at hok htables hguards ⊢
    obtain ⟨r, b'⟩ := outcome
    obtain rfl : r = .ok () := hok
    have hloaded : b'.tables.contains (inetFamily, staticTable) = true := htables ▸ htaken.2
    -- the read-back succeeds when every guard can be listed
    have hread := guardModes_cases (m := { d.manager with sets := some b' }) rfl hloaded env.readable env.now
    simp only
    rcases hread with ⟨hall, modes, hmodes⟩ | ⟨hmissing, e, hmodes⟩
    · simp only [hmodes]
      exact iff_of_true (fun _ => ⟨_, rfl⟩) fun _ => hall
    · -- the guard is set and no event follows
      simp only [hmodes, List.self_eq_append_right, List.cons_ne_self, exists_false, imp_false]
      constructor
      · intro hsame hflips
        refine absurd (.inr ⟨b, b', hsets, rfl, .inl fun h => hflips.2.2 ?_⟩) hsame
        have hg := congrFun (hguards.symm.trans h) g
        simpa using hg.symm
      · intro hkept
        refine not_guardsChanged rfl ?_
        intro b₁ b₂ hb₁ hb₂
        obtain rfl := Option.some.inj (hsets.symm.trans hb₁)
        obtain rfl := Option.some.inj hb₂
        refine ⟨?_, htables⟩
        by_contra hdiffer
        refine hmissing (hkept ⟨htaken.1, htaken.2, fun hsame => hdiffer ?_⟩)
        rw [hguards]
        funext g'
        split
        · rename_i hg
          rw [hg, hsame]
        · rfl
  -- nothing was set, so nothing has to be audited
  · rename_i hrefused
    obtain ⟨⟨e, herror⟩, hsame⟩ := hwrite
    have hset : b.setGuardModes [(g, m)] = (.error e, (b.setGuardModes [(g, m)]).2) := Prod.ext herror rfl
    rw [hset]
    refine iff_of_true (fun hchanged => ?_) fun h => absurd ⟨h.1, h.2.1⟩ hrefused
    refine absurd hchanged (not_guardsChanged rfl ?_)
    intro b₁ b₂ hb₁ hb₂
    obtain rfl := Option.some.inj (hsets.symm.trans hb₁)
    obtain rfl := Option.some.inj hb₂
    exact hsame

/-- A SET_GUARD_MODE request that gets no further than its parameters, or finds no set backend. -/
theorem setGuardMode_unchanged {d : CoreRpcDispatcher} {env : RpcEnv} {guard mode actor : Option String}
    (h : (d.setGuardMode env guard mode actor).2 = d) (hflips : ¬ d.Flips guard mode actor) :
    Audited d (env, .setGuardMode guard mode actor) ↔ ReadsBack d (env, .setGuardMode guard mode actor) := by
  refine iff_of_true (fun _ hchanged => ?_) fun _ _ _ heq hflips' => ?_
  · have hstep : d.step (env, .setGuardMode guard mode actor) = d := by
      show (d.handle env (.setGuardMode guard mode actor)).2 = d
      simp only [handle, dispatch]
      rcases hout : d.setGuardMode env guard mode actor with ⟨_ | _, after⟩
      · rw [hout] at h
        exact h
      · rw [hout] at h
        exact h
    rw [hstep] at hchanged
    exact absurd hchanged d.not_guardsChanged_self
  · cases heq
    exact absurd hflips' hflips

/-- One request is audited exactly when a flip it makes is read back. -/
theorem audited_iff (d : CoreRpcDispatcher) (call : RpcEnv × RpcRequest) : Audited d call ↔ ReadsBack d call := by
  obtain ⟨env, request⟩ := call
  cases request with
  | killSwitch =>
    refine iff_of_true (fun _ _ => d.killSwitch_emits env) ?_
    intro _ _ _ h
    cases h
  | panic actor =>
    refine iff_of_true (d.panic_audited env actor) ?_
    intro _ _ _ h
    cases h
  -- a parameter that is refused, or a manager without sets, sets no guard
  | setGuardMode guard mode actor =>
    cases hguard : requireEnum "guard" guardNames guard with
    | error e =>
      refine setGuardMode_unchanged (by simp [setGuardMode, withParameter, hguard]) ?_
      rintro ⟨_, _, _, _, hok, _⟩
      exact absurd (hguard.symm.trans hok) (by simp)
    | ok g =>
      cases hmode : requireEnum "mode" guardModeValues mode with
      | error e =>
        refine setGuardMode_unchanged (by simp [setGuardMode, withParameter, hguard, hmode]) ?_
        rintro ⟨_, _, _, _, _, hok, _⟩
        exact absurd (hmode.symm.trans hok) (by simp)
      | ok m =>
        cases hactor : requireActor actor with
        | error e =>
          refine setGuardMode_unchanged
            (by simp [setGuardMode, withParameter, hguard, hmode, hactor]) ?_
          rintro ⟨_, _, _, _, _, _, hok, _⟩
          exact absurd (hactor.symm.trans hok) (by simp)
        | ok a =>
          cases hsets : d.manager.sets with
          | none =>
            refine setGuardMode_unchanged (by simp [setGuardMode, withParameter, hguard, hmode, hactor,
              FirewallManager.setGuardMode, hsets]) ?_
            rintro ⟨_, _, _, _, _, _, _, hok, _⟩
            exact absurd (hsets.symm.trans hok) (by simp)
          | some b =>
            rw [setGuardMode_audited_iff hguard hmode hactor hsets]
            constructor
            · rintro h _ _ _ heq ⟨g', m', a', b', hg, hm, _, hb, htakes, hloaded, hdiffers⟩
              cases heq
              obtain rfl := Except.ok.inj (hguard.symm.trans hg)
              obtain rfl := Except.ok.inj (hmode.symm.trans hm)
              obtain rfl := Option.some.inj (hsets.symm.trans hb)
              exact h ⟨htakes, hloaded, hdiffers⟩
            · rintro h ⟨htakes, hloaded, hdiffers⟩
              exact h guard mode actor rfl
                ⟨g, m, a, b, hguard, hmode, hactor, hsets, htakes, hloaded, hdiffers⟩
  | _ =>
    refine iff_of_true (fun h => absurd h (by simp [isGuardRequest])) ?_
    intro _ _ _ h
    cases h

/-! ## Runs -/

/-- Every guard request of a run that changed something has emitted its event by the time it is answered,
exactly when nft answers the read-back of every flip of the run. -/
theorem guard_changes_are_audited_iff (d : CoreRpcDispatcher) (calls : List (RpcEnv × RpcRequest)) :
    Along step Audited d calls ↔ Along step ReadsBack d calls :=
  ⟨Along.mono fun d call => (audited_iff d call).mp, Along.mono fun d call => (audited_iff d call).mpr⟩

/-- A flip of the input guard to enforce, while nft lists no chain. -/
def unreadFlip : RpcEnv × RpcRequest :=
  (⟨0, fun _ => none, fun _ => false, "generated", "salt"⟩,
   .setGuardMode (some "input") (some "enforce") (some "admin"))

/-- The guard enforces, the response is an error, and the audit trail stays empty. -/
theorem flip_without_audit :
    ((withoutPortal (siteManager .assisted (some siteKernel))).handle unreadFlip.1 unreadFlip.2).1.isOk = false ∧
    ((withoutPortal (siteManager .assisted (some siteKernel))).step unreadFlip).events = [] ∧
    ¬ Along step Audited (withoutPortal (siteManager .assisted (some siteKernel))) [unreadFlip] := by
  refine ⟨rfl, rfl, ?_⟩
  rintro ⟨haudited, _⟩
  have hchanged : GuardsChanged (withoutPortal (siteManager .assisted (some siteKernel)))
      ((withoutPortal (siteManager .assisted (some siteKernel))).step unreadFlip) := by
    refine .inr ⟨siteKernel, _, rfl, rfl, .inl fun h => ?_⟩
    exact absurd (congrFun h .input) (by decide)
  obtain ⟨event, hevents⟩ := haudited rfl hchanged
  have hnil : [] = [] ++ [event] := hevents
  exact absurd hnil (by simp)

end CoreRpcDispatcher

end Pirewall
