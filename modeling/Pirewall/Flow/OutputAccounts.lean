/-
# Pirewall.Flow.OutputAccounts -- where the flows of the native engine are

The engine hands its output over in batches, keeps at most so much of it in between and counts what it sheds; a
recovery after a panic discards the table and counts what was open. A run of calls is followed by a ledger
(`EngineRun`): how many flows were opened and how many of them initiated, and how many flows and signals were handed
out. After any calls the ledger balances (`outputs_accounted`).

One packet may open a flow, evict a second and close the first again. `Moved` says what a call does to the engine's
own part of the ledger: what is open, pending or shed.
-/
import Pirewall.Flow.Native
import Pirewall.Lib.Run

namespace Pirewall.Native

open Lib

/-! ## Runs -/

/-- `recover`, and the open flows it discards. -/
def Engine.recover (e : Engine) : Nat × Engine := (e.table.len, { e with table := e.table.clear })

/-- A call of the engine. A frame that does not parse is only counted as malformed. -/
inductive EngineCall
  | feed (packet : Option Packet)
  | sweep (nowUs : Int)
  | flush
  | drain
  | recover

/-- The flow key of a packet. -/
def Packet.key (packet : Packet) : FlowKey :=
  flowKey packet.src packet.dst packet.sport packet.dport packet.proto

/-- Whether the packet is one that flows are made of. -/
def Engine.takes (e : Engine) (packet : Packet) : Bool :=
  packet.ipv4 && e.routable packet.src && e.routable packet.dst

/-- Whether the packet opens a flow. -/
def Engine.opensFlow (e : Engine) (packet : Packet) : Bool :=
  e.takes packet && (e.table.index.get? packet.key).isNone

/-- Whether it opens one that its sender initiated. -/
def Engine.initiatesFlow (e : Engine) (packet : Packet) : Bool :=
  e.opensFlow packet && (FlowState.opening packet).initiated

/-- An engine with its `flows_lost_to_panics`, and the ledger of what has gone in and out. -/
structure EngineRun where
  engine : Engine
  flowsLostToPanics : Nat
  opened : Nat
  initiated : Nat
  drained : Nat
  drainedSignals : Nat
  returned : Nat

namespace EngineRun

def init (config : FlowConfig) (protectedNetwork : Option IPv4Network)
    (maxPendingCompleted maxPendingNewFlows : Option Nat) : EngineRun :=
  ⟨.new config protectedNetwork maxPendingCompleted maxPendingNewFlows, 0, 0, 0, 0, 0, 0⟩

/-- One call; `none` is a panic. -/
def step (r : EngineRun) : EngineCall → Option EngineRun
  | .feed none => some r
  | .feed (some packet) => do
      let e ← r.engine.feed packet
      some { r with
        engine := e
        opened := r.opened + (r.engine.opensFlow packet).toNat
        initiated := r.initiated + (r.engine.initiatesFlow packet).toNat }
  | .sweep nowUs => do
      let (states, e) ← r.engine.sweep nowUs
      some { r with engine := e, returned := r.returned + states.length }
  | .flush => do
      let (states, e) ← r.engine.flush
      some { r with engine := e, returned := r.returned + states.length }
  | .drain =>
    let ((states, newFlows), e) := r.engine.drain
    some { r with
      engine := e
      drained := r.drained + states.length
      drainedSignals := r.drainedSignals + newFlows.length }
  | .recover =>
    let (lost, e) := r.engine.recover
    some { r with engine := e, flowsLostToPanics := r.flowsLostToPanics + lost }

def run (r : EngineRun) (calls : List EngineCall) : Option EngineRun := calls.foldlM step r

end EngineRun

/-! ## One call -/

namespace Engine

variable {e e' e'' : Engine}

/-- The flows that have left the table and wait, or were shed. -/
def outputs (e : Engine) : Nat := e.completed.length + e.completedShed

/-- The signals that wait, or were shed. -/
def signals (e : Engine) : Nat := e.newFlows.length + e.newFlowsShed

/-- A table that is a list of at least one entry, and pending output within its limits. -/
structure Sound (e : Engine) : Prop where
  table : ∃ entries, e.table.Holds entries
  room : 0 < e.table.max
  completed : ∀ limit ∈ e.maxPendingCompleted, e.completed.length ≤ limit
  newFlows : ∀ limit ∈ e.maxPendingNewFlows, e.newFlows.length ≤ limit

/-- The limits stay, and what was shed stays shed. -/
structure Sheds (e e' : Engine) : Prop where
  maxCompleted : e'.maxPendingCompleted = e.maxPendingCompleted
  maxNewFlows : e'.maxPendingNewFlows = e.maxPendingNewFlows
  completed : e.completedShed ≤ e'.completedShed
  newFlows : e.newFlowsShed ≤ e'.newFlowsShed

theorem Sheds.refl (e : Engine) : Sheds e e := ⟨rfl, rfl, le_refl _, le_refl _⟩

theorem Sheds.trans (h : Sheds e e') (h' : Sheds e' e'') : Sheds e e'' :=
  ⟨h'.maxCompleted.trans h.maxCompleted, h'.maxNewFlows.trans h.maxNewFlows, h.completed.trans h'.completed,
    h.newFlows.trans h'.newFlows⟩

theorem Sheds.of_table {table : LruTable FlowKey FlowState} (h : Sheds { e with table } e') : Sheds e e' :=
  ⟨h.maxCompleted, h.maxNewFlows, h.completed, h.newFlows⟩

/-- A call that opened some flows and sent some signals. -/
structure Moved (e e' : Engine) (opened sent : Nat) : Prop extends Sheds e e' where
  sound : e'.Sound
  flows : e'.outputs + e'.table.len = e.outputs + e.table.len + opened
  signals : e'.signals = e.signals + sent

theorem len_of_holds {κ α : Type} [DecidableEq κ] {t : LruTable κ α} {entries : List (κ × α)}
    (h : t.Holds entries) : t.len = entries.length := by
  obtain ⟨chain, hrep⟩ := h
  exact hrep.length.symm

/-- One more pending flow, or one more shed. -/
theorem pushCompleted_spec (h : e.Sound) (state : FlowState) : (e.pushCompleted state).Sound ∧
    Sheds e (e.pushCompleted state) ∧ (e.pushCompleted state).table = e.table ∧
    (e.pushCompleted state).outputs = e.outputs + 1 ∧ (e.pushCompleted state).signals = e.signals := by
  unfold pushCompleted
  split
  · rename_i hbelow
    refine ⟨⟨h.table, h.room, fun limit hlimit => ?_, h.newFlows⟩, ⟨rfl, rfl, le_refl _, le_refl _⟩, rfl, ?_, rfl⟩
    · rw [Option.mem_def.mp hlimit] at hbelow
      show (e.completed ++ [state]).length ≤ limit
      rw [List.length_append, List.length_singleton]
      exact of_decide_eq_true hbelow
    · show (e.completed ++ [state]).length + e.completedShed = e.completed.length + e.completedShed + 1
      rw [List.length_append, List.length_singleton]
      omega
  · exact ⟨⟨h.table, h.room, h.completed, h.newFlows⟩, ⟨rfl, rfl, Nat.le_succ _, le_refl _⟩, rfl, rfl, rfl⟩

theorem pushEvicted_spec (h : e.Sound) (evicted : Option FlowState) : (e.pushEvicted evicted).Sound ∧
    Sheds e (e.pushEvicted evicted) ∧ (e.pushEvicted evicted).table = e.table ∧
    (e.pushEvicted evicted).outputs = e.outputs + evicted.toList.length ∧
    (e.pushEvicted evicted).signals = e.signals := by
  cases evicted with
  | none => exact ⟨h, .refl e, rfl, rfl, rfl⟩
  | some state => exact pushCompleted_spec h state

/-- One more pending signal, or one more shed. -/
theorem pushNewFlow_spec (h : e.Sound) (packet : Packet) : (e.pushNewFlow packet).Sound ∧
    Sheds e (e.pushNewFlow packet) ∧ (e.pushNewFlow packet).table = e.table ∧
    (e.pushNewFlow packet).outputs = e.outputs ∧ (e.pushNewFlow packet).signals = e.signals + 1 := by
  unfold pushNewFlow
  split
  · rename_i hbelow
    refine ⟨⟨h.table, h.room, h.completed, fun limit hlimit => ?_⟩, ⟨rfl, rfl, le_refl _, le_refl _⟩, rfl, rfl, ?_⟩
    · rw [Option.mem_def.mp hlimit] at hbelow
      show (e.newFlows ++ [_]).length ≤ limit
      rw [List.length_append, List.length_singleton]
      exact of_decide_eq_true hbelow
    · show (e.newFlows ++ [_]).length + e.newFlowsShed = e.newFlows.length + e.newFlowsShed + 1
      rw [List.length_append, List.length_singleton]
      omega
  · exact ⟨⟨h.table, h.room, h.completed, h.newFlows⟩, ⟨rfl, rfl, le_refl _, Nat.le_succ _⟩, rfl, rfl, rfl⟩

/-- Another table, which is a list as well. -/
theorem Sound.withTable (h : e.Sound) {table : LruTable FlowKey FlowState} {entries : List (FlowKey × FlowState)}
    (hholds : table.Holds entries) (hmax : table.max = e.table.max) : Engine.Sound { e with table } :=
  ⟨⟨entries, hholds⟩, hmax.symm ▸ h.room, h.completed, h.newFlows⟩

/-- `pop`: the entry that goes is the flow that is handed on. -/
theorem pop_spec {t : LruTable FlowKey FlowState} {entries : List (FlowKey × FlowState)} (h : t.Holds entries)
    (key : FlowKey) : ∃ popped t' entries', t.pop key = some (popped, t') ∧ t'.Holds entries' ∧ t'.max = t.max ∧
      t'.len + popped.toList.length = t.len := by
  cases hlookup : entries.lookup key with
  | none => exact ⟨none, t, entries, LruTable.pop_none h hlookup, h, rfl, rfl⟩
  | some v =>
    obtain ⟨t', hpop, hmax, hholds⟩ := LruTable.pop_some h hlookup
    refine ⟨some v, t', _, hpop, hholds, hmax, ?_⟩
    obtain ⟨chain, hrep⟩ := h
    have hsize := Dict.size_erase_of_some (d := ⟨entries, hrep.keys⟩) hlookup
    rw [len_of_holds hholds, ← hrep.length]
    exact hsize

/-- `insert`: the entry that goes is the flow that is handed on, and there is one new. -/
theorem insert_spec {t : LruTable FlowKey FlowState} {entries : List (FlowKey × FlowState)} (h : t.Holds entries)
    (hroom : 0 < t.max) {key : FlowKey} (habsent : entries.lookup key = none) (state : FlowState) :
    ∃ evicted t' entries', t.insert key state = some (evicted, t') ∧ t'.Holds entries' ∧ t'.max = t.max ∧
      t'.len + evicted.toList.length = t.len + 1 := by
  by_cases hlt : entries.length < t.max
  · obtain ⟨t', hinsert, hmax, hholds⟩ := LruTable.insert_below h habsent state hlt
    refine ⟨none, t', _, hinsert, hholds, hmax, ?_⟩
    rw [len_of_holds hholds, len_of_holds h, List.length_append]
    rfl
  · obtain ⟨⟨k₀, v₀⟩, rest, rfl⟩ := List.exists_cons_of_length_pos (lt_of_lt_of_le hroom (not_lt.mp hlt))
    obtain ⟨t', hinsert, hmax, hholds⟩ := LruTable.insert_full h habsent state (not_lt.mp hlt)
    refine ⟨some v₀, t', _, hinsert, hholds, hmax, ?_⟩
    rw [len_of_holds hholds, len_of_holds h, List.length_append]
    rfl

/-- The end of `feed`: a flow that closes goes from the table to the output. -/
theorem closeIf_spec (h : e.Sound) (key : FlowKey) (close : Bool) :
    ∃ e', e.closeIf key close = some e' ∧ Moved e e' 0 0 := by
  cases close with
  | false => exact ⟨e, rfl, .refl e, h, rfl, rfl⟩
  | true =>
    obtain ⟨entries, hholds⟩ := h.table
    obtain ⟨popped, table, entries', hpop, hholds', hmax, hlen⟩ := pop_spec hholds key
    obtain ⟨hsound, hsheds, htable, houtputs, hsignals⟩ := pushEvicted_spec (h.withTable hholds' hmax) popped
    refine ⟨Engine.pushEvicted { e with table } popped, ?_, hsheds.of_table, hsound, ?_, hsignals⟩
    · rw [closeIf, if_pos rfl, hpop, Option.map_some]
    · rw [houtputs, htable]
      show e.outputs + popped.toList.length + table.len = e.outputs + e.table.len
      omega

/-- A packet of an open flow. -/
theorem feedKnown_spec (h : e.Sound) {packet : Packet} {entries : List (FlowKey × FlowState)}
    (hholds : e.table.Holds entries) {state : FlowState} (hlookup : entries.lookup packet.key = some state) :
    ∃ slot table e', e.table.getMut packet.key = some (some slot, table) ∧
      Engine.feedKnown { e with table } packet packet.key slot = some e' ∧ Moved e e' 0 0 := by
  obtain ⟨slot, n, table, hget, hnode, rfl, hassign⟩ := LruTable.getMut_some hholds hlookup
  obtain ⟨written, hmodify, hmax, hholds'⟩ := hassign (n.state.observe packet)
  have hlen : written.len = e.table.len := by
    obtain ⟨chain, hrep⟩ := hholds
    have hsize := Dict.size_erase_of_some (d := ⟨entries, hrep.keys⟩) hlookup
    rw [len_of_holds hholds', ← hrep.length, List.length_append]
    exact hsize
  obtain ⟨e', hclose, hmoved⟩ := closeIf_spec (h.withTable hholds' hmax) packet.key
    ((n.state.observe packet).shouldClose packet.tsUs e.activeS e.inactiveS)
  refine ⟨slot, table, e', hget, ?_, ⟨hmoved.toSheds.of_table, hmoved.sound, ?_, hmoved.signals⟩⟩
  · simp only [feedKnown, hnode, hmodify, Option.bind_eq_bind, Option.bind_some]
    exact hclose
  · rw [hmoved.flows]
    show e.outputs + written.len + 0 = e.outputs + e.table.len + 0
    rw [hlen]

/-- A packet that opens a flow. -/
theorem feedNew_spec (h : e.Sound) {packet : Packet} {entries : List (FlowKey × FlowState)}
    (hholds : e.table.Holds entries) (habsent : entries.lookup packet.key = none) :
    ∃ e', e.feedNew packet packet.key = some e' ∧ Moved e e' 1 (FlowState.opening packet).initiated.toNat := by
  -- the signal
  obtain ⟨e₁, heq₁, hsound₁, hsheds₁, htable₁, houtputs₁, hsignals₁⟩ : ∃ e₁,
      (if (FlowState.opening packet).initiated then e.pushNewFlow packet else e) = e₁ ∧ e₁.Sound ∧ Sheds e e₁ ∧
      e₁.table = e.table ∧ e₁.outputs = e.outputs ∧
      e₁.signals = e.signals + (FlowState.opening packet).initiated.toNat := by
    cases (FlowState.opening packet).initiated with
    | true => exact ⟨_, rfl, pushNewFlow_spec h packet⟩
    | false => exact ⟨e, rfl, h, .refl e, rfl, rfl, rfl⟩
  -- the flow, and the one that makes room for it
  obtain ⟨evicted, table, entries', hinsert, hholds', hmax, hlen⟩ :=
    insert_spec hholds h.room habsent (FlowState.opening packet)
  have hsound₂ : Engine.Sound { e₁ with table } := hsound₁.withTable hholds' (htable₁.symm ▸ hmax)
  obtain ⟨hsound₃, hsheds₃, htable₃, houtputs₃, hsignals₃⟩ := pushEvicted_spec hsound₂ evicted
  -- and it may close at once
  obtain ⟨e', hclose, hmoved⟩ := closeIf_spec hsound₃ packet.key
    ((FlowState.opening packet).shouldClose packet.tsUs e₁.activeS e₁.inactiveS)
  refine ⟨e', ?_, ⟨?_, hmoved.sound, ?_, ?_⟩⟩
  · simp only [feedNew, heq₁, htable₁, hinsert, Option.bind_eq_bind, Option.bind_some]
    exact hclose
  · exact hsheds₁.trans (hsheds₃.of_table.trans hmoved.toSheds)
  · rw [hmoved.flows, houtputs₃, htable₃]
    show e₁.outputs + evicted.toList.length + table.len + 0 = e.outputs + e.table.len + 1
    omega
  · rw [hmoved.signals, hsignals₃]
    exact hsignals₁

/-- A packet. -/
theorem feed_spec (h : e.Sound) (packet : Packet) : ∃ e', e.feed packet = some e' ∧
    Moved e e' (e.opensFlow packet).toNat (e.initiatesFlow packet).toNat := by
  unfold feed initiatesFlow opensFlow
  by_cases htakes : e.takes packet = true
  · have hguard : (!packet.ipv4 || !e.routable packet.src || !e.routable packet.dst) = false := by
      unfold takes at htakes
      simpa [and_assoc] using htakes
    rw [hguard, htakes, Bool.true_and, if_neg Bool.false_ne_true]
    obtain ⟨entries, hholds⟩ := h.table
    obtain ⟨chain, hrep⟩ := hholds
    cases hlookup : entries.lookup packet.key with
    | none =>
      obtain ⟨e', hfeed, hmoved⟩ := feedNew_spec h ⟨chain, hrep⟩ hlookup
      rw [hrep.lookup_none hlookup]
      refine ⟨e', ?_, by simpa using hmoved⟩
      show ((e.table.getMut packet.key).bind _) = some e'
      rw [LruTable.getMut_none ⟨chain, hrep⟩ hlookup]
      exact hfeed
    | some state =>
      obtain ⟨slot, table, e', hget, hfeed, hmoved⟩ := feedKnown_spec h ⟨chain, hrep⟩ hlookup
      obtain ⟨slot', hindex⟩ := hrep.lookup_some hlookup
      rw [hindex]
      refine ⟨e', ?_, by simpa using hmoved⟩
      show ((e.table.getMut packet.key).bind _) = some e'
      rw [hget]
      exact hfeed
  · have hguard : (!packet.ipv4 || !e.routable packet.src || !e.routable packet.dst) = true := by
      unfold takes at htakes
      cases hv4 : packet.ipv4 <;> cases hsrc : e.routable packet.src <;> cases hdst : e.routable packet.dst <;>
        simp_all
    rw [hguard, Bool.eq_false_iff.mpr htakes]
    exact ⟨e, rfl, .refl e, h, rfl, rfl⟩

/-- The flows that are popped one by one. -/
theorem popAll_spec (keys : List FlowKey) {t : LruTable FlowKey FlowState} {entries : List (FlowKey × FlowState)}
    (h : t.Holds entries) : ∃ states t' entries', popAll t keys = some (states, t') ∧ t'.Holds entries' ∧
      t'.max = t.max ∧ t'.len + states.length = t.len := by
  induction keys generalizing t entries with
  | nil => exact ⟨[], t, entries, rfl, h, rfl, rfl⟩
  | cons key keys ih =>
    obtain ⟨popped, mid, entries', hpop, hmid, hmax, hlen⟩ := pop_spec h key
    obtain ⟨states, t', entries'', hrest, hholds, hmax', hlen'⟩ := ih hmid
    refine ⟨popped.toList ++ states, t', entries'', ?_, hholds, hmax'.trans hmax, ?_⟩
    · simp only [popAll, hpop, hrest, Option.bind_eq_bind, Option.bind_some]
    · rw [List.length_append]
      omega

/-- `sweep`: what is returned has left the table, and nothing else changes. -/
theorem sweep_spec (h : e.Sound) (nowUs : Int) : ∃ states e', e.sweep nowUs = some (states, e') ∧ e'.Sound ∧
    Sheds e e' ∧ e'.table.len + states.length = e.table.len ∧ e'.outputs = e.outputs ∧ e'.signals = e.signals := by
  obtain ⟨entries, hholds⟩ := h.table
  obtain ⟨nodes, hnodes, -⟩ := LruTable.openNodes_spec hholds
  obtain ⟨states, table, entries', hpop, hholds', hmax, hlen⟩ := popAll_spec
    ((nodes.filter fun n => n.state.shouldClose nowUs e.activeS e.inactiveS).map Node.key) hholds
  refine ⟨states, { e with table }, ?_, h.withTable hholds' hmax, ⟨rfl, rfl, le_refl _, le_refl _⟩, hlen, rfl, rfl⟩
  simp only [sweep, hnodes, hpop, Option.bind_eq_bind, Option.bind_some]

/-- `flush`: everything open is returned. -/
theorem flush_spec (h : e.Sound) : ∃ states e', e.flush = some (states, e') ∧ e'.Sound ∧ Sheds e e' ∧
    e'.table.len + states.length = e.table.len ∧ e'.outputs = e.outputs ∧ e'.signals = e.signals := by
  obtain ⟨entries, hholds⟩ := h.table
  obtain ⟨nodes, hnodes, hentries⟩ := LruTable.openNodes_spec hholds
  refine ⟨nodes.map Node.state, { e with table := e.table.clear }, ?_, h.withTable e.table.clear_holds rfl,
    ⟨rfl, rfl, le_refl _, le_refl _⟩, ?_, rfl, rfl⟩
  · simp only [flush, hnodes, Option.bind_eq_bind, Option.bind_some]
  · show 0 + (nodes.map Node.state).length = e.table.len
    rw [List.length_map, Nat.zero_add, len_of_holds hholds, ← hentries, List.length_map]

end Engine

/-! ## The ledger -/

namespace EngineRun

variable {r r' : EngineRun}

/-- The ledger balances. -/
structure Balanced (r : EngineRun) : Prop where
  sound : r.engine.Sound
  flows : r.opened = r.drained + r.returned + r.engine.outputs + r.engine.table.len + r.flowsLostToPanics
  signals : r.initiated = r.drainedSignals + r.engine.signals

/-- No counter of what is shed or lost goes down. -/
structure Onward (r r' : EngineRun) : Prop extends Engine.Sheds r.engine r'.engine where
  lost : r.flowsLostToPanics ≤ r'.flowsLostToPanics

theorem Onward.refl (r : EngineRun) : Onward r r := ⟨.refl _, le_refl _⟩

theorem Onward.trans {r'' : EngineRun} (h : Onward r r') (h' : Onward r' r'') : Onward r r'' :=
  ⟨h.toSheds.trans h'.toSheds, h.lost.trans h'.lost⟩

/-- A call does not panic, and keeps the ledger balanced. -/
theorem Balanced.step (h : r.Balanced) (c : EngineCall) : ∃ r', r.step c = some r' ∧ r'.Balanced ∧ Onward r r' := by
  cases c with
  | feed packet =>
    cases packet with
    | none => exact ⟨r, rfl, h, .refl r⟩
    | some packet =>
      -- what a packet opens is open, handed over or shed afterwards
      obtain ⟨e, hfeed, hmoved⟩ := Engine.feed_spec h.sound packet
      have hstep : r.step (.feed (some packet)) = some { r with
          engine := e
          opened := r.opened + (r.engine.opensFlow packet).toNat
          initiated := r.initiated + (r.engine.initiatesFlow packet).toNat } := by
        rw [EngineRun.step, hfeed]
        rfl
      refine ⟨_, hstep, ⟨hmoved.sound, ?_, ?_⟩, ⟨hmoved.toSheds, le_refl _⟩⟩
      · have := hmoved.flows
        have := h.flows
        dsimp only
        omega
      · have := hmoved.signals
        have := h.signals
        dsimp only
        omega
  | sweep nowUs =>
    obtain ⟨states, e, hsweep, hsound, hsheds, hlen, houtputs, hsignals⟩ := Engine.sweep_spec h.sound nowUs
    have hstep : r.step (.sweep nowUs) = some { r with engine := e, returned := r.returned + states.length } := by
      rw [EngineRun.step, hsweep]
      rfl
    refine ⟨_, hstep, ⟨hsound, ?_, hsignals.symm ▸ h.signals⟩, ⟨hsheds, le_refl _⟩⟩
    have := h.flows
    dsimp only
    omega
  | flush =>
    obtain ⟨states, e, hflush, hsound, hsheds, hlen, houtputs, hsignals⟩ := Engine.flush_spec h.sound
    have hstep : r.step .flush = some { r with engine := e, returned := r.returned + states.length } := by
      rw [EngineRun.step, hflush]
      rfl
    refine ⟨_, hstep, ⟨hsound, ?_, hsignals.symm ▸ h.signals⟩, ⟨hsheds, le_refl _⟩⟩
    have := h.flows
    dsimp only
    omega
  -- the counters of what was shed stay; the pending lists go to the caller
  | drain =>
    refine ⟨_, rfl, ⟨⟨h.sound.table, h.sound.room, fun _ _ => Nat.zero_le _, fun _ _ => Nat.zero_le _⟩, ?_, ?_⟩,
      ⟨⟨rfl, rfl, le_refl _, le_refl _⟩, le_refl _⟩⟩
    · have hflows := h.flows
      show r.opened = r.drained + r.engine.completed.length + r.returned + (0 + r.engine.completedShed) +
        r.engine.table.len + r.flowsLostToPanics
      unfold Engine.outputs at hflows
      omega
    · have hsignals := h.signals
      show r.initiated = r.drainedSignals + r.engine.newFlows.length + (0 + r.engine.newFlowsShed)
      unfold Engine.signals at hsignals
      omega
  -- the open flows are given up and counted as lost
  | recover =>
    refine ⟨_, rfl, ⟨h.sound.withTable r.engine.table.clear_holds rfl, ?_, h.signals⟩,
      ⟨⟨rfl, rfl, le_refl _, le_refl _⟩, Nat.le_add_right _ _⟩⟩
    have hflows := h.flows
    show r.opened = r.drained + r.returned + r.engine.outputs + 0 + (r.flowsLostToPanics + r.engine.table.len)
    omega

theorem Balanced.run (h : r.Balanced) (calls : List EngineCall) :
    ∃ r', r.run calls = some r' ∧ r'.Balanced ∧ Onward r r' := by
  induction calls generalizing r with
  | nil => exact ⟨r, rfl, h, .refl r⟩
  | cons c rest ih =>
    obtain ⟨mid, hstep, hmid, honward⟩ := h.step c
    obtain ⟨r', hrest, hr', honward'⟩ := ih hmid
    refine ⟨r', ?_, hr', honward.trans honward'⟩
    rw [EngineRun.run, List.foldlM_cons, hstep]
    exact hrest

theorem Balanced.init (config : FlowConfig) (protectedNetwork : Option IPv4Network)
    (maxPendingCompleted maxPendingNewFlows : Option Nat) :
    (init config protectedNetwork maxPendingCompleted maxPendingNewFlows).Balanced where
  sound := ⟨⟨[], LruTable.new_holds _⟩, config.max_pos, fun _ _ => Nat.zero_le _, fun _ _ => Nat.zero_le _⟩
  flows := rfl
  signals := rfl

/-- **Every flow of the native engine is accounted for.** Whatever the pending limits, and whatever was called: no
call panics; the flows ever opened are those drained, returned by `sweep` and `flush`, pending, open, shed, and lost to
panics; the initiated ones are the signals drained, pending and shed; no more is pending than the limits allow; and
what was shed or lost stays counted, whatever is called next. -/
theorem outputs_accounted (config : FlowConfig) (protectedNetwork : Option IPv4Network)
    (maxPendingCompleted maxPendingNewFlows : Option Nat) (calls : List EngineCall) :
    ∃ r, (init config protectedNetwork maxPendingCompleted maxPendingNewFlows).run calls = some r ∧
      r.opened = r.drained + r.returned + r.engine.completed.length + r.engine.table.len + r.engine.completedShed +
        r.flowsLostToPanics ∧
      r.initiated = r.drainedSignals + r.engine.newFlows.length + r.engine.newFlowsShed ∧
      (∀ limit ∈ maxPendingCompleted, r.engine.completed.length ≤ limit) ∧
      (∀ limit ∈ maxPendingNewFlows, r.engine.newFlows.length ≤ limit) ∧
      ∀ later, ∃ r', r.run later = some r' ∧ r.engine.completedShed ≤ r'.engine.completedShed ∧
        r.engine.newFlowsShed ≤ r'.engine.newFlowsShed ∧ r.flowsLostToPanics ≤ r'.flowsLostToPanics := by
  obtain ⟨r, hrun, hbalanced, honward⟩ :=
    (Balanced.init config protectedNetwork maxPendingCompleted maxPendingNewFlows).run calls
  refine ⟨r, hrun, ?_, ?_, ?_, ?_, fun later => ?_⟩
  · have hflows := hbalanced.flows
    unfold Engine.outputs at hflows
    omega
  · have hsignals := hbalanced.signals
    unfold Engine.signals at hsignals
    omega
  · exact fun limit hlimit => hbalanced.sound.completed limit (honward.maxCompleted.symm ▸ hlimit)
  · exact fun limit hlimit => hbalanced.sound.newFlows limit (honward.maxNewFlows.symm ▸ hlimit)
  · obtain ⟨r', hrun', -, honward'⟩ := hbalanced.run later
    exact ⟨r', hrun', honward'.completed, honward'.newFlows, honward'.lost⟩

end EngineRun

end Pirewall.Native
