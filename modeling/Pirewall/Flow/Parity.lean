/-
# Pirewall.Flow.Parity -- the native engine is the Python aggregator

Two implementations of one flow layer, run on the same calls. `SameTable` relates the two tables in their
least-recently-used order; each call keeps the relation and gives the same answer, by the table lemmas of `LruTable`.
By induction over the calls the two answer alike for good, and the engine never panics.

What the engine hands over at a `drain` the aggregator returns packet by packet, so the Python side is run with a list
of what it returned since the last drain, as the parity test does.

The two do not keep the same numbers. The engine stores a time difference in microseconds and makes seconds of it when
they are needed, `delta as f64 / 1e6`; the aggregator takes `total_seconds()` of a `timedelta`, which adds up days,
seconds and microseconds first. `ReadAlike` says of a difference that both come to the same double, and the relation
of two open flows asks it of every gap between packets that was counted. A gap on which they do not agree leaves
different sums in the two accumulators, so the flows that are handed out agree exactly as long as there is none.

A packet is followed through the engine in four steps, in the order of `process`: the flow is found or opened, which
may evict another; the packet is counted; the flow is closed if it ended; and what was closed or opened goes to the
pending lists (`FollowsPacket`). A sweep goes through a list of keys that is made before anything is removed.
-/
import Mathlib.Data.List.Forall2
import Pirewall.Flow.Correspondence
import Pirewall.Lib.Run

namespace Pirewall

open Lib

/-! ## Tables -/

/-- An entry of either table. -/
def SameEntry (e : Native.FlowKey × Native.FlowState) (e' : FlowKey × FlowState) : Prop :=
  SameKey e.1 e'.1 ∧ SameFlow e.2 e'.2

/-- The engine's table holds the flows of the aggregator's, in the same order. -/
def SameTable (t : Native.LruTable Native.FlowKey Native.FlowState) (t' : FlowTable) : Prop :=
  t.max = t'.maxFlows ∧ ∃ entries, t.Holds entries ∧ List.Forall₂ SameEntry entries t'.flows.entries

section Entries

variable {es : List (Native.FlowKey × Native.FlowState)} {es' : List (FlowKey × FlowState)}
  {k : Native.FlowKey} {k' : FlowKey}

/-- A key is in both tables or in none, with the same flow. -/
theorem SameEntry.lookup (h : List.Forall₂ SameEntry es es') (hk : SameKey k k') :
    (es.lookup k = none ∧ es'.lookup k' = none) ∨
      ∃ r s, es.lookup k = some r ∧ es'.lookup k' = some s ∧ SameFlow r s := by
  induction h with
  | nil => exact .inl ⟨rfl, rfl⟩
  | @cons e e' _ _ he _ ih =>
    have hiff := hk.eq_iff he.1
    rw [List.lookup_cons, List.lookup_cons]
    by_cases hkey : k = e.1
    · have hkey' := hiff.mp hkey
      rw [hkey, hkey', beq_self_eq_true, beq_self_eq_true]
      exact .inr ⟨e.2, e'.2, rfl, rfl, he.2⟩
    · have hkey' : k' ≠ e'.1 := fun heq => hkey (hiff.mpr heq)
      rw [beq_eq_false_iff_ne.mpr hkey, beq_eq_false_iff_ne.mpr hkey']
      exact ih

/-- Both tables without a key. -/
theorem SameEntry.filter (h : List.Forall₂ SameEntry es es') (hk : SameKey k k') :
    List.Forall₂ SameEntry (es.filter fun e => decide (e.1 ≠ k)) (es'.filter fun e => decide (e.1 ≠ k')) := by
  refine List.rel_filter ?_ h
  intro e e' he
  simp only [ne_eq, decide_eq_true_eq]
  exact not_congr (he.1.eq_iff hk)

end Entries

/-- `pop` of a key that is there, on either side. -/
theorem SameTable.pop {t : Native.LruTable Native.FlowKey Native.FlowState} {t' : FlowTable}
    (h : SameTable t t') {k : Native.FlowKey} {k' : FlowKey} (hk : SameKey k k') {s : FlowState}
    (hs : t'.flows.get? k' = some s) :
    ∃ r u, t.pop k = some (some r, u) ∧ SameFlow r s ∧ SameTable u (t'.pop k') := by
  obtain ⟨hmax, entries, hholds, hsame⟩ := h
  rcases SameEntry.lookup hsame hk with ⟨_, hnone⟩ | ⟨r, s', hr, hs', hrs⟩
  · exact absurd (hnone.symm.trans hs) (by simp)
  obtain rfl : s' = s := Option.some.inj (hs'.symm.trans hs)
  obtain ⟨u, hpop, hmax', hholds'⟩ := Native.LruTable.pop_some hholds hr
  exact ⟨r, u, hpop, hrs, hmax'.trans hmax, _, hholds', SameEntry.filter hsame hk⟩

/-- Both tables are read oldest first. -/
theorem SameTable.openNodes {t : Native.LruTable Native.FlowKey Native.FlowState} {t' : FlowTable}
    (h : SameTable t t') : ∃ nodes, t.openNodes = some nodes ∧
      List.Forall₂ (fun n e => SameEntry (n.key, n.state) e) nodes t'.flows.entries := by
  obtain ⟨_, entries, hholds, hsame⟩ := h
  obtain ⟨nodes, hnodes, rfl⟩ := Native.LruTable.openNodes_spec hholds
  exact ⟨nodes, hnodes, List.forall₂_map_left_iff.mp hsame⟩

/-! ## The calls -/

/-- A call of the flow layer. -/
inductive FlowCall where
  | packet (frame : ParsedFrame)
  | sweep (now : DateTime)
  | flush
  | drain
  | slowClusters (now : DateTime) (query : SlowQuery)

/-- What a call returns. -/
inductive FlowReply where
  | quiet
  | flows (flows : List Flow)
  | batch (completed : List Flow) (newFlows : List NewFlowSignal)
  | clusters (clusters : List SlowConnectionCluster)
  deriving DecidableEq

/-- The aggregator, with what it returned for packets since the last drain. -/
structure PythonPath where
  aggregator : FlowAggregator
  completed : List Flow
  signals : List NewFlowSignal

namespace PythonPath

def init (config : FlowConfig) (protectedNetwork : Option IPv4Network) : PythonPath :=
  ⟨.init config protectedNetwork, [], []⟩

/-- One call on the Python side. -/
def step (p : PythonPath) : FlowCall → FlowReply × PythonPath
  | .packet frame =>
    let (emitted, signals, aggregator) := p.aggregator.processPacket frame.metadata
    (.quiet, ⟨aggregator, p.completed ++ emitted, p.signals ++ signals⟩)
  | .sweep now =>
    let (emitted, aggregator) := p.aggregator.sweepTimeouts now
    (.flows emitted, { p with aggregator })
  | .flush =>
    let (emitted, aggregator) := p.aggregator.flush
    (.flows emitted, { p with aggregator })
  | .drain => (.batch p.completed p.signals, { p with completed := [], signals := [] })
  | .slowClusters now query => (.clusters (p.aggregator.snapshotSlowConnectionClusters now query), p)

/-- A run: the replies in order, and where it ends. -/
def replies (p : PythonPath) : List FlowCall → List FlowReply × PythonPath
  | [] => ([], p)
  | call :: rest =>
    let (reply, p) := p.step call
    let (more, p) := p.replies rest
    (reply :: more, p)

/-- The open flows, least recently used first. -/
def openFlows (p : PythonPath) : List Flow := p.aggregator.table.flows.values.map FlowState.toFlow

end PythonPath

/-! ## The clocks of a call -/

namespace FlowAggregator

variable (a : FlowAggregator)

/-- The differences of clocks that a packet makes seconds of: the gap before it in its flow, and what closing the flow
depends on. -/
def packetGaps (packet : PacketMetadata) : List Int :=
  match packet.network with
  | .ipv6 _ _ => []
  | .ipv4 sourceIp destinationIp =>
    if !isRoutableUnicast sourceIp a.protectedNetwork || !isRoutableUnicast destinationIp a.protectedNetwork
    then []
    else
      let key := computeFlowKey sourceIp destinationIp packet.sourcePort packet.destinationPort
        packet.protocol
      let observed := match a.table.flows.get? key with
        | none => []
        | some state => state.observeGaps packet.timestamp
      observed ++ (a.route packet sourceIp destinationIp key).2.2.1.closureGaps packet.timestamp
        a.activeTimeoutSeconds

/-- Those of a sweep, over all open flows. -/
def sweepGaps (now : DateTime) : List Int :=
  a.table.flows.values.flatMap fun state => state.closureGaps now a.activeTimeoutSeconds

/-- Those of a query for slow connections. -/
def slowGaps (now : DateTime) (query : SlowQuery) : List Int :=
  a.table.flows.values.flatMap fun state => state.slowGaps now query

end FlowAggregator

namespace PythonPath

/-- The differences of clocks that a call makes seconds of. -/
def gaps (p : PythonPath) : FlowCall → List Int
  | .packet frame => p.aggregator.packetGaps frame.metadata
  | .sweep now => p.aggregator.sweepGaps now
  | .slowClusters now query => p.aggregator.slowGaps now query
  | .flush | .drain => []

/-- Both engines read the clocks of the call alike. -/
def ReadsAlike (p : PythonPath) (call : FlowCall) : Prop := ∀ deltaUs ∈ p.gaps call, ReadAlike deltaUs

/-- Calls that take no difference of more than 285 years do. -/
theorem readsAlike_of_le {p : PythonPath} {call : FlowCall} (h : ∀ deltaUs ∈ p.gaps call, |deltaUs| ≤ 2 ^ 53) :
    p.ReadsAlike call := fun deltaUs hdelta => readAlike_of_le (h deltaUs hdelta)

/-- A call as a step of a run. -/
def advance (p : PythonPath) (call : FlowCall) : PythonPath := (p.step call).2

end PythonPath

namespace Native.Engine

/-- One call on the native side, through the wrapper; `none` is a panic or a record that does not
validate. -/
def step (e : Engine) : FlowCall → Option (FlowReply × Engine)
  | .packet frame => (e.feed frame.packet).map fun e => (.quiet, e)
  | .sweep now => do
      let (states, e) ← e.sweep now.toMicroseconds
      let flows ← states.mapM flowOfState
      some (.flows flows, e)
  | .flush => do
      let (states, e) ← e.flush
      let flows ← states.mapM flowOfState
      some (.flows flows, e)
  | .drain => do
      let ((states, newFlows), e) := e.drain
      let flows ← states.mapM flowOfState
      let signals ← newFlows.mapM signalOfNewFlow
      some (.batch flows signals, e)
  | .slowClusters now query => do
      let slow ← e.slowClusters now.toMicroseconds query
      let clusters ← slow.mapM clusterOfSlow
      some (.clusters clusters, e)

def replies (e : Engine) : List FlowCall → Option (List FlowReply × Engine)
  | [] => some ([], e)
  | call :: rest => do
      let (reply, e) ← e.step call
      let (more, e) ← e.replies rest
      some (reply :: more, e)

/-- The open flows, least recently used first. -/
def openFlows (e : Engine) : Option (List Flow) := do
  (← e.table.openNodes).mapM fun node => flowOfState node.state

end Native.Engine

/-! ## What the engine keeps beside its table -/

/-- The engine hands over readable records, and the Python side's results as long as it sheds nothing. -/
structure SamePending (e : Native.Engine) (completed : List Flow) (signals : List NewFlowSignal) : Prop where
  readable : ∃ flows, List.Forall₂ (fun r flow => Native.flowOfState r = some flow) e.completed flows
  readableSignals :
    ∃ signals, List.Forall₂ (fun n signal => Native.signalOfNewFlow n = some signal) e.newFlows signals
  completed : e.completedShed = 0 →
    List.Forall₂ (fun r flow => Native.flowOfState r = some flow) e.completed completed
  signals : e.newFlowsShed = 0 →
    List.Forall₂ (fun n signal => Native.signalOfNewFlow n = some signal) e.newFlows signals

/-- Settings stay, and what was shed stays shed. -/
structure Native.Engine.Onward (e e' : Native.Engine) : Prop where
  active : e'.activeS = e.activeS
  inactive : e'.inactiveS = e.inactiveS
  protectedNetwork : e'.protectedNetwork = e.protectedNetwork
  completedShed : e.completedShed ≤ e'.completedShed
  newFlowsShed : e.newFlowsShed ≤ e'.newFlowsShed

theorem Native.Engine.Onward.refl (e : Native.Engine) : e.Onward e :=
  ⟨rfl, rfl, rfl, le_refl _, le_refl _⟩

theorem Native.Engine.Onward.trans {e e' e'' : Native.Engine} (h : e.Onward e') (h' : e'.Onward e'') :
    e.Onward e'' :=
  ⟨h'.active.trans h.active, h'.inactive.trans h.inactive, h'.protectedNetwork.trans h.protectedNetwork,
    h.completedShed.trans h'.completedShed, h.newFlowsShed.trans h'.newFlowsShed⟩

section Pending

variable {e : Native.Engine} {completed : List Flow} {signals : List NewFlowSignal}

theorem Native.Engine.onward_table (table : Native.LruTable Native.FlowKey Native.FlowState) :
    e.Onward { e with table } := ⟨rfl, rfl, rfl, le_refl _, le_refl _⟩

theorem SamePending.table (h : SamePending e completed signals)
    (table : Native.LruTable Native.FlowKey Native.FlowState) :
    SamePending { e with table } completed signals :=
  ⟨h.readable, h.readableSignals, h.completed, h.signals⟩

theorem forall₂_concat {α β : Type} {R : α → β → Prop} {l : List α} {l' : List β} {a : α} {b : β}
    (h : List.Forall₂ R l l') (hab : R a b) : List.Forall₂ R (l ++ [a]) (l' ++ [b]) :=
  List.rel_append h (.cons hab .nil)

/-- What the related elements of a list have by themselves. -/
theorem forall₂_and_mem {α β : Type} {R : α → β → Prop} {P : β → Prop} {l : List α} {l' : List β}
    (h : List.Forall₂ R l l') (hP : ∀ b ∈ l', P b) : List.Forall₂ (fun a b => R a b ∧ P b) l l' := by
  induction h with
  | nil => exact .nil
  | @cons a b l l' hab _ ih =>
    exact .cons ⟨hab, hP b List.mem_cons_self⟩ (ih fun b' hb' => hP b' (List.mem_cons_of_mem b hb'))

/-- `push_completed`. -/
theorem SamePending.pushCompleted (h : SamePending e completed signals) {r : Native.FlowState}
    {s : FlowState} (hsame : SameFlow r s) :
    SamePending (e.pushCompleted r) (completed ++ [s.toFlow]) signals ∧ e.Onward (e.pushCompleted r) ∧
      (e.pushCompleted r).table = e.table := by
  unfold Native.Engine.pushCompleted
  split
  · obtain ⟨flows, hflows⟩ := h.readable
    exact ⟨⟨⟨_, forall₂_concat hflows hsame.flow⟩, h.readableSignals,
      fun hshed => forall₂_concat (h.completed hshed) hsame.flow, h.signals⟩,
      ⟨rfl, rfl, rfl, le_refl _, le_refl _⟩, rfl⟩
  · exact ⟨⟨h.readable, h.readableSignals, fun hshed => absurd hshed (Nat.succ_ne_zero _), h.signals⟩,
      ⟨rfl, rfl, rfl, Nat.le_succ _, le_refl _⟩, rfl⟩

theorem SamePending.pushEvicted (h : SamePending e completed signals) {evicted : Option Native.FlowState}
    {evicted' : Option FlowState} (hsame : Option.Rel SameFlow evicted evicted') :
    SamePending (e.pushEvicted evicted) (completed ++ evicted'.toList.map FlowState.toFlow) signals ∧
      e.Onward (e.pushEvicted evicted) ∧ (e.pushEvicted evicted).table = e.table := by
  cases hsame with
  | none => exact ⟨by rw [Option.toList_none, List.map_nil, List.append_nil]; exact h, .refl e, rfl⟩
  | some hflow => exact h.pushCompleted hflow

/-- The signal for a flow that opens. -/
theorem SamePending.pushNewFlow (h : SamePending e completed signals) {frame : ParsedFrame}
    {source destination : IPv4Address} (hnet : frame.network = .ipv4 source destination) :
    SamePending (e.pushNewFlow frame.packet) completed
        (signals ++ [FlowAggregator.newFlowSignal frame.metadata source destination]) ∧
      e.Onward (e.pushNewFlow frame.packet) ∧ (e.pushNewFlow frame.packet).table = e.table := by
  have hsignal : Native.signalOfNewFlow ⟨frame.packet.src, frame.packet.dst, frame.packet.srcMac,
      frame.packet.dstMac, frame.packet.dport, frame.packet.proto, frame.packet.tsUs⟩ =
      some (FlowAggregator.newFlowSignal frame.metadata source destination) := by
    have hprotocol : Native.protocolOfValue (Native.Proto.asStr frame.proto) = some frame.proto.protocol := by
      cases frame.proto <;> rfl
    simp only [Native.signalOfNewFlow, ParsedFrame.packet, hnet, hprotocol, DateTime.toMicroseconds,
      DateTime.fromMicroseconds_us, Option.bind_eq_bind, Option.bind_some]
    rfl
  unfold Native.Engine.pushNewFlow
  split
  · obtain ⟨signals', hsignals⟩ := h.readableSignals
    exact ⟨⟨h.readable, ⟨_, forall₂_concat hsignals hsignal⟩, h.completed,
      fun hshed => forall₂_concat (h.signals hshed) hsignal⟩, ⟨rfl, rfl, rfl, le_refl _, le_refl _⟩, rfl⟩
  · exact ⟨⟨h.readable, h.readableSignals, h.completed, fun hshed => absurd hshed (Nat.succ_ne_zero _)⟩,
      ⟨rfl, rfl, rfl, le_refl _, Nat.le_succ _⟩, rfl⟩

end Pending

/-! ## One packet -/

section Packet

variable {e : Native.Engine} {a : FlowAggregator} {completed : List Flow} {signals : List NewFlowSignal}
  {frame : ParsedFrame} {source destination : IPv4Address}

/-- The two sides under the same settings. -/
structure SameSettings (e : Native.Engine) (a : FlowAggregator) : Prop where
  room : 0 < a.table.maxFlows
  active : e.activeS = a.activeTimeoutSeconds
  inactive : e.inactiveS = a.inactiveTimeoutSeconds
  protectedNetwork : e.protectedNetwork = a.protectedNetwork.map fun n => (n.networkAddress, n.prefixlen)

theorem SameSettings.onward (h : SameSettings e a) {e' : Native.Engine} (ho : e.Onward e')
    {table : FlowTable} (hmax : table.maxFlows = a.table.maxFlows) :
    SameSettings e' { a with table } :=
  ⟨hmax ▸ h.room, ho.active.trans h.active, ho.inactive.trans h.inactive,
    ho.protectedNetwork.trans h.protectedNetwork⟩

/-- The engine stands where the aggregator does after a packet of the flow `k'`. -/
structure FollowsPacket (e : Native.Engine) (a : FlowAggregator) (completed : List Flow)
    (signals : List NewFlowSignal) (routed : List Flow × List NewFlowSignal × FlowState × FlowTable)
    (k' : FlowKey) (now : DateTime) : Prop where
  table : SameTable e.table (a.settle routed.2.2.2 k' routed.2.2.1 now).2.table
  room : routed.2.2.2.maxFlows = a.table.maxFlows
  pending : SamePending e (completed ++ (routed.1 ++ (a.settle routed.2.2.2 k' routed.2.2.1 now).1))
    (signals ++ routed.2.1)

theorem FollowsPacket.settings {e' : Native.Engine} {routed : List Flow × List NewFlowSignal × FlowState × FlowTable}
    {k' : FlowKey} {now : DateTime} (h : FollowsPacket e' a completed signals routed k' now)
    (hset : SameSettings e a) (honward : e.Onward e') :
    SameSettings e' (a.settle routed.2.2.2 k' routed.2.2.1 now).2 := by
  unfold FlowAggregator.settle
  split
  · exact hset.onward honward h.room
  · exact hset.onward honward h.room

/-- The end of a packet: the flow that closes is the same. -/
theorem closeIf_settle (hset : SameSettings e a) {table : FlowTable} (htable : SameTable e.table table)
    (hpending : SamePending e completed signals) {k : Native.FlowKey} {k' : FlowKey} (hk : SameKey k k')
    {r : Native.FlowState} {s : FlowState} (hrs : SameFlow r s) (hs : table.flows.get? k' = some s)
    (now : DateTime) (hgaps : ∀ deltaUs ∈ s.closureGaps now a.activeTimeoutSeconds, ReadAlike deltaUs) :
    ∃ e', e.closeIf k (r.shouldClose now.us e.activeS e.inactiveS) = some e' ∧ e.Onward e' ∧
      SameTable e'.table (a.settle table k' s now).2.table ∧
      SamePending e' (completed ++ (a.settle table k' s now).1) signals := by
  have hclose : r.shouldClose now.us e.activeS e.inactiveS = a.closes s now := by
    rw [hset.active, hset.inactive]
    exact hrs.shouldClose a now hgaps
  rw [hclose, Native.Engine.closeIf, FlowAggregator.settle]
  cases a.closes s now with
  | false => exact ⟨e, rfl, .refl e, htable, by simpa using hpending⟩
  | true =>
    obtain ⟨r', t', hpop, hrs', hsame⟩ := htable.pop hk hs
    obtain ⟨hpending', honward, htable'⟩ := (hpending.table t').pushEvicted (.some hrs')
    refine ⟨_, by rw [if_pos rfl, hpop]; rfl, (Native.Engine.onward_table t').trans honward, ?_, hpending'⟩
    rw [htable']
    exact hsame

/-- A packet of an open flow. -/
theorem feedKnown_spec (hset : SameSettings e a) (htable : SameTable e.table a.table)
    (hpending : SamePending e completed signals) (hnet : frame.network = .ipv4 source destination)
    {k : Native.FlowKey} {k' : FlowKey} (hk : SameKey k k') {s : FlowState}
    (hs : a.table.flows.get? k' = some s)
    (hgap : ∀ deltaUs ∈ s.observeGaps frame.timestamp, ReadAlike deltaUs)
    (hgaps : ∀ deltaUs ∈ (a.route frame.metadata source destination k').2.2.1.closureGaps frame.timestamp
      a.activeTimeoutSeconds, ReadAlike deltaUs) :
    ∃ slot t e', e.table.getMut k = some (some slot, t) ∧
      Native.Engine.feedKnown { e with table := t } frame.packet k slot = some e' ∧ e.Onward e' ∧
      FollowsPacket e' a completed signals (a.route frame.metadata source destination k') k'
        frame.timestamp := by
  obtain ⟨hmax, entries, hholds, hsame⟩ := htable
  rcases SameEntry.lookup hsame hk with ⟨_, hnone⟩ | ⟨r, s', hr, hs', hrs⟩
  · exact absurd (hnone.symm.trans hs) (by simp)
  obtain rfl : s' = s := Option.some.inj (hs'.symm.trans hs)
  obtain ⟨slot, n, t, hget, hnode, rfl, hassign⟩ := Native.LruTable.getMut_some hholds hr
  obtain ⟨t', hmodify, hmax', hholds'⟩ := hassign (n.state.observe frame.packet)
  have hobserve := hrs.observe hnet hgap
  -- the Python table after the same packet
  have hroute : a.route frame.metadata source destination k' = ([], [], s'.observe frame.metadata,
      { a.table with flows := (a.table.flows.moveToEnd k').set k' (s'.observe frame.metadata) }) := by
    simp only [FlowAggregator.route, FlowTable.get, hs]
  have htable' : SameTable t'
      { a.table with flows := (a.table.flows.moveToEnd k').set k' (s'.observe frame.metadata) } := by
    refine ⟨hmax'.trans hmax, _, hholds', ?_⟩
    rw [Dict.entries_set_moveToEnd hs]
    exact forall₂_concat (SameEntry.filter hsame hk) ⟨hk, hobserve⟩
  have hset' : SameSettings { e with table := t' } a :=
    ⟨hset.room, hset.active, hset.inactive, hset.protectedNetwork⟩
  obtain ⟨e', hclose, honward, hsame', hpending'⟩ := closeIf_settle hset' htable' (hpending.table t') hk
    hobserve (by simp) frame.timestamp (by rw [hroute] at hgaps; exact hgaps)
  refine ⟨slot, t, e', hget, ?_, (Native.Engine.onward_table t').trans honward, ?_⟩
  · simp only [Native.Engine.feedKnown, hnode, hmodify, Option.bind_eq_bind, Option.bind_some]
    exact hclose
  · rw [hroute]
    exact ⟨hsame', rfl, by rw [List.nil_append, List.append_nil]; exact hpending'⟩

/-- `insert`, on either side. -/
theorem insert_spec {t : Native.LruTable Native.FlowKey Native.FlowState} {t' : FlowTable}
    (htable : SameTable t t') (hroom : 0 < t'.maxFlows) {k : Native.FlowKey} {k' : FlowKey}
    (hk : SameKey k k') (hnew : t'.flows.get? k' = none) {r : Native.FlowState} {s : FlowState}
    (hrs : SameFlow r s) :
    ∃ evicted u, t.insert k r = some (evicted, u) ∧ SameTable u (t'.insert k' s).2 ∧
      (t'.insert k' s).2.maxFlows = t'.maxFlows ∧ (t'.insert k' s).2.flows.get? k' = some s ∧
      Option.Rel SameFlow evicted (t'.insert k' s).1 := by
  obtain ⟨hmax, entries, hholds, hsame⟩ := htable
  have hlookup : entries.lookup k = none := by
    rcases SameEntry.lookup hsame hk with ⟨hnone, _⟩ | ⟨_, s', _, hs', _⟩
    · exact hnone
    · exact absurd (hs'.symm.trans hnew) (by simp)
  have hlength := hsame.length_eq
  unfold FlowTable.insert
  split
  · rename_i hfull
    cases hentries : t'.flows.entries with
    | nil =>
      rw [Dict.size, hentries] at hfull
      exact absurd hroom (by simpa using hfull)
    | cons oldest' rest' =>
      rw [hentries] at hsame
      cases hsame with
      | @cons oldest _ rest _ hold hrest =>
        obtain ⟨u, hinsert, hmaxu, hholdsu⟩ := Native.LruTable.insert_full hholds hlookup r (by
          rw [hmax, hlength]
          exact hfull)
        have hgone : t'.flows.popFirst.get? k' = none := by
          refine Dict.get?_eq_none_iff.mpr fun hmem => Dict.get?_eq_none_iff.mp hnew ?_
          exact ((List.tail_sublist t'.flows.entries).map Prod.fst).subset hmem
        refine ⟨some oldest.2, u, hinsert, ⟨hmaxu.trans hmax, _, hholdsu, ?_⟩, rfl, by simp, ?_⟩
        · rw [Dict.entries_set_of_none hgone]
          show List.Forall₂ SameEntry (rest ++ [(k, r)]) (t'.flows.entries.tail ++ [(k', s)])
          rw [hentries]
          exact forall₂_concat hrest ⟨hk, hrs⟩
        · rw [Dict.values, hentries]
          exact .some hold.2
  · rename_i hbelow
    obtain ⟨u, hinsert, hmaxu, hholdsu⟩ := Native.LruTable.insert_below hholds hlookup r (by
      rw [hmax, hlength]
      exact not_le.mp hbelow)
    refine ⟨none, u, hinsert, ⟨hmaxu.trans hmax, _, hholdsu, ?_⟩, rfl, by simp, .none⟩
    rw [Dict.entries_set_of_none hnew]
    exact forall₂_concat hsame ⟨hk, hrs⟩

/-- A packet that opens a flow. -/
theorem feedNew_spec (hset : SameSettings e a) (htable : SameTable e.table a.table)
    (hpending : SamePending e completed signals) (hnet : frame.network = .ipv4 source destination)
    {k : Native.FlowKey} {k' : FlowKey} (hk : SameKey k k') (hnew : a.table.flows.get? k' = none)
    (hgaps : ∀ deltaUs ∈ (a.route frame.metadata source destination k').2.2.1.closureGaps frame.timestamp
      a.activeTimeoutSeconds, ReadAlike deltaUs) :
    ∃ e', e.feedNew frame.packet k = some e' ∧ e.Onward e' ∧
      FollowsPacket e' a completed signals (a.route frame.metadata source destination k') k'
        frame.timestamp := by
  have hopening := SameFlow.opening k' hnet
  -- the signal
  obtain ⟨e₁, heq₁, honward₁, htable₁, hpending₁⟩ : ∃ e₁,
      (if (Native.FlowState.opening frame.packet).initiated then e.pushNewFlow frame.packet else e) = e₁ ∧
      e.Onward e₁ ∧ e₁.table = e.table ∧ SamePending e₁ completed (signals ++
        if (FlowState.opening k' frame.metadata source destination).initiated then
          [FlowAggregator.newFlowSignal frame.metadata source destination] else []) := by
    rw [← hopening.initiated]
    cases (Native.FlowState.opening frame.packet).initiated with
    | true =>
      obtain ⟨hpush, honward, htab⟩ := hpending.pushNewFlow hnet
      exact ⟨_, rfl, honward, htab, hpush⟩
    | false => exact ⟨_, rfl, .refl e, rfl, by simpa using hpending⟩
  -- the table, and the flow it may evict
  obtain ⟨evicted, u, hinsert, hsame, hmax, hfound, hevicted⟩ :=
    insert_spec htable hset.room hk hnew hopening
  obtain ⟨hpending₂, honward₂, htable₂⟩ := (hpending₁.table u).pushEvicted hevicted
  have honward := honward₁.trans ((Native.Engine.onward_table u).trans honward₂)
  have hset₂ : SameSettings _ a := ⟨hset.room, honward.active.trans hset.active,
    honward.inactive.trans hset.inactive, honward.protectedNetwork.trans hset.protectedNetwork⟩
  have hroute : a.route frame.metadata source destination k' =
      ((a.table.insert k' (FlowState.opening k' frame.metadata source destination)).1.toList.map
        FlowState.toFlow,
      if (FlowState.opening k' frame.metadata source destination).initiated then
        [FlowAggregator.newFlowSignal frame.metadata source destination] else [],
      FlowState.opening k' frame.metadata source destination,
      (a.table.insert k' (FlowState.opening k' frame.metadata source destination)).2) := by
    simp only [FlowAggregator.route, FlowTable.get, hnew]
  -- the closure
  obtain ⟨e', hclose, honward', hsame', hpending'⟩ := closeIf_settle hset₂ (htable₂.symm ▸ hsame) hpending₂ hk
    hopening hfound frame.timestamp (by rw [hroute] at hgaps; exact hgaps)
  refine ⟨e', ?_, honward.trans honward', ?_⟩
  · simp only [Native.Engine.feedNew, heq₁, htable₁, hinsert, Option.bind_eq_bind, Option.bind_some]
    rw [honward₂.active, honward₂.inactive] at hclose
    exact hclose
  · rw [hroute]
    exact ⟨hsame', hmax, by rw [← List.append_assoc]; exact hpending'⟩

/-- A packet, on either side, where its clocks are read alike. -/
theorem feed_spec (hset : SameSettings e a) (htable : SameTable e.table a.table)
    (hpending : SamePending e completed signals) (frame : ParsedFrame)
    (hgaps : ∀ deltaUs ∈ a.packetGaps frame.metadata, ReadAlike deltaUs) :
    ∃ e', e.feed frame.packet = some e' ∧ e.Onward e' ∧
      SameSettings e' (a.processPacket frame.metadata).2.2 ∧
      SameTable e'.table (a.processPacket frame.metadata).2.2.table ∧
      SamePending e' (completed ++ (a.processPacket frame.metadata).1)
        (signals ++ (a.processPacket frame.metadata).2.1) := by
  -- a packet that neither side accepts
  have hnothing : a.processPacket frame.metadata = ([], [], a) → ∃ e', some e = some e' ∧ e.Onward e' ∧
      SameSettings e' (a.processPacket frame.metadata).2.2 ∧
      SameTable e'.table (a.processPacket frame.metadata).2.2.table ∧
      SamePending e' (completed ++ (a.processPacket frame.metadata).1)
        (signals ++ (a.processPacket frame.metadata).2.1) := by
    intro heq
    rw [heq]
    exact ⟨e, rfl, .refl e, hset, htable, by simpa using hpending⟩
  have hroutable := fun address => routable_eq hset.protectedNetwork address
  cases hnet : frame.network with
  | ipv6 source destination =>
    have hfeed : e.feed frame.packet = some e := by
      simp [Native.Engine.feed, ParsedFrame.packet, hnet]
    rw [hfeed]
    exact hnothing (by simp only [FlowAggregator.processPacket, ParsedFrame.metadata, hnet])
  | ipv4 source destination =>
    have hnet' : frame.metadata.network = .ipv4 source destination := hnet
    -- of an accepted one, both sides read the same addresses and ports
    have hsrc : frame.packet.src = source := by simp only [ParsedFrame.packet, hnet]
    have hdst : frame.packet.dst = destination := by simp only [ParsedFrame.packet, hnet]
    have hipv4 : frame.packet.ipv4 = true := by simp only [ParsedFrame.packet, hnet]
    have hk := sameKey source destination frame.sourcePort frame.destinationPort frame.proto
    simp only [Native.Engine.feed, FlowAggregator.processPacket, hnet', hsrc, hdst, hipv4, hroutable,
      Bool.not_true, Bool.false_or]
    simp only [FlowAggregator.packetGaps, hnet'] at hgaps
    split
    · exact ⟨e, rfl, .refl e, hset, htable, by simpa using hpending⟩
    · -- both look the key up; a hit and a miss are the two cases above
      rename_i hguard
      rw [if_neg hguard, List.forall_mem_append] at hgaps
      obtain ⟨hgap, hclosure⟩ := hgaps
      cases hget : a.table.flows.get? (computeFlowKey source destination frame.sourcePort
          frame.destinationPort frame.proto.protocol) with
      | some s =>
        have hgap' : ∀ deltaUs ∈ s.observeGaps frame.timestamp, ReadAlike deltaUs := by
          simp only [ParsedFrame.metadata, hget] at hgap
          exact hgap
        obtain ⟨slot, t, e', hmut, hfeed, honward, hfollows⟩ :=
          feedKnown_spec hset htable hpending hnet hk hget hgap' hclosure
        refine ⟨e', ?_, honward, hfollows.settings hset honward, hfollows.table, hfollows.pending⟩
        simp only [ParsedFrame.packet] at hmut hfeed ⊢
        simp only [hmut, Option.bind_eq_bind, Option.bind_some]
        exact hfeed
      | none =>
        obtain ⟨e', hfeed, honward, hfollows⟩ := feedNew_spec hset htable hpending hnet hk hget hclosure
        obtain ⟨_, entries, hholds, hsame⟩ := htable
        have hlookup : entries.lookup (Native.flowKey source destination frame.sourcePort
            frame.destinationPort frame.proto) = none := by
          rcases SameEntry.lookup hsame hk with ⟨hnone, _⟩ | ⟨_, s, _, hs, _⟩
          · exact hnone
          · exact absurd (hs.symm.trans hget) (by simp)
        -- the key is in neither table
        have hmut := Native.LruTable.getMut_none hholds hlookup
        refine ⟨e', ?_, honward, hfollows.settings hset honward, hfollows.table, hfollows.pending⟩
        simp only [ParsedFrame.packet] at hfeed ⊢
        simp only [hmut, Option.bind_eq_bind, Option.bind_some]
        exact hfeed

end Packet

/-! ## Sweep and flush -/

/-- The flows a sweep closes. -/
def FlowAggregator.closing (a : FlowAggregator) (now : DateTime) : List (FlowKey × FlowState) :=
  a.table.flows.entries.filter fun e => a.closes e.2 now

/-- The table without the flows of `entries`. -/
def FlowTable.popAll (table : FlowTable) (entries : List (FlowKey × FlowState)) : FlowTable :=
  entries.foldl (fun table e => table.pop e.1) table

theorem FlowTable.popAll_maxFlows (entries : List (FlowKey × FlowState)) (table : FlowTable) :
    (table.popAll entries).maxFlows = table.maxFlows := by
  induction entries generalizing table with
  | nil => rfl
  | cons e entries ih => exact ih (table.pop e.1)

/-- The loop of `sweep_timeouts`: the flows that close, and the table without them. -/
theorem foldl_sweepFlow (a : FlowAggregator) (now : DateTime) (entries : List (FlowKey × FlowState))
    (swept : List Flow × FlowAggregator) :
    entries.foldl (a.sweepFlow now) swept =
      (swept.1 ++ (entries.filter fun e => a.closes e.2 now).map (fun e => e.2.toFlow),
        { swept.2 with table := swept.2.table.popAll (entries.filter fun e => a.closes e.2 now) }) := by
  induction entries generalizing swept with
  | nil => simp [FlowTable.popAll]
  | cons e entries ih =>
    rw [List.foldl_cons, ih, List.filter_cons, FlowAggregator.sweepFlow]
    cases a.closes e.2 now with
    | true =>
      simp only [if_true, List.map_cons, List.append_assoc, List.singleton_append]
      rfl
    | false => simp only [Bool.false_eq_true, if_false]

/-- A sweep takes out what is closing and hands it out. -/
theorem sweepTimeouts_eq (a : FlowAggregator) (now : DateTime) :
    a.sweepTimeouts now = ((a.closing now).map fun e => e.2.toFlow,
      { a with table := a.table.popAll (a.closing now) }) :=
  foldl_sweepFlow a now a.table.flows.entries ([], a)

/-- Popping the same keys one after the other. -/
theorem popAll_spec {closing : List (Native.Node Native.FlowKey Native.FlowState)}
    {closing' : List (FlowKey × FlowState)}
    (h : List.Forall₂ (fun n e => SameEntry (n.key, n.state) e) closing closing')
    {t : Native.LruTable Native.FlowKey Native.FlowState} {t' : FlowTable} (htable : SameTable t t')
    (hthere : ∀ e ∈ closing', t'.flows.get? e.1 = some e.2) (hnodup : (closing'.map Prod.fst).Nodup) :
    ∃ states u, Native.Engine.popAll t (closing.map Native.Node.key) = some (states, u) ∧
      List.Forall₂ SameFlow states (closing'.map Prod.snd) ∧
      SameTable u (t'.popAll closing') := by
  induction h generalizing t t' with
  | nil => exact ⟨[], t, rfl, .nil, htable⟩
  | @cons n e closing closing' hne _ ih =>
    rw [List.map_cons, List.nodup_cons] at hnodup
    obtain ⟨r, u, hpop, hrs, hu⟩ := htable.pop hne.1 (hthere e List.mem_cons_self)
    obtain ⟨states, u', hrest, hsame, hu'⟩ := ih hu (fun e' he' => by
      have hother : e'.1 ≠ e.1 := fun heq => hnodup.1 (heq ▸ List.mem_map_of_mem he')
      show (t'.flows.erase e.1).get? e'.1 = some e'.2
      rw [Dict.get?_erase, if_neg hother]
      exact hthere e' (List.mem_cons_of_mem e he')) hnodup.2
    refine ⟨r :: states, u', ?_, .cons hrs hsame, hu'⟩
    simp only [List.map_cons, Native.Engine.popAll, hpop, Option.bind_eq_bind, Option.bind_some, hrest]
    rfl

section Calls

variable {e : Native.Engine} {a : FlowAggregator}

/-- Flows that are handed out are the same, one by one. -/
theorem mapM_flows {states : List Native.FlowState} {states' : List FlowState}
    (h : List.Forall₂ SameFlow states states') :
    states.mapM Native.flowOfState = some (states'.map FlowState.toFlow) :=
  mapM_eq_some_iff.mpr (List.forall₂_map_right_iff.mpr (h.imp fun _ _ hrs => hrs.flow))

/-- `sweep_timeouts`, on either side, where the clocks of the sweep are read alike. -/
theorem sweep_spec (hset : SameSettings e a) (htable : SameTable e.table a.table) (now : DateTime)
    (hgaps : ∀ deltaUs ∈ a.sweepGaps now, ReadAlike deltaUs) :
    ∃ states t, e.sweep now.toMicroseconds = some (states, { e with table := t }) ∧
      states.mapM Native.flowOfState = some (a.sweepTimeouts now).1 ∧
      SameTable t (a.sweepTimeouts now).2.table ∧
      SameSettings { e with table := t } (a.sweepTimeouts now).2 := by
  obtain ⟨nodes, hnodes, hsame⟩ := htable.openNodes
  have hclosing : List.Forall₂ (fun n e => SameEntry (n.key, n.state) e)
      (nodes.filter fun n => n.state.shouldClose now.us e.activeS e.inactiveS)
      (a.closing now) := by
    have hread : ∀ entry ∈ a.table.flows.entries, ∀ deltaUs ∈ entry.2.closureGaps now a.activeTimeoutSeconds,
        ReadAlike deltaUs := fun entry hentry deltaUs hdelta =>
      hgaps deltaUs (List.mem_flatMap.mpr ⟨entry.2, List.mem_map_of_mem hentry, hdelta⟩)
    refine (List.rel_filter ?_ (forall₂_and_mem hsame hread)).imp fun _ _ hboth => hboth.1
    rintro n entry ⟨hentry, halike⟩
    simp only [hset.active, hset.inactive, hentry.2.shouldClose a now halike]
  obtain ⟨states, t, hpop, hstates, ht⟩ := popAll_spec hclosing htable
    (fun entry hentry => Dict.mem_entries_iff.mp (List.mem_of_mem_filter hentry))
    (a.table.flows.nodup.sublist (List.filter_sublist.map Prod.fst))
  rw [sweepTimeouts_eq]
  refine ⟨states, t, ?_, ?_, ht, hset.onward (Native.Engine.onward_table t) (FlowTable.popAll_maxFlows _ _)⟩
  · simp only [Native.Engine.sweep, DateTime.toMicroseconds, hnodes, Option.bind_eq_bind, Option.bind_some,
      hpop]
  · rw [mapM_flows hstates, List.map_map]
    rfl

/-- `flush`, on either side. -/
theorem flush_spec (hset : SameSettings e a) (htable : SameTable e.table a.table) :
    ∃ states t, e.flush = some (states, { e with table := t }) ∧
      states.mapM Native.flowOfState = some a.flush.1 ∧ SameTable t a.flush.2.table ∧
      SameSettings { e with table := t } a.flush.2 := by
  obtain ⟨nodes, hnodes, hsame⟩ := htable.openNodes
  have hstates : List.Forall₂ SameFlow (nodes.map Native.Node.state) a.table.flows.values := by
    rw [List.forall₂_map_left_iff, Dict.values, List.forall₂_map_right_iff]
    exact hsame.imp fun _ _ h => h.2
  refine ⟨nodes.map Native.Node.state, e.table.clear, ?_, mapM_flows hstates,
    ⟨htable.1, [], e.table.clear_holds, .nil⟩, hset.onward (Native.Engine.onward_table _) rfl⟩
  simp only [Native.Engine.flush, hnodes, Option.bind_eq_bind, Option.bind_some]

end Calls

/-! ## Slow connections -/

/-- The groups of either side: the engine's `order` lists the pairs as the Python dictionary does. -/
def SameGroups (groups : List (BitVec 32 × BitVec 32) × Dict (BitVec 32 × BitVec 32) (List Native.FlowState))
    (groups' : Dict (IPv4Address × IPv4Address) (List FlowState)) : Prop :=
  groups.1 = groups'.keys ∧ Dict.Rel (List.Forall₂ SameFlow) groups.2 groups'

/-- A flow is a slow connection to both, or to neither. -/
theorem SameFlow.slowCandidate {r : Native.FlowState} {s : FlowState} (h : SameFlow r s) (now : DateTime)
    (query : SlowQuery) (hgaps : ∀ deltaUs ∈ s.slowGaps now query, ReadAlike deltaUs) :
    Native.Engine.isSlowConnectionCandidate r now.us query =
      FlowAggregator.isSlowConnectionCandidate s now query := by
  have htcp : r.proto ≠ .tcp ↔ s.protocol ≠ .tcp := not_congr h.isTcp
  simp only [Native.Engine.isSlowConnectionCandidate, FlowAggregator.isSlowConnectionCandidate, htcp,
    h.backwardPackets, h.finForward, h.finBackward, h.rst, h.firstSeen, h.lastSeen, h.byteCount]
  unfold FlowState.slowGaps at hgaps
  by_cases hproto : s.protocol ≠ .tcp
  · simp only [if_pos hproto]
  by_cases hanswered : s.backwardPacketCount < 1
  · simp only [if_neg hproto, if_pos hanswered]
  by_cases hclosing : (s.sawFinForward || s.sawFinBackward || s.sawRst) = true
  · simp only [if_neg hproto, if_neg hanswered, if_pos hclosing]
  simp only [if_neg hproto, if_neg hanswered, if_neg hclosing] at hgaps ⊢
  by_cases hshort : now.secondsSince s.firstSeen < query.minDurationSeconds
  · -- too short a connection, and neither side looks further
    rw [if_pos hshort] at hgaps
    rw [elapsedSeconds_us (hgaps _ List.mem_cons_self), if_pos hshort, if_pos hshort]
  · rw [if_neg hshort] at hgaps
    rw [elapsedSeconds_us (hgaps _ List.mem_cons_self),
      elapsedSeconds_us (hgaps _ (List.mem_cons_of_mem _ List.mem_cons_self))]

/-- One round of the grouping, on either side. -/
theorem SameGroups.step
    {groups : List (BitVec 32 × BitVec 32) × Dict (BitVec 32 × BitVec 32) (List Native.FlowState)}
    {groups' : Dict (IPv4Address × IPv4Address) (List FlowState)} (h : SameGroups groups groups')
    {r : Native.FlowState} {s : FlowState} (hrs : SameFlow r s) (now : DateTime) (query : SlowQuery)
    (hgaps : ∀ deltaUs ∈ s.slowGaps now query, ReadAlike deltaUs) :
    SameGroups (Native.Engine.groupState now.us query groups r)
      (FlowAggregator.groupByPair now query groups' s) := by
  unfold Native.Engine.groupState FlowAggregator.groupByPair
  rw [hrs.slowCandidate now query hgaps, hrs.sourceIp, hrs.destinationIp]
  split
  · rcases h.2.get? (s.forwardSourceIp, s.forwardDestinationIp) with ⟨hnone, hnone'⟩ | ⟨g, g', hg, hg', hgg⟩
    · -- a pair not seen before goes last in both orders
      have hkeys := Dict.get?_eq_none_iff.mp hnone'
      simp only [hnone, hnone', Option.getD_none, List.nil_append]
      refine ⟨?_, h.2.set _ (.cons hrs .nil)⟩
      rw [Dict.keys_set, if_neg hkeys, h.1]
    · have hkeys := Dict.mem_keys_iff.mpr ⟨g', hg'⟩
      simp only [hg, hg', Option.getD_some]
      refine ⟨?_, h.2.set _ (forall₂_concat hgg hrs)⟩
      rw [Dict.keys_set, if_pos hkeys, h.1]
  · exact h

theorem sameGroups {states : List Native.FlowState} {states' : List FlowState}
    (h : List.Forall₂ SameFlow states states') (now : DateTime) (query : SlowQuery)
    (hgaps : ∀ s ∈ states', ∀ deltaUs ∈ s.slowGaps now query, ReadAlike deltaUs) :
    SameGroups (Native.Engine.groupSlow states now.us query) (FlowAggregator.byPair states' now query) := by
  have hloop : ∀ {groups groups'}, SameGroups groups groups' →
      SameGroups (states.foldl (Native.Engine.groupState now.us query) groups)
        (states'.foldl (FlowAggregator.groupByPair now query) groups') := by
    have hboth := forall₂_and_mem h hgaps
    clear h hgaps
    induction hboth with
    | nil => exact fun hgroups => hgroups
    | cons hrs _ ih => exact fun hgroups => ih (hgroups.step hrs.1 now query hrs.2)
  exact hloop ⟨rfl, Dict.Rel.empty⟩

/-- The representative of a group: the first of the longest held, on either side. -/
theorem sameOldest {rest : List Native.FlowState} {rest' : List FlowState}
    (h : List.Forall₂ SameFlow rest rest') {r : Native.FlowState} {s : FlowState} (hrs : SameFlow r s) :
    SameFlow (Native.Engine.oldest r rest) (FlowAggregator.longestHeld s rest') := by
  unfold Native.Engine.oldest FlowAggregator.longestHeld
  induction h generalizing r s with
  | nil => exact hrs
  | @cons r' s' rest rest' hrs' _ ih =>
    rw [List.foldl_cons, List.foldl_cons, hrs'.firstSeen, hrs.firstSeen]
    split
    · exact ih hrs'
    · exact ih hrs

/-- The cluster of a pair, on either side. -/
theorem sameCluster {groups : Dict (BitVec 32 × BitVec 32) (List Native.FlowState)}
    {entry : (IPv4Address × IPv4Address) × List FlowState} (query : SlowQuery)
    {group : List Native.FlowState} (hgroup : groups.get? entry.1 = some group)
    (h : List.Forall₂ SameFlow group entry.2) :
    (Native.Engine.slowCluster? query groups entry.1 = none ∧ FlowAggregator.cluster? query entry = none) ∨
      ∃ c c', Native.Engine.slowCluster? query groups entry.1 = some c ∧
        FlowAggregator.cluster? query entry = some c' ∧ Native.clusterOfSlow c = some c' := by
  obtain ⟨pair, states⟩ := entry
  simp only [Native.Engine.slowCluster?, hgroup]
  cases h with
  | nil => exact .inl ⟨rfl, rfl⟩
  | @cons r s rest rest' hrs hrest =>
    have hlength : (r :: rest).length = (s :: rest').length := (List.Forall₂.cons hrs hrest).length_eq
    simp only [FlowAggregator.cluster?, hlength]
    split
    · exact .inl ⟨rfl, rfl⟩
    · refine .inr ⟨_, _, rfl, rfl, ?_⟩
      simp only [Native.clusterOfSlow, (sameOldest hrest hrs).flow, Option.bind_eq_bind, Option.bind_some]

/-- `slow_clusters`, on either side, where the clocks of the query are read alike. -/
theorem slowClusters_spec {e : Native.Engine} {a : FlowAggregator} (htable : SameTable e.table a.table)
    (now : DateTime) (query : SlowQuery) (hgaps : ∀ deltaUs ∈ a.slowGaps now query, ReadAlike deltaUs) :
    ∃ slow, e.slowClusters now.toMicroseconds query = some slow ∧
      slow.mapM Native.clusterOfSlow = some (a.snapshotSlowConnectionClusters now query) := by
  obtain ⟨nodes, hnodes, hsame⟩ := htable.openNodes
  have hstates : List.Forall₂ SameFlow (nodes.map Native.Node.state) a.table.flows.values := by
    rw [List.forall₂_map_left_iff, Dict.values, List.forall₂_map_right_iff]
    exact hsame.imp fun _ _ h => h.2
  have hgroups := sameGroups hstates now query fun s hs deltaUs hdelta =>
    hgaps deltaUs (List.mem_flatMap.mpr ⟨s, hs, hdelta⟩)
  refine ⟨_, by simp only [Native.Engine.slowClusters, DateTime.toMicroseconds, hnodes, Option.bind_eq_bind,
    Option.bind_some]; rfl, ?_⟩
  generalize hg : Native.Engine.groupSlow (nodes.map Native.Node.state) now.us query = g at hgroups
  unfold FlowAggregator.snapshotSlowConnectionClusters
  generalize FlowAggregator.byPair a.table.flows.values now query = g' at hgroups
  obtain ⟨horder, hrel⟩ := hgroups
  rw [horder, Dict.keys]
  -- each entry of the Python dictionary is read through the engine's `groups`
  have hentries : ∀ entry ∈ g'.entries, ∃ group, g.2.get? entry.1 = some group ∧
      List.Forall₂ SameFlow group entry.2 := by
    intro entry hentry
    have hget : g'.get? entry.1 = some entry.2 := Dict.mem_entries_iff.mp hentry
    rcases hrel.get? entry.1 with ⟨_, hnone⟩ | ⟨v, v', hv, hv', hvv⟩
    · exact absurd (hnone.symm.trans hget) (by simp)
    · exact ⟨v, hv, Option.some.inj (hv'.symm.trans hget) ▸ hvv⟩
  refine mapM_eq_some_iff.mpr ?_
  generalize g'.entries = entries at hentries ⊢
  induction entries with
  | nil => exact .nil
  | cons entry rest ih =>
    obtain ⟨group, hgroup, hflows⟩ := hentries entry List.mem_cons_self
    have hrest := ih fun entry' h => hentries entry' (List.mem_cons_of_mem entry h)
    rcases sameCluster query hgroup hflows with ⟨hnone, hnone'⟩ | ⟨c, c', hc, hc', hcc⟩
    · rw [List.map_cons, List.filterMap_cons_none hnone, List.filterMap_cons_none hnone']
      exact hrest
    · rw [List.map_cons, List.filterMap_cons_some hc, List.filterMap_cons_some hc']
      exact .cons hcc hrest

/-! ## Whole runs -/

/-- The engine stands where the Python path does. -/
structure SameState (e : Native.Engine) (p : PythonPath) : Prop where
  settings : SameSettings e p.aggregator
  table : SameTable e.table p.aggregator.table
  pending : SamePending e p.completed p.signals

/-- One call whose clocks are read alike: the engine does not panic, the two stand alike after it, and they answer
alike as long as nothing was shed. -/
theorem SameState.step {e : Native.Engine} {p : PythonPath} (h : SameState e p) (call : FlowCall)
    (halike : p.ReadsAlike call) :
    ∃ reply e', e.step call = some (reply, e') ∧ e.Onward e' ∧ SameState e' (p.step call).2 ∧
      (e.completedShed = 0 → e.newFlowsShed = 0 → reply = (p.step call).1) := by
  cases call with
  | packet frame =>
    obtain ⟨e', hfeed, honward, hset, htable, hpending⟩ := feed_spec h.settings h.table h.pending frame halike
    refine ⟨.quiet, e', ?_, honward, ⟨hset, htable, hpending⟩, fun _ _ => rfl⟩
    simp only [Native.Engine.step, hfeed, Option.map_some]
  | sweep now =>
    obtain ⟨states, t, hsweep, hflows, htable, hset⟩ := sweep_spec h.settings h.table now halike
    refine ⟨.flows (p.aggregator.sweepTimeouts now).1, { e with table := t }, ?_,
      Native.Engine.onward_table t, ⟨hset, htable, h.pending.table t⟩, fun _ _ => rfl⟩
    simp only [Native.Engine.step, hsweep, hflows, Option.bind_eq_bind, Option.bind_some]
  | flush =>
    obtain ⟨states, t, hflush, hflows, htable, hset⟩ := flush_spec h.settings h.table
    refine ⟨.flows p.aggregator.flush.1, { e with table := t }, ?_,
      Native.Engine.onward_table t, ⟨hset, htable, h.pending.table t⟩, fun _ _ => rfl⟩
    simp only [Native.Engine.step, hflush, hflows, Option.bind_eq_bind, Option.bind_some]
  | drain =>
    obtain ⟨flows, hflows⟩ := h.pending.readable
    obtain ⟨signals, hsignals⟩ := h.pending.readableSignals
    have hread := mapM_eq_some_iff.mpr hflows
    have hreadSignals := mapM_eq_some_iff.mpr hsignals
    refine ⟨.batch flows signals, { e with completed := [], newFlows := [] }, ?_,
      ⟨rfl, rfl, rfl, le_refl _, le_refl _⟩,
      ⟨⟨h.settings.room, h.settings.active, h.settings.inactive, h.settings.protectedNetwork⟩, h.table,
        ⟨⟨[], .nil⟩, ⟨[], .nil⟩, fun _ => .nil, fun _ => .nil⟩⟩, ?_⟩
    · simp only [Native.Engine.step, Native.Engine.drain, hread, hreadSignals, Option.bind_eq_bind,
        Option.bind_some]
    · -- what was not shed is read back as the Python side returned it
      intro hcompleted hnewFlows
      have hsame := (mapM_eq_some_iff.mpr (h.pending.completed hcompleted)).symm.trans hread
      have hsame' := (mapM_eq_some_iff.mpr (h.pending.signals hnewFlows)).symm.trans hreadSignals
      rw [← Option.some.inj hsame, ← Option.some.inj hsame']
      rfl
  | slowClusters now query =>
    obtain ⟨slow, hslow, hclusters⟩ := slowClusters_spec h.table now query halike
    refine ⟨.clusters (p.aggregator.snapshotSlowConnectionClusters now query), e, ?_, .refl e, h,
      fun _ _ => rfl⟩
    simp only [Native.Engine.step, hslow, hclusters, Option.bind_eq_bind, Option.bind_some]

/-- A whole run of such calls. -/
theorem SameState.replies {e : Native.Engine} {p : PythonPath} (h : SameState e p)
    {calls : List FlowCall} (halike : Along PythonPath.advance PythonPath.ReadsAlike p calls) :
    ∃ replies e', e.replies calls = some (replies, e') ∧ e.Onward e' ∧
      SameState e' (p.replies calls).2 ∧
      (e'.completedShed = 0 → e'.newFlowsShed = 0 → replies = (p.replies calls).1) := by
  induction calls generalizing e p with
  | nil => exact ⟨[], e, rfl, .refl e, h, fun _ _ => rfl⟩
  | cons call calls ih =>
    obtain ⟨reply, e₁, hstep, honward₁, hsame₁, hreply⟩ := h.step call halike.1
    obtain ⟨more, e₂, hrest, honward₂, hsame₂, hmore⟩ := ih hsame₁ halike.2
    refine ⟨reply :: more, e₂, ?_, honward₁.trans honward₂, hsame₂, ?_⟩
    · simp only [Native.Engine.replies, hstep, hrest, Option.bind_eq_bind, Option.bind_some]
    · -- nothing shed at the end means nothing was shed on the way
      intro hcompleted hnewFlows
      have hcompleted₁ : e.completedShed = 0 := by
        have := honward₁.completedShed
        have := honward₂.completedShed
        omega
      have hnewFlows₁ : e.newFlowsShed = 0 := by
        have := honward₁.newFlowsShed
        have := honward₂.newFlowsShed
        omega
      rw [hreply hcompleted₁ hnewFlows₁, hmore hcompleted hnewFlows]
      rfl

/-- Fresh sides stand alike. -/
theorem SameState.new (config : FlowConfig) (protectedNetwork : Option IPv4Network)
    (maxPendingCompleted maxPendingNewFlows : Option Nat) :
    SameState (.new config protectedNetwork maxPendingCompleted maxPendingNewFlows)
      (.init config protectedNetwork) where
  settings := ⟨config.max_pos, rfl, rfl, rfl⟩
  table := ⟨rfl, [], Native.LruTable.new_holds _, .nil⟩
  pending := ⟨⟨[], .nil⟩, ⟨[], .nil⟩, fun _ => .nil, fun _ => .nil⟩

/-- The same open flows, in the same order. -/
theorem SameState.openFlows {e : Native.Engine} {p : PythonPath} (h : SameState e p) :
    e.openFlows = some p.openFlows := by
  obtain ⟨nodes, hnodes, hsame⟩ := h.table.openNodes
  simp only [Native.Engine.openFlows, hnodes, Option.bind_eq_bind, Option.bind_some]
  refine mapM_eq_some_iff.mpr ?_
  rw [PythonPath.openFlows, Dict.values, List.map_map, List.forall₂_map_right_iff]
  exact hsame.imp fun _ _ hentry => hentry.2.flow

/-- The two flow engines agree on every run of calls from empty state in which each call reads its clocks alike: the
native one never panics, its table holds the aggregator's flows in the same order, and it gives the same replies
unless one of its pending lists overflowed and it shed a record. -/
theorem native_engine_agrees (config : FlowConfig) (protectedNetwork : Option IPv4Network)
    (maxPendingCompleted maxPendingNewFlows : Option Nat) (calls : List FlowCall)
    (halike : Along PythonPath.advance PythonPath.ReadsAlike (PythonPath.init config protectedNetwork) calls) :
    ∃ replies engine,
      (Native.Engine.new config protectedNetwork maxPendingCompleted maxPendingNewFlows).replies calls =
        some (replies, engine) ∧
      SameTable engine.table ((PythonPath.init config protectedNetwork).replies calls).2.aggregator.table ∧
      engine.openFlows = some ((PythonPath.init config protectedNetwork).replies calls).2.openFlows ∧
      (engine.completedShed = 0 → engine.newFlowsShed = 0 →
        replies = ((PythonPath.init config protectedNetwork).replies calls).1) := by
  obtain ⟨replies, engine, hrun, _, hsame, hreplies⟩ :=
    (SameState.new config protectedNetwork maxPendingCompleted maxPendingNewFlows).replies halike
  exact ⟨replies, engine, hrun, hsame.table, hsame.openFlows, hreplies⟩

/-- Small timeouts and a table of four flows. -/
def smallFlowConfig : FlowConfig := ⟨120, 30, 4, by decide, by decide, by decide⟩

/-- A packet of one TCP connection: its opening, or the answer that resets it. -/
def connectionPacket (timestamp : DateTime) (answer : Bool) : ParsedFrame :=
  if answer then
    ⟨timestamp, 2#48, 1#48, .ipv4 0x08080808#32 0x0a2a0014#32, .tcp, some 443, some 40000, some tcpRst, 40, 0,
      Nat.zero_le (nat_lit 40)⟩
  else
    ⟨timestamp, 1#48, 2#48, .ipv4 0x0a2a0014#32 0x08080808#32, .tcp, some 40000, some 443, some tcpSyn, 60, 0,
      Nat.zero_le 60⟩

/-- A packet of the connection `2 ^ 53 + 1` microseconds after another. -/
def distantPackets : List FlowCall :=
  [.packet (connectionPacket .epoch false),
    .packet (connectionPacket ⟨9007199254740993, by decide, by decide⟩ false), .drain]

/-- The engine makes `2 ^ 53` of the microseconds of that gap before it divides them: the flow it completes names
another gap between its packets than the aggregator's. -/
theorem native_engine_rounds_twice :
    ¬ ∀ (config : FlowConfig) (protectedNetwork : Option IPv4Network)
      (maxPendingCompleted maxPendingNewFlows : Option Nat) (calls : List FlowCall), ∃ replies engine,
        (Native.Engine.new config protectedNetwork maxPendingCompleted maxPendingNewFlows).replies calls =
          some (replies, engine) ∧
        SameTable engine.table ((PythonPath.init config protectedNetwork).replies calls).2.aggregator.table ∧
        engine.openFlows = some ((PythonPath.init config protectedNetwork).replies calls).2.openFlows ∧
        (engine.completedShed = 0 → engine.newFlowsShed = 0 →
          replies = ((PythonPath.init config protectedNetwork).replies calls).1) := by
  intro h
  obtain ⟨replies, engine, hrun, _, _, hreplies⟩ := h smallFlowConfig none none none distantPackets
  have hshed : ((Native.Engine.new smallFlowConfig none none none).replies distantPackets).map
      (fun r => (r.2.completedShed, r.2.newFlowsShed)) = some (0, 0) := by decide +kernel
  have hdiffer : ((Native.Engine.new smallFlowConfig none none none).replies distantPackets).map Prod.fst ≠
      some ((PythonPath.init smallFlowConfig none).replies distantPackets).1 := by decide +kernel
  rw [hrun, Option.map_some, Option.some.injEq, Prod.mk.injEq] at hshed
  apply hdiffer
  rw [hrun, Option.map_some, hreplies hshed.1 hshed.2]

/-- A connection opened and reset, with a query for slow connections and a sweep on the way, and one that stays
open. -/
def resetConnection : List FlowCall :=
  [.packet (connectionPacket .firstSecond false), .slowClusters .nextQuarter ⟨1 / 8, 1000, 1, 10, by norm_num⟩,
    .sweep .nextQuarter, .packet (connectionPacket .nextQuarter true), .drain,
    .packet (connectionPacket .nextQuarter false)]

theorem native_engine_agrees_reset :
    ∃ engine flow,
      (Native.Engine.new smallFlowConfig none (some 8) (some 8)).replies resetConnection =
        some (((PythonPath.init smallFlowConfig none).replies resetConnection).1, engine) ∧
      engine.openFlows = some [flow] := by
  have halike : Along PythonPath.advance PythonPath.ReadsAlike (PythonPath.init smallFlowConfig none)
      resetConnection := by
    refine ⟨?_, ?_, ?_, ?_, ?_, ?_, trivial⟩
    all_goals exact PythonPath.readsAlike_of_le (by decide +kernel)
  obtain ⟨replies, engine, hrun, _, hopen, hreplies⟩ :=
    native_engine_agrees smallFlowConfig none (some 8) (some 8) resetConnection halike
  have hshed : ((Native.Engine.new smallFlowConfig none (some 8) (some 8)).replies resetConnection).map
      (fun r => (r.2.completedShed, r.2.newFlowsShed)) = some (0, 0) := by decide +kernel
  have hclosed : ((PythonPath.init smallFlowConfig none).replies resetConnection).2.openFlows.length = 1 := by
    decide +kernel
  rw [hrun, Option.map_some, Option.some.injEq, Prod.mk.injEq] at hshed
  rw [hreplies hshed.1 hshed.2] at hrun
  obtain ⟨flow, hflow⟩ := List.length_eq_one_iff.mp hclosed
  exact ⟨engine, flow, hrun, hflow ▸ hopen⟩

end Pirewall
