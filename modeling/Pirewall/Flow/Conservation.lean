/-
# Pirewall.Flow.Conservation -- every packet is counted in one flow

A packet the aggregator accepts opens a flow or joins an open one, and a flow leaves the table only by being
emitted: on a teardown, on a timeout, on eviction, or at the end. So the flows emitted and the flows still
open are the accounts of a ledger over the accepted packets. What is conserved is a `Tally`: packets, bytes
and payload bytes.
-/
import Pirewall.Lib.Run
import Pirewall.Lib.Ledger
import Pirewall.Flow.Parity

namespace Pirewall

open Lib

/-! ## Tallies -/

/-- Packets, bytes and payload bytes. -/
abbrev Tally := ℕ × ℕ × ℕ

def PacketMetadata.tally (packet : PacketMetadata) : Tally := (1, packet.totalLength, packet.payloadLength)

/-- What an emitted flow reports. -/
def Flow.tally (flow : Flow) : Tally :=
  (flow.packetCount, flow.byteCount, flow.payloadStats.forwardBytes + flow.payloadStats.backwardBytes)

/-- What an open flow has counted so far. -/
def FlowState.tally (state : FlowState) : Tally :=
  (state.packetCount, state.byteCount, state.forwardPayloadBytes + state.backwardPayloadBytes)

/-- `observe` counts the packet once, in one of the two directions. -/
theorem FlowState.tally_observe (state : FlowState) (packet : PacketMetadata) :
    (state.observe packet).tally = state.tally + packet.tally := by
  refine Prod.ext rfl (Prod.ext rfl ?_)
  show (if state.isForward packet then state.forwardPayloadBytes + packet.payloadLength
      else state.forwardPayloadBytes) +
    (if state.isForward packet then state.backwardPayloadBytes
      else state.backwardPayloadBytes + packet.payloadLength) =
    state.forwardPayloadBytes + state.backwardPayloadBytes + packet.payloadLength
  split <;> omega

/-- The packet that opens a flow is the first it counts. -/
theorem FlowState.tally_opening (key : FlowKey) (packet : PacketMetadata)
    (sourceIp destinationIp : IPv4Address) :
    (FlowState.opening key packet sourceIp destinationIp).tally = packet.tally := by
  rw [FlowState.opening, FlowState.tally_observe]
  exact zero_add _

/-! ## The open flows -/

/-- The open flows, as they would be emitted now. -/
def FlowTable.openFlows (table : FlowTable) : Multiset Flow := ↑(table.flows.values.map FlowState.toFlow)

/-- An open flow, set apart from the others. -/
theorem FlowTable.openFlows_of_some {table : FlowTable} {key : FlowKey} {state : FlowState}
    (h : table.flows.get? key = some state) :
    table.openFlows = state.toFlow ::ₘ (table.pop key).openFlows :=
  Multiset.coe_eq_coe.mpr ((Dict.values_perm_of_some h).map FlowState.toFlow)

/-! ## The table as accounts -/

/-- The tallies of the open flows. -/
def FlowTable.accounts (table : FlowTable) : Multiset Tally := ↑(table.flows.values.map FlowState.tally)

/-- The tallies of emitted flows. -/
def emittedAccounts (flows : List Flow) : Multiset Tally := ↑(flows.map Flow.tally)

theorem emittedAccounts_append (flows more : List Flow) :
    emittedAccounts (flows ++ more) = emittedAccounts flows + emittedAccounts more := by
  unfold emittedAccounts
  rw [List.map_append]
  rfl

theorem emittedAccounts_eq (flows : List Flow) :
    emittedAccounts flows = (↑flows : Multiset Flow).map Flow.tally := rfl

/-- Open or emitted, a flow is one account. -/
theorem FlowTable.accounts_eq (table : FlowTable) : table.accounts = table.openFlows.map Flow.tally := by
  unfold FlowTable.accounts FlowTable.openFlows
  rw [Multiset.map_coe, List.map_map]
  rfl

/-- The table is bounded and files every flow under its own key. -/
structure FlowTable.WellKept (table : FlowTable) : Prop where
  max_pos : 0 < table.maxFlows
  bounded : table.flows.size ≤ table.maxFlows
  keyed : ∀ key state, table.flows.get? key = some state → state.key = key

/-- Taking flows out of the table keeps it so. -/
theorem FlowTable.WellKept.filter {table : FlowTable} (h : table.WellKept) (p : FlowKey → FlowState → Bool) :
    FlowTable.WellKept { table with flows := table.flows.filter p } := by
  refine ⟨h.max_pos, le_trans (List.length_filter_le _ _) h.bounded, ?_⟩
  intro key state hget
  rw [Dict.get?_filter, Option.filter_eq_some_iff] at hget
  exact h.keyed key state hget.1

/-- `insert` of a key that is not open: the flow it evicts makes room for the new one. -/
theorem FlowTable.insert_spec {table : FlowTable} (h : table.WellKept) {key : FlowKey} {state : FlowState}
    (hkey : state.key = key) (hnone : table.flows.get? key = none) :
    (table.insert key state).2.WellKept ∧
      (table.insert key state).2.flows.get? key = some state ∧
      table.openFlows = ↑((table.insert key state).1.toList.map FlowState.toFlow) +
        ((table.insert key state).2.pop key).openFlows := by
  unfold FlowTable.insert
  split
  · rename_i hfull
    -- a full table is not empty: `max_flows` is at least one
    obtain ⟨first, rest, hentries⟩ := List.exists_cons_of_length_pos
      (lt_of_lt_of_le h.max_pos (show table.maxFlows ≤ table.flows.entries.length from hfull))
    have hpop : table.flows.popFirst.get? key = none := by
      cases hget : table.flows.popFirst.get? key with
      | none => rfl
      | some other => exact absurd (Dict.get?_of_popFirst hget) (by rw [hnone]; simp)
    have hsize : table.flows.popFirst.size + 1 = table.flows.size := by
      show table.flows.entries.tail.length + 1 = table.flows.entries.length
      rw [hentries]
      rfl
    refine ⟨⟨h.max_pos, ?_, ?_⟩, by rw [Dict.get?_set, if_pos rfl], ?_⟩
    · rw [Dict.size_set_of_none hpop, hsize]
      exact h.bounded
    · intro k s hget
      rw [Dict.get?_set] at hget
      split at hget
      · rename_i heq
        rw [heq, ← Option.some.inj hget, hkey]
      · exact h.keyed k s (Dict.get?_of_popFirst hget)
    · show _ = ↑(table.flows.values.head?.toList.map FlowState.toFlow) +
        (↑(((table.flows.popFirst.set key state).erase key).values.map FlowState.toFlow) : Multiset Flow)
      rw [Dict.erase_set, Dict.erase_of_none hpop, FlowTable.openFlows]
      simp only [Dict.values, Dict.popFirst, hentries, List.map_cons, List.head?_cons, Option.toList_some,
        List.tail_cons, List.map_nil]
      rfl
  · rename_i hroom
    refine ⟨⟨h.max_pos, ?_, ?_⟩, by rw [Dict.get?_set, if_pos rfl], ?_⟩
    · rw [Dict.size_set_of_none hnone]
      show table.flows.size + 1 ≤ table.maxFlows
      omega
    · intro k s hget
      rw [Dict.get?_set] at hget
      split at hget
      · rename_i heq
        rw [heq, ← Option.some.inj hget, hkey]
      · exact h.keyed k s hget
    · show _ = 0 + (↑(((table.flows.set key state).erase key).values.map FlowState.toFlow) : Multiset Flow)
      rw [Dict.erase_set, Dict.erase_of_none hnone]
      exact (zero_add _).symm

/-! ## One call -/

/-- A call of the aggregator. -/
inductive AggregatorCall where
  | packet (packet : PacketMetadata)
  | sweep (now : DateTime)
  | flush

/-- Whether a packet is counted at all: IPv4 between routable unicast addresses. -/
def PacketMetadata.accepted (packet : PacketMetadata) (protectedNetwork : Option IPv4Network) : Bool :=
  match packet.network with
  | .ipv6 _ _ => false
  | .ipv4 sourceIp destinationIp =>
    isRoutableUnicast sourceIp protectedNetwork && isRoutableUnicast destinationIp protectedNetwork

/-- The packets a sequence of calls brings in. -/
def acceptedPackets (protectedNetwork : Option IPv4Network) (calls : List AggregatorCall) :
    List PacketMetadata :=
  calls.filterMap fun
    | .packet packet => if packet.accepted protectedNetwork then some packet else none
    | .sweep _ => none
    | .flush => none

/-- The aggregator, with every flow it emitted. -/
structure AggregatorRun where
  emitted : List Flow
  aggregator : FlowAggregator

namespace AggregatorRun

def init (config : FlowConfig) (protectedNetwork : Option IPv4Network) : AggregatorRun :=
  ⟨[], .init config protectedNetwork⟩

/-- One call: what it emits goes to the end. -/
def call (r : AggregatorRun) : AggregatorCall → AggregatorRun
  | .packet packet =>
    let (emitted, _, aggregator) := r.aggregator.processPacket packet
    ⟨r.emitted ++ emitted, aggregator⟩
  | .sweep now =>
    let (emitted, aggregator) := r.aggregator.sweepTimeouts now
    ⟨r.emitted ++ emitted, aggregator⟩
  | .flush =>
    let (emitted, aggregator) := r.aggregator.flush
    ⟨r.emitted ++ emitted, aggregator⟩

/-- The flows still open. -/
def openStates (r : AggregatorRun) : List FlowState := r.aggregator.table.flows.values

/-- Every account: the flows emitted and the flows open. -/
def accounts (r : AggregatorRun) : Multiset Tally := emittedAccounts r.emitted + r.aggregator.table.accounts

end AggregatorRun

/-- Where a run stands after the packets `packets`: its accounts are theirs, and its table is in order. -/
structure Conserved (config : FlowConfig) (protectedNetwork : Option IPv4Network)
    (packets : List PacketMetadata) (r : AggregatorRun) : Prop where
  network : r.aggregator.protectedNetwork = protectedNetwork
  maxFlows : r.aggregator.table.maxFlows = config.maxFlows
  kept : r.aggregator.table.WellKept
  ledger : Ledger PacketMetadata.tally ↑packets r.accounts

section Calls

variable {config : FlowConfig} {protectedNetwork : Option IPv4Network} {packets : List PacketMetadata}

/-- `route` leaves the state of the packet's flow in the table. -/
theorem FlowAggregator.route_kept {a : FlowAggregator} (h : a.table.WellKept) (packet : PacketMetadata)
    (sourceIp destinationIp : IPv4Address) (key : FlowKey) :
    let routed := a.route packet sourceIp destinationIp key
    routed.2.2.2.WellKept ∧ routed.2.2.2.maxFlows = a.table.maxFlows ∧
      routed.2.2.2.flows.get? key = some routed.2.2.1 := by
  cases hget : a.table.flows.get? key with
  | none =>
    have hkey : (FlowState.opening key packet sourceIp destinationIp).key = key := rfl
    obtain ⟨hkept, hin, -⟩ := FlowTable.insert_spec h hkey hget
    have hmax : (a.table.insert key (FlowState.opening key packet sourceIp destinationIp)).2.maxFlows =
        a.table.maxFlows := by
      unfold FlowTable.insert
      split <;> rfl
    simp only [FlowAggregator.route, FlowTable.get, hget]
    exact ⟨hkept, hmax, hin⟩
  | some state =>
    simp only [FlowAggregator.route, FlowTable.get, hget]
    refine ⟨⟨h.max_pos, ?_, ?_⟩, trivial, by rw [Dict.get?_set, if_pos rfl]⟩
    · have hsize : ((a.table.flows.moveToEnd key).set key (state.observe packet)).size =
          a.table.flows.size := by
        rw [Dict.size, Dict.entries_set_moveToEnd hget, List.length_append]
        exact Dict.size_erase_of_some hget
      exact hsize ▸ h.bounded
    · intro k s hs
      rw [Dict.get?_set, Dict.get?_moveToEnd] at hs
      split at hs
      · rename_i heq
        rw [heq, ← Option.some.inj hs]
        exact h.keyed key state hget
      · exact h.keyed k s hs

/-- What `route` does to the flows: it opens one, with room made for it, or it joins one. -/
theorem FlowAggregator.route_flows {a : FlowAggregator} (h : a.table.WellKept) (packet : PacketMetadata)
    (sourceIp destinationIp : IPv4Address) (key : FlowKey) :
    let routed := a.route packet sourceIp destinationIp key
    (a.table.flows.get? key = none ∧ routed.2.2.1 = .opening key packet sourceIp destinationIp ∧
        a.table.openFlows = ↑routed.1 + (routed.2.2.2.pop key).openFlows) ∨
    ∃ state, a.table.flows.get? key = some state ∧ routed.1 = [] ∧ routed.2.2.1 = state.observe packet ∧
      a.table.openFlows = state.toFlow ::ₘ (routed.2.2.2.pop key).openFlows := by
  cases hget : a.table.flows.get? key with
  | none =>
    obtain ⟨-, -, hflows⟩ := FlowTable.insert_spec h
      (show (FlowState.opening key packet sourceIp destinationIp).key = key from rfl) hget
    simp only [FlowAggregator.route, FlowTable.get, hget]
    exact .inl ⟨trivial, trivial, hflows⟩
  | some state =>
    simp only [FlowAggregator.route, FlowTable.get, hget]
    refine .inr ⟨state, rfl, trivial, rfl, ?_⟩
    show _ = state.toFlow ::ₘ
      ↑((((a.table.flows.moveToEnd key).set key (state.observe packet)).erase key).values.map FlowState.toFlow)
    rw [Dict.erase_set, Dict.erase_moveToEnd]
    exact FlowTable.openFlows_of_some hget

/-- What `route` does to the accounts: the packet is booked to the flow it opened or joined. -/
theorem FlowAggregator.route_ledger {a : FlowAggregator} (h : a.table.WellKept) (packet : PacketMetadata)
    (sourceIp destinationIp : IPv4Address) (key : FlowKey) {emitted : List Flow}
    (hledger : Ledger PacketMetadata.tally ↑packets (emittedAccounts emitted + a.table.accounts)) :
    let routed := a.route packet sourceIp destinationIp key
    Ledger PacketMetadata.tally (packet ::ₘ ↑packets)
      (routed.2.2.1.tally ::ₘ (emittedAccounts (emitted ++ routed.1) + (routed.2.2.2.pop key).accounts)) := by
  intro routed
  rw [FlowTable.accounts_eq] at hledger ⊢
  rcases FlowAggregator.route_flows h packet sourceIp destinationIp key with
    ⟨-, hstate, hflows⟩ | ⟨state, -, hnone, hstate, hflows⟩
  · rw [hflows, Multiset.map_add, ← add_assoc, ← emittedAccounts_eq, ← emittedAccounts_append] at hledger
    rw [show routed.2.2.1 = _ from hstate, FlowState.tally_opening]
    exact hledger.opened packet
  · rw [hflows, Multiset.map_cons, Multiset.add_cons] at hledger
    rw [show routed.2.2.1 = _ from hstate, FlowState.tally_observe, show routed.1 = [] from hnone,
      List.append_nil]
    exact hledger.posted packet

/-- `settle` moves the flow from the table to the emitted ones, or leaves it. -/
theorem FlowAggregator.settle_flows {a : FlowAggregator} {table : FlowTable} {key : FlowKey}
    {state : FlowState} (h : table.flows.get? key = some state) (now : DateTime) :
    (↑(a.settle table key state now).1 : Multiset Flow) + (a.settle table key state now).2.table.openFlows =
      state.toFlow ::ₘ (table.pop key).openFlows := by
  unfold FlowAggregator.settle
  split
  · show ({state.toFlow} : Multiset Flow) + (table.pop key).openFlows = _
    rw [Multiset.singleton_add]
  · show (0 : Multiset Flow) + table.openFlows = _
    rw [zero_add, FlowTable.openFlows_of_some h]

theorem FlowAggregator.settle_accounts {a : FlowAggregator} {table : FlowTable} {key : FlowKey}
    {state : FlowState} (h : table.flows.get? key = some state) (now : DateTime) (emitted : List Flow) :
    emittedAccounts (emitted ++ (a.settle table key state now).1) +
        (a.settle table key state now).2.table.accounts =
      state.tally ::ₘ (emittedAccounts emitted + (table.pop key).accounts) := by
  rw [emittedAccounts_append, add_assoc, emittedAccounts_eq (a.settle table key state now).1,
    FlowTable.accounts_eq, ← Multiset.map_add, FlowAggregator.settle_flows h, Multiset.map_cons,
    ← FlowTable.accounts_eq, Multiset.add_cons]
  rfl

theorem FlowAggregator.settle_kept {a : FlowAggregator} {table : FlowTable} (h : table.WellKept)
    (key : FlowKey) (state : FlowState) (now : DateTime) :
    (a.settle table key state now).2.table.WellKept ∧
      (a.settle table key state now).2.table.maxFlows = table.maxFlows ∧
      (a.settle table key state now).2.protectedNetwork = a.protectedNetwork := by
  unfold FlowAggregator.settle
  split
  · exact ⟨h.filter _, rfl, rfl⟩
  · exact ⟨h, rfl, rfl⟩

/-- A packet that is not accepted changes nothing. -/
theorem FlowAggregator.processPacket_of_not_accepted {a : FlowAggregator} {packet : PacketMetadata}
    (h : packet.accepted a.protectedNetwork = false) : a.processPacket packet = ([], [], a) := by
  unfold PacketMetadata.accepted at h
  unfold FlowAggregator.processPacket
  split
  · rfl
  · rename_i sourceIp destinationIp hnet
    rw [hnet] at h
    replace h : (isRoutableUnicast sourceIp a.protectedNetwork &&
      isRoutableUnicast destinationIp a.protectedNetwork) = false := h
    rw [if_pos (by rw [← Bool.not_and, h]; rfl)]

/-- An accepted packet is posted to one account. -/
theorem Conserved.packet {r : AggregatorRun} (h : Conserved config protectedNetwork packets r)
    {packet : PacketMetadata} (haccepted : packet.accepted protectedNetwork = true) :
    Conserved config protectedNetwork (packets ++ [packet]) (r.call (.packet packet)) := by
  obtain ⟨sourceIp, destinationIp, hnet, hroutable⟩ : ∃ sourceIp destinationIp,
      packet.network = .ipv4 sourceIp destinationIp ∧
        (isRoutableUnicast sourceIp protectedNetwork &&
          isRoutableUnicast destinationIp protectedNetwork) = true := by
    unfold PacketMetadata.accepted at haccepted
    split at haccepted
    · exact absurd haccepted (by simp)
    · rename_i sourceIp destinationIp hnet
      exact ⟨sourceIp, destinationIp, hnet, haccepted⟩
  have hguard : (!isRoutableUnicast sourceIp r.aggregator.protectedNetwork ||
      !isRoutableUnicast destinationIp r.aggregator.protectedNetwork) = false := by
    rw [h.network, ← Bool.not_and, hroutable]
    rfl
  obtain ⟨hkept, hmax, hin⟩ := FlowAggregator.route_kept h.kept packet sourceIp destinationIp
    (computeFlowKey sourceIp destinationIp packet.sourcePort packet.destinationPort packet.protocol)
  have hledger := FlowAggregator.route_ledger h.kept packet sourceIp destinationIp
    (computeFlowKey sourceIp destinationIp packet.sourcePort packet.destinationPort packet.protocol) h.ledger
  simp only [AggregatorRun.call, FlowAggregator.processPacket, hnet, hguard, Bool.false_eq_true, if_false]
  obtain ⟨hkept', hmax', hnetwork⟩ := FlowAggregator.settle_kept (a := r.aggregator) hkept _ _ _
  refine ⟨hnetwork.trans h.network, hmax'.trans (hmax.trans h.maxFlows), hkept', ?_⟩
  rw [AggregatorRun.accounts, ← List.append_assoc, FlowAggregator.settle_accounts hin,
    ← Multiset.coe_add, add_comm, Multiset.coe_singleton, Multiset.singleton_add]
  exact hledger

/-- The table after a sweep is the table without the flows it closes. -/
theorem FlowAggregator.popAll_closing (a : FlowAggregator) (now : DateTime) :
    a.table.popAll (a.closing now) =
      ⟨a.table.maxFlows, a.table.flows.filter fun _ state => !a.closes state now⟩ := by
  have hfold : ∀ (entries : List (FlowKey × FlowState)) (table : FlowTable),
      (table.popAll entries).flows = (entries.map Prod.fst).foldl (fun d k => d.erase k) table.flows := by
    intro entries
    induction entries with
    | nil => exact fun _ => rfl
    | cons e entries ih => exact fun table => ih (table.pop e.1)
  rw [← FlowTable.popAll_maxFlows (a.closing now) a.table]
  refine congrArg (FlowTable.mk _) ((hfold _ _).trans ?_)
  rw [Dict.foldl_erase]
  refine Dict.filter_congr ?_
  intro key state hget
  -- the closing flows are found by key, and a key has one flow
  have hclosing : key ∈ (a.closing now).map Prod.fst ↔ a.closes state now = true := by
    constructor
    · intro hkey
      obtain ⟨e, he, rfl⟩ := List.mem_map.mp hkey
      obtain ⟨hentry, hcloses⟩ := List.mem_filter.mp he
      have hsame := Dict.mem_entries_iff.mp (show (e.1, e.2) ∈ a.table.flows.entries from hentry)
      rw [hget] at hsame
      rw [Option.some.inj hsame]
      exact hcloses
    · intro hcloses
      exact List.mem_map.mpr
        ⟨(key, state), List.mem_filter.mpr ⟨Dict.mem_entries_iff.mpr hget, hcloses⟩, rfl⟩
  rw [decide_not, Bool.not_inj_iff, ← Bool.coe_iff_coe, decide_eq_true_eq]
  exact hclosing

/-- A sweep moves the flows it closes from the table to the emitted ones. -/
theorem FlowAggregator.sweepTimeouts_flows (a : FlowAggregator) (now : DateTime) :
    (↑(a.sweepTimeouts now).1 : Multiset Flow) + (a.sweepTimeouts now).2.table.openFlows = a.table.openFlows := by
  have hopen : (a.sweepTimeouts now).2.table.openFlows =
      ↑((a.table.flows.entries.filter fun e => !a.closes e.2 now).map fun e => e.2.toFlow) := by
    rw [sweepTimeouts_eq, FlowTable.openFlows, FlowAggregator.popAll_closing, Dict.values, List.map_map]
    rfl
  have hclosed : (a.sweepTimeouts now).1 =
      (a.table.flows.entries.filter fun e => a.closes e.2 now).map fun e => e.2.toFlow := by
    rw [sweepTimeouts_eq]
    rfl
  rw [hopen, hclosed, FlowTable.openFlows, Dict.values, List.map_map, Multiset.coe_add, ← List.map_append]
  exact Multiset.coe_eq_coe.mpr
    ((List.filter_append_perm (fun e => a.closes e.2 now) a.table.flows.entries).map _)

theorem FlowAggregator.sweepTimeouts_kept {a : FlowAggregator} (h : a.table.WellKept) (now : DateTime) :
    (a.sweepTimeouts now).2.table.WellKept := by
  have hkept := h.filter fun _ state => !a.closes state now
  rw [← FlowAggregator.popAll_closing] at hkept
  rw [sweepTimeouts_eq]
  exact hkept

theorem FlowAggregator.sweepTimeouts_accounts (a : FlowAggregator) (now : DateTime) :
    emittedAccounts (a.sweepTimeouts now).1 + (a.sweepTimeouts now).2.table.accounts =
      a.table.accounts := by
  rw [emittedAccounts_eq, FlowTable.accounts_eq, ← Multiset.map_add, FlowAggregator.sweepTimeouts_flows,
    ← FlowTable.accounts_eq]

/-- Emitting open flows moves accounts and adds none. -/
theorem Conserved.emit {r : AggregatorRun} (h : Conserved config protectedNetwork packets r)
    {flows : List Flow} {a : FlowAggregator} (hnetwork : a.protectedNetwork = r.aggregator.protectedNetwork)
    (hmax : a.table.maxFlows = r.aggregator.table.maxFlows) (hkept : a.table.WellKept)
    (haccounts : emittedAccounts flows + a.table.accounts = r.aggregator.table.accounts) :
    Conserved config protectedNetwork packets ⟨r.emitted ++ flows, a⟩ := by
  refine ⟨hnetwork.trans h.network, hmax.trans h.maxFlows, hkept, ?_⟩
  rw [AggregatorRun.accounts, emittedAccounts_append, add_assoc, haccounts]
  exact h.ledger

theorem Conserved.sweep {r : AggregatorRun} (h : Conserved config protectedNetwork packets r)
    (now : DateTime) : Conserved config protectedNetwork packets (r.call (.sweep now)) := by
  show Conserved config protectedNetwork packets
    ⟨r.emitted ++ (r.aggregator.sweepTimeouts now).1, (r.aggregator.sweepTimeouts now).2⟩
  refine h.emit ?_ ?_ (FlowAggregator.sweepTimeouts_kept h.kept now)
    (FlowAggregator.sweepTimeouts_accounts r.aggregator now)
  · rw [sweepTimeouts_eq]
  · rw [sweepTimeouts_eq]
    exact FlowTable.popAll_maxFlows _ _

theorem Conserved.flush {r : AggregatorRun} (h : Conserved config protectedNetwork packets r) :
    Conserved config protectedNetwork packets (r.call .flush) := by
  refine h.emit rfl rfl ⟨h.kept.max_pos, Nat.zero_le _, ?_⟩ ?_
  · intro key state hget
    exact absurd hget (by simp)
  · show emittedAccounts (r.aggregator.table.flows.values.map FlowState.toFlow) + 0 = _
    rw [add_zero, emittedAccounts_eq, FlowTable.accounts_eq]
    rfl

/-- One call books the packet it brings, if it brings one. -/
theorem Conserved.call {r : AggregatorRun} (h : Conserved config protectedNetwork packets r)
    (call : AggregatorCall) :
    Conserved config protectedNetwork (packets ++ acceptedPackets protectedNetwork [call])
      (r.call call) := by
  cases call with
  | packet packet =>
    cases haccepted : packet.accepted protectedNetwork with
    | true =>
      simp only [acceptedPackets, List.filterMap_cons, haccepted, if_true, List.filterMap_nil]
      exact h.packet haccepted
    | false =>
      have hskip := FlowAggregator.processPacket_of_not_accepted (h.network.symm ▸ haccepted)
      simp only [acceptedPackets, List.filterMap_cons, haccepted, Bool.false_eq_true, if_false,
        List.filterMap_nil, List.append_nil, AggregatorRun.call, hskip]
      exact h
  | sweep now =>
    rw [show acceptedPackets protectedNetwork [.sweep now] = [] from rfl, List.append_nil]
    exact h.sweep now
  | flush =>
    rw [show acceptedPackets protectedNetwork [.flush] = [] from rfl, List.append_nil]
    exact h.flush

/-- A run books every packet it accepts. -/
theorem Conserved.run {r : AggregatorRun} (h : Conserved config protectedNetwork packets r)
    (calls : List AggregatorCall) :
    Conserved config protectedNetwork (packets ++ acceptedPackets protectedNetwork calls)
      (Lib.run AggregatorRun.call r calls) := by
  induction calls generalizing packets r with
  | nil => simpa [acceptedPackets] using h
  | cons call calls ih =>
    have hsplit : acceptedPackets protectedNetwork (call :: calls) =
        acceptedPackets protectedNetwork [call] ++ acceptedPackets protectedNetwork calls := by
      rw [acceptedPackets, acceptedPackets, acceptedPackets, ← List.filterMap_append]
      rfl
    rw [hsplit, ← List.append_assoc]
    exact ih (h.call call)

theorem Conserved.init (config : FlowConfig) (protectedNetwork : Option IPv4Network) :
    Conserved config protectedNetwork [] (.init config protectedNetwork) :=
  ⟨rfl, rfl, ⟨config.max_pos, Nat.zero_le _, fun _ _ hget => absurd hget (by simp [AggregatorRun.init,
    FlowAggregator.init])⟩, Ledger.zero _⟩

end Calls

/-- Filed under their own keys, the open flows have different keys. -/
theorem FlowTable.WellKept.keys_eq {table : FlowTable} (h : table.WellKept) :
    table.flows.values.map FlowState.key = table.flows.keys := by
  rw [Dict.values, List.map_map, Dict.keys]
  refine List.map_congr_left ?_
  intro e he
  exact h.keyed e.1 e.2 (Dict.mem_entries_iff.mp he)

/-- Whatever the packets, their order and their clocks, and whenever it is swept or flushed: the flows the
aggregator has emitted and those it still holds split the accepted packets between them, so that their
packets, bytes and payload bytes add up to those accepted; the directions of each add up to its totals; the
table stays within its bound, with one flow a key; and a flush leaves nothing open. -/
theorem packets_are_conserved (config : FlowConfig) (protectedNetwork : Option IPv4Network)
    (calls : List AggregatorCall) :
    let r := Lib.run AggregatorRun.call (.init config protectedNetwork) calls
    let packets := acceptedPackets protectedNetwork calls
    Ledger PacketMetadata.tally ↑packets (↑(r.emitted.map Flow.tally) + ↑(r.openStates.map FlowState.tally)) ∧
      (r.emitted.map Flow.tally).sum + (r.openStates.map FlowState.tally).sum =
        (packets.map PacketMetadata.tally).sum ∧
      (∀ flow ∈ r.emitted, flow.forwardPacketCount + flow.backwardPacketCount = flow.packetCount ∧
        flow.forwardByteCount + flow.backwardByteCount = flow.byteCount) ∧
      (∀ state ∈ r.openStates, state.forwardPacketCount + state.backwardPacketCount = state.packetCount ∧
        state.forwardByteCount + state.backwardByteCount = state.byteCount) ∧
      r.openStates.length ≤ config.maxFlows ∧
      (r.openStates.map FlowState.key).Nodup ∧
      (r.call .flush).openStates = [] := by
  intro r packets
  have h : Conserved config protectedNetwork packets r := (Conserved.init config protectedNetwork).run calls
  refine ⟨h.ledger, ?_, ?_, ?_, ?_, ?_, rfl⟩
  · have hsum := h.ledger.sum_eq
    rw [AggregatorRun.accounts, Multiset.sum_add, Multiset.map_coe, Multiset.sum_coe] at hsum
    exact hsum
  · intro flow _
    obtain ⟨_, _, _, _, _, hpackets, hbytes⟩ := flow.valid
    exact ⟨hpackets, hbytes⟩
  · exact fun state _ => ⟨state.packets_split, state.bytes_split⟩
  · rw [← h.maxFlows]
    exact le_of_eq_of_le (List.length_map _) h.kept.bounded
  · rw [AggregatorRun.openStates, h.kept.keys_eq]
    exact r.aggregator.table.flows.nodup

end Pirewall
