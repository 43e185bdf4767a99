/-
# Pirewall.Flow.SweepOrder -- a sweep before a packet, or after it

A sweep and a packet of the same instant do not commute in general: the packet may extend a flow the sweep would
close, or evict one that the sweep would have made room for. `SweepSpares` says that it does neither, and then the two
orders lead to the same table and hand out the same flows.

A packet is taken apart first. It touches its own flow and, where it opens one in a full table, the flow that is
evicted for it; `others` is the rest, which it leaves alone. So the two orders differ in two places at most: in the
packet's own flow, which the sweep must not close (`joined_eq`), and in what makes room. For that there are four
cases, a lemma each, of `OthersAgree`: the flow is open already, there is room, the flow that would be evicted is one
of those the sweep closes, or the sweep closes nothing. In the third the same flow is handed out by the eviction in
one order and by the sweep in the other.

The flows that are handed out agree as a multiset and not in their order: if the packet completes its own flow, that
one comes before those that the sweep closes, or behind them.

The native path sweeps before it feeds a frame and the Python path afterwards, which is where the two orders come
from.
-/
import Pirewall.Flow.Conservation

namespace Pirewall

open Lib

/-! ## A packet, in parts -/

namespace FlowTable

/-- The flow that makes room for a packet of the flow `key`, if one must, and the other flows that stay. -/
def others (table : FlowTable) (key : FlowKey) : Option FlowState × Dict FlowKey FlowState :=
  match table.flows.get? key with
  | some _ => (none, table.flows.erase key)
  | none =>
    if table.flows.size ≥ table.maxFlows then (table.flows.values.head?, table.flows.popFirst)
    else (none, table.flows)

/-- The packet's own flow is not among the others. -/
theorem others_get? (table : FlowTable) (key : FlowKey) : (table.others key).2.get? key = none := by
  unfold others
  cases hget : table.flows.get? key with
  | some state => exact by simp
  | none =>
    dsimp only
    split_ifs
    · refine Option.eq_none_iff_forall_ne_some.mpr fun state hpop => ?_
      rw [Dict.get?_of_popFirst hpop] at hget
      cases hget
    · exact hget

end FlowTable

/-- Only an IPv4 packet is accepted. -/
theorem PacketMetadata.network_of_accepted {packet : PacketMetadata} {protectedNetwork : Option IPv4Network}
    (h : packet.accepted protectedNetwork = true) :
    ∃ sourceIp destinationIp, packet.network = .ipv4 sourceIp destinationIp := by
  cases hnet : packet.network with
  | ipv4 sourceIp destinationIp => exact ⟨sourceIp, destinationIp, rfl⟩
  | ipv6 _ _ =>
    unfold PacketMetadata.accepted at h
    rw [hnet] at h
    cases h

namespace FlowAggregator

/-- The key a packet is filed under. -/
def keyOf (packet : PacketMetadata) (sourceIp destinationIp : IPv4Address) : FlowKey :=
  computeFlowKey sourceIp destinationIp packet.sourcePort packet.destinationPort packet.protocol

/-- The packet's flow, with the packet in it. -/
def joined (a : FlowAggregator) (packet : PacketMetadata) (sourceIp destinationIp : IPv4Address) : FlowState :=
  match a.table.flows.get? (keyOf packet sourceIp destinationIp) with
  | some state => state.observe packet
  | none => .opening (keyOf packet sourceIp destinationIp) packet sourceIp destinationIp

/-- The open flows after a packet: the others, and its own unless it closes. -/
def openAfter (a : FlowAggregator) (packet : PacketMetadata) (sourceIp destinationIp : IPv4Address) :
    List (FlowKey × FlowState) :=
  (a.table.others (keyOf packet sourceIp destinationIp)).2.entries ++
    if a.closes (a.joined packet sourceIp destinationIp) packet.timestamp then []
    else [(keyOf packet sourceIp destinationIp, a.joined packet sourceIp destinationIp)]

/-- The flows a packet hands out: the evicted one, and its own if it closes. -/
def emittedBy (a : FlowAggregator) (packet : PacketMetadata) (sourceIp destinationIp : IPv4Address) : List Flow :=
  (a.table.others (keyOf packet sourceIp destinationIp)).1.toList.map FlowState.toFlow ++
    if a.closes (a.joined packet sourceIp destinationIp) packet.timestamp then
      [(a.joined packet sourceIp destinationIp).toFlow]
    else []

/-- The table after `settle`, and what it hands out. -/
theorem settle_eq {a : FlowAggregator} {table : FlowTable} {others : Dict FlowKey FlowState} {key : FlowKey}
    {state : FlowState} (hentries : table.flows.entries = others.entries ++ [(key, state)])
    (hothers : others.get? key = none) (now : DateTime) :
    (a.settle table key state now).2.table.flows.entries =
        others.entries ++ (if a.closes state now then [] else [(key, state)]) ∧
      (a.settle table key state now).2.table.maxFlows = table.maxFlows ∧
      (a.settle table key state now).1 = if a.closes state now then [state.toFlow] else [] := by
  unfold settle
  split_ifs
  · refine ⟨?_, rfl, rfl⟩
    have hself : others.entries.filter (fun e => decide (e.1 ≠ key)) = others.entries :=
      congrArg Dict.entries (Dict.erase_of_none hothers)
    show table.flows.entries.filter (fun e => decide (e.1 ≠ key)) = _
    rw [hentries, List.filter_append, hself]
    simp
  · exact ⟨hentries, rfl, rfl⟩

/-- `route`: the packet's flow goes to the end of the table. -/
theorem route_eq (a : FlowAggregator) (packet : PacketMetadata) (sourceIp destinationIp : IPv4Address) :
    let key := keyOf packet sourceIp destinationIp
    let routed := a.route packet sourceIp destinationIp key
    routed.1 = (a.table.others key).1.toList.map FlowState.toFlow ∧
      routed.2.2.1 = a.joined packet sourceIp destinationIp ∧
      routed.2.2.2.flows.entries =
        (a.table.others key).2.entries ++ [(key, a.joined packet sourceIp destinationIp)] ∧
      routed.2.2.2.maxFlows = a.table.maxFlows := by
  intro key
  have hothers := a.table.others_get? key
  unfold joined route FlowTable.others FlowTable.get at *
  cases hget : a.table.flows.get? key with
  | some state => exact ⟨rfl, rfl, Dict.entries_set_moveToEnd hget _, rfl⟩
  | none =>
    rw [hget] at hothers
    unfold FlowTable.insert
    dsimp only at hothers ⊢
    split_ifs at hothers ⊢
    · exact ⟨rfl, rfl, Dict.entries_set_of_none hothers _, rfl⟩
    · exact ⟨rfl, rfl, Dict.entries_set_of_none hothers _, rfl⟩

/-- `process_packet`, of a packet that is accepted. -/
theorem processPacket_eq (a : FlowAggregator) {packet : PacketMetadata} {sourceIp destinationIp : IPv4Address}
    (hnet : packet.network = .ipv4 sourceIp destinationIp)
    (haccepted : packet.accepted a.protectedNetwork = true) :
    (a.processPacket packet).1 = a.emittedBy packet sourceIp destinationIp ∧
      (a.processPacket packet).2.2.table.flows.entries = a.openAfter packet sourceIp destinationIp ∧
      (a.processPacket packet).2.2.table.maxFlows = a.table.maxFlows ∧
      (a.processPacket packet).2.2 = { a with table := (a.processPacket packet).2.2.table } := by
  have hguard : (!isRoutableUnicast sourceIp a.protectedNetwork ||
      !isRoutableUnicast destinationIp a.protectedNetwork) = false := by
    unfold PacketMetadata.accepted at haccepted
    rw [hnet] at haccepted
    rw [← Bool.not_and]
    exact congrArg not haccepted
  obtain ⟨hevicted, hstate, hentries, hmax⟩ := a.route_eq packet sourceIp destinationIp
  have hothers := a.table.others_get? (keyOf packet sourceIp destinationIp)
  rw [← hstate] at hentries
  obtain ⟨hopen, hmax', hclosed⟩ := settle_eq (a := a) hentries hothers packet.timestamp
  simp only [processPacket, hnet, hguard, Bool.false_eq_true, if_false]
  refine ⟨?_, ?_, hmax'.trans hmax, ?_⟩
  · rw [emittedBy, ← hstate, ← hevicted]
    exact congrArg _ hclosed
  · rw [openAfter, ← hstate]
    exact hopen
  · unfold settle
    split_ifs <;> rfl

/-! ## The two orders -/

/-- The flows of some entries that are closed as of `now`. -/
def closed (a : FlowAggregator) (now : DateTime) (entries : List (FlowKey × FlowState)) : List Flow :=
  (entries.filter fun e => a.closes e.2 now).map fun e => e.2.toFlow

/-- The entries that are not. -/
def spared (a : FlowAggregator) (now : DateTime) (entries : List (FlowKey × FlowState)) :
    List (FlowKey × FlowState) :=
  entries.filter fun e => !a.closes e.2 now

theorem sweepTimeouts_spec (a : FlowAggregator) (now : DateTime) :
    (a.sweepTimeouts now).1 = a.closed now a.table.flows.entries ∧
      (a.sweepTimeouts now).2.table.flows.entries = a.spared now a.table.flows.entries ∧
      (a.sweepTimeouts now).2 =
        { a with table := ⟨a.table.maxFlows, a.table.flows.filter fun _ state => !a.closes state now⟩ } := by
  rw [sweepTimeouts_eq, a.popAll_closing]
  exact ⟨rfl, rfl, rfl⟩

/-- A sweep at the time of the packet does not close the packet's own flow; and where the packet opens a flow in a
full table, the sweep closes nothing, or the flow the packet evicts. -/
structure SweepSpares (a : FlowAggregator) (packet : PacketMetadata) (sourceIp destinationIp : IPv4Address) :
    Prop where
  own : ∀ state, a.table.flows.get? (keyOf packet sourceIp destinationIp) = some state →
    a.closes state packet.timestamp = false
  room : a.table.flows.get? (keyOf packet sourceIp destinationIp) = none →
    a.table.flows.size ≥ a.table.maxFlows → (∃ e ∈ a.table.flows.entries, a.closes e.2 packet.timestamp = true) →
      ∃ oldest ∈ a.table.flows.values.head?, a.closes oldest packet.timestamp = true

variable {a : FlowAggregator} {packet : PacketMetadata} {sourceIp destinationIp : IPv4Address}

/-- The packet finds its flow as it was before the sweep. -/
theorem SweepSpares.joined_eq (h : a.SweepSpares packet sourceIp destinationIp) :
    (a.sweepTimeouts packet.timestamp).2.joined packet sourceIp destinationIp =
      a.joined packet sourceIp destinationIp := by
  obtain ⟨-, -, hswept⟩ := a.sweepTimeouts_spec packet.timestamp
  rw [hswept]
  unfold joined
  cases hget : a.table.flows.get? (keyOf packet sourceIp destinationIp) with
  | none => simp only [Dict.get?_filter, hget, Option.filter_none]
  | some state =>
    have hstays : (a.table.flows.filter fun _ state => !a.closes state packet.timestamp).get?
        (keyOf packet sourceIp destinationIp) = some state := by
      simp [Dict.get?_filter, hget, h.own state hget]
    simp only [hstays]

/-- The table that a sweep leaves. -/
def sweptTable (a : FlowAggregator) (now : DateTime) : FlowTable :=
  ⟨a.table.maxFlows, a.table.flows.filter fun _ state => !a.closes state now⟩

/-- The others, and what is handed out of them: the same whether the sweep comes before the packet or after it. -/
structure OthersAgree (a : FlowAggregator) (now : DateTime) (key : FlowKey) : Prop where
  entries : ((a.sweptTable now).others key).2.entries = a.spared now (a.table.others key).2.entries
  handed : a.closed now a.table.flows.entries ++ ((a.sweptTable now).others key).1.toList.map FlowState.toFlow =
    (a.table.others key).1.toList.map FlowState.toFlow ++ a.closed now (a.table.others key).2.entries

variable {now : DateTime} {key : FlowKey}

theorem others_of_some {table : FlowTable} {state : FlowState} (hget : table.flows.get? key = some state) :
    table.others key = (none, table.flows.erase key) := by
  unfold FlowTable.others
  rw [hget]

theorem others_of_room {table : FlowTable} (hget : table.flows.get? key = none)
    (hroom : table.flows.size < table.maxFlows) : table.others key = (none, table.flows) := by
  unfold FlowTable.others
  rw [hget]
  exact if_neg (by omega)

theorem others_of_full {table : FlowTable} (hget : table.flows.get? key = none)
    (hfull : table.maxFlows ≤ table.flows.size) :
    table.others key = (table.flows.values.head?, table.flows.popFirst) := by
  unfold FlowTable.others
  rw [hget]
  exact if_pos hfull

theorem sweptTable_get?_none (hget : a.table.flows.get? key = none) : (a.sweptTable now).flows.get? key = none := by
  show (a.table.flows.filter fun _ state => !a.closes state now).get? key = none
  simp [Dict.get?_filter, hget]

theorem sweptTable_size_le (a : FlowAggregator) (now : DateTime) :
    (a.sweptTable now).flows.size ≤ a.table.flows.size := List.length_filter_le _ _

/-- The packet's flow is there, and is not one of those that close. -/
theorem OthersAgree.of_open {state : FlowState} (hget : a.table.flows.get? key = some state)
    (hopen : a.closes state now = false) : a.OthersAgree now key := by
  have hstays : (a.sweptTable now).flows.get? key = some state := by
    show (a.table.flows.filter fun _ state => !a.closes state now).get? key = some state
    simp [Dict.get?_filter, hget, hopen]
  constructor
  · rw [others_of_some hstays, others_of_some hget]
    show (a.table.flows.entries.filter _).filter _ = (a.table.flows.entries.filter _).filter _
    rw [List.filter_filter, List.filter_filter]
    exact List.filter_congr fun e _ => Bool.and_comm _ _
  · rw [others_of_some hstays, others_of_some hget]
    show a.closed now a.table.flows.entries ++ [] =
      [] ++ a.closed now (a.table.flows.entries.filter fun e => decide (e.1 ≠ key))
    rw [List.append_nil, List.nil_append]
    unfold closed
    rw [List.filter_filter]
    congr 1
    refine List.filter_congr fun e he => ?_
    cases hcloses : a.closes e.2 now with
    | false => rfl
    | true =>
      have hother : e.1 ≠ key := by
        intro heq
        have hsame := Dict.mem_entries_iff.mp (show (e.1, e.2) ∈ a.table.flows.entries from he)
        rw [heq, hget] at hsame
        rw [← Option.some.inj hsame, hopen] at hcloses
        cases hcloses
      simp [hother]

/-- The packet opens a flow, and there is room for it. -/
theorem OthersAgree.of_room (hget : a.table.flows.get? key = none)
    (hroom : a.table.flows.size < a.table.maxFlows) : a.OthersAgree now key := by
  have hroom' : (a.sweptTable now).flows.size < (a.sweptTable now).maxFlows :=
    (a.sweptTable_size_le now).trans_lt hroom
  constructor
  · rw [others_of_room (sweptTable_get?_none hget) hroom', others_of_room hget hroom]
    rfl
  · rw [others_of_room (sweptTable_get?_none hget) hroom', others_of_room hget hroom]
    exact List.append_nil _

/-- It opens one in a full table, and the sweep makes the room that the packet would make. -/
theorem OthersAgree.of_first_closes (hget : a.table.flows.get? key = none)
    (hfull : a.table.flows.size = a.table.maxFlows) {first : FlowKey × FlowState} {rest : List (FlowKey × FlowState)}
    (hentries : a.table.flows.entries = first :: rest) (hcloses : a.closes first.2 now = true) :
    a.OthersAgree now key := by
  have hspared : a.spared now a.table.flows.entries = a.spared now rest := by
    unfold spared
    rw [hentries, List.filter_cons_of_neg (by simp [hcloses])]
  have hroom : (a.sweptTable now).flows.size < (a.sweptTable now).maxFlows := by
    show (a.spared now a.table.flows.entries).length < a.table.maxFlows
    rw [hspared, ← hfull]
    show _ < a.table.flows.entries.length
    rw [hentries, List.length_cons]
    exact Nat.lt_succ_of_le (List.length_filter_le _ _)
  constructor
  · rw [others_of_room (sweptTable_get?_none hget) hroom, others_of_full hget hfull.ge]
    show a.spared now a.table.flows.entries = a.spared now a.table.flows.entries.tail
    rw [hspared, hentries, List.tail_cons]
  · rw [others_of_room (sweptTable_get?_none hget) hroom, others_of_full hget hfull.ge]
    show a.closed now a.table.flows.entries ++ [] =
      (a.table.flows.entries.map Prod.snd).head?.toList.map FlowState.toFlow ++
        a.closed now a.table.flows.entries.tail
    unfold closed
    rw [hentries, List.filter_cons_of_pos (by exact hcloses), List.append_nil]
    rfl

/-- It opens one, and the sweep closes nothing. -/
theorem OthersAgree.of_none_closes (hget : a.table.flows.get? key = none)
    (hfull : a.table.maxFlows ≤ a.table.flows.size)
    (hnone : ∀ e ∈ a.table.flows.entries, a.closes e.2 now = false) : a.OthersAgree now key := by
  have hself : a.sweptTable now = a.table := by
    unfold sweptTable
    rw [show (a.table.flows.filter fun _ state => !a.closes state now) = a.table.flows from
      Dict.ext (List.filter_eq_self.mpr fun e he => by simp [hnone e he])]
  have hclosed : ∀ entries ⊆ a.table.flows.entries, a.closed now entries = [] := by
    intro entries hsub
    unfold closed
    rw [List.filter_eq_nil_iff.mpr fun e he => by simp [hnone e (hsub he)], List.map_nil]
  constructor
  · rw [hself, others_of_full hget hfull]
    exact (List.filter_eq_self.mpr fun e he => by rw [hnone e (List.mem_of_mem_tail he)]; rfl).symm
  · rw [hself, others_of_full hget hfull, hclosed _ (List.Subset.refl _)]
    show [] ++ _ = _ ++ a.closed now a.table.flows.entries.tail
    rw [hclosed _ (List.tail_subset _), List.nil_append, List.append_nil]

/-- What the sweep spares, it leaves to the packet as it was. -/
theorem SweepSpares.othersAgree (h : a.SweepSpares packet sourceIp destinationIp)
    (hbounded : a.table.flows.size ≤ a.table.maxFlows) :
    a.OthersAgree packet.timestamp (keyOf packet sourceIp destinationIp) := by
  cases hget : a.table.flows.get? (keyOf packet sourceIp destinationIp) with
  | some state => exact .of_open hget (h.own state hget)
  | none =>
    by_cases hfull : a.table.maxFlows ≤ a.table.flows.size
    · by_cases hany : ∃ e ∈ a.table.flows.entries, a.closes e.2 packet.timestamp = true
      · -- it is the oldest one that closes
        obtain ⟨oldest, hhead, hcloses⟩ := h.room hget hfull hany
        unfold Dict.values at hhead
        cases hentries : a.table.flows.entries with
        | nil => simp [hentries] at hhead
        | cons first rest =>
          rw [hentries] at hhead
          obtain rfl : first.2 = oldest := Option.some.inj hhead
          exact .of_first_closes hget (by omega) hentries hcloses
      · refine .of_none_closes hget hfull fun e he => ?_
        cases hcloses : a.closes e.2 packet.timestamp with
        | false => rfl
        | true => exact absurd ⟨e, he, hcloses⟩ hany
    · exact .of_room hget (by omega)

/-- A packet of an accepted flow and a sweep at its time: the sweep may come first or last. -/
theorem sweep_packet_comm (hbounded : a.table.flows.size ≤ a.table.maxFlows)
    (hnet : packet.network = .ipv4 sourceIp destinationIp)
    (haccepted : packet.accepted a.protectedNetwork = true) (h : a.SweepSpares packet sourceIp destinationIp) :
    let swept := a.sweepTimeouts packet.timestamp
    let fed := a.processPacket packet
    (swept.2.processPacket packet).2.2 = (fed.2.2.sweepTimeouts packet.timestamp).2 ∧
      (↑(swept.1 ++ (swept.2.processPacket packet).1) : Multiset Flow) =
        ↑(fed.1 ++ (fed.2.2.sweepTimeouts packet.timestamp).1) := by
  intro swept fed
  obtain ⟨hclosed, hspared, hswept⟩ := a.sweepTimeouts_spec packet.timestamp
  obtain ⟨hemitted, hopen, hmax, hfed⟩ := a.processPacket_eq hnet haccepted
  obtain ⟨hothers, hhanded⟩ := h.othersAgree hbounded
  have hsweptTable : a.sweptTable packet.timestamp = swept.2.table := (congrArg FlowAggregator.table hswept).symm
  rw [hsweptTable] at hothers hhanded
  have hjoined := h.joined_eq
  -- the settings stay, so that either side closes the same flows
  have haccepted' : packet.accepted swept.2.protectedNetwork = true := by
    show packet.accepted (a.sweepTimeouts packet.timestamp).2.protectedNetwork = true
    rw [hswept]
    exact haccepted
  obtain ⟨hemitted', hopen', hmax', hfed'⟩ := swept.2.processPacket_eq hnet haccepted'
  obtain ⟨hclosed', hspared', hswept'⟩ := fed.2.2.sweepTimeouts_spec packet.timestamp
  have hcloses : ∀ state, swept.2.closes state packet.timestamp = a.closes state packet.timestamp := by
    intro state
    show (a.sweepTimeouts packet.timestamp).2.closes state packet.timestamp = _
    rw [hswept]
    rfl
  have hfedClosed : fed.2.2.closed packet.timestamp = a.closed packet.timestamp := by
    show (a.processPacket packet).2.2.closed packet.timestamp = _
    rw [hfed]
    rfl
  have hfedSpared : fed.2.2.spared packet.timestamp = a.spared packet.timestamp := by
    show (a.processPacket packet).2.2.spared packet.timestamp = _
    rw [hfed]
    rfl
  unfold openAfter at hopen hopen'
  unfold emittedBy at hemitted hemitted'
  rw [hjoined, hcloses] at hopen' hemitted'
  rw [hfedSpared, hopen, spared, List.filter_append] at hspared'
  rw [hfedClosed, hopen, closed, List.filter_append, List.map_append] at hclosed'
  constructor
  · have hentries : (swept.2.processPacket packet).2.2.table.flows.entries =
        (fed.2.2.sweepTimeouts packet.timestamp).2.table.flows.entries := by
      rw [hopen', hspared', show _ = _ from hothers]
      refine congrArg _ ?_
      split_ifs with hown
      · rfl
      · simp [hown]
    have hmaxFlows : (swept.2.processPacket packet).2.2.table.maxFlows =
        (fed.2.2.sweepTimeouts packet.timestamp).2.table.maxFlows := by
      rw [hmax', hswept', show swept.2.table.maxFlows = a.table.maxFlows from by
        show (a.sweepTimeouts packet.timestamp).2.table.maxFlows = _
        rw [hswept]]
      exact hmax.symm
    have htable : (swept.2.processPacket packet).2.2.table =
        (fed.2.2.sweepTimeouts packet.timestamp).2.table := by
      have hext : ∀ t t' : FlowTable, t.maxFlows = t'.maxFlows → t.flows.entries = t'.flows.entries → t = t' := by
        intro t t' hmax hflows
        cases t
        cases t'
        cases hmax
        exact congrArg _ (Dict.ext hflows)
      exact hext _ _ hmaxFlows hentries
    rw [hfed', htable, hswept']
    show FlowAggregator.mk _ (a.sweepTimeouts packet.timestamp).2.activeTimeoutSeconds
        (a.sweepTimeouts packet.timestamp).2.inactiveTimeoutSeconds
        (a.sweepTimeouts packet.timestamp).2.protectedNetwork =
      FlowAggregator.mk _ (a.processPacket packet).2.2.activeTimeoutSeconds
        (a.processPacket packet).2.2.inactiveTimeoutSeconds (a.processPacket packet).2.2.protectedNetwork
    rw [hfed, hswept]
  · rw [hemitted', hclosed, hclosed', hemitted, ← List.append_assoc, hhanded]
    have hown : ((if a.closes (a.joined packet sourceIp destinationIp) packet.timestamp = true then []
        else [(keyOf packet sourceIp destinationIp, a.joined packet sourceIp destinationIp)]).filter
          fun e => a.closes e.2 packet.timestamp) = [] := by
      split_ifs with hcloses
      · rfl
      · simp [hcloses]
    rw [hown, List.map_nil, List.append_nil]
    show (↑((_ ++ a.closed packet.timestamp _) ++ _) : Multiset Flow) = ↑((_ ++ _) ++ a.closed packet.timestamp _)
    simp only [← Multiset.coe_add]
    abel

/-- The sweep spares what the packet touches, if it touches anything. -/
def SparesPacket (a : FlowAggregator) (packet : PacketMetadata) : Prop :=
  ∀ sourceIp destinationIp, packet.network = .ipv4 sourceIp destinationIp →
    packet.accepted a.protectedNetwork = true → a.SweepSpares packet sourceIp destinationIp

end FlowAggregator

/-- The two calls, in a run: the aggregator after them is the same, and so are the flows handed out. -/
theorem AggregatorRun.sweep_packet_comm {r : AggregatorRun} {packet : PacketMetadata}
    (hbounded : r.aggregator.table.flows.size ≤ r.aggregator.table.maxFlows)
    (h : r.aggregator.SparesPacket packet) :
    let swept := (r.call (.sweep packet.timestamp)).call (.packet packet)
    let fed := (r.call (.packet packet)).call (.sweep packet.timestamp)
    swept.aggregator = fed.aggregator ∧ (↑swept.emitted : Multiset Flow) = ↑fed.emitted := by
  cases haccepted : packet.accepted r.aggregator.protectedNetwork with
  | false =>
    have hskip := FlowAggregator.processPacket_of_not_accepted haccepted
    have hskip' : (r.aggregator.sweepTimeouts packet.timestamp).2.processPacket packet =
        ([], [], (r.aggregator.sweepTimeouts packet.timestamp).2) := by
      apply FlowAggregator.processPacket_of_not_accepted
      rw [(r.aggregator.sweepTimeouts_spec packet.timestamp).2.2]
      exact haccepted
    simp only [AggregatorRun.call, hskip, hskip', List.append_nil]
    exact ⟨trivial, trivial⟩
  | true =>
    obtain ⟨sourceIp, destinationIp, hnet⟩ := PacketMetadata.network_of_accepted haccepted
    obtain ⟨haggregator, hemitted⟩ := FlowAggregator.sweep_packet_comm hbounded hnet haccepted
      (h sourceIp destinationIp hnet haccepted)
    refine ⟨haggregator, ?_⟩
    show (↑(r.emitted ++ _ ++ _) : Multiset Flow) = ↑(r.emitted ++ _ ++ _)
    rw [List.append_assoc, List.append_assoc, ← Multiset.coe_add, ← Multiset.coe_add]
    exact congrArg _ hemitted

end Pirewall
