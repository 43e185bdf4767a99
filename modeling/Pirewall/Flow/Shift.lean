/-
# Pirewall.Flow.Shift -- the aggregator on another clock

The aggregator compares times only with one another. So the same packets a constant time later, swept that much later,
leave the same flows in its table and hand out the same flows, that much later.

A replay needs this: the engine that replays a capture moves its frames to the present, or leaves them where they were
recorded, and apart from that the two replays should not differ. The offset is a number of microseconds, and
`DateTime.Shifted` relates two times by it. Every relation below is that one, carried through the fields that are
times: the packets, the accumulator of an open flow, the flow that is handed out, the entries of the table in their
order, and the aggregator with what it has handed out so far. The fields that are not times are equal, among them the
features that are made of time differences: the duration and the gaps between packets.

Nothing is said of a clock that is off by a varying amount, which a sweep would notice.
-/
import Pirewall.Flow.SweepOrder

namespace Pirewall

open Lib

/-! ## Times, packets and flows -/

/-- The second time is `offsetUs` after the first. -/
def DateTime.Shifted (offsetUs : Int) (a a' : DateTime) : Prop := a'.us = a.us + offsetUs

variable {offsetUs : Int}

/-- A difference of two times does not depend on the clock. -/
theorem DateTime.Shifted.secondsSince {a a' b b' : DateTime} (ha : DateTime.Shifted offsetUs a a')
    (hb : DateTime.Shifted offsetUs b b') : a'.secondsSince b' = a.secondsSince b := by
  have hdiff : a'.us - b'.us = a.us - b.us := by
    unfold DateTime.Shifted at ha hb
    omega
  unfold DateTime.secondsSince
  rw [hdiff]

/-- Which of two times is later does not depend on the clock. -/
theorem DateTime.Shifted.gt_iff {a a' b b' : DateTime} (ha : DateTime.Shifted offsetUs a a')
    (hb : DateTime.Shifted offsetUs b b') : a'.us > b'.us ↔ a.us > b.us := by
  unfold DateTime.Shifted at ha hb
  omega

/-- The same packet at another time. -/
structure PacketMetadata.Shifted (offsetUs : Int) (packet packet' : PacketMetadata) : Prop where
  timestamp : DateTime.Shifted offsetUs packet.timestamp packet'.timestamp
  rest : packet' = { packet with timestamp := packet'.timestamp }

/-- The same accumulator at another time. -/
structure FlowState.Shifted (offsetUs : Int) (state state' : FlowState) : Prop where
  firstSeen : DateTime.Shifted offsetUs state.firstSeen state'.firstSeen
  lastSeen : DateTime.Shifted offsetUs state.lastSeen state'.lastSeen
  lastPacketTime : Option.Rel (DateTime.Shifted offsetUs) state.lastPacketTime state'.lastPacketTime
  rest : state' = { state with
    firstSeen := state'.firstSeen
    lastSeen := state'.lastSeen
    lastPacketTime := state'.lastPacketTime
    first_le_last := state'.first_le_last }

/-- The same flow at another time. -/
structure Flow.Shifted (offsetUs : Int) (flow flow' : Flow) : Prop where
  firstSeen : DateTime.Shifted offsetUs flow.firstSeen flow'.firstSeen
  lastSeen : DateTime.Shifted offsetUs flow.lastSeen flow'.lastSeen
  rest : flow'.toFlowFields =
    { flow.toFlowFields with firstSeen := flow'.firstSeen, lastSeen := flow'.lastSeen }

/-- The flow of an accumulator, on either clock. -/
theorem FlowState.Shifted.toFlow {state state' : FlowState} (h : FlowState.Shifted offsetUs state state') :
    Flow.Shifted offsetUs state.toFlow state'.toFlow := by
  refine ⟨h.firstSeen, h.lastSeen, ?_⟩
  show state'.flowFields = { state.flowFields with firstSeen := state'.firstSeen, lastSeen := state'.lastSeen }
  rw [h.rest]
  rfl

/-- What `observe` makes of the times does not reach the other fields, except for the gaps between packets. -/
theorem observe_times (state : FlowState) (packet : PacketMetadata) {firstSeen lastSeen : DateTime}
    (hle : firstSeen.us ≤ lastSeen.us) (lastPacketTime : Option DateTime) (timestamp : DateTime) :
    let observed := FlowState.observe
      { state with
        firstSeen := firstSeen, lastSeen := lastSeen, lastPacketTime := lastPacketTime, first_le_last := hle }
      { packet with timestamp := timestamp }
    observed = { state.observe packet with
      firstSeen := observed.firstSeen
      lastSeen := observed.lastSeen
      lastPacketTime := observed.lastPacketTime
      interArrivalStats := observed.interArrivalStats
      first_le_last := observed.first_le_last } := rfl

/-- `observe`, on either clock. -/
theorem FlowState.Shifted.observe {state state' : FlowState} (h : FlowState.Shifted offsetUs state state')
    {packet packet' : PacketMetadata} (hpacket : PacketMetadata.Shifted offsetUs packet packet') :
    FlowState.Shifted offsetUs (state.observe packet) (state'.observe packet') := by
  obtain ⟨hfirst, hlast, htime, hrest⟩ := h
  obtain ⟨hstamp, hsame⟩ := hpacket
  refine ⟨hfirst, ?_, .some hstamp, ?_⟩
  · show DateTime.Shifted offsetUs
      (if packet.timestamp.us > state.lastSeen.us then packet.timestamp else state.lastSeen)
      (if packet'.timestamp.us > state'.lastSeen.us then packet'.timestamp else state'.lastSeen)
    by_cases hgt : packet.timestamp.us > state.lastSeen.us
    · rw [if_pos hgt, if_pos ((hstamp.gt_iff hlast).mpr hgt)]
      exact hstamp
    · rw [if_neg hgt, if_neg (mt (hstamp.gt_iff hlast).mp hgt)]
      exact hlast
  · have harrival : (state'.observe packet').interArrivalStats = (state.observe packet).interArrivalStats := by
      have hstats : state'.interArrivalStats = state.interArrivalStats := by
        rw [hrest]
      unfold FlowState.observe
      dsimp only
      cases hprevious : state.lastPacketTime with
      | none =>
        rw [hprevious] at htime
        cases hprevious' : state'.lastPacketTime with
        | none => exact hstats
        | some previous => rw [hprevious'] at htime; cases htime
      | some previous =>
        rw [hprevious] at htime
        cases hprevious' : state'.lastPacketTime with
        | none => rw [hprevious'] at htime; cases htime
        | some previous' =>
          rw [hprevious'] at htime
          obtain ⟨hshift⟩ := htime
          have helapsed := hstamp.secondsSince hshift
          simp only [hstats, helapsed]
    have hobserve := observe_times state packet state'.first_le_last state'.lastPacketTime packet'.timestamp
    rw [← hrest, ← hsame] at hobserve
    simp only [harrival] at hobserve
    exact hobserve

/-- `opening`, on either clock. -/
theorem FlowState.Shifted.opening {packet packet' : PacketMetadata}
    (hpacket : PacketMetadata.Shifted offsetUs packet packet') (key : FlowKey)
    (sourceIp destinationIp : IPv4Address) :
    FlowState.Shifted offsetUs (.opening key packet sourceIp destinationIp)
      (.opening key packet' sourceIp destinationIp) := by
  refine FlowState.Shifted.observe ⟨hpacket.timestamp, hpacket.timestamp, .none, ?_⟩ hpacket
  rw [hpacket.rest]
  rfl

/-! ## The aggregator -/

/-- The same aggregator on another clock. -/
structure FlowAggregator.Shifted (offsetUs : Int) (a a' : FlowAggregator) : Prop where
  maxFlows : a'.table.maxFlows = a.table.maxFlows
  flows : a.table.flows.Rel (FlowState.Shifted offsetUs) a'.table.flows
  activeTimeoutSeconds : a'.activeTimeoutSeconds = a.activeTimeoutSeconds
  inactiveTimeoutSeconds : a'.inactiveTimeoutSeconds = a.inactiveTimeoutSeconds
  protectedNetwork : a'.protectedNetwork = a.protectedNetwork

namespace FlowAggregator

variable {a a' : FlowAggregator}

/-- The same flows close. -/
theorem Shifted.closes (h : Shifted offsetUs a a') {state state' : FlowState}
    (hstate : FlowState.Shifted offsetUs state state') {now now' : DateTime}
    (hnow : DateTime.Shifted offsetUs now now') : a'.closes state' now' = a.closes state now := by
  have hcompleted : isTcpCompleted state' = isTcpCompleted state := by
    rw [hstate.rest]
    rfl
  unfold FlowAggregator.closes checkClosure
  rw [hcompleted, hnow.secondsSince hstate.firstSeen, hnow.secondsSince hstate.lastSeen, h.activeTimeoutSeconds,
    h.inactiveTimeoutSeconds]

/-- The same entries, on either clock. -/
abbrev SameEntries (offsetUs : Int) : List (FlowKey × FlowState) → List (FlowKey × FlowState) → Prop :=
  List.Forall₂ fun e e' => e.1 = e'.1 ∧ FlowState.Shifted offsetUs e.2 e'.2

/-- The same entries stay open. -/
theorem Shifted.spared (h : Shifted offsetUs a a') {now now' : DateTime}
    (hnow : DateTime.Shifted offsetUs now now') {entries entries' : List (FlowKey × FlowState)}
    (hentries : SameEntries offsetUs entries entries') :
    SameEntries offsetUs (a.spared now entries) (a'.spared now' entries') := by
  refine List.rel_filter ?_ hentries
  intro e e' he
  simp only [h.closes he.2 hnow]

/-- The same flows are handed out. -/
theorem Shifted.closed (h : Shifted offsetUs a a') {now now' : DateTime}
    (hnow : DateTime.Shifted offsetUs now now') {entries entries' : List (FlowKey × FlowState)}
    (hentries : SameEntries offsetUs entries entries') :
    List.Forall₂ (Flow.Shifted offsetUs) (a.closed now entries) (a'.closed now' entries') := by
  have hfiltered : SameEntries offsetUs (entries.filter fun e => a.closes e.2 now)
      (entries'.filter fun e => a'.closes e.2 now') := by
    refine List.rel_filter ?_ hentries
    intro e e' he
    simp only [h.closes he.2 hnow]
  unfold FlowAggregator.closed
  rw [List.forall₂_map_left_iff, List.forall₂_map_right_iff]
  exact hfiltered.imp fun _ _ he => he.2.toFlow

/-- `sweep_timeouts`, on either clock. -/
theorem Shifted.sweepTimeouts (h : Shifted offsetUs a a') {now now' : DateTime}
    (hnow : DateTime.Shifted offsetUs now now') :
    List.Forall₂ (Flow.Shifted offsetUs) (a.sweepTimeouts now).1 (a'.sweepTimeouts now').1 ∧
      Shifted offsetUs (a.sweepTimeouts now).2 (a'.sweepTimeouts now').2 := by
  obtain ⟨hclosed, -, hswept⟩ := a.sweepTimeouts_spec now
  obtain ⟨hclosed', -, hswept'⟩ := a'.sweepTimeouts_spec now'
  rw [hclosed, hclosed', hswept, hswept']
  exact ⟨h.closed hnow h.flows, h.maxFlows, h.spared hnow h.flows, h.activeTimeoutSeconds, h.inactiveTimeoutSeconds,
    h.protectedNetwork⟩

/-- `flush`, on either clock. -/
theorem Shifted.flush (h : Shifted offsetUs a a') :
    List.Forall₂ (Flow.Shifted offsetUs) a.flush.1 a'.flush.1 ∧ Shifted offsetUs a.flush.2 a'.flush.2 := by
  refine ⟨?_, h.maxFlows, .nil, h.activeTimeoutSeconds, h.inactiveTimeoutSeconds, h.protectedNetwork⟩
  unfold FlowAggregator.flush Dict.values
  dsimp only
  rw [List.map_map, List.map_map, List.forall₂_map_left_iff, List.forall₂_map_right_iff]
  exact h.flows.imp fun _ _ he => he.2.toFlow

/-- The flow that makes room, and those that stay. -/
theorem Shifted.others (h : Shifted offsetUs a a') (key : FlowKey) :
    Option.Rel (FlowState.Shifted offsetUs) (a.table.others key).1 (a'.table.others key).1 ∧
      SameEntries offsetUs (a.table.others key).2.entries (a'.table.others key).2.entries := by
  have hsize : a'.table.flows.size = a.table.flows.size := h.flows.length_eq.symm
  unfold FlowTable.others
  rcases h.flows.get? key with ⟨hnone, hnone'⟩ | ⟨state, state', hsome, hsome', -⟩
  · rw [hnone, hnone']
    dsimp only
    rw [hsize, h.maxFlows]
    split_ifs
    · -- the oldest flow is the same on either side
      have hflows : SameEntries offsetUs a.table.flows.entries a'.table.flows.entries := h.flows
      unfold Dict.values Dict.popFirst
      dsimp only
      generalize a.table.flows.entries = entries, a'.table.flows.entries = entries' at hflows
      cases hflows with
      | nil => exact ⟨.none, .nil⟩
      | cons he hrest => exact ⟨.some he.2, hrest⟩
    · exact ⟨.none, h.flows⟩
  · rw [hsome, hsome']
    refine ⟨.none, List.rel_filter ?_ h.flows⟩
    intro e e' he
    simp only [he.1]

/-- The packet's flow, on either clock. -/
theorem Shifted.joined (h : Shifted offsetUs a a') {packet packet' : PacketMetadata}
    (hpacket : PacketMetadata.Shifted offsetUs packet packet') (sourceIp destinationIp : IPv4Address) :
    FlowState.Shifted offsetUs (a.joined packet sourceIp destinationIp)
      (a'.joined packet' sourceIp destinationIp) := by
  have hkey : keyOf packet' sourceIp destinationIp = keyOf packet sourceIp destinationIp := by
    rw [hpacket.rest]
    rfl
  unfold FlowAggregator.joined
  rw [hkey]
  rcases h.flows.get? (keyOf packet sourceIp destinationIp) with
    ⟨hnone, hnone'⟩ | ⟨state, state', hsome, hsome', hstate⟩
  · rw [hnone, hnone']
    exact .opening hpacket _ _ _
  · rw [hsome, hsome']
    exact hstate.observe hpacket

/-- `process_packet`, on either clock. -/
theorem Shifted.processPacket (h : Shifted offsetUs a a') {packet packet' : PacketMetadata}
    (hpacket : PacketMetadata.Shifted offsetUs packet packet') :
    List.Forall₂ (Flow.Shifted offsetUs) (a.processPacket packet).1 (a'.processPacket packet').1 ∧
      Shifted offsetUs (a.processPacket packet).2.2 (a'.processPacket packet').2.2 := by
  have hnetwork : packet'.network = packet.network := by rw [hpacket.rest]
  have haccepted' : packet'.accepted a'.protectedNetwork = packet.accepted a.protectedNetwork := by
    unfold PacketMetadata.accepted
    rw [hnetwork, h.protectedNetwork]
  cases haccepted : packet.accepted a.protectedNetwork with
  | false =>
    rw [processPacket_of_not_accepted haccepted, processPacket_of_not_accepted (haccepted'.trans haccepted)]
    exact ⟨.nil, h⟩
  | true =>
    obtain ⟨sourceIp, destinationIp, hnet⟩ := PacketMetadata.network_of_accepted haccepted
    obtain ⟨hemitted, hopen, hmax, hfed⟩ := a.processPacket_eq hnet haccepted
    obtain ⟨hemitted', hopen', hmax', hfed'⟩ :=
      a'.processPacket_eq (hnetwork.trans hnet) (haccepted'.trans haccepted)
    have hkey : keyOf packet' sourceIp destinationIp = keyOf packet sourceIp destinationIp := by
      rw [hpacket.rest]
      rfl
    obtain ⟨hevicted, hothers⟩ := h.others (keyOf packet sourceIp destinationIp)
    have hjoined := h.joined hpacket sourceIp destinationIp
    have hcloses := h.closes hjoined hpacket.timestamp
    rw [hfed, hfed']
    refine ⟨?_, ?_, ?_, h.activeTimeoutSeconds, h.inactiveTimeoutSeconds, h.protectedNetwork⟩
    · rw [hemitted, hemitted', emittedBy, emittedBy, hkey, hcloses]
      refine List.rel_append ?_ ?_
      · generalize (a.table.others (keyOf packet sourceIp destinationIp)).1 = evicted,
          (a'.table.others (keyOf packet sourceIp destinationIp)).1 = evicted' at hevicted
        cases hevicted with
        | none => exact .nil
        | some hstate => exact .cons hstate.toFlow .nil
      · split_ifs
        · exact .cons hjoined.toFlow .nil
        · exact .nil
    · show _ = _
      rw [hmax', hmax, h.maxFlows]
    · show SameEntries offsetUs _ _
      rw [hopen, hopen', openAfter, openAfter, hkey, hcloses]
      refine List.rel_append hothers ?_
      split_ifs
      · exact .nil
      · exact .cons ⟨rfl, hjoined⟩ .nil

end FlowAggregator

/-! ## Runs -/

/-- The same run on another clock. -/
structure AggregatorRun.Shifted (offsetUs : Int) (r r' : AggregatorRun) : Prop where
  emitted : List.Forall₂ (Flow.Shifted offsetUs) r.emitted r'.emitted
  aggregator : FlowAggregator.Shifted offsetUs r.aggregator r'.aggregator

namespace AggregatorRun

/-- At the start there is nothing to shift. -/
theorem Shifted.init (config : FlowConfig) (protectedNetwork : Option IPv4Network) :
    Shifted offsetUs (.init config protectedNetwork) (.init config protectedNetwork) :=
  ⟨.nil, rfl, .nil, rfl, rfl, rfl⟩

variable {r r' : AggregatorRun}

/-- A packet, in a run. -/
theorem Shifted.packet (h : Shifted offsetUs r r') {packet packet' : PacketMetadata}
    (hpacket : PacketMetadata.Shifted offsetUs packet packet') :
    Shifted offsetUs (r.call (.packet packet)) (r'.call (.packet packet')) := by
  obtain ⟨hemitted, haggregator⟩ := h.aggregator.processPacket hpacket
  exact ⟨List.rel_append h.emitted hemitted, haggregator⟩

/-- A sweep, in a run. -/
theorem Shifted.sweep (h : Shifted offsetUs r r') {now now' : DateTime}
    (hnow : DateTime.Shifted offsetUs now now') :
    Shifted offsetUs (r.call (.sweep now)) (r'.call (.sweep now')) := by
  obtain ⟨hemitted, haggregator⟩ := h.aggregator.sweepTimeouts hnow
  exact ⟨List.rel_append h.emitted hemitted, haggregator⟩

/-- The flush at the end of one. -/
theorem Shifted.flush (h : Shifted offsetUs r r') : Shifted offsetUs (r.call .flush) (r'.call .flush) := by
  obtain ⟨hemitted, haggregator⟩ := h.aggregator.flush
  exact ⟨List.rel_append h.emitted hemitted, haggregator⟩

end AggregatorRun

end Pirewall
