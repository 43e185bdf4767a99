/-
# Pirewall.Flow.Traced -- which packets a flow record counts

The aggregator keeps counts, not packets. Here its flows are traced: packets carry numbers, and with every flow go the
numbers of the packets counted in it. `TracedAggregator.processPacket_flows` and `sweepTimeouts_flows` say that
the trace only looks on.

What is kept of a key is that its open flow is filed under the key its record will have.
-/
import Pirewall.Flow.SweepOrder

namespace Pirewall

open Lib

/-! ## Keys -/

/-- The key of a flow record. -/
def Flow.key (flow : Flow) : FlowKey :=
  computeFlowKey flow.sourceIp flow.destinationIp flow.sourcePort flow.destinationPort flow.protocol

/-- Whether the aggregator tracks flows of a key at all. -/
def FlowKey.tracked (key : FlowKey) (protectedNetwork : Option IPv4Network) : Bool :=
  isRoutableUnicast key.endpointA.1 protectedNetwork && isRoutableUnicast key.endpointB.1 protectedNetwork

/-- It does if it accepts the packets of the key. -/
theorem tracked_keyOf {packet : PacketMetadata} {sourceIp destinationIp : IPv4Address}
    (hnet : packet.network = .ipv4 sourceIp destinationIp) (protectedNetwork : Option IPv4Network) :
    (FlowAggregator.keyOf packet sourceIp destinationIp).tracked protectedNetwork =
      packet.accepted protectedNetwork := by
  unfold PacketMetadata.accepted
  rw [hnet]
  unfold FlowAggregator.keyOf computeFlowKey FlowKey.tracked
  dsimp only
  split_ifs
  · exact Bool.and_comm _ _
  · rfl

/-- The key of a packet's flow. -/
def PacketMetadata.flowKey? (packet : PacketMetadata) : Option FlowKey :=
  match packet.network with
  | .ipv4 sourceIp destinationIp => some (FlowAggregator.keyOf packet sourceIp destinationIp)
  | .ipv6 _ _ => none

/-- A flow is filed under the key of its record, one that is tracked. -/
def FlowAggregator.Filed (a : FlowAggregator) : Prop :=
  ∀ key state, a.table.flows.get? key = some state →
    state.toFlow.key = key ∧ key.tracked a.protectedNetwork = true

/-! ## Traced flows -/

/-- A flow record, and the numbers of the packets it counts. -/
structure TracedFlow where
  flow : Flow
  packets : List Nat

/-- The key detection looks the record up by. -/
def TracedFlow.key (record : TracedFlow) : FlowKey := record.flow.key

/-- The aggregator, and the numbers of the packets counted in the flow of a key. -/
structure TracedAggregator where
  aggregator : FlowAggregator
  members : FlowKey → List Nat

namespace TracedAggregator

def init (config : FlowConfig) (protectedNetwork : Option IPv4Network) : TracedAggregator :=
  ⟨.init config protectedNetwork, fun _ => []⟩

/-- The packets of the open flow of a key. -/
def openPackets (t : TracedAggregator) (key : FlowKey) : List Nat :=
  if (t.aggregator.table.flows.get? key).isSome then t.members key else []

/-- The record an open flow would leave as. -/
def record (t : TracedAggregator) (entry : FlowKey × FlowState) : TracedFlow := ⟨entry.2.toFlow, t.members entry.1⟩

/-- The entry that makes room for a flow of the key, if one must. -/
def evictedFor (t : TracedAggregator) (key : FlowKey) : Option (FlowKey × FlowState) :=
  match t.aggregator.table.flows.get? key with
  | some _ => none
  | none =>
    if t.aggregator.table.flows.size ≥ t.aggregator.table.maxFlows then t.aggregator.table.flows.entries.head?
    else none

/-- `process_packet` of the packet with a number. -/
def processPacket (t : TracedAggregator) (number : Nat) (packet : PacketMetadata) :
    List TracedFlow × TracedAggregator :=
  match packet.network with
  | .ipv6 _ _ => ([], t)
  | .ipv4 sourceIp destinationIp =>
    if packet.accepted t.aggregator.protectedNetwork then
      let key := FlowAggregator.keyOf packet sourceIp destinationIp
      let own := t.openPackets key ++ [number]
      let joined := t.aggregator.joined packet sourceIp destinationIp
      ((t.evictedFor key).toList.map t.record ++
          (if t.aggregator.closes joined packet.timestamp then [⟨joined.toFlow, own⟩] else []),
        ⟨(t.aggregator.processPacket packet).2.2, Function.update t.members key own⟩)
    else ([], t)

/-- `sweep_timeouts`. -/
def sweepTimeouts (t : TracedAggregator) (now : DateTime) : List TracedFlow × TracedAggregator :=
  ((t.aggregator.closing now).map t.record, { t with aggregator := (t.aggregator.sweepTimeouts now).2 })

/-- `flush`. -/
def flush (t : TracedAggregator) : List TracedFlow × TracedAggregator :=
  (t.aggregator.table.flows.entries.map t.record, { t with aggregator := t.aggregator.flush.2 })

/-! ## The trace looks on -/

theorem evictedFor_flows (t : TracedAggregator) (key : FlowKey) :
    (t.evictedFor key).toList.map (fun e => e.2.toFlow) =
      (t.aggregator.table.others key).1.toList.map FlowState.toFlow := by
  unfold evictedFor FlowTable.others
  cases t.aggregator.table.flows.get? key with
  | some state => rfl
  | none =>
    dsimp only
    split_ifs
    · unfold Dict.values
      cases t.aggregator.table.flows.entries <;> rfl
    · rfl

theorem processPacket_flows (t : TracedAggregator) (number : Nat) (packet : PacketMetadata) :
    (t.processPacket number packet).1.map TracedFlow.flow = (t.aggregator.processPacket packet).1 ∧
      (t.processPacket number packet).2.aggregator = (t.aggregator.processPacket packet).2.2 := by
  unfold processPacket
  cases haccepted : packet.accepted t.aggregator.protectedNetwork with
  | false =>
    rw [FlowAggregator.processPacket_of_not_accepted haccepted]
    cases packet.network <;> exact ⟨rfl, rfl⟩
  | true =>
    obtain ⟨sourceIp, destinationIp, hnet⟩ := PacketMetadata.network_of_accepted haccepted
    obtain ⟨hemitted, -⟩ := t.aggregator.processPacket_eq hnet haccepted
    simp only [hnet, if_true]
    refine ⟨?_, trivial⟩
    rw [hemitted, FlowAggregator.emittedBy, ← t.evictedFor_flows, List.map_append, List.map_map]
    refine congrArg₂ _ rfl ?_
    split_ifs <;> rfl

theorem sweepTimeouts_flows (t : TracedAggregator) (now : DateTime) :
    (t.sweepTimeouts now).1.map TracedFlow.flow = (t.aggregator.sweepTimeouts now).1 ∧
      (t.sweepTimeouts now).2.aggregator = (t.aggregator.sweepTimeouts now).2 := by
  refine ⟨?_, rfl⟩
  rw [sweepTimeouts_eq]
  exact List.map_map

/-! ## Where a packet is counted -/

/-- The first of some records that has the key counts the packet; if none has it, something else holds. -/
def Reaches (records : List TracedFlow) (key : FlowKey) (number : Nat) (otherwise : Prop) : Prop :=
  match records.find? (fun record => decide (record.key = key)) with
  | some record => number ∈ record.packets
  | none => otherwise

instance (records : List TracedFlow) (key : FlowKey) (number : Nat) (otherwise : Prop) [Decidable otherwise] :
    Decidable (Reaches records key number otherwise) := by
  unfold Reaches
  split <;> infer_instance

section Reaches

variable {records more : List TracedFlow} {key : FlowKey} {number : Nat} {P Q : Prop}

theorem reaches_append :
    Reaches (records ++ more) key number P ↔ Reaches records key number (Reaches more key number P) := by
  unfold Reaches
  rw [List.find?_append]
  cases records.find? (fun record => decide (record.key = key)) <;> exact Iff.rfl

theorem Reaches.imp (h : Reaches records key number P) (hPQ : P → Q) : Reaches records key number Q := by
  unfold Reaches at h ⊢
  cases hfind : records.find? (fun record => decide (record.key = key)) with
  | some record =>
    rw [hfind] at h
    exact h
  | none =>
    rw [hfind] at h
    exact hPQ h

/-- Records of other keys are passed by. -/
theorem reaches_of_absent (h : ∀ record ∈ records, record.key ≠ key) : Reaches records key number P ↔ P := by
  unfold Reaches
  rw [List.find?_eq_none.mpr fun record hrecord => by simpa using h record hrecord]

/-- With a record of the key among the first ones, the others do not matter. -/
theorem reaches_of_present (h : ∃ record ∈ records, record.key = key) :
    Reaches records key number P ↔ Reaches records key number Q := by
  obtain ⟨record, hrecord, hkey⟩ := h
  unfold Reaches
  cases hfind : records.find? (fun record => decide (record.key = key)) with
  | some record => exact Iff.rfl
  | none =>
    have hnot := List.find?_eq_none.mp hfind record hrecord
    rw [hkey] at hnot
    simp at hnot

theorem Reaches.intro (hcounts : ∀ record ∈ records, record.key = key → number ∈ record.packets)
    (hotherwise : (∀ record ∈ records, record.key ≠ key) → P) : Reaches records key number P := by
  unfold Reaches
  cases hfind : records.find? (fun record => decide (record.key = key)) with
  | some record =>
    exact hcounts record (List.mem_of_find?_eq_some hfind) (by simpa using List.find?_some hfind)
  | none =>
    refine hotherwise fun record hrecord hkey => ?_
    have hnot := List.find?_eq_none.mp hfind record hrecord
    rw [hkey] at hnot
    simp at hnot

/-- A packet that is found is found in the first record, if that has the key. -/
theorem Reaches.cons {record : TracedFlow} (h : Reaches (record :: records) record.key number P) :
    number ∈ record.packets := by
  unfold Reaches at h
  rw [List.find?_cons_of_pos (by simp)] at h
  exact h

end Reaches

/-- The open flow of a key counts the packet, if there are flows of the key at all. -/
def Holds (t : TracedAggregator) (key : FlowKey) (number : Nat) : Prop :=
  key.tracked t.aggregator.protectedNetwork = true → number ∈ t.openPackets key

instance (t : TracedAggregator) (key : FlowKey) (number : Nat) : Decidable (t.Holds key number) :=
  inferInstanceAs (Decidable (_ → _))

/-- The packet is counted in the first record of its key, or, with none of them, in the open flow. -/
def Counts (records : List TracedFlow) (t : TracedAggregator) (key : FlowKey) (number : Nat) : Prop :=
  Reaches records key number (t.Holds key number)

instance (records : List TracedFlow) (t : TracedAggregator) (key : FlowKey) (number : Nat) :
    Decidable (Counts records t key number) :=
  inferInstanceAs (Decidable (Reaches _ _ _ _))

theorem mem_openPackets_iff {t : TracedAggregator} {key : FlowKey} {number : Nat} :
    number ∈ t.openPackets key ↔
      (∃ state, t.aggregator.table.flows.get? key = some state) ∧ number ∈ t.members key := by
  unfold openPackets
  rw [← Option.isSome_iff_exists]
  split_ifs with hsome <;> simp [hsome]

/-- A record of an open flow has the key the flow is filed under. -/
theorem record_key {t : TracedAggregator} (h : t.aggregator.Filed) {entry : FlowKey × FlowState}
    (hentry : entry ∈ t.aggregator.table.flows.entries) : (t.record entry).key = entry.1 :=
  (h entry.1 entry.2 (Dict.mem_entries_iff.mp hentry)).1

/-- A packet that is held for a key is counted in the open flow of the key. -/
theorem Holds.member {t : TracedAggregator} (h : t.aggregator.Filed) {entry : FlowKey × FlowState}
    (hentry : entry ∈ t.aggregator.table.flows.entries) {number : Nat} (hheld : t.Holds entry.1 number) :
    number ∈ (t.record entry).packets :=
  (mem_openPackets_iff.mp (hheld (h entry.1 entry.2 (Dict.mem_entries_iff.mp hentry)).2)).2

/-- A sweep closes a flow with its packets, or leaves it open with them. -/
theorem sweepTimeouts_counts {t : TracedAggregator} (h : t.aggregator.Filed) (now : DateTime) {key : FlowKey}
    {number : Nat} (hheld : t.Holds key number) :
    Counts (t.sweepTimeouts now).1 (t.sweepTimeouts now).2 key number := by
  obtain ⟨-, -, hswept⟩ := t.aggregator.sweepTimeouts_spec now
  refine .intro ?_ ?_
  · intro record hrecord hkey
    obtain ⟨entry, hentry, rfl⟩ := List.mem_map.mp hrecord
    have hopen := List.mem_of_mem_filter hentry
    rw [record_key h hopen] at hkey
    subst hkey
    exact hheld.member h hopen
  · intro habsent htracked
    change key.tracked (t.aggregator.sweepTimeouts now).2.protectedNetwork = true at htracked
    rw [hswept] at htracked
    obtain ⟨⟨state, hget⟩, hmember⟩ := mem_openPackets_iff.mp (hheld htracked)
    have hstays : t.aggregator.closes state now = false := by
      cases hcloses : t.aggregator.closes state now with
      | false => rfl
      | true =>
        have hentry : (key, state) ∈ t.aggregator.closing now :=
          List.mem_filter.mpr ⟨Dict.mem_entries_iff.mpr hget, hcloses⟩
        exact absurd (record_key h (List.mem_of_mem_filter hentry)) (habsent _ (List.mem_map_of_mem hentry))
    refine mem_openPackets_iff.mpr ⟨⟨state, ?_⟩, hmember⟩
    show (t.aggregator.sweepTimeouts now).2.table.flows.get? key = some state
    rw [hswept]
    simp [Dict.get?_filter, hget, hstays]

/-- Flushing closes every flow with its packets. -/
theorem flush_counts {t : TracedAggregator} (h : t.aggregator.Filed) {key : FlowKey} {number : Nat}
    (hheld : t.Holds key number) : Counts t.flush.1 t.flush.2 key number := by
  refine .intro ?_ ?_
  · intro record hrecord hkey
    obtain ⟨entry, hentry, rfl⟩ := List.mem_map.mp hrecord
    rw [record_key h hentry] at hkey
    subst hkey
    exact hheld.member h hentry
  · intro habsent htracked
    obtain ⟨⟨state, hget⟩, -⟩ := mem_openPackets_iff.mp (hheld htracked)
    have hentry := Dict.mem_entries_iff.mpr hget
    exact absurd (record_key h hentry) (habsent _ (List.mem_map_of_mem hentry))

/-- Nothing is filed in an empty table. -/
theorem flush_filed (t : TracedAggregator) : t.flush.2.aggregator.Filed := by
  intro key state hget
  cases hget

/-- Sweeping keeps the flows filed. -/
theorem sweepTimeouts_filed {t : TracedAggregator} (h : t.aggregator.Filed) (now : DateTime) :
    (t.sweepTimeouts now).2.aggregator.Filed := by
  obtain ⟨-, -, hswept⟩ := t.aggregator.sweepTimeouts_spec now
  intro key state hget
  change (t.aggregator.sweepTimeouts now).2.table.flows.get? key = some state at hget
  show state.toFlow.key = key ∧ key.tracked (t.aggregator.sweepTimeouts now).2.protectedNetwork = true
  rw [hswept] at hget ⊢
  rw [Dict.get?_filter, Option.filter_eq_some_iff] at hget
  exact h key state hget.1

section Packet

variable {t : TracedAggregator} {packet : PacketMetadata} {sourceIp destinationIp : IPv4Address}

/-- The packet's flow is filed under the packet's key. -/
theorem joined_key (h : t.aggregator.Filed) (packet : PacketMetadata) (sourceIp destinationIp : IPv4Address) :
    (t.aggregator.joined packet sourceIp destinationIp).toFlow.key =
      FlowAggregator.keyOf packet sourceIp destinationIp := by
  unfold FlowAggregator.joined
  cases hget : t.aggregator.table.flows.get? (FlowAggregator.keyOf packet sourceIp destinationIp) with
  | some state => exact (h _ state hget).1
  | none => rfl

/-- The flows that are open after a packet: its own, or others that were. -/
theorem get?_after (hnet : packet.network = .ipv4 sourceIp destinationIp)
    (haccepted : packet.accepted t.aggregator.protectedNetwork = true) {key : FlowKey} {state : FlowState} :
    (t.aggregator.processPacket packet).2.2.table.flows.get? key = some state ↔
      (key, state) ∈ t.aggregator.openAfter packet sourceIp destinationIp := by
  obtain ⟨-, hopen, -⟩ := t.aggregator.processPacket_eq hnet haccepted
  rw [← Dict.mem_entries_iff, hopen]

theorem others_subset (table : FlowTable) (key : FlowKey) :
    ∀ entry ∈ (table.others key).2.entries, entry ∈ table.flows.entries ∧ entry.1 ≠ key := by
  intro entry hentry
  have hne : entry.1 ≠ key := by
    intro heq
    have hget := table.others_get? key
    rw [Dict.get?_eq_none_iff] at hget
    have hkey := List.mem_map_of_mem (f := Prod.fst) hentry
    rw [heq] at hkey
    exact hget hkey
  refine ⟨?_, hne⟩
  unfold FlowTable.others at hentry
  cases hget : table.flows.get? key with
  | some state =>
    rw [hget] at hentry
    exact List.mem_of_mem_filter hentry
  | none =>
    rw [hget] at hentry
    dsimp only at hentry
    split_ifs at hentry
    · exact List.mem_of_mem_tail hentry
    · exact hentry

theorem protectedNetwork_after (hnet : packet.network = .ipv4 sourceIp destinationIp)
    (haccepted : packet.accepted t.aggregator.protectedNetwork = true) :
    (t.aggregator.processPacket packet).2.2.protectedNetwork = t.aggregator.protectedNetwork := by
  obtain ⟨-, -, -, hfed⟩ := t.aggregator.processPacket_eq hnet haccepted
  rw [hfed]

/-- Packets keep the flows filed. -/
theorem processPacket_filed (h : t.aggregator.Filed) (number : Nat) (packet : PacketMetadata) :
    (t.processPacket number packet).2.aggregator.Filed := by
  obtain ⟨-, hsame⟩ := t.processPacket_flows number packet
  rw [hsame]
  cases haccepted : packet.accepted t.aggregator.protectedNetwork with
  | false =>
    rw [FlowAggregator.processPacket_of_not_accepted haccepted]
    exact h
  | true =>
    obtain ⟨sourceIp, destinationIp, hnet⟩ := PacketMetadata.network_of_accepted haccepted
    intro key state hget
    rw [protectedNetwork_after hnet haccepted]
    rcases List.mem_append.mp ((get?_after hnet haccepted).mp hget) with hother | hown
    · exact h key state (Dict.mem_entries_iff.mp (others_subset _ _ _ hother).1)
    · split_ifs at hown
      · cases hown
      · cases List.mem_singleton.mp hown
        exact ⟨joined_key h packet sourceIp destinationIp, (tracked_keyOf hnet _).trans haccepted⟩

/-- The flow that makes room is open under another key, and no longer. -/
theorem evictedFor_spec {key : FlowKey} {entry : FlowKey × FlowState} (hevicted : t.evictedFor key = some entry) :
    entry ∈ t.aggregator.table.flows.entries ∧ entry.1 ≠ key := by
  unfold evictedFor at hevicted
  cases hget : t.aggregator.table.flows.get? key with
  | some state =>
    rw [hget] at hevicted
    cases hevicted
  | none =>
    rw [hget] at hevicted
    dsimp only at hevicted
    split_ifs at hevicted
    have hentry := List.mem_of_mem_head? hevicted
    refine ⟨hentry, fun heq => ?_⟩
    have hsome := Dict.mem_entries_iff.mp (show (entry.1, entry.2) ∈ t.aggregator.table.flows.entries from hentry)
    rw [heq, hget] at hsome
    cases hsome

/-- Another flow that was open stays, or makes room. -/
theorem other_stays {key other : FlowKey} {state : FlowState}
    (hget : t.aggregator.table.flows.get? other = some state) (hne : other ≠ key) :
    t.evictedFor key = some (other, state) ∨ (other, state) ∈ (t.aggregator.table.others key).2.entries := by
  have hentry := Dict.mem_entries_iff.mpr hget
  unfold evictedFor FlowTable.others
  cases t.aggregator.table.flows.get? key with
  | some own => exact .inr (List.mem_filter.mpr ⟨hentry, by simpa using hne⟩)
  | none =>
    dsimp only
    split_ifs
    · show t.aggregator.table.flows.entries.head? = _ ∨ _ ∈ t.aggregator.table.flows.entries.tail
      cases hentries : t.aggregator.table.flows.entries with
      | nil =>
        rw [hentries] at hentry
        cases hentry
      | cons first rest =>
        rw [hentries] at hentry
        rcases List.mem_cons.mp hentry with rfl | hrest
        · exact .inl rfl
        · exact .inr hrest
    · exact .inr hentry

/-- The records of a packet: the flow that makes room, and its own flow if that closes. -/
theorem mem_records (hnet : packet.network = .ipv4 sourceIp destinationIp)
    (haccepted : packet.accepted t.aggregator.protectedNetwork = true) {number : Nat} {record : TracedFlow} :
    record ∈ (t.processPacket number packet).1 ↔
      (∃ entry, t.evictedFor (FlowAggregator.keyOf packet sourceIp destinationIp) = some entry ∧
        t.record entry = record) ∨
      (t.aggregator.closes (t.aggregator.joined packet sourceIp destinationIp) packet.timestamp = true ∧
        ⟨(t.aggregator.joined packet sourceIp destinationIp).toFlow,
          t.openPackets (FlowAggregator.keyOf packet sourceIp destinationIp) ++ [number]⟩ = record) := by
  unfold processPacket
  simp only [hnet, haccepted, if_true, List.mem_append, List.mem_map, Option.mem_toList]
  refine or_congr Iff.rfl ?_
  split_ifs with hcloses
  · simp [hcloses, eq_comm]
  · simp [hcloses]

/-- The packets of the open flow of a key, once a packet has joined its own. -/
theorem members_after (hnet : packet.network = .ipv4 sourceIp destinationIp)
    (haccepted : packet.accepted t.aggregator.protectedNetwork = true) (number : Nat) :
    (t.processPacket number packet).2 = ⟨(t.aggregator.processPacket packet).2.2,
      Function.update t.members (FlowAggregator.keyOf packet sourceIp destinationIp)
        (t.openPackets (FlowAggregator.keyOf packet sourceIp destinationIp) ++ [number])⟩ := by
  unfold processPacket
  simp only [hnet, haccepted, if_true]

/-- What is counted in the packet's own flow: the packet joins it. -/
theorem own_counts (h : t.aggregator.Filed) (hnet : packet.network = .ipv4 sourceIp destinationIp)
    (haccepted : packet.accepted t.aggregator.protectedNetwork = true) (number : Nat) {counted : Nat}
    (hmember : counted ∈ t.openPackets (FlowAggregator.keyOf packet sourceIp destinationIp) ++ [number]) :
    Counts (t.processPacket number packet).1 (t.processPacket number packet).2
      (FlowAggregator.keyOf packet sourceIp destinationIp) counted := by
  refine .intro ?_ ?_
  · intro record hrecord hrecordKey
    rcases (mem_records hnet haccepted).mp hrecord with ⟨entry, hevicted, rfl⟩ | ⟨-, rfl⟩
    · obtain ⟨hopen, hne⟩ := evictedFor_spec hevicted
      exact absurd ((record_key h hopen).symm.trans hrecordKey) hne
    · exact hmember
  · intro habsent _
    rw [members_after hnet haccepted]
    refine mem_openPackets_iff.mpr ⟨⟨t.aggregator.joined packet sourceIp destinationIp, ?_⟩, ?_⟩
    · refine (get?_after hnet haccepted).mpr (List.mem_append_right _ ?_)
      split_ifs with hcloses
      · -- a flow that closes leaves as a record
        exact absurd (joined_key h packet sourceIp destinationIp)
          (habsent _ ((mem_records hnet haccepted).mpr (.inr ⟨hcloses, rfl⟩)))
      · exact List.mem_cons_self
    · show counted ∈ Function.update t.members _ _ (FlowAggregator.keyOf packet sourceIp destinationIp)
      rw [Function.update_self]
      exact hmember

/-- What is counted in another flow: it makes room, or stays as it is. -/
theorem other_counts (h : t.aggregator.Filed) (hnet : packet.network = .ipv4 sourceIp destinationIp)
    (haccepted : packet.accepted t.aggregator.protectedNetwork = true) (number : Nat) {key : FlowKey} {counted : Nat}
    (hkey : key ≠ FlowAggregator.keyOf packet sourceIp destinationIp) (hbefore : t.Holds key counted) :
    Counts (t.processPacket number packet).1 (t.processPacket number packet).2 key counted := by
  refine .intro ?_ ?_
  · intro record hrecord hrecordKey
    rcases (mem_records hnet haccepted).mp hrecord with ⟨entry, hevicted, rfl⟩ | ⟨-, rfl⟩
    · obtain ⟨hopen, -⟩ := evictedFor_spec hevicted
      rw [record_key h hopen] at hrecordKey
      subst hrecordKey
      exact hbefore.member h hopen
    · exact absurd (hrecordKey.symm.trans (joined_key h packet sourceIp destinationIp)) hkey
  · intro habsent htracked
    rw [members_after hnet haccepted] at htracked ⊢
    rw [protectedNetwork_after hnet haccepted] at htracked
    obtain ⟨⟨state, hget⟩, hmember⟩ := mem_openPackets_iff.mp (hbefore htracked)
    have hstays : (key, state) ∈
        (t.aggregator.table.others (FlowAggregator.keyOf packet sourceIp destinationIp)).2.entries := by
      refine (other_stays hget hkey).resolve_left fun hevicted => ?_
      exact habsent _ ((mem_records hnet haccepted).mpr (.inl ⟨_, hevicted, rfl⟩))
        (record_key h (Dict.mem_entries_iff.mpr hget))
    refine mem_openPackets_iff.mpr ⟨⟨state, ?_⟩, ?_⟩
    · exact (get?_after hnet haccepted).mpr (List.mem_append_left _ hstays)
    · show counted ∈ Function.update t.members _ _ key
      rw [Function.update_of_ne hkey]
      exact hmember

/-- A packet is counted in its own flow, and the packets counted so far stay counted: in records, where their flows
close, or in open flows. -/
theorem accepted_counts (h : t.aggregator.Filed) (hnet : packet.network = .ipv4 sourceIp destinationIp)
    (haccepted : packet.accepted t.aggregator.protectedNetwork = true) (number : Nat) {key : FlowKey} {counted : Nat}
    (hheld : t.Holds key counted ∨ key = FlowAggregator.keyOf packet sourceIp destinationIp ∧ counted = number) :
    Counts (t.processPacket number packet).1 (t.processPacket number packet).2 key counted := by
  by_cases hkey : key = FlowAggregator.keyOf packet sourceIp destinationIp
  · subst hkey
    refine own_counts h hnet haccepted number ?_
    rcases hheld with hbefore | ⟨-, rfl⟩
    · exact List.mem_append_left _ (hbefore ((tracked_keyOf hnet _).trans haccepted))
    · exact List.mem_append_right _ List.mem_cons_self
  · exact other_counts h hnet haccepted number hkey (hheld.resolve_right fun heq => hkey heq.1)

/-- A packet that is not accepted has a key that is not tracked, and is counted nowhere. -/
theorem processPacket_counts (h : t.aggregator.Filed) (number : Nat) (packet : PacketMetadata) {key : FlowKey}
    {counted : Nat} (hheld : t.Holds key counted ∨ packet.flowKey? = some key ∧ counted = number) :
    Counts (t.processPacket number packet).1 (t.processPacket number packet).2 key counted := by
  cases hnet : packet.network with
  | ipv6 source destination =>
    unfold processPacket
    simp only [hnet]
    exact hheld.resolve_right fun hown => by simp [PacketMetadata.flowKey?, hnet] at hown
  | ipv4 sourceIp destinationIp =>
    have hkey : packet.flowKey? = some (FlowAggregator.keyOf packet sourceIp destinationIp) := by
      simp only [PacketMetadata.flowKey?, hnet]
    rw [hkey, Option.some.injEq] at hheld
    cases haccepted : packet.accepted t.aggregator.protectedNetwork with
    | true => exact accepted_counts h hnet haccepted number (hheld.imp_right fun hown => ⟨hown.1.symm, hown.2⟩)
    | false =>
      unfold processPacket
      simp only [hnet, haccepted, Bool.false_eq_true, if_false]
      refine hheld.elim id fun hown htracked => ?_
      rw [← hown.1, tracked_keyOf hnet, haccepted] at htracked
      cases htracked

end Packet

/-! ## The trace counts -/

/-- As many packets are traced to an open flow as it has counted. -/
def Tallied (t : TracedAggregator) : Prop :=
  ∀ key state, t.aggregator.table.flows.get? key = some state → (t.members key).length = state.packetCount

theorem Tallied.record {t : TracedAggregator} (h : t.Tallied) {entry : FlowKey × FlowState}
    (hentry : entry ∈ t.aggregator.table.flows.entries) :
    (t.record entry).packets.length = (t.record entry).flow.packetCount :=
  h entry.1 entry.2 (Dict.mem_entries_iff.mp hentry)

theorem Tallied.joined {t : TracedAggregator} (h : t.Tallied) (number : Nat) (packet : PacketMetadata)
    (sourceIp destinationIp : IPv4Address) :
    (t.openPackets (FlowAggregator.keyOf packet sourceIp destinationIp) ++ [number]).length =
      (t.aggregator.joined packet sourceIp destinationIp).packetCount := by
  unfold openPackets FlowAggregator.joined
  rw [List.length_append]
  cases hget : t.aggregator.table.flows.get? (FlowAggregator.keyOf packet sourceIp destinationIp) with
  | some state => exact congrArg (· + 1) (h _ state hget)
  | none => rfl

/-- So it is with every record, and stays so. -/
theorem Tallied.processPacket {t : TracedAggregator} (h : t.Tallied) (number : Nat) (packet : PacketMetadata) :
    (∀ record ∈ (t.processPacket number packet).1, record.packets.length = record.flow.packetCount) ∧
      (t.processPacket number packet).2.Tallied := by
  cases hnet : packet.network with
  | ipv6 source destination =>
    unfold TracedAggregator.processPacket
    simp only [hnet]
    exact ⟨by simp, h⟩
  | ipv4 sourceIp destinationIp =>
    cases haccepted : packet.accepted t.aggregator.protectedNetwork with
    | false =>
      unfold TracedAggregator.processPacket
      simp only [hnet, haccepted, Bool.false_eq_true, if_false]
      exact ⟨by simp, h⟩
    | true =>
      have hjoined := h.joined number packet sourceIp destinationIp
      refine ⟨?_, ?_⟩
      · intro record hrecord
        rcases (mem_records hnet haccepted).mp hrecord with ⟨entry, hevicted, rfl⟩ | ⟨-, rfl⟩
        · exact h.record (evictedFor_spec hevicted).1
        · exact hjoined
      · rw [members_after hnet haccepted]
        intro key state hget
        rcases List.mem_append.mp ((get?_after hnet haccepted).mp hget) with hother | hown
        · obtain ⟨hentry, hne⟩ := others_subset _ _ _ hother
          show (Function.update t.members _ _ key).length = state.packetCount
          rw [Function.update_of_ne hne]
          exact h key state (Dict.mem_entries_iff.mp hentry)
        · split_ifs at hown
          · cases hown
          · cases List.mem_singleton.mp hown
            show (Function.update t.members _ _ _).length = _
            rw [Function.update_self]
            exact hjoined

theorem Tallied.sweepTimeouts {t : TracedAggregator} (h : t.Tallied) (now : DateTime) :
    (∀ record ∈ (t.sweepTimeouts now).1, record.packets.length = record.flow.packetCount) ∧
      (t.sweepTimeouts now).2.Tallied := by
  obtain ⟨-, -, hswept⟩ := t.aggregator.sweepTimeouts_spec now
  refine ⟨?_, ?_⟩
  · intro record hrecord
    obtain ⟨entry, hentry, rfl⟩ := List.mem_map.mp hrecord
    exact h.record (List.mem_of_mem_filter hentry)
  · intro key state hget
    change (t.aggregator.sweepTimeouts now).2.table.flows.get? key = some state at hget
    rw [hswept, Dict.get?_filter, Option.filter_eq_some_iff] at hget
    exact h key state hget.1

end TracedAggregator

end Pirewall
