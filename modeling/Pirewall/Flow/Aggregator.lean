/-
# Pirewall.Flow.Aggregator -- the Python flow aggregator

`FlowAggregator` turns a stream of packets into flows: a packet joins the open flow of its undirected key
or opens one, and a flow closes on a TCP teardown, on a timeout or when the bounded table evicts it. The
table is an `OrderedDict` in least-recently-used order.

An accumulator carries what the `Flow` it ends as is validated for: its two directions add up, its clock
does not run backwards and no statistic is negative. So `toFlow` is total.
-/
import Pirewall.Lib.Dict
import Pirewall.Flow.Packet

namespace Pirewall

open Lib

/-! ## Flow keys -/

/-- An endpoint: address and port. -/
abbrev Endpoint := IPv4Address × Option (Fin 65536)

/-- `FlowKey`: the direction-independent identity of a flow. -/
structure FlowKey where
  protocol : Protocol
  endpointA : Endpoint
  endpointB : Endpoint
  deriving DecidableEq

/-- `port if port is not None else -1`. -/
def portValue : Option (Fin 65536) → Int
  | some port => port.val
  | none => -1

theorem portValue_injective {p q : Option (Fin 65536)} (h : portValue p = portValue q) : p = q := by
  cases p with
  | none =>
    cases q with
    | none => rfl
    | some q => exact absurd h (by simp only [portValue]; omega)
  | some p =>
    cases q with
    | none => exact absurd h (by simp only [portValue]; omega)
    | some q =>
      simp only [portValue, Nat.cast_inj] at h
      exact congrArg some (Fin.ext h)

/-- `_sort_value`. -/
def sortValue (endpoint : Endpoint) : Nat × Int := (endpoint.1.toNat, portValue endpoint.2)

/-- Tuples compare by their first components, ties by the second. -/
def sortsBefore (a b : Nat × Int) : Bool :=
  decide (a.1 < b.1) || (decide (a.1 = b.1) && decide (a.2 < b.2))

/-- `compute_flow_key`: the sort is stable, so equal endpoints stay in the order of the packet. -/
def computeFlowKey (sourceIp destinationIp : IPv4Address) (sourcePort destinationPort : Option (Fin 65536))
    (protocol : Protocol) : FlowKey :=
  let forward : Endpoint := (sourceIp, sourcePort)
  let backward : Endpoint := (destinationIp, destinationPort)
  if sortsBefore (sortValue backward) (sortValue forward) then ⟨protocol, backward, forward⟩
  else ⟨protocol, forward, backward⟩

/-! ## Running statistics -/

/-- `RunningStats`: Welford's accumulator over values that are not negative. `none` stands for the
infinities the extremes start from. -/
structure RunningStats where
  count : Nat
  runningMean : ℚ
  m2 : ℚ
  least : Option ℚ
  greatest : Option ℚ
  mean_nonneg : 0 ≤ runningMean
  m2_nonneg : 0 ≤ m2
  least_nonneg : ∀ x ∈ least, 0 ≤ x
  greatest_nonneg : ∀ x ∈ greatest, 0 ≤ x

namespace RunningStats

def new : RunningStats :=
  ⟨0, 0, 0, none, none, le_refl 0, le_refl 0, fun _ h => absurd h (by simp), fun _ h => absurd h (by simp)⟩

/-- The new mean is a convex combination of the old one and the value. -/
theorem add_mean_nonneg {n : Nat} {mean value : ℚ} (hmean : 0 ≤ mean) (hvalue : 0 ≤ value) :
    0 ≤ mean + (value - mean) / (n + 1 : ℕ) := by
  have hn : (0 : ℚ) < (n + 1 : ℕ) := by positivity
  have heq : mean + (value - mean) / (n + 1 : ℕ) = (n * mean + value) / (n + 1 : ℕ) := by
    field_simp
    push_cast
    ring
  rw [heq]
  positivity

/-- The second moment grows by a square. -/
theorem add_m2_nonneg {n : Nat} {mean m2 value : ℚ} (hm2 : 0 ≤ m2) :
    0 ≤ m2 + (value - mean) * (value - (mean + (value - mean) / (n + 1 : ℕ))) := by
  have hn : (0 : ℚ) < (n + 1 : ℕ) := by positivity
  have heq : (value - mean) * (value - (mean + (value - mean) / (n + 1 : ℕ))) =
      (value - mean) ^ 2 * (n / (n + 1 : ℕ)) := by
    field_simp
    push_cast
    ring
  rw [heq]
  positivity

/-- `RunningStats.add`. -/
def add (s : RunningStats) (value : ℚ) (h : 0 ≤ value) : RunningStats where
  count := s.count + 1
  runningMean := s.runningMean + (value - s.runningMean) / (s.count + 1 : ℕ)
  m2 := s.m2 + (value - s.runningMean) *
    (value - (s.runningMean + (value - s.runningMean) / (s.count + 1 : ℕ)))
  least := some (match s.least with
    | none => value
    | some x => if value < x then value else x)
  greatest := some (match s.greatest with
    | none => value
    | some x => if value > x then value else x)
  mean_nonneg := add_mean_nonneg s.mean_nonneg h
  m2_nonneg := add_m2_nonneg s.m2_nonneg
  least_nonneg := by
    intro x hx
    obtain rfl := Option.mem_some_iff.mp hx
    cases hl : s.least with
    | none => exact h
    | some y =>
      have hy := s.least_nonneg y hl
      dsimp only
      split <;> assumption
  greatest_nonneg := by
    intro x hx
    obtain rfl := Option.mem_some_iff.mp hx
    cases hl : s.greatest with
    | none => exact h
    | some y =>
      have hy := s.greatest_nonneg y hl
      dsimp only
      split <;> assumption

def mean (s : RunningStats) : ℚ := if s.count ≠ 0 then s.runningMean else 0

/-- `std`, squared: the population variance. -/
def variance (s : RunningStats) : ℚ := if s.count ≠ 0 then s.m2 / s.count else 0

/-- `sample_std`, squared: the bias-corrected variance. -/
def sampleVariance (s : RunningStats) : ℚ := if s.count > 1 then s.m2 / (s.count - 1 : ℕ) else 0

def min (s : RunningStats) : ℚ := if s.count ≠ 0 then s.least.getD 0 else 0

def max (s : RunningStats) : ℚ := if s.count ≠ 0 then s.greatest.getD 0 else 0

/-- Every reported statistic passes the `ge=0` of its field. -/
theorem reported_nonneg (s : RunningStats) :
    0 ≤ s.mean ∧ 0 ≤ s.variance ∧ 0 ≤ s.sampleVariance ∧ 0 ≤ s.min ∧ 0 ≤ s.max := by
  have hextreme : ∀ o : Option ℚ, (∀ x ∈ o, 0 ≤ x) → 0 ≤ o.getD 0 := by
    intro o ho
    cases o with
    | none => exact le_refl 0
    | some x => exact ho x rfl
  refine ⟨?_, ?_, ?_, ?_, ?_⟩
  · unfold mean
    split
    · exact s.mean_nonneg
    · exact le_refl 0
  · unfold variance
    split
    · exact div_nonneg s.m2_nonneg (Nat.cast_nonneg _)
    · exact le_refl 0
  · unfold sampleVariance
    split
    · exact div_nonneg s.m2_nonneg (Nat.cast_nonneg _)
    · exact le_refl 0
  · unfold min
    split
    · exact hextreme _ s.least_nonneg
    · exact le_refl 0
  · unfold max
    split
    · exact hextreme _ s.greatest_nonneg
    · exact le_refl 0

end RunningStats

/-! ## One open flow -/

/-- The IPv4 source of a packet. -/
def PacketMetadata.sourceIp? (packet : PacketMetadata) : Option IPv4Address :=
  match packet.network with
  | .ipv4 source _ => some source
  | .ipv6 _ _ => none

/-- `is_initiation`: a TCP SYN without ACK or RST, or anything that is not TCP. -/
def isInitiation (packet : PacketMetadata) : Bool :=
  match packet.tcpFlags with
  | none => true
  | some flags => if packet.protocol ≠ .tcp then true else flags.syn && !flags.ack && !flags.rst

/-- `FlowState`: the accumulation of one open flow, oriented by the packet that opened it. -/
structure FlowState where
  key : FlowKey
  protocol : Protocol
  forwardSourceIp : IPv4Address
  forwardSourcePort : Option (Fin 65536)
  forwardDestinationIp : IPv4Address
  forwardDestinationPort : Option (Fin 65536)
  forwardSourceMac : Option String
  forwardDestinationMac : Option String
  firstSeen : DateTime
  lastSeen : DateTime
  packetCount : Nat
  byteCount : Nat
  forwardPacketCount : Nat
  backwardPacketCount : Nat
  forwardByteCount : Nat
  backwardByteCount : Nat
  forwardPayloadBytes : Nat
  backwardPayloadBytes : Nat
  flagCounts : TcpFlagCounts
  sawFinForward : Bool
  sawFinBackward : Bool
  sawRst : Bool
  packetSizeStats : RunningStats
  payloadSizeStats : RunningStats
  interArrivalStats : RunningStats
  lastPacketTime : Option DateTime
  initiated : Bool
  first_le_last : firstSeen.us ≤ lastSeen.us
  packets_split : forwardPacketCount + backwardPacketCount = packetCount
  bytes_split : forwardByteCount + backwardByteCount = byteCount
  payload_le_bytes : forwardPayloadBytes + backwardPayloadBytes ≤ byteCount

namespace FlowState

/-- Whether a packet runs in the direction of the one that opened the flow. -/
def isForward (s : FlowState) (packet : PacketMetadata) : Bool :=
  decide (packet.sourceIp? = some s.forwardSourceIp) && decide (packet.sourcePort = s.forwardSourcePort)

/-- The flag counters after one more packet. -/
def countFlags (c : TcpFlagCounts) (flags : TcpFlags) : TcpFlagCounts where
  syn := c.syn + flags.syn.toNat
  ack := c.ack + flags.ack.toNat
  fin := c.fin + flags.fin.toNat
  rst := c.rst + flags.rst.toNat
  psh := c.psh + flags.psh.toNat
  urg := c.urg + flags.urg.toNat

/-- `FlowState.observe`: fold one more packet in. -/
def observe (s : FlowState) (packet : PacketMetadata) : FlowState where
  key := s.key
  protocol := s.protocol
  forwardSourceIp := s.forwardSourceIp
  forwardSourcePort := s.forwardSourcePort
  forwardDestinationIp := s.forwardDestinationIp
  forwardDestinationPort := s.forwardDestinationPort
  forwardSourceMac := s.forwardSourceMac
  forwardDestinationMac := s.forwardDestinationMac
  firstSeen := s.firstSeen
  lastSeen := if packet.timestamp.us > s.lastSeen.us then packet.timestamp else s.lastSeen
  packetCount := s.packetCount + 1
  byteCount := s.byteCount + packet.totalLength
  forwardPacketCount := if s.isForward packet then s.forwardPacketCount + 1 else s.forwardPacketCount
  backwardPacketCount := if s.isForward packet then s.backwardPacketCount else s.backwardPacketCount + 1
  forwardByteCount :=
    if s.isForward packet then s.forwardByteCount + packet.totalLength else s.forwardByteCount
  backwardByteCount :=
    if s.isForward packet then s.backwardByteCount else s.backwardByteCount + packet.totalLength
  forwardPayloadBytes :=
    if s.isForward packet then s.forwardPayloadBytes + packet.payloadLength else s.forwardPayloadBytes
  backwardPayloadBytes :=
    if s.isForward packet then s.backwardPayloadBytes else s.backwardPayloadBytes + packet.payloadLength
  flagCounts := match packet.tcpFlags with
    | none => s.flagCounts
    | some flags => countFlags s.flagCounts flags
  sawFinForward := match packet.tcpFlags with
    | none => s.sawFinForward
    | some flags => if flags.fin && s.isForward packet then true else s.sawFinForward
  sawFinBackward := match packet.tcpFlags with
    | none => s.sawFinBackward
    | some flags => if flags.fin && !s.isForward packet then true else s.sawFinBackward
  sawRst := match packet.tcpFlags with
    | none => s.sawRst
    | some flags => if flags.rst then true else s.sawRst
  packetSizeStats := s.packetSizeStats.add packet.totalLength (Nat.cast_nonneg _)
  payloadSizeStats := s.payloadSizeStats.add packet.payloadLength (Nat.cast_nonneg _)
  interArrivalStats := match s.lastPacketTime with
    | none => s.interArrivalStats
    | some previous =>
      if h : 0 ≤ packet.timestamp.secondsSince previous then
        s.interArrivalStats.add (packet.timestamp.secondsSince previous) h
      else s.interArrivalStats
  lastPacketTime := some packet.timestamp
  initiated := s.initiated
  first_le_last := by
    have := s.first_le_last
    split <;> omega
  packets_split := by
    have := s.packets_split
    split <;> omega
  bytes_split := by
    have := s.bytes_split
    split <;> omega
  payload_le_bytes := by
    have := s.payload_le_bytes
    have := packet.payload_le_total
    split <;> omega

/-- `FlowState.opening`: a new flow, oriented by `packet`, which is its first. -/
def opening (key : FlowKey) (packet : PacketMetadata) (sourceIp destinationIp : IPv4Address) : FlowState :=
  observe
    { key
      protocol := packet.protocol
      forwardSourceIp := sourceIp
      forwardSourcePort := packet.sourcePort
      forwardDestinationIp := destinationIp
      forwardDestinationPort := packet.destinationPort
      forwardSourceMac := packet.sourceMac
      forwardDestinationMac := packet.destinationMac
      firstSeen := packet.timestamp
      lastSeen := packet.timestamp
      packetCount := 0
      byteCount := 0
      forwardPacketCount := 0
      backwardPacketCount := 0
      forwardByteCount := 0
      backwardByteCount := 0
      forwardPayloadBytes := 0
      backwardPayloadBytes := 0
      flagCounts := ⟨0, 0, 0, 0, 0, 0⟩
      sawFinForward := false
      sawFinBackward := false
      sawRst := false
      packetSizeStats := .new
      payloadSizeStats := .new
      interArrivalStats := .new
      lastPacketTime := none
      initiated := isInitiation packet
      first_le_last := le_refl _
      packets_split := rfl
      bytes_split := rfl
      payload_le_bytes := le_refl 0 }
    packet

/-- The fields `to_flow` hands to `Flow`. -/
def flowFields (s : FlowState) : FlowFields where
  sourceIp := s.forwardSourceIp
  destinationIp := s.forwardDestinationIp
  sourcePort := s.forwardSourcePort
  destinationPort := s.forwardDestinationPort
  protocol := s.protocol
  firstSeen := s.firstSeen
  lastSeen := s.lastSeen
  packetCount := s.packetCount
  byteCount := s.byteCount
  forwardPacketCount := s.forwardPacketCount
  backwardPacketCount := s.backwardPacketCount
  forwardByteCount := s.forwardByteCount
  backwardByteCount := s.backwardByteCount
  tcpFlags := s.flagCounts
  packetSizeStats := ⟨pyRound s.packetSizeStats.min, pyRound s.packetSizeStats.max,
    s.packetSizeStats.mean, s.packetSizeStats.variance⟩
  interArrivalStats := ⟨s.interArrivalStats.min, s.interArrivalStats.max,
    s.interArrivalStats.mean, s.interArrivalStats.sampleVariance⟩
  payloadStats := ⟨s.forwardPayloadBytes, s.backwardPayloadBytes, pyRound s.payloadSizeStats.min,
    pyRound s.payloadSizeStats.max, s.payloadSizeStats.mean, s.payloadSizeStats.sampleVariance⟩
  openedByInitiation := s.initiated
  sourceMac := s.forwardSourceMac
  destinationMac := s.forwardDestinationMac

theorem flowFields_valid (s : FlowState) : s.flowFields.Valid := by
  obtain ⟨hmean, hvar, _, hmin, hmax⟩ := s.packetSizeStats.reported_nonneg
  obtain ⟨hpmean, _, hpvar, hpmin, hpmax⟩ := s.payloadSizeStats.reported_nonneg
  obtain ⟨himean, _, hivar, himin, himax⟩ := s.interArrivalStats.reported_nonneg
  exact ⟨⟨pyRound_nonneg hmin, pyRound_nonneg hmax, hmean, hvar⟩,
    ⟨pyRound_nonneg hpmin, pyRound_nonneg hpmax, hpmean, hpvar⟩, ⟨himin, himax, himean, hivar⟩,
    s.first_le_last, s.payload_le_bytes, s.packets_split, s.bytes_split⟩

/-- `FlowState.to_flow`. -/
def toFlow (s : FlowState) : Flow := ⟨s.flowFields, s.flowFields_valid⟩

end FlowState

/-! ## Closure -/

/-- `FlowCloseReason`. -/
inductive FlowCloseReason where
  | tcpCompleted | activeTimeout | inactiveTimeout
  deriving DecidableEq, Repr

/-- `is_tcp_completed`: a RST, or a FIN from both sides. -/
def isTcpCompleted (state : FlowState) : Bool :=
  if state.protocol ≠ .tcp then false else state.sawRst || (state.sawFinForward && state.sawFinBackward)

/-- `check_closure`. -/
def checkClosure (state : FlowState) (now : DateTime) (activeTimeoutSeconds inactiveTimeoutSeconds : ℚ) :
    Option FlowCloseReason :=
  if isTcpCompleted state then some .tcpCompleted
  else if now.secondsSince state.firstSeen ≥ activeTimeoutSeconds then some .activeTimeout
  else if now.secondsSince state.lastSeen ≥ inactiveTimeoutSeconds then some .inactiveTimeout
  else none

/-! ## The table -/

/-- `FlowTable`: open flows in least-recently-used order. -/
structure FlowTable where
  maxFlows : Nat
  flows : Dict FlowKey FlowState

namespace FlowTable

/-- `FlowTable.get`: a hit becomes the most recently used. -/
def get (t : FlowTable) (key : FlowKey) : Option FlowState × FlowTable :=
  match t.flows.get? key with
  | none => (none, t)
  | some state => (some state, { t with flows := t.flows.moveToEnd key })

/-- `FlowTable.insert`: at capacity the least recently used flow makes room. -/
def insert (t : FlowTable) (key : FlowKey) (state : FlowState) : Option FlowState × FlowTable :=
  if t.flows.size ≥ t.maxFlows then
    (t.flows.values.head?, { t with flows := t.flows.popFirst.set key state })
  else (none, { t with flows := t.flows.set key state })

/-- `FlowTable.pop`. -/
def pop (t : FlowTable) (key : FlowKey) : FlowTable := { t with flows := t.flows.erase key }

end FlowTable

/-! ## The aggregator -/

/-- `is_routable_unicast`. -/
def isRoutableUnicast (address : IPv4Address) (protectedNetwork : Option IPv4Network) : Bool :=
  if address.isUnspecified || address.isLoopback || address.isMulticast || address.isLinkLocal
      || address.isReserved || address == 0xFFFFFFFF#32 then false
  else match protectedNetwork with
    | none => true
    | some network => !(decide (network.prefixlen < 31) && address == network.broadcastAddress)

/-- `FlowAggregator`; the sink for new-flow signals is what `processPacket` returns. -/
structure FlowAggregator where
  table : FlowTable
  activeTimeoutSeconds : ℚ
  inactiveTimeoutSeconds : ℚ
  protectedNetwork : Option IPv4Network

namespace FlowAggregator

def init (config : FlowConfig) (protectedNetwork : Option IPv4Network) : FlowAggregator where
  table := ⟨config.maxFlows, Dict.empty⟩
  activeTimeoutSeconds := toDouble config.activeTimeoutSeconds
  inactiveTimeoutSeconds := toDouble config.inactiveTimeoutSeconds
  protectedNetwork := protectedNetwork

/-- `check_closure` under the aggregator's timeouts. -/
def closes (a : FlowAggregator) (state : FlowState) (now : DateTime) : Bool :=
  (checkClosure state now a.activeTimeoutSeconds a.inactiveTimeoutSeconds).isSome

/-- The signal for a flow `packet` opens. -/
def newFlowSignal (packet : PacketMetadata) (sourceIp destinationIp : IPv4Address) : NewFlowSignal where
  sourceIp := sourceIp
  destinationIp := destinationIp
  destinationPort := packet.destinationPort
  protocol := packet.protocol
  timestamp := packet.timestamp
  sourceMac := packet.sourceMac
  destinationMac := packet.destinationMac

/-- The state a packet of a tracked flow leads to, with the flows evicted and the signals sent on the way. -/
def route (a : FlowAggregator) (packet : PacketMetadata) (sourceIp destinationIp : IPv4Address)
    (key : FlowKey) : List Flow × List NewFlowSignal × FlowState × FlowTable :=
  match a.table.get key with
  | (none, table) =>
    let state := FlowState.opening key packet sourceIp destinationIp
    -- only an initiation counts as a connection its source made
    let signals := if state.initiated then [newFlowSignal packet sourceIp destinationIp] else []
    let (evicted, table) := table.insert key state
    (evicted.toList.map FlowState.toFlow, signals, state, table)
  | (some open_, table) =>
    let state := open_.observe packet
    ([], [], state, { table with flows := table.flows.set key state })

/-- The end of `process_packet`: a flow that closes leaves the table. -/
def settle (a : FlowAggregator) (table : FlowTable) (key : FlowKey) (state : FlowState) (now : DateTime) :
    List Flow × FlowAggregator :=
  if a.closes state now then ([state.toFlow], { a with table := table.pop key })
  else ([], { a with table })

/-- `process_packet`: the flows it emits, the signals it sends and the aggregator after it. -/
def processPacket (a : FlowAggregator) (packet : PacketMetadata) :
    List Flow × List NewFlowSignal × FlowAggregator :=
  match packet.network with
  | .ipv6 _ _ => ([], [], a)
  | .ipv4 sourceIp destinationIp =>
    if !isRoutableUnicast sourceIp a.protectedNetwork || !isRoutableUnicast destinationIp a.protectedNetwork
    then ([], [], a)
    else
      let key := computeFlowKey sourceIp destinationIp packet.sourcePort packet.destinationPort
        packet.protocol
      let (evicted, signals, state, table) := a.route packet sourceIp destinationIp key
      let (closed, a) := a.settle table key state packet.timestamp
      (evicted ++ closed, signals, a)

/-- One round of the loop of `sweep_timeouts`: an open flow that `a`'s timeouts close leaves the table. -/
def sweepFlow (a : FlowAggregator) (now : DateTime) (swept : List Flow × FlowAggregator)
    (item : FlowKey × FlowState) : List Flow × FlowAggregator :=
  if a.closes item.2 now then
    (swept.1 ++ [item.2.toFlow], { swept.2 with table := swept.2.table.pop item.1 })
  else swept

/-- `sweep_timeouts`: the loop over a copy of the items, oldest first. -/
def sweepTimeouts (a : FlowAggregator) (now : DateTime) : List Flow × FlowAggregator :=
  a.table.flows.entries.foldl (a.sweepFlow now) ([], a)

/-- `flush`. -/
def flush (a : FlowAggregator) : List Flow × FlowAggregator :=
  (a.table.flows.values.map FlowState.toFlow, { a with table := { a.table with flows := Dict.empty } })

/-! ## Slow connections -/

/-- `_is_slow_connection_candidate`. -/
def isSlowConnectionCandidate (state : FlowState) (now : DateTime) (query : SlowQuery) : Bool :=
  if state.protocol ≠ .tcp then false
  else if state.backwardPacketCount < 1 then false
  else if state.sawFinForward || state.sawFinBackward || state.sawRst then false
  else if now.secondsSince state.firstSeen < query.minDurationSeconds then false
  else if now.secondsSince state.lastSeen > query.maxIdleSeconds then false
  else decide (toDouble (toDouble state.byteCount / now.secondsSince state.firstSeen) ≤ query.maxBytesPerSecond)

/-- One round of the grouping loop: a candidate joins the connections of its pair of addresses. -/
def groupByPair (now : DateTime) (query : SlowQuery)
    (groups : Dict (IPv4Address × IPv4Address) (List FlowState)) (state : FlowState) :
    Dict (IPv4Address × IPv4Address) (List FlowState) :=
  if isSlowConnectionCandidate state now query then
    let pair := (state.forwardSourceIp, state.forwardDestinationIp)
    groups.set pair ((groups.get? pair).getD [] ++ [state])
  else groups

/-- The candidates by pair of addresses, pairs and candidates in table order. -/
def byPair (states : List FlowState) (now : DateTime) (query : SlowQuery) :
    Dict (IPv4Address × IPv4Address) (List FlowState) :=
  states.foldl (groupByPair now query) Dict.empty

/-- `min(states, key=first_seen)`: the first of the longest-held. -/
def longestHeld (first : FlowState) (rest : List FlowState) : FlowState :=
  rest.foldl (fun best state => if state.firstSeen.us < best.firstSeen.us then state else best) first

/-- The cluster of one pair, if enough of its connections qualify. -/
def cluster? (query : SlowQuery) :
    (IPv4Address × IPv4Address) × List FlowState → Option SlowConnectionCluster
  | (_, []) => none
  | ((sourceIp, destinationIp), first :: rest) =>
    if (first :: rest).length < query.concurrentThreshold then none
    else some ⟨sourceIp, destinationIp, (first :: rest).length, (longestHeld first rest).toFlow⟩

/-- `snapshot_slow_connection_clusters`. -/
def snapshotSlowConnectionClusters (a : FlowAggregator) (now : DateTime) (query : SlowQuery) :
    List SlowConnectionCluster :=
  (byPair a.table.flows.values now query).entries.filterMap (cluster? query)

end FlowAggregator

end Pirewall
