/-
# Pirewall.Flow.Native -- the native flow engine

`native/src/flow.rs`, the port of the flow layer that runs once per packet, from a parsed packet on: keys,
accumulators, the engine with its pending output, and the records `pirewall.flow.native` turns back into
flows. Counters are naturals, clocks are `i64` microseconds that subtract with saturation. A difference of clocks
becomes seconds in two steps, each of which rounds (`secondsOf`); the statistics of these floats are exact. The
candidates for the TLS detectors are left out: no flow depends on them.

An engine call that panics is `none`.
-/
import Pirewall.Flow.Packet
import Pirewall.Flow.LruTable

namespace Pirewall.Native

open Lib

/-! ## Packets and keys -/

/-- `Packet`, without the offset of its payload. -/
structure Packet where
  tsUs : Int
  srcMac : BitVec 48
  dstMac : BitVec 48
  ipv4 : Bool
  src : BitVec 32
  dst : BitVec 32
  proto : Proto
  sport : Option (Fin 65536)
  dport : Option (Fin 65536)
  tcpFlags : Option (BitVec 8)
  totalLength : Nat
  payloadLength : Nat

/-- `FlowKey`. -/
structure FlowKey where
  proto : Proto
  a : BitVec 32 × Int
  b : BitVec 32 × Int
  deriving DecidableEq

/-- `port_value`. -/
def portValue (port : Option (Fin 65536)) : Int := (port.map fun p => (p.val : Int)).getD (-1)

/-- The derived order of `(u32, i32)`. -/
def endpointLt (x y : BitVec 32 × Int) : Bool :=
  decide (x.1 < y.1) || (decide (x.1 = y.1) && decide (x.2 < y.2))

/-- `flow_key`. -/
def flowKey (src dst : BitVec 32) (sport dport : Option (Fin 65536)) (proto : Proto) : FlowKey :=
  let forward := (src, portValue sport)
  let backward := (dst, portValue dport)
  if endpointLt backward forward then ⟨proto, backward, forward⟩ else ⟨proto, forward, backward⟩

/-! ## Accumulators -/

/-- `RunningStats`; `none` stands for the infinities. -/
structure RunningStats where
  count : Nat
  mean : ℚ
  m2 : ℚ
  min : Option ℚ
  max : Option ℚ

namespace RunningStats

def new : RunningStats := ⟨0, 0, 0, none, none⟩

/-- `RunningStats::add`. -/
def add (s : RunningStats) (value : ℚ) : RunningStats :=
  let count := s.count + 1
  let delta := value - s.mean
  let mean := s.mean + delta / (count : ℕ)
  { count, mean
    m2 := s.m2 + delta * (value - mean)
    min := some (match s.min with
      | none => value
      | some x => if value < x then value else x)
    max := some (match s.max with
      | none => value
      | some x => if value > x then value else x) }

def getMean (s : RunningStats) : ℚ := if s.count > 0 then s.mean else 0

/-- `std`, squared. -/
def variance (s : RunningStats) : ℚ := if s.count > 0 then s.m2 / s.count else 0

/-- `sample_std`, squared. -/
def sampleVariance (s : RunningStats) : ℚ := if s.count > 1 then s.m2 / (s.count - 1 : ℕ) else 0

def getMin (s : RunningStats) : ℚ := if s.count > 0 then s.min.getD 0 else 0

def getMax (s : RunningStats) : ℚ := if s.count > 0 then s.max.getD 0 else 0

end RunningStats

/-- `i64::saturating_sub`. -/
def saturatingSub (a b : Int) : Int := max (-2 ^ 63) (min (2 ^ 63 - 1) (a - b))

/-- `delta as f64 / 1e6`: the microseconds become a float, which is then divided. -/
def secondsOf (deltaUs : Int) : ℚ := toDouble (toDouble deltaUs / 1000000)

/-- `FlowState`. -/
structure FlowState where
  proto : Proto
  fwdSrc : BitVec 32
  fwdSport : Option (Fin 65536)
  fwdDst : BitVec 32
  fwdDport : Option (Fin 65536)
  fwdSrcMac : BitVec 48
  fwdDstMac : BitVec 48
  firstSeenUs : Int
  lastSeenUs : Int
  packetCount : Nat
  byteCount : Nat
  fwdPackets : Nat
  bwdPackets : Nat
  fwdBytes : Nat
  bwdBytes : Nat
  fwdPayload : Nat
  bwdPayload : Nat
  syn : Nat
  ack : Nat
  fin : Nat
  rst : Nat
  psh : Nat
  urg : Nat
  sawFinForward : Bool
  sawFinBackward : Bool
  sawRst : Bool
  initiated : Bool
  packetSize : RunningStats
  payloadSize : RunningStats
  interArrival : RunningStats
  lastPacketUs : Option Int

namespace FlowState

/-- Whether `flags` has the bit. -/
def bit (flags mask : BitVec 8) : Bool := flags &&& mask != 0#8

/-- `set(bit)`, where there are flags. -/
def countBit (flags : Option (BitVec 8)) (mask : BitVec 8) : Nat :=
  match flags with
  | none => 0
  | some flags => (bit flags mask).toNat

/-- `FlowState::observe`. -/
def observe (s : FlowState) (packet : Packet) : FlowState :=
  let isForward := decide (packet.src = s.fwdSrc) && decide (packet.sport = s.fwdSport)
  let length := packet.totalLength
  let payload := packet.payloadLength
  { s with
    lastSeenUs := if packet.tsUs > s.lastSeenUs then packet.tsUs else s.lastSeenUs
    packetCount := s.packetCount + 1
    byteCount := s.byteCount + length
    fwdPackets := if isForward then s.fwdPackets + 1 else s.fwdPackets
    fwdBytes := if isForward then s.fwdBytes + length else s.fwdBytes
    fwdPayload := if isForward then s.fwdPayload + payload else s.fwdPayload
    bwdPackets := if isForward then s.bwdPackets else s.bwdPackets + 1
    bwdBytes := if isForward then s.bwdBytes else s.bwdBytes + length
    bwdPayload := if isForward then s.bwdPayload else s.bwdPayload + payload
    syn := s.syn + countBit packet.tcpFlags tcpSyn
    ack := s.ack + countBit packet.tcpFlags tcpAck
    fin := s.fin + countBit packet.tcpFlags tcpFin
    rst := s.rst + countBit packet.tcpFlags tcpRst
    psh := s.psh + countBit packet.tcpFlags tcpPsh
    urg := s.urg + countBit packet.tcpFlags tcpUrg
    sawFinForward := match packet.tcpFlags with
      | none => s.sawFinForward
      | some flags => if bit flags tcpFin && isForward then true else s.sawFinForward
    sawFinBackward := match packet.tcpFlags with
      | none => s.sawFinBackward
      | some flags => if bit flags tcpFin && !isForward then true else s.sawFinBackward
    sawRst := match packet.tcpFlags with
      | none => s.sawRst
      | some flags => if bit flags tcpRst then true else s.sawRst
    packetSize := s.packetSize.add length
    payloadSize := s.payloadSize.add payload
    interArrival := match s.lastPacketUs with
      | none => s.interArrival
      | some previous =>
        let delta := saturatingSub packet.tsUs previous
        if delta ≥ 0 then s.interArrival.add (secondsOf delta) else s.interArrival
    lastPacketUs := some packet.tsUs }

/-- `initiated` of the state a packet opens. -/
def opensConnection (packet : Packet) : Bool :=
  match packet.tcpFlags with
  | none => true
  | some flags =>
    if packet.proto = .tcp then bit flags tcpSyn && flags &&& (tcpAck ||| tcpRst) == 0#8 else true

/-- `FlowState::opening`. -/
def opening (packet : Packet) : FlowState :=
  observe
    { proto := packet.proto
      fwdSrc := packet.src
      fwdSport := packet.sport
      fwdDst := packet.dst
      fwdDport := packet.dport
      fwdSrcMac := packet.srcMac
      fwdDstMac := packet.dstMac
      firstSeenUs := packet.tsUs
      lastSeenUs := packet.tsUs
      packetCount := 0
      byteCount := 0
      fwdPackets := 0
      bwdPackets := 0
      fwdBytes := 0
      bwdBytes := 0
      fwdPayload := 0
      bwdPayload := 0
      syn := 0
      ack := 0
      fin := 0
      rst := 0
      psh := 0
      urg := 0
      sawFinForward := false
      sawFinBackward := false
      sawRst := false
      initiated := opensConnection packet
      packetSize := .new
      payloadSize := .new
      interArrival := .new
      lastPacketUs := none }
    packet

/-- `tcp_completed`. -/
def tcpCompleted (s : FlowState) : Bool :=
  decide (s.proto = .tcp) && (s.sawRst || (s.sawFinForward && s.sawFinBackward))

/-- A difference of two clocks, in seconds. -/
def elapsedSeconds (nowUs thenUs : Int) : ℚ := secondsOf (saturatingSub nowUs thenUs)

/-- `should_close`. -/
def shouldClose (s : FlowState) (nowUs : Int) (activeS inactiveS : ℚ) : Bool :=
  s.tcpCompleted || decide (elapsedSeconds nowUs s.firstSeenUs ≥ activeS)
    || decide (elapsedSeconds nowUs s.lastSeenUs ≥ inactiveS)

end FlowState

/-! ## The engine -/

/-- `NewFlow`. -/
structure NewFlow where
  src : BitVec 32
  dst : BitVec 32
  srcMac : BitVec 48
  dstMac : BitVec 48
  dport : Option (Fin 65536)
  proto : Proto
  tsUs : Int

/-- `SlowCluster`. -/
structure SlowCluster where
  src : BitVec 32
  dst : BitVec 32
  count : Nat
  representative : FlowState

/-- `Engine`. A pending limit of `none` is `usize::MAX`. -/
structure Engine where
  table : LruTable FlowKey FlowState
  activeS : ℚ
  inactiveS : ℚ
  protectedNetwork : Option (BitVec 32 × Nat)
  completed : List FlowState
  newFlows : List NewFlow
  maxPendingCompleted : Option Nat
  maxPendingNewFlows : Option Nat
  completedShed : Nat
  newFlowsShed : Nat

/-- `in_prefix`. -/
def inPrefix (address network : BitVec 32) (len : Nat) : Bool :=
  let mask := if len = 0 then 0#32 else BitVec.allOnes 32 <<< (32 - len)
  address &&& mask == network &&& mask

/-- Whether one more fits below a pending limit. -/
def below (length : Nat) : Option Nat → Bool
  | none => true
  | some limit => decide (length < limit)

namespace Engine

/-- `FlowEngine.new` with a valid configuration. -/
def new (config : FlowConfig) (protectedNetwork : Option IPv4Network)
    (maxPendingCompleted maxPendingNewFlows : Option Nat) : Engine where
  table := .new config.maxFlows
  activeS := toDouble config.activeTimeoutSeconds
  inactiveS := toDouble config.inactiveTimeoutSeconds
  protectedNetwork := protectedNetwork.map fun n => (n.networkAddress, n.prefixlen)
  completed := []
  newFlows := []
  maxPendingCompleted := maxPendingCompleted
  maxPendingNewFlows := maxPendingNewFlows
  completedShed := 0
  newFlowsShed := 0

/-- `push_completed`. -/
def pushCompleted (e : Engine) (state : FlowState) : Engine :=
  if below e.completed.length e.maxPendingCompleted then { e with completed := e.completed ++ [state] }
  else { e with completedShed := e.completedShed + 1 }

/-- Push the flow that left the table, if one did. -/
def pushEvicted (e : Engine) : Option FlowState → Engine
  | none => e
  | some evicted => e.pushCompleted evicted

/-- The signal of `feed` for a flow that opens. -/
def pushNewFlow (e : Engine) (packet : Packet) : Engine :=
  if below e.newFlows.length e.maxPendingNewFlows then
    { e with newFlows := e.newFlows ++ [⟨packet.src, packet.dst, packet.srcMac, packet.dstMac, packet.dport,
      packet.proto, packet.tsUs⟩] }
  else { e with newFlowsShed := e.newFlowsShed + 1 }

/-- `routable`. -/
def routable (e : Engine) (address : BitVec 32) : Bool :=
  if address == 0#32 || inPrefix address 0x7F000000#32 8 || inPrefix address 0xE0000000#32 4
      || inPrefix address 0xA9FE0000#32 16 || inPrefix address 0xF0000000#32 4
      || address == 0xFFFFFFFF#32 then false
  else match e.protectedNetwork with
    | none => true
    | some (network, len) =>
      if len < 31 then
        let hostMask := BitVec.allOnes 32 >>> len
        address != (network &&& ~~~hostMask) ||| hostMask
      else true

/-- The end of `feed`: a flow that closes leaves the table. -/
def closeIf (e : Engine) (key : FlowKey) (close : Bool) : Option Engine :=
  if close then
    (e.table.pop key).map fun (popped, table) => Engine.pushEvicted { e with table } popped
  else some e

/-- The branch of `feed` for a flow that is open already. -/
def feedKnown (e : Engine) (packet : Packet) (key : FlowKey) (slot : Nat) : Option Engine := do
  let node ← e.table.node slot
  let state := node.state.observe packet
  let table ← e.table.modifyNode slot fun n => { n with state }
  Engine.closeIf { e with table } key (state.shouldClose packet.tsUs e.activeS e.inactiveS)

/-- The branch of `feed` for a packet that opens a flow. -/
def feedNew (e : Engine) (packet : Packet) (key : FlowKey) : Option Engine := do
  let state := FlowState.opening packet
  -- a responder's flow is not a new connection
  let e := if state.initiated then e.pushNewFlow packet else e
  let close := state.shouldClose packet.tsUs e.activeS e.inactiveS
  let (evicted, table) ← e.table.insert key state
  let e := Engine.pushEvicted { e with table } evicted
  e.closeIf key close

/-- `feed`, from the parsed packet on. -/
def feed (e : Engine) (packet : Packet) : Option Engine :=
  if !packet.ipv4 || !e.routable packet.src || !e.routable packet.dst then some e
  else do
    let key := flowKey packet.src packet.dst packet.sport packet.dport packet.proto
    let (slot, table) ← e.table.getMut key
    match slot with
    | some slot => Engine.feedKnown { e with table } packet key slot
    | none => Engine.feedNew { e with table } packet key

/-- The pops of `sweep`, in order. -/
def popAll (t : LruTable FlowKey FlowState) :
    List FlowKey → Option (List FlowState × LruTable FlowKey FlowState)
  | [] => some ([], t)
  | key :: rest => do
      let (popped, t) ← t.pop key
      let (states, t) ← popAll t rest
      some (popped.toList ++ states, t)

/-- `sweep`. -/
def sweep (e : Engine) (nowUs : Int) : Option (List FlowState × Engine) := do
  let nodes ← e.table.openNodes
  let closing := (nodes.filter fun n => n.state.shouldClose nowUs e.activeS e.inactiveS).map Node.key
  let (states, table) ← popAll e.table closing
  some (states, { e with table })

/-- `flush`. -/
def flush (e : Engine) : Option (List FlowState × Engine) := do
  let nodes ← e.table.openNodes
  some (nodes.map Node.state, { e with table := e.table.clear })

/-- `drain`: everything pending since the last one. -/
def drain (e : Engine) : (List FlowState × List NewFlow) × Engine :=
  ((e.completed, e.newFlows), { e with completed := [], newFlows := [] })

/-! ## Slow connections -/

/-- `is_slow_connection_candidate`. -/
def isSlowConnectionCandidate (state : FlowState) (nowUs : Int) (query : SlowQuery) : Bool :=
  if state.proto ≠ .tcp then false
  else if state.bwdPackets < 1 then false
  else if state.sawFinForward || state.sawFinBackward || state.sawRst then false
  else
    let duration := FlowState.elapsedSeconds nowUs state.firstSeenUs
    if duration < query.minDurationSeconds then false
    else if FlowState.elapsedSeconds nowUs state.lastSeenUs > query.maxIdleSeconds then false
    else decide (toDouble (toDouble state.byteCount / duration) ≤ query.maxBytesPerSecond)

/-- One round of the loop over the open flows: `order` grows when the entry of `groups` is new. -/
def groupState (nowUs : Int) (query : SlowQuery)
    (acc : List (BitVec 32 × BitVec 32) × Dict (BitVec 32 × BitVec 32) (List FlowState))
    (state : FlowState) :
    List (BitVec 32 × BitVec 32) × Dict (BitVec 32 × BitVec 32) (List FlowState) :=
  if isSlowConnectionCandidate state nowUs query then
    let pair := (state.fwdSrc, state.fwdDst)
    match acc.2.get? pair with
    | none => (acc.1 ++ [pair], acc.2.set pair [state])
    | some group => (acc.1, acc.2.set pair (group ++ [state]))
  else acc

/-- `order` and `groups` of `slow_clusters`: the pairs as they first appear, and the candidates of each. -/
def groupSlow (states : List FlowState) (nowUs : Int) (query : SlowQuery) :
    List (BitVec 32 × BitVec 32) × Dict (BitVec 32 × BitVec 32) (List FlowState) :=
  states.foldl (groupState nowUs query) ([], Dict.empty)

/-- The scan for the representative: an earlier one stays unless a later one is older. -/
def oldest (first : FlowState) (rest : List FlowState) : FlowState :=
  rest.foldl (fun best state => if state.firstSeenUs < best.firstSeenUs then state else best) first

/-- The cluster of one pair of `order`. -/
def slowCluster? (query : SlowQuery) (groups : Dict (BitVec 32 × BitVec 32) (List FlowState))
    (pair : BitVec 32 × BitVec 32) : Option SlowCluster :=
  match groups.get? pair with
  | some (first :: rest) =>
    if (first :: rest).length < query.concurrentThreshold then none
    else some ⟨pair.1, pair.2, (first :: rest).length, oldest first rest⟩
  | _ => none

/-- `slow_clusters`. -/
def slowClusters (e : Engine) (nowUs : Int) (query : SlowQuery) : Option (List SlowCluster) := do
  let nodes ← e.table.openNodes
  let (order, groups) := groupSlow (nodes.map Node.state) nowUs query
  some (order.filterMap (slowCluster? query groups))

end Engine

/-! ## Back to flows -/

/-- `as_str`, read back as a `Protocol`. -/
def Proto.asStr : Proto → String
  | .tcp => "tcp"
  | .udp => "udp"
  | .icmp => "icmp"
  | .icmpv6 => "icmpv6"
  | .other => "other"

/-- `Protocol(value)`. -/
def protocolOfValue : String → Option Protocol
  | "tcp" => some .tcp
  | "udp" => some .udp
  | "icmp" => some .icmp
  | "icmpv6" => some .icmpv6
  | "other" => some .other
  | "any" => some .any
  | _ => none

/-- `FlowRecord::from` and `_flow_from_record`. -/
def flowOfState (s : FlowState) : Option Flow := do
  let protocol ← protocolOfValue (Proto.asStr s.proto)
  let firstSeen ← DateTime.fromMicroseconds s.firstSeenUs
  let lastSeen ← DateTime.fromMicroseconds s.lastSeenUs
  Flow.validate
    { sourceIp := s.fwdSrc
      destinationIp := s.fwdDst
      sourcePort := s.fwdSport
      destinationPort := s.fwdDport
      protocol, firstSeen, lastSeen
      packetCount := s.packetCount
      byteCount := s.byteCount
      forwardPacketCount := s.fwdPackets
      backwardPacketCount := s.bwdPackets
      forwardByteCount := s.fwdBytes
      backwardByteCount := s.bwdBytes
      tcpFlags := ⟨s.syn, s.ack, s.fin, s.rst, s.psh, s.urg⟩
      packetSizeStats := ⟨pyRound s.packetSize.getMin, pyRound s.packetSize.getMax, s.packetSize.getMean,
        s.packetSize.variance⟩
      interArrivalStats := ⟨s.interArrival.getMin, s.interArrival.getMax, s.interArrival.getMean,
        s.interArrival.sampleVariance⟩
      payloadStats := ⟨s.fwdPayload, s.bwdPayload, pyRound s.payloadSize.getMin,
        pyRound s.payloadSize.getMax, s.payloadSize.getMean, s.payloadSize.sampleVariance⟩
      openedByInitiation := s.initiated
      sourceMac := some (macFromInt s.fwdSrcMac)
      destinationMac := some (macFromInt s.fwdDstMac) }

/-- `NewFlowRecord`, as `drain` of the wrapper reads it. -/
def signalOfNewFlow (n : NewFlow) : Option NewFlowSignal := do
  let protocol ← protocolOfValue (Proto.asStr n.proto)
  let timestamp ← DateTime.fromMicroseconds n.tsUs
  some ⟨n.src, n.dst, n.dport, protocol, timestamp, some (macFromInt n.srcMac), some (macFromInt n.dstMac)⟩

/-- One element of the wrapper's `snapshot_slow_connection_clusters`. -/
def clusterOfSlow (c : SlowCluster) : Option SlowConnectionCluster := do
  let flow ← flowOfState c.representative
  some ⟨c.src, c.dst, c.count, flow⟩

end Pirewall.Native

namespace Pirewall

/-- The record the Rust parser makes of a frame: the addresses of an IPv6 packet are not kept. -/
def ParsedFrame.packet (frame : ParsedFrame) : Native.Packet where
  tsUs := frame.timestamp.toMicroseconds
  srcMac := frame.sourceMac
  dstMac := frame.destinationMac
  ipv4 := match frame.network with
    | .ipv4 _ _ => true
    | .ipv6 _ _ => false
  src := match frame.network with
    | .ipv4 source _ => source
    | .ipv6 _ _ => 0#32
  dst := match frame.network with
    | .ipv4 _ destination => destination
    | .ipv6 _ _ => 0#32
  proto := frame.proto
  sport := frame.sourcePort
  dport := frame.destinationPort
  tcpFlags := frame.tcpFlags
  totalLength := frame.totalLength
  payloadLength := frame.payloadLength

end Pirewall
