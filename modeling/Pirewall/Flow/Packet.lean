/-
# Pirewall.Flow.Packet -- parsed packets and canonical flows

The flow layer exists twice: a Python aggregator and a Rust engine. This module holds what the two have in
common: the packet one frame parses to (`ParsedFrame`, read by either parser into its own record), and the
`Flow` both are turned into. Seconds are the floats the source has, each the rational number it stands for; what
is computed from them is exact, and a flow carries variances where the source carries their square roots.

A `Flow` carries its own validation: the bounds of its fields and `_check_consistency`.
-/
import Mathlib.Tactic
import Pirewall.Core.Models
import Pirewall.Lib.Float

namespace Pirewall

open Lib

/-! ## Clocks -/

/-- An aware `datetime`: microseconds since the epoch, from the year 1 to the end of the year 9999. -/
structure DateTime where
  us : Int
  min_le : -62135596800000000 ≤ us
  le_max : us ≤ 253402300799999999
  deriving DecidableEq

namespace DateTime

/-- `timedelta.total_seconds()` of so many microseconds: the quotient, rounded once. -/
def totalSeconds (deltaUs : Int) : ℚ := toDouble ((deltaUs : ℚ) / 1000000)

/-- `(a - b).total_seconds()`. -/
def secondsSince (a b : DateTime) : ℚ := totalSeconds (a.us - b.us)

/-- `to_microseconds`. -/
def toMicroseconds (moment : DateTime) : Int := moment.us

/-- `from_microseconds`: out of the range of `datetime` it raises. -/
def fromMicroseconds (us : Int) : Option DateTime :=
  if h : -62135596800000000 ≤ us ∧ us ≤ 253402300799999999 then some ⟨us, h.1, h.2⟩ else none

@[simp] theorem fromMicroseconds_us (moment : DateTime) : fromMicroseconds moment.us = some moment :=
  dif_pos ⟨moment.min_le, moment.le_max⟩

/-- The epoch, one second after it, and a quarter of a second after that. -/
def epoch : DateTime := ⟨0, by decide, by decide⟩
def firstSecond : DateTime := ⟨1000000, by decide, by decide⟩
def nextQuarter : DateTime := ⟨1250000, by decide, by decide⟩

theorem ext_us {a b : DateTime} (h : a.us = b.us) : a = b := by
  cases a
  cases b
  cases h
  rfl

end DateTime

/-! ## Ethernet addresses -/

/-- Two lowercase hex digits. -/
def hexOctet (n : Nat) : String :=
  String.ofList [Nat.digitChar (n / 16 % 16), Nat.digitChar (n % 16)]

/-- `value.to_bytes(6, "big").hex(":")`. -/
def macFromInt (value : BitVec 48) : String :=
  ":".intercalate ((List.range 6).map fun i => hexOctet (value.toNat / 256 ^ (5 - i) % 256))

/-! ## One frame, parsed twice -/

/-- The transport protocols the parsers tell apart (`Proto`). -/
inductive Proto where
  | tcp | udp | icmp | icmpv6 | other
  deriving DecidableEq, Repr

/-- The network layer of a frame. -/
inductive NetworkLayer where
  | ipv4 (source destination : IPv4Address)
  | ipv6 (source destination : BitVec 128)
  deriving DecidableEq

/-- What a frame that parses says. -/
structure ParsedFrame where
  timestamp : DateTime
  sourceMac : BitVec 48
  destinationMac : BitVec 48
  network : NetworkLayer
  proto : Proto
  sourcePort : Option (Fin 65536)
  destinationPort : Option (Fin 65536)
  /-- The raw TCP flags byte; `none` for anything that is not TCP. -/
  tcpFlags : Option (BitVec 8)
  totalLength : Nat
  payloadLength : Nat
  /-- The payload is what the headers leave of the packet; longer is malformed. -/
  payload_le_total : payloadLength ≤ totalLength
  deriving DecidableEq

/-- `_TCP_FLAG_*`, `TCP_*`. -/
def tcpFin : BitVec 8 := 0x01#8
def tcpSyn : BitVec 8 := 0x02#8
def tcpRst : BitVec 8 := 0x04#8
def tcpPsh : BitVec 8 := 0x08#8
def tcpAck : BitVec 8 := 0x10#8
def tcpUrg : BitVec 8 := 0x20#8

/-- The control flags of one TCP packet. -/
structure TcpFlags where
  syn : Bool
  ack : Bool
  fin : Bool
  rst : Bool
  psh : Bool
  urg : Bool
  deriving DecidableEq

/-- `PacketMetadata`, as `parse_packet` builds it. -/
structure PacketMetadata where
  timestamp : DateTime
  network : NetworkLayer
  protocol : Protocol
  sourcePort : Option (Fin 65536)
  destinationPort : Option (Fin 65536)
  tcpFlags : Option TcpFlags
  totalLength : Nat
  payloadLength : Nat
  payload_le_total : payloadLength ≤ totalLength
  sourceMac : Option String
  destinationMac : Option String

/-- The `Protocol` a parsed transport header gets. -/
def Proto.protocol : Proto → Protocol
  | .tcp => .tcp
  | .udp => .udp
  | .icmp => .icmp
  | .icmpv6 => .icmpv6
  | .other => .other

theorem Proto.protocol_injective {p q : Proto} (h : p.protocol = q.protocol) : p = q := by
  cases p <;> cases q <;> first | rfl | exact absurd h (by decide)

/-- `_parse_tcp` on the flags byte. -/
def TcpFlags.ofByte (flagsByte : BitVec 8) : TcpFlags where
  fin := flagsByte &&& tcpFin != 0#8
  syn := flagsByte &&& tcpSyn != 0#8
  rst := flagsByte &&& tcpRst != 0#8
  psh := flagsByte &&& tcpPsh != 0#8
  ack := flagsByte &&& tcpAck != 0#8
  urg := flagsByte &&& tcpUrg != 0#8

/-- The record the Python parser makes of a frame. -/
def ParsedFrame.metadata (frame : ParsedFrame) : PacketMetadata where
  timestamp := frame.timestamp
  network := frame.network
  protocol := frame.proto.protocol
  sourcePort := frame.sourcePort
  destinationPort := frame.destinationPort
  tcpFlags := frame.tcpFlags.map TcpFlags.ofByte
  totalLength := frame.totalLength
  payloadLength := frame.payloadLength
  payload_le_total := frame.payload_le_total
  sourceMac := some (macFromInt frame.sourceMac)
  destinationMac := some (macFromInt frame.destinationMac)

/-! ## Canonical flows -/

/-- `PacketSizeStats`. -/
structure PacketSizeStats where
  minBytes : Int
  maxBytes : Int
  meanBytes : ℚ
  varianceBytes : ℚ
  deriving DecidableEq

/-- `PayloadStats`. -/
structure PayloadStats where
  forwardBytes : Nat
  backwardBytes : Nat
  minBytes : Int
  maxBytes : Int
  meanBytes : ℚ
  varianceBytes : ℚ
  deriving DecidableEq

/-- `InterArrivalStats`. -/
structure InterArrivalStats where
  minSeconds : ℚ
  maxSeconds : ℚ
  meanSeconds : ℚ
  varianceSeconds : ℚ
  deriving DecidableEq

/-- `TcpFlagCounts`; the flow layer never counts ECE and CWR. -/
structure TcpFlagCounts where
  syn : Nat
  ack : Nat
  fin : Nat
  rst : Nat
  psh : Nat
  urg : Nat
  deriving DecidableEq

/-- The fields of a `Flow`, but for its random id. -/
structure FlowFields where
  sourceIp : IPv4Address
  destinationIp : IPv4Address
  sourcePort : Option (Fin 65536)
  destinationPort : Option (Fin 65536)
  protocol : Protocol
  firstSeen : DateTime
  lastSeen : DateTime
  packetCount : Nat
  byteCount : Nat
  forwardPacketCount : Nat
  backwardPacketCount : Nat
  forwardByteCount : Nat
  backwardByteCount : Nat
  tcpFlags : TcpFlagCounts
  packetSizeStats : PacketSizeStats
  interArrivalStats : InterArrivalStats
  payloadStats : PayloadStats
  openedByInitiation : Bool
  sourceMac : Option String
  destinationMac : Option String
  deriving DecidableEq

/-- The validation of a `Flow`: no negative statistic, and `_check_consistency`. -/
def FlowFields.Valid (f : FlowFields) : Prop :=
  (0 ≤ f.packetSizeStats.minBytes ∧ 0 ≤ f.packetSizeStats.maxBytes ∧
    0 ≤ f.packetSizeStats.meanBytes ∧ 0 ≤ f.packetSizeStats.varianceBytes) ∧
  (0 ≤ f.payloadStats.minBytes ∧ 0 ≤ f.payloadStats.maxBytes ∧
    0 ≤ f.payloadStats.meanBytes ∧ 0 ≤ f.payloadStats.varianceBytes) ∧
  (0 ≤ f.interArrivalStats.minSeconds ∧ 0 ≤ f.interArrivalStats.maxSeconds ∧
    0 ≤ f.interArrivalStats.meanSeconds ∧ 0 ≤ f.interArrivalStats.varianceSeconds) ∧
  f.firstSeen.us ≤ f.lastSeen.us ∧
  f.payloadStats.forwardBytes + f.payloadStats.backwardBytes ≤ f.byteCount ∧
  f.forwardPacketCount + f.backwardPacketCount = f.packetCount ∧
  f.forwardByteCount + f.backwardByteCount = f.byteCount

instance (f : FlowFields) : Decidable f.Valid := by
  unfold FlowFields.Valid
  infer_instance

/-- A `Flow` that passed its validation. -/
structure Flow extends FlowFields where
  valid : toFlowFields.Valid
  deriving DecidableEq

/-- `Flow.model_validate`. -/
def Flow.validate (fields : FlowFields) : Option Flow :=
  if h : fields.Valid then some ⟨fields, h⟩ else none

theorem Flow.validate_toFlowFields (flow : Flow) : Flow.validate flow.toFlowFields = some flow :=
  dif_pos flow.valid

/-- `NewFlowSignal`: what the first packet of a flow tells. -/
structure NewFlowSignal where
  sourceIp : IPv4Address
  destinationIp : IPv4Address
  destinationPort : Option (Fin 65536)
  protocol : Protocol
  timestamp : DateTime
  sourceMac : Option String
  destinationMac : Option String
  deriving DecidableEq

/-- `SlowConnectionCluster`. -/
structure SlowConnectionCluster where
  sourceIp : IPv4Address
  destinationIp : IPv4Address
  concurrentCount : Nat
  representativeFlow : Flow
  deriving DecidableEq

/-- The flow settings the aggregators read. -/
structure FlowConfig where
  activeTimeoutSeconds : Nat
  inactiveTimeoutSeconds : Nat
  maxFlows : Nat
  active_pos : 0 < activeTimeoutSeconds
  inactive_pos : 0 < inactiveTimeoutSeconds
  max_pos : 0 < maxFlows

/-- The thresholds of one slow-connection query. -/
structure SlowQuery where
  minDurationSeconds : ℚ
  maxBytesPerSecond : ℚ
  concurrentThreshold : Nat
  maxIdleSeconds : ℚ
  min_pos : 0 < minDurationSeconds

end Pirewall
