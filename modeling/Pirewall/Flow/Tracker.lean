/-
# Pirewall.Flow.Tracker -- the native engine as Python holds it

A flow tracker is what both flow engines are to their callers: frames open flows, a flow is handed out once, when
it completes, times out or is flushed, and until then it is open. `FlowTracker` carries that law for each of its
operations; `FlowTracker.python` is the Python aggregator with it.

`NativeEngine` is a tracker behind the boundary of `native/src/lib.rs`: its pending output, its counters, and what
a caught panic does to it. The panic poisons the engine's lock, and the next call recovers it before anything else
(`lock`, `recover`), so the engine is shown here as it is once it has recovered.
-/
import Pirewall.Flow.Conservation

namespace Pirewall

open Lib

/-! ## Flow identities -/

/-- What stays of a flow from its first packet on: its two ends as that packet named them, and when it came. -/
structure FlowId where
  sourceIp : IPv4Address
  destinationIp : IPv4Address
  sourcePort : Option (Fin 65536)
  destinationPort : Option (Fin 65536)
  protocol : Protocol
  firstSeen : DateTime
  deriving DecidableEq

/-- The identity of a flow. -/
def Flow.id (flow : Flow) : FlowId :=
  ⟨flow.sourceIp, flow.destinationIp, flow.sourcePort, flow.destinationPort, flow.protocol, flow.firstSeen⟩

/-- The identities of some flows. -/
def flowIds (flows : List Flow) : Multiset FlowId := ↑(flows.map Flow.id)

@[simp] theorem flowIds_nil : flowIds [] = 0 := rfl

@[simp] theorem flowIds_append (flows more : List Flow) : flowIds (flows ++ more) = flowIds flows + flowIds more := by
  unfold flowIds
  rw [List.map_append]
  rfl

theorem flowIds_eq (flows : List Flow) : flowIds flows = (↑flows : Multiset Flow).map Flow.id := rfl

theorem eq_nil_of_flowIds {flows : List Flow} (h : flowIds flows = 0) : flows = [] := by
  rw [flowIds, Multiset.coe_eq_zero, List.map_eq_nil_iff] at h
  exact h

/-! ## Output -/

/-- `TcpPayload`: a TLS candidate. -/
structure TcpPayload where
  sourceIp : IPv4Address
  destinationIp : IPv4Address
  sourcePort : Option (Fin 65536)
  destinationPort : Option (Fin 65536)
  timestamp : DateTime
  payload : List UInt8
  deriving DecidableEq

/-- `NativeBatch`. -/
structure NativeBatch where
  completed : List Flow
  newFlows : List NewFlowSignal
  tlsPayloads : List TcpPayload
  deriving DecidableEq

namespace NativeBatch

/-- A batch of nothing. -/
def empty : NativeBatch := ⟨[], [], []⟩

/-- `_merge`, and the three `extend` calls in a row. -/
def merge (first second : NativeBatch) : NativeBatch :=
  ⟨first.completed ++ second.completed, first.newFlows ++ second.newFlows,
    first.tlsPayloads ++ second.tlsPayloads⟩

@[simp] theorem merge_completed (first second : NativeBatch) :
    (first.merge second).completed = first.completed ++ second.completed := rfl

@[simp] theorem empty_completed : empty.completed = [] := rfl

end NativeBatch

/-! ## Trackers -/

/-- What a frame does: the table after it, the flow it opens if it opens one, and what it produces. -/
structure Fed (Table : Type) where
  table : Table
  opened : List FlowId
  output : NativeBatch
  malformed : Bool

/-- A flow engine over some kind of frame. -/
structure FlowTracker (Frame : Type) where
  Table : Type
  empty : Table
  feed : Table → Frame → Fed Table
  sweepTimeouts : Table → DateTime → List Flow × Table
  flush : Table → List Flow
  openFlows : Table → Multiset FlowId
  openFlows_empty : openFlows empty = 0
  feed_flows : ∀ table frame, openFlows table + ↑(feed table frame).opened =
    flowIds (feed table frame).output.completed + openFlows (feed table frame).table
  sweep_flows : ∀ table now, openFlows table =
    flowIds (sweepTimeouts table now).1 + openFlows (sweepTimeouts table now).2
  flush_flows : ∀ table, openFlows table = flowIds (flush table)

/-! ## The Python tracker -/

/-- A captured frame. -/
structure CapturedFrame where
  raw : List UInt8
  capturedAt : DateTime
  deriving DecidableEq

/-- `parse_packet`, which refuses a malformed or unsupported frame, and `extract_tcp_payload`. -/
structure FrameParser where
  parsePacket : CapturedFrame → Option PacketMetadata
  extractTcpPayload : List UInt8 → Option (List UInt8)

/-- `_tls_candidate`: only a heartbeat or a ClientHello. -/
def tlsCandidate (parser : FrameParser) (frame : CapturedFrame) (packet : PacketMetadata)
    (source destination : IPv4Address) : Option TcpPayload :=
  match parser.extractTcpPayload frame.raw with
  | none => none
  | some payload =>
    if payload[0]? = some 24 ∨ payload[0]? = some 22 ∧ payload[5]? = some 1 then
      some ⟨source, destination, packet.sourcePort, packet.destinationPort, frame.capturedAt, payload⟩
    else none

/-- The candidate of a frame, if its packet is one of TCP port 443. -/
def tlsCandidates (parser : FrameParser) (frame : CapturedFrame) (packet : PacketMetadata) : List TcpPayload :=
  match packet.network with
  | .ipv6 _ _ => []
  | .ipv4 source destination =>
    if packet.protocol = .tcp ∧ (packet.sourcePort = some 443 ∨ packet.destinationPort = some 443) then
      (tlsCandidate parser frame packet source destination).toList
    else []

namespace FlowAggregator

/-- The identity of the flow a packet opens, if it opens one. -/
def opens (a : FlowAggregator) (packet : PacketMetadata) : List FlowId :=
  match packet.network with
  | .ipv6 _ _ => []
  | .ipv4 sourceIp destinationIp =>
    if !isRoutableUnicast sourceIp a.protectedNetwork || !isRoutableUnicast destinationIp a.protectedNetwork
    then []
    else
      match a.table.flows.get? (computeFlowKey sourceIp destinationIp packet.sourcePort packet.destinationPort
          packet.protocol) with
      | none => [⟨sourceIp, destinationIp, packet.sourcePort, packet.destinationPort, packet.protocol,
          packet.timestamp⟩]
      | some _ => []

/-- A packet keeps the table, and moves every flow it takes out of it to the emitted ones. -/
theorem processPacket_flows {a : FlowAggregator} (h : a.table.WellKept) (packet : PacketMetadata) :
    (a.processPacket packet).2.2.table.WellKept ∧
      a.table.openFlows.map Flow.id + ↑(a.opens packet) =
        flowIds (a.processPacket packet).1 + (a.processPacket packet).2.2.table.openFlows.map Flow.id := by
  unfold processPacket opens
  cases packet.network with
  | ipv6 _ _ => exact ⟨h, by simp⟩
  | ipv4 sourceIp destinationIp =>
    dsimp only
    split_ifs with hguard
    · exact ⟨h, by simp⟩
    · set key := computeFlowKey sourceIp destinationIp packet.sourcePort packet.destinationPort packet.protocol
      obtain ⟨hkept, -, hin⟩ := route_kept h packet sourceIp destinationIp key
      refine ⟨(settle_kept (a := a) hkept key _ packet.timestamp).1, ?_⟩
      rw [flowIds_append, add_assoc, flowIds_eq (a.settle _ _ _ _).1, ← Multiset.map_add,
        settle_flows (a := a) hin packet.timestamp, Multiset.map_cons]
      rcases route_flows h packet sourceIp destinationIp key with
        ⟨hnone, hstate, hflows⟩ | ⟨state, hsome, hquiet, hstate, hflows⟩
      · rw [hnone, hstate, hflows, Multiset.map_add, flowIds_eq, add_assoc,
          ← Multiset.singleton_add]
        exact congrArg _ (add_comm _ _)
      · rw [hsome, hstate, hquiet, hflows, Multiset.map_cons, flowIds_nil, zero_add, Multiset.coe_nil, add_zero]
        rfl

end FlowAggregator

/-- The Python path: `parse_packet` and `FlowAggregator`. -/
def FlowTracker.python (parser : FrameParser) (config : FlowConfig) (protectedNetwork : Option IPv4Network) :
    FlowTracker CapturedFrame where
  Table := { a : FlowAggregator // a.table.WellKept }
  empty := ⟨.init config protectedNetwork, (Conserved.init config protectedNetwork).kept⟩
  feed a frame :=
    match parser.parsePacket frame with
    | none => ⟨a, [], .empty, true⟩
    | some packet =>
      ⟨⟨(a.1.processPacket packet).2.2, (FlowAggregator.processPacket_flows a.2 packet).1⟩, a.1.opens packet,
        ⟨(a.1.processPacket packet).1, (a.1.processPacket packet).2.1, tlsCandidates parser frame packet⟩, false⟩
  sweepTimeouts a now :=
    ((a.1.sweepTimeouts now).1, ⟨(a.1.sweepTimeouts now).2, FlowAggregator.sweepTimeouts_kept a.2 now⟩)
  flush a := a.1.flush.1
  openFlows a := a.1.table.openFlows.map Flow.id
  openFlows_empty := rfl
  feed_flows := by
    intro a frame
    split
    · simp
    · rename_i packet _
      exact (FlowAggregator.processPacket_flows a.2 packet).2
  sweep_flows := by
    intro a now
    rw [flowIds_eq, ← Multiset.map_add, FlowAggregator.sweepTimeouts_flows]
  flush_flows := fun _ => rfl

/-! ## The native engine -/

/-- `NativeEngineError`: the call that panicked. -/
structure NativeEngineError where
  what : String
  deriving DecidableEq

/-- `FlowEngine`: a tracker with its pending output and its counters. -/
structure NativeEngine {Frame : Type} (tracker : FlowTracker Frame) where
  table : tracker.Table
  pending : NativeBatch
  packetsSeen : Nat
  packetsMalformed : Nat
  flowsLostToPanics : Nat
  panics : Nat

namespace NativeEngine

variable {Frame : Type} {tracker : FlowTracker Frame}

/-- A fresh engine. -/
def new (tracker : FlowTracker Frame) : NativeEngine tracker := ⟨tracker.empty, .empty, 0, 0, 0, 0⟩

/-- The flows the engine has to hand out: those it holds open and those it has completed. -/
def flows (e : NativeEngine tracker) : Multiset FlowId :=
  tracker.openFlows e.table + flowIds e.pending.completed

/-- What a caught panic leaves: the open flows are discarded and counted, pending output and counters stay. -/
def recover (e : NativeEngine tracker) : NativeEngine tracker :=
  { e with
    table := tracker.empty
    flowsLostToPanics := e.flowsLostToPanics + (tracker.openFlows e.table).card
    panics := e.panics + 1 }

/-- A call of the engine, under `catch_unwind`. -/
def guarded {α : Type} (e : NativeEngine tracker) (what : String) (panics : Bool)
    (f : NativeEngine tracker → α × NativeEngine tracker) : Except NativeEngineError α × NativeEngine tracker :=
  if panics then (.error ⟨what⟩, e.recover) else (.ok (f e).1, (f e).2)

/-- `feed`. The frame is counted before anything can panic. -/
def feed (e : NativeEngine tracker) (panics : Bool) (frame : Frame) :
    Except NativeEngineError Unit × NativeEngine tracker :=
  guarded { e with packetsSeen := e.packetsSeen + 1 } "feed" panics fun e =>
    ((), { e with
      table := (tracker.feed e.table frame).table
      pending := e.pending.merge (tracker.feed e.table frame).output
      packetsMalformed := e.packetsMalformed + (tracker.feed e.table frame).malformed.toNat })

/-- `drain`. -/
def drain (e : NativeEngine tracker) (panics : Bool) : Except NativeEngineError NativeBatch × NativeEngine tracker :=
  guarded e "drain" panics fun e => (e.pending, { e with pending := .empty })

/-- `sweep`. -/
def sweepTimeouts (e : NativeEngine tracker) (panics : Bool) (now : DateTime) :
    Except NativeEngineError (List Flow) × NativeEngine tracker :=
  guarded e "sweep" panics fun e =>
    ((tracker.sweepTimeouts e.table now).1, { e with table := (tracker.sweepTimeouts e.table now).2 })

/-- `flush`. -/
def flush (e : NativeEngine tracker) (panics : Bool) :
    Except NativeEngineError (List Flow) × NativeEngine tracker :=
  guarded e "flush" panics fun e => (tracker.flush e.table, { e with table := tracker.empty })

/-- `counters`. -/
def counters (e : NativeEngine tracker) (panics : Bool) :
    Except NativeEngineError (Nat × Nat) × NativeEngine tracker :=
  guarded e "counters" panics fun e => ((e.packetsSeen, e.packetsMalformed), e)

/-- `panic_stats`. -/
def panicStats (e : NativeEngine tracker) (panics : Bool) :
    Except NativeEngineError (Nat × Nat) × NativeEngine tracker :=
  guarded e "panic_stats" panics fun e => ((e.panics, e.flowsLostToPanics), e)

end NativeEngine

end Pirewall
