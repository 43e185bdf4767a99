/-
# Pirewall.Runtime.TlsEvidence -- TLS matches on their way to the flows they belong to

The capture thread finds a match in a packet and caches it under the key of the packet's flow; the detection thread
pops it by the key of a completed flow. In between the flow is open, then its record travels: through the engine's
pending output and the batch being handed over, or the sweep that closed it, through the bounded queue, to the
detection thread. Three threads take these steps in any order.

The state says of every flow record, and of every match, which packets it comes from. `line` is the records on
their way, in the order in which detection will see them if nothing overtakes.
-/
import Pirewall.Detection.TlsMatch
import Pirewall.Flow.Traced
import Pirewall.Runtime.Salvage

namespace Pirewall

open Lib

/-! ## Matches -/

/-- The key a match in a payload is cached under. -/
def TcpPayload.flowKey (segment : TcpPayload) : FlowKey :=
  computeFlowKey segment.sourceIp segment.destinationIp segment.sourcePort segment.destinationPort .tcp

/-- The callback of `capture_packets` for a TCP packet of port 443, `_handle_tcp_payload`: the payload it hands to the
detectors. -/
def handleTcpPayload (parser : FrameParser) (frame : CapturedFrame) (packet : PacketMetadata) : Option TcpPayload :=
  match packet.network with
  | .ipv6 _ _ => none
  | .ipv4 source destination =>
    if packet.protocol = .tcp ∧ (packet.sourcePort = some 443 ∨ packet.destinationPort = some 443) then
      match parser.extractTcpPayload frame.raw with
      | none => none
      | some payload =>
        if payload = [] then none
        else some ⟨source, destination, packet.sourcePort, packet.destinationPort, packet.timestamp, payload⟩
    else none

/-- The key of a payload is that of its packet. -/
theorem handleTcpPayload_flowKey {parser : FrameParser} {frame : CapturedFrame} {packet : PacketMetadata}
    {segment : TcpPayload} (h : handleTcpPayload parser frame packet = some segment) :
    packet.flowKey? = some segment.flowKey := by
  unfold handleTcpPayload at h
  unfold PacketMetadata.flowKey?
  cases hnet : packet.network with
  | ipv6 _ _ =>
    rw [hnet] at h
    cases h
  | ipv4 source destination =>
    rw [hnet] at h
    dsimp only at h ⊢
    split_ifs at h with htcp
    cases hextract : parser.extractTcpPayload frame.raw with
    | none =>
      rw [hextract] at h
      cases h
    | some payload =>
      rw [hextract] at h
      dsimp only at h
      split_ifs at h
      cases h
      unfold FlowAggregator.keyOf TcpPayload.flowKey
      rw [htcp.1]

/-- `_CachedTlsMatch`, and the number of the packet it was found in. -/
structure CachedTlsMatch where
  found : TlsMatch
  generatedAt : DateTime
  packet : Nat

/-- `_TLS_EVIDENCE_CACHE_MAX`. -/
def tlsEvidenceCacheMax : Nat := 10000

/-- `_cache_tls_match`. -/
def cacheTlsMatch (evidence : Dict FlowKey CachedTlsMatch) (key : FlowKey) (cached : CachedTlsMatch) :
    Dict FlowKey CachedTlsMatch :=
  let evidence :=
    if evidence.contains key = false ∧ evidence.size ≥ tlsEvidenceCacheMax then evidence.popFirst else evidence
  (evidence.set key cached).moveToEnd key

/-- What is cached then was cached before, or is the new match. -/
theorem cacheTlsMatch_get? {evidence : Dict FlowKey CachedTlsMatch} {key other : FlowKey}
    {cached found : CachedTlsMatch} (h : (cacheTlsMatch evidence key cached).get? other = some found) :
    (other = key ∧ found = cached) ∨ evidence.get? other = some found := by
  unfold cacheTlsMatch at h
  dsimp only at h
  rw [Dict.get?_moveToEnd, Dict.get?_set] at h
  split_ifs at h with heq hroom
  · exact .inl ⟨heq, (Option.some.inj h).symm⟩
  · exact .inr (Dict.get?_of_popFirst h)
  · exact .inr h

/-! ## The daemon -/

/-- A `NativeBatch`, with the packets it comes from. -/
structure NumberedBatch where
  completed : List TracedFlow
  tlsPayloads : List (Nat × TcpPayload)

/-- The capture path: the native engine's pending output, or the packet that the Python loop is at. -/
inductive CapturePath where
  | native (pending : NumberedBatch)
  | python (inFlight : Option (Nat × PacketMetadata))

/-- The completed flows that wait to be drained. -/
def CapturePath.completed : CapturePath → List TracedFlow
  | .native pending => pending.completed
  | .python _ => []

/-- The packet that has been read and not yet been aggregated is one of the key. -/
def CapturePath.InFlight (path : CapturePath) (key : FlowKey) (number : Nat) : Prop :=
  match path with
  | .python (some (inFlight, packet)) => inFlight = number ∧ packet.flowKey? = some key
  | _ => False

instance (path : CapturePath) (key : FlowKey) (number : Nat) : Decidable (path.InFlight key number) := by
  unfold CapturePath.InFlight
  split <;> infer_instance

/-- What the daemon reads of outside: the parser, the table of fingerprints and the engine's cap on pending flows. -/
structure TlsSettings where
  parser : FrameParser
  fingerprints : ToolFingerprints
  maxPendingCompleted : Option Nat

/-- The state the threads share, what each of them is at, and what has been attached to which record. -/
structure TlsDaemon where
  path : CapturePath
  traced : TracedAggregator
  frames : Nat
  handing : NumberedBatch
  swept : List TracedFlow
  flowQueue : BoundedQueue TracedFlow
  taken : Option TracedFlow
  evidence : Dict FlowKey CachedTlsMatch
  attached : List (CachedTlsMatch × TracedFlow)

/-- A step of one of the threads. The capture thread reads a frame and aggregates it, or feeds it to the engine, drains
the engine, inspects a payload and enqueues a flow; it recovers the engine, falls back from it or finishes a replay.
The sweep thread sweeps and enqueues. The detection thread takes a flow and pops its evidence. -/
inductive TlsAction where
  | read (frame : CapturedFrame)
  | aggregate
  | feed (frame : CapturedFrame)
  | drain
  | inspectTcpPayload
  | enqueue
  | sweepFlows (now : DateTime)
  | enqueueSwept
  | takeFlow
  | popTlsEvidence
  | recover
  | fallBackToPython
  | finishReplay

namespace TlsDaemon

/-- A daemon that has just started on one of the two paths. -/
def init (config : FlowConfig) (protectedNetwork : Option IPv4Network) (flowQueueMax : Nat) (native : Bool) :
    TlsDaemon where
  path := if native then .native ⟨[], []⟩ else .python none
  traced := .init config protectedNetwork
  frames := 0
  handing := ⟨[], []⟩
  swept := []
  flowQueue := .new flowQueueMax
  taken := none
  evidence := .empty
  attached := []

/-- The records detection comes to first. -/
def ahead (d : TlsDaemon) : List TracedFlow := d.taken.toList ++ d.flowQueue.items

/-- The records on their way. -/
def line (d : TlsDaemon) : List TracedFlow :=
  d.ahead ++ (d.swept ++ (d.handing.completed ++ d.path.completed))

/-- The match `_inspect_tcp_payload` finds in a payload. -/
def found (settings : TlsSettings) (number : Nat) (segment : TcpPayload) : Option CachedTlsMatch :=
  (Pirewall.inspectTcpPayload settings.fingerprints segment.payload).map fun found =>
    ⟨found, segment.timestamp, number⟩

/-- `_inspect_tcp_payload`. -/
def inspect (d : TlsDaemon) (settings : TlsSettings) (number : Nat) (segment : TcpPayload) : TlsDaemon :=
  match found settings number segment with
  | none => d
  | some cached => { d with evidence := cacheTlsMatch d.evidence segment.flowKey cached }

/-- What the Python loop does with a frame up to `process_packet`: parse it and run the callback. -/
def read (d : TlsDaemon) (settings : TlsSettings) (frame : CapturedFrame) : TlsDaemon :=
  match settings.parser.parsePacket frame with
  | none => { d with frames := d.frames + 1 }
  | some packet =>
    let inspected :=
      match handleTcpPayload settings.parser frame packet with
      | none => d
      | some segment => d.inspect settings d.frames segment
    { inspected with frames := d.frames + 1, path := .python (some (d.frames, packet)) }

/-- `process_packet`. -/
def aggregate (d : TlsDaemon) (number : Nat) (packet : PacketMetadata) : TlsDaemon :=
  { d with
    path := .python none
    traced := (d.traced.processPacket number packet).2
    handing := { d.handing with completed := d.handing.completed ++ (d.traced.processPacket number packet).1 } }

/-- The flows `push_completed` sheds, at its cap, of those a frame completes. -/
def shed (settings : TlsSettings) (pending : NumberedBatch) (records : List TracedFlow) : List TracedFlow :=
  match settings.maxPendingCompleted with
  | none => []
  | some limit => records.drop (limit - pending.completed.length)

/-- The flows it keeps. -/
def kept (settings : TlsSettings) (pending : NumberedBatch) (records : List TracedFlow) : List TracedFlow :=
  match settings.maxPendingCompleted with
  | none => records
  | some limit => records.take (limit - pending.completed.length)

/-- `feed` of the engine. -/
def feed (d : TlsDaemon) (settings : TlsSettings) (pending : NumberedBatch) (frame : CapturedFrame) : TlsDaemon :=
  match settings.parser.parsePacket frame with
  | none => { d with frames := d.frames + 1 }
  | some packet =>
    { d with
      frames := d.frames + 1
      traced := (d.traced.processPacket d.frames packet).2
      path := .native
        { completed := pending.completed ++ kept settings pending (d.traced.processPacket d.frames packet).1
          tlsPayloads := pending.tlsPayloads ++
            (tlsCandidates settings.parser frame packet).map fun segment => (d.frames, segment) } }

/-- One step. A thread that is not at a step does not take it. -/
def step (settings : TlsSettings) (d : TlsDaemon) : TlsAction → TlsDaemon
  | .read frame =>
    match d.path, d.handing with
    | .python none, ⟨[], []⟩ => d.read settings frame
    | _, _ => d
  | .aggregate =>
    match d.path with
    | .python (some (number, packet)) => d.aggregate number packet
    | _ => d
  | .feed frame =>
    match d.path with
    | .native pending => d.feed settings pending frame
    | _ => d
  | .drain =>
    match d.path, d.handing with
    | .native pending, ⟨[], []⟩ => { d with path := .native ⟨[], []⟩, handing := pending }
    | _, _ => d
  | .inspectTcpPayload =>
    match d.handing.tlsPayloads with
    | (number, segment) :: rest =>
      { d.inspect settings number segment with handing := { d.handing with tlsPayloads := rest } }
    | [] => d
  | .enqueue =>
    match d.handing with
    | ⟨record :: rest, []⟩ => { d with handing := ⟨rest, []⟩, flowQueue := d.flowQueue.putNowait record }
    | _ => d
  | .sweepFlows now =>
    match d.swept with
    | [] => { d with traced := (d.traced.sweepTimeouts now).2, swept := (d.traced.sweepTimeouts now).1 }
    | _ => d
  | .enqueueSwept =>
    match d.swept with
    | record :: rest => { d with swept := rest, flowQueue := d.flowQueue.putNowait record }
    | [] => d
  | .takeFlow =>
    match d.taken, d.flowQueue.items with
    | none, record :: rest => { d with taken := some record, flowQueue := { d.flowQueue with items := rest } }
    | _, _ => d
  | .popTlsEvidence =>
    match d.taken with
    | none => d
    | some record =>
      match d.evidence.get? record.key with
      | none => { d with taken := none }
      | some cached =>
        { d with
          taken := none
          evidence := d.evidence.erase record.key
          attached := d.attached ++ [(cached, record)] }
  | .recover =>
    match d.path with
    | .native _ => { d with traced := d.traced.flush.2 }
    | _ => d
  | .fallBackToPython =>
    -- what the engine had pending is lost with it
    match d.path, d.handing with
    | .native _, ⟨[], []⟩ =>
      { d with path := .python none, traced := d.traced.flush.2, handing := ⟨d.traced.flush.1, []⟩ }
    | _, _ => d
  | .finishReplay =>
    match d.path, d.handing with
    | .native ⟨[], _⟩, ⟨[], []⟩ | .python none, ⟨[], []⟩ =>
      { d with traced := d.traced.flush.2, handing := ⟨d.traced.flush.1, []⟩ }
    | _, _ => d

/-! ## Where a match can go wrong -/

/-- There is room in the queue. -/
def hasRoom (d : TlsDaemon) : Prop := ¬ (0 < d.flowQueue.maxsize ∧ d.flowQueue.maxsize ≤ d.flowQueue.items.length)

instance (d : TlsDaemon) : Decidable d.hasRoom :=
  inferInstanceAs (Decidable (¬ (0 < d.flowQueue.maxsize ∧ d.flowQueue.maxsize ≤ d.flowQueue.items.length)))

/-- A record of the key is among some records. -/
def Has (records : List TracedFlow) (key : FlowKey) : Prop := ∃ record ∈ records, record.key = key

instance (records : List TracedFlow) (key : FlowKey) : Decidable (Has records key) :=
  inferInstanceAs (Decidable (∃ record ∈ records, record.key = key))

/-- The step does not let a match get behind a record of its key that does not count its packet. -/
def InOrder (settings : TlsSettings) (d : TlsDaemon) : TlsAction → Prop
  | .read frame =>
    -- a match is found in a packet while an earlier flow of the packet's key is on its way
    match d.path, d.handing with
    | .python none, ⟨[], []⟩ =>
      ∀ packet ∈ settings.parser.parsePacket frame, ∀ segment ∈ handleTcpPayload settings.parser frame packet,
        (found settings d.frames segment).isSome → ¬ Has d.line segment.flowKey
    | _, _ => True
  | .inspectTcpPayload =>
    -- likewise, of a packet that was aggregated when it was fed
    match d.handing.tlsPayloads with
    | (number, segment) :: _ =>
      (found settings number segment).isSome →
        TracedAggregator.Counts d.line d.traced segment.flowKey number
    | [] => True
  | .feed frame =>
    -- the engine sheds the flow of a match
    match d.path with
    | .native pending =>
      ∀ packet ∈ settings.parser.parsePacket frame,
        ∀ record ∈ shed settings pending (d.traced.processPacket d.frames packet).1,
          d.evidence.contains record.key → Has d.line record.key
    | _ => True
  | .enqueue =>
    -- the queue refuses it, or it overtakes a swept one
    match d.handing with
    | ⟨record :: _, []⟩ =>
      d.evidence.contains record.key → Has d.ahead record.key ∨ d.hasRoom ∧ ¬ Has d.swept record.key
    | _ => True
  | .enqueueSwept =>
    match d.swept with
    | record :: _ => d.evidence.contains record.key → Has d.ahead record.key ∨ d.hasRoom
    | [] => True
  | .sweepFlows now =>
    -- a later flow overtakes the one of the match, or one is closed just before the packet is aggregated
    match d.swept with
    | [] =>
      ∀ entry ∈ d.traced.aggregator.closing now, ∀ cached ∈ d.evidence.get? entry.1,
        Has d.ahead entry.1 ∨
          ¬ Has (d.handing.completed ++ d.path.completed) entry.1 ∧ ¬ d.path.InFlight entry.1 cached.packet
    | _ => True
  | .recover =>
    -- the open flow of a match is discarded
    match d.path with
    | .native _ => ∀ key ∈ d.evidence.keys, (d.traced.aggregator.table.flows.get? key).isSome → Has d.line key
    | _ => True
  | .fallBackToPython =>
    -- the completed one is
    match d.path, d.handing with
    | .native pending, ⟨[], []⟩ =>
      ∀ record ∈ pending.completed, d.evidence.contains record.key → Has (d.ahead ++ d.swept) record.key
    | _, _ => True
  | .aggregate | .drain | .takeFlow | .popTlsEvidence | .finishReplay => True

instance (settings : TlsSettings) (d : TlsDaemon) (action : TlsAction) : Decidable (d.InOrder settings action) := by
  unfold InOrder
  cases action <;> dsimp only <;> (try split) <;> infer_instance

end TlsDaemon

end Pirewall
