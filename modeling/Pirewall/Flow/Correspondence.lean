/-
# Pirewall.Flow.Correspondence -- one flow, accumulated twice

The engine and the aggregator keep the same flow in different records: keys with ports as integers or as
options, clocks as `i64` or as `datetime`, MACs as numbers or as text, flags as a byte or as booleans.
`SameFlow` and `SameKey` relate the records; a packet folded into both sides keeps them related, and related
flows close at the same time and are reported as the same `Flow`.

Seconds are where the two may part. The engine makes a float of the microseconds before it divides them, Python
divides them exactly, and beyond `2 ^ 53` microseconds the first step can lose what the second would have kept.
`ReadAlike` is that it does not, and what is said of a packet or of a closure assumes it of the differences of clocks
that the source takes there.
-/
import Pirewall.Flow.Aggregator
import Pirewall.Flow.Native

namespace Pirewall

open Lib

/-! ## Accumulators -/

/-- The two Welford accumulators agree. -/
structure SameStats (r : Native.RunningStats) (s : RunningStats) : Prop where
  count : r.count = s.count
  mean : r.mean = s.runningMean
  m2 : r.m2 = s.m2
  min : r.min = s.least
  max : r.max = s.greatest

theorem SameStats.new : SameStats .new .new := ⟨rfl, rfl, rfl, rfl, rfl⟩

theorem SameStats.add {r : Native.RunningStats} {s : RunningStats} (h : SameStats r s) {x y : ℚ}
    (hxy : x = y) (hy : 0 ≤ y) : SameStats (r.add x) (s.add y hy) := by
  subst hxy
  obtain ⟨count, mean, m2, least, greatest⟩ := r
  obtain ⟨rfl, rfl, rfl, rfl, rfl⟩ := h
  exact ⟨rfl, rfl, rfl, rfl, rfl⟩

/-- What the two report. -/
theorem SameStats.reported {r : Native.RunningStats} {s : RunningStats} (h : SameStats r s) :
    r.getMin = s.min ∧ r.getMax = s.max ∧ r.getMean = s.mean ∧ r.variance = s.variance ∧
      r.sampleVariance = s.sampleVariance := by
  simp only [Native.RunningStats.getMin, Native.RunningStats.getMax, Native.RunningStats.getMean,
    Native.RunningStats.variance, Native.RunningStats.sampleVariance, RunningStats.min, RunningStats.max,
    RunningStats.mean, RunningStats.variance, RunningStats.sampleVariance, h.count, h.mean, h.m2, h.min,
    h.max, Nat.pos_iff_ne_zero, gt_iff_lt, and_self]

/-- Inside the range of `datetime` nothing saturates. -/
theorem saturatingSub_us (a b : DateTime) : Native.saturatingSub a.us b.us = a.us - b.us := by
  have := a.min_le
  have := a.le_max
  have := b.min_le
  have := b.le_max
  unfold Native.saturatingSub
  omega

/-! ## Seconds -/

/-- Both conversions of a difference of clocks give the same float. The engine rounds the microseconds before it
divides them; `total_seconds()` divides them exactly and rounds once. -/
def ReadAlike (deltaUs : Int) : Prop := Native.secondsOf deltaUs = DateTime.totalSeconds deltaUs

instance (deltaUs : Int) : Decidable (ReadAlike deltaUs) := by
  unfold ReadAlike
  infer_instance

/-- Where the microseconds are a float as they are, there is nothing to round twice. -/
theorem readAlike_of_float {deltaUs : Int} (h : toDouble deltaUs = deltaUs) : ReadAlike deltaUs := by
  unfold ReadAlike Native.secondsOf DateTime.totalSeconds
  rw [h]

/-- Those of 285 years are. -/
theorem readAlike_of_le {deltaUs : Int} (h : |deltaUs| ≤ 2 ^ 53) : ReadAlike deltaUs :=
  readAlike_of_float (toDouble_intCast h)

theorem elapsedSeconds_us {a b : DateTime} (h : ReadAlike (a.us - b.us)) :
    Native.FlowState.elapsedSeconds a.us b.us = a.secondsSince b := by
  rw [Native.FlowState.elapsedSeconds, saturatingSub_us, DateTime.secondsSince]
  exact h

theorem secondsSince_nonneg_iff (a b : DateTime) : 0 ≤ a.secondsSince b ↔ 0 ≤ a.us - b.us := by
  rw [DateTime.secondsSince, DateTime.totalSeconds, toDouble_nonneg_iff, ← Int.cast_nonneg_iff (R := ℚ)]
  constructor
  · intro h
    by_contra hneg
    exact absurd h (not_le.mpr (div_neg_of_neg_of_pos (not_le.mp hneg) (by norm_num)))
  · intro h
    exact div_nonneg h (by norm_num)

/-- The gap before a packet that `observe` counts: those that run backwards are left out. -/
def FlowState.observeGaps (s : FlowState) (timestamp : DateTime) : List Int :=
  match s.lastPacketTime with
  | none => []
  | some previous => if 0 ≤ timestamp.us - previous.us then [timestamp.us - previous.us] else []

/-- The differences `check_closure` takes, one after the other until one closes the flow. -/
def FlowState.closureGaps (s : FlowState) (now : DateTime) (activeTimeoutSeconds : ℚ) : List Int :=
  if isTcpCompleted s then []
  else if now.secondsSince s.firstSeen ≥ activeTimeoutSeconds then [now.us - s.firstSeen.us]
  else [now.us - s.firstSeen.us, now.us - s.lastSeen.us]

/-- The differences `_is_slow_connection_candidate` takes, one after the other until one rules the flow out. -/
def FlowState.slowGaps (s : FlowState) (now : DateTime) (query : SlowQuery) : List Int :=
  if s.protocol ≠ .tcp then []
  else if s.backwardPacketCount < 1 then []
  else if s.sawFinForward || s.sawFinBackward || s.sawRst then []
  else if now.secondsSince s.firstSeen < query.minDurationSeconds then [now.us - s.firstSeen.us]
  else [now.us - s.firstSeen.us, now.us - s.lastSeen.us]

/-! ## One flow -/

/-- An accumulator of the engine and one of the aggregator hold the same. -/
structure SameFlow (r : Native.FlowState) (s : FlowState) : Prop where
  protocol : r.proto.protocol = s.protocol
  sourceIp : r.fwdSrc = s.forwardSourceIp
  sourcePort : r.fwdSport = s.forwardSourcePort
  destinationIp : r.fwdDst = s.forwardDestinationIp
  destinationPort : r.fwdDport = s.forwardDestinationPort
  sourceMac : some (macFromInt r.fwdSrcMac) = s.forwardSourceMac
  destinationMac : some (macFromInt r.fwdDstMac) = s.forwardDestinationMac
  firstSeen : r.firstSeenUs = s.firstSeen.us
  lastSeen : r.lastSeenUs = s.lastSeen.us
  packetCount : r.packetCount = s.packetCount
  byteCount : r.byteCount = s.byteCount
  forwardPackets : r.fwdPackets = s.forwardPacketCount
  backwardPackets : r.bwdPackets = s.backwardPacketCount
  forwardBytes : r.fwdBytes = s.forwardByteCount
  backwardBytes : r.bwdBytes = s.backwardByteCount
  forwardPayload : r.fwdPayload = s.forwardPayloadBytes
  backwardPayload : r.bwdPayload = s.backwardPayloadBytes
  flagCounts : (⟨r.syn, r.ack, r.fin, r.rst, r.psh, r.urg⟩ : TcpFlagCounts) = s.flagCounts
  finForward : r.sawFinForward = s.sawFinForward
  finBackward : r.sawFinBackward = s.sawFinBackward
  rst : r.sawRst = s.sawRst
  initiated : r.initiated = s.initiated
  packetSize : SameStats r.packetSize s.packetSizeStats
  payloadSize : SameStats r.payloadSize s.payloadSizeStats
  interArrival : SameStats r.interArrival s.interArrivalStats
  lastPacket : r.lastPacketUs = s.lastPacketTime.map DateTime.us

section Observe

variable {r : Native.FlowState} {s : FlowState} {frame : ParsedFrame} {source destination : IPv4Address}

/-- Both find the same direction. -/
theorem SameFlow.isForward (h : SameFlow r s) (hnet : frame.network = .ipv4 source destination) :
    (decide (frame.packet.src = r.fwdSrc) && decide (frame.packet.sport = r.fwdSport)) =
      s.isForward frame.metadata := by
  simp only [FlowState.isForward, PacketMetadata.sourceIp?, ParsedFrame.packet, ParsedFrame.metadata, hnet,
    h.sourceIp, h.sourcePort, Option.some.injEq]

/-- `observe`, on either side, where both read the gap before the packet alike. -/
theorem SameFlow.observe (h : SameFlow r s) (hnet : frame.network = .ipv4 source destination)
    (hgap : ∀ deltaUs ∈ s.observeGaps frame.timestamp, ReadAlike deltaUs) :
    SameFlow (r.observe frame.packet) (s.observe frame.metadata) := by
  have hforward := h.isForward hnet
  have hus : ∀ p : Prop, ∀ [Decidable p], ∀ a b : DateTime,
      (if p then a.us else b.us) = (if p then a else b).us := by
    intro p _ a b
    split <;> rfl
  refine ⟨h.protocol, h.sourceIp, h.sourcePort, h.destinationIp, h.destinationPort, h.sourceMac,
    h.destinationMac, h.firstSeen, ?_, ?_, ?_, ?_, ?_, ?_, ?_, ?_, ?_, ?_, ?_, ?_, ?_, h.initiated, ?_, ?_,
    ?_, rfl⟩
  -- field by field, in the order of the structure
  all_goals simp only [Native.FlowState.observe, FlowState.observe, hforward]
  · rw [h.lastSeen]
    exact hus _ _ _
  · rw [h.packetCount]
  · rw [h.byteCount]
    rfl
  · rw [h.forwardPackets]
  · rw [h.backwardPackets]
  · rw [h.forwardBytes]
    rfl
  · rw [h.backwardBytes]
    rfl
  · rw [h.forwardPayload]
    rfl
  · rw [h.backwardPayload]
    rfl
  · rw [← h.flagCounts]
    simp only [ParsedFrame.packet, ParsedFrame.metadata]
    cases frame.tcpFlags with
    | none => rfl
    | some flags => rfl
  · rw [h.finForward]
    simp only [ParsedFrame.packet, ParsedFrame.metadata]
    cases frame.tcpFlags with
    | none => rfl
    | some flags => rfl
  · rw [h.finBackward]
    simp only [ParsedFrame.packet, ParsedFrame.metadata]
    cases frame.tcpFlags with
    | none => rfl
    | some flags => rfl
  · rw [h.rst]
    simp only [ParsedFrame.packet, ParsedFrame.metadata]
    cases frame.tcpFlags with
    | none => rfl
    | some flags => rfl
  · exact h.packetSize.add rfl _
  · exact h.payloadSize.add rfl _
  · rw [h.lastPacket]
    -- the gap before the packet is the one number that each side computes in its own way
    unfold FlowState.observeGaps at hgap
    cases hprevious : s.lastPacketTime with
    | none => exact h.interArrival
    | some previous =>
      simp only [hprevious] at hgap
      simp only [Option.map_some]
      have hsub : Native.saturatingSub frame.packet.tsUs previous.us = frame.timestamp.us - previous.us :=
        saturatingSub_us frame.timestamp previous
      show SameStats _ (if hs : 0 ≤ frame.timestamp.secondsSince previous then
        s.interArrivalStats.add (frame.timestamp.secondsSince previous) hs else s.interArrivalStats)
      -- a packet that comes from before the last one counts no gap
      by_cases hdelta : 0 ≤ frame.timestamp.us - previous.us
      · have hseconds := (secondsSince_nonneg_iff frame.timestamp previous).mpr hdelta
        rw [if_pos hdelta] at hgap
        have hread := hgap _ List.mem_cons_self
        rw [if_pos (hsub ▸ hdelta), dif_pos hseconds]
        exact h.interArrival.add (by rw [hsub]; exact hread) hseconds
      · rw [if_neg (hsub ▸ hdelta),
          dif_neg fun hs => hdelta ((secondsSince_nonneg_iff frame.timestamp previous).mp hs)]
        exact h.interArrival

/-- Both see a connection opened by the same packets. -/
theorem opensConnection_eq (frame : ParsedFrame) :
    Native.FlowState.opensConnection frame.packet = isInitiation frame.metadata := by
  simp only [Native.FlowState.opensConnection, isInitiation, ParsedFrame.packet, ParsedFrame.metadata]
  cases frame.tcpFlags with
  | none => rfl
  | some flags =>
    have hproto : frame.proto = .tcp ↔ frame.proto.protocol = .tcp :=
      ⟨fun h => by rw [h]; rfl, fun h => Proto.protocol_injective h⟩
    -- ACK and RST are tested in one mask on one side, one after the other on the other
    have hmask : (flags &&& (tcpAck ||| tcpRst) == 0#8) =
        (!(flags &&& tcpAck != 0#8) && !(flags &&& tcpRst != 0#8)) := by
      revert flags
      decide
    simp only [Option.map_some, TcpFlags.ofByte, Native.FlowState.bit, hmask, hproto, ite_not,
      Bool.and_assoc]

/-- `opening`, on either side. -/
theorem SameFlow.opening (key : FlowKey) (hnet : frame.network = .ipv4 source destination) :
    SameFlow (Native.FlowState.opening frame.packet)
      (FlowState.opening key frame.metadata source destination) := by
  have hsrc : frame.packet.src = source := by simp only [ParsedFrame.packet, hnet]
  have hdst : frame.packet.dst = destination := by simp only [ParsedFrame.packet, hnet]
  refine SameFlow.observe ?_ hnet (fun _ hgap => absurd hgap List.not_mem_nil)
  exact ⟨rfl, hsrc, rfl, hdst, rfl, rfl, rfl, rfl, rfl, rfl, rfl, rfl, rfl, rfl, rfl, rfl, rfl, rfl, rfl,
    rfl, rfl, opensConnection_eq frame, .new, .new, .new, rfl⟩

end Observe

section Closing

variable {r : Native.FlowState} {s : FlowState}

theorem SameFlow.isTcp (h : SameFlow r s) : r.proto = .tcp ↔ s.protocol = .tcp := by
  rw [← h.protocol]
  exact ⟨fun hp => by rw [hp]; rfl, fun hp => Proto.protocol_injective hp⟩

/-- Both close the same flows at the same time, where they read the differences they take alike. -/
theorem SameFlow.shouldClose (h : SameFlow r s) (a : FlowAggregator) (now : DateTime)
    (hgaps : ∀ deltaUs ∈ s.closureGaps now a.activeTimeoutSeconds, ReadAlike deltaUs) :
    r.shouldClose now.us a.activeTimeoutSeconds a.inactiveTimeoutSeconds = a.closes s now := by
  have htcp : r.tcpCompleted = isTcpCompleted s := by
    simp only [Native.FlowState.tcpCompleted, isTcpCompleted, h.isTcp, h.rst, h.finForward, h.finBackward]
    by_cases hp : s.protocol = .tcp
    · simp [hp]
    · simp [hp]
  rw [Native.FlowState.shouldClose, htcp, h.firstSeen, h.lastSeen, FlowAggregator.closes, checkClosure]
  unfold FlowState.closureGaps at hgaps
  by_cases hcompleted : isTcpCompleted s = true
  · rw [hcompleted, if_pos rfl, Bool.true_or, Bool.true_or]
    rfl
  rw [if_neg hcompleted] at hgaps
  rw [if_neg hcompleted, Bool.eq_false_of_not_eq_true hcompleted, Bool.false_or]
  by_cases hactive : now.secondsSince s.firstSeen ≥ a.activeTimeoutSeconds
  · -- the active timeout closes it, and neither side looks further
    rw [if_pos hactive] at hgaps
    rw [if_pos hactive, elapsedSeconds_us (hgaps _ List.mem_cons_self), decide_eq_true hactive, Bool.true_or]
    rfl
  · rw [if_neg hactive] at hgaps
    rw [if_neg hactive, elapsedSeconds_us (hgaps _ List.mem_cons_self), decide_eq_false hactive, Bool.false_or,
      elapsedSeconds_us (hgaps _ (List.mem_cons_of_mem _ List.mem_cons_self))]
    by_cases hinactive : now.secondsSince s.lastSeen ≥ a.inactiveTimeoutSeconds
    · rw [if_pos hinactive, decide_eq_true hinactive]
      rfl
    · rw [if_neg hinactive, decide_eq_false hinactive]
      rfl

/-- A record read back is the flow the aggregator makes. -/
theorem SameFlow.flow (h : SameFlow r s) : Native.flowOfState r = some s.toFlow := by
  obtain ⟨hmin, hmax, hmean, hvar, _⟩ := h.packetSize.reported
  obtain ⟨hpmin, hpmax, hpmean, _, hpvar⟩ := h.payloadSize.reported
  obtain ⟨himin, himax, himean, _, hivar⟩ := h.interArrival.reported
  have hprotocol : Native.protocolOfValue (Native.Proto.asStr r.proto) = some s.protocol := by
    rw [← h.protocol]
    cases r.proto <;> rfl
  rw [← Flow.validate_toFlowFields]
  simp only [Native.flowOfState, hprotocol, h.firstSeen, h.lastSeen, DateTime.fromMicroseconds_us,
    Option.bind_eq_bind, Option.bind_some, h.sourceIp, h.sourcePort, h.destinationIp, h.destinationPort,
    h.sourceMac, h.destinationMac, h.packetCount, h.byteCount, h.forwardPackets, h.backwardPackets,
    h.forwardBytes, h.backwardBytes, h.forwardPayload, h.backwardPayload, h.flagCounts, h.initiated, hmin,
    hmax, hmean, hvar, hpmin, hpmax, hpmean, hpvar, himin, himax, himean, hivar]
  rfl

end Closing

/-! ## Keys and addresses -/

/-- The same undirected identity. -/
structure SameKey (k : Native.FlowKey) (k' : FlowKey) : Prop where
  protocol : k.proto.protocol = k'.protocol
  endpointA : k.a = (k'.endpointA.1, portValue k'.endpointA.2)
  endpointB : k.b = (k'.endpointB.1, portValue k'.endpointB.2)

theorem nativePortValue (port : Option (Fin 65536)) : Native.portValue port = portValue port := by
  cases port <;> rfl

theorem endpointLt_iff {x y : BitVec 32 × Int} :
    Native.endpointLt x y = true ↔ x.1 < y.1 ∨ x.1 = y.1 ∧ x.2 < y.2 := by
  simp [Native.endpointLt]

theorem sortsBefore_iff {x y : Nat × Int} :
    sortsBefore x y = true ↔ x.1 < y.1 ∨ x.1 = y.1 ∧ x.2 < y.2 := by
  simp [sortsBefore]

/-- Both sort the two endpoints alike. -/
theorem sameKey (src dst : IPv4Address) (sport dport : Option (Fin 65536)) (proto : Proto) :
    SameKey (Native.flowKey src dst sport dport proto)
      (computeFlowKey src dst sport dport proto.protocol) := by
  have horder : Native.endpointLt (dst, portValue dport) (src, portValue sport) =
      sortsBefore (sortValue (dst, dport)) (sortValue (src, sport)) := by
    rw [Bool.eq_iff_iff, endpointLt_iff, sortsBefore_iff]
    simp only [sortValue, BitVec.lt_def, BitVec.toNat_inj]
  unfold Native.flowKey computeFlowKey
  simp only [nativePortValue, horder]
  cases sortsBefore (sortValue (dst, dport)) (sortValue (src, sport)) with
  | true => exact ⟨rfl, rfl, rfl⟩
  | false => exact ⟨rfl, rfl, rfl⟩

/-- Neither key type confuses what the other tells apart. -/
theorem SameKey.eq_iff {k₁ k₂ : Native.FlowKey} {k₁' k₂' : FlowKey} (h₁ : SameKey k₁ k₁')
    (h₂ : SameKey k₂ k₂') : k₁ = k₂ ↔ k₁' = k₂' := by
  have hendpoint : ∀ {e e' : Endpoint}, (e.1, portValue e.2) = (e'.1, portValue e'.2) → e = e' := by
    intro e e' h
    obtain ⟨hip, hport⟩ := Prod.mk.inj h
    exact Prod.ext hip (portValue_injective hport)
  constructor
  · rintro rfl
    have hp := h₁.protocol.symm.trans h₂.protocol
    have ha := hendpoint (h₁.endpointA.symm.trans h₂.endpointA)
    have hb := hendpoint (h₁.endpointB.symm.trans h₂.endpointB)
    cases k₁'
    cases k₂'
    simp_all
  · rintro rfl
    have hp := Proto.protocol_injective (h₁.protocol.trans h₂.protocol.symm)
    have ha := h₁.endpointA.trans h₂.endpointA.symm
    have hb := h₁.endpointB.trans h₂.endpointB.symm
    cases k₁
    cases k₂
    simp_all

theorem inPrefix_eq_inBlock (address : IPv4Address) {block : BitVec 32} {len : Nat} (hlen : len ≠ 0)
    (hblock : block &&& netmask len = block) :
    Native.inPrefix address block len = address.inBlock block len := by
  simp only [Native.inPrefix, if_neg hlen, IPv4Address.inBlock]
  rw [show block &&& BitVec.allOnes 32 <<< (32 - len) = block from hblock]
  rfl

/-- The host bits of a prefix, from either end. -/
theorem allOnes_shiftRight : ∀ len ≤ 32, BitVec.allOnes 32 >>> len = ~~~ netmask len := by
  decide

/-- The broadcast address of the protected network. -/
theorem nativeBroadcast (n : IPv4Network) :
    (n.networkAddress &&& ~~~(BitVec.allOnes 32 >>> n.prefixlen)) ||| (BitVec.allOnes 32 >>> n.prefixlen) =
      n.broadcastAddress := by
  rw [allOnes_shiftRight n.prefixlen n.prefixlen_le, IPv4Network.broadcastAddress, BitVec.not_not]
  ext i hi
  simp only [BitVec.getElem_or, BitVec.getElem_and, BitVec.getElem_not]
  cases n.networkAddress[i] <;> cases (netmask n.prefixlen)[i] <;> rfl

/-- Both engines know the same host addresses. -/
theorem routable_eq {e : Native.Engine} {protectedNetwork : Option IPv4Network}
    (h : e.protectedNetwork = protectedNetwork.map fun n => (n.networkAddress, n.prefixlen))
    (address : IPv4Address) : e.routable address = isRoutableUnicast address protectedNetwork := by
  unfold Native.Engine.routable isRoutableUnicast
  rw [inPrefix_eq_inBlock address (by decide) (by decide),
    inPrefix_eq_inBlock address (by decide) (by decide),
    inPrefix_eq_inBlock address (by decide) (by decide),
    inPrefix_eq_inBlock address (by decide) (by decide), h]
  refine if_congr Iff.rfl rfl ?_
  cases protectedNetwork with
  | none => rfl
  | some n =>
    simp only [Option.map_some, nativeBroadcast]
    split
    · rename_i hlen
      simp [hlen, bne]
    · rename_i hlen
      simp [hlen]

end Pirewall
