/-
# Pirewall.Capture.ParserAgreement -- the two packet parsers agree

`native/src/parse.rs` calls itself a line-for-line port of `capture/parser.py`. Here both are walked in lockstep over
an arbitrary byte string: the native parser never reads out of bounds, both accept the same frames, and on those both
records are made of one `ParsedFrame`. The TCP payload and the filter of the TLS detectors are the same as well, and
the filter drops nothing a detector would answer to.

A frame that is too short is where two parsers may part. In Python a slice comes out short and `struct.unpack_from`
raises; in Rust an index out of bounds is a panic. Both sources check lengths ahead of their reads, and the lemmas of
the first section say what a read gives once its bound is known, in either parser. The walk then goes header by header
in the order of the source: Ethernet, IPv4 or IPv6, and the transport header behind them.

The addresses are written out by different routines. `bytes.hex` prints octet by octet and the native record keeps a
number of 48 bits, so the section on Ethernet addresses folds six octets into that number and reads them off again.
-/
import Pirewall.Capture.NativeParser
import Pirewall.Detection.Ja3
import Pirewall.Flow.Tracker

namespace Pirewall

open Lib Lib.Bytes

/-! ## Reads within bounds -/

section Reads

variable {raw : List UInt8} {i start n a b : Nat} {octet : UInt8}

/-- A position within the bytes has an octet. -/
theorem exists_octet (raw : List UInt8) (i : Nat) (h : i < raw.length) : ∃ octet, raw[i]? = some octet :=
  ⟨raw[i], List.getElem?_eq_getElem h⟩

/-- A field within the bytes has a number. -/
theorem exists_field (raw : List UInt8) (start width : Nat) (h : start + width ≤ raw.length) :
    ∃ n, field raw start width = some n :=
  ⟨_, field_of_le h⟩

theorem byteAt_eq (h : raw[i]? = some octet) : byteAt raw i = pure octet := by
  rw [byteAt, h]
  rfl

theorem unpackH_eq (h : field raw start 2 = some n) : unpackH raw start = pure n := by
  rw [unpackH, h]
  rfl

theorem ipv4At_eq (h : field raw start 4 = some n) : ipv4At raw start = pure (BitVec.ofNat 32 n) := by
  rw [ipv4At, h]
  rfl

theorem ipv6At_eq (h : field raw start 16 = some n) : ipv6At raw start = pure (BitVec.ofNat 128 n) := by
  rw [ipv6At, h]
  rfl

namespace Native

theorem index_eq (h : raw[i]? = some octet) : index raw i = pure octet := by
  rw [index, h]
  rfl

theorem be16_eq (h : field raw start 2 = some n) : be16 raw start = pure n := by
  rw [be16, h]
  rfl

theorem be32_eq (h : field raw start 4 = some n) : be32 raw start = pure (BitVec.ofNat 32 n) := by
  rw [be32, h]
  rfl

theorem be48_eq (h : start + 6 ≤ raw.length) :
    be48 raw start = pure ((foldOctets (slice raw start 6)).setWidth 48) := by
  rw [be48, if_pos h]
  rfl

/-- A difference that does not underflow. -/
theorem sub_eq (h : b ≤ a) : sub a b = pure (a - b) := by
  rw [sub, if_pos h]
  rfl

end Native

end Reads

/-! ## Ethernet addresses -/

/-- The fold computes the number the octets stand for, as long as they fit. -/
theorem toNat_foldOctets {bytes : List UInt8} (h : bytes.length ≤ 8) :
    (Native.foldOctets bytes).toNat = bigEndian bytes := by
  induction bytes using List.reverseRecOn with
  | nil => rfl
  | append_singleton bytes octet ih =>
    rw [List.length_append, List.length_singleton] at h
    have hbound := bigEndian_lt bytes
    have hsmall : 256 ^ bytes.length ≤ 256 ^ 7 := Nat.pow_le_pow_right (by decide) (by omega)
    have hoctet := octet.toNat_lt
    have hshift : (Native.foldOctets bytes <<< 8).toNat = bigEndian bytes * 2 ^ 8 := by
      rw [BitVec.toNat_shiftLeft, ih (by omega), Nat.shiftLeft_eq]
      omega
    have hfold : Native.foldOctets (bytes ++ [octet]) =
        Native.foldOctets bytes <<< 8 ||| octet.toBitVec.setWidth 64 := by
      rw [Native.foldOctets, List.foldl_append]
      rfl
    -- the shifted number has no bit below the eighth, so `or` is addition
    rw [hfold, BitVec.toNat_or, hshift, bigEndian_concat, BitVec.toNat_setWidth, UInt8.toNat_toBitVec,
      Nat.mod_eq_of_lt (by omega), Nat.mul_comm, ← Nat.two_pow_add_eq_or_of_lt hoctet]
    omega

/-- Six octets print alike, from the bytes and from the number. -/
theorem macFromInt_foldOctets {bytes : List UInt8} (h : bytes.length = 6) :
    macFromInt ((Native.foldOctets bytes).setWidth 48) = hexColon bytes := by
  match bytes, h with
  | [a, b, c, d, e, f], _ =>
    have hvalue : ((Native.foldOctets [a, b, c, d, e, f]).setWidth 48).toNat =
        ((((a.toNat * 256 + b.toNat) * 256 + c.toNat) * 256 + d.toNat) * 256 + e.toNat) * 256 + f.toNat := by
      rw [BitVec.toNat_setWidth, toNat_foldOctets (by simp), bigEndian]
      have ha := a.toNat_lt
      have hb := b.toNat_lt
      have hc := c.toNat_lt
      have hd := d.toNat_lt
      have he := e.toNat_lt
      have hf := f.toNat_lt
      simp only [List.foldl_cons, List.foldl_nil]
      omega
    have ha := a.toNat_lt
    have hb := b.toNat_lt
    have hc := c.toNat_lt
    have hd := d.toNat_lt
    have he := e.toNat_lt
    have hf := f.toNat_lt
    have hdigits : (List.range 6).map (fun i => hexOctet
        (((Native.foldOctets [a, b, c, d, e, f]).setWidth 48).toNat / 256 ^ (5 - i) % 256)) =
        [a, b, c, d, e, f].map fun octet => hexOctet octet.toNat := by
      rw [hvalue]
      simp only [List.range_succ, List.range_zero, List.nil_append, List.cons_append, List.map_cons, List.map_nil,
        List.cons.injEq, and_true]
      refine ⟨?_, ?_, ?_, ?_, ?_, ?_⟩ <;> refine congrArg hexOctet ?_ <;> omega
    rw [macFromInt, hdigits, hexColon]

/-- A hex digit of an octet is one that lowers to itself. -/
theorem isHexDigit_digitChar (n : Nat) :
    isHexDigit (Nat.digitChar (n % 16)) = true ∧ (Nat.digitChar (n % 16)).toLower = Nat.digitChar (n % 16) := by
  have hall : ∀ d : Fin 16, isHexDigit (Nat.digitChar d) = true ∧ (Nat.digitChar d).toLower = Nat.digitChar d := by
    decide
  exact hall ⟨n % 16, Nat.mod_lt n (by decide)⟩

/-- An address that `bytes.hex` printed is in `MacAddress` form. -/
theorem macAddress_hexColon {bytes : List UInt8} (h : bytes.length = 6) :
    macAddress (hexColon bytes) = pure (hexColon bytes) := by
  match bytes, h with
  | [a, b, c, d, e, f], _ =>
    have htext : hexColon [a, b, c, d, e, f] = String.ofList
        [Nat.digitChar (a.toNat / 16 % 16), Nat.digitChar (a.toNat % 16), ':',
          Nat.digitChar (b.toNat / 16 % 16), Nat.digitChar (b.toNat % 16), ':',
          Nat.digitChar (c.toNat / 16 % 16), Nat.digitChar (c.toNat % 16), ':',
          Nat.digitChar (d.toNat / 16 % 16), Nat.digitChar (d.toNat % 16), ':',
          Nat.digitChar (e.toNat / 16 % 16), Nat.digitChar (e.toNat % 16), ':',
          Nat.digitChar (f.toNat / 16 % 16), Nat.digitChar (f.toNat % 16)] := by
      rw [← String.toList_inj]
      simp [hexColon, hexOctet, String.intercalate_cons_of_ne_nil]
    rw [macAddress, htext, String.toList_ofList]
    simp [normaliseMac, isHexDigit_digitChar, orRaise]
    rfl

/-! ## The transport layer -/

/-- Errors of one kind. -/
def SameError : Native.ParseError → PacketParseError → Prop
  | .malformed, .malformed _ => True
  | .unsupported, .unsupported _ => True
  | _, _ => False

/-- A transport header that both have read; of TCP, the header fits into the packet. -/
structure L4Agrees (raw : List UInt8) (offset : Nat) (ipProtocol : UInt8) (available : Nat) (l4 : Native.L4)
    (info : L4Info) : Prop where
  protocol : info.protocol = l4.proto.protocol
  sourcePort : info.sourcePort = l4.sport
  destinationPort : info.destinationPort = l4.dport
  tcpFlags : info.tcpFlags = l4.tcpFlags.map TcpFlags.ofByte
  headerLength : info.headerLength = l4.headerLength
  tcp : l4.proto = .tcp → ipProtocol = ipProtoTcp ∧ tcpMinHeaderLen ≤ l4.headerLength ∧
    l4.headerLength ≤ available ∧ offset + l4.headerLength ≤ raw.length ∧
    ∃ octet, raw[offset + 12]? = some octet ∧ l4.headerLength = (octet >>> 4).toNat * 4

/-- The transport header, in either parser. -/
theorem lockstep_parseL4 (raw : List UInt8) (offset : Nat) (ipProtocol : UInt8) (available : Nat) :
    Lockstep SameError (L4Agrees raw offset ipProtocol available)
      (Native.parseL4 raw offset ipProtocol available) (parseL4 raw offset ipProtocol available) := by
  have htcpMin : tcpMinHeaderLen = 20 := rfl
  have hudp : udpHeaderLen = 8 := rfl
  unfold Native.parseL4 parseL4
  refine Lockstep.ite Iff.rfl ?_ ?_
  · intro htcp
    unfold parseTcp
    refine Lockstep.ite (by rw [Int.ofNat_lt]) (fun _ => Lockstep.throw trivial) ?_
    intro hshort
    obtain ⟨sport, hsport⟩ := exists_field raw offset 2 (by omega)
    obtain ⟨dport, hdport⟩ := exists_field raw (offset + 2) 2 (by omega)
    obtain ⟨octet, hoctet⟩ := exists_octet raw (offset + 12) (by omega)
    obtain ⟨flags, hflags⟩ := exists_octet raw (offset + 13) (by omega)
    rw [unpackH_eq hsport, unpackH_eq hdport, byteAt_eq hoctet, Native.index_eq hoctet]
    simp only [pure_bind]
    refine Lockstep.ite Iff.rfl (fun _ => Lockstep.throw trivial) ?_
    intro hoffset
    refine Lockstep.ite (by rw [Int.ofNat_lt]) (fun _ => Lockstep.throw trivial) ?_
    intro hfits
    rw [not_or, not_lt, not_lt] at hfits
    rw [byteAt_eq hflags, Native.index_eq hflags, Native.be16_eq hsport, Native.be16_eq hdport]
    simp only [pure_bind]
    refine Lockstep.pure ⟨rfl, rfl, rfl, rfl, rfl, ?_⟩
    intro _
    exact ⟨htcp, Nat.not_lt.mp hoffset, hfits.1, hfits.2, octet, hoctet, rfl⟩
  intro _
  refine Lockstep.ite Iff.rfl ?_ ?_
  · intro _
    unfold parseUdp
    refine Lockstep.ite (by rw [Int.ofNat_lt]) (fun _ => Lockstep.throw trivial) ?_
    intro hshort
    obtain ⟨sport, hsport⟩ := exists_field raw offset 2 (by omega)
    obtain ⟨dport, hdport⟩ := exists_field raw (offset + 2) 2 (by omega)
    rw [unpackH_eq hsport, unpackH_eq hdport, Native.be16_eq hsport, Native.be16_eq hdport]
    simp only [pure_bind]
    exact Lockstep.pure ⟨rfl, rfl, rfl, rfl, rfl, fun h => by cases h⟩
  intro _
  -- the native parser reads both kinds of ICMP in one arm
  by_cases hicmp : ipProtocol = ipProtoIcmp
  · rw [if_pos (.inl hicmp), if_pos hicmp, if_pos hicmp, parseIcmp]
    refine Lockstep.ite (by rw [Int.ofNat_lt]) (fun _ => Lockstep.throw trivial) ?_
    intro _
    exact Lockstep.pure ⟨rfl, rfl, rfl, rfl, rfl, fun h => by cases h⟩
  by_cases hicmpv6 : ipProtocol = ipProtoIcmpv6
  · rw [if_pos (.inr hicmpv6), if_neg hicmp, if_neg hicmp, if_pos hicmpv6, parseIcmp]
    refine Lockstep.ite (by rw [Int.ofNat_lt]) (fun _ => Lockstep.throw trivial) ?_
    intro _
    exact Lockstep.pure ⟨rfl, rfl, rfl, rfl, rfl, fun h => by cases h⟩
  · rw [if_neg (not_or.mpr ⟨hicmp, hicmpv6⟩), if_neg hicmp, if_neg hicmpv6]
    exact Lockstep.pure ⟨rfl, rfl, rfl, rfl, rfl, fun h => by cases h⟩

/-! ## The network layer -/

/-- The payload of a TCP packet whose headers fit. -/
theorem extractTcpPayload_eq {raw : List UInt8} {first octet : UInt8} {ihl totalLength headerLength : Nat}
    (hethertype : field raw 12 2 = some ethertypeIpv4) (hfirst : raw[ethHeaderLen]? = some first)
    (hversion : (first >>> 4).toNat = 4) (hihl : (first &&& 0x0F).toNat * 4 = ihl) (hihlMin : ipv4MinHeaderLen ≤ ihl)
    (hproto : raw[ethHeaderLen + 9]? = some ipProtoTcp) (htotal : field raw (ethHeaderLen + 2) 2 = some totalLength)
    (hoctet : raw[ethHeaderLen + ihl + 12]? = some octet) (hheader : headerLength = (octet >>> 4).toNat * 4)
    (hheaderMin : tcpMinHeaderLen ≤ headerLength) (hfits : ihl + headerLength ≤ totalLength)
    (hcaptured : ethHeaderLen + totalLength ≤ raw.length) :
    extractTcpPayload raw =
      some (slice raw (ethHeaderLen + ihl + headerLength) (totalLength - ihl - headerLength)) := by
  have hipv4 : ipv4MinHeaderLen = 20 := rfl
  have htcp : tcpMinHeaderLen = 20 := rfl
  have hend : min (ethHeaderLen + totalLength) raw.length = ethHeaderLen + totalLength := Nat.min_eq_left hcaptured
  have hlength : ethHeaderLen + totalLength - (ethHeaderLen + ihl + headerLength) =
    totalLength - ihl - headerLength := by omega
  unfold extractTcpPayload
  rw [if_neg (by omega)]
  simp only [hethertype, hfirst, hproto, htotal, Option.bind_eq_bind, Option.bind_some, hversion, hihl, ne_eq,
    not_true_eq_false, if_false, hoctet, ← hheader, hend, hlength]
  rw [if_neg (by omega), if_neg (by omega), if_neg (by omega), if_neg (by omega)]

/-- Both records of one frame; and of a TCP packet over IPv4, the same payload. -/
structure PacketAgrees (raw : List UInt8) (capturedAt : DateTime) (packet : Native.Parsed)
    (metadata : PacketMetadata) : Prop where
  timestamp : metadata.timestamp = capturedAt
  frame : ∃ frame : ParsedFrame, packet.toPacket = frame.packet ∧ metadata = frame.metadata
  payload : packet.ipv4 = true → packet.proto = .tcp →
    Native.tcpPayload raw packet = some (extractTcpPayload raw)

/-- `_Macs` of a frame. -/
def macsOf (raw : List UInt8) : Macs := ⟨hexColon (slice raw 6 6), hexColon (slice raw 0 6)⟩

theorem length_slice_six (raw : List UInt8) (start : Nat) (h : start + 6 ≤ raw.length) :
    (slice raw start 6).length = 6 := by
  rw [length_slice]
  omega

/-- The frame that both parsers have read, from its network and its transport header. -/
def frameOf (raw : List UInt8) (capturedAt : DateTime) (network : NetworkLayer) (l4 : Native.L4)
    {totalLength payloadLength : Nat} (hle : payloadLength ≤ totalLength) : ParsedFrame where
  timestamp := capturedAt
  sourceMac := (Native.foldOctets (slice raw 6 6)).setWidth 48
  destinationMac := (Native.foldOctets (slice raw 0 6)).setWidth 48
  network := network
  proto := l4.proto
  sourcePort := l4.sport
  destinationPort := l4.dport
  tcpFlags := l4.tcpFlags
  totalLength := totalLength
  payloadLength := payloadLength
  payload_le_total := hle

/-- Both records of a frame that was read are made of it. -/
theorem metadata_frameOf {raw : List UInt8} (hraw : ethHeaderLen ≤ raw.length) (capturedAt : DateTime)
    (network : NetworkLayer) {offset : Nat} {ipProtocol : UInt8} {available : Nat} {l4 : Native.L4} {info : L4Info}
    (hagrees : L4Agrees raw offset ipProtocol available l4 info) {totalLength payloadLength : Nat}
    (hle : payloadLength ≤ totalLength) :
    (frameOf raw capturedAt network l4 hle).metadata =
      { timestamp := capturedAt
        network := network
        protocol := info.protocol
        sourcePort := info.sourcePort
        destinationPort := info.destinationPort
        tcpFlags := info.tcpFlags
        totalLength := totalLength
        payloadLength := payloadLength
        payload_le_total := hle
        sourceMac := some (macsOf raw).source
        destinationMac := some (macsOf raw).destination } := by
  have heth : ethHeaderLen = 14 := rfl
  have hsource := macFromInt_foldOctets (length_slice_six raw 6 (by omega))
  have hdestination := macFromInt_foldOctets (length_slice_six raw 0 (by omega))
  rw [hagrees.protocol, hagrees.sourcePort, hagrees.destinationPort, hagrees.tcpFlags, macsOf, ← hsource,
    ← hdestination]
  rfl

/-- An IPv4 packet, in either parser. -/
theorem lockstep_parseIpv4 {raw : List UInt8} (hethertype : field raw 12 2 = some ethertypeIpv4)
    (capturedAt : DateTime) :
    Lockstep SameError (PacketAgrees raw capturedAt) (Native.parseIpv4 raw ethHeaderLen capturedAt.toMicroseconds)
      (parseIpv4 raw ethHeaderLen capturedAt (macsOf raw)) := by
  have heth : ethHeaderLen = 14 := rfl
  have hipv4 : ipv4MinHeaderLen = 20 := rfl
  unfold Native.parseIpv4 parseIpv4
  refine Lockstep.ite Iff.rfl (fun _ => Lockstep.throw trivial) ?_
  intro hshort
  -- past the first check the fixed part of the header is there, so these reads are in bounds
  obtain ⟨first, hfirst⟩ := exists_octet raw ethHeaderLen (by omega)
  obtain ⟨totalLength, htotal⟩ := exists_field raw (ethHeaderLen + 2) 2 (by omega)
  obtain ⟨ipProtocol, hproto⟩ := exists_octet raw (ethHeaderLen + 9) (by omega)
  obtain ⟨source, hsource⟩ := exists_field raw (ethHeaderLen + 12) 4 (by omega)
  obtain ⟨destination, hdestination⟩ :=
    exists_field raw (ethHeaderLen + 16) 4 (by omega)
  rw [byteAt_eq hfirst, Native.index_eq hfirst]
  simp only [pure_bind]
  refine Lockstep.ite Iff.rfl (fun _ => Lockstep.throw trivial) ?_
  intro hversion
  refine Lockstep.reject trivial trivial ?_
  intro hihlMin hoptions
  rw [unpackH_eq htotal, Native.be16_eq htotal]
  simp only [pure_bind]
  refine Lockstep.reject trivial trivial ?_
  -- the total length covers the header and was captured whole
  intro hle hcaptured
  rw [byteAt_eq hproto, Native.index_eq hproto, ipv4At_eq hsource, ipv4At_eq hdestination, Native.be32_eq hsource,
    Native.be32_eq hdestination, Native.sub_eq (Nat.not_lt.mp hle)]
  simp only [pure_bind]
  -- the transport header, in what the packet declares for it
  have hl4 := lockstep_parseL4 raw (ethHeaderLen + (first &&& 0x0F).toNat * 4) ipProtocol
    (totalLength - (first &&& 0x0F).toNat * 4)
  rw [Nat.cast_sub (Nat.not_lt.mp hle)] at hl4
  refine Lockstep.bind hl4 ?_
  intro l4 info hagrees
  have hheader := hagrees.headerLength
  -- a transport header longer than that is an error on both sides
  by_cases hpayload : totalLength - (first &&& 0x0F).toNat * 4 < l4.headerLength
  · rw [if_pos hpayload, dif_pos (by omega)]
    exact Lockstep.throw trivial
  rw [if_neg hpayload, dif_neg (by omega), Native.be48_eq (by omega), Native.be48_eq (by omega),
    Native.sub_eq (Nat.not_lt.mp hpayload), macsOf, macAddress_hexColon (length_slice_six raw _ (by omega)),
    macAddress_hexColon (length_slice_six raw _ (by omega))]
  simp only [pure_bind]
  -- Python subtracts integers and cuts them at zero, Rust subtracts lengths that were compared before
  have hlength : (totalLength - ((first &&& 0x0F).toNat * 4 : Nat) - info.headerLength : Int).toNat =
      totalLength - (first &&& 0x0F).toNat * 4 - l4.headerLength := by omega
  simp only [hlength]
  refine Lockstep.pure ⟨rfl, ⟨frameOf raw capturedAt (.ipv4 _ _) l4 ?_, rfl, ?_⟩, ?_⟩
  · omega
  · exact (metadata_frameOf (by omega) capturedAt _ hagrees _).symm
  · intro _ htcp
    -- the payload of a TCP packet is the same slice of the frame
    obtain ⟨rfl, hmin, hfits, _, octet, hoctet, hoctetLength⟩ := hagrees.tcp htcp
    have hextract := extractTcpPayload_eq hethertype hfirst (not_not.mp hversion) rfl (Nat.not_lt.mp hihlMin)
      hproto htotal hoctet hoctetLength hmin (by omega) (Nat.not_lt.mp hcaptured)
    have hstop : min (ethHeaderLen + totalLength) raw.length = ethHeaderLen + totalLength := by omega
    have hrange : ethHeaderLen + totalLength - (ethHeaderLen + (first &&& 0x0F).toNat * 4 + l4.headerLength) =
      totalLength - (first &&& 0x0F).toNat * 4 - l4.headerLength := by omega
    rw [hextract, Native.tcpPayload]
    dsimp only at htcp ⊢
    rw [htcp, if_pos rfl]
    dsimp only
    rw [hstop, if_pos (by omega), Native.range, if_pos ⟨by omega, Nat.not_lt.mp hcaptured⟩, hrange]
    rfl

/-- An IPv6 packet, in either parser. -/
theorem lockstep_parseIpv6 (raw : List UInt8) (capturedAt : DateTime) :
    Lockstep SameError (PacketAgrees raw capturedAt) (Native.parseIpv6 raw ethHeaderLen capturedAt.toMicroseconds)
      (parseIpv6 raw ethHeaderLen capturedAt (macsOf raw)) := by
  have heth : ethHeaderLen = 14 := rfl
  have hipv6 : ipv6HeaderLen = 40 := rfl
  unfold Native.parseIpv6 parseIpv6
  refine Lockstep.ite Iff.rfl (fun _ => Lockstep.throw trivial) ?_
  intro hshort
  obtain ⟨first, hfirst⟩ := exists_octet raw ethHeaderLen (by omega)
  obtain ⟨declared, hdeclared⟩ := exists_field raw (ethHeaderLen + 4) 2 (by omega)
  obtain ⟨nextHeader, hnext⟩ := exists_octet raw (ethHeaderLen + 6) (by omega)
  obtain ⟨source, hsource⟩ := exists_field raw (ethHeaderLen + 8) 16 (by omega)
  obtain ⟨destination, hdestination⟩ :=
    exists_field raw (ethHeaderLen + 24) 16 (by omega)
  have hcaptured : ethHeaderLen + ipv6HeaderLen ≤ raw.length := Nat.not_lt.mp hshort
  rw [byteAt_eq hfirst, Native.index_eq hfirst]
  simp only [pure_bind]
  refine Lockstep.ite Iff.rfl (fun _ => Lockstep.throw trivial) ?_
  intro _
  rw [unpackH_eq hdeclared, Native.be16_eq hdeclared, byteAt_eq hnext, Native.index_eq hnext, ipv6At_eq hsource,
    ipv6At_eq hdestination, Native.sub_eq hcaptured]
  simp only [pure_bind]
  have hl4 := lockstep_parseL4 raw (ethHeaderLen + ipv6HeaderLen) nextHeader
    (min declared (raw.length - (ethHeaderLen + ipv6HeaderLen)))
  rw [Nat.cast_min, Nat.cast_sub hcaptured] at hl4
  refine Lockstep.bind hl4 ?_
  intro l4 info hagrees
  have hheader := hagrees.headerLength
  by_cases hpayload : min declared (raw.length - (ethHeaderLen + ipv6HeaderLen)) < l4.headerLength
  · rw [if_pos hpayload, dif_pos (by omega)]
    exact Lockstep.throw trivial
  rw [if_neg hpayload, dif_neg (by omega), Native.be48_eq (by omega), Native.be48_eq (by omega),
    Native.sub_eq (Nat.not_lt.mp hpayload), macsOf, macAddress_hexColon (length_slice_six raw _ (by omega)),
    macAddress_hexColon (length_slice_six raw _ (by omega))]
  simp only [pure_bind]
  have hlength : (min (declared : Int) (raw.length - (ethHeaderLen + ipv6HeaderLen : Nat)) - info.headerLength).toNat =
      min declared (raw.length - (ethHeaderLen + ipv6HeaderLen)) - l4.headerLength := by omega
  simp only [hlength]
  refine Lockstep.pure ⟨rfl,
    ⟨frameOf raw capturedAt (.ipv6 (BitVec.ofNat 128 source) (BitVec.ofNat 128 destination)) l4 ?_, rfl, ?_⟩, ?_⟩
  · omega
  · exact (metadata_frameOf (by omega) capturedAt _ hagrees _).symm
  · intro hipv4
    cases hipv4

/-- The two parsers walk every byte string in lockstep. -/
theorem lockstep_parse (raw : List UInt8) (capturedAt : DateTime) :
    Lockstep SameError (PacketAgrees raw capturedAt) (Native.parse raw capturedAt.toMicroseconds)
      (parsePacket raw capturedAt) := by
  have heth : ethHeaderLen = 14 := rfl
  unfold Native.parse parsePacket
  refine Lockstep.ite Iff.rfl (fun _ => Lockstep.throw trivial) ?_
  intro hshort
  obtain ⟨ethertype, hethertype⟩ := exists_field raw 12 2 (by omega)
  rw [unpackH_eq hethertype, Native.be16_eq hethertype]
  simp only [pure_bind]
  refine Lockstep.ite Iff.rfl ?_ ?_
  · rintro rfl
    exact lockstep_parseIpv4 hethertype capturedAt
  intro _
  refine Lockstep.ite Iff.rfl ?_ (fun _ => Lockstep.throw trivial)
  intro _
  exact lockstep_parseIpv6 raw capturedAt

/-! ## The filter of the TLS detectors -/

/-- The Python parser, as the flow trackers take it. -/
def frameParser : FrameParser where
  parsePacket frame := (parsePacket frame.raw frame.capturedAt).toOption
  extractTcpPayload := extractTcpPayload

/-- A native candidate is what `_tls_candidate` makes of the same payload. -/
def TcpPayload.candidate (kept : TcpPayload) : Native.TlsCandidate :=
  ⟨kept.sourceIp, kept.destinationIp, kept.sourcePort, kept.destinationPort, kept.timestamp.toMicroseconds,
    kept.payload⟩

/-- The native filter, by the two octets it looks at. -/
theorem interesting_iff (payload : List UInt8) :
    Native.interesting payload = true ↔
      payload[0]? = some 24 ∨ payload[0]? = some 22 ∧ payload[5]? = some 1 := by
  unfold Native.interesting
  split
  · simp
  · simp
  · rename_i hheartbeat hhello
    refine iff_of_false Bool.false_ne_true ?_
    rintro (hfirst | ⟨hfirst, hkind⟩)
    · obtain ⟨rest, rfl⟩ : ∃ rest, payload = 24 :: rest := by
        cases payload with
        | nil => cases hfirst
        | cons first rest =>
          obtain rfl := Option.some.inj hfirst
          exact ⟨rest, rfl⟩
      exact hheartbeat rest rfl
    · match payload with
      | [] => cases hfirst
      | [_] | [_, _] | [_, _, _] | [_, _, _, _] | [_, _, _, _, _] => cases hkind
      | first :: a :: b :: c :: d :: kind :: rest =>
        obtain rfl := Option.some.inj hfirst
        obtain rfl := Option.some.inj hkind
        exact hhello a b c d rest rfl

/-- What `check_heartbleed` answers to is a heartbeat record. -/
theorem interesting_of_checkHeartbleed {payload : List UInt8} (h : checkHeartbleed payload ≠ none) :
    Native.interesting payload = true := by
  obtain ⟨found, hfound⟩ := Option.ne_none_iff_exists'.mp h
  exact (interesting_iff payload).mpr (.inl (checkHeartbleed_claims hfound).1)

/-- What `compute_ja3` answers to is a handshake record with a ClientHello. -/
theorem interesting_of_computeJa3 {md5 : String → String} {payload : List UInt8}
    (h : computeJa3 md5 payload ≠ none) : Native.interesting payload = true := by
  unfold computeJa3 at h
  split_ifs at h with hrecord
  · exact absurd rfl h
  obtain ⟨fingerprint, hfound⟩ := Option.ne_none_iff_exists'.mp h
  obtain ⟨recordLength, -, hfragment⟩ := Option.bind_eq_some_iff.mp hfound
  dsimp only at hfragment
  split_ifs at hfragment with hhello
  simp only [not_or, not_lt, ne_eq, not_not] at hrecord hhello
  -- the handshake type is the first octet after the record header
  have hkind := hhello.2
  rw [slice, List.getElem?_take, List.getElem?_drop] at hkind
  split_ifs at hkind
  exact (interesting_iff payload).mpr (.inr ⟨hrecord.2, hkind⟩)

/-! ## Agreement -/

/-- The two records say the same of a packet; the native one keeps no IPv6 address. -/
structure SamePacket (packet : Native.Packet) (metadata : PacketMetadata) : Prop where
  timestamp : packet.tsUs = metadata.timestamp.toMicroseconds
  sourceMac : metadata.sourceMac = some (macFromInt packet.srcMac)
  destinationMac : metadata.destinationMac = some (macFromInt packet.dstMac)
  network : (packet.ipv4 = true ∧ metadata.network = .ipv4 packet.src packet.dst) ∨
    (packet.ipv4 = false ∧ ∃ source destination, metadata.network = .ipv6 source destination)
  protocol : metadata.protocol = packet.proto.protocol
  sourcePort : metadata.sourcePort = packet.sport
  destinationPort : metadata.destinationPort = packet.dport
  tcpFlags : metadata.tcpFlags = packet.tcpFlags.map TcpFlags.ofByte
  totalLength : metadata.totalLength = packet.totalLength
  payloadLength : metadata.payloadLength = packet.payloadLength

/-- The records of one frame say the same. -/
theorem samePacket_of_frame (frame : ParsedFrame) : SamePacket frame.packet frame.metadata := by
  refine ⟨rfl, rfl, rfl, ?_, rfl, rfl, rfl, rfl, rfl, rfl⟩
  simp only [ParsedFrame.packet, ParsedFrame.metadata]
  cases frame.network with
  | ipv4 source destination => exact .inl ⟨rfl, rfl⟩
  | ipv6 source destination => exact .inr ⟨rfl, source, destination, rfl⟩

/-- The parsers agree on a byte string, captured at a moment. -/
structure ParsersAgree (md5 : String → String) (raw : List UInt8) (capturedAt : DateTime) : Prop where
  /-- The native parser does not panic. -/
  returns : ∃ result, (Native.parse raw capturedAt.toMicroseconds).run = some result
  accepted : (∃ packet, (Native.parse raw capturedAt.toMicroseconds).run = some (.ok packet)) ↔
    ∃ metadata, parsePacket raw capturedAt = .ok metadata
  refused : ∀ error error', (Native.parse raw capturedAt.toMicroseconds).run = some (.error error) →
    parsePacket raw capturedAt = .error error' → SameError error error'
  same : ∀ packet metadata, (Native.parse raw capturedAt.toMicroseconds).run = some (.ok packet) →
    parsePacket raw capturedAt = .ok metadata → SamePacket packet.toPacket metadata
  payload : ∀ packet, (Native.parse raw capturedAt.toMicroseconds).run = some (.ok packet) →
    packet.ipv4 = true → packet.proto = .tcp → Native.tcpPayload raw packet = some (extractTcpPayload raw)
  offered : ∀ packet metadata, (Native.parse raw capturedAt.toMicroseconds).run = some (.ok packet) →
    parsePacket raw capturedAt = .ok metadata → packet.ipv4 = true → packet.proto = .tcp →
    Native.offerTls raw packet = some
      ((tlsCandidate frameParser ⟨raw, capturedAt⟩ metadata packet.src packet.dst).map TcpPayload.candidate)
  nothingDropped : ∀ payload, checkHeartbleed payload ≠ none ∨ computeJa3 md5 payload ≠ none →
    Native.interesting payload = true

/-- **The two packet parsers agree on every byte string.** -/
theorem parsers_agree (md5 : String → String) (raw : List UInt8) (capturedAt : DateTime) :
    ParsersAgree md5 raw capturedAt := by
  have hlockstep := lockstep_parse raw capturedAt
  have hsame : ∀ packet metadata, (Native.parse raw capturedAt.toMicroseconds).run = some (.ok packet) →
      parsePacket raw capturedAt = .ok metadata → SamePacket packet.toPacket metadata := by
    intro packet metadata hpacket hmetadata
    obtain ⟨frame, hframe, rfl⟩ := (hlockstep.related hpacket hmetadata).frame
    rw [hframe]
    exact samePacket_of_frame frame
  have hpayload : ∀ packet, (Native.parse raw capturedAt.toMicroseconds).run = some (.ok packet) →
      packet.ipv4 = true → packet.proto = .tcp → Native.tcpPayload raw packet = some (extractTcpPayload raw) := by
    intro packet hpacket
    obtain ⟨metadata, hmetadata⟩ := hlockstep.ok_iff.mp ⟨packet, hpacket⟩
    exact (hlockstep.related hpacket hmetadata).payload
  refine ⟨hlockstep.returns, hlockstep.ok_iff, fun _ _ => hlockstep.errors_related, hsame, hpayload, ?_, ?_⟩
  · intro packet metadata hpacket hmetadata hipv4 htcp
    have hagrees := hlockstep.related hpacket hmetadata
    have hpacketSame := hsame packet metadata hpacket hmetadata
    have htimestamp : packet.tsUs = capturedAt.toMicroseconds := by
      rw [hpacketSame.timestamp, hagrees.timestamp]
    rw [Native.offerTls, hpayload packet hpacket hipv4 htcp, tlsCandidate]
    simp only [frameParser, Option.bind_eq_bind, Option.bind_some]
    cases extractTcpPayload raw with
    | none => rfl
    | some payload =>
      dsimp only
      rw [if_congr (interesting_iff payload) rfl rfl, hpacketSame.sourcePort, hpacketSame.destinationPort, htimestamp]
      split_ifs <;> rfl
  · rintro payload (hheartbleed | hja3)
    · exact interesting_of_checkHeartbleed hheartbleed
    · exact interesting_of_computeJa3 hja3

end Pirewall
