/-
# Pirewall.Capture.Parser -- the packet parser

`capture/parser.py`: a frame to the `PacketMetadata` of its headers, or to an error, and `extract_tcp_payload`, which
walks the same headers once more for the detectors that need the payload. The guard of `parse_packet` turns every
other exception into its own error: a read that fails is `unexpected`.
-/
import Pirewall.Flow.Packet
import Pirewall.Lib.Bytes

namespace Pirewall

open Lib.Bytes

/-! ## Errors and reads -/

/-- The other exceptions that a step of the parser may raise. -/
inductive UnexpectedError
  | index
  | unpack
  | address
  | validation
  deriving DecidableEq

/-- `PacketParseError`, with its subclass `UnsupportedProtocolError`; `unexpected` is what the guard makes of another
exception. -/
inductive PacketParseError
  | malformed (message : String)
  | unsupported (message : String)
  | unexpected (cause : UnexpectedError)
  deriving DecidableEq

/-- A step that raises when it has no value. -/
def orRaise {α : Type} (cause : UnexpectedError) : Option α → Except PacketParseError α
  | some value => .ok value
  | none => .error (.unexpected cause)

/-- `raw[i]`. -/
def byteAt (raw : List UInt8) (i : Nat) : Except PacketParseError UInt8 := orRaise .index raw[i]?

/-- `struct.unpack("!H", raw[offset : offset + 2])[0]`. -/
def unpackH (raw : List UInt8) (offset : Nat) : Except PacketParseError Nat := orRaise .unpack (field raw offset 2)

/-- `IPv4Address(bytes(raw[offset : offset + 4]))`. -/
def ipv4At (raw : List UInt8) (offset : Nat) : Except PacketParseError IPv4Address :=
  return BitVec.ofNat 32 (← orRaise .address (field raw offset 4))

/-- `IPv6Address(bytes(raw[offset : offset + 16]))`. -/
def ipv6At (raw : List UInt8) (offset : Nat) : Except PacketParseError (BitVec 128) :=
  return BitVec.ofNat 128 (← orRaise .address (field raw offset 16))

/-- `bytes.hex(":")`. -/
def hexColon (bytes : List UInt8) : String := ":".intercalate (bytes.map fun octet => hexOctet octet.toNat)

/-- Validation of a `MacAddress`. -/
def macAddress (text : String) : Except PacketParseError String :=
  return String.ofList (← orRaise .validation (normaliseMac text.toList))

/-- A port number. -/
def portOf (n : Nat) : Fin 65536 := Fin.ofNat 65536 n

def ethHeaderLen : Nat := 14
def ethertypeIpv4 : Nat := 0x0800
def ethertypeIpv6 : Nat := 0x86DD
def ipv4MinHeaderLen : Nat := 20
def ipv6HeaderLen : Nat := 40
def ipProtoIcmp : UInt8 := 1
def ipProtoTcp : UInt8 := 6
def ipProtoUdp : UInt8 := 17
def ipProtoIcmpv6 : UInt8 := 58
def tcpMinHeaderLen : Nat := 20
def udpHeaderLen : Nat := 8
def icmpMinHeaderLen : Nat := 4

/-- `_Macs`. -/
structure Macs where
  source : String
  destination : String

/-! ## The transport layer -/

/-- `_L4Info`. -/
structure L4Info where
  protocol : Protocol
  sourcePort : Option (Fin 65536)
  destinationPort : Option (Fin 65536)
  tcpFlags : Option TcpFlags
  headerLength : Nat

/-- `_parse_tcp`. -/
def parseTcp (raw : List UInt8) (offset : Nat) (available : Int) : Except PacketParseError L4Info :=
  if available < tcpMinHeaderLen ∨ raw.length < offset + tcpMinHeaderLen then
    throw (.malformed "truncated TCP header")
  else do
    let sourcePort ← unpackH raw offset
    let destinationPort ← unpackH raw (offset + 2)
    let offsetByte ← byteAt raw (offset + 12)
    let dataOffset := (offsetByte >>> 4).toNat * 4
    if dataOffset < tcpMinHeaderLen then
      throw (.malformed ("invalid TCP data offset: " ++ toString dataOffset ++ " bytes"))
    else if available < dataOffset ∨ raw.length < offset + dataOffset then
      throw (.malformed "truncated TCP header options")
    else do
      let flagsByte ← byteAt raw (offset + 13)
      return ⟨.tcp, some (portOf sourcePort), some (portOf destinationPort),
        some (TcpFlags.ofByte flagsByte.toBitVec), dataOffset⟩

/-- `_parse_udp`. -/
def parseUdp (raw : List UInt8) (offset : Nat) (available : Int) : Except PacketParseError L4Info :=
  if available < udpHeaderLen ∨ raw.length < offset + udpHeaderLen then
    throw (.malformed "truncated UDP header")
  else do
    let sourcePort ← unpackH raw offset
    let destinationPort ← unpackH raw (offset + 2)
    return ⟨.udp, some (portOf sourcePort), some (portOf destinationPort), none, udpHeaderLen⟩

/-- The text of a `Protocol`. -/
def Protocol.value : Protocol → String
  | .tcp => "tcp"
  | .udp => "udp"
  | .icmp => "icmp"
  | .icmpv6 => "icmpv6"
  | .other => "other"
  | .any => "any"

/-- `_parse_icmp`. -/
def parseIcmp (raw : List UInt8) (offset : Nat) (available : Int) (protocol : Protocol) :
    Except PacketParseError L4Info :=
  if available < icmpMinHeaderLen ∨ raw.length < offset + icmpMinHeaderLen then
    throw (.malformed ("truncated " ++ protocol.value ++ " header"))
  else
    return ⟨protocol, none, none, none, icmpMinHeaderLen⟩

/-- `_parse_l4`. -/
def parseL4 (raw : List UInt8) (offset : Nat) (ipProtocol : UInt8) (available : Int) :
    Except PacketParseError L4Info :=
  if ipProtocol = ipProtoTcp then parseTcp raw offset available
  else if ipProtocol = ipProtoUdp then parseUdp raw offset available
  else if ipProtocol = ipProtoIcmp then parseIcmp raw offset available .icmp
  else if ipProtocol = ipProtoIcmpv6 then parseIcmp raw offset available .icmpv6
  else return ⟨.other, none, none, none, 0⟩

/-! ## The network layer -/

/-- `_parse_ipv4`. -/
def parseIpv4 (raw : List UInt8) (offset : Nat) (capturedAt : DateTime) (macs : Macs) :
    Except PacketParseError PacketMetadata :=
  if raw.length < offset + ipv4MinHeaderLen then throw (.malformed "truncated IPv4 header")
  else do
    let first ← byteAt raw offset
    let version := (first >>> 4).toNat
    let ihl := (first &&& 0x0F).toNat * 4
    if version ≠ 4 then
      throw (.malformed ("unexpected IP version " ++ toString version ++ " under IPv4 ethertype"))
    else if ihl < ipv4MinHeaderLen then throw (.malformed ("invalid IPv4 IHL: " ++ toString ihl ++ " bytes"))
    else if raw.length < offset + ihl then throw (.malformed "truncated IPv4 header options")
    else do
      let totalLength ← unpackH raw (offset + 2)
      if totalLength < ihl then throw (.malformed "IPv4 total_length shorter than header length")
      else if raw.length < offset + totalLength then
        throw (.malformed "IPv4 total_length exceeds captured data")
      else do
        let ipProtocol ← byteAt raw (offset + 9)
        let sourceIp ← ipv4At raw (offset + 12)
        let destinationIp ← ipv4At raw (offset + 16)
        let l4 ← parseL4 raw (offset + ihl) ipProtocol (totalLength - ihl)
        if hlength : (totalLength - ihl - l4.headerLength : Int) < 0 then
          throw (.malformed "IPv4 payload shorter than transport header")
        else do
          let sourceMac ← macAddress macs.source
          let destinationMac ← macAddress macs.destination
          return {
            timestamp := capturedAt
            network := .ipv4 sourceIp destinationIp
            protocol := l4.protocol
            sourcePort := l4.sourcePort
            destinationPort := l4.destinationPort
            tcpFlags := l4.tcpFlags
            totalLength := totalLength
            payloadLength := (totalLength - ihl - l4.headerLength : Int).toNat
            payload_le_total := by omega
            sourceMac := some sourceMac
            destinationMac := some destinationMac }

/-- `_parse_ipv6`: a declared length beyond the capture is cut to it, and reported as declared. -/
def parseIpv6 (raw : List UInt8) (offset : Nat) (capturedAt : DateTime) (macs : Macs) :
    Except PacketParseError PacketMetadata :=
  if raw.length < offset + ipv6HeaderLen then throw (.malformed "truncated IPv6 header")
  else do
    let first ← byteAt raw offset
    let version := (first >>> 4).toNat
    if version ≠ 6 then
      throw (.malformed ("unexpected IP version " ++ toString version ++ " under IPv6 ethertype"))
    else do
      let declaredPayloadLength ← unpackH raw (offset + 4)
      let nextHeader ← byteAt raw (offset + 6)
      let sourceIp ← ipv6At raw (offset + 8)
      let destinationIp ← ipv6At raw (offset + 24)
      let l4Offset := offset + ipv6HeaderLen
      let l4 ← parseL4 raw l4Offset nextHeader (min declaredPayloadLength (raw.length - l4Offset))
      if hlength : min (declaredPayloadLength : Int) (raw.length - l4Offset) - l4.headerLength < 0 then
        throw (.malformed "IPv6 payload shorter than transport header")
      else do
        let sourceMac ← macAddress macs.source
        let destinationMac ← macAddress macs.destination
        return {
          timestamp := capturedAt
          network := .ipv6 sourceIp destinationIp
          protocol := l4.protocol
          sourcePort := l4.sourcePort
          destinationPort := l4.destinationPort
          tcpFlags := l4.tcpFlags
          totalLength := ipv6HeaderLen + declaredPayloadLength
          payloadLength := (min (declaredPayloadLength : Int) (raw.length - l4Offset) - l4.headerLength).toNat
          payload_le_total := by omega
          sourceMac := some sourceMac
          destinationMac := some destinationMac }

/-- `parse_packet`. -/
def parsePacket (raw : List UInt8) (capturedAt : DateTime) : Except PacketParseError PacketMetadata :=
  if raw.length < ethHeaderLen then
    throw (.malformed ("truncated Ethernet header: " ++ toString raw.length ++ " bytes"))
  else do
    let ethertype ← unpackH raw 12
    let macs : Macs := ⟨hexColon (slice raw 6 6), hexColon (slice raw 0 6)⟩
    if ethertype = ethertypeIpv4 then parseIpv4 raw ethHeaderLen capturedAt macs
    else if ethertype = ethertypeIpv6 then parseIpv6 raw ethHeaderLen capturedAt macs
    else throw (.unsupported ("unsupported ethertype 0x" ++ hexOctet (ethertype / 256) ++ hexOctet ethertype))

/-! ## The payload -/

/-- `extract_tcp_payload`, whose guard makes a read that fails `none`. -/
def extractTcpPayload (raw : List UInt8) : Option (List UInt8) :=
  if raw.length < ethHeaderLen + ipv4MinHeaderLen then none
  else do
    let ethertype ← field raw 12 2
    let offset := ethHeaderLen
    if ethertype ≠ ethertypeIpv4 then none
    else do
      let first ← raw[offset]?
      let ihl := (first &&& 0x0F).toNat * 4
      if (first >>> 4).toNat ≠ 4 then none
      else if ihl < ipv4MinHeaderLen ∨ raw.length < offset + ihl then none
      else do
        let ipProtocol ← raw[offset + 9]?
        if ipProtocol ≠ ipProtoTcp then none
        else do
          let totalLength ← field raw (offset + 2) 2
          let l4Offset := offset + ihl
          if raw.length < l4Offset + tcpMinHeaderLen then none
          else do
            let offsetByte ← raw[l4Offset + 12]?
            let dataOffset := (offsetByte >>> 4).toNat * 4
            if dataOffset < tcpMinHeaderLen ∨ raw.length < l4Offset + dataOffset then none
            else
              let payloadOffset := l4Offset + dataOffset
              -- bounded by the declared length, then by what was captured
              let payloadEnd := min (offset + totalLength) raw.length
              if payloadEnd < payloadOffset then none
              else some (slice raw payloadOffset (payloadEnd - payloadOffset))

end Pirewall
