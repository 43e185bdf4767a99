/-
# Pirewall.Capture.NativeParser -- the native packet parser

`native/src/parse.rs`, a port of the Python parser, and `Engine::offer_tls` of `native/src/flow.rs`. An index, a slice
or a subtraction out of range panics: it is `none`, where a rejected frame is an error.
-/
import Pirewall.Capture.Parser
import Pirewall.Flow.Native
import Pirewall.Lib.Lockstep

namespace Pirewall.Native

open Lib Lib.Bytes

/-! ## Reads -/

/-- `ParseError`. -/
inductive ParseError
  | unsupported
  | malformed
  deriving DecidableEq

/-- `raw[i]`. -/
def index (raw : List UInt8) (i : Nat) : Panicking ParseError UInt8 := .ofOption raw[i]?

/-- `be16`. -/
def be16 (raw : List UInt8) (start : Nat) : Panicking ParseError Nat := .ofOption (field raw start 2)

/-- `be32`. -/
def be32 (raw : List UInt8) (start : Nat) : Panicking ParseError (BitVec 32) :=
  .ofOption ((field raw start 4).map (BitVec.ofNat 32))

/-- The fold of `be48`, in a `u64`. -/
def foldOctets (bytes : List UInt8) : BitVec 64 :=
  bytes.foldl (fun acc octet => acc <<< 8 ||| octet.toBitVec.setWidth 64) 0#64

/-- `be48`. -/
def be48 (raw : List UInt8) (start : Nat) : Panicking ParseError (BitVec 48) :=
  .ofOption (if start + 6 ≤ raw.length then some ((foldOctets (slice raw start 6)).setWidth 48) else none)

/-- A subtraction of unsigned integers. -/
def sub (a b : Nat) : Panicking ParseError Nat := .ofOption (if b ≤ a then some (a - b) else none)

/-! ## Headers -/

/-- `L4`. -/
structure L4 where
  proto : Proto
  sport : Option (Fin 65536)
  dport : Option (Fin 65536)
  tcpFlags : Option (BitVec 8)
  headerLength : Nat

/-- A `Packet`, with the start of its TCP payload in the frame. -/
structure Parsed extends Packet where
  tcpPayloadOffset : Option Nat

/-- `parse_l4`. -/
def parseL4 (raw : List UInt8) (offset : Nat) (ipProtocol : UInt8) (available : Nat) : Panicking ParseError L4 :=
  if ipProtocol = ipProtoTcp then
    if available < tcpMinHeaderLen ∨ raw.length < offset + tcpMinHeaderLen then throw .malformed
    else do
      let dataOffset := ((← index raw (offset + 12)) >>> 4).toNat * 4
      if dataOffset < tcpMinHeaderLen then throw .malformed
      else if available < dataOffset ∨ raw.length < offset + dataOffset then throw .malformed
      else do
        let sport ← be16 raw offset
        let dport ← be16 raw (offset + 2)
        let flags ← index raw (offset + 13)
        return ⟨.tcp, some (portOf sport), some (portOf dport), some flags.toBitVec, dataOffset⟩
  else if ipProtocol = ipProtoUdp then
    if available < udpHeaderLen ∨ raw.length < offset + udpHeaderLen then throw .malformed
    else do
      let sport ← be16 raw offset
      let dport ← be16 raw (offset + 2)
      return ⟨.udp, some (portOf sport), some (portOf dport), none, udpHeaderLen⟩
  else if ipProtocol = ipProtoIcmp ∨ ipProtocol = ipProtoIcmpv6 then
    if available < icmpMinHeaderLen ∨ raw.length < offset + icmpMinHeaderLen then throw .malformed
    else return ⟨if ipProtocol = ipProtoIcmp then .icmp else .icmpv6, none, none, none, icmpMinHeaderLen⟩
  else return ⟨.other, none, none, none, 0⟩

/-- `parse_ipv4`. -/
def parseIpv4 (raw : List UInt8) (offset : Nat) (tsUs : Int) : Panicking ParseError Parsed :=
  if raw.length < offset + ipv4MinHeaderLen then throw .malformed
  else do
    let first ← index raw offset
    if (first >>> 4).toNat ≠ 4 then throw .malformed
    else
      let ihl := (first &&& 0x0F).toNat * 4
      if ihl < ipv4MinHeaderLen ∨ raw.length < offset + ihl then throw .malformed
      else do
        let totalLength ← be16 raw (offset + 2)
        if totalLength < ihl ∨ raw.length < offset + totalLength then throw .malformed
        else do
          let ipProtocol ← index raw (offset + 9)
          let src ← be32 raw (offset + 12)
          let dst ← be32 raw (offset + 16)
          let l4Offset := offset + ihl
          let l4Available ← sub totalLength ihl
          let l4 ← parseL4 raw l4Offset ipProtocol l4Available
          if l4Available < l4.headerLength then throw .malformed
          else do
            let srcMac ← be48 raw 6
            let dstMac ← be48 raw 0
            let payloadLength ← sub l4Available l4.headerLength
            return {
              tsUs := tsUs
              srcMac := srcMac
              dstMac := dstMac
              ipv4 := true
              src := src
              dst := dst
              proto := l4.proto
              sport := l4.sport
              dport := l4.dport
              tcpFlags := l4.tcpFlags
              totalLength := totalLength
              payloadLength := payloadLength
              tcpPayloadOffset := if l4.proto = .tcp then some (l4Offset + l4.headerLength) else none }

/-- `parse_ipv6`. -/
def parseIpv6 (raw : List UInt8) (offset : Nat) (tsUs : Int) : Panicking ParseError Parsed :=
  if raw.length < offset + ipv6HeaderLen then throw .malformed
  else do
    let first ← index raw offset
    if (first >>> 4).toNat ≠ 6 then throw .malformed
    else do
      let declaredPayloadLength ← be16 raw (offset + 4)
      let nextHeader ← index raw (offset + 6)
      let l4Offset := offset + ipv6HeaderLen
      let available ← sub raw.length l4Offset
      let l4Available := min declaredPayloadLength available
      let l4 ← parseL4 raw l4Offset nextHeader l4Available
      if l4Available < l4.headerLength then throw .malformed
      else do
        let srcMac ← be48 raw 6
        let dstMac ← be48 raw 0
        let payloadLength ← sub l4Available l4.headerLength
        return {
          tsUs := tsUs
          srcMac := srcMac
          dstMac := dstMac
          ipv4 := false
          src := 0#32
          dst := 0#32
          proto := l4.proto
          sport := l4.sport
          dport := l4.dport
          tcpFlags := l4.tcpFlags
          totalLength := ipv6HeaderLen + declaredPayloadLength
          payloadLength := payloadLength
          tcpPayloadOffset := none }

/-- `parse`. -/
def parse (raw : List UInt8) (tsUs : Int) : Panicking ParseError Parsed :=
  if raw.length < ethHeaderLen then throw .malformed
  else do
    let ethertype ← be16 raw 12
    if ethertype = ethertypeIpv4 then parseIpv4 raw ethHeaderLen tsUs
    else if ethertype = ethertypeIpv6 then parseIpv6 raw ethHeaderLen tsUs
    else throw .unsupported

/-! ## Payloads -/

/-- `&raw[start..end]`. -/
def range (raw : List UInt8) (start stop : Nat) : Option (List UInt8) :=
  if start ≤ stop ∧ stop ≤ raw.length then some (slice raw start (stop - start)) else none

/-- `tcp_payload`; the outer `none` is a panic. -/
def tcpPayload (raw : List UInt8) (packet : Parsed) : Option (Option (List UInt8)) :=
  match packet.tcpPayloadOffset with
  | none => some none
  | some start =>
    let stop := min (ethHeaderLen + packet.totalLength) raw.length
    if start ≤ stop then (range raw start stop).map some else some none

/-- `TlsCandidate`. -/
structure TlsCandidate where
  src : BitVec 32
  dst : BitVec 32
  sport : Option (Fin 65536)
  dport : Option (Fin 65536)
  tsUs : Int
  payload : List UInt8

/-- `interesting` of `offer_tls`. -/
def interesting : List UInt8 → Bool
  | 24 :: _ => true
  | 22 :: _ :: _ :: _ :: _ :: 1 :: _ => true
  | _ => false

/-- `offer_tls`: what is offered. -/
def offerTls (raw : List UInt8) (packet : Parsed) : Option (Option TlsCandidate) := do
  match ← tcpPayload raw packet with
  | none => return none
  | some payload =>
    return if interesting payload then
      some ⟨packet.src, packet.dst, packet.sport, packet.dport, packet.tsUs, payload⟩ else none

end Pirewall.Native
