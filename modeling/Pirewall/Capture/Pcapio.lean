/-
# Pirewall.Capture.Pcapio -- reading pcap and pcapng files, and writing pcap

`capture/pcapio.py`. A file is its bytes, and `stream.read(n)` hands out the next `n` of them or what is left. A reader
is a generator: `readPcap` and `readPcapng` are what its loop yields, the exception it ends in, and the statistics it
leaves. Every way in which a line of it could raise is in the model: `struct.unpack` on a buffer of the wrong size,
an index outside a list, a division by zero. Only `PcapFormatError` is raised on purpose.
-/
import Pirewall.Lib.Bytes
import Pirewall.Lib.Generator

namespace Pirewall

open Lib Bytes

namespace Pcapio

/-! ## Constants -/

def linktypeEthernet : Nat := 1

def pcapMagicUs : Nat := 0xA1B2C3D4
def pcapMagicNs : Nat := 0xA1B23C4D
def pcapngShb : Nat := 0x0A0D0D0A
def pcapngByteOrderMagic : Nat := 0x1A2B3C4D
def pcapngIdb : Nat := 0x00000001
def pcapngOpb : Nat := 0x00000002
def pcapngSpb : Nat := 0x00000003
def pcapngEpb : Nat := 0x00000006
def optEnd : Nat := 0
def optIfTsresol : Nat := 9
def optIfTsoffset : Nat := 14

def maxRecordBytes : Nat := 262144
def maxBlockBytes : Nat := 16777216

/-! ## Records and statistics -/

/-- What reading a file can raise: `PcapFormatError`, or what the operations it is made of raise. -/
inductive ReadError where
  | format (message : String)
  | struct
  | index
  | zeroDivision
  deriving DecidableEq, Repr

end Pcapio

/-- `PcapRecord`. -/
structure PcapRecord where
  data : List UInt8
  tsUs : Int
  originalLength : Nat
  deriving DecidableEq

/-- `PcapStats`. -/
structure PcapStats where
  records : Nat := 0
  truncatedRecords : Nat := 0
  skippedNonEthernet : Nat := 0
  skippedWithoutTimestamp : Nat := 0
  truncatedTail : Bool := false
  linkTypes : List Nat := []
  deriving DecidableEq

namespace Pcapio

/-- `struct.unpack`, of unsigned fields. -/
def unpack (endian : Endian) (widths : List Nat) (raw : List UInt8) : Except ReadError (List Nat) :=
  if raw.length = widths.sum then .ok (endian.numbers widths raw) else .error .struct

/-- `struct.unpack` of one field. -/
def unpackOne (endian : Endian) (width : Nat) (raw : List UInt8) : Except ReadError Nat :=
  if raw.length = width then .ok (endian.number raw) else .error .struct

/-- The two's complement reading of a field of 64 bits, as the format `q` has it. -/
def signed64 (n : Nat) : Int := if n < 2 ^ 63 then n else n - 2 ^ 64

/-- `_floor_to_us`. -/
def floorToUs (units perSecond : Nat) : Except ReadError Nat :=
  if perSecond = 0 then .error .zeroDivision else .ok (units * 1000000 / perSecond)

/-- `_record`: the record, counted. -/
def record (data : List UInt8) (tsUs : Int) (original : Nat) (stats : PcapStats) : PcapRecord × PcapStats :=
  (⟨data, tsUs, original⟩,
   { stats with
     records := stats.records + 1
     truncatedRecords := stats.truncatedRecords + if data.length < original then 1 else 0 })

def hexDigit (n : Nat) : Char := Char.ofNat (if n < 10 then 48 + n else 87 + n)

/-- `bytes.hex()`. -/
def hex (bytes : List UInt8) : String :=
  String.ofList (bytes.flatMap fun octet => [hexDigit (octet.toNat / 16), hexDigit (octet.toNat % 16)])

/-- The format `#x`. -/
def hexLiteral (n : Nat) : String := "0x" ++ String.ofList (Nat.toDigits 16 n)

/-- What a generator over a file makes of it. -/
abbrev Reading := Generated PcapStats ReadError PcapRecord

/-! ## Classic pcap -/

/-- The local state of `_read_pcap`'s loop: what it has not read, and the statistics. -/
structure PcapStream where
  rest : List UInt8
  stats : PcapStats

/-- A file that ends in the middle of something. -/
def PcapStream.cut (s : PcapStream) : PcapStream := { s with stats := { s.stats with truncatedTail := true } }

/-- One record of the loop of `_read_pcap`. -/
def pcapTurn (path : String) (endian : Endian) (perSecond linkType : Nat) (s : PcapStream) :
    Turn PcapStream ReadError PcapRecord :=
  let rawHeader := s.rest.take 16
  if rawHeader.isEmpty then .stop s
  else if rawHeader.length < 16 then .stop s.cut
  else
    match unpack endian [4, 4, 4, 4] rawHeader with
    | .ok [seconds, fraction, captured, original] =>
      if maxRecordBytes < captured then
        .raise (.format (path ++ ": record of " ++ toString captured ++ " bytes; the file is corrupt")) s
      else
        let data := (s.rest.drop 16).take captured
        let rest := (s.rest.drop 16).drop captured
        if data.length < captured then .stop s.cut
        else if linkType ≠ linktypeEthernet then
          .next [] ⟨rest, { s.stats with skippedNonEthernet := s.stats.skippedNonEthernet + 1 }⟩
        else
          match floorToUs fraction perSecond with
          | .error e => .raise e s
          | .ok micros =>
            let (record, stats) := record data (seconds * 1000000 + micros) original s.stats
            .next [record] ⟨rest, stats⟩
    | .ok _ => .raise .struct s
    | .error e => .raise e s

/-- The byte order and resolution that a magic number stands for. -/
def pcapMagic (head : List UInt8) : Option (Endian × Nat) :=
  [Endian.little, Endian.big].findSome? fun endian =>
    let magic := endian.number head
    if magic = pcapMagicUs then some (endian, 1000000)
    else if magic = pcapMagicNs then some (endian, 1000000000)
    else none

/-- A file that is refused before any of it is read as records. -/
def refused (e : ReadError) : Option Reading := some ⟨[], some e, {}⟩

/-- `_read_pcap`. -/
def readPcap (path : String) (stream head : List UInt8) : Option Reading :=
  match pcapMagic head with
  | none => refused (.format (path ++ ": not a pcap or pcapng file (magic " ++ hex head ++ ")"))
  | some (endian, perSecond) =>
    let rest := stream.take 20
    if rest.length < 20 then refused (.format (path ++ ": truncated pcap file header"))
    else
      match unpack endian [2, 2, 4, 4, 4, 4] rest with
      | .ok [_, _, _, _, _, network] =>
        -- the upper bits carry FCS information
        let linkType := network % 65536
        (generate (pcapTurn path endian perSecond linkType) (stream.length + 1)
          ⟨stream.drop 20, { linkTypes := [linkType] }⟩).map fun g => ⟨g.yielded, g.error, g.final.stats⟩
      | .ok _ => refused .struct
      | .error e => refused e

/-! ## Pcapng -/

/-- What an interface description declares: the link type, ticks per second, and an offset in seconds. -/
structure NgInterface where
  linkType : Nat
  perSecond : Nat
  offsetSeconds : Int
  deriving DecidableEq

/-- The local state of `_read_pcapng`'s loop. -/
structure PcapngStream where
  rest : List UInt8
  pending : List UInt8
  endian : Endian
  interfaces : List NgInterface
  stats : PcapStats

/-- Why no block was read: the file ends, before or within one, or it is malformed. -/
inductive NoBlock where
  | finished
  | cut
  | bad (e : ReadError)

/-- A block of the length its header gives: type and body, without the trailing copy of the length. -/
structure NgBlock where
  blockType : Nat
  body : List UInt8

/-- The byte order that a section's byte-order magic stands for. -/
def sectionOrder (path : String) (order : List UInt8) : Except NoBlock Endian :=
  if Endian.number .little order = pcapngByteOrderMagic then .ok .little
  else if Endian.number .big order = pcapngByteOrderMagic then .ok .big
  else .error (.bad (.format (path ++ ": bad pcapng byte-order magic")))

/-- The body of a block from its length on, the first bytes of it read already. -/
def blockBody (path : String) (total : Nat) (bodyPrefix : List UInt8) (s : PcapngStream) (blockType : Nat) :
    Except NoBlock (NgBlock × PcapngStream) :=
  if total < 12 ∨ total % 4 ≠ 0 ∨ maxBlockBytes < total then
    .error (.bad (.format (path ++ ": bad pcapng block length " ++ toString total)))
  else
    let wanted := total - 8 - bodyPrefix.length
    let remainder := s.rest.take wanted
    if remainder.length < wanted then .error .cut
    else
      let body := (bodyPrefix ++ remainder).take ((bodyPrefix ++ remainder).length - 4)
      .ok (⟨blockType, body⟩, { s with rest := s.rest.drop wanted, pending := [] })

/-- The first half of a turn of `_read_pcapng`: the next block. -/
def nextBlock (path : String) (s : PcapngStream) : Except NoBlock (NgBlock × PcapngStream) :=
  let raw := s.pending ++ s.rest.take (8 - s.pending.length)
  let rest := s.rest.drop (8 - s.pending.length)
  if raw.isEmpty then .error .finished
  else if raw.length < 8 then .error .cut
  else
    match unpackOne s.endian 4 (raw.take 4) with
    | .error e => .error (.bad e)
    | .ok blockType =>
      if blockType = pcapngShb then
        -- the byte-order magic follows the length; it decides how to read both
        let order := rest.take 4
        if order.length < 4 then .error .cut
        else
          match sectionOrder path order with
          | .error e => .error e
          | .ok endian =>
            match unpackOne endian 4 (slice raw 4 4) with
            | .error e => .error (.bad e)
            | .ok total =>
              blockBody path total order { s with rest := rest.drop 4, endian, interfaces := [] } blockType
      else
        match unpackOne s.endian 4 (slice raw 4 4) with
        | .error e => .error (.bad e)
        | .ok total => blockBody path total [] { s with rest } blockType

/-- `_options`: the code and value of each option, up to the end mark. -/
def options (endian : Endian) (raw : List UInt8) : List (Nat × List UInt8) :=
  if raw.length < 4 then []
  else
    let code := endian.number (raw.take 2)
    let length := endian.number (slice raw 2 2)
    if code = optEnd then []
    else (code, slice raw 4 length) :: options endian (raw.drop (4 + length + (4 - length % 4) % 4))
termination_by raw.length
decreasing_by
  rw [List.length_drop]
  omega

/-- One option of the loop of `_interface`. -/
def readOption (path : String) (endian : Endian) (interface : NgInterface) (option : Nat × List UInt8) :
    Except ReadError NgInterface :=
  let (code, value) := option
  if code = optIfTsresol ∧ 1 ≤ value.length then
    match value.head? with
    | none => .error .index
    | some octet =>
      let exponent := octet.toNat % 128
      if 30 < exponent then
        .error (.format (path ++ ": unsupported timestamp resolution " ++ hexLiteral octet.toNat))
      else .ok { interface with perSecond := if 128 ≤ octet.toNat then 2 ^ exponent else 10 ^ exponent }
  else if code = optIfTsoffset ∧ 8 ≤ value.length then
    match unpackOne endian 8 (value.take 8) with
    | .error e => .error e
    | .ok offset => .ok { interface with offsetSeconds := signed64 offset }
  else .ok interface

/-- `_interface`. -/
def interface (path : String) (body : List UInt8) (endian : Endian) (stats : PcapStats) :
    Except ReadError NgInterface × PcapStats :=
  if body.length < 8 then (.error (.format (path ++ ": truncated interface description block")), stats)
  else
    match unpackOne endian 2 (body.take 2) with
    | .error e => (.error e, stats)
    | .ok linkType =>
      ((options endian (body.drop 8)).foldlM (readOption path endian) ⟨linkType, 1000000, 0⟩,
       { stats with linkTypes := stats.linkTypes.insert linkType })

/-- The interface, timestamp halves, captured and original length in the head of a packet block. -/
def packetHead (path : String) (blockType : Nat) (body : List UInt8) (endian : Endian) :
    Except ReadError (Nat × Nat × Nat × Nat × Nat) :=
  if blockType = pcapngEpb then
    if body.length < 20 then .error (.format (path ++ ": truncated enhanced packet block"))
    else
      match unpack endian [4, 4, 4, 4, 4] (body.take 20) with
      | .ok [interface, high, low, captured, original] => .ok (interface, high, low, captured, original)
      | .ok _ => .error .struct
      | .error e => .error e
  else if body.length < 20 then .error (.format (path ++ ": truncated packet block"))
  else
    -- the obsolete Packet Block: 16-bit interface id and drop count
    match unpack endian [2, 2, 4, 4, 4, 4] (body.take 20) with
    | .ok [interface, _, high, low, captured, original] => .ok (interface, high, low, captured, original)
    | .ok _ => .error .struct
    | .error e => .error e

/-- `_packet_block`. -/
def packetBlock (path : String) (blockType : Nat) (body : List UInt8) (endian : Endian)
    (interfaces : List NgInterface) (stats : PcapStats) : Except ReadError (Option PcapRecord × PcapStats) :=
  match packetHead path blockType body endian with
  | .error e => .error e
  | .ok (interface, high, low, captured, original) =>
    if interfaces.length ≤ interface then
      .error (.format (path ++ ": packet for undeclared interface " ++ toString interface))
    else if body.length - 20 < captured ∨ maxRecordBytes < captured then
      .error (.format (path ++ ": packet length " ++ toString captured ++ " overruns its block"))
    else
      match interfaces[interface]? with
      | none => .error .index
      | some declared =>
        if declared.linkType ≠ linktypeEthernet then
          .ok (none, { stats with skippedNonEthernet := stats.skippedNonEthernet + 1 })
        else
          match floorToUs (high * 2 ^ 32 + low) declared.perSecond with
          | .error e => .error e
          | .ok micros =>
            let (record, stats) :=
              record (slice body 20 captured) (declared.offsetSeconds * 1000000 + micros) original stats
            .ok (some record, stats)

/-- The second half of a turn of `_read_pcapng`: what a block is for. -/
def handleBlock (path : String) (block : NgBlock) (s : PcapngStream) : Turn PcapngStream ReadError PcapRecord :=
  if block.blockType = pcapngIdb then
    match interface path block.body s.endian s.stats with
    | (.error e, stats) => .raise e { s with stats }
    | (.ok declared, stats) => .next [] { s with interfaces := s.interfaces ++ [declared], stats }
  else if block.blockType = pcapngEpb ∨ block.blockType = pcapngOpb then
    match packetBlock path block.blockType block.body s.endian s.interfaces s.stats with
    | .error e => .raise e s
    | .ok (record, stats) => .next record.toList { s with stats }
  else if block.blockType = pcapngSpb then
    .next [] { s with stats := { s.stats with skippedWithoutTimestamp := s.stats.skippedWithoutTimestamp + 1 } }
  else .next [] s

/-- One turn of `_read_pcapng`. -/
def pcapngTurn (path : String) (s : PcapngStream) : Turn PcapngStream ReadError PcapRecord :=
  match nextBlock path s with
  | .error .finished => .stop s
  | .error .cut => .stop { s with stats := { s.stats with truncatedTail := true } }
  | .error (.bad e) => .raise e s
  | .ok (block, s) => handleBlock path block s

/-- `_read_pcapng`. -/
def readPcapng (path : String) (stream head : List UInt8) : Option Reading :=
  (generate (pcapngTurn path) (stream.length + 5) ⟨stream, head, .little, [], {}⟩).map fun g =>
    ⟨g.yielded, g.error, g.final.stats⟩

/-! ## A file -/

/-- `PcapReader.__iter__`, over the bytes of the file at `path`. -/
def read (path : String) (bytes : List UInt8) : Option Reading :=
  let head := bytes.take 4
  let stream := bytes.drop 4
  if head.length < 4 then refused (.format (path ++ ": too short to be a capture file"))
  else if Endian.number .little head = pcapngShb then readPcapng path stream head
  else readPcap path stream head

/-! ## Writing -/

/-- What `PcapWriter` can raise. -/
inductive WriteError where
  | value (message : String)
  | struct
  deriving DecidableEq

/-- `struct.pack`, of unsigned little-endian fields given by width and value. -/
def pack (fields : List (Nat × Int)) : Except WriteError (List UInt8) :=
  if fields.all fun field => decide (0 ≤ field.2 ∧ field.2 < 256 ^ field.1) then
    .ok (Endian.pack .little (fields.map fun field => (field.1, field.2.toNat)))
  else .error .struct

end Pcapio

open Pcapio

/-- `PcapWriter`, with what it has written. -/
structure PcapWriter where
  nanosecond : Bool
  snaplen : Int
  written : List UInt8

namespace PcapWriter

/-- `PcapWriter.__init__`. -/
def init (nanosecond : Bool) (snaplen : Int) : Except WriteError PcapWriter :=
  if snaplen ≤ 0 then .error (.value "snaplen must be positive")
  else
    let magic : Nat := if nanosecond then pcapMagicNs else pcapMagicUs
    match pack [(4, magic), (2, 2), (2, 4), (4, 0), (4, 0), (4, snaplen), (4, linktypeEthernet)] with
    | .error e => .error e
    | .ok header => .ok ⟨nanosecond, snaplen, header⟩

/-- `write`. -/
def write (w : PcapWriter) (data : List UInt8) (tsUs tsNsRemainder : Int) : Except WriteError PcapWriter :=
  if tsUs < 0 then .error (.value "pcap timestamps cannot precede the Unix epoch")
  else if ¬(0 ≤ tsNsRemainder ∧ tsNsRemainder < 1000) then
    .error (.value "ts_ns_remainder must be in [0, 1000)")
  else
    let seconds := tsUs / 1000000
    let micros := tsUs % 1000000
    let fraction := if w.nanosecond then micros * 1000 + tsNsRemainder else micros
    let captured := data.take w.snaplen.toNat
    match pack [(4, seconds), (4, fraction), (4, captured.length), (4, data.length)] with
    | .error e => .error e
    | .ok header => .ok { w with written := w.written ++ header ++ captured }

end PcapWriter

end Pirewall
