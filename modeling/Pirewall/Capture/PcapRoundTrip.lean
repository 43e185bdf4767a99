/-
# Pirewall.Capture.PcapRoundTrip -- what `PcapWriter` writes, `PcapReader` reads

A pcap file is a header of 24 bytes and one record after the other, each with the length of its own frame in front.
The reader takes a record off the front, or sees that the file ends first: on the front of any length of a written
file it makes one step for every record that is whole, and stops at the one that is not (`generates_take`).

What comes back is not quite what was written. A record has four fields of 32 bits, so a packet fits if its seconds
and lengths do (`Fits`), and `write` raises on one that does not; the frame is cut to the snap length and its original
length is kept beside it. The file has ticks of a nanosecond, and the reader makes a timestamp in microseconds of
them: the fraction of a second loses its last three digits (`floorToUs_fraction`).

A file that was cut is read as far as it goes, which is what happens to a capture whose writer was stopped. The reader
tells a cut within a record from an end between two of them, and `endsWithin` says which it is, from the lengths.
-/
import Pirewall.Capture.Pcapio

namespace Pirewall

open Lib Bytes Pcapio

/-! ## Written files -/

/-- One call of `PcapWriter.write`. -/
structure PcapPacket where
  data : List UInt8
  tsUs : Int
  tsNsRemainder : Int

namespace PcapPacket

variable {nanosecond : Bool} {snaplen : Nat}

/-- What the fields of a pcap record can hold. -/
structure Fits (packet : PcapPacket) : Prop where
  ts_nonneg : 0 ≤ packet.tsUs
  ts_lt : packet.tsUs < 2 ^ 32 * 1000000
  ns_nonneg : 0 ≤ packet.tsNsRemainder
  ns_lt : packet.tsNsRemainder < 1000
  length_lt : packet.data.length < 2 ^ 32

/-- The fields in front of a frame: seconds, the fraction of a second, the length captured and the length it had. -/
def fields (nanosecond : Bool) (snaplen : Nat) (packet : PcapPacket) : List (Nat × Nat) :=
  [(4, (packet.tsUs / 1000000).toNat),
   (4, (if nanosecond then packet.tsUs % 1000000 * 1000 + packet.tsNsRemainder else packet.tsUs % 1000000).toNat),
   (4, (packet.data.take snaplen).length), (4, packet.data.length)]

/-- A record on the disk. -/
def wire (nanosecond : Bool) (snaplen : Nat) (packet : PcapPacket) : List UInt8 :=
  Endian.pack .little (packet.fields nanosecond snaplen) ++ packet.data.take snaplen

/-- The record that is read back. -/
def record (snaplen : Nat) (packet : PcapPacket) : PcapRecord :=
  ⟨packet.data.take snaplen, packet.tsUs, packet.data.length⟩

/-- The bytes a record takes. -/
def size (snaplen : Nat) (packet : PcapPacket) : Nat := 16 + (packet.data.take snaplen).length

theorem length_wire (packet : PcapPacket) : (packet.wire nanosecond snaplen).length = packet.size snaplen := by
  rw [wire, List.length_append, Endian.length_pack]
  rfl

theorem Fits.fields_lt {packet : PcapPacket} (h : packet.Fits) :
    ∀ field ∈ packet.fields nanosecond snaplen, field.2 < 256 ^ field.1 := by
  have hts := h.ts_lt
  have hns := h.ns_lt
  have hlength := h.length_lt
  have htake := List.length_take_le' snaplen packet.data
  have hseconds : packet.tsUs / 1000000 < 2 ^ 32 := by omega
  have hmicros : packet.tsUs % 1000000 < 1000000 := Int.emod_lt_of_pos _ (by decide)
  intro field hfield
  rw [fields] at hfield
  simp only [List.mem_cons, List.not_mem_nil, or_false] at hfield
  rcases hfield with rfl | rfl | rfl | rfl
  · show (packet.tsUs / 1000000).toNat < 4294967296
    omega
  · show Int.toNat _ < 4294967296
    split
    · omega
    · omega
  · show (packet.data.take snaplen).length < 4294967296
    omega
  · show packet.data.length < 4294967296
    omega

end PcapPacket

/-- The 24 bytes in front of the records. -/
def pcapHeader (nanosecond : Bool) (snaplen : Nat) : List UInt8 :=
  Endian.pack .little [(4, if nanosecond then pcapMagicNs else pcapMagicUs), (2, 2), (2, 4), (4, 0), (4, 0),
    (4, snaplen), (4, linktypeEthernet)]

namespace PcapWriter

/-- A series of calls of `write`. -/
def writeAll (w : PcapWriter) (packets : List PcapPacket) : Except WriteError PcapWriter :=
  packets.foldlM (fun w packet => w.write packet.data packet.tsUs packet.tsNsRemainder) w

/-- The file that a new writer leaves after a series of calls. -/
def file (nanosecond : Bool) (snaplen : Int) (packets : List PcapPacket) : Except WriteError (List UInt8) :=
  (PcapWriter.init nanosecond snaplen >>= fun w => w.writeAll packets).map PcapWriter.written

variable {nanosecond : Bool} {snaplen : Nat} {written : List UInt8} {packet : PcapPacket} {packets : List PcapPacket}

theorem pack_of_lt {fields : List (Nat × Int)} (h : ∀ field ∈ fields, 0 ≤ field.2 ∧ field.2 < 256 ^ field.1) :
    pack fields = .ok (Endian.pack .little (fields.map fun field => (field.1, field.2.toNat))) :=
  if_pos (List.all_eq_true.mpr fun field hfield => decide_eq_true (h field hfield))

theorem lt_of_pack {fields : List (Nat × Int)} {bytes : List UInt8} (h : pack fields = .ok bytes) :
    ∀ field ∈ fields, 0 ≤ field.2 ∧ field.2 < 256 ^ field.1 := by
  rw [pack] at h
  split at h
  · rename_i hall
    exact fun field hfield => of_decide_eq_true (List.all_eq_true.mp hall field hfield)
  · exact nomatch h

theorem init_eq (h : 0 < snaplen) (hlt : snaplen < 2 ^ 32) :
    init nanosecond snaplen = .ok ⟨nanosecond, snaplen, pcapHeader nanosecond snaplen⟩ := by
  rw [init, if_neg (by omega)]
  dsimp only
  rw [pack_of_lt]
  · rfl
  · intro field hfield
    simp only [List.mem_cons, List.not_mem_nil, or_false] at hfield
    rcases hfield with rfl | rfl | rfl | rfl | rfl | rfl | rfl
    · cases nanosecond with
      | true => decide
      | false => decide
    · decide
    · decide
    · decide
    · decide
    · constructor
      · exact Int.natCast_nonneg snaplen
      · show (snaplen : Int) < 4294967296
        omega
    · decide

/-- A packet that fits is appended to the file. -/
theorem write_of_fits (h : packet.Fits) :
    (⟨nanosecond, snaplen, written⟩ : PcapWriter).write packet.data packet.tsUs packet.tsNsRemainder =
      .ok ⟨nanosecond, snaplen, written ++ packet.wire nanosecond snaplen⟩ := by
  have hmicros : 0 ≤ packet.tsUs % 1000000 := Int.emod_nonneg _ (by decide)
  have hmicros' : packet.tsUs % 1000000 < 1000000 := Int.emod_lt_of_pos _ (by decide)
  have hns := h.ns_nonneg
  have hns' := h.ns_lt
  have hts := h.ts_nonneg
  have hts' := h.ts_lt
  have htake := List.length_take_le' snaplen packet.data
  rw [write, if_neg (not_lt.mpr hts), if_neg (not_not.mpr ⟨hns, hns'⟩)]
  dsimp only
  rw [Int.toNat_natCast, pack_of_lt]
  · rw [PcapPacket.wire, ← List.append_assoc]
    rfl
  · intro field hfield
    simp only [List.mem_cons, List.not_mem_nil, or_false] at hfield
    rcases hfield with rfl | rfl | rfl | rfl
    · show 0 ≤ packet.tsUs / 1000000 ∧ packet.tsUs / 1000000 < 4294967296
      omega
    · dsimp only
      show 0 ≤ ite _ _ _ ∧ ite _ _ _ < (4294967296 : Int)
      split
      · omega
      · omega
    · have hlength := h.length_lt
      show 0 ≤ ((packet.data.take snaplen).length : Int) ∧ ((packet.data.take snaplen).length : Int) < 4294967296
      omega
    · have hlength := h.length_lt
      show 0 ≤ (packet.data.length : Int) ∧ (packet.data.length : Int) < 4294967296
      omega

/-- Nothing else is. -/
theorem fits_of_write {w w' : PcapWriter} (h : w.write packet.data packet.tsUs packet.tsNsRemainder = .ok w') :
    packet.Fits := by
  rw [write] at h
  split at h
  · exact nomatch h
  · rename_i hts
    split at h
    · exact nomatch h
    · rename_i hns
      dsimp only at h
      split at h
      · exact nomatch h
      · rename_i hpack
        have hfields := lt_of_pack hpack
        have hseconds : packet.tsUs / 1000000 < 4294967296 := (hfields (4, packet.tsUs / 1000000) (by simp)).2
        have hlength : (packet.data.length : Int) < 4294967296 := (hfields (4, packet.data.length) (by simp)).2
        rw [not_not] at hns
        exact ⟨not_lt.mp hts, by omega, hns.1, hns.2, by omega⟩

theorem writeAll_of_fits (h : ∀ packet ∈ packets, packet.Fits) :
    (⟨nanosecond, snaplen, written⟩ : PcapWriter).writeAll packets =
      .ok ⟨nanosecond, snaplen, written ++ packets.flatMap (PcapPacket.wire nanosecond snaplen)⟩ := by
  induction packets generalizing written with
  | nil =>
    rw [List.flatMap_nil, List.append_nil]
    rfl
  | cons packet packets ih =>
    rw [writeAll, List.foldlM_cons, write_of_fits (h packet List.mem_cons_self)]
    refine (ih fun other hother => h other (List.mem_cons_of_mem _ hother)).trans ?_
    rw [List.flatMap_cons, List.append_assoc]

theorem fits_of_writeAll {w w' : PcapWriter} (h : w.writeAll packets = .ok w') : ∀ packet ∈ packets, packet.Fits := by
  induction packets generalizing w with
  | nil => exact fun packet hpacket => absurd hpacket List.not_mem_nil
  | cons packet packets ih =>
    rw [writeAll, List.foldlM_cons] at h
    cases hwrite : w.write packet.data packet.tsUs packet.tsNsRemainder with
    | error e =>
      rw [hwrite] at h
      exact nomatch h
    | ok next =>
      rw [hwrite] at h
      intro other hother
      rcases List.mem_cons.mp hother with rfl | hother
      · exact fits_of_write hwrite
      · exact ih h other hother

/-- A file is written exactly for packets that fit, and it is their records behind the header. -/
theorem file_eq_ok_iff (hsnap : 0 < snaplen) (hsnap' : snaplen < 2 ^ 32) {bytes : List UInt8} :
    file nanosecond snaplen packets = .ok bytes ↔ (∀ packet ∈ packets, packet.Fits) ∧
      bytes = pcapHeader nanosecond snaplen ++ packets.flatMap (PcapPacket.wire nanosecond snaplen) := by
  rw [file, init_eq hsnap hsnap']
  show Except.map _ (writeAll _ packets) = _ ↔ _
  constructor
  · intro h
    cases hwrite : (⟨nanosecond, snaplen, pcapHeader nanosecond snaplen⟩ : PcapWriter).writeAll packets with
    | error e =>
      rw [hwrite] at h
      exact nomatch h
    | ok w =>
      have hfits := fits_of_writeAll hwrite
      rw [writeAll_of_fits hfits] at h
      exact ⟨hfits, (Except.ok.inj h).symm⟩
  · rintro ⟨hfits, rfl⟩
    rw [writeAll_of_fits hfits]
    rfl

end PcapWriter

/-! ## Reading the front of a written file -/

namespace Pcapio

variable {nanosecond : Bool} {snaplen : Nat} {path : String} {packet : PcapPacket} {packets : List PcapPacket}

/-- Ticks per second of a written file. -/
def ticksPerSecond (nanosecond : Bool) : Nat := if nanosecond then 1000000000 else 1000000

/-- What was packed is unpacked. -/
theorem unpack_pack {endian : Endian} {fields : List (Nat × Nat)} (h : ∀ field ∈ fields, field.2 < 256 ^ field.1) :
    unpack endian (fields.map Prod.fst) (endian.pack fields) = .ok (fields.map Prod.snd) := by
  rw [unpack, if_pos (endian.length_pack fields), endian.numbers_pack h]

/-- Seconds and fraction make up the timestamp, without its nanoseconds. -/
theorem floorToUs_fraction (nanosecond : Bool) (h : packet.Fits) :
    ∃ micros : Nat, floorToUs (if nanosecond then packet.tsUs % 1000000 * 1000 + packet.tsNsRemainder
        else packet.tsUs % 1000000).toNat (ticksPerSecond nanosecond) = .ok micros ∧
      ((packet.tsUs / 1000000).toNat : Int) * 1000000 + micros = packet.tsUs := by
  have hmicros : 0 ≤ packet.tsUs % 1000000 := Int.emod_nonneg _ (by decide)
  have hts := h.ts_nonneg
  have hns := h.ns_nonneg
  have hns' := h.ns_lt
  refine ⟨(packet.tsUs % 1000000).toNat, ?_, by omega⟩
  cases nanosecond with
  | true =>
    show Except.ok _ = _
    refine congrArg Except.ok ?_
    show (packet.tsUs % 1000000 * 1000 + packet.tsNsRemainder).toNat * 1000000 / 1000000000 = _
    omega
  | false =>
    show Except.ok _ = _
    refine congrArg Except.ok ?_
    show (packet.tsUs % 1000000).toNat * 1000000 / 1000000 = _
    omega

/-- The header of a record, whatever follows it. -/
theorem length_header (packet : PcapPacket) :
    (Endian.pack .little (packet.fields nanosecond snaplen)).length = 16 := Endian.length_pack .little _

/-- A turn on a front of the file that holds the next record whole. -/
theorem pcapTurn_whole (path : String) (nanosecond : Bool) (h : packet.Fits) (hsnap : snaplen ≤ maxRecordBytes)
    (more : List UInt8) (stats : PcapStats) :
    ∃ stats', stats'.truncatedTail = stats.truncatedTail ∧
      pcapTurn path .little (ticksPerSecond nanosecond) linktypeEthernet
        ⟨packet.wire nanosecond snaplen ++ more, stats⟩ = .next [packet.record snaplen] ⟨more, stats'⟩ := by
  obtain ⟨micros, hfloor, hts⟩ := floorToUs_fraction nanosecond h
  have hheader : (packet.wire nanosecond snaplen ++ more).take 16 =
      Endian.pack .little (packet.fields nanosecond snaplen) := by
    rw [PcapPacket.wire, List.append_assoc, List.take_left' (length_header packet)]
  have hrest : (packet.wire nanosecond snaplen ++ more).drop 16 = packet.data.take snaplen ++ more := by
    rw [PcapPacket.wire, List.append_assoc, List.drop_left' (length_header packet)]
  have hne : (Endian.pack .little (packet.fields nanosecond snaplen)).isEmpty = false := by
    rw [List.isEmpty_eq_false_iff, ← List.length_pos_iff, length_header]
    decide
  have hcaptured : ¬maxRecordBytes < (packet.data.take snaplen).length := by
    have htake := List.length_take_le snaplen packet.data
    omega
  have hunpack : unpack .little [4, 4, 4, 4] (Endian.pack .little (packet.fields nanosecond snaplen)) =
      .ok ((packet.fields nanosecond snaplen).map Prod.snd) := unpack_pack h.fields_lt
  rw [pcapTurn]
  dsimp only
  rw [hheader, hrest, hne, if_neg Bool.false_ne_true, length_header, if_neg (lt_irrefl 16), hunpack]
  simp only [PcapPacket.fields, List.map_cons, List.map_nil]
  rw [if_neg hcaptured, List.take_left, List.drop_left, if_neg (lt_irrefl _), if_neg (not_not.mpr rfl), hfloor]
  dsimp only [record]
  rw [hts]
  refine ⟨_, ?_, rfl⟩
  rfl

/-- A turn on a front that ends within the next record. -/
theorem pcapTurn_cut (h : packet.Fits) (hsnap : snaplen ≤ maxRecordBytes) {n : Nat} (hpos : 0 < n)
    (hn : n < packet.size snaplen) (stats : PcapStats) :
    pcapTurn path .little (ticksPerSecond nanosecond) linktypeEthernet
      ⟨(packet.wire nanosecond snaplen).take n, stats⟩ =
        .stop ⟨(packet.wire nanosecond snaplen).take n, { stats with truncatedTail := true }⟩ := by
  have hlength : ((packet.wire nanosecond snaplen).take n).length = n := by
    rw [List.length_take, PcapPacket.length_wire]
    omega
  have hne : (((packet.wire nanosecond snaplen).take n).take 16).isEmpty = false := by
    rw [List.isEmpty_eq_false_iff, ← List.length_pos_iff, List.length_take, hlength]
    omega
  rw [pcapTurn]
  dsimp only
  rw [hne, if_neg Bool.false_ne_true]
  by_cases hheader : n < 16
  · rw [if_pos (by rw [List.length_take, hlength]; omega)]
    rfl
  · have hfields : ((packet.wire nanosecond snaplen).take n).take 16 =
        Endian.pack .little (packet.fields nanosecond snaplen) := by
      rw [List.take_take, Nat.min_eq_left (not_lt.mp hheader), PcapPacket.wire,
        List.take_left' (length_header packet)]
    have hcaptured : ¬maxRecordBytes < (packet.data.take snaplen).length := by
      have htake := List.length_take_le snaplen packet.data
      omega
    have hunpack : unpack .little [4, 4, 4, 4] (Endian.pack .little (packet.fields nanosecond snaplen)) =
        .ok ((packet.fields nanosecond snaplen).map Prod.snd) := unpack_pack h.fields_lt
    have hshort : (((packet.wire nanosecond snaplen).take n).drop 16).length < (packet.data.take snaplen).length := by
      rw [List.length_drop, hlength]
      rw [PcapPacket.size] at hn
      omega
    rw [hfields, length_header, if_neg (lt_irrefl 16), hunpack]
    simp only [PcapPacket.fields, List.map_cons, List.map_nil]
    rw [if_neg hcaptured, List.take_of_length_le hshort.le, if_pos hshort]
    rfl

/-- How many of the packets have their record whole within the first `n` bytes. -/
def wholeWithin (snaplen : Nat) : Nat → List PcapPacket → Nat
  | _, [] => 0
  | n, packet :: packets =>
    if packet.size snaplen ≤ n then wholeWithin snaplen (n - packet.size snaplen) packets + 1 else 0

/-- Whether the first `n` bytes end within a record. -/
def endsWithin (snaplen : Nat) : Nat → List PcapPacket → Bool
  | _, [] => false
  | n, packet :: packets =>
    if packet.size snaplen ≤ n then endsWithin snaplen (n - packet.size snaplen) packets else decide (0 < n)

/-- On the first `n` bytes of some records the loop yields those that are whole. -/
theorem generates_take (path : String) (nanosecond : Bool) (hsnap : snaplen ≤ maxRecordBytes)
    (h : ∀ packet ∈ packets, packet.Fits) (n : Nat) (stats : PcapStats) :
    ∃ final, Generates (pcapTurn path .little (ticksPerSecond nanosecond) linktypeEthernet)
        ⟨(packets.flatMap (PcapPacket.wire nanosecond snaplen)).take n, stats⟩
        ⟨(packets.take (wholeWithin snaplen n packets)).map (PcapPacket.record snaplen), none, final⟩ ∧
      final.stats.truncatedTail = (stats.truncatedTail || endsWithin snaplen n packets) := by
  induction packets generalizing n stats with
  | nil =>
    rw [List.flatMap_nil, List.take_nil]
    exact ⟨⟨[], stats⟩, .stop rfl, (Bool.or_false _).symm⟩
  | cons packet packets ih =>
    rw [wholeWithin, endsWithin]
    rw [List.flatMap_cons, List.take_append, PcapPacket.length_wire]
    by_cases hwhole : packet.size snaplen ≤ n
    · rw [if_pos hwhole, if_pos hwhole, List.take_of_length_le (by rwa [PcapPacket.length_wire])]
      obtain ⟨stats', htail, hturn⟩ := pcapTurn_whole path nanosecond (h packet List.mem_cons_self) hsnap
        ((packets.flatMap (PcapPacket.wire nanosecond snaplen)).take (n - packet.size snaplen)) stats
      obtain ⟨final, hrest, hfinal⟩ :=
        ih (fun other hother => h other (List.mem_cons_of_mem _ hother)) (n - packet.size snaplen) stats'
      refine ⟨final, .next hturn hrest, ?_⟩
      rw [hfinal, htail]
    · rw [if_neg hwhole, if_neg hwhole, Nat.sub_eq_zero_of_le (Nat.le_of_not_le hwhole), List.take_zero,
        List.append_nil]
      by_cases hpos : 0 < n
      · rw [decide_eq_true hpos]
        exact ⟨_, .stop (pcapTurn_cut (h packet List.mem_cons_self) hsnap hpos (not_le.mp hwhole) stats),
          (Bool.or_true _).symm⟩
      · obtain rfl : n = 0 := by omega
        exact ⟨⟨[], stats⟩, .stop rfl, (Bool.or_false _).symm⟩

/-- A record that was read is not read again. -/
theorem pcapTurn_advances (path : String) (endian : Endian) (perSecond linkType : Nat) :
    Advances (pcapTurn path endian perSecond linkType) fun s => s.rest.length := by
  intro s out s' h
  rw [pcapTurn] at h
  dsimp only at h
  split at h
  · exact nomatch h
  · split at h
    · exact nomatch h
    · rename_i hheader
      have hlong : 16 ≤ s.rest.length := by
        rw [List.length_take] at hheader
        omega
      split at h
      · split at h
        · exact nomatch h
        · split at h
          · exact nomatch h
          · split at h
            · cases h
              simp only [List.length_drop]
              omega
            · split at h
              · exact nomatch h
              · cases h
                simp only [List.length_drop]
                omega
      · exact nomatch h
      · exact nomatch h

/-- What follows the magic number in the header of a file. -/
def headerFields (snaplen : Nat) : List (Nat × Nat) :=
  [(2, 2), (2, 4), (4, 0), (4, 0), (4, snaplen), (4, linktypeEthernet)]

/-- A file that begins with the header of a writer is read as its records. -/
theorem read_header (path : String) (nanosecond : Bool) (hsnap : snaplen < 2 ^ 32) {body : List UInt8}
    {g : Generated PcapStream ReadError PcapRecord}
    (h : Generates (pcapTurn path .little (ticksPerSecond nanosecond) linktypeEthernet)
      ⟨body, { linkTypes := [linktypeEthernet] }⟩ g) :
    read path (pcapHeader nanosecond snaplen ++ body) = some ⟨g.yielded, g.error, g.final.stats⟩ := by
  have hsplit : pcapHeader nanosecond snaplen ++ body =
      Endian.octets .little 4 (if nanosecond then pcapMagicNs else pcapMagicUs) ++
        (Endian.pack .little (headerFields snaplen) ++ body) := List.append_assoc _ _ _
  have hmagic : (Endian.octets .little 4 (if nanosecond then pcapMagicNs else pcapMagicUs)).length = 4 :=
    Endian.length_octets _ _ _
  -- the magic number is neither that of a pcapng file nor one of another byte order
  have hnot : Endian.number .little (Endian.octets .little 4 (if nanosecond then pcapMagicNs else pcapMagicUs)) ≠
      pcapngShb := by
    cases nanosecond with
    | true => decide
    | false => decide
  have horder : pcapMagic (Endian.octets .little 4 (if nanosecond then pcapMagicNs else pcapMagicUs)) =
      some (.little, ticksPerSecond nanosecond) := by
    cases nanosecond with
    | true => decide
    | false => decide
  have hfields : (Endian.pack .little (headerFields snaplen)).length = 20 := Endian.length_pack _ _
  have hunpack : unpack .little [2, 2, 4, 4, 4, 4] (Endian.pack .little (headerFields snaplen)) =
      .ok [2, 4, 0, 0, snaplen, linktypeEthernet] := by
    have hlt : ∀ field ∈ headerFields snaplen, field.2 < 256 ^ field.1 := by
      intro field hfield
      simp only [headerFields, List.mem_cons, List.not_mem_nil, or_false] at hfield
      rcases hfield with rfl | rfl | rfl | rfl | rfl | rfl
      · decide
      · decide
      · decide
      · decide
      · exact hsnap
      · decide
    exact unpack_pack hlt
  rw [read, hsplit, List.take_left' hmagic, List.drop_left' hmagic, hmagic, if_neg (lt_irrefl 4), if_neg hnot, readPcap,
    horder]
  dsimp only
  rw [List.take_left' hfields, hfields, if_neg (lt_irrefl 20), hunpack]
  dsimp only
  have hlink : linktypeEthernet % 65536 = linktypeEthernet := rfl
  -- every turn takes a byte at least, so the length of the body bounds their number
  have hturns : body.length < (Endian.pack .little (headerFields snaplen) ++ body).length + 1 := by
    rw [List.length_append]
    omega
  rw [List.drop_left' hfields, hlink, h.generate (pcapTurn_advances path .little _ _) hturns]
  rfl

/-! ## Where records end -/

/-- Where the first `i` records of a file end. -/
def recordEnd (snaplen : Nat) (packets : List PcapPacket) (i : Nat) : Nat :=
  24 + ((packets.take i).map (PcapPacket.size snaplen)).sum

theorem lt_wholeWithin_iff {n i : Nat} (h : i < packets.length) :
    i < wholeWithin snaplen n packets ↔ ((packets.take (i + 1)).map (PcapPacket.size snaplen)).sum ≤ n := by
  induction packets generalizing n i with
  | nil => exact absurd h (Nat.not_lt_zero i)
  | cons packet packets ih =>
    rw [wholeWithin, List.take_succ_cons, List.map_cons, List.sum_cons]
    by_cases hwhole : packet.size snaplen ≤ n
    · rw [if_pos hwhole]
      cases i with
      | zero =>
        rw [List.take_zero, List.map_nil, List.sum_nil]
        omega
      | succ i =>
        have hrest := ih (n := n - packet.size snaplen) (Nat.lt_of_succ_lt_succ h)
        omega
    · rw [if_neg hwhole]
      omega

theorem endsWithin_iff {n : Nat} :
    endsWithin snaplen n packets = true ↔ ∃ i < packets.length,
      ((packets.take i).map (PcapPacket.size snaplen)).sum < n ∧
        n < ((packets.take (i + 1)).map (PcapPacket.size snaplen)).sum := by
  induction packets generalizing n with
  | nil => simp [endsWithin]
  | cons packet packets ih =>
    rw [endsWithin]
    by_cases hwhole : packet.size snaplen ≤ n
    · rw [if_pos hwhole, ih]
      constructor
      · rintro ⟨i, hi, hstart, hend⟩
        refine ⟨i + 1, Nat.succ_lt_succ hi, ?_⟩
        rw [List.take_succ_cons, List.take_succ_cons, List.map_cons, List.map_cons, List.sum_cons, List.sum_cons]
        omega
      · rintro ⟨i, hi, hstart, hend⟩
        cases i with
        | zero =>
          rw [List.take_succ_cons, List.take_zero, List.map_cons, List.sum_cons, List.map_nil, List.sum_nil] at hend
          omega
        | succ i =>
          rw [List.take_succ_cons, List.map_cons, List.sum_cons] at hstart hend
          exact ⟨i, Nat.lt_of_succ_lt_succ hi, by omega, by omega⟩
    · rw [if_neg hwhole, decide_eq_true_eq]
      constructor
      · intro hpos
        refine ⟨0, Nat.succ_pos _, ?_⟩
        rw [List.take_zero, List.map_nil, List.sum_nil, List.take_succ_cons, List.map_cons, List.sum_cons]
        omega
      · rintro ⟨i, -, hstart, -⟩
        omega

/-- Within all of its bytes, every record is whole. -/
theorem wholeWithin_all {n : Nat} (h : (packets.map (PcapPacket.size snaplen)).sum ≤ n) :
    wholeWithin snaplen n packets = packets.length ∧ endsWithin snaplen n packets = false := by
  induction packets generalizing n with
  | nil => exact ⟨rfl, rfl⟩
  | cons packet packets ih =>
    rw [List.map_cons, List.sum_cons] at h
    have hwhole : packet.size snaplen ≤ n := by omega
    obtain ⟨hcount, hends⟩ := ih (n := n - packet.size snaplen) (by omega)
    rw [wholeWithin, endsWithin, if_pos hwhole, if_pos hwhole, hcount, hends]
    exact ⟨rfl, rfl⟩

theorem length_wires (packets : List PcapPacket) :
    (packets.flatMap (PcapPacket.wire nanosecond snaplen)).length = (packets.map (PcapPacket.size snaplen)).sum := by
  rw [List.length_flatMap]
  exact congrArg List.sum (List.map_congr_left fun packet _ => packet.length_wire)

/-- The front of a written file, read. -/
theorem read_take (path : String) (nanosecond : Bool) (hsnap : snaplen ≤ maxRecordBytes)
    (h : ∀ packet ∈ packets, packet.Fits) (n : Nat) :
    ∃ stats, read path
        (pcapHeader nanosecond snaplen ++ (packets.flatMap (PcapPacket.wire nanosecond snaplen)).take n) =
          some ⟨(packets.take (wholeWithin snaplen n packets)).map (PcapPacket.record snaplen), none, stats⟩ ∧
      stats.truncatedTail = endsWithin snaplen n packets := by
  obtain ⟨final, hgen, htail⟩ := generates_take path nanosecond hsnap h n { linkTypes := [linktypeEthernet] }
  have hlt : snaplen < 2 ^ 32 := lt_of_le_of_lt hsnap (by decide)
  exact ⟨final.stats, read_header path nanosecond hlt hgen, htail.trans (Bool.false_or _)⟩

end Pcapio

/-- A file is written exactly for packets whose timestamps and lengths a record can hold. It is read back as the
frames cut to the snap length, with their timestamps and original lengths. Cut anywhere behind its header, it is read
as the records that are whole, and reported as cut exactly when it ends within one. -/
theorem pcap_round_trip (path : String) (nanosecond : Bool) {snaplen : Nat} (hpos : 0 < snaplen)
    (hsnap : snaplen ≤ maxRecordBytes) (packets : List PcapPacket) :
    ((∃ file, PcapWriter.file nanosecond snaplen packets = .ok file) ↔ ∀ packet ∈ packets, packet.Fits) ∧
      ∀ file, PcapWriter.file nanosecond snaplen packets = .ok file →
        (∃ stats, read path file = some ⟨packets.map (PcapPacket.record snaplen), none, stats⟩ ∧
          stats.truncatedTail = false) ∧
        ∀ n, 24 ≤ n → ∃ k stats,
          read path (file.take n) = some ⟨(packets.take k).map (PcapPacket.record snaplen), none, stats⟩ ∧
          (∀ i < packets.length, i < k ↔ recordEnd snaplen packets (i + 1) ≤ n) ∧
          (stats.truncatedTail = true ↔
            ∃ i < packets.length, recordEnd snaplen packets i < n ∧ n < recordEnd snaplen packets (i + 1)) := by
  have hlt : snaplen < 2 ^ 32 := lt_of_le_of_lt hsnap (by decide)
  refine ⟨⟨?_, ?_⟩, ?_⟩
  · rintro ⟨file, hfile⟩
    exact ((PcapWriter.file_eq_ok_iff hpos hlt).mp hfile).1
  · exact fun hfits => ⟨_, (PcapWriter.file_eq_ok_iff hpos hlt).mpr ⟨hfits, rfl⟩⟩
  · intro file hfile
    obtain ⟨hfits, rfl⟩ := (PcapWriter.file_eq_ok_iff hpos hlt).mp hfile
    have hheader : (pcapHeader nanosecond snaplen).length = 24 := Endian.length_pack _ _
    constructor
    · obtain ⟨stats, hread, htail⟩ := read_take path nanosecond hsnap hfits
        (packets.flatMap (PcapPacket.wire nanosecond snaplen)).length
      have hsize : (packets.map (PcapPacket.size snaplen)).sum ≤
          (packets.flatMap (PcapPacket.wire nanosecond snaplen)).length := (length_wires packets).ge
      obtain ⟨hcount, hends⟩ := wholeWithin_all hsize
      rw [List.take_length, hcount, List.take_length] at hread
      exact ⟨stats, hread, htail.trans hends⟩
    · intro n hn
      obtain ⟨stats, hread, htail⟩ := read_take path nanosecond hsnap hfits (n - 24)
      refine ⟨wholeWithin snaplen (n - 24) packets, stats, ?_, ?_, ?_⟩
      · rw [List.take_append, hheader, List.take_of_length_le (by rwa [hheader])]
        exact hread
      · intro i hi
        rw [lt_wholeWithin_iff hi, recordEnd]
        omega
      · rw [htail, endsWithin_iff]
        refine exists_congr fun i => and_congr_right fun _ => ?_
        rw [recordEnd, recordEnd]
        omega

/-- Two frames, the second cut to the snap length, with nanosecond timestamps. -/
theorem pcap_round_trip_cut :
    let packets : List PcapPacket := [⟨[1, 2], 1500000, 7⟩, ⟨[3, 4, 5, 6], 2000001, 0⟩]
    ((∃ file, PcapWriter.file true 3 packets = .ok file) ↔ ∀ packet ∈ packets, packet.Fits) ∧
      ∀ file, PcapWriter.file true 3 packets = .ok file →
        (∃ stats, read "a.pcap" file = some ⟨packets.map (PcapPacket.record 3), none, stats⟩ ∧
          stats.truncatedTail = false) ∧
        ∀ n, 24 ≤ n → ∃ k stats,
          read "a.pcap" (file.take n) = some ⟨(packets.take k).map (PcapPacket.record 3), none, stats⟩ ∧
          (∀ i < packets.length, i < k ↔ recordEnd 3 packets (i + 1) ≤ n) ∧
          (stats.truncatedTail = true ↔
            ∃ i < packets.length, recordEnd 3 packets i < n ∧ n < recordEnd 3 packets (i + 1)) :=
  pcap_round_trip "a.pcap" true (by decide) (by decide) _

end Pirewall
