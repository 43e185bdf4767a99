/-
# Pirewall.Capture.RingBlock -- walking a block of the ring

The kernel fills a block with packets, each behind a header that says how long it is, where in it the frame starts and
how far the next header is. `walkBlock` takes none of this on trust. A slice out of range panics, and so does a sum
that no `usize` holds: both are `none`, as is whatever follows them.

Whatever the block holds, the walk ends without a panic, at headers farther and farther in, and hands over pieces of
the block (`walk_visits`). A block that was laid out for some frames gives these back (`walk_laidOut`).
-/
import Pirewall.Lib.Bytes

namespace Pirewall.Native

open Lib Lib.Bytes

/-! ## The code -/

/-- The machine the walk runs on: its byte order, and `usize::MAX`, which is no less than `u32::MAX`. -/
structure Machine where
  endian : Endian
  usizeMax : Nat
  wide : 2 ^ 32 - 1 ≤ usizeMax

def blockNumPktsOffset : Nat := 12
def blockFirstPktOffset : Nat := 16
def pktNextOffset : Nat := 0
def pktSec : Nat := 4
def pktNsec : Nat := 8
def pktSnaplen : Nat := 12
def pktMac : Nat := 24
def pktHeaderMin : Nat := pktMac + 2

/-- `block.get(start..start + width)`, as a number. -/
def numberAt (m : Machine) (width : Nat) (block : List UInt8) (start : Nat) : Option Nat :=
  if start + width ≤ block.length then some (m.endian.number (slice block start width)) else none

/-- `u32_at`. -/
def u32At (m : Machine) (block : List UInt8) (start : Nat) : Option Nat := numberAt m 4 block start

/-- `u16_at`. -/
def u16At (m : Machine) (block : List UInt8) (start : Nat) : Option Nat := numberAt m 2 block start

/-- `checked_add`. -/
def checkedAdd (m : Machine) (a b : Nat) : Option Nat := if a + b ≤ m.usizeMax then some (a + b) else none

/-- `&block[offset..]`. -/
def tailFrom (block : List UInt8) (offset : Nat) : Option (List UInt8) :=
  if offset ≤ block.length then some (block.drop offset) else none

/-- `&header[start..start + length]`. -/
def sliceRange (m : Machine) (header : List UInt8) (start length : Nat) : Option (List UInt8) :=
  if start + length ≤ m.usizeMax ∧ start + length ≤ header.length then some (slice header start length) else none

/-- The fields the walk reads of a packet's header. -/
structure PacketHeader where
  sec : Nat
  nsec : Nat
  snaplen : Nat
  mac : Nat
  next : Nat

def readHeader (m : Machine) (header : List UInt8) : Option PacketHeader := do
  some { sec := ← u32At m header pktSec
         nsec := ← u32At m header pktNsec
         snaplen := ← u32At m header pktSnaplen
         mac := ← u16At m header pktMac
         next := ← u32At m header pktNextOffset }

/-- A packet that was visited: where its header stands, and what `on_frame` was called with, if it was. -/
structure Visit where
  offset : Nat
  call : Option (List UInt8 × Int)

/-- `on_frame` for one packet: its frame, cut where the block ends, and its time in microseconds. -/
def frameCall (m : Machine) (header : List UInt8) (packet : PacketHeader) : Option (Option (List UInt8 × Int)) :=
  if packet.mac ≤ header.length then
    let available := header.length - packet.mac
    let length := min packet.snaplen available
    (sliceRange m header packet.mac length).map fun frame =>
      some (frame, (packet.sec : Int) * 1000000 + (packet.nsec : Int) / 1000)
  else some none

/-- The loop, for a count of packets. -/
def walk (m : Machine) (block : List UInt8) : Nat → Nat → Option (List Visit)
  | 0, _ => some []
  | count + 1, offset =>
    if (checkedAdd m offset pktHeaderMin).all fun stop => stop > block.length then some []
    else do
      let header ← tailFrom block offset
      match readHeader m header with
      | none => some []
      | some packet =>
        let call ← frameCall m header packet
        let visit : Visit := ⟨offset, call⟩
        if packet.next = 0 then some [visit]
        else
          match checkedAdd m offset packet.next with
          | none => some [visit]
          | some nextOffset =>
            if nextOffset < block.length then do
              let rest ← walk m block count nextOffset
              some (visit :: rest)
            else some [visit]

/-- `walk_block`: the packets it visits. What it returns is their number. -/
def walkBlock (m : Machine) (block : List UInt8) : Option (List Visit) :=
  match u32At m block blockNumPktsOffset, u32At m block blockFirstPktOffset with
  | some count, some first => walk m block count first
  | _, _ => some []

/-! ## Reads -/

section Reads

variable {m : Machine} {block : List UInt8}

theorem number_lt (m : Machine) (bytes : List UInt8) : m.endian.number bytes < 256 ^ bytes.length := by
  unfold Endian.number
  cases m.endian with
  | little =>
    have := bigEndian_lt bytes.reverse
    rwa [List.length_reverse] at this
  | big => exact bigEndian_lt bytes

theorem numberAt_of_le {width start : Nat} (h : start + width ≤ block.length) :
    ∃ n, numberAt m width block start = some n ∧ n < 256 ^ width := by
  refine ⟨_, if_pos h, ?_⟩
  have hlength : (slice block start width).length = width := by
    rw [length_slice]
    omega
  have hlt := number_lt m (slice block start width)
  rwa [hlength] at hlt

/-- A number is read where it was written. -/
theorem numberAt_of_slice {width start n : Nat} (hwidth : 0 < width) (hn : n < 256 ^ width)
    (h : slice block start width = m.endian.octets width n) : numberAt m width block start = some n := by
  have hlength := congrArg List.length h
  rw [length_slice, Endian.length_octets] at hlength
  rw [numberAt, if_pos (by omega), h, Endian.number_octets _ hn]

theorem slice_drop (block : List UInt8) (offset start length : Nat) :
    slice (block.drop offset) start length = slice block (offset + start) length := by
  rw [slice, List.drop_drop, slice]

/-- A header that lies in the block is read, each field with the number of its width. -/
theorem readHeader_of_le {offset : Nat} (h : offset + pktHeaderMin ≤ block.length) :
    ∃ packet, readHeader m (block.drop offset) = some packet ∧
      packet.sec < 2 ^ 32 ∧ packet.nsec < 2 ^ 32 ∧ packet.next < 2 ^ 32 := by
  have hlength : pktHeaderMin ≤ (block.drop offset).length := by
    rw [List.length_drop]
    omega
  have hin : ∀ width start, start + width ≤ pktHeaderMin →
      ∃ n, numberAt m width (block.drop offset) start = some n ∧ n < 256 ^ width := fun width start hle =>
    numberAt_of_le (hle.trans hlength)
  obtain ⟨sec, hsec, hsecLt⟩ := hin 4 pktSec (by decide)
  obtain ⟨nsec, hnsec, hnsecLt⟩ := hin 4 pktNsec (by decide)
  obtain ⟨snaplen, hsnaplen, _⟩ := hin 4 pktSnaplen (by decide)
  obtain ⟨mac, hmac, _⟩ := hin 2 pktMac (by decide)
  obtain ⟨next, hnext, hnextLt⟩ := hin 4 pktNextOffset (by decide)
  refine ⟨⟨sec, nsec, snaplen, mac, next⟩, ?_, hsecLt, hnsecLt, hnextLt⟩
  rw [readHeader, u32At, hsec, u32At, hnsec, u32At, hsnaplen, u16At, hmac, u32At, hnext]
  rfl

end Reads

/-! ## One packet -/

section Packet

variable {m : Machine} {block : List UInt8}

/-- What `on_frame` is called with is a piece of the block from the packet on, and its time is one an `i64` holds. -/
def IsPiece (block : List UInt8) (visit : Visit) : Prop :=
  ∀ frame time, visit.call = some (frame, time) →
    (∃ start, visit.offset ≤ start ∧ start + frame.length ≤ block.length ∧ frame = slice block start frame.length) ∧
      0 ≤ time ∧ time < 2 ^ 63

/-- The call for a packet does not panic. -/
theorem frameCall_isPiece (hfits : block.length ≤ m.usizeMax) {offset : Nat} (hoffset : offset ≤ block.length)
    {packet : PacketHeader} (hsec : packet.sec < 2 ^ 32) (hnsec : packet.nsec < 2 ^ 32) :
    ∃ call, frameCall m (block.drop offset) packet = some call ∧ IsPiece block ⟨offset, call⟩ := by
  unfold frameCall
  split
  · rename_i hmac
    dsimp only
    have hrange : packet.mac + min packet.snaplen ((block.drop offset).length - packet.mac) ≤
        (block.drop offset).length := by omega
    have hdrop : (block.drop offset).length = block.length - offset := List.length_drop
    rw [sliceRange, if_pos ⟨by omega, hrange⟩]
    refine ⟨_, rfl, ?_⟩
    rintro frame time hcall
    cases hcall
    refine ⟨⟨offset + packet.mac, Nat.le_add_right _ _, ?_, ?_⟩, by omega, by omega⟩
    · rw [slice_drop, length_slice]
      omega
    · rw [slice_drop, length_slice]
      exact congrArg (slice block (offset + packet.mac)) (by omega)
  · refine ⟨none, rfl, ?_⟩
    intro frame time hcall
    cases hcall

/-- One turn of the loop at a header that lies in the block. -/
theorem walk_turn (hfits : block.length ≤ m.usizeMax) (count : Nat) {offset : Nat}
    (h : offset + pktHeaderMin ≤ block.length) {packet : PacketHeader} {call : Option (List UInt8 × Int)}
    (hheader : readHeader m (block.drop offset) = some packet)
    (hcall : frameCall m (block.drop offset) packet = some call) :
    walk m block (count + 1) offset =
      if packet.next ≠ 0 ∧ offset + packet.next < block.length then
        (walk m block count (offset + packet.next)).map (⟨offset, call⟩ :: ·)
      else some [⟨offset, call⟩] := by
  have hin : ¬ (checkedAdd m offset pktHeaderMin).all (fun stop => stop > block.length) = true := by
    rw [checkedAdd, if_pos (h.trans hfits), Option.all_some, decide_eq_true_eq]
    omega
  rw [walk, if_neg hin, tailFrom, if_pos (by omega)]
  show (match readHeader m (block.drop offset) with
    | none => _
    | some packet => _) = _
  rw [hheader]
  dsimp only
  rw [hcall]
  show (if packet.next = 0 then _ else _) = _
  by_cases hzero : packet.next = 0
  · rw [if_pos hzero, if_neg (fun hboth => hboth.1 hzero)]
  · rw [if_neg hzero]
    by_cases hinside : offset + packet.next < block.length
    · rw [if_pos ⟨hzero, hinside⟩, checkedAdd, if_pos (by omega)]
      dsimp only
      rw [if_pos hinside]
      cases walk m block count (offset + packet.next) <;> rfl
    · rw [if_neg (fun hboth => hinside hboth.2)]
      cases hadd : checkedAdd m offset packet.next with
      | none => rfl
      | some nextOffset =>
        have heq : offset + packet.next = nextOffset := by
          unfold checkedAdd at hadd
          split at hadd
          · exact Option.some.inj hadd
          · cases hadd
        dsimp only
        rw [if_neg (heq ▸ hinside)]

/-- At a header that leaves the block the walk ends. -/
theorem walk_of_outside (count : Nat) {offset : Nat} (h : block.length < offset + pktHeaderMin) :
    walk m block count offset = some [] := by
  cases count with
  | zero => rfl
  | succ count =>
    refine if_pos ?_
    unfold checkedAdd
    split
    · rw [Option.all_some, decide_eq_true_eq]
      exact h
    · rfl

end Packet

/-! ## Any block -/

section AnyBlock

variable {m : Machine} {block : List UInt8}

/-- The walk ends without a panic; it visits headers that lie in the block, each behind the one before. -/
theorem walk_visits (hfits : block.length ≤ m.usizeMax) (count offset : Nat) :
    ∃ visits, walk m block count offset = some visits ∧ visits.length ≤ count ∧
      (visits.map Visit.offset).Pairwise (· < ·) ∧
      ∀ visit ∈ visits, offset ≤ visit.offset ∧ visit.offset + pktHeaderMin ≤ block.length ∧ IsPiece block visit := by
  induction count generalizing offset with
  | zero => exact ⟨[], rfl, Nat.le_refl _, .nil, fun _ h => absurd h List.not_mem_nil⟩
  | succ count ih =>
    by_cases hin : offset + pktHeaderMin ≤ block.length
    · obtain ⟨packet, hheader, hsec, hnsec, _⟩ := readHeader_of_le (m := m) hin
      obtain ⟨call, hcall, hpiece⟩ := frameCall_isPiece hfits (Nat.le_trans (Nat.le_add_right _ _) hin) hsec hnsec
      rw [walk_turn hfits count hin hheader hcall]
      split
      · rename_i hgo
        obtain ⟨rest, hrest, hlength, hpairwise, hvisits⟩ := ih (offset + packet.next)
        have hnext : 0 < packet.next := Nat.pos_of_ne_zero hgo.1
        refine ⟨⟨offset, call⟩ :: rest, by rw [hrest]; rfl, Nat.succ_le_succ hlength, ?_, ?_⟩
        · refine List.pairwise_cons.mpr ⟨?_, hpairwise⟩
          intro later hlater
          obtain ⟨visit, hvisit, rfl⟩ := List.mem_map.mp hlater
          have := (hvisits visit hvisit).1
          show offset < visit.offset
          omega
        · intro visit hvisit
          rcases List.mem_cons.mp hvisit with rfl | hmem
          · exact ⟨Nat.le_refl _, hin, hpiece⟩
          · obtain ⟨hle, hrest⟩ := hvisits visit hmem
            exact ⟨by omega, hrest⟩
      · refine ⟨[⟨offset, call⟩], rfl, by simp, List.pairwise_singleton _ _, ?_⟩
        intro visit hvisit
        rw [List.mem_singleton.mp hvisit]
        exact ⟨Nat.le_refl _, hin, hpiece⟩
    · rw [walk_of_outside _ (Nat.lt_of_not_le hin)]
      exact ⟨[], rfl, Nat.zero_le _, .nil, fun _ h => absurd h List.not_mem_nil⟩

end AnyBlock

/-! ## A block laid out for some frames -/

section LaidOut

variable {m : Machine} {block : List UInt8}

/-- A frame as it is stored: the time it was received at, and how far behind its header it starts. -/
structure Stored where
  sec : Nat
  nsec : Nat
  mac : Nat
  frame : List UInt8
  sec_lt : sec < 2 ^ 32
  nsec_lt : nsec < 2 ^ 32
  mac_lt : mac < 2 ^ 16
  frame_lt : frame.length < 2 ^ 32

/-- The microseconds of its time. -/
def Stored.time (stored : Stored) : Int := stored.sec * 10 ^ 6 + (stored.nsec / 1000 : Nat)

/-- The octets of a number stand at an offset. -/
def Holds (m : Machine) (block : List UInt8) (start width n : Nat) : Prop :=
  slice block start width = m.endian.octets width n

instance (m : Machine) (block : List UInt8) (start width n : Nat) : Decidable (Holds m block start width n) :=
  inferInstanceAs (Decidable (_ = _))

/-- The header and the frame of a packet stand in the block. -/
structure PacketAt (m : Machine) (block : List UInt8) (offset : Nat) (stored : Stored) (next : Nat) : Prop where
  sec_at : Holds m block (offset + pktSec) 4 stored.sec
  nsec_at : Holds m block (offset + pktNsec) 4 stored.nsec
  snaplen_at : Holds m block (offset + pktSnaplen) 4 stored.frame.length
  mac_at : Holds m block (offset + pktMac) 2 stored.mac
  next_at : Holds m block (offset + pktNextOffset) 4 next
  next_lt : next < 2 ^ 32
  inside : offset + stored.mac + stored.frame.length ≤ block.length
  frame_at : slice block (offset + stored.mac) stored.frame.length = stored.frame

/-- The packets from an offset on, each as far behind the one before as its header says. What the last header says of
a next one is left open. -/
def PacketsAt (m : Machine) (block : List UInt8) : List Stored → Nat → Prop
  | [], _ => True
  | [stored], offset => ∃ next, PacketAt m block offset stored next
  | stored :: rest, offset =>
    ∃ next, 0 < next ∧ PacketAt m block offset stored next ∧ PacketsAt m block rest (offset + next)

/-- The block holds these frames: their number, where the first header is, and the packets from there on. -/
def LaidOut (m : Machine) (block : List UInt8) (frames : List Stored) : Prop :=
  frames.length < 2 ^ 32 ∧ Holds m block blockNumPktsOffset 4 frames.length ∧
    ∃ first < 2 ^ 32, Holds m block blockFirstPktOffset 4 first ∧ PacketsAt m block frames first

theorem Holds.read {width n start : Nat} (h : Holds m block start width n) (hwidth : 0 < width) (hn : n < 256 ^ width) :
    numberAt m width block start = some n := numberAt_of_slice hwidth hn h

/-- What holds in the block holds in its tail. -/
theorem Holds.drop {width n start offset : Nat} (h : Holds m block (offset + start) width n) :
    Holds m (block.drop offset) start width n := (slice_drop block offset start width).trans h

theorem PacketAt.header_inside {offset next : Nat} {stored : Stored} (h : PacketAt m block offset stored next) :
    offset + pktHeaderMin ≤ block.length := by
  have hlength := congrArg List.length h.mac_at
  rw [length_slice, Endian.length_octets] at hlength
  have hmin : pktHeaderMin = pktMac + 2 := rfl
  omega

theorem PacketAt.readHeader {offset next : Nat} {stored : Stored} (h : PacketAt m block offset stored next) :
    readHeader m (block.drop offset) = some ⟨stored.sec, stored.nsec, stored.frame.length, stored.mac, next⟩ := by
  rw [Native.readHeader, u32At, h.sec_at.drop.read (by omega) stored.sec_lt, u32At,
    h.nsec_at.drop.read (by omega) stored.nsec_lt, u32At, h.snaplen_at.drop.read (by omega) stored.frame_lt, u16At,
    h.mac_at.drop.read (by omega) stored.mac_lt, u32At, h.next_at.drop.read (by omega) h.next_lt]
  rfl

/-- The frame of a stored packet is handed over whole. -/
theorem PacketAt.frameCall (hfits : block.length ≤ m.usizeMax) {offset next : Nat} {stored : Stored}
    (h : PacketAt m block offset stored next) :
    frameCall m (block.drop offset) ⟨stored.sec, stored.nsec, stored.frame.length, stored.mac, next⟩ =
      some (some (stored.frame, stored.time)) := by
  have hinside := h.inside
  have hdrop : (block.drop offset).length = block.length - offset := List.length_drop
  have hlength : min stored.frame.length ((block.drop offset).length - stored.mac) = stored.frame.length := by omega
  unfold Native.frameCall
  dsimp only
  rw [if_pos (by omega), hlength, sliceRange, if_pos ⟨by omega, by omega⟩, slice_drop, h.frame_at]
  rfl

/-- The walk over the stored packets. -/
theorem walk_packets (hfits : block.length ≤ m.usizeMax) {frames : List Stored} {offset : Nat}
    (h : PacketsAt m block frames offset) :
    ∃ visits, walk m block frames.length offset = some visits ∧
      visits.map Visit.call = frames.map fun stored => some (stored.frame, stored.time) := by
  induction frames generalizing offset with
  | nil => exact ⟨[], rfl, rfl⟩
  | cons stored rest ih =>
    cases rest with
    | nil =>
      obtain ⟨next, hpacket⟩ := h
      rw [List.length_singleton,
        walk_turn hfits 0 hpacket.header_inside hpacket.readHeader (hpacket.frameCall hfits)]
      refine ⟨[⟨offset, some (stored.frame, stored.time)⟩], ?_, rfl⟩
      split <;> rfl
    | cons second rest =>
      obtain ⟨next, hnext, hpacket, hrest⟩ := h
      obtain ⟨visits, hvisits, hcalls⟩ := ih hrest
      have hinside : offset + next < block.length := by
        have hsecond : ∃ next', PacketAt m block (offset + next) second next' := by
          cases rest with
          | nil => exact hrest
          | cons third rest =>
            obtain ⟨next', _, hsecond, _⟩ := hrest
            exact ⟨next', hsecond⟩
        obtain ⟨_, hsecond⟩ := hsecond
        have := hsecond.header_inside
        have hmin : pktHeaderMin = 26 := rfl
        omega
      rw [List.length_cons, walk_turn hfits _ hpacket.header_inside hpacket.readHeader (hpacket.frameCall hfits),
        if_pos ⟨by dsimp only; omega, hinside⟩]
      dsimp only
      rw [hvisits]
      exact ⟨_, rfl, congrArg (_ :: ·) hcalls⟩

end LaidOut

/-- Whatever a block holds, the walk ends without a panic. It visits at most the declared number of packets, at
headers in the block that lie farther and farther in, and hands over pieces of the block only. Of a block laid out for
some frames it hands over just these, in their order and with their times. -/
theorem walk_block_is_safe (m : Machine) (block : List UInt8) (hfits : block.length ≤ m.usizeMax) :
    ∃ visits, walkBlock m block = some visits ∧
      visits.length ≤ (u32At m block blockNumPktsOffset).getD 0 ∧
      (visits.map Visit.offset).Pairwise (· < ·) ∧
      (∀ visit ∈ visits, visit.offset + pktHeaderMin ≤ block.length ∧ IsPiece block visit) ∧
      ∀ frames, LaidOut m block frames → visits.length = frames.length ∧
        visits.filterMap Visit.call = frames.map fun stored => (stored.frame, stored.time) := by
  have hstored : ∀ frames, LaidOut m block frames → ∃ visits, walkBlock m block = some visits ∧
      visits.map Visit.call = frames.map fun stored => some (stored.frame, stored.time) := by
    rintro frames ⟨hmany, hcount, first, hlt, hfirst, hpackets⟩
    have hcountRead : u32At m block blockNumPktsOffset = some frames.length := hcount.read (by omega) hmany
    have hfirstRead : u32At m block blockFirstPktOffset = some first := hfirst.read (by omega) hlt
    rw [walkBlock, hcountRead, hfirstRead]
    exact walk_packets hfits hpackets
  have hany : ∃ visits, walkBlock m block = some visits ∧ visits.length ≤ (u32At m block blockNumPktsOffset).getD 0 ∧
      (visits.map Visit.offset).Pairwise (· < ·) ∧
      ∀ visit ∈ visits, visit.offset + pktHeaderMin ≤ block.length ∧ IsPiece block visit := by
    unfold walkBlock
    split
    · rename_i count first hcount _
      obtain ⟨visits, hwalk, hlength, hpairwise, hvisits⟩ := walk_visits hfits count first
      rw [hcount]
      exact ⟨visits, hwalk, hlength, hpairwise, fun visit hvisit => (hvisits visit hvisit).2⟩
    · exact ⟨[], rfl, Nat.zero_le _, .nil, fun _ h => absurd h List.not_mem_nil⟩
  obtain ⟨visits, hwalk, hlength, hpairwise, hvisits⟩ := hany
  refine ⟨visits, hwalk, hlength, hpairwise, hvisits, ?_⟩
  intro frames hlaidOut
  obtain ⟨visits', hwalk', hcalls⟩ := hstored frames hlaidOut
  obtain rfl : visits = visits' := Option.some.inj (hwalk.symm.trans hwalk')
  constructor
  · have := congrArg List.length hcalls
    rwa [List.length_map, List.length_map] at this
  · have hmapped : visits.filterMap Visit.call = (visits.map Visit.call).filterMap id := by
      rw [List.filterMap_map]
      rfl
    rw [hmapped, hcalls, List.filterMap_map]
    show frames.filterMap (some ∘ fun stored => (stored.frame, stored.time)) = _
    rw [List.filterMap_eq_map]

/-- Two frames on a little-endian machine, the second behind padding and where the first header says it is. -/
theorem walk_block_is_safe_two_frames :
    let m : Machine := ⟨.little, 2 ^ 64 - 1, by decide⟩
    let block := List.replicate 12 0 ++ m.endian.pack [(4, 2), (4, 20)] ++
      m.endian.pack [(4, 32), (4, 7), (4, 1500), (4, 2), (8, 0), (2, 26)] ++ [104, 105] ++ List.replicate 4 0 ++
      m.endian.pack [(4, 0), (4, 8), (4, 0), (4, 3), (8, 0), (2, 28), (2, 0)] ++ [102, 111, 111]
    ∃ visits, walkBlock m block = some visits ∧ visits.map Visit.offset = [20, 52] ∧
      visits.filterMap Visit.call = [([104, 105], 7000001), ([102, 111, 111], 8000000)] := by
  intro m block
  let first : Stored := ⟨7, 1500, 26, [104, 105], by decide, by decide, by decide, by decide⟩
  let second : Stored := ⟨8, 0, 28, [102, 111, 111], by decide, by decide, by decide, by decide⟩
  obtain ⟨visits, hwalk, _, _, _, hframes⟩ := walk_block_is_safe m block (by decide)
  have hfirst : PacketAt m block 20 first 32 := by
    constructor <;> decide
  have hsecond : PacketAt m block 52 second 0 := by
    constructor <;> decide
  have hlaidOut : LaidOut m block [first, second] :=
    ⟨by decide, by decide, 20, by decide, by decide, 32, by decide, hfirst, 0, hsecond⟩
  have hoffsets : (walkBlock m block).map (fun visits => visits.map Visit.offset) = some [20, 52] := by
    decide +kernel
  have htimes : [first, second].map (fun stored => (stored.frame, stored.time)) =
      [([104, 105], 7000001), ([102, 111, 111], 8000000)] := by
    decide
  rw [hwalk] at hoffsets
  exact ⟨visits, hwalk, Option.some.inj hoffsets, (hframes _ hlaidOut).2.trans htimes⟩

end Pirewall.Native
