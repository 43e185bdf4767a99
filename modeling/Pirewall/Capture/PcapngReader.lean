/-
# Pirewall.Capture.PcapngReader -- what `_read_pcapng` makes of any bytes

A pcapng file is read as a series of whole blocks and a rest. What a block means is stated on the bytes alone: the
section it stands in is what the blocks in front of it leave (`NgSection.after`), and a packet is the record, or the
frame skipped, that its own bytes and that section give (`frame`). One turn of the loop takes one block off the front
(`pcapngTurn_next`), stops, or raises `PcapFormatError`; a run is described by induction on what the loop generates.
-/
import Pirewall.Capture.Pcapio

namespace Pirewall

open Lib Bytes Pcapio

/-! ## Blocks -/

/-- What the blocks so far leave for the next one: the byte order, and the interfaces declared in this section. -/
structure NgSection where
  endian : Endian
  interfaces : List NgInterface

namespace Pcapng

/-- The type in a block's header. -/
def blockType (endian : Endian) (block : List UInt8) : Nat := endian.number (block.take 4)

/-- The length in a block's header. -/
def totalLength (endian : Endian) (block : List UInt8) : Nat := endian.number (slice block 4 4)

/-- What stands between a block's header and the copy of its length at its end. -/
def body (block : List UInt8) : List UInt8 := slice block 8 (block.length - 12)

/-- The byte order that the octets of a byte-order magic are in. -/
def orderOf (octets : List UInt8) : Endian :=
  if Endian.number .little octets = pcapngByteOrderMagic then .little else .big

/-- The ticks per second that an option gives. -/
def resolution : Nat × List UInt8 → Option Nat
  | (_, []) => none
  | (code, octet :: _) =>
    if code = optIfTsresol then
      some (if 128 ≤ octet.toNat then 2 ^ (octet.toNat % 128) else 10 ^ (octet.toNat % 128))
    else none

/-- The offset in seconds that an option gives. -/
def offset (endian : Endian) (option : Nat × List UInt8) : Option Int :=
  if option.1 = optIfTsoffset ∧ 8 ≤ option.2.length then some (signed64 (endian.number (option.2.take 8))) else none

/-- The interface that the body of a description declares: of each option, the last one counts. -/
def declares (endian : Endian) (body : List UInt8) : NgInterface where
  linkType := endian.number (body.take 2)
  perSecond := ((options endian (body.drop 8)).reverse.findSome? resolution).getD 1000000
  offsetSeconds := ((options endian (body.drop 8)).reverse.findSome? (offset endian)).getD 0

end Pcapng

open Pcapng

/-- The section behind a block. -/
def NgSection.after (s : NgSection) (block : List UInt8) : NgSection :=
  if blockType s.endian block = pcapngShb then ⟨orderOf (slice block 8 4), []⟩
  else if blockType s.endian block = pcapngIdb then
    { s with interfaces := s.interfaces ++ [declares s.endian (body block)] }
  else s

namespace Pcapng

/-- Blocks, each with the section it stands in. -/
def placed : NgSection → List (List UInt8) → List (NgSection × List UInt8)
  | _, [] => []
  | s, block :: blocks => (s, block) :: placed (s.after block) blocks

/-- Whether a block is an enhanced packet block or an obsolete packet block. -/
def IsPacket (p : NgSection × List UInt8) : Prop :=
  blockType p.1.endian p.2 = pcapngEpb ∨ blockType p.1.endian p.2 = pcapngOpb

instance (p : NgSection × List UInt8) : Decidable (IsPacket p) := inferInstanceAs (Decidable (_ ∨ _))

/-- The interface that a packet block names: the obsolete one has half as wide a field for it. -/
def interfaceId (p : NgSection × List UInt8) : Nat :=
  p.1.endian.number ((body p.2).take (if blockType p.1.endian p.2 = pcapngEpb then 4 else 2))

/-- A packet's timestamp, in ticks of its interface. -/
def ticks (p : NgSection × List UInt8) : Nat :=
  p.1.endian.number (slice (body p.2) 4 4) * 2 ^ 32 + p.1.endian.number (slice (body p.2) 8 4)

/-- How much of a frame was captured. -/
def captured (p : NgSection × List UInt8) : Nat := p.1.endian.number (slice (body p.2) 12 4)

/-- How long a frame was. -/
def original (p : NgSection × List UInt8) : Nat := p.1.endian.number (slice (body p.2) 16 4)

/-- Ticks as microseconds since the epoch, rounded down. -/
def micros (declared : NgInterface) (ticks : Nat) : Int :=
  ⌊((declared.offsetSeconds : ℚ) + ticks / declared.perSecond) * 1000000⌋

/-- The interface a packet block was captured on. -/
def declaredFor (p : NgSection × List UInt8) : Option NgInterface :=
  if IsPacket p then p.1.interfaces[interfaceId p]? else none

/-- The record that a block stands for, if it is an Ethernet packet. -/
def frame (p : NgSection × List UInt8) : Option PcapRecord :=
  (declaredFor p).bind fun declared =>
    if declared.linkType = linktypeEthernet then
      some ⟨slice (body p.2) 20 (captured p), micros declared (ticks p), original p⟩
    else none

/-- Whether a block is a packet of another link type. -/
def otherLink (p : NgSection × List UInt8) : Bool :=
  (declaredFor p).any fun declared => declared.linkType ≠ linktypeEthernet

/-- Whether a block is a simple packet block, which has no timestamp. -/
def simplePacket (p : NgSection × List UInt8) : Bool := blockType p.1.endian p.2 = pcapngSpb

/-- Whether a frame was cut when it was captured. -/
def cutShort (record : PcapRecord) : Bool := record.data.length < record.originalLength

/-- What is left in place of a block: its front, too short for a block or for the length in its own header. -/
def Cut (s : NgSection) (rest : List UInt8) : Prop :=
  rest ≠ [] ∧ (rest.length < 12 ∨ rest.length < totalLength (s.after rest).endian rest)

/-! ## Reading a block -/

variable {path : String} {s : PcapngStream}

/-- What the loop has not used up: the bytes read ahead, and the file behind them. -/
def unread (s : PcapngStream) : List UInt8 := s.pending ++ s.rest

/-- The section that the loop is in. -/
def sectionOf (s : PcapngStream) : NgSection := ⟨s.endian, s.interfaces⟩

theorem unpackOne_of_length {endian : Endian} {width : Nat} {raw : List UInt8} (h : raw.length = width) :
    unpackOne endian width raw = .ok (endian.number raw) := if_pos h

/-- A block's body follows its header in the file, or the file ends within it, or the length in the header is bad. -/
theorem blockBody_spec (path : String) (total : Nat) {bodyPrefix : List UInt8} (s : PcapngStream) (blockType : Nat)
    (hfront : bodyPrefix.length ≤ 4) :
    (∃ message, blockBody path total bodyPrefix s blockType = .error (.bad (.format message))) ∨
      12 ≤ total ∧ (
        (bodyPrefix ++ s.rest).length < total - 8 ∧ blockBody path total bodyPrefix s blockType = .error .cut ∨
        total - 8 ≤ (bodyPrefix ++ s.rest).length ∧ blockBody path total bodyPrefix s blockType =
          .ok (⟨blockType, (bodyPrefix ++ s.rest).take (total - 12)⟩,
            { s with rest := (bodyPrefix ++ s.rest).drop (total - 8), pending := [] })) := by
  rw [blockBody]
  by_cases hbad : total < 12 ∨ total % 4 ≠ 0 ∨ maxBlockBytes < total
  · rw [if_pos hbad]
    exact .inl ⟨_, rfl⟩
  · have htotal : 12 ≤ total := by omega
    rw [if_neg hbad]
    refine .inr ⟨htotal, ?_⟩
    dsimp only
    rw [List.length_append, List.length_take]
    by_cases hshort : min (total - 8 - bodyPrefix.length) s.rest.length < total - 8 - bodyPrefix.length
    · rw [if_pos hshort]
      exact .inl ⟨by omega, rfl⟩
    · rw [if_neg hshort]
      refine .inr ⟨by omega, ?_⟩
      have htake : bodyPrefix ++ s.rest.take (total - 8 - bodyPrefix.length) =
          (bodyPrefix ++ s.rest).take (total - 8) := by
        rw [List.take_append, List.take_of_length_le (l := bodyPrefix) (by omega)]
      have hdrop : s.rest.drop (total - 8 - bodyPrefix.length) = (bodyPrefix ++ s.rest).drop (total - 8) := by
        rw [List.drop_append, List.drop_of_length_le (l := bodyPrefix) (by omega), List.nil_append]
      have hlength : min (total - 8) (bodyPrefix.length + s.rest.length) - 4 = total - 12 := by omega
      rw [htake, hdrop, List.length_take, List.length_append, hlength, List.take_take, Nat.min_eq_left (by omega)]

theorem blockType_append {endian : Endian} {block : List UInt8} (h : 12 ≤ block.length) (rest : List UInt8) :
    blockType endian (block ++ rest) = blockType endian block := by
  rw [blockType, blockType, List.take_append_of_le_length (by omega)]

theorem totalLength_append {endian : Endian} {block : List UInt8} (h : 12 ≤ block.length) (rest : List UInt8) :
    totalLength endian (block ++ rest) = totalLength endian block := by
  rw [totalLength, totalLength, slice_append_of_le rest (by omega)]

/-- `blockBody_spec`, on a file whose first 8 bytes are the header. -/
theorem blockBody_unread (path : String) (endian : Endian) {unread bodyPrefix : List UInt8} {s : PcapngStream}
    (blockType : Nat) (hheader : 8 ≤ unread.length) (hfront : bodyPrefix.length ≤ 4)
    (hbody : bodyPrefix ++ s.rest = unread.drop 8) :
    (∃ message, blockBody path (totalLength endian unread) bodyPrefix s blockType = .error (.bad (.format message))) ∨
      unread.length < totalLength endian unread ∧
        blockBody path (totalLength endian unread) bodyPrefix s blockType = .error .cut ∨
      ∃ block rest, unread = block ++ rest ∧ 12 ≤ block.length ∧ totalLength endian block = block.length ∧
        blockBody path (totalLength endian unread) bodyPrefix s blockType =
          .ok (⟨blockType, body block⟩, { s with rest, pending := [] }) := by
  rcases blockBody_spec path (totalLength endian unread) s blockType hfront with hbad | ⟨htotal, hcut | hwhole⟩
  · exact .inl hbad
  · obtain ⟨hshort, heq⟩ := hcut
    rw [hbody, List.length_drop] at hshort
    exact .inr (.inl ⟨by omega, heq⟩)
  · obtain ⟨hfits, heq⟩ := hwhole
    rw [hbody] at heq hfits
    rw [List.length_drop] at hfits
    generalize htotalLength : totalLength endian unread = total at htotal hfits heq
    have hlength : (unread.take total).length = total := List.length_take_of_le (by omega)
    have hbodyOf : (unread.drop 8).take (total - 12) = body (unread.take total) := by
      rw [body, slice, hlength, List.drop_take, List.take_take, Nat.min_eq_left (by omega)]
    have hrest : (unread.drop 8).drop (total - 8) = unread.drop total := by
      rw [List.drop_drop, Nat.add_sub_cancel' (by omega)]
    refine .inr (.inr ⟨unread.take total, unread.drop total, (List.take_append_drop total unread).symm, ?_, ?_, ?_⟩)
    · rwa [hlength]
    · rw [← totalLength_append (by rwa [hlength]) (unread.drop total), List.take_append_drop, hlength, htotalLength]
    · rw [heq, hbodyOf, hrest]

theorem after_endian (s : NgSection) (block : List UInt8) :
    (s.after block).endian = if blockType s.endian block = pcapngShb then orderOf (slice block 8 4) else s.endian := by
  rw [NgSection.after]
  split_ifs
  · rfl
  · rfl
  · rfl

/-- A block whose header gives its length, in the byte order that holds behind it. -/
structure Whole (s : NgSection) (block : List UInt8) : Prop where
  header : 12 ≤ block.length
  length : totalLength (s.after block).endian block = block.length

/-- The first half of a turn: nothing is left, or the front of a block, or something malformed; or a whole block is
taken off. -/
inductive Taken (path : String) (s : PcapngStream) : Except NoBlock (NgBlock × PcapngStream) → Prop where
  | finished (h : unread s = []) : Taken path s (.error .finished)
  | cut (h : Cut (sectionOf s) (unread s)) : Taken path s (.error .cut)
  | bad (message : String) : Taken path s (.error (.bad (.format message)))
  | block {block rest : List UInt8} (h : unread s = block ++ rest) (hwhole : Whole (sectionOf s) block) :
      Taken path s (.ok (⟨blockType s.endian block, body block⟩,
        { rest, pending := [], stats := s.stats, endian := ((sectionOf s).after block).endian
          interfaces := if blockType s.endian block = pcapngShb then [] else s.interfaces }))

theorem sectionOrder_spec (path : String) (order : List UInt8) :
    sectionOrder path order = .ok (orderOf order) ∨
      ∃ message, sectionOrder path order = .error (.bad (.format message)) := by
  rw [sectionOrder, orderOf]
  split_ifs
  · exact .inl rfl
  · exact .inl rfl
  · exact .inr ⟨_, rfl⟩

theorem after_append {block : List UInt8} (s : NgSection) (h : 12 ≤ block.length) (rest : List UInt8) :
    (s.after (block ++ rest)).endian = (s.after block).endian := by
  rw [after_endian, after_endian, blockType_append h, slice_append_of_le rest (by omega)]

/-- With its header read, a block is taken off. -/
theorem taken_blockBody (path : String) {bodyPrefix : List UInt8} (s' : PcapngStream) (hheader : 8 ≤ (unread s).length)
    (hfront : bodyPrefix.length ≤ 4) (hbody : bodyPrefix ++ s'.rest = (unread s).drop 8)
    (hendian : s'.endian = ((sectionOf s).after (unread s)).endian)
    (hinterfaces : s'.interfaces = if blockType s.endian (unread s) = pcapngShb then [] else s.interfaces)
    (hstats : s'.stats = s.stats) :
    Taken path s (blockBody path (totalLength s'.endian (unread s)) bodyPrefix s' (blockType s.endian (unread s))) := by
  rcases blockBody_unread path s'.endian (blockType s.endian (unread s)) hheader hfront hbody
    with ⟨message, hbad⟩ | ⟨hshort, hcut⟩ | ⟨block, rest, heq, hsize, hlength, hblock⟩
  · rw [hbad]
    exact .bad message
  · have hne : unread s ≠ [] := List.length_pos_iff.mp (by omega)
    rw [hcut]
    exact .cut ⟨hne, .inr (hendian ▸ hshort)⟩
  · have htype : blockType s.endian (unread s) = blockType s.endian block := heq ▸ blockType_append hsize rest
    have hafter : s'.endian = ((sectionOf s).after block).endian := by
      rw [hendian, heq, after_append _ hsize]
    rw [htype] at hinterfaces
    rw [hblock, htype, hinterfaces, hstats, hafter]
    exact .block heq ⟨hsize, hafter ▸ hlength⟩

theorem nextBlock_spec (path : String) (hpending : s.pending.length ≤ 8) : Taken path s (nextBlock path s) := by
  -- what was pending stands before the rest, so the two reads are one of what is unread
  have hraw : s.pending ++ s.rest.take (8 - s.pending.length) = (unread s).take 8 := by
    rw [unread, List.take_append, List.take_of_length_le hpending]
  have hrest : s.rest.drop (8 - s.pending.length) = (unread s).drop 8 := by
    rw [unread, List.drop_append, List.drop_of_length_le hpending, List.nil_append]
  rw [nextBlock]
  dsimp only
  rw [hraw, hrest, List.length_take]
  by_cases hnil : unread s = []
  · rw [hnil]
    exact .finished hnil
  have hpos : 0 < (unread s).length := List.length_pos_iff.mpr hnil
  have hisEmpty : ((unread s).take 8).isEmpty = false := by
    rw [List.isEmpty_eq_false_iff, ← List.length_pos_iff, List.length_take]
    omega
  rw [hisEmpty, if_neg Bool.false_ne_true]
  by_cases hheader : min 8 (unread s).length < 8
  · rw [if_pos hheader]
    exact .cut ⟨hnil, .inl (by omega)⟩
  rw [if_neg hheader]
  have hlong : 8 ≤ (unread s).length := by omega
  -- the type is read in the order of the section so far
  have htype : unpackOne s.endian 4 (((unread s).take 8).take 4) = .ok (blockType s.endian (unread s)) := by
    rw [List.take_take, blockType]
    exact unpackOne_of_length (by rw [List.length_take]; omega)
  have htotal (endian : Endian) :
      unpackOne endian 4 (slice ((unread s).take 8) 4 4) = .ok (totalLength endian (unread s)) := by
    rw [slice_take_of_le _ (by decide)]
    exact unpackOne_of_length (by rw [length_slice]; omega)
  rw [htype]
  dsimp only
  by_cases hshb : blockType s.endian (unread s) = pcapngShb
  · -- a section header: its byte order holds for its own length already
    have horder : ((unread s).drop 8).take 4 = slice (unread s) 8 4 := rfl
    rw [if_pos hshb, horder, length_slice]
    by_cases hmagic : min 4 ((unread s).length - 8) < 4
    · rw [if_pos hmagic]
      exact .cut ⟨hnil, .inl (by omega)⟩
    rw [if_neg hmagic]
    rcases sectionOrder_spec path (slice (unread s) 8 4) with hok | ⟨message, hbad⟩
    · have hbody : slice (unread s) 8 4 ++ ((unread s).drop 8).drop 4 = (unread s).drop 8 :=
        List.take_append_drop 4 _
      have hendian : orderOf (slice (unread s) 8 4) = ((sectionOf s).after (unread s)).endian :=
        ((after_endian _ _).trans (if_pos hshb)).symm
      have hfront : (slice (unread s) 8 4).length ≤ 4 := by
        rw [length_slice]
        omega
      rw [hok]
      dsimp only
      rw [htotal]
      exact taken_blockBody path
        { s with rest := ((unread s).drop 8).drop 4, endian := orderOf (slice (unread s) 8 4), interfaces := [] }
        hlong hfront hbody hendian (if_pos hshb).symm rfl
    · rw [hbad]
      exact .bad message
  -- any other block keeps the section and its order
  · have hendian : s.endian = ((sectionOf s).after (unread s)).endian :=
      ((after_endian _ _).trans (if_neg hshb)).symm
    have hfront : ([] : List UInt8).length ≤ 4 := Nat.zero_le 4
    rw [if_neg hshb, htotal]
    exact taken_blockBody path { s with rest := (unread s).drop 8 } hlong hfront (List.nil_append _) hendian
      (if_neg hshb).symm rfl

/-! ## What a block is for -/

theorem readOption_spec (path : String) (endian : Endian) (interface : NgInterface) (option : Nat × List UInt8) :
    (∃ message, readOption path endian interface option = .error (.format message)) ∨
      readOption path endian interface option = .ok { interface with
        perSecond := (resolution option).getD interface.perSecond
        offsetSeconds := (offset endian option).getD interface.offsetSeconds } := by
  obtain ⟨code, value⟩ := option
  rw [readOption]
  dsimp only
  by_cases hresolution : code = optIfTsresol ∧ 1 ≤ value.length
  · obtain ⟨rfl, hvalue⟩ := hresolution
    rw [if_pos ⟨rfl, hvalue⟩]
    match value, hvalue with
    | octet :: value, _ =>
      dsimp only [List.head?_cons]
      by_cases hexponent : 30 < octet.toNat % 128
      · rw [if_pos hexponent]
        exact .inl ⟨_, rfl⟩
      · rw [if_neg hexponent]
        exact .inr rfl
  · rw [if_neg hresolution]
    have hnone : resolution (code, value) = none := by
      cases value with
      | nil => rfl
      | cons octet value => exact if_neg fun hcode => hresolution ⟨hcode, Nat.succ_pos _⟩
    rw [hnone, offset]
    by_cases hoffset : code = optIfTsoffset ∧ 8 ≤ value.length
    · rw [if_pos hoffset, if_pos hoffset, unpackOne_of_length (List.length_take_of_le hoffset.2)]
      exact .inr rfl
    · rw [if_neg hoffset, if_neg hoffset]
      exact .inr rfl

/-- The last option of a kind decides. -/
theorem foldlM_readOption (path : String) (endian : Endian) (given : List (Nat × List UInt8))
    (interface : NgInterface) :
    (∃ message, given.foldlM (readOption path endian) interface = .error (.format message)) ∨
      given.foldlM (readOption path endian) interface = .ok { interface with
        perSecond := (given.reverse.findSome? resolution).getD interface.perSecond
        offsetSeconds := (given.reverse.findSome? (offset endian)).getD interface.offsetSeconds } := by
  induction given generalizing interface with
  | nil => exact .inr rfl
  | cons option given ih =>
    rw [List.foldlM_cons]
    rcases readOption_spec path endian interface option with ⟨message, hbad⟩ | hok
    · rw [hbad]
      exact .inl ⟨message, rfl⟩
    · rw [hok]
      refine (ih _).imp (fun h => h) fun h => h.trans ?_
      dsimp only
      rw [List.reverse_cons, List.findSome?_append, List.findSome?_append, Option.getD_or, Option.getD_or,
        List.findSome?_singleton, List.findSome?_singleton]

theorem interface_spec (path : String) (body : List UInt8) (endian : Endian) (stats : PcapStats) :
    ∃ linkTypes, interface path body endian stats = (.ok (declares endian body), { stats with linkTypes }) ∨
      ∃ message, interface path body endian stats = (.error (.format message), { stats with linkTypes }) := by
  rw [interface]
  by_cases hshort : body.length < 8
  · rw [if_pos hshort]
    exact ⟨stats.linkTypes, .inr ⟨_, rfl⟩⟩
  · rw [if_neg hshort, unpackOne_of_length (List.length_take_of_le (by omega))]
    refine ⟨stats.linkTypes.insert (endian.number (body.take 2)), ?_⟩
    rcases foldlM_readOption path endian (options endian (body.drop 8)) ⟨endian.number (body.take 2), 1000000, 0⟩
      with ⟨message, hbad⟩ | hok
    · exact .inr ⟨message, congrArg (·, _) hbad⟩
    · exact .inl (congrArg (·, _) hok)

theorem resolution_pos {option : Nat × List UInt8} {perSecond : Nat} (h : resolution option = some perSecond) :
    0 < perSecond := by
  obtain ⟨code, value⟩ := option
  cases value with
  | nil => exact nomatch h
  | cons octet value =>
    rw [resolution] at h
    split at h
    · obtain rfl := Option.some.inj h
      split
      · exact Nat.two_pow_pos _
      · exact Nat.pow_pos (by decide)
    · exact nomatch h

/-- The option walk stays within the bytes it is given, and takes four of them at least with each option. -/
theorem options_within (endian : Endian) (raw : List UInt8) :
    4 * (options endian raw).length ≤ raw.length ∧ ∀ option ∈ options endian raw, option.2 <:+: raw := by
  induction raw using options.induct endian with
  | case1 raw hshort =>
    rw [options, if_pos hshort]
    exact ⟨Nat.zero_le _, nofun⟩
  | case2 raw hlong code hend =>
    rw [options, if_neg hlong]
    dsimp only
    rw [if_pos hend]
    exact ⟨Nat.zero_le _, nofun⟩
  | case3 raw hlong code length hend ih =>
    obtain ⟨hlength, hinside⟩ := ih
    rw [options, if_neg hlong]
    dsimp only
    rw [if_neg hend]
    rw [List.length_drop] at hlength
    constructor
    · show 4 * ((options endian (raw.drop (4 + length + (4 - length % 4) % 4))).length + 1) ≤ raw.length
      omega
    · intro option hoption
      rcases List.mem_cons.mp hoption with rfl | hoption
      · exact (List.take_prefix _ _).isInfix.trans (List.drop_suffix _ _).isInfix
      · exact (hinside option hoption).trans (List.drop_suffix _ _).isInfix

/-- Whatever a description declares, the reader can divide by its resolution. -/
theorem declares_pos (endian : Endian) (body : List UInt8) : 0 < (declares endian body).perSecond := by
  show 0 < Option.getD _ _
  cases h : (options endian (body.drop 8)).reverse.findSome? resolution with
  | none => exact (by decide : 0 < 1000000)
  | some perSecond =>
    obtain ⟨option, -, hoption⟩ := List.exists_of_findSome?_eq_some h
    exact resolution_pos hoption

/-- A packet names an interface its section declares, and holds the octets it says were captured. -/
def InBounds (p : NgSection × List UInt8) : Prop :=
  IsPacket p → ∃ declared, p.1.interfaces[interfaceId p]? = some declared ∧ 20 + captured p ≤ (body p.2).length

theorem packetHead_spec (path : String) (p : NgSection × List UInt8) :
    (∃ message, packetHead path (blockType p.1.endian p.2) (body p.2) p.1.endian = .error (.format message)) ∨
      20 ≤ (body p.2).length ∧ packetHead path (blockType p.1.endian p.2) (body p.2) p.1.endian =
        .ok (interfaceId p, p.1.endian.number (slice (body p.2) 4 4), p.1.endian.number (slice (body p.2) 8 4),
          captured p, original p) := by
  have hfield {start : Nat} (h : start + 4 ≤ 20) :
      (((body p.2).take 20).drop start).take 4 = slice (body p.2) start 4 := slice_take_of_le _ h
  have hunpack (widths : List Nat) (hsum : widths.sum = 20) (hlong : 20 ≤ (body p.2).length) :
      unpack p.1.endian widths ((body p.2).take 20) = .ok (p.1.endian.numbers widths ((body p.2).take 20)) :=
    if_pos ((List.length_take_of_le hlong).trans hsum.symm)
  rw [packetHead]
  by_cases hlong : 20 ≤ (body p.2).length
  · by_cases hepb : blockType p.1.endian p.2 = pcapngEpb
    · rw [if_pos hepb, if_neg (not_lt.mpr hlong), hunpack _ rfl hlong]
      refine .inr ⟨hlong, ?_⟩
      simp only [Endian.numbers, List.drop_drop, List.take_take]
      rw [hfield (by decide), hfield (by decide), hfield (by decide), hfield (by decide), interfaceId, if_pos hepb]
      rfl
    · rw [if_neg hepb, if_neg (not_lt.mpr hlong), hunpack _ rfl hlong]
      refine .inr ⟨hlong, ?_⟩
      simp only [Endian.numbers, List.drop_drop, List.take_take]
      rw [hfield (by decide), hfield (by decide), hfield (by decide), hfield (by decide), interfaceId, if_neg hepb]
      rfl
  · by_cases hepb : blockType p.1.endian p.2 = pcapngEpb
    · rw [if_pos hepb, if_pos (not_le.mp hlong)]
      exact .inl ⟨_, rfl⟩
    · rw [if_neg hepb, if_pos (not_le.mp hlong)]
      exact .inl ⟨_, rfl⟩

/-- Whole seconds in front, the floor of the rest. -/
theorem micros_eq (declared : NgInterface) (ticks : Nat) :
    micros declared ticks = declared.offsetSeconds * 1000000 + (ticks * 1000000 / declared.perSecond : Nat) := by
  have hsplit : ((declared.offsetSeconds : ℚ) + ticks / declared.perSecond) * 1000000 =
      ((declared.offsetSeconds * 1000000 : ℤ) : ℚ) + ((ticks * 1000000 : ℕ) : ℚ) / declared.perSecond := by
    push_cast
    ring
  rw [micros, hsplit, Int.floor_intCast_add, Rat.floor_natCast_div_natCast]
  rfl

/-- The statistics behind a block. -/
def counted (p : NgSection × List UInt8) (stats : PcapStats) : PcapStats :=
  { stats with
    records := stats.records + (frame p).toList.length
    truncatedRecords := stats.truncatedRecords + (frame p).toList.countP cutShort
    skippedNonEthernet := stats.skippedNonEthernet + if otherLink p then 1 else 0
    skippedWithoutTimestamp := stats.skippedWithoutTimestamp + if simplePacket p then 1 else 0 }

theorem countP_cutShort (record : PcapRecord) :
    [record].countP cutShort = if record.data.length < record.originalLength then 1 else 0 := by
  rw [List.countP_singleton, cutShort]
  simp only [decide_eq_true_eq]

theorem packetBlock_spec (path : String) {p : NgSection × List UInt8} (hpacket : IsPacket p)
    (hpos : ∀ interface ∈ p.1.interfaces, 0 < interface.perSecond) (stats : PcapStats) :
    (∃ message, packetBlock path (blockType p.1.endian p.2) (body p.2) p.1.endian p.1.interfaces stats =
      .error (.format message)) ∨
      InBounds p ∧ packetBlock path (blockType p.1.endian p.2) (body p.2) p.1.endian p.1.interfaces stats =
        .ok (frame p, counted p stats) := by
  rw [packetBlock]
  rcases packetHead_spec path p with ⟨message, hbad⟩ | ⟨hlong, hhead⟩
  · rw [hbad]
    exact .inl ⟨message, rfl⟩
  rw [hhead]
  dsimp only
  -- an interface that was not declared
  by_cases hinterface : p.1.interfaces.length ≤ interfaceId p
  · rw [if_pos hinterface]
    exact .inl ⟨_, rfl⟩
  rw [if_neg hinterface]
  -- a frame that does not fit into the block, or into memory
  by_cases hcaptured : (body p.2).length - 20 < captured p ∨ maxRecordBytes < captured p
  · rw [if_pos hcaptured]
    exact .inl ⟨_, rfl⟩
  rw [if_neg hcaptured]
  obtain ⟨declared, hdeclared⟩ : ∃ declared, p.1.interfaces[interfaceId p]? = some declared :=
    ⟨_, List.getElem?_eq_getElem (not_le.mp hinterface)⟩
  refine .inr ⟨fun _ => ⟨declared, hdeclared, by omega⟩, ?_⟩
  have hfor : declaredFor p = some declared := (if_pos hpacket).trans hdeclared
  have hsimple : simplePacket p = false := by
    refine decide_eq_false fun hspb => ?_
    rcases hpacket with hepb | hopb
    · exact absurd (hepb.symm.trans hspb) (by decide)
    · exact absurd (hopb.symm.trans hspb) (by decide)
  rw [hdeclared]
  dsimp only
  -- a frame of another link type is counted and not yielded
  by_cases hlink : declared.linkType = linktypeEthernet
  · have hframe : frame p =
        some ⟨slice (body p.2) 20 (captured p), micros declared (ticks p), original p⟩ := by
      rw [frame, hfor]
      exact if_pos hlink
    have hother : otherLink p = false := by
      rw [otherLink, hfor]
      exact decide_eq_false (not_not.mpr hlink)
    have hne : declared.perSecond ≠ 0 := (hpos declared (List.mem_of_getElem? hdeclared)).ne'
    rw [if_neg (not_not.mpr hlink), floorToUs, if_neg hne]
    rw [counted, hframe, hother, hsimple, Option.toList_some, countP_cutShort, micros_eq]
    rfl
  · have hframe : frame p = none := by
      rw [frame, hfor]
      exact if_neg hlink
    have hother : otherLink p = true := by
      rw [otherLink, hfor]
      exact decide_eq_true hlink
    rw [if_pos hlink, counted, hframe, hother, hsimple]
    rfl

theorem frame_of_not_packet {p : NgSection × List UInt8} (h : ¬IsPacket p) : frame p = none := by
  rw [frame, declaredFor, if_neg h]
  rfl

theorem counted_of_not_packet {p : NgSection × List UInt8} (h : ¬IsPacket p) (stats : PcapStats) :
    counted p stats =
      { stats with skippedWithoutTimestamp := stats.skippedWithoutTimestamp + if simplePacket p then 1 else 0 } := by
  have hother : otherLink p = false := by
    rw [otherLink, declaredFor, if_neg h]
    rfl
  rw [counted, frame_of_not_packet h, hother]
  rfl

/-! ## Turns -/

/-- What the loop counts on: no more than a header was read ahead, and no interface has a resolution of 0. -/
structure Ready (s : PcapngStream) : Prop where
  pending : s.pending.length ≤ 8
  interfaces : ∀ interface ∈ s.interfaces, 0 < interface.perSecond

/-- One turn: it stops where nothing or the front of a block is left, raises `PcapFormatError`, or takes a block off
the front and does with it what is due. -/
inductive Turned (s : PcapngStream) : Turn PcapngStream ReadError PcapRecord → Prop where
  | finished (h : unread s = []) : Turned s (.stop s)
  | cut (h : Cut (sectionOf s) (unread s)) :
      Turned s (.stop { s with stats := { s.stats with truncatedTail := true } })
  | raise (message : String) (linkTypes : List Nat) {s' : PcapngStream} (h : s'.stats = { s.stats with linkTypes }) :
      Turned s (.raise (.format message) s')
  | block (linkTypes : List Nat) {block rest : List UInt8} (h : unread s = block ++ rest)
      (hwhole : Whole (sectionOf s) block) (hbounds : InBounds (sectionOf s, block)) :
      Turned s (.next (frame (sectionOf s, block)).toList
        { rest, pending := [], endian := ((sectionOf s).after block).endian
          interfaces := ((sectionOf s).after block).interfaces
          stats := counted (sectionOf s, block) { s.stats with linkTypes } })

/-- A block that is no packet is taken off; only a simple packet counts for something. -/
theorem turned_plain {block rest : List UInt8} (h : unread s = block ++ rest) (hwhole : Whole (sectionOf s) block)
    (hepb : blockType s.endian block ≠ pcapngEpb) (hopb : blockType s.endian block ≠ pcapngOpb)
    (linkTypes : List Nat) :
    Turned s (.next [] { rest, pending := [], endian := ((sectionOf s).after block).endian
                         interfaces := ((sectionOf s).after block).interfaces
                         stats := { s.stats with
                           linkTypes
                           skippedWithoutTimestamp := s.stats.skippedWithoutTimestamp +
                             if blockType s.endian block = pcapngSpb then 1 else 0 } }) := by
  have hnot : ¬IsPacket (sectionOf s, block) := not_or.mpr ⟨hepb, hopb⟩
  have hnext := Turned.block linkTypes h hwhole fun hpacket => absurd hpacket hnot
  have hsimple : (if simplePacket (sectionOf s, block) then 1 else 0) =
      if blockType s.endian block = pcapngSpb then 1 else 0 := by
    rw [simplePacket]
    simp only [decide_eq_true_eq]
    rfl
  rw [frame_of_not_packet hnot, counted_of_not_packet hnot, hsimple] at hnext
  exact hnext

theorem handleBlock_spec (path : String) (hready : Ready s) {block rest : List UInt8} (h : unread s = block ++ rest)
    (hwhole : Whole (sectionOf s) block) :
    Turned s (handleBlock path ⟨blockType s.endian block, body block⟩
      { rest, pending := [], stats := s.stats, endian := ((sectionOf s).after block).endian
        interfaces := if blockType s.endian block = pcapngShb then [] else s.interfaces }) := by
  have hplain := turned_plain h hwhole
  rw [handleBlock]
  by_cases hshb : blockType s.endian block = pcapngShb
  · have hafter : (sectionOf s).after block = ⟨orderOf (slice block 8 4), []⟩ := if_pos hshb
    rw [hshb, hafter] at hplain
    dsimp only
    rw [hshb, if_neg (by decide), if_neg (by decide), if_neg (by decide), if_pos rfl, hafter]
    exact hplain (by decide) (by decide) s.stats.linkTypes
  by_cases hidb : blockType s.endian block = pcapngIdb
  · have hafter : (sectionOf s).after block = ⟨s.endian, s.interfaces ++ [declares s.endian (body block)]⟩ :=
      (if_neg hshb).trans (if_pos hidb)
    rw [hidb, hafter] at hplain
    dsimp only
    rw [if_pos hidb, if_neg hshb, hafter]
    obtain ⟨linkTypes, hok | ⟨message, hbad⟩⟩ := interface_spec path (body block) s.endian s.stats
    · rw [hok]
      exact hplain (by decide) (by decide) linkTypes
    · rw [hbad]
      exact .raise message _ rfl
  have hafter : (sectionOf s).after block = sectionOf s := (if_neg hshb).trans (if_neg hidb)
  rw [hafter] at hplain ⊢
  dsimp only
  rw [if_neg hidb, if_neg hshb]
  by_cases hpacket : blockType s.endian block = pcapngEpb ∨ blockType s.endian block = pcapngOpb
  · rw [if_pos hpacket]
    have hspec := packetBlock_spec path (p := (sectionOf s, block)) hpacket hready.interfaces s.stats
    dsimp only [sectionOf] at hspec ⊢
    rcases hspec with ⟨message, hbad⟩ | ⟨hbounds, hok⟩
    · rw [hbad]
      exact .raise message _ rfl
    · rw [hok]
      have hnext := Turned.block s.stats.linkTypes h hwhole hbounds
      rw [hafter] at hnext
      exact hnext
  · rw [if_neg hpacket]
    obtain ⟨hepb, hopb⟩ := not_or.mp hpacket
    have hnext := hplain hepb hopb s.stats.linkTypes
    by_cases hspb : blockType s.endian block = pcapngSpb
    · rw [if_pos hspb] at hnext ⊢
      exact hnext
    · rw [if_neg hspb] at hnext ⊢
      exact hnext

/-- One turn of the loop. -/
theorem pcapngTurn_spec (path : String) (hready : Ready s) : Turned s (pcapngTurn path s) := by
  have htaken := nextBlock_spec path hready.pending
  rw [pcapngTurn]
  generalize nextBlock path s = taken at htaken
  cases htaken with
  | finished h => exact .finished h
  | cut h => exact .cut h
  | bad message => exact .raise message s.stats.linkTypes rfl
  | block h hwhole => exact handleBlock_spec path hready h hwhole

theorem ready_after {s : NgSection} (h : ∀ interface ∈ s.interfaces, 0 < interface.perSecond) (block : List UInt8) :
    ∀ interface ∈ (s.after block).interfaces, 0 < interface.perSecond := by
  intro interface hinterface
  rw [NgSection.after] at hinterface
  split_ifs at hinterface
  · exact absurd hinterface List.not_mem_nil
  · rcases List.mem_append.mp hinterface with hold | hnew
    · exact h interface hold
    · obtain rfl := List.mem_singleton.mp hnew
      exact declares_pos _ _
  · exact h interface hinterface

/-- A turn that goes on has less of the file in front of it. -/
theorem pcapngTurn_advances (path : String) :
    AdvancesIn (pcapngTurn path) Ready fun s => (unread s).length := by
  intro s out s' hready hturn
  have hturned := pcapngTurn_spec path hready
  rw [hturn] at hturned
  cases hturned with
  | @block linkTypes block rest h hwhole hbounds =>
    refine ⟨⟨Nat.zero_le 8, ready_after hready.interfaces _⟩, ?_⟩
    have hheader := hwhole.header
    show rest.length < (unread s).length
    rw [h, List.length_append]
    omega

/-! ## Runs -/

/-- The section behind some blocks. -/
def behind (s : NgSection) (blocks : List (List UInt8)) : NgSection := blocks.foldl NgSection.after s

/-- What reading `bytes` from a section on comes to, in whole blocks and a rest: the records that the blocks stand
for, everything counted once, and an end that the rest accounts for. -/
structure Describes (s : NgSection) (before : PcapStats) (bytes : List UInt8) (reading : Reading)
    (blocks : List (List UInt8)) (rest : List UInt8) : Prop where
  split : bytes = blocks.flatten ++ rest
  whole : ∀ p ∈ placed s blocks, Whole p.1 p.2
  bounds : ∀ p ∈ placed s blocks, InBounds p
  yielded : reading.yielded = (placed s blocks).filterMap frame
  records : reading.final.records = before.records + reading.yielded.length
  truncatedRecords : reading.final.truncatedRecords = before.truncatedRecords + reading.yielded.countP cutShort
  skippedNonEthernet :
    reading.final.skippedNonEthernet = before.skippedNonEthernet + (placed s blocks).countP otherLink
  skippedWithoutTimestamp :
    reading.final.skippedWithoutTimestamp = before.skippedWithoutTimestamp + (placed s blocks).countP simplePacket
  ending :
    reading.error = none ∧ reading.final.truncatedTail = before.truncatedTail ∧ rest = [] ∨
      reading.error = none ∧ reading.final.truncatedTail = true ∧ Cut (behind s blocks) rest ∨
      ∃ message, reading.error = some (.format message) ∧ reading.final.truncatedTail = before.truncatedTail

/-- What the loop generates is described, by induction on its turns. -/
theorem describes_of_generates (path : String) {g : Generated PcapngStream ReadError PcapRecord}
    (h : Generates (pcapngTurn path) s g) (hready : Ready s) :
    ∃ blocks rest, Describes (sectionOf s) s.stats (unread s) ⟨g.yielded, g.error, g.final.stats⟩ blocks rest := by
  induction h with
  | @stop s s' hturn =>
    have hturned := pcapngTurn_spec path hready
    rw [hturn] at hturned
    refine ⟨[], unread s, ?_⟩
    cases hturned with
    -- the stream is used up, or ends within a block: nothing more is described
    | finished hnil => exact ⟨rfl, nofun, nofun, rfl, rfl, rfl, rfl, rfl, .inl ⟨rfl, rfl, hnil⟩⟩
    | cut hcut => exact ⟨rfl, nofun, nofun, rfl, rfl, rfl, rfl, rfl, .inr (.inl ⟨rfl, rfl, hcut⟩)⟩
  | @raise s s' e hturn =>
    have hturned := pcapngTurn_spec path hready
    rw [hturn] at hturned
    refine ⟨[], unread s, ?_⟩
    cases hturned with
    | raise message linkTypes hstats =>
      refine ⟨rfl, nofun, nofun, rfl, ?_, ?_, ?_, ?_, .inr (.inr ⟨message, rfl, ?_⟩)⟩
      · rw [hstats]
        rfl
      · rw [hstats]
        rfl
      · rw [hstats]
        rfl
      · rw [hstats]
        rfl
      · rw [hstats]
  | @next s s' out g hturn _ ih =>
    have hturned := pcapngTurn_spec path hready
    obtain ⟨hready', -⟩ := pcapngTurn_advances path s out s' hready hturn
    obtain ⟨blocks, more, hdescribes⟩ := ih hready'
    rw [hturn] at hturned
    cases hturned with
    | @block linkTypes block rest heq hwhole hbounds =>
      -- one block more, and what the rest of the run describes
      refine ⟨block :: blocks, more, ?_⟩
      have hsplit : rest = blocks.flatten ++ more := hdescribes.split
      have hyielded : g.yielded = (placed ((sectionOf s).after block) blocks).filterMap frame := hdescribes.yielded
      -- a block is a record or none
      have hall : (frame (sectionOf s, block)).toList ++ g.yielded =
          (placed (sectionOf s) (block :: blocks)).filterMap frame := by
        rw [placed, List.filterMap_cons, hyielded]
        cases frame (sectionOf s, block) with
        | none => rfl
        | some record => rfl
      constructor
      · rw [heq, hsplit, List.flatten_cons, List.append_assoc]
      · intro p hp
        rcases List.mem_cons.mp hp with rfl | hp
        · exact hwhole
        · exact hdescribes.whole p hp
      · intro p hp
        rcases List.mem_cons.mp hp with rfl | hp
        · exact hbounds
        · exact hdescribes.bounds p hp
      · exact hall
      · refine hdescribes.records.trans ?_
        dsimp only [counted]
        rw [List.length_append, Nat.add_assoc]
      · refine hdescribes.truncatedRecords.trans ?_
        dsimp only [counted]
        rw [List.countP_append, Nat.add_assoc]
      · refine hdescribes.skippedNonEthernet.trans ?_
        rw [placed, List.countP_cons, Nat.add_comm (List.countP _ _), ← Nat.add_assoc]
        rfl
      · refine hdescribes.skippedWithoutTimestamp.trans ?_
        rw [placed, List.countP_cons, Nat.add_comm (List.countP _ _), ← Nat.add_assoc]
        rfl
      · exact hdescribes.ending

/-- Every block takes 12 bytes at least. -/
theorem length_blocks {s : NgSection} {blocks : List (List UInt8)} (h : ∀ p ∈ placed s blocks, Whole p.1 p.2) :
    12 * blocks.length ≤ blocks.flatten.length := by
  induction blocks generalizing s with
  | nil => exact Nat.zero_le _
  | cons block blocks ih =>
    have hhead : 12 ≤ block.length := (h _ List.mem_cons_self).header
    have htail := ih fun p hp => h p (List.mem_cons_of_mem _ hp)
    rw [List.flatten_cons, List.length_append, List.length_cons]
    omega

/-- With the first bytes of a file read ahead, the loop comes to an end within its turns. -/
theorem readPcapng_generates (path : String) (stream : List UInt8) {head : List UInt8} (hhead : head.length = 4) :
    ∃ g, readPcapng path stream head = some ⟨g.yielded, g.error, g.final.stats⟩ ∧
      Ready ⟨stream, head, .little, [], {}⟩ ∧ Generates (pcapngTurn path) ⟨stream, head, .little, [], {}⟩ g := by
  have hready : Ready ⟨stream, head, .little, [], {}⟩ := ⟨hhead.trans_le (by decide), nofun⟩
  have hturns : (unread ⟨stream, head, .little, [], {}⟩).length < stream.length + 5 := by
    show (head ++ stream).length < stream.length + 5
    rw [List.length_append]
    omega
  obtain ⟨g, hg, hgenerates⟩ := generate_total (pcapngTurn_advances path) hready hturns
  refine ⟨g, ?_, hready, hgenerates⟩
  rw [readPcapng, hg]
  rfl

end Pcapng

/-- Whatever bytes follow a section header's type, the reader comes to an end: after whole blocks and nothing, or with
`truncated_tail` behind them, or with `PcapFormatError`. It yields the frame of every Ethernet packet among the
blocks, a slice of the block's body with the time its own interface gives it, and counts all it skips; and no option
it looks at reaches out of its body. -/
theorem pcapng_reader_total (path : String) (bytes : List UInt8) (h : bytes.take 4 = [0x0A, 0x0D, 0x0D, 0x0A]) :
    ∃ reading blocks rest, read path bytes = some reading ∧ 12 * blocks.length ≤ bytes.length ∧
      Describes ⟨.little, []⟩ {} bytes reading blocks rest ∧
      ∀ p ∈ placed ⟨.little, []⟩ blocks, ∀ option ∈ options p.1.endian ((body p.2).drop 8), option.2 <:+: body p.2 := by
  have hhead : (bytes.take 4).length = 4 := congrArg List.length h
  obtain ⟨g, hg, hready, hgenerates⟩ := readPcapng_generates path (bytes.drop 4) hhead
  obtain ⟨blocks, rest, hdescribes⟩ := describes_of_generates path hgenerates hready
  have hunread : unread ⟨bytes.drop 4, bytes.take 4, .little, [], {}⟩ = bytes := List.take_append_drop 4 bytes
  rw [hunread] at hdescribes
  refine ⟨_, blocks, rest, ?_, ?_, hdescribes, ?_⟩
  · have hshb : Endian.number .little (bytes.take 4) = pcapngShb := by
      rw [h]
      decide
    rw [Pcapio.read, if_neg hhead.not_lt, if_pos hshb, hg]
  · rw [hdescribes.split, List.length_append]
    exact (length_blocks hdescribes.whole).trans (Nat.le_add_right _ _)
  · intro p _ option hoption
    exact ((options_within _ _).2 option hoption).trans (List.drop_suffix 8 _).isInfix

/-- A block of little-endian fields, each given by its width and value. -/
def ngBlock (blockType : Nat) (fields : List (Nat × Nat)) : List UInt8 :=
  let body := Endian.pack .little fields
  Endian.pack .little [(4, blockType), (4, body.length + 12)] ++ body ++ Endian.pack .little [(4, body.length + 12)]

/-- An Ethernet interface with ticks of a nanosecond, counted from 1000 s after the epoch, and one of another link type.
A packet of each follows, the first one cut to two bytes, then a packet without a timestamp, and the first two bytes
of another block. -/
def twoInterfaces : List UInt8 :=
  ngBlock pcapngShb [(4, pcapngByteOrderMagic), (4, 1), (8, 2 ^ 64 - 1)] ++
    ngBlock pcapngIdb [(2, linktypeEthernet), (6, 0), (2, optIfTsresol), (2, 1), (4, 9), (2, optIfTsoffset), (2, 8),
      (8, 1000), (4, optEnd)] ++
    ngBlock pcapngIdb [(2, 113), (6, 0)] ++
    ngBlock pcapngEpb [(4, 0), (4, 0), (4, 2500000999), (4, 2), (4, 60), (2, 0xCDAB), (2, 0)] ++
    ngBlock pcapngEpb [(4, 1), (4, 0), (4, 5), (4, 0), (4, 0)] ++ ngBlock pcapngSpb [(4, 0)] ++ [6, 0]

/-- The Ethernet packet is read at the time that its interface gives it, and the two others are counted. -/
theorem pcapng_reader_total_cut :
    (read "a.pcapng" twoInterfaces).map (fun reading => (reading.yielded, reading.error, reading.final)) =
      some ([⟨[0xAB, 0xCD], 1002500000, 60⟩], none, ⟨1, 1, 1, 1, true, [113, linktypeEthernet]⟩) ∧
    ∃ reading blocks rest, read "a.pcapng" twoInterfaces = some reading ∧
      12 * blocks.length ≤ twoInterfaces.length ∧ Describes ⟨.little, []⟩ {} twoInterfaces reading blocks rest ∧
      ∀ p ∈ placed ⟨.little, []⟩ blocks, ∀ option ∈ options p.1.endian ((body p.2).drop 8),
        option.2 <:+: body p.2 :=
  ⟨by decide +kernel, pcapng_reader_total "a.pcapng" twoInterfaces (by decide)⟩

end Pirewall
