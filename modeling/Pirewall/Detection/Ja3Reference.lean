/-
# Pirewall.Detection.Ja3Reference -- JA3 as its specification has it

The specification is about the offer, not about octets: a version and four lists, written in decimal with every
reserved value left out, each list joined by hyphens and the five fields by commas. `Offer` is a ClientHello given by
what it offers; its encoding is the one of `ClientHello`, every length behind its own field.

The walk is inverse to that encoding part by part. The extension block is the only loop: from the offset of an
extension on it reads that extension and goes on at the next (`parseExtensionBlock_append`), so a block is a fold over
the offered extensions.
-/
import Pirewall.Detection.Ja3

namespace Pirewall

open Lib.Bytes

/-! ## Reserved values -/

/-- The sixteen values that the specification leaves out: `0x0A0A`, `0x1A1A`, up to `0xFAFA`. -/
def greaseValues : List Nat := (List.range 16).map fun n => 0x1010 * n + 0x0A0A

/-- The test on two octets finds exactly these. -/
theorem isGrease_iff (value : Nat) : isGrease value = true ↔ value ∈ greaseValues := by
  have hhigh : value >>> 8 = value / 256 := Nat.shiftRight_eq_div_pow value 8
  have hlow : value &&& 0xFF = value % 256 := Nat.and_two_pow_sub_one_eq_mod value 8
  have hnibble : value % 256 &&& 0x0F = value % 256 % 16 := Nat.and_two_pow_sub_one_eq_mod (value % 256) 4
  simp only [isGrease, hhigh, hlow, hnibble, Bool.and_eq_true, beq_iff_eq, greaseValues, List.mem_map, List.mem_range]
  constructor
  · rintro ⟨hsame, hten⟩
    exact ⟨value % 256 / 16, by omega, by omega⟩
  · rintro ⟨n, hn, rfl⟩
    omega

/-- A list with the reserved values left out. -/
def withoutGrease (values : List Nat) : List Nat := values.filter fun value => value ∉ greaseValues

theorem filter_not_isGrease (values : List Nat) :
    (values.filter fun value => !isGrease value) = withoutGrease values := by
  apply List.filter_congr
  intro value _
  by_cases h : isGrease value = true
  · simp [h, (isGrease_iff value).mp h]
  · simp [h, mt (isGrease_iff value).mpr h]

/-- No octet is a reserved value, so leaving them out of the point formats changes nothing. -/
theorem withoutGrease_octets (octets : List UInt8) :
    withoutGrease (octets.map UInt8.toNat) = octets.map UInt8.toNat := by
  rw [withoutGrease, List.filter_eq_self]
  intro value hvalue
  obtain ⟨octet, -, rfl⟩ := List.mem_map.mp hvalue
  have hlt := octet.toNat_lt
  simp only [greaseValues, List.mem_map, List.mem_range, decide_eq_true_eq]
  rintro ⟨n, -, hn⟩
  omega

/-! ## What is offered -/

/-- An extension by its meaning. -/
inductive OfferedExtension where
  | supportedGroups (groups : List Nat)
  | ecPointFormats (formats : List UInt8)
  | other (extensionType : Nat) (data : List UInt8)
  deriving DecidableEq

namespace OfferedExtension

def type : OfferedExtension → Nat
  | supportedGroups _ => 10
  | ecPointFormats _ => 11
  | other extensionType _ => extensionType

/-- The groups go behind a length of two octets, the point formats behind one of one octet. -/
def data : OfferedExtension → List UInt8
  | supportedGroups groups => octets 2 (2 * groups.length) ++ groups.flatMap (octets 2)
  | ecPointFormats formats => octets 1 formats.length ++ formats
  | other _ data => data

/-- The extension as the wire has it. -/
def wire (extension : OfferedExtension) : Extension := ⟨extension.type, extension.data⟩

def groups? : OfferedExtension → Option (List Nat)
  | supportedGroups groups => some groups
  | _ => none

def formats? : OfferedExtension → Option (List UInt8)
  | ecPointFormats formats => some formats
  | _ => none

/-- Every number fits its field, and the two types that carry a list are not used for anything else. -/
def WellFormed : OfferedExtension → Prop
  | supportedGroups groups => ∀ group ∈ groups, group < 65536
  | ecPointFormats formats => formats.length < 256
  | other extensionType _ => extensionType < 65536 ∧ extensionType ≠ 10 ∧ extensionType ≠ 11

end OfferedExtension

/-- A well-formed ClientHello by what it offers, in one record, with at most one list of groups and one of point
formats. -/
structure Offer extends ClientHello where
  offered : Option (List OfferedExtension)
  extensions_eq : extensions = offered.map (List.map OfferedExtension.wire)
  clientVersion_lt : clientVersion < 65536
  cipherSuites_lt : ∀ suite ∈ cipherSuites, suite < 65536
  wellFormed : ∀ extension ∈ offered.getD [], extension.WellFormed
  groups_once : ((offered.getD []).filterMap OfferedExtension.groups?).length ≤ 1
  formats_once : ((offered.getD []).filterMap OfferedExtension.formats?).length ≤ 1

/-- The JA3 string of an offer. -/
def Offer.ja3 (offer : Offer) : String :=
  let extensions := offer.offered.getD []
  ",".intercalate [toString offer.clientVersion,
    hyphenated (withoutGrease offer.cipherSuites),
    hyphenated (withoutGrease (extensions.map OfferedExtension.type)),
    hyphenated (withoutGrease (extensions.filterMap OfferedExtension.groups?).flatten),
    hyphenated (withoutGrease ((extensions.filterMap OfferedExtension.formats?).flatten.map UInt8.toNat))]

/-! ## Lists of numbers -/

theorem octets_two (n : Nat) : octets 2 n = [UInt8.ofNat (n / 256 % 256), UInt8.ofNat (n % 256)] := rfl

theorem length_flatMap_octets (values : List Nat) : (values.flatMap (octets 2)).length = 2 * values.length := by
  induction values with
  | nil => rfl
  | cons value values ih =>
    rw [List.flatMap_cons, List.length_append, ih, length_octets, List.length_cons]
    omega

theorem uint16s_flatMap_octets {values : List Nat} (h : ∀ value ∈ values, value < 65536) :
    uint16s (values.flatMap (octets 2)) = values := by
  induction values with
  | nil => rfl
  | cons value values ih =>
    have hvalue := h value List.mem_cons_self
    have hsplit : value / 256 % 256 * 256 + value % 256 = value := by omega
    rw [List.flatMap_cons, octets_two, List.cons_append, List.cons_append, List.nil_append, uint16s,
      ih fun other hother => h other (List.mem_cons_of_mem _ hother)]
    simp only [UInt8.toNat_ofNat', Nat.reducePow, Nat.mod_mod, hsplit]

theorem parseUint16List_flatMap_octets {values : List Nat} (h : ∀ value ∈ values, value < 65536) :
    parseUint16List (values.flatMap (octets 2)) = values := by
  have heven : ¬ (values.flatMap (octets 2)).length % 2 ≠ 0 := by
    rw [length_flatMap_octets]
    omega
  rw [parseUint16List, if_neg heven, uint16s_flatMap_octets h]

/-! ## The extension block -/

theorem uint16_append {before after : List UInt8} {start n : Nat} (hstart : before.length = start)
    (hn : n < 65536) : uint16 (before ++ (octets 2 n ++ after)) start = some n := by
  rw [uint16_eq_field]
  exact field_append hstart hn

/-- From the offset of an extension on, the loop reads the extensions in turn. -/
theorem parseExtensionBlock_append (extensions : List Extension)
    (hfits : ∀ extension ∈ extensions, extension.extensionType < 65536 ∧ extension.data.length < 65536)
    (before : List UInt8) (found : Extensions) :
    parseExtensionBlock (before ++ extensions.flatMap Extension.bytes) before.length found =
      extensions.foldl (fun found extension => found.read extension.extensionType extension.data) found := by
  induction extensions generalizing before found with
  | nil =>
    have hend : ¬ before.length + 4 ≤ (before ++ [].flatMap Extension.bytes).length := by
      rw [List.flatMap_nil, List.append_nil]
      omega
    rw [parseExtensionBlock, if_neg hend]
    rfl
  | cons extension extensions ih =>
    obtain ⟨htype, hlength⟩ := hfits extension List.mem_cons_self
    -- the block around the next extension, and around its length and its data
    have hblock : before ++ (extension :: extensions).flatMap Extension.bytes =
        before ++ (octets 2 extension.extensionType ++ (octets 2 extension.data.length ++
          (extension.data ++ extensions.flatMap Extension.bytes))) := by
      simp only [List.flatMap_cons, Extension.bytes, List.append_assoc]
    have hsize : before.length + 4 ≤ (before ++ (extension :: extensions).flatMap Extension.bytes).length := by
      rw [hblock]
      simp only [List.length_append, length_octets]
      omega
    have hread : uint16 (before ++ (extension :: extensions).flatMap Extension.bytes) before.length =
        some extension.extensionType := by
      rw [hblock]
      exact uint16_append rfl htype
    have hlen : uint16 (before ++ (extension :: extensions).flatMap Extension.bytes) (before.length + 2) =
        some extension.data.length := by
      rw [hblock, ← List.append_assoc]
      exact uint16_append (by rw [List.length_append, length_octets]) hlength
    have hdata : slice (before ++ (extension :: extensions).flatMap Extension.bytes) (before.length + 4)
        extension.data.length = extension.data := by
      rw [hblock, ← List.append_assoc, ← List.append_assoc]
      exact slice_append (by simp only [List.length_append, length_octets]) rfl
    have hnext : before ++ (extension :: extensions).flatMap Extension.bytes =
        (before ++ extension.bytes) ++ extensions.flatMap Extension.bytes := by
      rw [List.flatMap_cons, List.append_assoc]
    have hoffset : before.length + 4 + extension.data.length = (before ++ extension.bytes).length := by
      simp only [Extension.bytes, List.length_append, length_octets]
      omega
    rw [parseExtensionBlock, if_pos hsize, hread, hlen]
    simp only [Option.getD_some]
    rw [hdata, hoffset, hnext, ih (fun other hother => hfits other (List.mem_cons_of_mem _ hother))]
    rfl

/-- What one offered extension adds to what was found. -/
theorem read_wire (found : Extensions) {extension : OfferedExtension} (hwell : extension.WellFormed)
    (hfits : extension.data.length < 65536) :
    found.read extension.type extension.data =
      ⟨found.extensionTypes ++ [extension.type], extension.groups?.getD found.ellipticCurves,
        (extension.formats?.map (List.map UInt8.toNat)).getD found.ecPointFormats⟩ := by
  cases extension with
  | supportedGroups groups =>
    have hlength : 2 * groups.length < 65536 := by
      simp only [OfferedExtension.data, List.length_append, length_octets, length_flatMap_octets] at hfits
      omega
    have htwo : 2 ≤ (OfferedExtension.supportedGroups groups).data.length := by
      rw [OfferedExtension.data, List.length_append, length_octets]
      omega
    have hread : uint16 (OfferedExtension.supportedGroups groups).data 0 = some (2 * groups.length) :=
      @uint16_append [] (groups.flatMap (octets 2)) 0 _ rfl hlength
    have hslice : slice (OfferedExtension.supportedGroups groups).data 2 (2 * groups.length) =
        groups.flatMap (octets 2) := slice_end (length_octets 2 _) (length_flatMap_octets groups)
    rw [Extensions.read, if_pos ⟨rfl, htwo⟩, hread, Option.getD_some, hslice, parseUint16List_flatMap_octets hwell]
    rfl
  | ecPointFormats formats =>
    have hone : 1 ≤ (OfferedExtension.ecPointFormats formats).data.length := by
      rw [OfferedExtension.data, List.length_append, length_octets]
      omega
    have hhead : ((OfferedExtension.ecPointFormats formats).data.headD 0).toNat = formats.length := by
      have hlt : formats.length < 256 := hwell
      show (UInt8.ofNat (formats.length % 256)).toNat = formats.length
      rw [UInt8.toNat_ofNat']
      omega
    have hslice : slice (OfferedExtension.ecPointFormats formats).data 1 formats.length = formats :=
      slice_end (length_octets 1 _) rfl
    have hten : ¬ ((OfferedExtension.ecPointFormats formats).type = 10 ∧
        2 ≤ (OfferedExtension.ecPointFormats formats).data.length) := fun h => Nat.succ_ne_self 10 h.1
    rw [Extensions.read, if_neg hten, if_pos ⟨rfl, hone⟩, hhead, hslice]
    rfl
  | other extensionType data =>
    obtain ⟨-, hten, heleven⟩ := hwell
    rw [Extensions.read, if_neg (fun h => hten h.1), if_neg (fun h => heleven h.1)]
    rfl

/-- The loop over what was offered: every type, and the last list of each kind. -/
theorem foldl_read_wire (offered : List OfferedExtension) (found : Extensions)
    (hwell : ∀ extension ∈ offered, extension.WellFormed)
    (hfits : ∀ extension ∈ offered, extension.data.length < 65536) :
    (offered.map OfferedExtension.wire).foldl
        (fun found extension => found.read extension.extensionType extension.data) found =
      ⟨found.extensionTypes ++ offered.map OfferedExtension.type,
        (offered.filterMap OfferedExtension.groups?).getLastD found.ellipticCurves,
        ((offered.filterMap OfferedExtension.formats?).map (List.map UInt8.toNat)).getLastD found.ecPointFormats⟩ := by
  induction offered generalizing found with
  | nil => simp
  | cons extension offered ih =>
    have hread := read_wire found (hwell extension List.mem_cons_self) (hfits extension List.mem_cons_self)
    rw [List.map_cons, List.foldl_cons, ih _ (fun other hother => hwell other (List.mem_cons_of_mem _ hother))
      (fun other hother => hfits other (List.mem_cons_of_mem _ hother))]
    simp only [OfferedExtension.wire, hread, List.map_cons, List.append_assoc, List.singleton_append]
    cases extension <;>
      simp [OfferedExtension.groups?, OfferedExtension.formats?, List.filterMap_cons, -List.getLastD_eq_getLast?,
        List.getLastD_cons]

theorem getLastD_of_length_le_one {α : Type} {lists : List (List α)} (h : lists.length ≤ 1) :
    lists.getLastD [] = lists.flatten := by
  match lists, h with
  | [], _ => rfl
  | [list], _ => exact (List.append_nil list).symm

/-- An extension is no longer than the block it is in. -/
theorem length_data_le {extensions : List Extension} {extension : Extension} (h : extension ∈ extensions) :
    extension.data.length ≤ (extensions.flatMap Extension.bytes).length := by
  obtain ⟨before, after, rfl⟩ := List.append_of_mem h
  simp only [List.flatMap_append, List.flatMap_cons, List.length_append, Extension.bytes]
  omega

/-! ## The whole walk -/

theorem getElem?_octet {before after : List UInt8} {start n : Nat} (hstart : before.length = start) :
    (before ++ (octets 1 n ++ after))[start]? = some (UInt8.ofNat (n % 256)) := by
  rw [List.getElem?_append_right hstart.le, hstart, Nat.sub_self]
  rfl

namespace ClientHello

variable (hello : ClientHello)

/-- The walk sees the body, whatever follows the record. -/
theorem computeJa3_append (md5 : String → String) (more : List UInt8) :
    computeJa3 md5 (hello.bytes ++ more) = fingerprintBody md5 hello.body := by
  have hfragment := hello.length_fragment
  have hfits := hello.fits
  have hsize : 5 ≤ (hello.bytes ++ more).length := by
    simp only [List.length_append, HelloParts.bytes, length_octets]
    omega
  have htype : (hello.bytes ++ more)[0]? = some 22 := rfl
  have hlength : uint16 (hello.bytes ++ more) 3 = some hello.fragment.length := by
    have hbytes : hello.bytes ++ more = (octets 1 22 ++ octets 2 hello.recordVersion) ++
        (octets 2 hello.fragment.length ++ (hello.fragment ++ more)) := by
      simp only [HelloParts.bytes, List.append_assoc]
    rw [hbytes]
    exact uint16_append (by simp only [List.length_append, length_octets]) hfits
  have hrecord : slice (hello.bytes ++ more) 5 hello.fragment.length = hello.fragment := by
    have hbytes : hello.bytes ++ more = (octets 1 22 ++ (octets 2 hello.recordVersion ++
        octets 2 hello.fragment.length)) ++ (hello.fragment ++ more) := by
      simp only [HelloParts.bytes, List.append_assoc]
    rw [hbytes]
    exact slice_append (by simp only [List.length_append, length_octets]) rfl
  have hhandshake : hello.fragment[0]? = some 1 := rfl
  have hhello : bigEndian (slice hello.fragment 1 3) = hello.body.length := by
    have hslice : slice hello.fragment 1 3 = octets 3 hello.body.length :=
      slice_append (length_octets 1 1) (length_octets 3 _)
    have hlt : hello.body.length < 256 ^ 3 := by omega
    rw [hslice, bigEndian_octets hlt]
  have hbody : slice hello.fragment 4 hello.body.length = hello.body := by
    rw [HelloParts.fragment, ← List.append_assoc]
    exact slice_end (by simp only [List.length_append, length_octets]) rfl
  rw [computeJa3, if_neg (not_or.mpr ⟨by omega, not_not.mpr htype⟩), hlength]
  simp only [Option.bind_eq_bind, Option.bind_some, hrecord]
  rw [if_neg (not_or.mpr ⟨by omega, not_not.mpr hhandshake⟩), hhello, hbody]

/-- The walk over the body finds the version, the cipher suites and what follows the compression methods. -/
theorem fingerprintBody_body (md5 : String → String) (hversion : hello.clientVersion < 65536)
    (hsuites : ∀ suite ∈ hello.cipherSuites, suite < 65536) :
    fingerprintBody md5 hello.body =
      let ja3 := ja3String hello.clientVersion hello.cipherSuites (parseExtensions hello.extensionBytes)
      some ⟨ja3, md5 ja3⟩ := by
  have hrandom := hello.random_length
  have hsessionLt := hello.sessionId_lt
  have hcompressionLt := hello.compressionMethods_lt
  have hlength := hello.length_body
  have hbodyVersion : uint16 hello.body 0 = some hello.clientVersion := by
    rw [HelloParts.body]
    exact @uint16_append [] _ 0 _ rfl hversion
  obtain ⟨session, hsession, hsessionLength⟩ := hello.body_sessionIdLength
  have hcipherLength := hello.body_cipherSuitesLength
  -- the body as the walk meets it: before the cipher suites, before the compression methods, before the extensions
  have hsuitesAt : slice hello.body (35 + hello.sessionId.length + 2) hello.cipherBytes.length = hello.cipherBytes := by
    have hbody : hello.body = (octets 2 hello.clientVersion ++ (hello.random ++ (octets 1 hello.sessionId.length ++
        (hello.sessionId ++ octets 2 hello.cipherBytes.length)))) ++ (hello.cipherBytes ++
          (octets 1 hello.compressionMethods.length ++ (hello.compressionMethods ++ hello.extensionBytes))) := by
      simp only [HelloParts.body, List.append_assoc]
    rw [hbody]
    refine slice_append ?_ rfl
    simp only [List.length_append, length_octets, hrandom]
    omega
  have hcompression : hello.body[35 + hello.sessionId.length + 2 + hello.cipherBytes.length]? =
      some (UInt8.ofNat (hello.compressionMethods.length % 256)) := by
    have hbody : hello.body = (octets 2 hello.clientVersion ++ (hello.random ++ (octets 1 hello.sessionId.length ++
        (hello.sessionId ++ (octets 2 hello.cipherBytes.length ++ hello.cipherBytes))))) ++
          (octets 1 hello.compressionMethods.length ++ (hello.compressionMethods ++ hello.extensionBytes)) := by
      simp only [HelloParts.body, List.append_assoc]
    rw [hbody]
    apply getElem?_octet
    simp only [List.length_append, length_octets, hrandom]
    omega
  have hrest : hello.body.drop (35 + hello.sessionId.length + 2 + hello.cipherBytes.length + 1 +
      hello.compressionMethods.length) = hello.extensionBytes := by
    have hbody : hello.body = (octets 2 hello.clientVersion ++ (hello.random ++ (octets 1 hello.sessionId.length ++
        (hello.sessionId ++ (octets 2 hello.cipherBytes.length ++ (hello.cipherBytes ++
          (octets 1 hello.compressionMethods.length ++ hello.compressionMethods))))))) ++ hello.extensionBytes := by
      simp only [HelloParts.body, List.append_assoc]
    rw [hbody]
    apply List.drop_left'
    simp only [List.length_append, length_octets, hrandom]
    omega
  have hmethods : (UInt8.ofNat (hello.compressionMethods.length % 256)).toNat = hello.compressionMethods.length := by
    rw [UInt8.toNat_ofNat']
    omega
  rw [HelloParts.compressionLengthAt] at hlength
  simp only [fingerprintBody, hbodyVersion, Option.bind_eq_bind, Option.bind_some]
  rw [if_neg (by omega), if_neg (by omega), hsession, Option.bind_some, hsessionLength, if_neg (by omega),
    hcipherLength, Option.bind_some, hsuitesAt, if_neg (by omega), hcompression, Option.bind_some, hmethods, hrest,
    HelloParts.cipherBytes, parseUint16List_flatMap_octets hsuites]
  rfl

end ClientHello

namespace Offer

variable (offer : Offer)

/-- The extensions are part of the record, so each fits its length field. -/
theorem length_data_lt {extension : OfferedExtension} (h : extension ∈ offer.offered.getD []) :
    extension.data.length < 65536 := by
  have hfits := offer.fits
  have hfragment := offer.length_fragment
  obtain ⟨offered, hoffered, hmem⟩ : ∃ offered, offer.offered = some offered ∧ extension ∈ offered := by
    cases hoffered : offer.offered with
    | none => rw [hoffered] at h; exact absurd h List.not_mem_nil
    | some offered => exact ⟨offered, rfl, by rw [hoffered] at h; exact h⟩
  have hextensions : offer.extensions = some (offered.map OfferedExtension.wire) := by
    rw [offer.extensions_eq, hoffered, Option.map_some]
  have hdata := length_data_le (List.mem_map_of_mem (f := OfferedExtension.wire) hmem)
  have hblock : ((offered.map OfferedExtension.wire).flatMap Extension.bytes).length ≤ offer.body.length := by
    simp only [HelloParts.body, HelloParts.extensionBytes, hextensions, List.length_append]
    omega
  simp only [OfferedExtension.wire] at hdata
  omega

/-- The walk over the extensions finds what was offered. -/
theorem parseExtensions_extensionBytes :
    parseExtensions offer.extensionBytes =
      ⟨(offer.offered.getD []).map OfferedExtension.type,
        ((offer.offered.getD []).filterMap OfferedExtension.groups?).flatten,
        ((offer.offered.getD []).filterMap OfferedExtension.formats?).flatten.map UInt8.toNat⟩ := by
  have hfits := offer.fits
  have hfragment := offer.length_fragment
  have hwell := offer.wellFormed
  have hdata := fun extension => @Offer.length_data_lt offer extension
  have hgroups := offer.groups_once
  have hformats := offer.formats_once
  rw [HelloParts.extensionBytes, offer.extensions_eq]
  cases hoffered : offer.offered with
  | none => rfl
  | some offered =>
    rw [hoffered] at hwell hdata hgroups hformats
    simp only [Option.getD_some] at hwell hdata hgroups hformats
    have hextensions : offer.extensions = some (offered.map OfferedExtension.wire) := by
      rw [offer.extensions_eq, hoffered, Option.map_some]
    -- the block is part of a hello that fits into a record, so its length has two bytes
    have hblock : ((offered.map OfferedExtension.wire).flatMap Extension.bytes).length < 65536 := by
      have hle : ((offered.map OfferedExtension.wire).flatMap Extension.bytes).length ≤ offer.body.length := by
        simp only [HelloParts.body, HelloParts.extensionBytes, hextensions, List.length_append]
        omega
      omega
    have hlength : ∀ block : List UInt8, block.length < 65536 →
        parseExtensions (octets 2 block.length ++ block) = parseExtensionBlock block 0 ⟨[], [], []⟩ := by
      intro block hlt
      have hsize : ¬ (octets 2 block.length ++ block).length < 2 := by
        rw [List.length_append, length_octets]
        omega
      have hread : uint16 (octets 2 block.length ++ block) 0 = some block.length :=
        @uint16_append [] block 0 _ rfl hlt
      rw [parseExtensions, if_neg hsize, hread, Option.getD_some, slice_end (length_octets 2 _) rfl]
    have hloop := parseExtensionBlock_append (offered.map OfferedExtension.wire) ?_ [] ⟨[], [], []⟩
    · have hfold := foldl_read_wire offered ⟨[], [], []⟩ hwell hdata
      simp only [Option.map_some, Option.getD_some]
      rw [hlength _ hblock]
      refine hloop.trans (hfold.trans ?_)
      -- an extension is offered once at most, so the last one read is the only one
      have hformatsOnce : ((offered.filterMap OfferedExtension.formats?).map (List.map UInt8.toNat)).length ≤ 1 := by
        rw [List.length_map]
        exact hformats
      rw [getLastD_of_length_le_one hgroups, getLastD_of_length_le_one hformatsOnce, List.map_flatten]
      rfl
    · intro extension hextension
      obtain ⟨source, hsource, rfl⟩ := List.mem_map.mp hextension
      refine ⟨?_, hdata source hsource⟩
      have := hwell source hsource
      cases source with
      | supportedGroups groups => exact show 10 < 65536 by omega
      | ecPointFormats formats => exact show 11 < 65536 by omega
      | other extensionType data => exact this.1

/-- **JA3 as specified**: the walk over the record, whatever follows it, gives the string of the offer. -/
theorem computeJa3_append (md5 : String → String) (more : List UInt8) :
    computeJa3 md5 (offer.bytes ++ more) = some ⟨offer.ja3, md5 offer.ja3⟩ := by
  have hstring : ja3String offer.clientVersion offer.cipherSuites (parseExtensions offer.extensionBytes) =
      offer.ja3 := by
    simp only [ja3String, offer.parseExtensions_extensionBytes, filter_not_isGrease]
    rw [Offer.ja3, withoutGrease_octets]
  rw [offer.toClientHello.computeJa3_append,
    offer.fingerprintBody_body md5 offer.clientVersion_lt offer.cipherSuites_lt, hstring]

end Offer

/-! ## Edits of reserved values -/

/-- One reserved value put in, anywhere. -/
inductive GreaseInsert : List Nat → List Nat → Prop where
  | insert (before after : List Nat) (value : Nat) (hvalue : value ∈ greaseValues) :
      GreaseInsert (before ++ after) (before ++ value :: after)

/-- Reserved values put in, taken out and changed, any number of times. -/
def GreaseEdits : List Nat → List Nat → Prop := Relation.EqvGen GreaseInsert

/-- One edit of the offered extensions: a reserved one put in, or reserved groups edited. -/
inductive ExtensionEdit : List OfferedExtension → List OfferedExtension → Prop where
  | insert (before after : List OfferedExtension) (extension : OfferedExtension)
      (htype : extension.type ∈ greaseValues) :
      ExtensionEdit (before ++ after) (before ++ extension :: after)
  | groups (before after : List OfferedExtension) (groups groups' : List Nat) (hgroups : GreaseEdits groups groups') :
      ExtensionEdit (before ++ .supportedGroups groups :: after) (before ++ .supportedGroups groups' :: after)

def ExtensionEdits : List OfferedExtension → List OfferedExtension → Prop := Relation.EqvGen ExtensionEdit

/-- Two offers that differ in reserved cipher suites, extensions and groups, and in what JA3 does not read. -/
structure GreaseVariant (offer offer' : Offer) : Prop where
  clientVersion : offer.clientVersion = offer'.clientVersion
  cipherSuites : GreaseEdits offer.cipherSuites offer'.cipherSuites
  offered : ExtensionEdits (offer.offered.getD []) (offer'.offered.getD [])

/-- What every single step keeps is kept by any edits. -/
theorem eq_of_eqvGen {α β : Type} {step : α → α → Prop} (f : α → β) (hstep : ∀ a b, step a b → f a = f b)
    {a b : α} (h : Relation.EqvGen step a b) : f a = f b := by
  induction h with
  | rel a b hab => exact hstep a b hab
  | refl a => rfl
  | symm a b _ ih => exact ih.symm
  | trans a b c _ _ ihab ihbc => exact ihab.trans ihbc

theorem withoutGrease_append (front back : List Nat) :
    withoutGrease (front ++ back) = withoutGrease front ++ withoutGrease back :=
  List.filter_append front back

theorem withoutGrease_cons_of_mem {value : Nat} (hvalue : value ∈ greaseValues) (values : List Nat) :
    withoutGrease (value :: values) = withoutGrease values :=
  List.filter_cons_of_neg (by simpa using hvalue)

theorem GreaseEdits.withoutGrease_eq {values values' : List Nat} (h : GreaseEdits values values') :
    withoutGrease values = withoutGrease values' := by
  refine eq_of_eqvGen withoutGrease ?_ h
  rintro _ _ ⟨before, after, value, hvalue⟩
  rw [withoutGrease_append, withoutGrease_append, withoutGrease_cons_of_mem hvalue]

/-- The three fields that JA3 reads from the extensions. -/
def extensionFields (extensions : List OfferedExtension) : List Nat × List Nat × List UInt8 :=
  (withoutGrease (extensions.map OfferedExtension.type),
    withoutGrease (extensions.filterMap OfferedExtension.groups?).flatten,
    (extensions.filterMap OfferedExtension.formats?).flatten)

/-- A reserved extension carries neither groups nor point formats. -/
theorem other_of_mem_greaseValues {extension : OfferedExtension} (h : extension.type ∈ greaseValues) :
    extension.groups? = none ∧ extension.formats? = none := by
  cases extension with
  | supportedGroups groups => exact absurd h (show ¬ 10 ∈ greaseValues by decide)
  | ecPointFormats formats => exact absurd h (show ¬ 11 ∈ greaseValues by decide)
  | other extensionType data => exact ⟨rfl, rfl⟩

theorem ExtensionEdits.extensionFields_eq {extensions extensions' : List OfferedExtension}
    (h : ExtensionEdits extensions extensions') : extensionFields extensions = extensionFields extensions' := by
  refine eq_of_eqvGen extensionFields ?_ h
  intro _ _ hedit
  cases hedit with
  | insert before after extension htype =>
    obtain ⟨hgroups, hformats⟩ := other_of_mem_greaseValues htype
    simp only [extensionFields, List.map_append, List.map_cons, List.filterMap_append, List.filterMap_cons, hgroups,
      hformats, withoutGrease_append, withoutGrease_cons_of_mem htype]
  | groups before after groups groups' hgroups =>
    simp only [extensionFields, List.map_append, List.map_cons, List.filterMap_append, List.filterMap_cons,
      OfferedExtension.type, OfferedExtension.groups?, OfferedExtension.formats?, List.flatten_append,
      List.flatten_cons, withoutGrease_append, hgroups.withoutGrease_eq]

/-- Reserved values make no difference to the string. -/
theorem GreaseVariant.ja3_eq {offer offer' : Offer} (h : GreaseVariant offer offer') : offer.ja3 = offer'.ja3 := by
  have hfields := h.offered.extensionFields_eq
  simp only [extensionFields, Prod.mk.injEq] at hfields
  obtain ⟨htypes, hgroups, hformats⟩ := hfields
  simp only [Offer.ja3, h.clientVersion, h.cipherSuites.withoutGrease_eq, htypes, hgroups, hformats]

/-- **The fingerprint of a ClientHello** is that of its specification, and offers that differ in reserved values have
the same one. -/
theorem ja3_as_specified (md5 : String → String) (offer : Offer) :
    (∀ more, computeJa3 md5 (offer.bytes ++ more) = some ⟨offer.ja3, md5 offer.ja3⟩) ∧
      ∀ offer', GreaseVariant offer offer' → ∀ more more',
        computeJa3 md5 (offer'.bytes ++ more') = computeJa3 md5 (offer.bytes ++ more) := by
  refine ⟨offer.computeJa3_append md5, ?_⟩
  intro offer' hvariant more more'
  rw [offer.computeJa3_append, offer'.computeJa3_append, hvariant.ja3_eq]

/-- The sample ClientHello by what it offers. -/
def sampleOffer : Offer where
  toClientHello := sampleHello
  offered := some [.other 0 [], .supportedGroups [23, 24, 25], .ecPointFormats [0]]
  extensions_eq := rfl
  clientVersion_lt := by decide
  cipherSuites_lt := by decide
  wellFormed := by
    intro extension hextension
    fin_cases hextension
    · exact ⟨by omega, by omega, by omega⟩
    · exact show ∀ group ∈ [23, 24, 25], group < 65536 by decide
    · exact show 1 < 256 by omega
  groups_once := by decide
  formats_once := by decide

/-- The same offer with a reserved cipher suite before the others, a reserved extension and a reserved group. -/
def greasedOffer : Offer where
  recordVersion := 0x0303
  clientVersion := 0x0301
  random := List.replicate 32 0
  sessionId := []
  cipherSuites := 0x0A0A :: sampleOffer.cipherSuites
  compressionMethods := [0]
  extensions := some ([.other 0 [], .other 0xFAFA [], .supportedGroups [0x1A1A, 23, 24, 25],
    .ecPointFormats [0]].map OfferedExtension.wire)
  random_length := sampleHello.random_length
  sessionId_lt := sampleHello.sessionId_lt
  compressionMethods_lt := sampleHello.compressionMethods_lt
  fits := by decide
  offered := some [.other 0 [], .other 0xFAFA [], .supportedGroups [0x1A1A, 23, 24, 25], .ecPointFormats [0]]
  extensions_eq := rfl
  clientVersion_lt := by decide
  cipherSuites_lt := by decide
  wellFormed := by
    intro extension hextension
    fin_cases hextension
    · exact ⟨by omega, by omega, by omega⟩
    · exact ⟨by omega, by omega, by omega⟩
    · exact show ∀ group ∈ [0x1A1A, 23, 24, 25], group < 65536 by decide
    · exact show 1 < 256 by omega
  groups_once := by decide
  formats_once := by decide

theorem sampleOffer_variant : GreaseVariant sampleOffer greasedOffer where
  clientVersion := rfl
  cipherSuites := .rel _ _ (.insert [] sampleOffer.cipherSuites 0x0A0A (by decide))
  offered := .trans _ _ _
    (.rel _ _
      (.insert [.other 0 []] [.supportedGroups [23, 24, 25], .ecPointFormats [0]] (.other 0xFAFA []) (by decide)))
    (.rel _ _ (.groups [.other 0 [], .other 0xFAFA []] [.ecPointFormats [0]] [23, 24, 25] [0x1A1A, 23, 24, 25]
      (.rel _ _ (.insert [] [23, 24, 25] 0x1A1A (by decide)))))

/-- Both records, each with an octet after it, have the fingerprint of the sample. -/
theorem ja3_as_specified_sample :
    sampleOffer.ja3 = "769,47-53-5-10-49161-49162-49171-49172-50-56-19-4,0-10-11,23-24-25,0" ∧
      computeJa3 id (sampleOffer.bytes ++ [0]) = some ⟨sampleOffer.ja3, id sampleOffer.ja3⟩ ∧
      computeJa3 id (greasedOffer.bytes ++ [1]) = computeJa3 id (sampleOffer.bytes ++ [0]) := by
  obtain ⟨hstring, hvariant⟩ := ja3_as_specified id sampleOffer
  exact ⟨by decide +kernel, hstring [0], hvariant greasedOffer sampleOffer_variant [0] [1]⟩

end Pirewall
