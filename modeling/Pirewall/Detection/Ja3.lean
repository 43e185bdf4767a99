/-
# Pirewall.Detection.Ja3 -- the fingerprint of a ClientHello

`compute_ja3` reads one TLS record: a handshake header, then the version, the cipher suites, the extension types
and two lists inside extensions, each behind its own length field. Every part is taken by slicing, which silently
gives less where the payload ends; what refuses a payload that is too short is a length test before each field the
walk still has to read.

The last such field is the length of the compression methods. `truncated_hello_unfingerprinted_iff` says what
follows for a ClientHello whose capture was cut: it is refused exactly when the cut lies before that byte.
-/
import Pirewall.Detection.TlsMatch
import Pirewall.Lib.Bytes

namespace Pirewall

open Lib.Bytes

/-! ## The walk -/

/-- `_is_grease`: two identical octets that end in the nibble `A`. -/
def isGrease (value : Nat) : Bool :=
  let high := value >>> 8
  let low := value &&& 0xFF
  high == low && (low &&& 0x0F) == 0x0A

/-- `ClientHelloFingerprint`. -/
structure ClientHelloFingerprint where
  ja3String : String
  ja3Hash : String
  deriving DecidableEq

/-- `struct.unpack("!nH", …)`. -/
def uint16s : List UInt8 → List Nat
  | high :: low :: rest => (high.toNat * 256 + low.toNat) :: uint16s rest
  | _ => []

/-- `_parse_uint16_list`. -/
def parseUint16List (data : List UInt8) : List Nat := if data.length % 2 ≠ 0 then [] else uint16s data

/-- What `_parse_extensions` collects. -/
structure Extensions where
  extensionTypes : List Nat
  ellipticCurves : List Nat
  ecPointFormats : List Nat
  deriving DecidableEq

/-- The lists of the two extensions that carry one. A later extension of the same type replaces them. -/
def Extensions.read (found : Extensions) (extensionType : Nat) (extensionData : List UInt8) : Extensions :=
  let found := { found with extensionTypes := found.extensionTypes ++ [extensionType] }
  if extensionType = 10 ∧ 2 ≤ extensionData.length then
    { found with
      ellipticCurves := parseUint16List (slice extensionData 2 ((uint16 extensionData 0).getD 0)) }
  else if extensionType = 11 ∧ 1 ≤ extensionData.length then
    { found with
      ecPointFormats := (slice extensionData 1 (extensionData.headD 0).toNat).map UInt8.toNat }
  else found

/-- The `while` loop of `_parse_extensions`, from an offset on. -/
def parseExtensionBlock (block : List UInt8) (offset : Nat) (found : Extensions) : Extensions :=
  if offset + 4 ≤ block.length then
    let extensionType := (uint16 block offset).getD 0
    let extensionLength := (uint16 block (offset + 2)).getD 0
    parseExtensionBlock block (offset + 4 + extensionLength)
      (found.read extensionType (slice block (offset + 4) extensionLength))
  else found
termination_by block.length - offset

/-- `_parse_extensions`. -/
def parseExtensions (remainder : List UInt8) : Extensions :=
  if remainder.length < 2 then ⟨[], [], []⟩
  else parseExtensionBlock (slice remainder 2 ((uint16 remainder 0).getD 0)) 0 ⟨[], [], []⟩

/-- Values joined by hyphens. -/
def hyphenated (values : List Nat) : String := "-".intercalate (values.map toString)

/-- The five fields of a JA3 string. -/
def ja3String (clientVersion : Nat) (cipherSuites : List Nat) (extensions : Extensions) : String :=
  ",".intercalate [toString clientVersion, hyphenated (cipherSuites.filter fun value => !isGrease value),
    hyphenated (extensions.extensionTypes.filter fun value => !isGrease value),
    hyphenated (extensions.ellipticCurves.filter fun value => !isGrease value),
    hyphenated extensions.ecPointFormats]

/-- The walk of `_compute_ja3` over the body of a ClientHello. -/
def fingerprintBody (md5 : String → String) (body : List UInt8) : Option ClientHelloFingerprint :=
  if body.length < 2 then none
  else do
    let clientVersion ← uint16 body 0
    let offset := 2 + 32
    if body.length < offset + 1 then none
    else
      let sessionIdLength ← body[offset]?
      let offset := offset + 1 + sessionIdLength.toNat
      if body.length < offset + 2 then none
      else
        let cipherSuitesLength ← uint16 body offset
        let offset := offset + 2
        let cipherSuites := parseUint16List (slice body offset cipherSuitesLength)
        let offset := offset + cipherSuitesLength
        if body.length < offset + 1 then none
        else
          let compressionMethodsLength ← body[offset]?
          let offset := offset + 1 + compressionMethodsLength.toNat
          let extensions := parseExtensions (body.drop offset)
          let ja3 := ja3String clientVersion cipherSuites extensions
          return ⟨ja3, md5 ja3⟩

/-- `compute_ja3`, with the digest a parameter. A read past the end, which raises, is `none` as well. -/
def computeJa3 (md5 : String → String) (payload : List UInt8) : Option ClientHelloFingerprint :=
  if payload.length < 5 ∨ payload[0]? ≠ some 22 then none
  else do
    let recordLength ← uint16 payload 3
    let fragment := slice payload 5 recordLength
    if fragment.length < 4 ∨ fragment[0]? ≠ some 1 then none
    else
      let helloLength := bigEndian (slice fragment 1 3)
      fingerprintBody md5 (slice fragment 4 helloLength)

/-! ## When the walk gives up -/

theorem uint16_eq_field (bytes : List UInt8) (offset : Nat) : uint16 bytes offset = field bytes offset 2 := by
  by_cases hfits : offset + 2 ≤ bytes.length
  · have hhigh : offset < bytes.length := by omega
    have hlow : offset + 1 < bytes.length := by omega
    have hslice : slice bytes offset 2 = [bytes[offset], bytes[offset + 1]] := by
      rw [slice, List.drop_eq_getElem_cons hhigh, List.drop_eq_getElem_cons hlow]
      rfl
    rw [field_of_le hfits, hslice, uint16, List.getElem?_eq_getElem hhigh, List.getElem?_eq_getElem hlow]
    simp [bigEndian]
  · have hlow : bytes[offset + 1]? = none := List.getElem?_eq_none (by omega)
    rw [field_eq_none_iff.mpr (Nat.lt_of_not_le hfits), uint16, hlow]
    cases bytes[offset]? <;> rfl

/-- The walk needs every length it reads, up to that of the compression methods, and nothing after it. -/
theorem fingerprintBody_eq_none_iff (md5 : String → String) {body : List UInt8} (sessionIdLength : UInt8)
    (cipherSuitesLength : Nat) (hsession : 34 < body.length → body[34]? = some sessionIdLength)
    (hcipher : 36 + sessionIdLength.toNat < body.length →
      uint16 body (35 + sessionIdLength.toNat) = some cipherSuitesLength) :
    fingerprintBody md5 body = none ↔ body.length ≤ 37 + sessionIdLength.toNat + cipherSuitesLength := by
  simp only [fingerprintBody, uint16_eq_field body 0, Option.bind_eq_bind]
  split_ifs with hversion hshort
  · exact iff_of_true rfl (by omega)
  · rw [field_of_le (by omega), Option.bind_some]
    exact iff_of_true rfl (by omega)
  rw [field_of_le (by omega), Option.bind_some, hsession (by omega), Option.bind_some]
  split_ifs with hsuites
  · exact iff_of_true rfl (by omega)
  rw [hcipher (by omega), Option.bind_some]
  split_ifs with hcompression
  · exact iff_of_true rfl (by omega)
  rw [List.getElem?_eq_getElem (by omega), Option.bind_some]
  exact iff_of_false (by simp) (by omega)

/-! ## A ClientHello -/

/-- One extension: its type and its data. -/
structure Extension where
  extensionType : Nat
  data : List UInt8

/-- An extension on the wire. -/
def Extension.bytes (extension : Extension) : List UInt8 :=
  octets 2 extension.extensionType ++ (octets 2 extension.data.length ++ extension.data)

/-- The parts of a ClientHello. -/
structure HelloParts where
  recordVersion : Nat
  clientVersion : Nat
  random : List UInt8
  sessionId : List UInt8
  cipherSuites : List Nat
  compressionMethods : List UInt8
  extensions : Option (List Extension)

namespace HelloParts

/-- The extensions block, which a ClientHello may lack. -/
def extensionBytes (hello : HelloParts) : List UInt8 :=
  match hello.extensions with
  | none => []
  | some extensions =>
    let block := extensions.flatMap Extension.bytes
    octets 2 block.length ++ block

/-- The cipher suites, two octets each. -/
def cipherBytes (hello : HelloParts) : List UInt8 := hello.cipherSuites.flatMap (octets 2)

/-- The body, with every length field holding the length of what it is about. -/
def body (hello : HelloParts) : List UInt8 :=
  octets 2 hello.clientVersion ++ (hello.random ++ (octets 1 hello.sessionId.length ++ (hello.sessionId ++
    (octets 2 hello.cipherBytes.length ++ (hello.cipherBytes ++ (octets 1 hello.compressionMethods.length ++
      (hello.compressionMethods ++ hello.extensionBytes)))))))

/-- The handshake message. -/
def fragment (hello : HelloParts) : List UInt8 := octets 1 1 ++ (octets 3 hello.body.length ++ hello.body)

/-- The record. -/
def bytes (hello : HelloParts) : List UInt8 :=
  octets 1 22 ++ (octets 2 hello.recordVersion ++ (octets 2 hello.fragment.length ++ hello.fragment))

/-- Where the record holds the length of the compression methods. -/
def compressionLengthAt (hello : HelloParts) : Nat :=
  46 + hello.sessionId.length + hello.cipherBytes.length

end HelloParts

/-- A well-formed ClientHello in one record: its parts have the lengths the format gives them, and the record is
large enough for it. -/
structure ClientHello extends HelloParts where
  random_length : random.length = 32
  sessionId_lt : sessionId.length < 256
  compressionMethods_lt : compressionMethods.length < 256
  fits : toHelloParts.fragment.length < 65536

namespace ClientHello

variable (hello : ClientHello)

theorem length_fragment : hello.fragment.length = 4 + hello.body.length := by
  rw [HelloParts.fragment, List.length_append, List.length_append, length_octets, length_octets]
  omega

/-- The body reaches beyond the length of the compression methods. -/
theorem length_body : hello.compressionLengthAt < 9 + hello.body.length := by
  have hrandom := hello.random_length
  simp only [HelloParts.compressionLengthAt, HelloParts.body, List.length_append, length_octets]
  omega

theorem body_sessionIdLength : ∃ octet, hello.body[34]? = some octet ∧ octet.toNat = hello.sessionId.length := by
  have hrandom := hello.random_length
  refine ⟨UInt8.ofNat (hello.sessionId.length % 256), ?_, ?_⟩
  · have hbefore : (octets 2 hello.clientVersion ++ hello.random).length = 34 := by
      rw [List.length_append, length_octets, hrandom]
    rw [HelloParts.body, ← List.append_assoc, List.getElem?_append_right hbefore.le, hbefore]
    rfl
  · have hlt := hello.sessionId_lt
    rw [UInt8.toNat_ofNat']
    omega

theorem body_cipherSuitesLength :
    uint16 hello.body (35 + hello.sessionId.length) = some hello.cipherBytes.length := by
  have hrandom := hello.random_length
  have hfits := hello.fits
  have hbody : hello.body = (octets 2 hello.clientVersion ++ (hello.random ++
      (octets 1 hello.sessionId.length ++ hello.sessionId))) ++ (octets 2 hello.cipherBytes.length ++
        (hello.cipherBytes ++ (octets 1 hello.compressionMethods.length ++
          (hello.compressionMethods ++ hello.extensionBytes)))) := by
    simp only [HelloParts.body, List.append_assoc]
  have hlength := hello.length_fragment
  rw [uint16_eq_field, hbody]
  apply field_append
  · simp only [List.length_append, length_octets]
    omega
  · rw [hbody] at hlength
    simp only [List.length_append, length_octets] at hlength
    omega

/-- A cut body is walked to the end when it still has the length of the compression methods. -/
theorem fingerprintBody_take_eq_none_iff (md5 : String → String) (cut : Nat) :
    fingerprintBody md5 (hello.body.take cut) = none ↔ 9 + cut ≤ hello.compressionLengthAt := by
  have hlength := hello.length_body
  obtain ⟨octet, hoctet, hsession⟩ := hello.body_sessionIdLength
  have hlen : (hello.body.take cut).length = min cut hello.body.length := List.length_take
  rw [fingerprintBody_eq_none_iff md5 octet hello.cipherBytes.length]
  · rw [hlen, hsession]
    simp only [HelloParts.compressionLengthAt] at hlength ⊢
    omega
  · intro hlt
    rw [List.getElem?_take_of_lt (by omega), hoctet]
  · intro hlt
    rw [uint16_eq_field, field_take (by omega), ← uint16_eq_field, hsession]
    exact hello.body_cipherSuitesLength

/-- The record header names the whole fragment, so what is left of a cut record is the fragment, cut. -/
theorem slice_bytes_take (cut : Nat) :
    slice (hello.bytes.take cut) 5 hello.fragment.length = hello.fragment.take (cut - 5) := by
  have hbytes : hello.bytes = (octets 1 22 ++ (octets 2 hello.recordVersion ++ octets 2 hello.fragment.length)) ++
      (hello.fragment ++ []) := by
    simp only [HelloParts.bytes, List.append_assoc, List.append_nil]
  rw [slice_take, hbytes, slice_append _ rfl]
  simp only [List.length_append, length_octets]

/-- The handshake header names the whole body, as the record header does the fragment. -/
theorem slice_fragment_take (cut : Nat) :
    slice (hello.fragment.take cut) 4 hello.body.length = hello.body.take (cut - 4) := by
  have hfragment : hello.fragment = (octets 1 1 ++ octets 3 hello.body.length) ++ (hello.body ++ []) := by
    simp only [HelloParts.fragment, List.append_assoc, List.append_nil]
  rw [slice_take, hfragment, slice_append _ rfl]
  simp only [List.length_append, length_octets]

theorem uint16_bytes_take {cut : Nat} (hcut : 5 ≤ cut) :
    uint16 (hello.bytes.take cut) 3 = some hello.fragment.length := by
  have hbytes : hello.bytes = (octets 1 22 ++ octets 2 hello.recordVersion) ++
      (octets 2 hello.fragment.length ++ hello.fragment) := by
    simp only [HelloParts.bytes, List.append_assoc]
  rw [uint16_eq_field, field_take hcut, hbytes]
  exact field_append (by simp only [List.length_append, length_octets]) hello.fits

theorem helloLength_take {cut : Nat} (hcut : 4 ≤ cut) :
    bigEndian (slice (hello.fragment.take cut) 1 3) = hello.body.length := by
  have hfits := hello.fits
  have hlength := hello.length_fragment
  have hwhole : slice hello.fragment 1 3 = octets 3 hello.body.length :=
    slice_append (length_octets 1 1) (length_octets 3 _)
  have hlt : hello.body.length < 256 ^ 3 := by omega
  rw [slice_take, hwhole, List.take_of_length_le (by rw [length_octets]; omega), bigEndian_octets hlt]

/-- Of a cut record, the walk sees the body, cut. -/
theorem computeJa3_take (md5 : String → String) (cut : Nat) :
    computeJa3 md5 (hello.bytes.take cut) =
      if cut < 9 then none else fingerprintBody md5 (hello.body.take (cut - 9)) := by
  have hfragment := hello.length_fragment
  have hlength : (hello.bytes.take cut).length = min cut (5 + hello.fragment.length) := by
    simp only [List.length_take, HelloParts.bytes, List.length_append, length_octets]
    omega
  rw [computeJa3]
  by_cases hrecord : cut < 5
  · rw [if_pos (.inl (by omega)), if_pos (by omega)]
  have htype : (hello.bytes.take cut)[0]? = some 22 := by
    rw [List.getElem?_take_of_lt (by omega)]
    rfl
  rw [if_neg (not_or.mpr ⟨by omega, not_not.mpr htype⟩), hello.uint16_bytes_take (by omega)]
  simp only [Option.bind_eq_bind, Option.bind_some, hello.slice_bytes_take]
  by_cases hhandshake : cut < 9
  · rw [if_pos hhandshake, if_pos (.inl (by rw [List.length_take]; omega))]
  have hhello : (hello.fragment.take (cut - 5))[0]? = some 1 := by
    rw [List.getElem?_take_of_lt (by omega)]
    rfl
  rw [if_neg hhandshake, if_neg (not_or.mpr ⟨by rw [List.length_take]; omega, not_not.mpr hhello⟩),
    hello.helloLength_take (by omega), hello.slice_fragment_take]
  rfl

/-- **A cut ClientHello goes without a fingerprint** exactly when the cut lies before the length of the compression
methods. Whatever is cut off after it, extensions and their lists included, goes unnoticed. -/
theorem truncated_hello_unfingerprinted_iff (md5 : String → String) (cut : Nat) :
    computeJa3 md5 (hello.bytes.take cut) = none ↔ cut ≤ hello.compressionLengthAt := by
  rw [computeJa3_take]
  split_ifs with hshort
  · have hlow : 46 ≤ hello.compressionLengthAt := by
      rw [HelloParts.compressionLengthAt]
      omega
    exact iff_of_true rfl (by omega)
  · rw [fingerprintBody_take_eq_none_iff]
    omega

end ClientHello

/-! ## A ClientHello without its extensions -/

/-- Twelve cipher suites, no session, the null compression method, and three extensions: a server name, the
supported groups and the point formats. -/
def sampleHello : ClientHello where
  recordVersion := 0x0303
  clientVersion := 0x0301
  random := List.replicate 32 0
  sessionId := []
  cipherSuites := [47, 53, 5, 10, 49161, 49162, 49171, 49172, 50, 56, 19, 4]
  compressionMethods := [0]
  extensions := some [⟨0, []⟩, ⟨10, octets 2 6 ++ [23, 24, 25].flatMap (octets 2)⟩, ⟨11, [1, 0]⟩]
  random_length := rfl
  sessionId_lt := by decide
  compressionMethods_lt := by decide
  fits := by decide

/-- The fingerprint of its first 71 octets, which end with the length of the compression methods: the ciphers, and
no extension. -/
def cutFingerprint : ClientHelloFingerprint :=
  ⟨"769,47-53-5-10-49161-49162-49171-49172-50-56-19-4,,,", "cd6a88daab3bd9ba3e136ed0620bed85"⟩

/-- A proper part of the record is fingerprinted. -/
theorem truncated_hello_fingerprinted :
    71 < sampleHello.bytes.length ∧
      computeJa3 (fun _ => cutFingerprint.ja3Hash) (sampleHello.bytes.take 71) = some cutFingerprint := by
  refine ⟨by decide, ?_⟩
  decide +kernel

end Pirewall
