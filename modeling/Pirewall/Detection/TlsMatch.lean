/-
# Pirewall.Detection.TlsMatch -- the structural TLS detectors

`_inspect_tcp_payload_unsafe` asks two detectors about a payload: `check_heartbleed`, read here field by field, and
the fingerprint of a ClientHello, which is a hash looked up in a table and stays a parameter.
-/
import Pirewall.Flow.Tracker

namespace Pirewall

/-- `HeartbleedMatch`. -/
structure HeartbleedMatch where
  claimedPayloadLength : Nat
  availableBytes : Nat
  deriving DecidableEq

/-- `struct.unpack("!H", …)` of the two bytes at an offset. -/
def uint16 (bytes : List UInt8) (offset : Nat) : Option Nat := do
  let high ← bytes[offset]?
  let low ← bytes[offset + 1]?
  return high.toNat * 256 + low.toNat

/-- `_LEGAL_VERSIONS`. -/
def legalVersions : List Nat := [0x0300, 0x0301, 0x0302, 0x0303, 0x0304]

/-- `_MAX_RECORD_LENGTH`. -/
def maxRecordLength : Nat := 2 ^ 14 + 256

/-- `check_heartbleed`: a complete heartbeat record that claims a longer payload than it has room for. -/
def checkHeartbleed (payload : List UInt8) : Option HeartbleedMatch :=
  if payload.length < 5 then none
  else if payload[0]? ≠ some 24 then none
  else do
    let version ← uint16 payload 1
    if version ∉ legalVersions then none
    else
      let declaredLength ← uint16 payload 3
      if declaredLength < 3 ∨ declaredLength > maxRecordLength then none
      else if payload.length < 5 + declaredLength then none
      else
        let fragment := (payload.drop 5).take declaredLength
        if fragment.length < 3 then none
        else if fragment[0]? ≠ some 1 ∧ fragment[0]? ≠ some 2 then none
        else
          let claimedPayloadLength ← uint16 fragment 1
          let availableBytes := declaredLength - 3
          if claimedPayloadLength > availableBytes then some ⟨claimedPayloadLength, availableBytes⟩ else none

/-- `KnownToolMatch`, with the name of the tool as `repr` shows it. -/
structure KnownToolMatch where
  tool : String
  ja3Hash : String

/-- `compute_ja3`, the hash of a ClientHello, and `match_known_tool`. -/
structure ToolFingerprints where
  computeJa3 : List UInt8 → Option String
  matchKnownTool : String → Option KnownToolMatch

/-- What a payload is found to be. -/
structure TlsMatch where
  signature : String
  confidence : ℚ
  detail : String
  deriving DecidableEq

/-- `_inspect_tcp_payload_unsafe`, up to the match. -/
def inspectTcpPayload (fingerprints : ToolFingerprints) (payload : List UInt8) : Option TlsMatch :=
  if payload = [] then none
  else
    match checkHeartbleed payload with
    | some heartbleed => some
        { signature := "heartbleed"
          confidence := 1
          detail := "TLS heartbeat claimed payload_length=" ++ toString heartbleed.claimedPayloadLength ++
            " but the record held only " ++ toString heartbleed.availableBytes ++
            " bytes (CVE-2014-0160 signature)" }
    | none => do
        let fingerprint ← fingerprints.computeJa3 payload
        let knownTool ← fingerprints.matchKnownTool fingerprint
        return {
          signature := "ja3:" ++ knownTool.ja3Hash
          confidence := 6 / 10
          detail := "TLS ClientHello JA3 fingerprint matches known tool " ++ knownTool.tool }

/-- A match of the first detector claims more than its record holds. -/
theorem checkHeartbleed_claims {payload : List UInt8} {found : HeartbleedMatch}
    (h : checkHeartbleed payload = some found) :
    payload[0]? = some 24 ∧ found.availableBytes < found.claimedPayloadLength := by
  unfold checkHeartbleed at h
  split_ifs at h with hlength htype
  refine ⟨not_not.mp htype, ?_⟩
  obtain ⟨version, -, h⟩ := Option.bind_eq_some_iff.mp h
  split_ifs at h
  obtain ⟨declaredLength, -, h⟩ := Option.bind_eq_some_iff.mp h
  split_ifs at h
  dsimp only at h
  split_ifs at h
  obtain ⟨claimed, -, h⟩ := Option.bind_eq_some_iff.mp h
  split_ifs at h with hclaims
  cases h
  exact hclaims

end Pirewall
