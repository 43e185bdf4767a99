/-
# Pirewall.Flow.ConnectionStart -- connection starts

A flow record is a connection start when it is a TCP record whose opening packet was an initiation and no earlier
record of its tuple is remembered. Every TCP record is remembered, and at most `maxTracked` tuples are: the one seen
least recently is forgotten first.

What is remembered after any records is a function of their tuples alone (`keys_run`): the `maxTracked` distinct ones
seen most recently. The answers and the count of evictions are read off it.
-/
import Pirewall.Flow.Packet
import Pirewall.Lib.Dict
import Pirewall.Lib.Recency
import Pirewall.Lib.Run

namespace Pirewall

open Lib

/-! ## The tracker -/

/-- Source and destination address and port; the protocol is always TCP. -/
abbrev FiveTuple := IPv4Address × IPv4Address × Option (Fin 65536) × Option (Fin 65536)

def Flow.fiveTuple (flow : Flow) : FiveTuple :=
  (flow.sourceIp, flow.destinationIp, flow.sourcePort, flow.destinationPort)

/-- The tuples remembered, least recently seen first. -/
structure ConnectionStartTracker where
  maxTracked : Nat
  seen : Dict FiveTuple Unit
  evictions : Nat
  max_pos : 0 < maxTracked
  bounded : seen.size ≤ maxTracked

namespace ConnectionStartTracker

/-- The constructor; `ValueError` by its message. -/
def new (maxTracked : Int) : Except String ConnectionStartTracker :=
  if h : maxTracked ≤ 0 then .error "max_tracked must be positive"
  else .ok ⟨maxTracked.toNat, Dict.empty, 0, by omega, Nat.zero_le _⟩

/-- A tuple that was there goes to the end. -/
def refresh (t : ConnectionStartTracker) (key : FiveTuple) (h : t.seen.contains key = true) :
    ConnectionStartTracker :=
  { t with
    seen := t.seen.moveToEnd key
    bounded := by
      obtain ⟨v, hv⟩ := Option.isSome_iff_exists.mp h
      have hsize : (t.seen.moveToEnd key).size = t.seen.size := by
        rw [Dict.moveToEnd, hv]
        show ((t.seen.erase key).set key v).size = _
        rw [Dict.size_set_of_none (by simp), Dict.size_erase_of_some hv]
      rw [hsize]
      exact t.bounded }

/-- A new tuple; the oldest one leaves if they are too many. -/
def remember (t : ConnectionStartTracker) (key : FiveTuple) (h : ¬ t.seen.contains key = true) :
    ConnectionStartTracker :=
  have hsize : (t.seen.set key ()).size = t.seen.size + 1 := Dict.size_set_of_none (by simpa [Dict.contains] using h) ()
  if hfull : (t.seen.set key ()).size > t.maxTracked then
    { t with
      seen := (t.seen.set key ()).popFirst
      evictions := t.evictions + 1
      bounded := by
        have hpop : (t.seen.set key ()).popFirst.size = (t.seen.set key ()).size - 1 := List.length_tail
        have := t.bounded
        omega }
  else { t with seen := t.seen.set key (), bounded := by omega }

/-- `observe`. -/
def observe (t : ConnectionStartTracker) (flow : Flow) : Bool × ConnectionStartTracker :=
  if flow.protocol ≠ .tcp then (false, t)
  else if h : t.seen.contains flow.fiveTuple = true then (false, t.refresh flow.fiveTuple h)
  else (flow.openedByInitiation, t.remember flow.fiveTuple h)

/-- `__len__`. -/
def len (t : ConnectionStartTracker) : Nat := t.seen.size

/-- The tracker after a stream of records. -/
def run (t : ConnectionStartTracker) (flows : List Flow) : ConnectionStartTracker :=
  Lib.run (fun t flow => (t.observe flow).2) t flows

/-- The tuples of the records that were called connection starts, one for each. -/
def starts (t : ConnectionStartTracker) : List Flow → List FiveTuple
  | [] => []
  | flow :: rest =>
    (if (t.observe flow).1 = true then [flow.fiveTuple] else []) ++ (t.observe flow).2.starts rest

/-! ## What is remembered -/

/-- The tuples of the TCP records, in the order they were observed. -/
def tcpTuples (flows : List Flow) : List FiveTuple :=
  (flows.filter fun flow => flow.protocol = .tcp).map Flow.fiveTuple

theorem tcpTuples_snoc_of_tcp (flows : List Flow) {flow : Flow} (h : flow.protocol = .tcp) :
    tcpTuples (flows ++ [flow]) = tcpTuples flows ++ [flow.fiveTuple] := by
  rw [tcpTuples, List.filter_append, List.filter_cons_of_pos (by simpa using h), List.map_append]
  rfl

theorem tcpTuples_snoc_of_ne (flows : List Flow) {flow : Flow} (h : flow.protocol ≠ .tcp) :
    tcpTuples (flows ++ [flow]) = tcpTuples flows := by
  rw [tcpTuples, List.filter_append, List.filter_cons_of_neg (by simpa using h), List.filter_nil, List.append_nil]
  rfl

/-- The tracker remembers the tuples seen most recently, and has counted those it forgot. -/
structure Follows (t : ConnectionStartTracker) (tuples : List FiveTuple) : Prop where
  keys : t.seen.keys = recent t.maxTracked tuples
  evictions : t.evictions = forgotten t.maxTracked tuples

variable {t : ConnectionStartTracker} {tuples : List FiveTuple}

theorem Follows.contains_iff (h : t.Follows tuples) (key : FiveTuple) :
    t.seen.contains key = true ↔ key ∈ recent t.maxTracked tuples := by
  rw [← h.keys, Dict.mem_keys_iff, Dict.contains, Option.isSome_iff_exists]

theorem Follows.refresh (h : t.Follows tuples) {key : FiveTuple} (hk : t.seen.contains key = true) :
    (t.refresh key hk).Follows (tuples ++ [key]) := by
  have hmem := (h.contains_iff key).mp hk
  constructor
  · show (t.seen.moveToEnd key).keys = recent t.maxTracked _
    rw [recent_snoc t.max_pos, if_pos hmem, Dict.keys_moveToEnd (h.keys ▸ hmem), h.keys]
  · show t.evictions = forgotten t.maxTracked _
    rw [forgotten_snoc t.max_pos, if_neg fun hf => hf.1 hmem, h.evictions, Nat.add_zero]

theorem Follows.remember (h : t.Follows tuples) {key : FiveTuple} (hk : ¬ t.seen.contains key = true) :
    (t.remember key hk).Follows (tuples ++ [key]) := by
  have hmem : key ∉ recent t.maxTracked tuples := fun hr => hk ((h.contains_iff key).mpr hr)
  have hkeys : (t.seen.set key ()).keys = recent t.maxTracked tuples ++ [key] := by
    rw [Dict.keys_set, h.keys, if_neg hmem]
  have hsize : (t.seen.set key ()).size = (recent t.maxTracked tuples).length + 1 := by
    rw [Dict.size, ← List.length_map Prod.fst]
    exact (congrArg List.length hkeys).trans List.length_append
  unfold ConnectionStartTracker.remember
  dsimp only
  split
  · -- one too many: the least recently seen tuple is forgotten, and counted
    rename_i hfull
    have hle : t.maxTracked ≤ (recent t.maxTracked tuples).length := by omega
    have hpos := t.max_pos
    constructor
    · show (t.seen.set key ()).popFirst.keys = recent t.maxTracked _
      have hpop : (t.seen.set key ()).popFirst.keys = (t.seen.set key ()).keys.tail := List.map_tail
      rw [recent_snoc hpos, if_neg hmem, if_pos hle, hpop, hkeys,
        List.tail_append_of_ne_nil (List.ne_nil_of_length_pos (by omega))]
    · show t.evictions + 1 = forgotten t.maxTracked _
      rw [forgotten_snoc hpos, if_pos ⟨hmem, hle⟩, h.evictions]
  · rename_i hroom
    have hlt : ¬ t.maxTracked ≤ (recent t.maxTracked tuples).length := by omega
    constructor
    · show (t.seen.set key ()).keys = recent t.maxTracked _
      rw [recent_snoc t.max_pos, if_neg hmem, if_neg hlt, hkeys]
    · show t.evictions = forgotten t.maxTracked _
      rw [forgotten_snoc t.max_pos, if_neg fun hf => hlt hf.2, h.evictions]
      rfl

@[simp] theorem observe_maxTracked (t : ConnectionStartTracker) (flow : Flow) :
    (t.observe flow).2.maxTracked = t.maxTracked := by
  unfold observe remember refresh
  dsimp only
  split_ifs <;> rfl

/-- One record more. -/
theorem Follows.observe {flows : List Flow} (h : t.Follows (tcpTuples flows)) (flow : Flow) :
    (t.observe flow).2.Follows (tcpTuples (flows ++ [flow])) := by
  unfold ConnectionStartTracker.observe
  split
  · rename_i hproto
    rw [tcpTuples_snoc_of_ne flows hproto]
    exact h
  · rename_i hproto
    rw [tcpTuples_snoc_of_tcp flows (not_not.mp hproto)]
    split
    · rename_i hk
      exact h.refresh hk
    · rename_i hk
      exact h.remember hk

theorem run_snoc (t : ConnectionStartTracker) (flows : List Flow) (flow : Flow) :
    t.run (flows ++ [flow]) = ((t.run flows).observe flow).2 := run_append _ _ _ _

theorem run_maxTracked (t : ConnectionStartTracker) (flows : List Flow) : (t.run flows).maxTracked = t.maxTracked := by
  induction flows using List.reverseRecOn with
  | nil => rfl
  | append_singleton flows flow ih => rw [run_snoc, observe_maxTracked, ih]

theorem Follows.run (h : t.Follows []) (flows : List Flow) : (t.run flows).Follows (tcpTuples flows) := by
  induction flows using List.reverseRecOn with
  | nil => exact h
  | append_singleton flows flow ih =>
    rw [run_snoc]
    exact ih.observe flow

/-! ## What is a start -/

/-- The answer, by what is remembered. -/
theorem Follows.observe_iff (h : t.Follows tuples) (flow : Flow) :
    (t.observe flow).1 = true ↔
      flow.protocol = .tcp ∧ flow.openedByInitiation = true ∧ flow.fiveTuple ∉ recent t.maxTracked tuples := by
  unfold ConnectionStartTracker.observe
  split
  · rename_i hproto
    simp [hproto]
  · rename_i hproto
    rw [not_not] at hproto
    split
    · rename_i hk
      simp [(h.contains_iff _).mp hk]
    · rename_i hk
      have hmem : flow.fiveTuple ∉ recent t.maxTracked tuples := fun hr => hk ((h.contains_iff _).mpr hr)
      simp [hproto, hmem]

theorem starts_snoc (t : ConnectionStartTracker) (flows : List Flow) (flow : Flow) :
    t.starts (flows ++ [flow]) =
      t.starts flows ++ if ((t.run flows).observe flow).1 = true then [flow.fiveTuple] else [] := by
  induction flows generalizing t with
  | nil => exact List.append_nil _
  | cons first rest ih =>
    rw [List.cons_append, starts, starts, ih, List.append_assoc]
    rfl

/-- A start is a tuple that was observed. -/
theorem Follows.starts_subset (h : t.Follows []) (flows : List Flow) : t.starts flows ⊆ tcpTuples flows := by
  induction flows using List.reverseRecOn with
  | nil => exact List.Subset.refl _
  | append_singleton flows flow ih =>
    rw [starts_snoc]
    split
    · rename_i hstart
      have htcp := ((h.run flows).observe_iff flow).mp hstart
      rw [tcpTuples_snoc_of_tcp flows htcp.1]
      exact List.append_subset.mpr ⟨List.Subset.trans ih (List.subset_append_left _ _), List.subset_append_right _ _⟩
    · rw [List.append_nil]
      refine List.Subset.trans ih ?_
      rw [tcpTuples, tcpTuples, List.filter_append, List.map_append]
      exact List.subset_append_left _ _

/-- While the tuples are few, a tuple starts once. -/
theorem Follows.starts_nodup (h : t.Follows []) (flows : List Flow)
    (hfew : (tcpTuples flows).dedup.length ≤ t.maxTracked) : (t.starts flows).Nodup := by
  induction flows using List.reverseRecOn with
  | nil => exact List.nodup_nil
  | append_singleton flows flow ih =>
    have hsub : tcpTuples flows ⊆ tcpTuples (flows ++ [flow]) := by
      rw [tcpTuples, tcpTuples, List.filter_append, List.map_append]
      exact List.subset_append_left _ _
    have hearlier : (tcpTuples flows).dedup.length ≤ t.maxTracked := by
      refine le_trans (List.Nodup.subperm (List.nodup_dedup _) ?_).length_le hfew
      intro key hkey
      exact List.mem_dedup.mpr (hsub (List.mem_dedup.mp hkey))
    rw [starts_snoc]
    split
    · rename_i hstart
      -- all tuples observed are remembered, and this one is not among them
      have hnew := (((h.run flows).observe_iff flow).mp hstart).2.2
      rw [run_maxTracked, recent_of_le hearlier, List.mem_dedup] at hnew
      refine List.nodup_append.mpr ⟨ih hearlier, List.nodup_singleton _, ?_⟩
      rintro key hkey _ (_ | ⟨_, ⟨⟩⟩) rfl
      exact hnew (h.starts_subset flows hkey)
    · rw [List.append_nil]
      exact ih hearlier

theorem follows_new {maxTracked : Int} (h : new maxTracked = .ok t) :
    t.maxTracked = maxTracked.toNat ∧ t.Follows [] := by
  unfold new at h
  split at h
  · cases h
  · cases h
    exact ⟨rfl, (recent_nil _).symm, rfl⟩

/-- After any records, a record is a start when it is a TCP record opened by an initiation whose tuple is not among
the `maxTracked` distinct ones observed most recently. These are the ones remembered, and `evictions` counts those
forgotten. While the distinct tuples are no more than that, a tuple starts at most once. -/
theorem starts_are_first_of_recent {maxTracked : Int} {t : ConnectionStartTracker} (h : new maxTracked = .ok t)
    (flows : List Flow) :
    (∀ flow : Flow, ((t.run flows).observe flow).1 = true ↔
      flow.protocol = .tcp ∧ flow.openedByInitiation = true ∧
        flow.fiveTuple ∉ recent maxTracked.toNat (tcpTuples flows)) ∧
    (t.run flows).seen.keys = recent maxTracked.toNat (tcpTuples flows) ∧
    ((t.run flows).len : Int) ≤ maxTracked ∧
    (t.run flows).evictions = forgotten maxTracked.toNat (tcpTuples flows) ∧
    (((tcpTuples flows).dedup.length : Int) ≤ maxTracked → (t.starts flows).Nodup) := by
  obtain ⟨hmax, hnew⟩ := follows_new h
  have hrun := hnew.run flows
  have hpos := t.max_pos
  have hbound := (t.run flows).bounded
  rw [← hmax]
  rw [run_maxTracked] at hbound
  refine ⟨?_, ?_, ?_, ?_, ?_⟩
  · intro flow
    have := hrun.observe_iff flow
    rwa [run_maxTracked] at this
  · rw [hrun.keys, run_maxTracked]
  · show ((t.run flows).seen.size : Int) ≤ maxTracked
    omega
  · rw [hrun.evictions, run_maxTracked]
  · intro hfew
    exact hnew.starts_nodup flows (by omega)

/-- A connection of one packet, from a given port. -/
def attempt (port : Fin 65536) : Flow where
  sourceIp := 3232235786
  destinationIp := 3405803786
  sourcePort := some port
  destinationPort := some 443
  protocol := .tcp
  firstSeen := .firstSecond
  lastSeen := .firstSecond
  packetCount := 1
  byteCount := 60
  forwardPacketCount := 1
  backwardPacketCount := 0
  forwardByteCount := 60
  backwardByteCount := 0
  tcpFlags := { syn := 1, ack := 0, fin := 0, rst := 0, psh := 0, urg := 0 }
  packetSizeStats := ⟨60, 60, 60, 0⟩
  interArrivalStats := ⟨0, 0, 0, 0⟩
  payloadStats := ⟨0, 0, 0, 0, 0, 0⟩
  openedByInitiation := true
  sourceMac := none
  destinationMac := none
  valid := by simp [FlowFields.Valid]

/-- With room for one tuple, the second one drives the first out, and the first one starts again. -/
theorem starts_are_first_of_recent_full :
    ∃ t, new 1 = .ok t ∧ (attempt 5000).fiveTuple ∈ tcpTuples [attempt 5000, attempt 5001] ∧
      ((t.run [attempt 5000, attempt 5001]).observe (attempt 5000)).1 = true := by
  have hnew : new 1 = .ok ⟨1, Dict.empty, 0, by decide, by decide⟩ := rfl
  have hnot : (attempt 5000).fiveTuple ∉ recent 1 (tcpTuples [attempt 5000, attempt 5001]) := by decide
  refine ⟨_, hnew, by decide, ?_⟩
  exact ((starts_are_first_of_recent hnew [attempt 5000, attempt 5001]).1 (attempt 5000)).mpr ⟨rfl, rfl, hnot⟩

end ConnectionStartTracker

end Pirewall
