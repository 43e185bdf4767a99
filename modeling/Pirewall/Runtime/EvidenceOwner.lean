/-
# Pirewall.Runtime.EvidenceOwner -- whose evidence a match becomes

A match is cached under a key, and keys come back: a connection that follows another between the same ports has the
key of the one before. What keeps them apart is order. `Owned` says of every cached match that detection will come to
the record that counts its packet before any other of the key: the first of the line that has the key counts it, or
there is none and the open flow does, or the packet is about to be aggregated.

Not every step keeps that. `InOrder` says when a step does, from the state before it; along a run of such steps every
match is attached to the flow it was found in.

The line of a key runs through every place where a record can be on its way to detection: the record that detection
has taken and the queue behind it, the records of a sweep that are still to be put there, those a packet completed,
and those the engine has not handed over yet. `awaits_iff` cuts the line at these places, so the lemmas go place by
place: a record that detection comes to takes the match with it if it counts the packet, and is of another key if it
does not; one that joins the line behind another of its key changes nothing for the match; and one that a full queue
refuses leaves the line. Behind all records stands the flow that is open, or the packet that is about to be aggregated
(`Expects`).

The order is broken by a match that is found while an earlier flow of its key is on its way, by a flow that is refused
or overtaken, and by a sweep that closes a flow just before the packet would have been counted in it. The last section
has a run of the first kind: a heartbeat that follows a reset between the same ports.
-/
import Pirewall.Lib.Run
import Pirewall.Runtime.TlsEvidence

namespace Pirewall

open Lib TracedAggregator

namespace TlsDaemon

/-! ## The invariant -/

/-- With no record of the key on its way, its next one will count the packet. -/
def Expects (d : TlsDaemon) (key : FlowKey) (number : Nat) : Prop :=
  d.traced.Holds key number ∨ d.path.InFlight key number

/-- The next record of the key that detection comes to counts the packet. -/
def Awaits (d : TlsDaemon) (key : FlowKey) (number : Nat) : Prop :=
  Reaches d.line key number (d.Expects key number)

/-- Every match is attached to the flow it was found in, or waits for it. -/
structure Owned (d : TlsDaemon) : Prop where
  filed : d.traced.aggregator.Filed
  awaits : ∀ key cached, d.evidence.get? key = some cached → d.Awaits key cached.packet
  attached : ∀ p ∈ d.attached, p.1.packet ∈ p.2.packets

variable {settings : TlsSettings} {d : TlsDaemon} {key : FlowKey} {number : Nat}

theorem Owned.init (config : FlowConfig) (protectedNetwork : Option IPv4Network) (flowQueueMax : Nat)
    (native : Bool) : Owned (.init config protectedNetwork flowQueueMax native) where
  filed := fun _ _ hget => nomatch hget
  awaits := fun _ _ hget => nomatch hget
  attached := fun _ hp => nomatch hp

/-- A line in its parts. -/
theorem awaits_iff : d.Awaits key number ↔
    Reaches d.ahead key number (Reaches d.swept key number
      (Reaches d.handing.completed key number (Reaches d.path.completed key number (d.Expects key number)))) := by
  unfold Awaits line
  rw [reaches_append, reaches_append, reaches_append]

/-! ## The queue -/

theorem putNowait_room (h : d.hasRoom) (record : TracedFlow) :
    (d.flowQueue.putNowait record).items = d.flowQueue.items ++ [record] := by
  unfold BoundedQueue.putNowait
  rw [if_neg h]

theorem putNowait_full (h : ¬ d.hasRoom) (record : TracedFlow) :
    (d.flowQueue.putNowait record).items = d.flowQueue.items := by
  unfold BoundedQueue.putNowait
  rw [if_pos (not_not.mp h)]

/-- A record of another key that is put into the queue, or refused, changes nothing for the key. -/
theorem reaches_put_other {record : TracedFlow} (hkey : record.key ≠ key) {P : Prop} :
    Reaches (d.taken.toList ++ (d.flowQueue.putNowait record).items) key number P ↔
      Reaches d.ahead key number P := by
  by_cases hroom : d.hasRoom
  · rw [putNowait_room hroom, ← List.append_assoc, reaches_append]
    have hskip : Reaches [record] key number P ↔ P :=
      reaches_of_absent fun _ hmem => List.mem_singleton.mp hmem ▸ hkey
    exact ⟨fun h => h.imp hskip.mp, fun h => h.imp hskip.mpr⟩
  · rw [putNowait_full hroom]
    exact Iff.rfl

/-- Nor does one of the key, if there is one ahead of it. -/
theorem reaches_put_behind {record : TracedFlow} (hahead : Has d.ahead key) {P Q : Prop} :
    Reaches (d.taken.toList ++ (d.flowQueue.putNowait record).items) key number P ↔
      Reaches d.ahead key number Q := by
  by_cases hroom : d.hasRoom
  · rw [putNowait_room hroom, ← List.append_assoc, reaches_append]
    exact reaches_of_present hahead
  · rw [putNowait_full hroom]
    exact reaches_of_present hahead

/-! ## Caching -/

/-- Inspecting a payload caches a match that will be awaited, and leaves the others as they are. -/
theorem inspect_get? {segment : TcpPayload} {cached : CachedTlsMatch}
    (h : (d.inspect settings number segment).evidence.get? key = some cached) :
    (found settings number segment = some cached ∧ key = segment.flowKey) ∨ d.evidence.get? key = some cached := by
  unfold inspect at h
  cases hfound : found settings number segment with
  | none =>
    rw [hfound] at h
    exact .inr h
  | some new =>
    rw [hfound] at h
    rcases cacheTlsMatch_get? h with ⟨hkey, hsame⟩ | hbefore
    · exact .inl ⟨congrArg some hsame.symm, hkey⟩
    · exact .inr hbefore

/-- A match has the number of the packet it was found in. -/
theorem found_packet {segment : TcpPayload} {cached : CachedTlsMatch}
    (h : found settings number segment = some cached) : cached.packet = number := by
  unfold found at h
  obtain ⟨_, -, rfl⟩ := Option.map_eq_some_iff.mp h
  rfl

theorem inspect_fields (d : TlsDaemon) (settings : TlsSettings) (number : Nat) (segment : TcpPayload) :
    d.inspect settings number segment =
      { d with evidence := (d.inspect settings number segment).evidence } := by
  unfold inspect
  cases found settings number segment <;> rfl

/-! ## One step -/

theorem Owned.read (h : Owned d) {frame : CapturedFrame} (hpath : d.path = .python none)
    (horder : ∀ packet ∈ settings.parser.parsePacket frame,
      ∀ segment ∈ handleTcpPayload settings.parser frame packet,
        (found settings d.frames segment).isSome → ¬ Has d.line segment.flowKey) :
    Owned (d.read settings frame) := by
  unfold TlsDaemon.read
  cases hparse : settings.parser.parsePacket frame with
  | none => exact ⟨h.filed, h.awaits, h.attached⟩
  | some packet =>
    -- the matches there were wait as before: no packet was in flight
    have hkept : ∀ key cached, d.evidence.get? key = some cached →
        Reaches d.line key cached.packet
          (d.traced.Holds key cached.packet ∨ d.frames = cached.packet ∧ packet.flowKey? = some key) := by
      intro key cached hget
      refine (h.awaits key cached hget).imp (Or.imp_right fun hflight => ?_)
      rw [hpath] at hflight
      exact hflight.elim
    have hline : d.line = d.ahead ++ (d.swept ++ (d.handing.completed ++ [])) := by
      unfold line
      rw [hpath]
      rfl
    dsimp only
    cases hsegment : handleTcpPayload settings.parser frame packet with
    | none =>
      refine ⟨h.filed, fun key cached hget => ?_, h.attached⟩
      have hawaits := hkept key cached hget
      rw [hline] at hawaits
      exact hawaits
    | some segment =>
      have hfresh := horder packet hparse segment hsegment
      rw [hline] at hkept hfresh
      dsimp only
      rw [d.inspect_fields]
      refine ⟨h.filed, fun key cached hget => ?_, h.attached⟩
      rcases inspect_get? hget with ⟨hfound, rfl⟩ | hbefore
      · -- the new match: its packet is the one in flight
        refine (reaches_of_absent fun record hrecord hkey => ?_).mpr
          (.inr ⟨(found_packet hfound).symm, handleTcpPayload_flowKey hsegment⟩)
        exact hfresh (hfound ▸ rfl) ⟨record, hrecord, hkey⟩
      · exact hkept key cached hbefore

theorem Owned.aggregate (h : Owned d) {inFlight : Nat} {packet : PacketMetadata}
    (hpath : d.path = .python (some (inFlight, packet))) : Owned (d.aggregate inFlight packet) := by
  refine ⟨processPacket_filed h.filed inFlight packet, fun key cached hget => ?_, h.attached⟩
  have hawaits := awaits_iff.mp (h.awaits key cached hget)
  rw [hpath] at hawaits
  refine awaits_iff.mpr (hawaits.imp fun hswept => hswept.imp fun hhanding => ?_)
  show Reaches (d.handing.completed ++ (d.traced.processPacket inFlight packet).1) key cached.packet _
  rw [reaches_append]
  refine hhanding.imp fun hheld => ?_
  have hcounted : d.traced.Holds key cached.packet ∨ packet.flowKey? = some key ∧ cached.packet = inFlight := by
    unfold Expects at hheld
    rw [hpath] at hheld
    exact hheld.imp_right fun hflight => ⟨hflight.2, hflight.1.symm⟩
  exact (processPacket_counts h.filed inFlight packet hcounted).imp Or.inl

/-- What the engine keeps and what it sheds is what a frame completes. -/
theorem kept_append_shed (settings : TlsSettings) (pending : NumberedBatch) (records : List TracedFlow) :
    kept settings pending records ++ shed settings pending records = records := by
  unfold kept shed
  cases settings.maxPendingCompleted with
  | none => exact List.append_nil records
  | some limit => exact List.take_append_drop _ records

theorem Owned.feed (h : Owned d) {pending : NumberedBatch} {frame : CapturedFrame}
    (hpath : d.path = .native pending)
    (horder : ∀ packet ∈ settings.parser.parsePacket frame,
      ∀ record ∈ shed settings pending (d.traced.processPacket d.frames packet).1,
        d.evidence.contains record.key → Has d.line record.key) :
    Owned (d.feed settings pending frame) := by
  unfold TlsDaemon.feed
  cases hparse : settings.parser.parsePacket frame with
  | none => exact ⟨h.filed, h.awaits, h.attached⟩
  | some packet =>
    refine ⟨processPacket_filed h.filed d.frames packet, fun key cached hget => ?_, h.attached⟩
    have hsplit := kept_append_shed settings pending (d.traced.processPacket d.frames packet).1
    set keeps := kept settings pending (d.traced.processPacket d.frames packet).1
    have hawaits := h.awaits key cached hget
    have hline : d.line = d.ahead ++ (d.swept ++ (d.handing.completed ++ pending.completed)) := by
      unfold line
      rw [hpath]
      rfl
    show Reaches (d.ahead ++ (d.swept ++ (d.handing.completed ++ (pending.completed ++ keeps)))) _ _ _
    rw [← List.append_assoc d.handing.completed, ← List.append_assoc d.swept, ← List.append_assoc d.ahead, ← hline,
      reaches_append]
    by_cases hahead : Has d.line key
    · exact (reaches_of_present hahead).mp hawaits
    · -- its flow is the next to come, and the engine does not shed that
      refine hawaits.imp fun hheld => ?_
      have hopen : d.traced.Holds key cached.packet := by
        refine hheld.resolve_right fun hflight => ?_
        rw [hpath] at hflight
        exact hflight
      have hcounts := processPacket_counts h.filed d.frames packet (.inl hopen)
      unfold Counts at hcounts
      rw [← hsplit, reaches_append] at hcounts
      refine hcounts.imp fun hshed => .inl ((reaches_of_absent fun record hrecord hkey => ?_).mp hshed)
      refine hahead (hkey ▸ horder packet hparse record hrecord ?_)
      rw [hkey]
      exact Option.isSome_of_eq_some hget

theorem Owned.drain (h : Owned d) {pending : NumberedBatch} (hpath : d.path = .native pending)
    (hhanding : d.handing.completed = []) : Owned { d with path := .native ⟨[], []⟩, handing := pending } := by
  refine ⟨h.filed, fun key cached hget => ?_, h.attached⟩
  have hawaits := awaits_iff.mp (h.awaits key cached hget)
  unfold Expects at hawaits
  rw [hpath, hhanding] at hawaits
  exact awaits_iff.mpr hawaits

theorem Owned.inspectTcpPayload (h : Owned d) {segment : TcpPayload} {rest : List (Nat × TcpPayload)}
    (horder : (found settings number segment).isSome → Counts d.line d.traced segment.flowKey number) :
    Owned { d.inspect settings number segment with handing := { d.handing with tlsPayloads := rest } } := by
  rw [d.inspect_fields]
  refine ⟨h.filed, fun key cached hget => ?_, h.attached⟩
  rcases inspect_get? hget with ⟨hfound, rfl⟩ | hbefore
  · rw [found_packet hfound]
    exact (horder (hfound ▸ rfl)).imp Or.inl
  · exact h.awaits key cached hbefore

theorem Owned.enqueue (h : Owned d) {record : TracedFlow} {rest : List TracedFlow}
    (hhanding : d.handing = ⟨record :: rest, []⟩)
    (horder : d.evidence.contains record.key → Has d.ahead record.key ∨ d.hasRoom ∧ ¬ Has d.swept record.key) :
    Owned { d with handing := ⟨rest, []⟩, flowQueue := d.flowQueue.putNowait record } := by
  refine ⟨h.filed, fun key cached hget => ?_, h.attached⟩
  have hawaits := awaits_iff.mp (h.awaits key cached hget)
  rw [hhanding] at hawaits
  change Reaches d.ahead key cached.packet (Reaches d.swept key cached.packet
    (Reaches ([record] ++ rest) key cached.packet _)) at hawaits
  rw [reaches_append] at hawaits
  refine awaits_iff.mpr ?_
  show Reaches (d.taken.toList ++ (d.flowQueue.putNowait record).items) key cached.packet _
  by_cases hkey : record.key = key
  · rcases horder (by rw [hkey]; exact Option.isSome_of_eq_some hget) with hahead | ⟨hroom, hswept⟩
    · exact (reaches_put_behind (hkey ▸ hahead)).mpr hawaits
    · -- no swept record of the key is overtaken
      rw [putNowait_room hroom, ← List.append_assoc, reaches_append]
      refine hawaits.imp fun hthen => ?_
      rw [hkey] at hswept
      have hown := (reaches_of_absent fun other hother heq => hswept ⟨other, hother, heq⟩).mp hthen
      exact (reaches_of_present ⟨record, List.mem_cons_self, hkey⟩).mp hown
  · refine (reaches_put_other hkey).mpr (hawaits.imp fun hswept => hswept.imp ?_)
    exact (reaches_of_absent fun _ hmem => List.mem_singleton.mp hmem ▸ hkey).mp

theorem Owned.sweepFlows (h : Owned d) {now : DateTime} (hswept : d.swept = [])
    (horder : ∀ entry ∈ d.traced.aggregator.closing now, ∀ cached ∈ d.evidence.get? entry.1,
      Has d.ahead entry.1 ∨
        ¬ Has (d.handing.completed ++ d.path.completed) entry.1 ∧ ¬ d.path.InFlight entry.1 cached.packet) :
    Owned { d with traced := (d.traced.sweepTimeouts now).2, swept := (d.traced.sweepTimeouts now).1 } := by
  refine ⟨sweepTimeouts_filed h.filed now, fun key cached hget => ?_, h.attached⟩
  have hawaits := h.awaits key cached hget
  unfold Awaits line at hawaits
  rw [hswept, List.nil_append, reaches_append] at hawaits
  show Reaches (d.ahead ++ ((d.traced.sweepTimeouts now).1 ++ (d.handing.completed ++ d.path.completed))) key
    cached.packet _
  rw [reaches_append, reaches_append]
  by_cases hahead : Has d.ahead key
  · exact (reaches_of_present hahead).mp hawaits
  refine hawaits.imp fun hthen => ?_
  have hcloses : Has (d.traced.sweepTimeouts now).1 key →
      ¬ Has (d.handing.completed ++ d.path.completed) key ∧ ¬ d.path.InFlight key cached.packet := by
    rintro ⟨record, hrecord, rfl⟩
    obtain ⟨entry, hentry, rfl⟩ := List.mem_map.mp hrecord
    have hkey := record_key h.filed (List.mem_of_mem_filter hentry)
    rw [hkey] at hget hahead ⊢
    exact (horder entry hentry cached hget).resolve_left hahead
  by_cases hcloses' : Has (d.traced.sweepTimeouts now).1 key
  · -- the flow of the match is closed, and nothing of its key is behind
    obtain ⟨hbehind, hflight⟩ := hcloses hcloses'
    have hheld := (reaches_of_absent fun record hrecord hkey => hbehind ⟨record, hrecord, hkey⟩).mp hthen
    have hcounts := sweepTimeouts_counts h.filed now (hheld.resolve_right hflight)
    exact (reaches_of_present hcloses').mp hcounts
  · -- no flow of the key is closed
    have habsent : ∀ record ∈ (d.traced.sweepTimeouts now).1, record.key ≠ key :=
      fun record hrecord hkey => hcloses' ⟨record, hrecord, hkey⟩
    refine (reaches_of_absent habsent).mpr (hthen.imp (Or.imp_left fun hheld => ?_))
    exact (reaches_of_absent habsent).mp (sweepTimeouts_counts h.filed now hheld)

theorem Owned.enqueueSwept (h : Owned d) {record : TracedFlow} {rest : List TracedFlow}
    (hswept : d.swept = record :: rest)
    (horder : d.evidence.contains record.key → Has d.ahead record.key ∨ d.hasRoom) :
    Owned { d with swept := rest, flowQueue := d.flowQueue.putNowait record } := by
  refine ⟨h.filed, fun key cached hget => ?_, h.attached⟩
  have hawaits := awaits_iff.mp (h.awaits key cached hget)
  rw [hswept] at hawaits
  change Reaches d.ahead key cached.packet (Reaches ([record] ++ rest) key cached.packet _) at hawaits
  rw [reaches_append] at hawaits
  refine awaits_iff.mpr ?_
  show Reaches (d.taken.toList ++ (d.flowQueue.putNowait record).items) key cached.packet _
  by_cases hkey : record.key = key
  · rcases horder (by rw [hkey]; exact Option.isSome_of_eq_some hget) with hahead | hroom
    · exact (reaches_put_behind (hkey ▸ hahead)).mpr hawaits
    · rw [putNowait_room hroom, ← List.append_assoc, reaches_append]
      exact hawaits
  · refine (reaches_put_other hkey).mpr (hawaits.imp ?_)
    exact (reaches_of_absent fun _ hmem => List.mem_singleton.mp hmem ▸ hkey).mp

theorem Owned.takeFlow (h : Owned d) {record : TracedFlow} {rest : List TracedFlow} (htaken : d.taken = none)
    (hitems : d.flowQueue.items = record :: rest) :
    Owned { d with taken := some record, flowQueue := { d.flowQueue with items := rest } } := by
  refine ⟨h.filed, fun key cached hget => ?_, h.attached⟩
  have hawaits := h.awaits key cached hget
  unfold Awaits line ahead at hawaits
  rw [htaken, hitems] at hawaits
  exact hawaits

/-- What waits for another key does not wait for the record detection is at. -/
theorem Awaits.taken {record : TracedFlow} (htaken : d.taken = some record) (hkey : record.key ≠ key)
    (h : d.Awaits key number) {d' : TlsDaemon} (hline : d'.line = { d with taken := none }.line)
    (hexpects : d'.Expects key number = d.Expects key number) : d'.Awaits key number := by
  unfold Awaits at h ⊢
  rw [hline, hexpects]
  unfold line ahead at h
  rw [htaken, List.append_assoc, reaches_append] at h
  exact (reaches_of_absent fun _ hmem => List.mem_singleton.mp hmem ▸ hkey).mp h

/-- Detection attaches to the record it is at the match that waits for it. -/
theorem Owned.pop (h : Owned d) {record : TracedFlow} {cached : CachedTlsMatch} (htaken : d.taken = some record)
    (hcached : d.evidence.get? record.key = some cached) :
    Owned { d with
      taken := none, evidence := d.evidence.erase record.key, attached := d.attached ++ [(cached, record)] } := by
  refine ⟨h.filed, fun key other hget => ?_, fun p hp => ?_⟩
  · rw [Dict.get?_erase] at hget
    split_ifs at hget with hkey
    exact (h.awaits key other hget).taken htaken (Ne.symm hkey) rfl rfl
  · rcases List.mem_append.mp hp with hbefore | hnew
    · exact h.attached p hbefore
    · cases List.mem_singleton.mp hnew
      have hawaits := h.awaits record.key cached hcached
      unfold Awaits line ahead at hawaits
      rw [htaken] at hawaits
      exact Reaches.cons hawaits

theorem Owned.pass (h : Owned d) {record : TracedFlow} (htaken : d.taken = some record)
    (hcached : d.evidence.get? record.key = none) : Owned { d with taken := none } := by
  refine ⟨h.filed, fun key other hget => ?_, h.attached⟩
  refine (h.awaits key other hget).taken htaken (fun hkey => ?_) rfl rfl
  rw [hkey, hget] at hcached
  cases hcached

theorem Owned.recover (h : Owned d) {pending : NumberedBatch} (hpath : d.path = .native pending)
    (horder : ∀ key ∈ d.evidence.keys, (d.traced.aggregator.table.flows.get? key).isSome → Has d.line key) :
    Owned { d with traced := d.traced.flush.2 } := by
  refine ⟨flush_filed d.traced, fun key cached hget => ?_, h.attached⟩
  have hawaits := h.awaits key cached hget
  by_cases hline : Has d.line key
  · exact (reaches_of_present hline).mp hawaits
  · refine hawaits.imp fun hheld => .inl fun htracked => ?_
    have hopen : d.traced.Holds key cached.packet := by
      refine hheld.resolve_right fun hflight => ?_
      rw [hpath] at hflight
      exact hflight
    obtain ⟨⟨state, hstate⟩, -⟩ := mem_openPackets_iff.mp (hopen htracked)
    exact absurd (horder key (Dict.mem_keys_iff.mpr ⟨cached, hget⟩) (Option.isSome_of_eq_some hstate)) hline

/-- Flushing closes the flows that matches wait for, where nothing is left pending. -/
theorem Owned.flush (h : Owned d) (hhanding : d.handing.completed = [])
    (hflight : ∀ key number, ¬ d.path.InFlight key number) {path : CapturePath} (hpath : path.completed = [])
    (horder : ∀ record ∈ d.path.completed, d.evidence.contains record.key → Has (d.ahead ++ d.swept) record.key) :
    Owned { d with path := path, traced := d.traced.flush.2, handing := ⟨d.traced.flush.1, []⟩ } := by
  refine ⟨flush_filed d.traced, fun key cached hget => ?_, h.attached⟩
  have hawaits := h.awaits key cached hget
  unfold Awaits line at hawaits
  rw [hhanding, List.nil_append, ← List.append_assoc, reaches_append] at hawaits
  show Reaches (d.ahead ++ (d.swept ++ (d.traced.flush.1 ++ path.completed))) key cached.packet _
  rw [hpath, List.append_nil, ← List.append_assoc, reaches_append]
  by_cases hahead : Has (d.ahead ++ d.swept) key
  · exact (reaches_of_present hahead).mp hawaits
  · refine hawaits.imp fun hthen => ?_
    have hheld : d.Expects key cached.packet := by
      refine (reaches_of_absent fun record hrecord hkey => ?_).mp hthen
      refine hahead (hkey ▸ horder record hrecord ?_)
      rw [hkey]
      exact Option.isSome_of_eq_some hget
    exact (flush_counts h.filed (hheld.resolve_right (hflight key _))).imp Or.inl

/-- At the end of a replay nothing is pending, and no packet in flight. -/
theorem Owned.finish (h : Owned d) {path : CapturePath} (hpath : d.path = path) (hhanding : d.handing = ⟨[], []⟩)
    (hcompleted : path.completed = []) (hflight : ∀ key number, ¬ path.InFlight key number) :
    Owned { d with traced := d.traced.flush.2, handing := ⟨d.traced.flush.1, []⟩ } := by
  subst hpath
  refine h.flush (by rw [hhanding]) hflight hcompleted fun record hrecord => ?_
  rw [hcompleted] at hrecord
  cases hrecord

/-! ## Runs -/

theorem Owned.step_read (h : Owned d) {frame : CapturedFrame} (horder : d.InOrder settings (.read frame)) :
    Owned (d.step settings (.read frame)) := by
  unfold InOrder at horder
  unfold TlsDaemon.step
  dsimp only at horder ⊢
  split
  · rename_i hpath hhanding
    rw [hpath, hhanding] at horder
    exact h.read hpath horder
  · exact h

theorem Owned.step_aggregate (h : Owned d) : Owned (d.step settings .aggregate) := by
  unfold TlsDaemon.step
  dsimp only
  split
  · rename_i hpath
    exact h.aggregate hpath
  · exact h

theorem Owned.step_feed (h : Owned d) {frame : CapturedFrame} (horder : d.InOrder settings (.feed frame)) :
    Owned (d.step settings (.feed frame)) := by
  unfold InOrder at horder
  unfold TlsDaemon.step
  dsimp only at horder ⊢
  split
  · rename_i hpath
    rw [hpath] at horder
    exact h.feed hpath horder
  · exact h

theorem Owned.step_drain (h : Owned d) : Owned (d.step settings .drain) := by
  unfold TlsDaemon.step
  dsimp only
  split
  · rename_i hpath hhanding
    exact h.drain hpath (by rw [hhanding])
  · exact h

theorem Owned.step_inspectTcpPayload (h : Owned d) (horder : d.InOrder settings .inspectTcpPayload) :
    Owned (d.step settings .inspectTcpPayload) := by
  unfold InOrder at horder
  unfold TlsDaemon.step
  dsimp only at horder ⊢
  split
  · rename_i hpayloads
    rw [hpayloads] at horder
    exact h.inspectTcpPayload horder
  · exact h

theorem Owned.step_enqueue (h : Owned d) (horder : d.InOrder settings .enqueue) :
    Owned (d.step settings .enqueue) := by
  unfold InOrder at horder
  unfold TlsDaemon.step
  dsimp only at horder ⊢
  split
  · rename_i hhanding
    rw [hhanding] at horder
    exact h.enqueue hhanding horder
  · exact h

theorem Owned.step_sweepFlows (h : Owned d) {now : DateTime} (horder : d.InOrder settings (.sweepFlows now)) :
    Owned (d.step settings (.sweepFlows now)) := by
  unfold InOrder at horder
  unfold TlsDaemon.step
  dsimp only at horder ⊢
  split
  · rename_i hswept
    rw [hswept] at horder
    exact h.sweepFlows hswept horder
  · exact h

theorem Owned.step_enqueueSwept (h : Owned d) (horder : d.InOrder settings .enqueueSwept) :
    Owned (d.step settings .enqueueSwept) := by
  unfold InOrder at horder
  unfold TlsDaemon.step
  dsimp only at horder ⊢
  split
  · rename_i hswept
    rw [hswept] at horder
    exact h.enqueueSwept hswept horder
  · exact h

theorem Owned.step_takeFlow (h : Owned d) : Owned (d.step settings .takeFlow) := by
  unfold TlsDaemon.step
  dsimp only
  split
  · rename_i htaken hitems
    exact h.takeFlow htaken hitems
  · exact h

theorem Owned.step_popTlsEvidence (h : Owned d) : Owned (d.step settings .popTlsEvidence) := by
  unfold TlsDaemon.step
  dsimp only
  split
  · exact h
  · rename_i record htaken
    -- detection is at a record, and there is a match for its key or none
    split
    · rename_i hcached
      exact h.pass htaken hcached
    · rename_i hcached
      exact h.pop htaken hcached

theorem Owned.step_recover (h : Owned d) (horder : d.InOrder settings .recover) :
    Owned (d.step settings .recover) := by
  unfold InOrder at horder
  unfold TlsDaemon.step
  dsimp only at horder ⊢
  split
  · rename_i hpath
    rw [hpath] at horder
    exact h.recover hpath horder
  · exact h

theorem Owned.step_fallBackToPython (h : Owned d) (horder : d.InOrder settings .fallBackToPython) :
    Owned (d.step settings .fallBackToPython) := by
  unfold InOrder at horder
  unfold TlsDaemon.step
  dsimp only at horder ⊢
  split
  · rename_i hpath hhanding
    rw [hpath, hhanding] at horder
    refine h.flush (by rw [hhanding]) ?_ rfl (by rw [hpath]; exact horder)
    intro key number hflight
    rw [hpath] at hflight
    exact hflight
  · exact h

theorem Owned.step_finishReplay (h : Owned d) : Owned (d.step settings .finishReplay) := by
  unfold TlsDaemon.step
  dsimp only
  split
  · rename_i hpath hhanding
    exact h.finish hpath hhanding rfl (fun _ _ => id)
  · rename_i hpath hhanding
    exact h.finish hpath hhanding rfl (fun _ _ => id)
  · exact h

/-- A step that lets no match get behind a record that is not its own. -/
theorem Owned.step (h : Owned d) {action : TlsAction} (horder : d.InOrder settings action) :
    Owned (d.step settings action) := by
  cases action with
  | read frame => exact h.step_read horder
  | aggregate => exact h.step_aggregate
  | feed frame => exact h.step_feed horder
  | drain => exact h.step_drain
  | inspectTcpPayload => exact h.step_inspectTcpPayload horder
  | enqueue => exact h.step_enqueue horder
  | sweepFlows now => exact h.step_sweepFlows horder
  | enqueueSwept => exact h.step_enqueueSwept horder
  | takeFlow => exact h.step_takeFlow
  | popTlsEvidence => exact h.step_popTlsEvidence
  | recover => exact h.step_recover horder
  | fallBackToPython => exact h.step_fallBackToPython horder
  | finishReplay => exact h.step_finishReplay

/-- Along any run of such steps, whatever the threads do in between, every match is attached to the flow it was found
in. -/
theorem evidence_belongs_to_flow (settings : TlsSettings) (config : FlowConfig)
    (protectedNetwork : Option IPv4Network) (flowQueueMax : Nat) (native : Bool) (actions : List TlsAction)
    (h : Along (step settings) (InOrder settings) (.init config protectedNetwork flowQueueMax native) actions) :
    ∀ p ∈ (run (step settings) (.init config protectedNetwork flowQueueMax native) actions).attached,
      p.1.packet ∈ p.2.packets := by
  have howned : Owned (run (step settings) (.init config protectedNetwork flowQueueMax native) actions) :=
    h.invariant (fun _ _ howned horder => Owned.step howned horder)
      (Owned.init config protectedNetwork flowQueueMax native)
  exact howned.attached

/-! ## A heartbeat and a reset -/

/-- A TCP segment from `10.42.0.20:40000` to `8.8.8.8:443` with some flags and a payload. -/
def segmentBytes (flags : UInt8) (payload : List UInt8) : List UInt8 :=
  [0, 0, 0, 0, 0, 2, 0, 0, 0, 0, 0, 1, 0x08, 0x00,
    0x45, 0, 0, 40 + UInt8.ofNat payload.length, 0, 0, 0, 0, 64, 6, 0, 0, 10, 42, 0, 20, 8, 8, 8, 8,
    0x9c, 0x40, 0x01, 0xbb, 0, 0, 0, 0, 0, 0, 0, 0, 0x50, flags, 4, 0, 0, 0, 0, 0] ++ payload

/-- A heartbeat request of three bytes that claims sixteen thousand. -/
def heartbeatPayload : List UInt8 := [24, 3, 2, 0, 3, 1, 64, 0]

def heartbeatFrame (capturedAt : DateTime) : CapturedFrame := ⟨segmentBytes 0x18 heartbeatPayload, capturedAt⟩

def resetFrame (capturedAt : DateTime) : CapturedFrame := ⟨segmentBytes 0x04 [], capturedAt⟩

/-- A parser that reads the two. -/
def segmentParser : FrameParser where
  parsePacket frame :=
    if frame.raw = segmentBytes 0x18 heartbeatPayload then
      some (ParsedFrame.metadata ⟨frame.capturedAt, 1#48, 2#48, .ipv4 0x0a2a0014#32 0x08080808#32, .tcp, some 40000,
        some 443, some (tcpPsh ||| tcpAck), 48, 8, by decide⟩)
    else if frame.raw = segmentBytes 0x04 [] then
      some (ParsedFrame.metadata ⟨frame.capturedAt, 1#48, 2#48, .ipv4 0x0a2a0014#32 0x08080808#32, .tcp, some 40000,
        some 443, some tcpRst, 40, 0, Nat.zero_le (nat_lit 40)⟩)
    else none
  extractTcpPayload raw := if raw = segmentBytes 0x18 heartbeatPayload then some heartbeatPayload else none

/-- No fingerprints, and no cap. -/
def segmentSettings : TlsSettings := ⟨segmentParser, ⟨fun _ => none, fun _ => none⟩, none⟩

/-- A heartbeat, then a reset: the match is attached to the record of the two packets. -/
def heartbeatThenReset : List TlsAction :=
  [.read (heartbeatFrame .firstSecond), .aggregate, .read (resetFrame .nextQuarter), .aggregate,
    .enqueue, .takeFlow, .popTlsEvidence]

/-- A reset, then a heartbeat of the same key, in one batch of the engine. -/
def resetThenHeartbeat : List TlsAction :=
  [.feed (resetFrame .firstSecond), .feed (heartbeatFrame .nextQuarter), .drain,
    .inspectTcpPayload, .enqueue, .takeFlow, .popTlsEvidence]

theorem evidence_belongs_to_flow_heartbeat :
    (run (step segmentSettings) (.init smallFlowConfig none 10000 false) heartbeatThenReset).attached.length = 1 ∧
      ∀ p ∈ (run (step segmentSettings) (.init smallFlowConfig none 10000 false) heartbeatThenReset).attached,
        p.1.packet ∈ p.2.packets := by
  refine ⟨by decide +kernel,
    evidence_belongs_to_flow segmentSettings smallFlowConfig none 10000 false heartbeatThenReset ?_⟩
  unfold heartbeatThenReset Along
  exact ⟨by decide +kernel, by decide +kernel, by decide +kernel, by decide +kernel, by decide +kernel,
    by decide +kernel, by decide +kernel, trivial⟩

/-- A heartbeat that follows a reset between the same ports is attached to the connection that was reset. -/
theorem evidence_of_another_flow :
    ¬ ∀ (settings : TlsSettings) (config : FlowConfig) (protectedNetwork : Option IPv4Network) (flowQueueMax : Nat)
      (native : Bool) (actions : List TlsAction),
      ∀ p ∈ (run (step settings) (.init config protectedNetwork flowQueueMax native) actions).attached,
        p.1.packet ∈ p.2.packets := by
  intro h
  have hattached :
      (run (step segmentSettings) (.init smallFlowConfig none 10000 true) resetThenHeartbeat).attached.map
        (fun p => (p.1.packet, p.2.packets)) = [(1, [0])] := by decide +kernel
  obtain ⟨p, hp, hpair⟩ := List.mem_map.mp (hattached ▸ List.mem_cons_self)
  have hmem := h segmentSettings smallFlowConfig none 10000 true resetThenHeartbeat p hp
  rw [Prod.mk.injEq] at hpair
  rw [hpair.1, hpair.2] at hmem
  simp at hmem

end TlsDaemon

end Pirewall
