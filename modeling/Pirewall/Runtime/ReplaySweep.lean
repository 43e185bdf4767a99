/-
# Pirewall.Runtime.ReplaySweep -- sweeping a replay on its own clock

A replay is swept at capture times: `_note_replay_time` reads the clock of the replay and sweeps whenever it has
crossed an interval. On the native path `_ReplayClockSink` reads it before a frame is fed, and `_native_replay_tick`
once more after a poll. The Python loop reads it after a frame has been fed, only of frames that parse, and through
a float.

`replays_segment_alike` says when the two hand detection the same flows all the same.
-/
import Pirewall.Flow.Shift
import Pirewall.Flow.Tracker

namespace Pirewall

open Lib

/-! ## The clock as a float -/

/-- `int(moment.timestamp() * 1_000_000)`. -/
def timestampMicroseconds (moment : DateTime) : Int :=
  let product := toDouble (toDouble (moment.us / 1000000) * 1000000)
  if 0 ≤ product then ⌊product⌋ else ⌈product⌉

/-- From 2008 to 2038 the float loses nothing: half a unit in the last place of the seconds is less than an eighth
of a microsecond, and the product is rounded to quarters. -/
theorem timestampMicroseconds_exact {moment : DateTime} (hlo : 1200000000000000 ≤ moment.us)
    (hhi : moment.us < 2147483648000000) : timestampMicroseconds moment = moment.us := by
  have hlo' : (1200000000000000 : ℚ) ≤ moment.us := by exact_mod_cast hlo
  have hhi' : (moment.us : ℚ) < 2147483648000000 := by exact_mod_cast hhi
  have hseconds : |toDouble ((moment.us : ℚ) / 1000000) - (moment.us : ℚ) / 1000000| ≤
      2 ^ ((30 : Int) - 52) / 2 := by
    apply toDouble_error
    · norm_num
      linarith
    · norm_num
      linarith
  rw [abs_le] at hseconds
  norm_num at hseconds
  have hproduct : toDouble (toDouble ((moment.us : ℚ) / 1000000) * 1000000) = moment.us := by
    have hnear := toDouble_of_near (q := toDouble ((moment.us : ℚ) / 1000000) * 1000000) (e := 50) (n := 4 * moment.us)
      (by norm_num; linarith) (by norm_num; linarith) (by
        rw [abs_lt]
        norm_num
        constructor <;> linarith)
    rw [hnear]
    push_cast
    norm_num
    ring
  unfold timestampMicroseconds
  dsimp only
  rw [hproduct, if_pos (by linarith)]
  exact Int.floor_intCast moment.us

/-! ## The two loops -/

/-- What a replay reads of the configuration, and `parse_packet`: what is in a packet is read from the bytes of its
frame, and its time is that of the capture. -/
structure ReplaySettings where
  parse : List UInt8 → Option PacketMetadata
  flow : FlowConfig
  protectedNetwork : Option IPv4Network
  cleanupIntervalSeconds : Nat
  interval_pos : 0 < cleanupIntervalSeconds

namespace ReplaySettings

variable (settings : ReplaySettings)

/-- `interval_us`. -/
def intervalUs : Int := settings.cleanupIntervalSeconds * 1000000

/-- The packet of a frame. -/
def packetOf (frame : CapturedFrame) : Option PacketMetadata :=
  (settings.parse frame.raw).map fun packet => { packet with timestamp := frame.capturedAt }

theorem intervalUs_pos : 0 < settings.intervalUs := by
  have := settings.interval_pos
  unfold intervalUs
  omega

theorem packetOf_timestamp {frame : CapturedFrame} {packet : PacketMetadata}
    (h : settings.packetOf frame = some packet) : packet.timestamp = frame.capturedAt := by
  obtain ⟨parsed, -, rfl⟩ := Option.map_eq_some_iff.mp h
  rfl

end ReplaySettings

/-- The capture thread of a replay: when it last swept, and the flows it has handed to detection. -/
structure ReplayThread where
  lastSweepUs : Option Int
  flows : AggregatorRun

namespace ReplayThread

/-- The thread at its start. -/
def init (settings : ReplaySettings) : ReplayThread := ⟨none, .init settings.flow settings.protectedNetwork⟩

/-- Whether the clock of the replay has crossed an interval. -/
def crosses (settings : ReplaySettings) (t : ReplayThread) (nowUs : Int) : Prop :=
  ∃ last, t.lastSweepUs = some last ∧ settings.intervalUs ≤ nowUs - last

/-- `_note_replay_time`, and in it `_sweep_on_replay_clock`. Beyond the range of `datetime` there is no time to sweep
at. -/
def noteReplayTime (settings : ReplaySettings) (t : ReplayThread) (nowUs : Int) : ReplayThread :=
  match t.lastSweepUs with
  | none => { t with lastSweepUs := some nowUs }
  | some last =>
    if nowUs - last < settings.intervalUs then t
    else
      match DateTime.fromMicroseconds nowUs with
      | none => { t with lastSweepUs := some nowUs }
      | some now => ⟨some nowUs, t.flows.call (.sweep now)⟩

/-- A frame, fed to the engine: one that does not parse is only counted. -/
def feed (settings : ReplaySettings) (t : ReplayThread) (frame : CapturedFrame) : ReplayThread :=
  match settings.packetOf frame with
  | none => t
  | some packet => { t with flows := t.flows.call (.packet packet) }

/-- `_ReplayClockSink.feed_us`. -/
def feedUs (settings : ReplaySettings) (t : ReplayThread) (frame : CapturedFrame) : ReplayThread :=
  (t.noteReplayTime settings frame.capturedAt.us).feed settings frame

/-- One round of `_python_capture_loop`, which reads the time of a packet by `clock`. -/
def pythonRound (settings : ReplaySettings) (clock : DateTime → Int) (t : ReplayThread) (frame : CapturedFrame) :
    ReplayThread :=
  match settings.packetOf frame with
  | none => t
  | some packet =>
    ({ t with flows := t.flows.call (.packet packet) } : ReplayThread).noteReplayTime settings
      (clock packet.timestamp)

/-- `_finish_replay`: the flows handed to detection by then. -/
def finish (t : ReplayThread) : List Flow := (t.flows.call .flush).emitted

end ReplayThread

/-- The native loop, with the time of the last frame of the capture. -/
structure NativeReplay where
  thread : ReplayThread
  virtualNowUs : Option Int

namespace NativeReplay

/-- One round of `_native_capture_loop`: a poll feeds some frames, and `_native_replay_tick` reads the clock again. -/
def round (settings : ReplaySettings) (r : NativeReplay) (frames : List CapturedFrame) : NativeReplay :=
  let thread := run (ReplayThread.feedUs settings) r.thread frames
  match (frames.getLast?.map fun frame => frame.capturedAt.us).or r.virtualNowUs with
  | none => ⟨thread, none⟩
  | some nowUs => ⟨thread.noteReplayTime settings nowUs, some nowUs⟩

end NativeReplay

/-- The flows a replay hands to detection on the native path, polled in some way. -/
def nativeReplay (settings : ReplaySettings) (polls : List (List CapturedFrame)) : List Flow :=
  (run (NativeReplay.round settings) ⟨.init settings, none⟩ polls).thread.finish

/-- The flows a replay hands to detection through the Python loop. -/
def pythonReplay (settings : ReplaySettings) (frames : List CapturedFrame) : List Flow :=
  (run (ReplayThread.pythonRound settings timestampMicroseconds) (.init settings) frames).finish

/-! ## Polls -/

namespace ReplayThread

variable {settings : ReplaySettings} {t : ReplayThread}

/-- Reading the clock twice is reading it once: the second time no interval has passed. -/
theorem note_of_recent {nowUs last : Int} (hlast : t.lastSweepUs = some last)
    (h : nowUs - last < settings.intervalUs) : t.noteReplayTime settings nowUs = t := by
  unfold noteReplayTime
  rw [hlast]
  exact if_pos h

/-- The clock has been read at `nowUs`. -/
def Noted (settings : ReplaySettings) (nowUs : Int) (t : ReplayThread) : Prop :=
  ∃ last, t.lastSweepUs = some last ∧ nowUs - last < settings.intervalUs

theorem noted_note (settings : ReplaySettings) (t : ReplayThread) (nowUs : Int) :
    Noted settings nowUs (t.noteReplayTime settings nowUs) := by
  have hpos := settings.intervalUs_pos
  unfold noteReplayTime
  cases hlast : t.lastSweepUs with
  | none => exact ⟨nowUs, rfl, by omega⟩
  | some last =>
    dsimp only
    split_ifs with hrecent
    · exact ⟨last, hlast, hrecent⟩
    · split <;> exact ⟨nowUs, rfl, by omega⟩

theorem feed_lastSweepUs (settings : ReplaySettings) (t : ReplayThread) (frame : CapturedFrame) :
    (t.feed settings frame).lastSweepUs = t.lastSweepUs := by
  unfold feed
  split <;> rfl

theorem noted_feedUs (t : ReplayThread) (frame : CapturedFrame) :
    Noted settings frame.capturedAt.us (t.feedUs settings frame) := by
  obtain ⟨last, hlast, hrecent⟩ := noted_note settings t frame.capturedAt.us
  exact ⟨last, (feed_lastSweepUs settings _ frame).trans hlast, hrecent⟩

/-- After some frames the clock has been read at the last of them. -/
theorem noted_run (t : ReplayThread) (frames : List CapturedFrame) {last : CapturedFrame}
    (hlast : frames.getLast? = some last) :
    Noted settings last.capturedAt.us (run (feedUs settings) t frames) := by
  obtain ⟨rest, rfl⟩ := List.getLast?_eq_some_iff.mp hlast
  rw [run_append]
  exact noted_feedUs _ last

end ReplayThread

/-- How the capture is cut into polls makes no difference. -/
theorem NativeReplay.run_round {settings : ReplaySettings} {r : NativeReplay}
    (h : ∀ nowUs, r.virtualNowUs = some nowUs → r.thread.Noted settings nowUs) (polls : List (List CapturedFrame)) :
    (run (round settings) r polls).thread = run (ReplayThread.feedUs settings) r.thread polls.flatten := by
  induction polls generalizing r with
  | nil => rfl
  | cons frames polls ih =>
    have hround : (r.round settings frames).thread = run (ReplayThread.feedUs settings) r.thread frames ∧
        ∀ nowUs, (r.round settings frames).virtualNowUs = some nowUs →
          (run (ReplayThread.feedUs settings) r.thread frames).Noted settings nowUs := by
      unfold round
      cases hlast : frames.getLast? with
      | none =>
        -- an empty poll: the clock was read at the last frame before it
        rw [List.getLast?_eq_none_iff.mp hlast]
        cases hvirtual : r.virtualNowUs with
        | none => exact ⟨rfl, fun _ hnow => by cases hnow⟩
        | some nowUs =>
          obtain ⟨last, hsweep, hrecent⟩ := h nowUs hvirtual
          refine ⟨ReplayThread.note_of_recent hsweep hrecent, ?_⟩
          intro nowUs' hnow
          cases hnow
          exact ⟨last, hsweep, hrecent⟩
      | some frame =>
        obtain ⟨last, hsweep, hrecent⟩ := ReplayThread.noted_run r.thread frames hlast
        refine ⟨ReplayThread.note_of_recent hsweep hrecent, ?_⟩
        intro nowUs' hnow
        cases hnow
        exact ⟨last, hsweep, hrecent⟩
    rw [run_cons, List.flatten_cons, run_append, ih (by rw [hround.1]; exact hround.2), hround.1]

/-! ## One clock, two orders -/

/-- Two runs that stand alike: the same aggregator, and the same flows handed out in some order. -/
structure AggregatorRun.Alike (r r' : AggregatorRun) : Prop where
  aggregator : r.aggregator = r'.aggregator
  emitted : (↑r.emitted : Multiset Flow) = ↑r'.emitted

theorem AggregatorRun.Alike.call {r r' : AggregatorRun} (h : r.Alike r') (call : AggregatorCall) :
    (r.call call).Alike (r'.call call) := by
  obtain ⟨haggregator, hemitted⟩ := h
  cases r
  cases r'
  cases haggregator
  cases call with
  | packet packet => exact ⟨rfl, by simpa [AggregatorRun.call, ← Multiset.coe_add] using hemitted⟩
  | sweep now => exact ⟨rfl, by simpa [AggregatorRun.call, ← Multiset.coe_add] using hemitted⟩
  | flush => exact ⟨rfl, by simpa [AggregatorRun.call, ← Multiset.coe_add] using hemitted⟩

namespace ReplayThread

/-- What a frame must not do for the two loops to agree. A frame that starts the clock or crosses an interval parses:
the Python loop does not read the clock of another. And the sweep at an interval spares the flows that the frame
which crosses it touches. -/
structure SweepsAlike (settings : ReplaySettings) (t : ReplayThread) (frame : CapturedFrame) : Prop where
  parses : t.lastSweepUs = none ∨ t.crosses settings frame.capturedAt.us → settings.packetOf frame ≠ none
  spares : t.crosses settings frame.capturedAt.us → ∀ packet, settings.packetOf frame = some packet →
    t.flows.aggregator.SparesPacket packet

/-- The two loops stand alike. -/
structure Alike (t t' : ReplayThread) : Prop where
  lastSweepUs : t.lastSweepUs = t'.lastSweepUs
  flows : t.flows.Alike t'.flows
  kept : t.flows.aggregator.table.WellKept

variable {settings : ReplaySettings}

theorem kept_packet {r : AggregatorRun} (h : r.aggregator.table.WellKept) (packet : PacketMetadata) :
    (r.call (.packet packet)).aggregator.table.WellKept :=
  (FlowAggregator.processPacket_flows h packet).1

theorem kept_sweep {r : AggregatorRun} (h : r.aggregator.table.WellKept) (now : DateTime) :
    (r.call (.sweep now)).aggregator.table.WellKept :=
  FlowAggregator.sweepTimeouts_kept h now

/-- A frame that meets the condition, on either path. -/
theorem Alike.frame {t t' : ReplayThread} (h : Alike t t') {frame : CapturedFrame}
    (halike : t.SweepsAlike settings frame) :
    Alike (t.feedUs settings frame) (t'.pythonRound settings DateTime.us frame) := by
  obtain ⟨hlast, hflows, hkept⟩ := h
  unfold feedUs feed pythonRound noteReplayTime
  cases hsweep : t.lastSweepUs with
  | none =>
    -- the first frame only starts the clock
    cases hpacket : settings.packetOf frame with
    | none => exact absurd hpacket (halike.parses (.inl hsweep))
    | some packet =>
      have hstamp := settings.packetOf_timestamp hpacket
      simp only [← hlast, hsweep, hstamp]
      exact ⟨rfl, hflows.call (.packet packet), kept_packet hkept packet⟩
  | some last =>
    by_cases hrecent : frame.capturedAt.us - last < settings.intervalUs
    · cases hpacket : settings.packetOf frame with
      | none =>
        simp only [hrecent, if_true]
        exact ⟨hlast, hflows, hkept⟩
      | some packet =>
        have hstamp := settings.packetOf_timestamp hpacket
        simp only [← hlast, hsweep, hstamp, hrecent, if_true]
        exact ⟨rfl, hflows.call (.packet packet), kept_packet hkept packet⟩
    · have hcrosses : t.crosses settings frame.capturedAt.us := ⟨last, hsweep, by omega⟩
      cases hpacket : settings.packetOf frame with
      | none => exact absurd hpacket (halike.parses (.inr hcrosses))
      | some packet =>
        have hstamp := settings.packetOf_timestamp hpacket
        have hspares := halike.spares hcrosses packet hpacket
        simp only [← hlast, hsweep, hstamp, hrecent, if_false, DateTime.fromMicroseconds_us]
        refine ⟨rfl, ?_, kept_packet (kept_sweep hkept _) _⟩
        -- sweep and packet change places
        obtain ⟨haggregator, hemitted⟩ := AggregatorRun.sweep_packet_comm hkept.bounded hspares
        rw [hstamp] at haggregator hemitted
        have hpython := (hflows.call (.packet packet)).call (.sweep frame.capturedAt)
        exact ⟨haggregator.trans hpython.aggregator, hemitted.trans hpython.emitted⟩

/-- A whole capture, on either path. -/
theorem Alike.run {t t' : ReplayThread} (h : Alike t t') {frames : List CapturedFrame}
    (halike : Along (feedUs settings) (SweepsAlike settings) t frames) :
    Alike (run (feedUs settings) t frames) (run (pythonRound settings DateTime.us) t' frames) := by
  induction frames generalizing t t' with
  | nil => exact h
  | cons frame frames ih => exact ih (h.frame halike.1) halike.2

end ReplayThread

/-! ## Another clock -/

/-- The same frame, captured at another time. -/
structure CapturedFrame.Shifted (offsetUs : Int) (frame frame' : CapturedFrame) : Prop where
  raw : frame'.raw = frame.raw
  capturedAt : DateTime.Shifted offsetUs frame.capturedAt frame'.capturedAt

namespace ReplayThread

variable {settings : ReplaySettings} {offsetUs : Int}

/-- The same thread on another clock. -/
structure Shifted (offsetUs : Int) (t t' : ReplayThread) : Prop where
  lastSweepUs : t'.lastSweepUs = t.lastSweepUs.map (· + offsetUs)
  flows : AggregatorRun.Shifted offsetUs t.flows t'.flows

theorem shifted_init (settings : ReplaySettings) : Shifted offsetUs (.init settings) (.init settings) :=
  ⟨rfl, .init settings.flow settings.protectedNetwork⟩

theorem Shifted.note {t t' : ReplayThread} (h : Shifted offsetUs t t') {now now' : DateTime}
    (hnow : DateTime.Shifted offsetUs now now') :
    Shifted offsetUs (t.noteReplayTime settings now.us) (t'.noteReplayTime settings now'.us) := by
  obtain ⟨hlast, hflows⟩ := h
  have hus : now'.us = now.us + offsetUs := hnow
  unfold noteReplayTime
  cases hsweep : t.lastSweepUs with
  | none =>
    rw [hsweep] at hlast
    simp only [hlast, Option.map_none]
    exact ⟨by rw [hus]; rfl, hflows⟩
  | some last =>
    rw [hsweep] at hlast
    have hgap : now'.us - (last + offsetUs) = now.us - last := by omega
    simp only [hlast, Option.map_some, hgap, DateTime.fromMicroseconds_us]
    split_ifs
    · exact ⟨by rw [hlast, hsweep, Option.map_some], hflows⟩
    · exact ⟨by rw [hus]; rfl, hflows.sweep hnow⟩

/-- A frame through the Python loop, on either clock. -/
theorem Shifted.frame {t t' : ReplayThread} (h : Shifted offsetUs t t') {frame frame' : CapturedFrame}
    (hframe : CapturedFrame.Shifted offsetUs frame frame') :
    Shifted offsetUs (t.pythonRound settings DateTime.us frame) (t'.pythonRound settings DateTime.us frame') := by
  unfold pythonRound ReplaySettings.packetOf
  rw [hframe.raw]
  cases hparse : settings.parse frame.raw with
  | none => exact h
  | some packet =>
    have hpacket : PacketMetadata.Shifted offsetUs { packet with timestamp := frame.capturedAt }
        { packet with timestamp := frame'.capturedAt } := ⟨hframe.capturedAt, rfl⟩
    have hfed : Shifted offsetUs
        { t with flows := t.flows.call (.packet { packet with timestamp := frame.capturedAt }) }
        { t' with flows := t'.flows.call (.packet { packet with timestamp := frame'.capturedAt }) } :=
      ⟨h.lastSweepUs, h.flows.packet hpacket⟩
    exact hfed.note hframe.capturedAt

theorem Shifted.run {t t' : ReplayThread} (h : Shifted offsetUs t t') {frames frames' : List CapturedFrame}
    (hframes : List.Forall₂ (CapturedFrame.Shifted offsetUs) frames frames') :
    Shifted offsetUs (run (pythonRound settings DateTime.us) t frames)
      (run (pythonRound settings DateTime.us) t' frames') := by
  induction hframes generalizing t t' with
  | nil => exact h
  | cons hframe _ ih => exact ih (h.frame hframe)

/-- Where the float loses nothing, the Python loop reads the clock as it is. -/
theorem run_clock {frames : List CapturedFrame}
    (hclock : ∀ frame ∈ frames, settings.packetOf frame ≠ none →
      timestampMicroseconds frame.capturedAt = frame.capturedAt.us) (t : ReplayThread) :
    run (pythonRound settings timestampMicroseconds) t frames = run (pythonRound settings DateTime.us) t frames := by
  induction frames generalizing t with
  | nil => rfl
  | cons frame frames ih =>
    have hround : t.pythonRound settings timestampMicroseconds frame = t.pythonRound settings DateTime.us frame := by
      unfold pythonRound
      cases hpacket : settings.packetOf frame with
      | none => rfl
      | some packet =>
        have hexact := hclock frame List.mem_cons_self (by simp [hpacket])
        rw [← settings.packetOf_timestamp hpacket] at hexact
        simp only [hexact]
    rw [run_cons, run_cons, hround]
    exact ih (fun frame hframe => hclock frame (List.mem_cons_of_mem _ hframe)) _

end ReplayThread

/-! ## The same flows -/

theorem rel_of_forall₂ {α β : Type} {R : α → β → Prop} {l : List α} {l' : List β} (h : List.Forall₂ R l l') :
    Multiset.Rel R ↑l ↑l' := by
  induction h with
  | nil => exact .zero
  | cons hab _ ih => exact .cons hab ih

/-- However a capture is polled, and whatever constant time the Python replay of it is shifted by: if no frame makes a
difference to the sweeps, and the float of the Python loop loses nothing, the two paths hand detection the same flows
but for that shift. -/
theorem replays_segment_alike (settings : ReplaySettings) (polls : List (List CapturedFrame)) (offsetUs : Int)
    (frames : List CapturedFrame) (hframes : List.Forall₂ (CapturedFrame.Shifted offsetUs) polls.flatten frames)
    (hclock : ∀ frame ∈ frames, settings.packetOf frame ≠ none →
      timestampMicroseconds frame.capturedAt = frame.capturedAt.us)
    (halike : Along (ReplayThread.feedUs settings) (ReplayThread.SweepsAlike settings) (.init settings)
      polls.flatten) :
    Multiset.Rel (Flow.Shifted offsetUs) ↑(nativeReplay settings polls) ↑(pythonReplay settings frames) := by
  have hstart : ReplayThread.Alike (.init settings) (.init settings) :=
    ⟨rfl, ⟨rfl, rfl⟩, (Conserved.init settings.flow settings.protectedNetwork).kept⟩
  have hnative := (hstart.run halike).flows.call .flush
  have hrun : ReplayThread.Shifted offsetUs
      (run (ReplayThread.pythonRound settings DateTime.us) (.init settings) polls.flatten)
      (run (ReplayThread.pythonRound settings DateTime.us) (.init settings) frames) :=
    (ReplayThread.shifted_init settings).run hframes
  have hpython := hrun.flows.flush
  unfold nativeReplay pythonReplay ReplayThread.finish
  rw [NativeReplay.run_round (fun _ hnow => by cases hnow) polls, ReplayThread.run_clock hclock, hnative.emitted]
  exact rel_of_forall₂ hpython.emitted

/-- The bytes of an empty UDP datagram from `10.42.0.20` to `8.8.8.8:53`, from port 40000 or one after it. -/
def datagram (port : UInt8) : List UInt8 :=
  [0, 0, 0, 0, 0, 2, 0, 0, 0, 0, 0, 1, 0x08, 0x00,
    0x45, 0, 0, 28, 0, 0, 0, 0, 64, 17, 0, 0, 10, 42, 0, 20, 8, 8, 8, 8,
    0x9c, 0x40 + port, 0, 53, 0, 8, 0, 0]

/-- A parser that reads two of them. -/
def parseDatagram (raw : List UInt8) : Option PacketMetadata :=
  if raw = datagram 0 then
    some (ParsedFrame.metadata ⟨.firstSecond, 1#48, 2#48, .ipv4 0x0a2a0014#32 0x08080808#32, .udp, some 40000,
      some 53, none, 28, 0, by decide⟩)
  else if raw = datagram 1 then
    some (ParsedFrame.metadata ⟨.firstSecond, 1#48, 2#48, .ipv4 0x0a2a0014#32 0x08080808#32, .udp, some 40001,
      some 53, none, 28, 0, by decide⟩)
  else none

/-- Flows idle for 30 seconds close, and sweeps are 30 seconds apart. -/
def datagramSettings : ReplaySettings := ⟨parseDatagram, smallFlowConfig, none, 30, smallFlowConfig.inactive_pos⟩

/-- Times of a capture in 2025, in seconds. -/
def captureTime (seconds : Fin 1000) : DateTime :=
  ⟨1760000000000000 + seconds.val * 1000000, by omega, by omega⟩

theorem captureTime_exact (seconds : Fin 1000) :
    timestampMicroseconds (captureTime seconds) = (captureTime seconds).us :=
  timestampMicroseconds_exact (by unfold captureTime; dsimp only; omega) (by unfold captureTime; dsimp only; omega)

/-- A second connection, 40 seconds after the first: the sweep at that time closes the first one on either path. -/
theorem replays_segment_alike_two_flows :
    Multiset.Rel (Flow.Shifted 0)
      ↑(nativeReplay datagramSettings [[⟨datagram 0, captureTime 0⟩], [⟨datagram 1, captureTime 40⟩]])
      ↑(pythonReplay datagramSettings [⟨datagram 0, captureTime 0⟩, ⟨datagram 1, captureTime 40⟩]) := by
  refine replays_segment_alike datagramSettings _ 0 _ ?_ ?_ ⟨⟨?_, ?_⟩, ⟨?_, ?_⟩, trivial⟩
  · exact .cons ⟨rfl, (add_zero _).symm⟩ (.cons ⟨rfl, (add_zero _).symm⟩ .nil)
  · intro frame hframe _
    rcases List.mem_pair.mp hframe with rfl | rfl
    · exact captureTime_exact 0
    · exact captureTime_exact 40
  · exact fun _ => Option.ne_none_iff_isSome.mpr (by decide +kernel)
  · rintro ⟨last, hlast, -⟩
    cases hlast
  · exact fun _ => Option.ne_none_iff_isSome.mpr (by decide +kernel)
  · -- the table has room, and the sweep closes another flow
    intro _ packet hpacket sourceIp destinationIp hnet _
    have hparsed : datagramSettings.packetOf ⟨datagram 1, captureTime 40⟩ =
        some (ParsedFrame.metadata ⟨captureTime 40, 1#48, 2#48, .ipv4 0x0a2a0014#32 0x08080808#32, .udp, some 40001,
          some 53, none, 28, 0, by decide⟩) := rfl
    rw [hparsed] at hpacket
    cases hpacket
    cases hnet
    refine ⟨fun state hget => ?_, fun _ hfull => absurd hfull (by decide +kernel)⟩
    have hsome := Option.isSome_of_eq_some hget
    exact absurd hsome (by decide +kernel)

/-- A datagram of the same connection, 60 seconds after the first: the native path closes the idle flow before it and
opens another, the Python path puts both in one. -/
theorem replays_segment_differently :
    ¬ ∀ (settings : ReplaySettings) (polls : List (List CapturedFrame)) (offsetUs : Int)
      (frames : List CapturedFrame), List.Forall₂ (CapturedFrame.Shifted offsetUs) polls.flatten frames →
      frames.Pairwise (fun a b => a.capturedAt.us ≤ b.capturedAt.us) →
      Multiset.Rel (Flow.Shifted offsetUs) ↑(nativeReplay settings polls) ↑(pythonReplay settings frames) := by
  intro h
  have hrel := h datagramSettings [[⟨datagram 0, captureTime 0⟩, ⟨datagram 0, captureTime 60⟩]] 0
    [⟨datagram 0, captureTime 0⟩, ⟨datagram 0, captureTime 60⟩]
    (.cons ⟨rfl, (add_zero _).symm⟩ (.cons ⟨rfl, (add_zero _).symm⟩ .nil)) (by simp [captureTime])
  have hcard := Multiset.card_eq_card_of_rel hrel
  have hnative : (nativeReplay datagramSettings
      [[⟨datagram 0, captureTime 0⟩, ⟨datagram 0, captureTime 60⟩]]).length = 2 := by decide +kernel
  have hpython : (pythonReplay datagramSettings
      [⟨datagram 0, captureTime 0⟩, ⟨datagram 0, captureTime 60⟩]).length = 1 := by
    unfold pythonReplay
    rw [ReplayThread.run_clock (by
      intro frame hframe _
      rcases List.mem_pair.mp hframe with rfl | rfl
      · exact captureTime_exact 0
      · exact captureTime_exact 60)]
    decide +kernel
  rw [Multiset.coe_card, Multiset.coe_card, hnative, hpython] at hcard
  cases hcard

end Pirewall
