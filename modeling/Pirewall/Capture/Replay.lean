/-
# Pirewall.Capture.Replay -- the clock a replay runs on

`capture/replay.py`, with the replay branch of `CoreDaemon._select_capture`. Both captures read their files
through `_PacedFrames`, which shifts every timestamp by one constant when it is given an instant to rebase to.
`build_replay_capture` is given the start of the daemon. The Python capture it returns is used as it is; in place
of the native one the daemon builds a second `ReplayCapture`, around the sink that watches the replay clock.

Pacing decides when a frame is delivered and never which, or with what timestamp: a capture delivers a prefix of
its rebased frames, whatever the wall clock reads (`delivered_in_order`). `replay_is_rebased_iff` says when that
prefix is the one the daemon asked for.

The files are what their readers yield, file by file, up to an exception that a reader ends in. The wall clock is read
in exact arithmetic, and the sink is the list of frames it was fed.
-/
import Pirewall.Capture.Pcapio
import Pirewall.Flow.Packet
import Pirewall.Lib.Run

namespace Pirewall

open Lib

/-! ## Capture files -/

/-- A record of a capture file, and a frame due for delivery. -/
structure ReplayFrame where
  data : List UInt8
  tsUs : Int
  deriving DecidableEq

/-- The frame on another clock. -/
def ReplayFrame.shift (frame : ReplayFrame) (offsetUs : Int) : ReplayFrame := ⟨frame.data, frame.tsUs + offsetUs⟩

/-- The exception that a reader ends in: its own, or one from the file system. -/
inductive ReplayFault where
  | reader (e : Pcapio.ReadError)
  | os
  deriving DecidableEq

/-- A capture file: the records its reader yields, and the exception it ends in. -/
structure CaptureFile where
  records : List ReplayFrame
  fault : Option ReplayFault
  deriving DecidableEq

/-! ## Paced frames -/

/-- `_PacedFrames`: the records not read yet and the exception behind them, and the state of the generator over them. -/
structure PacedFrames where
  records : List ReplayFrame
  fault : Option ReplayFault
  speed : Option ℚ
  rebaseToUs : Option Int
  lookahead : Option ReplayFrame
  offsetUs : Option Int
  wallStart : ℚ
  virtualStartUs : Int
  exhausted : Bool

namespace PacedFrames

variable {frames : PacedFrames} {all delivered : List ReplayFrame}

/-- `_iterate`: the records file by file. A reader that raises ends the generator. -/
def iterate : List CaptureFile → List ReplayFrame × Option ReplayFault
  | [] => ([], none)
  | file :: files =>
    match file.fault with
    | some fault => (file.records, some fault)
    | none => (file.records ++ (iterate files).1, (iterate files).2)

/-- `_PacedFrames.__init__`. -/
def ofFiles (files : List CaptureFile) (speed : Option ℚ) (rebaseToUs : Option Int) : PacedFrames :=
  ⟨(iterate files).1, (iterate files).2, speed, rebaseToUs, none, none, 0, 0, false⟩

/-- `_PacedFrames.__init__`, over files that are read to their end. -/
def init (files : List (List ReplayFrame)) (speed : Option ℚ) (rebaseToUs : Option Int) : PacedFrames :=
  ofFiles (files.map fun records => ⟨records, none⟩) speed rebaseToUs

theorem iterate_whole (files : List (List ReplayFrame)) :
    iterate (files.map fun records => ⟨records, none⟩) = (files.flatten, none) := by
  induction files with
  | nil => rfl
  | cons records files ih =>
    rw [List.map_cons, iterate, ih]
    rfl

/-- The first record fixes the offset and the two origins of the pacing. -/
def openAt (frames : PacedFrames) (record : ReplayFrame) (clock : ℚ) : Int × PacedFrames :=
  match frames.offsetUs with
  | some offsetUs => (offsetUs, frames)
  | none =>
    let offsetUs := match frames.rebaseToUs with
      | none => 0
      | some rebaseToUs => rebaseToUs - record.tsUs
    (offsetUs,
     { frames with offsetUs := some offsetUs, wallStart := clock, virtualStartUs := record.tsUs + offsetUs })

/-- `peek`. A generator that has raised is at its end. -/
def peek (frames : PacedFrames) (clock : ℚ) : Except ReplayFault (Option ReplayFrame) × PacedFrames :=
  if frames.lookahead.isNone && !frames.exhausted then
    match frames.records, frames.fault with
    | [], some fault => (.error fault, { frames with fault := none })
    | [], none => (.ok none, { frames with exhausted := true })
    | record :: rest, _ =>
      let (offsetUs, frames) := frames.openAt record clock
      (.ok (some (record.shift offsetUs)),
       { frames with records := rest, lookahead := some (record.shift offsetUs) })
  else (.ok frames.lookahead, frames)

/-- `take`, of the frame that was peeked at. -/
def take (frames : PacedFrames) : PacedFrames := { frames with lookahead := none }

/-- `seconds_until_due`. -/
def secondsUntilDue (frames : PacedFrames) (frame : ReplayFrame) (clock : ℚ) : ℚ :=
  match frames.speed with
  | none => 0
  | some speed => frames.wallStart + ((frame.tsUs - frames.virtualStartUs : Int) : ℚ) / 1000000 / speed - clock

/-- The constant a source is shifted by. -/
def offset (rebaseToUs : Option Int) : List ReplayFrame → Int
  | [] => 0
  | first :: _ => match rebaseToUs with
    | none => 0
    | some rebaseToUs => rebaseToUs - first.tsUs

/-- The frames of a source on the replay's clock. -/
def rebased (rebaseToUs : Option Int) (all : List ReplayFrame) : List ReplayFrame :=
  all.map fun record => record.shift (offset rebaseToUs all)

/-- Frames that begin at the instant they are rebased to stay as they are. -/
theorem rebased_of_head {rebaseToUs : Int} (h : ∀ first ∈ all.head?, first.tsUs = rebaseToUs) :
    rebased (some rebaseToUs) all = rebased none all := by
  cases all with
  | nil => rfl
  | cons first rest =>
    have hfirst : first.tsUs = rebaseToUs := h first rfl
    have hoffset : offset (some rebaseToUs) (first :: rest) = offset none (first :: rest) := by
      show rebaseToUs - first.tsUs = 0
      omega
    unfold rebased
    rw [hoffset]

/-- Where a reader of `all` stands: what it has handed out, the frame it is holding and what it has not read make
up the rebased frames; and nothing is left of them when it is exhausted. -/
structure Reads (frames : PacedFrames) (all delivered : List ReplayFrame) : Prop where
  parts : rebased frames.rebaseToUs all = delivered ++ frames.lookahead.toList ++
    frames.records.map fun record => record.shift (offset frames.rebaseToUs all)
  opened : ∀ offsetUs, frames.offsetUs = some offsetUs → offsetUs = offset frames.rebaseToUs all
  unopened : frames.offsetUs = none → frames.records = all
  ended : frames.exhausted = true → frames.lookahead = none ∧ frames.records = []

theorem reads_ofFiles (files : List CaptureFile) (speed : Option ℚ) (rebaseToUs : Option Int) :
    (ofFiles files speed rebaseToUs).Reads (iterate files).1 [] where
  parts := rfl
  opened := fun _ h => absurd h (by simp [ofFiles])
  unopened := fun _ => rfl
  ended := fun h => absurd h Bool.false_ne_true

theorem reads_init (files : List (List ReplayFrame)) (speed : Option ℚ) (rebaseToUs : Option Int) :
    (init files speed rebaseToUs).Reads files.flatten [] := by
  have hreads := reads_ofFiles (files.map fun records => ⟨records, none⟩) speed rebaseToUs
  rw [iterate_whole] at hreads
  exact hreads

/-- The constant is that of the source, whenever the first record is read. -/
theorem Reads.openAt_fst (h : frames.Reads all delivered) {record : ReplayFrame} {rest : List ReplayFrame}
    (hrecords : frames.records = record :: rest) (clock : ℚ) :
    (frames.openAt record clock).1 = offset frames.rebaseToUs all := by
  unfold openAt
  cases hoffset : frames.offsetUs with
  | some offsetUs => exact h.opened offsetUs hoffset
  | none =>
    rw [← h.unopened hoffset, hrecords]
    rfl

theorem openAt_offsetUs (frames : PacedFrames) (record : ReplayFrame) (clock : ℚ) :
    (frames.openAt record clock).2.offsetUs = some (frames.openAt record clock).1 := by
  unfold openAt
  cases hoffset : frames.offsetUs with
  | some offsetUs => exact hoffset
  | none => rfl

/-- Opening the source changes only what the pacing counts from. -/
theorem openAt_same (frames : PacedFrames) (record : ReplayFrame) (clock : ℚ) :
    (frames.openAt record clock).2.rebaseToUs = frames.rebaseToUs ∧
      (frames.openAt record clock).2.exhausted = frames.exhausted ∧
      (frames.openAt record clock).2.fault = frames.fault := by
  unfold openAt
  split
  · exact ⟨rfl, rfl, rfl⟩
  · exact ⟨rfl, rfl, rfl⟩

/-- What looking ahead comes to. -/
inductive Peeked (frames : PacedFrames) : Except ReplayFault (Option ReplayFrame) × PacedFrames → Prop where
  | held {frame : ReplayFrame} {frames' : PacedFrames} (h : frames'.lookahead = some frame)
      (hfault : frames'.fault = frames.fault) : Peeked frames (.ok (some frame), frames')
  | ended {frames' : PacedFrames} (h : frames'.lookahead = none) (hend : frames'.exhausted = true)
      (hfault : frames'.fault = frames.fault) : Peeked frames (.ok none, frames')
  | raised {fault : ReplayFault} {frames' : PacedFrames} (h : frames.fault = some fault)
      (hfault : frames'.fault = none) : Peeked frames (.error fault, frames')

/-- Looking ahead hands nothing out, and holds what it returns. -/
theorem Reads.peek (h : frames.Reads all delivered) (clock : ℚ) :
    (frames.peek clock).2.Reads all delivered ∧ (frames.peek clock).2.rebaseToUs = frames.rebaseToUs ∧
      frames.Peeked (frames.peek clock) := by
  unfold PacedFrames.peek
  split
  · rename_i hcold
    rw [Bool.and_eq_true] at hcold
    have hnone : frames.lookahead = none := by simpa using hcold.1
    have hrunning : frames.exhausted = false := by simpa using hcold.2
    split
    · rename_i fault hrecords hfault
      exact ⟨⟨h.parts, h.opened, h.unopened, h.ended⟩, rfl, .raised hfault rfl⟩
    · rename_i hrecords hfault
      exact ⟨⟨h.parts, h.opened, h.unopened, fun _ => ⟨hnone, hrecords⟩⟩, rfl, .ended hnone rfl rfl⟩
    · rename_i fault record rest hrecords
      have hfst := h.openAt_fst hrecords clock
      obtain ⟨hrebase, hexhausted, hfault⟩ := frames.openAt_same record clock
      refine ⟨⟨?_, ?_, ?_, ?_⟩, hrebase, .held rfl hfault⟩
      · show rebased (frames.openAt record clock).2.rebaseToUs all =
          delivered ++ [record.shift (frames.openAt record clock).1] ++
            rest.map fun r => r.shift (offset (frames.openAt record clock).2.rebaseToUs all)
        rw [hrebase, h.parts, hnone, hrecords, hfst]
        simp
      · intro offsetUs hoffset
        have hoffset : (frames.openAt record clock).2.offsetUs = some offsetUs := hoffset
        rw [openAt_offsetUs] at hoffset
        rw [← Option.some.inj hoffset, hfst]
        exact congrArg (offset · all) hrebase.symm
      · intro hoffset
        have hoffset : (frames.openAt record clock).2.offsetUs = none := hoffset
        rw [openAt_offsetUs] at hoffset
        exact absurd hoffset (by simp)
      · intro hended
        have hended : (frames.openAt record clock).2.exhausted = true := hended
        rw [hexhausted, hrunning] at hended
        exact absurd hended Bool.false_ne_true
  · rename_i hwarm
    refine ⟨h, rfl, ?_⟩
    cases hheld : frames.lookahead with
    | some frame => exact .held hheld rfl
    | none =>
      refine .ended hheld ?_ rfl
      rw [hheld] at hwarm
      simpa using hwarm

/-- Taking the frame that is held hands it out. -/
theorem Reads.take (h : frames.Reads all delivered) {frame : ReplayFrame} (hheld : frames.lookahead = some frame) :
    frames.take.Reads all (delivered ++ [frame]) where
  parts := by
    have hall := h.parts
    rw [hheld] at hall
    simpa [PacedFrames.take] using hall
  opened := h.opened
  unopened := h.unopened
  ended := fun hended => ⟨rfl, (h.ended hended).2⟩

/-- A reader hands out the rebased frames, in order. -/
theorem Reads.handed_out (h : frames.Reads all delivered) : delivered <+: rebased frames.rebaseToUs all := by
  rw [h.parts, List.append_assoc]
  exact List.prefix_append _ _

end PacedFrames

/-! ## The native capture -/

/-- Where `ReplayCapture` feeds frames: the native aggregator, or the same behind `_ReplayClockSink`. -/
inductive FrameSink
  | aggregator
  | replayClock
  deriving DecidableEq

/-- `_MAX_FRAMES_PER_POLL`. -/
def maxFramesPerPoll : Nat := 5000

/-- One call of the capture loop: what it waits at most, the wall clock as it is read for the first frame of all and
for each frame that is looked at, the number of frames the poll may still feed when `stop` is called, if it is, and
whether the sink raises on a frame when so many more may be fed. -/
structure ReplayTurn where
  timeoutMs : Int
  clock : Nat → ℚ
  stopAt : Option Nat
  opening : ℚ
  sinkRaises : Nat → Bool

/-- Whether `stop` has been called when so many frames may still be fed. -/
def ReplayTurn.stops (turn : ReplayTurn) (budget : Nat) : Bool := turn.stopAt.any fun left => decide (budget ≤ left)

/-- A turn without a pace or an end of its own: the first frame of a replay is due in it. -/
def ReplayTurn.due : ReplayTurn := ⟨0, fun _ => 0, none, 0, fun _ => false⟩

/-- What a poll can raise: the exception of a reader, or that of the sink. -/
inductive PollError where
  | reading (fault : ReplayFault)
  | sink
  deriving DecidableEq

/-- `ReplayCapture`, started, with what its sink was fed. -/
structure ReplayCapture where
  frames : PacedFrames
  sink : FrameSink
  stopped : Bool
  virtualNowUs : Option Int
  fed : List ReplayFrame

namespace ReplayCapture

/-- `ReplayCapture.__init__` and `start`. -/
def start (files : List CaptureFile) (sink : FrameSink) (speed : Option ℚ) (rebaseTo : Option DateTime) :
    ReplayCapture :=
  ⟨.ofFiles files speed (rebaseTo.map DateTime.us), sink, false, none, []⟩

/-- `start`, over files that are read to their end. -/
def init (files : List (List ReplayFrame)) (sink : FrameSink) (speed : Option ℚ) (rebaseTo : Option DateTime) :
    ReplayCapture :=
  start (files.map fun records => ⟨records, none⟩) sink speed rebaseTo

/-- The loop of `poll`: every frame that is due, within the budget, and the exception that ends the loop early. -/
def feedDue (turn : ReplayTurn) : Nat → PacedFrames → (List ReplayFrame × Option PollError) × PacedFrames
  | 0, frames => (([], none), frames)
  | budget + 1, frames =>
    if turn.stops (budget + 1) then (([], none), frames)
    else
      match frames.peek turn.opening with
      | (.error fault, frames) => (([], some (.reading fault)), frames)
      | (.ok none, frames) => (([], none), frames)
      | (.ok (some frame), frames) =>
        if 0 < frames.secondsUntilDue frame (turn.clock budget) then (([], none), frames)
        -- the frame has been handed over, whatever the sink made of it
        else if turn.sinkRaises budget then (([frame], some .sink), frames.take)
        else
          let ((fed, raised), frames) := feedDue turn budget frames.take
          ((frame :: fed, raised), frames)

/-- `poll`: what it returns or raises, and the capture behind it. -/
def poll (capture : ReplayCapture) (turn : ReplayTurn) : Except PollError Nat × ReplayCapture :=
  if capture.stopped then (.ok 0, capture)
  else
    match capture.frames.peek turn.opening with
    | (.error fault, frames) => (.error (.reading fault), { capture with frames, stopped := turn.stopAt.isSome })
    | (.ok none, frames) => (.ok 0, { capture with frames, stopped := turn.stopAt.isSome })
    | (.ok (some frame), frames) =>
      if ((max turn.timeoutMs 0 : Int) : ℚ) / 1000 < frames.secondsUntilDue frame (turn.clock maxFramesPerPoll) then
        (.ok 0, { capture with frames, stopped := turn.stopAt.isSome })
      else
        let ((fed, raised), frames) := feedDue turn maxFramesPerPoll frames
        (match raised with
          | none => .ok fed.length
          | some e => .error e,
         { capture with
           frames
           stopped := turn.stopAt.isSome
           virtualNowUs := (fed.getLast?.map ReplayFrame.tsUs).or capture.virtualNowUs
           fed := capture.fed ++ fed })

/-- `finished`, of a capture that was started. -/
def finished (capture : ReplayCapture) : Bool := capture.frames.exhausted

theorem feedDue_reads (turn : ReplayTurn) (budget : Nat) {frames : PacedFrames} {all delivered : List ReplayFrame}
    (h : frames.Reads all delivered) :
    (feedDue turn budget frames).2.Reads all (delivered ++ (feedDue turn budget frames).1.1) ∧
      (feedDue turn budget frames).2.rebaseToUs = frames.rebaseToUs := by
  induction budget generalizing frames delivered with
  | zero =>
    refine ⟨?_, rfl⟩
    show frames.Reads all (delivered ++ [])
    rw [List.append_nil]
    exact h
  | succ budget ih =>
    unfold feedDue
    by_cases hstops : turn.stops (budget + 1) = true
    · rw [if_pos hstops]
      refine ⟨?_, rfl⟩
      rw [List.append_nil]
      exact h
    · rw [if_neg hstops]
      obtain ⟨hpeek, hrebase, hpeeked⟩ := h.peek turn.opening
      generalize frames.peek turn.opening = found at hpeek hrebase hpeeked
      cases hpeeked with
      | raised hraised hfault =>
        refine ⟨?_, hrebase⟩
        rw [List.append_nil]
        exact hpeek
      | ended hnone hend hfault =>
        refine ⟨?_, hrebase⟩
        rw [List.append_nil]
        exact hpeek
      | held hheld hfault =>
        dsimp only
        split_ifs with hdue hraises
        · refine ⟨?_, hrebase⟩
          rw [List.append_nil]
          exact hpeek
        · exact ⟨hpeek.take hheld, hrebase⟩
        · obtain ⟨hrest, hsame⟩ := ih (hpeek.take hheld)
          refine ⟨?_, hsame.trans hrebase⟩
          simpa using hrest

/-- A poll feeds the sink the next of the rebased frames. -/
theorem poll_reads {capture : ReplayCapture} {all : List ReplayFrame} (h : capture.frames.Reads all capture.fed)
    (turn : ReplayTurn) :
    (capture.poll turn).2.frames.Reads all (capture.poll turn).2.fed ∧
      (capture.poll turn).2.frames.rebaseToUs = capture.frames.rebaseToUs := by
  unfold poll
  split_ifs with hstopped
  · exact ⟨h, rfl⟩
  · obtain ⟨hpeek, hrebase, hpeeked⟩ := h.peek turn.opening
    generalize capture.frames.peek turn.opening = found at hpeek hrebase hpeeked
    cases hpeeked with
    | raised hraised hfault => exact ⟨hpeek, hrebase⟩
    | ended hnone hend hfault => exact ⟨hpeek, hrebase⟩
    | held hheld hfault =>
      dsimp only
      split_ifs with hwait
      · exact ⟨hpeek, hrebase⟩
      · obtain ⟨hfed, hsame⟩ := feedDue_reads turn maxFramesPerPoll hpeek
        exact ⟨hfed, hsame.trans hrebase⟩

theorem feedDue_ne_nil {turn : ReplayTurn} (budget : Nat) {frames peeked : PacedFrames} {frame : ReplayFrame}
    (hgoing : turn.stops (budget + 1) = false) (hpeek : frames.peek turn.opening = (.ok (some frame), peeked))
    (hdue : peeked.secondsUntilDue frame (turn.clock budget) ≤ 0) : (feedDue turn (budget + 1) frames).1.1 ≠ [] := by
  unfold feedDue
  rw [hgoing, if_neg Bool.false_ne_true, hpeek]
  dsimp only
  rw [if_neg (not_lt.mpr hdue)]
  split
  · exact List.cons_ne_nil _ _
  · exact List.cons_ne_nil _ _

/-- The first poll feeds the first frame, when it is due at once. -/
theorem poll_due (files : List (List ReplayFrame)) (sink : FrameSink) (speed : Option ℚ)
    (hframes : files.flatten ≠ []) :
    ((init files sink speed none).poll .due).2.fed ≠ [] := by
  obtain ⟨first, rest, hall⟩ := List.exists_cons_of_ne_nil hframes
  set opened : PacedFrames := ⟨rest, none, speed, none, some (first.shift 0), some 0, 0, first.tsUs + 0, false⟩
  have hpeek : (PacedFrames.init files speed none).peek 0 = (.ok (some (first.shift 0)), opened) := by
    unfold PacedFrames.peek PacedFrames.init PacedFrames.ofFiles
    rw [PacedFrames.iterate_whole, hall]
    rfl
  have hdue : opened.secondsUntilDue (first.shift 0) 0 = 0 := by
    unfold PacedFrames.secondsUntilDue
    cases speed with
    | none => rfl
    | some speed =>
      show (0 : ℚ) + ((first.tsUs + 0 - (first.tsUs + 0) : Int) : ℚ) / 1000000 / speed - 0 = 0
      simp
  unfold poll
  rw [show (init files sink speed none).stopped = false from rfl, if_neg Bool.false_ne_true,
    show (init files sink speed none).frames = .init files speed none from rfl,
    show ReplayTurn.due.opening = 0 from rfl, hpeek]
  dsimp only
  rw [show ReplayTurn.due.clock maxFramesPerPoll = 0 from rfl, if_neg (by rw [hdue]; norm_num [ReplayTurn.due])]
  exact feedDue_ne_nil 4999 rfl rfl (le_of_eq hdue)

end ReplayCapture

/-! ## The Python capture -/

/-- `ReplayPacketCapture`, started, with the packets its generator has yielded. A timestamp outside the range of
`datetime` ends the generator with an exception. -/
structure ReplayPacketCapture where
  frames : PacedFrames
  running : Bool
  seen : Nat
  yielded : List (List UInt8 × DateTime)

namespace ReplayPacketCapture

/-- `ReplayPacketCapture.__init__` and `start`. -/
def init (files : List (List ReplayFrame)) (speed : Option ℚ) (rebaseTo : Option DateTime) : ReplayPacketCapture :=
  ⟨.init files speed (rebaseTo.map DateTime.us), true, 0, []⟩

/-- One turn of `read_packets`. Waiting for a frame that is not due only takes time. -/
def next (capture : ReplayPacketCapture) (turn : ReplayTurn) : ReplayPacketCapture :=
  if !capture.running then capture
  else
    match capture.frames.peek turn.opening with
    | (.error _, frames) => { capture with frames, running := false }
    | (.ok none, frames) => { capture with frames, running := false }
    | (.ok (some frame), frames) =>
      match DateTime.fromMicroseconds frame.tsUs with
      | none => { capture with frames := frames.take, running := false, seen := capture.seen + 1 }
      | some capturedAt =>
        { capture with
          frames := frames.take
          running := turn.stopAt.isNone
          seen := capture.seen + 1
          yielded := capture.yielded ++ [(frame.data, capturedAt)] }

/-- The packets as frames, stamped in microseconds. -/
def delivered (capture : ReplayPacketCapture) : List ReplayFrame :=
  capture.yielded.map fun packet => ⟨packet.1, packet.2.us⟩

/-- Where the generator stands: it hands out frames until it ends. -/
def Reads (capture : ReplayPacketCapture) (all : List ReplayFrame) : Prop :=
  capture.delivered <+: PacedFrames.rebased capture.frames.rebaseToUs all ∧
    (capture.running = true → capture.frames.Reads all capture.delivered)

theorem next_reads {capture : ReplayPacketCapture} {all : List ReplayFrame} (h : capture.Reads all)
    (turn : ReplayTurn) :
    (capture.next turn).Reads all ∧ (capture.next turn).frames.rebaseToUs = capture.frames.rebaseToUs := by
  obtain ⟨hsub, hreads⟩ := h
  unfold next
  cases hrunning : capture.running with
  | false => exact ⟨⟨hsub, fun h => absurd h (by simp [hrunning])⟩, rfl⟩
  | true =>
    obtain ⟨hpeek, hrebase, hpeeked⟩ := (hreads hrunning).peek turn.opening
    rw [Bool.not_true, if_neg Bool.false_ne_true]
    rcases hcase : capture.frames.peek turn.opening with ⟨found, peeked⟩
    rw [hcase] at hpeek hrebase hpeeked
    have hstill : capture.delivered <+: PacedFrames.rebased peeked.rebaseToUs all := by
      rw [show peeked.rebaseToUs = _ from hrebase]
      exact hsub
    cases hpeeked with
    | raised hraised hfault => exact ⟨⟨hstill, fun h => absurd h (by simp)⟩, hrebase⟩
    | ended hnone hend hfault => exact ⟨⟨hstill, fun h => absurd h (by simp)⟩, hrebase⟩
    | @held frame _ hheld hfault =>
      have htaken := hpeek.take hheld
      dsimp only
      cases hrange : DateTime.fromMicroseconds frame.tsUs with
      | none =>
        exact ⟨⟨hstill, fun h => absurd h (by simp)⟩, hrebase⟩
      | some capturedAt =>
        have hus : capturedAt.us = frame.tsUs := by
          unfold DateTime.fromMicroseconds at hrange
          split at hrange
          · exact congrArg DateTime.us (Option.some.inj hrange).symm
          · exact absurd hrange (by simp)
        have hyielded : ReplayPacketCapture.delivered
            ⟨peeked.take, turn.stopAt.isNone, capture.seen + 1,
              capture.yielded ++ [(frame.data, capturedAt)]⟩ = capture.delivered ++ [frame] := by
          simp [delivered, hus]
        refine ⟨⟨?_, fun _ => ?_⟩, hrebase⟩
        · rw [hyielded]
          exact htaken.handed_out
        · rw [hyielded]
          exact htaken

end ReplayPacketCapture

/-! ## Selecting a capture -/

/-- What a replay reads of the configuration: the records behind `replay_path` and the pace (`None` at `max`). -/
structure ReplayConfig where
  replayPath : Option (List (List ReplayFrame))
  replaySpeed : Option ℚ

/-- A capture that was selected. -/
inductive SelectedReplay
  | flows (capture : ReplayCapture)
  | packets (capture : ReplayPacketCapture)

/-- `build_replay_capture`: the native capture when the engine is installed. -/
def buildReplayCapture (nativeEngineAvailable : Bool) (config : ReplayConfig) (rebaseTo : Option DateTime) :
    Except String SelectedReplay :=
  match config.replayPath with
  | none => .error "capture.backend = \"replay\" needs capture.replay_path"
  | some source =>
    if nativeEngineAvailable then .ok (.flows (.init source .aggregator config.replaySpeed rebaseTo))
    else .ok (.packets (.init source config.replaySpeed rebaseTo))

/-- The replay branch of `_select_capture`. The native capture is built again, around the sink that checks the
replay clock between frames, and without the instant to rebase to. -/
def selectCapture (nativeEngineAvailable : Bool) (config : ReplayConfig) (now : DateTime) :
    Except String SelectedReplay :=
  match buildReplayCapture nativeEngineAvailable config (some now), config.replayPath with
  | .ok (.flows _), some source => .ok (.flows (.init source .replayClock config.replaySpeed none))
  | selected, _ => selected

namespace SelectedReplay

/-- One turn of the daemon's capture loop. -/
def step : SelectedReplay → ReplayTurn → SelectedReplay
  | .flows capture, turn => .flows (capture.poll turn).2
  | .packets capture, turn => .packets (capture.next turn)

/-- The frames that have been delivered, in order. -/
def delivered : SelectedReplay → List ReplayFrame
  | .flows capture => capture.fed
  | .packets capture => capture.delivered

/-- The instant the frames are rebased to. -/
def rebaseToUs : SelectedReplay → Option Int
  | .flows capture => capture.frames.rebaseToUs
  | .packets capture => capture.frames.rebaseToUs

/-- Where a capture of `all` stands. -/
def Reads (all : List ReplayFrame) : SelectedReplay → Prop
  | .flows capture => capture.frames.Reads all capture.fed
  | .packets capture => capture.Reads all

theorem step_reads {all : List ReplayFrame} {selected : SelectedReplay} (h : selected.Reads all)
    (turn : ReplayTurn) :
    (selected.step turn).Reads all ∧ (selected.step turn).rebaseToUs = selected.rebaseToUs := by
  cases selected with
  | flows capture => exact capture.poll_reads h turn
  | packets capture => exact capture.next_reads h turn

/-- Whatever the turns, a capture delivers a prefix of its rebased frames. -/
theorem delivered_in_order {all : List ReplayFrame} {selected : SelectedReplay} (h : selected.Reads all)
    (turns : List ReplayTurn) :
    (run step selected turns).delivered <+: PacedFrames.rebased selected.rebaseToUs all := by
  have hrun : (run step selected turns).Reads all ∧
      (run step selected turns).rebaseToUs = selected.rebaseToUs := by
    refine Along.invariant (I := fun s => s.Reads all ∧ s.rebaseToUs = selected.rebaseToUs) (G := fun _ _ => True)
      ?_ (Along.of_forall (fun _ _ _ => trivial) selected) ⟨h, rfl⟩
    rintro s turn ⟨hreads, hsame⟩ -
    obtain ⟨hnext, hrebase⟩ := step_reads hreads turn
    exact ⟨hnext, hrebase.trans hsame⟩
  obtain ⟨hreads, hrebase⟩ := hrun
  rw [← hrebase]
  cases hfinal : run step selected turns with
  | flows capture =>
    rw [hfinal] at hreads
    exact PacedFrames.Reads.handed_out hreads
  | packets capture =>
    rw [hfinal] at hreads
    exact hreads.1

/-! ## Rebased to the start of the daemon -/

/-- The delivered frames are those of the capture, in order, the first of them at `now`. -/
def RebasedTo (now : DateTime) (all delivered : List ReplayFrame) : Prop :=
  delivered <+: PacedFrames.rebased (some now.us) all

end SelectedReplay

/-- Two lists that a third begins begin alike. -/
theorem head?_eq_of_prefixes {α : Type} {l l₁ l₂ : List α} (hne : l ≠ []) (h₁ : l <+: l₁) (h₂ : l <+: l₂) :
    l₁.head? = l₂.head? := by
  obtain ⟨rest₁, rfl⟩ := h₁
  obtain ⟨rest₂, rfl⟩ := h₂
  rw [List.head?_append_of_ne_nil _ hne, List.head?_append_of_ne_nil _ hne]

open SelectedReplay in
/-- The frames of the selected capture are rebased to the start of the daemon exactly when the native engine is not
installed, the capture has no frames, or its first frame is stamped with that instant already. -/
theorem replay_is_rebased_iff (nativeEngineAvailable : Bool) (config : ReplayConfig) (now : DateTime)
    {source : List (List ReplayFrame)} (hsource : config.replayPath = some source) :
    (∃ selected, selectCapture nativeEngineAvailable config now = .ok selected ∧
      ∀ turns, RebasedTo now source.flatten (run step selected turns).delivered) ↔
    (nativeEngineAvailable = false ∨ ∀ first ∈ source.flatten.head?, first.tsUs = now.us) := by
  cases nativeEngineAvailable with
  | false =>
    refine iff_of_true ?_ (.inl rfl)
    refine ⟨.packets (.init source config.replaySpeed (some now)), ?_, ?_⟩
    · unfold selectCapture buildReplayCapture
      rw [hsource]
      rfl
    · have hreads : Reads source.flatten (.packets (.init source config.replaySpeed (some now))) :=
        ⟨List.prefix_append [] _, fun _ => PacedFrames.reads_init source _ _⟩
      exact fun turns => delivered_in_order hreads turns
  | true =>
    have hselected : selectCapture true config now =
        .ok (.flows (.init source .replayClock config.replaySpeed none)) := by
      unfold selectCapture buildReplayCapture
      rw [hsource]
      rfl
    have hreads : Reads source.flatten (.flows (.init source .replayClock config.replaySpeed none)) :=
      PacedFrames.reads_init source _ _
    constructor
    · rintro ⟨selected, hok, hrebased⟩
      rw [hselected] at hok
      obtain rfl := Except.ok.inj hok
      refine .inr fun first hfirst => ?_
      -- the first frame is delivered with its own timestamp, and where the daemon asked for it
      have hown := delivered_in_order hreads [ReplayTurn.due]
      have hasked := hrebased [ReplayTurn.due]
      have hsome : (run step (.flows (.init source .replayClock config.replaySpeed none))
          [ReplayTurn.due]).delivered ≠ [] :=
        ReplayCapture.poll_due source .replayClock config.replaySpeed (List.ne_nil_of_mem (List.mem_of_head? hfirst))
      have hhead := head?_eq_of_prefixes hsome hown hasked
      obtain ⟨rest, hall⟩ := List.head?_eq_some_iff.mp hfirst
      rw [hall] at hhead
      have hus : first.tsUs + 0 = first.tsUs + (now.us - first.tsUs) :=
        congrArg ReplayFrame.tsUs (Option.some.inj hhead)
      omega
    · rintro (hfalse | hfirst)
      · cases hfalse
      · refine ⟨_, hselected, fun turns => ?_⟩
        have horder := delivered_in_order hreads turns
        rw [show rebaseToUs _ = none from rfl, ← PacedFrames.rebased_of_head hfirst] at horder
        exact horder

/-- Two frames of an old capture, a second apart. -/
def oldCapture : ReplayConfig := ⟨some [[⟨[], 1000000⟩, ⟨[], 2000000⟩]], none⟩

/-- A start of the daemon, many years later. -/
def daemonStart : DateTime := ⟨1760000000000000, by decide, by decide⟩

theorem replay_is_rebased_iff_python :
    (∃ selected, selectCapture false oldCapture daemonStart = .ok selected ∧
      ∀ turns, SelectedReplay.RebasedTo daemonStart [⟨[], 1000000⟩, ⟨[], 2000000⟩]
        (run SelectedReplay.step selected turns).delivered) ↔
    (false = false ∨ ∀ first ∈ [(⟨[], 1000000⟩ : ReplayFrame), ⟨[], 2000000⟩].head?, first.tsUs = daemonStart.us) :=
  replay_is_rebased_iff false oldCapture daemonStart rfl

/-- The native capture delivers the frames at the times of the capture. -/
theorem native_replay_is_not_rebased :
    ∃ selected, selectCapture true oldCapture daemonStart = .ok selected ∧
      (run SelectedReplay.step selected [.due]).delivered = [⟨[], 1000000⟩, ⟨[], 2000000⟩] ∧
      ¬SelectedReplay.RebasedTo daemonStart [⟨[], 1000000⟩, ⟨[], 2000000⟩]
        (run SelectedReplay.step selected [.due]).delivered := by
  have hdelivered : (run SelectedReplay.step
      (.flows (.init [[⟨[], 1000000⟩, ⟨[], 2000000⟩]] .replayClock none none)) [.due]).delivered =
      [⟨[], 1000000⟩, ⟨[], 2000000⟩] := by decide +kernel
  refine ⟨_, rfl, hdelivered, ?_⟩
  unfold SelectedReplay.RebasedTo oldCapture
  rw [hdelivered]
  decide +kernel

end Pirewall
