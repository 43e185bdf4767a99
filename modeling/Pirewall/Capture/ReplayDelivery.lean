/-
# Pirewall.Capture.ReplayDelivery -- what a replay has delivered when it says it is finished

`ReplayCapture` feeds the rebased records of its files in order, and `finished` says that no poll will feed any more.
A reader that raises ends the generator over all the files: the poll that meets the exception raises it, and the next
one finds a generator at its end. So what is fed by then is every record up to the first exception
(`Reads.ended`), and some polls always get there (`exists_finishing`); it is every record of every file exactly when
no file with records stands behind one whose reader raises (`replay_delivers_iff`).
-/
import Pirewall.Capture.PcapRoundTrip
import Pirewall.Capture.PcapngReader
import Pirewall.Capture.Replay

namespace Pirewall

open Lib Bytes Pcapio

/-! ## Files as bytes -/

/-- Whatever the bytes of a file, its reader comes to an end. -/
theorem read_total (path : String) (bytes : List UInt8) : ∃ reading, read path bytes = some reading := by
  rw [Pcapio.read]
  by_cases hhead : (bytes.take 4).length < 4
  · rw [if_pos hhead]
    exact ⟨_, rfl⟩
  rw [if_neg hhead]
  by_cases hshb : Endian.number .little (bytes.take 4) = pcapngShb
  · have hlength : (bytes.take 4).length = 4 := le_antisymm (List.length_take_le 4 bytes) (not_lt.mp hhead)
    obtain ⟨g, hg, -⟩ := Pcapng.readPcapng_generates path (bytes.drop 4) hlength
    rw [if_pos hshb]
    exact ⟨_, hg⟩
  rw [if_neg hshb, readPcap]
  split
  · exact ⟨_, rfl⟩
  · rename_i endian perSecond hmagic
    dsimp only
    split_ifs with hshort
    · exact ⟨_, rfl⟩
    · split
      · rename_i network _
        have hadvances := pcapTurn_advances path endian perSecond (network % 65536)
        have hturns : ((bytes.drop 4).drop 20).length < (bytes.drop 4).length + 1 := by
          rw [List.length_drop]
          omega
        obtain ⟨g, hg⟩ := generate_isSome (s := ⟨(bytes.drop 4).drop 20, { linkTypes := [network % 65536] }⟩)
          hadvances.in trivial hturns
        exact ⟨_, congrArg (Option.map _) hg⟩
      · exact ⟨_, rfl⟩
      · exact ⟨_, rfl⟩

/-- A capture file with these bytes. -/
def CaptureFile.ofBytes (path : String) (bytes : List UInt8) : CaptureFile :=
  let reading := (read path bytes).get (Option.isSome_iff_exists.mpr (read_total path bytes))
  ⟨reading.yielded.map fun record => ⟨record.data, record.tsUs⟩, reading.error.map .reader⟩

/-! ## Records behind a fault -/

namespace CaptureFile

/-- The records of the files, in file order. -/
def allRecords (files : List CaptureFile) : List ReplayFrame := files.flatMap records

/-- No file with records stands behind one whose reader raises. -/
def FaultsLast (files : List CaptureFile) : Prop :=
  ∀ before file after, files = before ++ file :: after → file.fault ≠ none → ∀ later ∈ after, later.records = []

end CaptureFile

open CaptureFile

namespace PacedFrames

/-- The generator yields the first of the records. -/
theorem iterate_prefix (files : List CaptureFile) : (iterate files).1 <+: allRecords files := by
  induction files with
  | nil => exact List.prefix_rfl
  | cons file files ih =>
    rw [iterate, allRecords, List.flatMap_cons]
    cases file.fault with
    | some fault => exact List.prefix_append _ _
    | none => exact (List.prefix_append_right_inj file.records).mpr ih

theorem faultsLast_cons {file : CaptureFile} {files : List CaptureFile} :
    FaultsLast (file :: files) ↔ (file.fault ≠ none → ∀ later ∈ files, later.records = []) ∧ FaultsLast files := by
  constructor
  · intro h
    refine ⟨h [] file files rfl, fun before next after heq => ?_⟩
    exact h (file :: before) next after (congrArg (file :: ·) heq)
  · rintro ⟨hfirst, hrest⟩ before next after heq
    cases before with
    | nil =>
      obtain ⟨rfl, rfl⟩ := List.cons.inj heq
      exact hfirst
    | cons first before => exact hrest before next after (List.cons.inj heq).2

/-- It yields all of them exactly when there are none behind a fault. -/
theorem iterate_eq_iff (files : List CaptureFile) : (iterate files).1 = allRecords files ↔ FaultsLast files := by
  induction files with
  | nil => exact iff_of_true rfl fun before file after heq => absurd heq (by simp)
  | cons file files ih =>
    rw [faultsLast_cons, ← ih, iterate, allRecords, List.flatMap_cons]
    cases hfault : file.fault with
    | none =>
      show file.records ++ _ = file.records ++ _ ↔ _
      rw [List.append_cancel_left_eq]
      exact ⟨fun h => ⟨fun hne => absurd rfl hne, h⟩, fun h => h.2⟩
    | some fault =>
      show file.records = file.records ++ allRecords files ↔ _
      rw [List.self_eq_append_right]
      constructor
      · intro hnil
        have hnone : (iterate files).1 = [] := List.prefix_nil.mp (hnil ▸ iterate_prefix files)
        exact ⟨fun _ => List.flatMap_eq_nil_iff.mp hnil, hnone.trans hnil.symm⟩
      · rintro ⟨hlater, -⟩
        exact List.flatMap_eq_nil_iff.mpr (hlater (Option.some_ne_none fault))

/-- A frame is due when the clock reads what is missing to it. -/
theorem due_at (frames : PacedFrames) (frame : ReplayFrame) :
    frames.secondsUntilDue frame (frames.secondsUntilDue frame 0) ≤ 0 := by
  unfold secondsUntilDue
  cases frames.speed with
  | none => exact le_refl 0
  | some speed =>
    dsimp only
    rw [sub_zero, sub_self]

/-- A frame that is held is seen again. -/
theorem peek_held {frames : PacedFrames} {frame : ReplayFrame} (h : frames.lookahead = some frame) (clock : ℚ) :
    frames.peek clock = (.ok (some frame), frames) := by
  unfold peek
  rw [h]
  rfl

end PacedFrames

/-! ## Polls -/

/-- A turn that reads the same time whenever it looks, with nothing in its way. -/
def ReplayTurn.dueAt (clock : ℚ) : ReplayTurn := ⟨0, fun _ => clock, none, 0, fun _ => false⟩

namespace ReplayCapture

variable {frames : PacedFrames} {capture : ReplayCapture} {all delivered : List ReplayFrame}

/-- A poll, for what it leaves. -/
def polled (capture : ReplayCapture) (turn : ReplayTurn) : ReplayCapture := (capture.poll turn).2

/-- Feeding meets the exception at most once. -/
theorem feedDue_fault (turn : ReplayTurn) (budget : Nat) (h : frames.Reads all delivered) :
    (feedDue turn budget frames).2.fault = frames.fault ∨ (feedDue turn budget frames).2.fault = none := by
  induction budget generalizing frames delivered with
  | zero => exact .inl rfl
  | succ budget ih =>
    unfold feedDue
    by_cases hstops : turn.stops (budget + 1) = true
    · rw [if_pos hstops]
      exact .inl rfl
    rw [if_neg hstops]
    obtain ⟨hpeek, -, hpeeked⟩ := h.peek turn.opening
    generalize frames.peek turn.opening = found at hpeek hpeeked
    cases hpeeked with
    | raised hraised hfault => exact .inr hfault
    | ended hnone hend hfault => exact .inl hfault
    | held hheld hfault =>
      dsimp only
      split_ifs with hdue hraises
      · exact .inl hfault
      · exact .inl hfault
      · rw [← hfault]
        exact ih (hpeek.take hheld)

/-- What is in front of a capture: two for each frame, and one for an exception. -/
def ahead (all : List ReplayFrame) (capture : ReplayCapture) : Nat :=
  2 * (all.length - capture.fed.length) + if capture.frames.fault = none then 0 else 1

/-- Some poll of a capture that is not finished brings it further: to the end, or past a frame or the exception. -/
theorem exists_poll (h : capture.frames.Reads all capture.fed) (hrunning : capture.stopped = false) :
    ∃ turn, (capture.polled turn).stopped = false ∧
      ((capture.polled turn).finished = true ∨ ahead all (capture.polled turn) < ahead all capture) := by
  obtain ⟨hpeek, -, hpeeked⟩ := h.peek 0
  rcases hcase : capture.frames.peek 0 with ⟨found, peeked⟩
  rw [hcase] at hpeek hpeeked
  have hreads : peeked.Reads all capture.fed := hpeek
  have hlooked (clock : ℚ) : capture.frames.peek (ReplayTurn.dueAt clock).opening = (found, peeked) := hcase
  unfold polled poll
  rw [hrunning]
  cases hpeeked with
  | raised hraised hfault =>
    refine ⟨.dueAt 0, ?_⟩
    rw [if_neg Bool.false_ne_true, hlooked]
    refine ⟨rfl, .inr ?_⟩
    -- nothing is fed, and the exception is behind it
    show 2 * (all.length - capture.fed.length) + ite (peeked.fault = none) 0 1 < ahead all capture
    rw [ahead, if_pos hfault, hraised, if_neg (Option.some_ne_none _)]
    omega
  | ended hnone hend hfault =>
    refine ⟨.dueAt 0, ?_⟩
    rw [if_neg Bool.false_ne_true, hlooked]
    exact ⟨rfl, .inl hend⟩
  | @held frame _ hheld hfault =>
    have hdue := peeked.due_at frame
    generalize peeked.secondsUntilDue frame 0 = clock at hdue
    have hwait : ¬((max (ReplayTurn.dueAt clock).timeoutMs 0 : Int) : ℚ) / 1000 <
        peeked.secondsUntilDue frame ((ReplayTurn.dueAt clock).clock maxFramesPerPoll) := by
      rw [not_lt]
      exact hdue.trans (by norm_num [ReplayTurn.dueAt])
    refine ⟨.dueAt clock, ?_⟩
    rw [if_neg Bool.false_ne_true, hlooked]
    dsimp only
    rw [if_neg hwait]
    refine ⟨rfl, .inr ?_⟩
    have hsome : (feedDue (.dueAt clock) maxFramesPerPoll peeked).1.1 ≠ [] :=
      feedDue_ne_nil 4999 rfl (PacedFrames.peek_held hheld _) hdue
    have hmore := List.length_pos_iff.mpr hsome
    have hfit := (feedDue_reads (.dueAt clock) maxFramesPerPoll hreads).1.handed_out.length_le
    rw [PacedFrames.rebased, List.length_map, List.length_append] at hfit
    show 2 * (all.length - (capture.fed ++ (feedDue (.dueAt clock) maxFramesPerPoll peeked).1.1).length) +
      ite ((feedDue (.dueAt clock) maxFramesPerPoll peeked).2.fault = none) 0 1 < ahead all capture
    rw [ahead, List.length_append, ← hfault]
    rcases feedDue_fault (.dueAt clock) maxFramesPerPoll hreads with hsame | hnone
    · rw [hsame]
      omega
    · rw [if_pos hnone]
      omega

/-- Some polls finish a capture, whatever its files. -/
theorem exists_finishing (capture : ReplayCapture) (h : capture.frames.Reads all capture.fed)
    (hrunning : capture.stopped = false) :
    ∃ turns, (run polled capture turns).finished = true := by
  induction hahead : ahead all capture using Nat.strong_induction_on generalizing capture with
  | _ n ih =>
    obtain ⟨turn, hstill, hend | hless⟩ := exists_poll h hrunning
    · exact ⟨[turn], hend⟩
    · subst hahead
      obtain ⟨turns, hturns⟩ := ih _ hless _ (poll_reads h turn).1 hstill rfl
      exact ⟨turn :: turns, hturns⟩

/-- The frames fed are the first of all the records, rebased; and all of them once `finished` is true. -/
def DeliversAll (files : List CaptureFile) (sink : FrameSink) (speed : Option ℚ) (rebaseTo : Option DateTime) : Prop :=
  ∀ turns : List ReplayTurn,
    let capture := run polled (.start files sink speed rebaseTo) turns
    capture.fed <+: PacedFrames.rebased (rebaseTo.map DateTime.us) (allRecords files) ∧
      (capture.finished = true → capture.fed = PacedFrames.rebased (rebaseTo.map DateTime.us) (allRecords files))

/-- After any polls, a capture stands within what its generator yields. -/
theorem run_reads (files : List CaptureFile) (sink : FrameSink) (speed : Option ℚ) (rebaseTo : Option DateTime)
    (turns : List ReplayTurn) :
    let capture := run polled (.start files sink speed rebaseTo) turns
    capture.frames.Reads (PacedFrames.iterate files).1 capture.fed ∧
      capture.frames.rebaseToUs = rebaseTo.map DateTime.us := by
  refine Along.invariant (G := fun _ _ => True)
    (I := fun capture : ReplayCapture => capture.frames.Reads (PacedFrames.iterate files).1 capture.fed ∧
      capture.frames.rebaseToUs = rebaseTo.map DateTime.us)
    ?_ (Along.of_forall (fun _ _ _ => trivial) _) ⟨PacedFrames.reads_ofFiles files speed _, rfl⟩
  rintro capture turn ⟨hreads, hsame⟩ -
  obtain ⟨hnext, hrebase⟩ := poll_reads hreads turn
  exact ⟨hnext, hrebase.trans hsame⟩

/-- When it is finished, a capture has fed all that its generator yields. -/
theorem fed_of_finished {files : List CaptureFile} {sink : FrameSink} {speed : Option ℚ} {rebaseTo : Option DateTime}
    {turns : List ReplayTurn} (h : (run polled (.start files sink speed rebaseTo) turns).finished = true) :
    (run polled (.start files sink speed rebaseTo) turns).fed =
      PacedFrames.rebased (rebaseTo.map DateTime.us) (PacedFrames.iterate files).1 := by
  obtain ⟨hreads, hrebase⟩ := run_reads files sink speed rebaseTo turns
  obtain ⟨hnone, hnil⟩ := hreads.ended h
  rw [← hrebase, hreads.parts, hnone, hnil]
  simp

end ReplayCapture

open ReplayCapture

/-- Whatever the pace, the clock and the polls: a replay delivers the records of its files, each once and in order,
and all of them by the time it is finished, exactly when no file with records stands behind one whose reader
raises. -/
theorem replay_delivers_iff (files : List CaptureFile) (sink : FrameSink) (speed : Option ℚ)
    (rebaseTo : Option DateTime) : DeliversAll files sink speed rebaseTo ↔ FaultsLast files := by
  rw [← PacedFrames.iterate_eq_iff]
  constructor
  · intro h
    obtain ⟨turns, hturns⟩ := exists_finishing (.start files sink speed rebaseTo)
      (PacedFrames.reads_ofFiles files speed _) rfl
    have hall := (h turns).2 hturns
    have hlength := congrArg List.length ((fed_of_finished hturns).symm.trans hall)
    rw [PacedFrames.rebased, PacedFrames.rebased, List.length_map, List.length_map] at hlength
    exact (PacedFrames.iterate_prefix files).eq_of_length hlength
  · intro heq turns
    obtain ⟨hreads, hrebase⟩ := run_reads files sink speed rebaseTo turns
    rw [← heq]
    exact ⟨hrebase ▸ hreads.handed_out, fed_of_finished⟩

/-- An empty file, and one with a frame. -/
def emptyFileFirst : List CaptureFile :=
  [.ofBytes "01.pcap" [],
   .ofBytes "02.pcap" [0xD4, 0xC3, 0xB2, 0xA1, 2, 0, 4, 0, 0, 0, 0, 0, 0, 0, 0, 0, 0xFF, 0xFF, 0, 0, 1, 0, 0, 0,
     1, 0, 0, 0, 0x20, 0xA1, 7, 0, 2, 0, 0, 0, 2, 0, 0, 0, 0xAB, 0xCD]]

/-- The poll that meets the empty file raises; after the next one the replay is finished, and has fed nothing. -/
theorem replay_skips_a_file :
    let capture := run polled (.start emptyFileFirst .aggregator none none) [.due, .due]
    allRecords emptyFileFirst = [⟨[0xAB, 0xCD], 1500000⟩] ∧ capture.finished = true ∧ capture.fed = [] ∧
      ¬DeliversAll emptyFileFirst .aggregator none none := by
  have hrecords : allRecords emptyFileFirst = [⟨[0xAB, 0xCD], 1500000⟩] := by decide +kernel
  have hfinished : (run polled (.start emptyFileFirst .aggregator none none) [.due, .due]).finished = true := by
    decide +kernel
  have hfed : (run polled (.start emptyFileFirst .aggregator none none) [.due, .due]).fed = [] := by decide +kernel
  refine ⟨hrecords, hfinished, hfed, fun h => ?_⟩
  have hall := (h [.due, .due]).2 hfinished
  rw [hfed, hrecords] at hall
  exact nomatch hall

end Pirewall
