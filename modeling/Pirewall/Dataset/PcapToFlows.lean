/-
# Pirewall.Dataset.PcapToFlows -- the flows of a capture, swept on its own clock

`flows_from_captures` of `scripts/dataset/pcap_to_flows.py`, for one stream of capture files and the Python engine. The
frames are fed in file order. Sweeps are due every `cleanup_interval_seconds` of capture time, from the first frame on;
where no frame comes for longer than that, one sweep at the last tick stands for all the ticks that were skipped.

A flow that is due to close stays due, so a sweep takes out what an earlier sweep would have taken out
(`sweep_sweep`), and the ticks of a gap come to the same as the last of them (`sweepEvery_same`). Whether a record is
the start of its connection depends on the order of the records, and is left out.
-/
import Pirewall.Capture.Pcapio
import Pirewall.Flow.SweepOrder
import Pirewall.Runtime.ReplaySweep

namespace Pirewall

open Lib

/-! ## A sweep after a sweep -/

namespace FlowAggregator

/-- A flow that closes, closes later on as well. -/
theorem closes_mono {a : FlowAggregator} {state : FlowState} {now later : DateTime} (h : now.us ≤ later.us)
    (hcloses : a.closes state now = true) : a.closes state later = true := by
  have hsince (moment : DateTime) : now.secondsSince moment ≤ later.secondsSince moment := by
    have hcast : ((now.us - moment.us : Int) : ℚ) ≤ (later.us - moment.us : Int) := by exact_mod_cast by omega
    show toDouble (((now.us - moment.us : Int) : ℚ) / 1000000) ≤ toDouble (((later.us - moment.us : Int) : ℚ) / 1000000)
    apply toDouble_mono
    linarith
  have hfirst := hsince state.firstSeen
  have hlast := hsince state.lastSeen
  unfold closes checkClosure at *
  by_cases htcp : isTcpCompleted state = true
  · rw [if_pos htcp]
    rfl
  rw [if_neg htcp] at hcloses ⊢
  by_cases hactive : now.secondsSince state.firstSeen ≥ a.activeTimeoutSeconds
  · rw [if_pos (le_trans hactive hfirst)]
    rfl
  rw [if_neg hactive] at hcloses
  by_cases hinactive : now.secondsSince state.lastSeen ≥ a.inactiveTimeoutSeconds
  · rw [if_pos (show later.secondsSince state.lastSeen ≥ _ from le_trans hinactive hlast)]
    split
    · rfl
    · rfl
  · rw [if_neg hinactive] at hcloses
    exact absurd hcloses Bool.false_ne_true

/-- What closes now and what of the rest closes later is what closes later. -/
theorem closed_append_closed (a : FlowAggregator) {now later : DateTime} (h : now.us ≤ later.us)
    (entries : List (FlowKey × FlowState)) :
    (a.closed now entries ++ a.closed later (a.spared now entries)).Perm (a.closed later entries) := by
  have hboth : (entries.filter fun e => a.closes e.2 later).filter (fun e => a.closes e.2 now) =
      entries.filter fun e => a.closes e.2 now := by
    rw [List.filter_filter]
    refine List.filter_congr fun e _ => ?_
    cases hnow : a.closes e.2 now with
    | false => rfl
    | true => exact closes_mono h hnow
  have hrest : (entries.filter fun e => a.closes e.2 later).filter (fun e => !a.closes e.2 now) =
      (a.spared now entries).filter fun e => a.closes e.2 later := by
    unfold spared
    rw [List.filter_filter, List.filter_filter]
    exact List.filter_congr fun e _ => Bool.and_comm _ _
  have hperm := List.filter_append_perm (fun e => a.closes e.2 now) (entries.filter fun e => a.closes e.2 later)
  rw [hboth, hrest] at hperm
  unfold closed
  rw [← List.map_append]
  exact hperm.map _

/-- What neither sweep closes, the second does not. -/
theorem spared_spared (a : FlowAggregator) {now later : DateTime} (h : now.us ≤ later.us)
    (entries : List (FlowKey × FlowState)) : a.spared later (a.spared now entries) = a.spared later entries := by
  unfold spared
  rw [List.filter_filter]
  refine List.filter_congr fun e _ => ?_
  cases hnow : a.closes e.2 now with
  | false => exact Bool.and_true _
  | true => rw [closes_mono h hnow, Bool.not_true, Bool.false_and]

/-- Two sweeps, one after the other, come to the second alone: it closes what they close between them, and leaves the
same flows open. -/
theorem sweep_sweep (a : FlowAggregator) {now later : DateTime} (h : now.us ≤ later.us) :
    ((a.sweepTimeouts now).2.sweepTimeouts later).2 = (a.sweepTimeouts later).2 ∧
      ((a.sweepTimeouts now).1 ++ ((a.sweepTimeouts now).2.sweepTimeouts later).1).Perm (a.sweepTimeouts later).1 := by
  obtain ⟨hclosed, hspared, hswept⟩ := a.sweepTimeouts_spec now
  obtain ⟨hclosed', hspared', hswept'⟩ := (a.sweepTimeouts now).2.sweepTimeouts_spec later
  obtain ⟨hlater, hlaterSpared, hlaterSwept⟩ := a.sweepTimeouts_spec later
  -- the settings stay, so that the second sweep closes by the same timeouts
  have hcloses : (a.sweepTimeouts now).2.closed later = a.closed later ∧
      (a.sweepTimeouts now).2.spared later = a.spared later := by
    rw [hswept]
    exact ⟨rfl, rfl⟩
  rw [hcloses.2, hspared, a.spared_spared h, ← hlaterSpared] at hspared'
  rw [hcloses.1, hspared] at hclosed'
  constructor
  · have hflows : ((a.sweepTimeouts now).2.sweepTimeouts later).2.table.flows =
        (a.sweepTimeouts later).2.table.flows := Dict.ext hspared'
    calc ((a.sweepTimeouts now).2.sweepTimeouts later).2
        = { a with table := ⟨a.table.maxFlows, ((a.sweepTimeouts now).2.sweepTimeouts later).2.table.flows⟩ } := by
          rw [hswept', hswept]
      _ = { a with table := ⟨a.table.maxFlows, (a.sweepTimeouts later).2.table.flows⟩ } := by rw [hflows]
      _ = (a.sweepTimeouts later).2 := by rw [hlaterSwept]
  · rw [hclosed, hclosed', hlater]
    exact a.closed_append_closed h _

end FlowAggregator

/-! ## One stream of captures -/

/-- `_DRAIN_EVERY`. -/
def drainEvery : Nat := 1000

/-- The local variables of `flows_from_captures`: the Python engine and what it has not been drained of, the next tick,
the number of frames fed, and what has been yielded, each flow with the file that was being read. -/
structure CaptureRun where
  flows : FlowAggregator
  pending : List Flow
  nextSweepUs : Option Int
  fed : Nat
  yielded : List (Flow × String)

namespace CaptureRun

/-- A new engine, and no tick yet. -/
def start (settings : ReplaySettings) : CaptureRun := ⟨.init settings.flow settings.protectedNetwork, [], none, 0, []⟩

/-- `yield from _observed(...)`. -/
def observed (r : CaptureRun) (source : String) (flows : List Flow) : CaptureRun :=
  { r with yielded := r.yielded ++ flows.map fun flow => (flow, source) }

/-- `flows.drain()`, yielded. -/
def drain (r : CaptureRun) (source : String) : CaptureRun := { r.observed source r.pending with pending := [] }

/-- `flows.sweep_timeouts(from_microseconds(...))`, yielded. -/
def sweepAt (r : CaptureRun) (source : String) (us : Int) : Option CaptureRun :=
  (DateTime.fromMicroseconds us).map fun now =>
    { r.observed source (r.flows.sweepTimeouts now).1 with flows := (r.flows.sweepTimeouts now).2 }

/-- `flows.feed_us`: a frame that does not parse is only counted. -/
def feedUs (settings : ReplaySettings) (r : CaptureRun) (record : PcapRecord) : Option CaptureRun :=
  (DateTime.fromMicroseconds record.tsUs).map fun capturedAt =>
    match settings.packetOf ⟨record.data, capturedAt⟩ with
    | none => r
    | some packet =>
      let (completed, _, flows) := r.flows.processPacket packet
      { r with flows, pending := r.pending ++ completed }

/-- The last tick at or before a time, from the next tick on. -/
def lastTick (nextSweepUs intervalUs tsUs : Int) : Int :=
  let ticks := (tsUs - nextSweepUs) / intervalUs
  nextSweepUs + ticks * intervalUs

/-- The sweep in front of a frame, if it is due: one, at the last tick. -/
def sweepDue (settings : ReplaySettings) (r : CaptureRun) (source : String) (tsUs : Int) : Option CaptureRun :=
  match r.nextSweepUs with
  | none => some { r with nextSweepUs := some (tsUs + settings.intervalUs) }
  | some nextSweepUs =>
    if nextSweepUs ≤ tsUs then
      let sweepAtUs := lastTick nextSweepUs settings.intervalUs tsUs
      ((r.drain source).sweepAt source sweepAtUs).map fun r =>
        { r with nextSweepUs := some (sweepAtUs + settings.intervalUs) }
    else some r

/-- A frame is fed, and the engine drained now and then. -/
def feed (settings : ReplaySettings) (r : CaptureRun) (source : String) (record : PcapRecord) : Option CaptureRun :=
  (r.feedUs settings record).map fun r =>
    let r := { r with fed := r.fed + 1 }
    if r.fed % drainEvery = 0 then r.drain source else r

/-- One record of the loop. -/
def turn (settings : ReplaySettings) (r : CaptureRun) (record : String × PcapRecord) : Option CaptureRun :=
  (r.sweepDue settings record.1 record.2.tsUs).bind fun r => r.feed settings record.1 record.2

/-- The end of a stream: what is pending, and then what is open. -/
def finish (r : CaptureRun) (source : String) : CaptureRun :=
  let r := r.drain source
  { r.observed source r.flows.flush.1 with flows := r.flows.flush.2 }

end CaptureRun

/-- The files of a stream as one list of records, each with the name of its file. -/
def streamRecords (files : List (String × List PcapRecord)) : List (String × PcapRecord) :=
  files.flatMap fun file => file.2.map fun record => (file.1, record)

/-- `flows_from_captures`, of one stream: at its end `source` is the last of the files. -/
def flowsFromCaptures (settings : ReplaySettings) (files : List (String × List PcapRecord)) :
    Option (List (Flow × String)) :=
  match files.getLast? with
  | none => none
  | some (source, _) =>
    ((streamRecords files).foldlM (CaptureRun.turn settings) (.start settings)).map fun r => (r.finish source).yielded

/-! ## Every tick -/

namespace CaptureRun

variable {settings : ReplaySettings}

/-- Sweep at every tick up to a time, one after the other. -/
def sweepEvery (settings : ReplaySettings) (r : CaptureRun) (source : String) (nextSweepUs tsUs : Int) :
    Option CaptureRun :=
  if nextSweepUs ≤ tsUs then
    (r.sweepAt source nextSweepUs).bind fun r =>
      sweepEvery settings r source (nextSweepUs + settings.intervalUs) tsUs
  else some { r with nextSweepUs := some nextSweepUs }
termination_by (tsUs + 1 - nextSweepUs).toNat
decreasing_by
  have hpos := settings.intervalUs_pos
  omega

/-- `sweepDue`, without a tick skipped. -/
def sweepDueEvery (settings : ReplaySettings) (r : CaptureRun) (source : String) (tsUs : Int) : Option CaptureRun :=
  match r.nextSweepUs with
  | none => some { r with nextSweepUs := some (tsUs + settings.intervalUs) }
  | some nextSweepUs =>
    if nextSweepUs ≤ tsUs then (r.drain source).sweepEvery settings source nextSweepUs tsUs else some r

/-- `turn`, without a tick skipped. -/
def turnEvery (settings : ReplaySettings) (r : CaptureRun) (record : String × PcapRecord) : Option CaptureRun :=
  (r.sweepDueEvery settings record.1 record.2.tsUs).bind fun r => r.feed settings record.1 record.2

/-- The same flows open, closed and to come, whatever the order they were yielded in. -/
structure Same (r r' : CaptureRun) : Prop where
  flows : r.flows = r'.flows
  pending : r.pending = r'.pending
  nextSweepUs : r.nextSweepUs = r'.nextSweepUs
  fed : r.fed = r'.fed
  yielded : r.yielded.Perm r'.yielded

theorem lastTick_spec (nextSweepUs : Int) {intervalUs : Int} (hpos : 0 < intervalUs) (tsUs : Int) :
    lastTick nextSweepUs intervalUs tsUs ≤ tsUs ∧ tsUs < lastTick nextSweepUs intervalUs tsUs + intervalUs := by
  have hdiv := Int.ediv_mul_add_emod (tsUs - nextSweepUs) intervalUs
  have hnonneg := Int.emod_nonneg (tsUs - nextSweepUs) hpos.ne'
  have hlt := Int.emod_lt_of_pos (tsUs - nextSweepUs) hpos
  unfold lastTick
  dsimp only
  constructor
  · omega
  · omega

theorem Same.refl (r : CaptureRun) : r.Same r := ⟨rfl, rfl, rfl, rfl, .refl _⟩

theorem Same.trans {r r' r'' : CaptureRun} (h : r.Same r') (h' : r'.Same r'') : r.Same r'' where
  flows := h.flows.trans h'.flows
  pending := h.pending.trans h'.pending
  nextSweepUs := h.nextSweepUs.trans h'.nextSweepUs
  fed := h.fed.trans h'.fed
  yielded := h.yielded.trans h'.yielded

/-- Yielding the same flows, in some order. -/
theorem Same.observed {r r' : CaptureRun} (h : r.Same r') (source : String) {flows flows' : List Flow}
    (hflows : flows.Perm flows') : (r.observed source flows).Same (r'.observed source flows') where
  flows := h.flows
  pending := h.pending
  nextSweepUs := h.nextSweepUs
  fed := h.fed
  yielded := h.yielded.append (hflows.map _)

/-- A tick is in the range of `datetime` when a later one is, as the first tick is not before it. -/
theorem fromMicroseconds_of_le {us later : Int} (hmin : -62135596800000000 ≤ us) (hle : us ≤ later)
    (h : DateTime.fromMicroseconds us = none) : DateTime.fromMicroseconds later = none := by
  unfold DateTime.fromMicroseconds at *
  split at h
  · cases h
  · rename_i hout
    rw [dif_neg (by omega)]

theorem us_of_fromMicroseconds {us : Int} {moment : DateTime} (h : DateTime.fromMicroseconds us = some moment) :
    moment.us = us := by
  unfold DateTime.fromMicroseconds at h
  split at h
  · exact (congrArg DateTime.us (Option.some.inj h)).symm
  · cases h

/-- A sweep that is followed by a later one could as well be left out. -/
theorem sweepAt_skip {r swept : CaptureRun} {source : String} {us later : Int} (hle : us ≤ later)
    (h : r.sweepAt source us = some swept) :
    Option.Rel Same (r.sweepAt source later) (swept.sweepAt source later) := by
  obtain ⟨now, hnow, rfl⟩ := Option.map_eq_some_iff.mp h
  unfold sweepAt
  cases hlater : DateTime.fromMicroseconds later with
  | none => exact .none
  | some moment =>
    have hus : now.us ≤ moment.us := by
      rw [us_of_fromMicroseconds hnow, us_of_fromMicroseconds hlater]
      exact hle
    obtain ⟨hflows, hclosed⟩ := r.flows.sweep_sweep hus
    refine .some ⟨hflows.symm, rfl, rfl, rfl, ?_⟩
    show (r.yielded ++ _).Perm (r.yielded ++ _ ++ _)
    rw [List.append_assoc, ← List.map_append]
    exact (hclosed.symm.map _).append_left _

/-- Within a gap, the last tick is the same from every tick on. -/
theorem lastTick_next (nextSweepUs : Int) {intervalUs : Int} (hpos : 0 < intervalUs) (tsUs : Int) :
    lastTick (nextSweepUs + intervalUs) intervalUs tsUs = lastTick nextSweepUs intervalUs tsUs := by
  have hsub : tsUs - nextSweepUs = tsUs - (nextSweepUs + intervalUs) + 1 * intervalUs := by omega
  unfold lastTick
  dsimp only
  rw [hsub, Int.add_mul_ediv_right _ _ hpos.ne', Int.add_mul]
  omega

theorem lastTick_of_lt {nextSweepUs intervalUs tsUs : Int} (hdue : nextSweepUs ≤ tsUs)
    (h : tsUs < nextSweepUs + intervalUs) : lastTick nextSweepUs intervalUs tsUs = nextSweepUs := by
  unfold lastTick
  dsimp only
  rw [Int.ediv_eq_zero_of_lt (by omega) (by omega), Int.zero_mul, Int.add_zero]

/-- The run with its next tick put down. -/
def scheduled (r : CaptureRun) (nextSweepUs : Int) : CaptureRun := { r with nextSweepUs := some nextSweepUs }

theorem Same.scheduled {r r' : CaptureRun} (h : r.Same r') (nextSweepUs : Int) :
    (r.scheduled nextSweepUs).Same (r'.scheduled nextSweepUs) :=
  ⟨h.flows, h.pending, rfl, h.fed, h.yielded⟩

theorem rel_trans {first second third : Option CaptureRun} (h : Option.Rel Same first second)
    (h' : Option.Rel Same second third) : Option.Rel Same first third := by
  cases h with
  | none => exact h'
  | some hsame =>
    cases h' with
    | some hsame' => exact .some (hsame.trans hsame')

theorem rel_map {first second : Option CaptureRun} {f g : CaptureRun → CaptureRun}
    (h : Option.Rel Same first second) (hmap : ∀ r r', r.Same r' → (f r).Same (g r')) :
    Option.Rel Same (first.map f) (second.map g) := by
  cases h with
  | none => exact .none
  | some hsame => exact .some (hmap _ _ hsame)

/-- Sweeping at every tick of a gap comes to one sweep at the last of them. -/
theorem sweepEvery_same (r : CaptureRun) (source : String) {nextSweepUs tsUs : Int}
    (hmin : -62135596800000000 ≤ nextSweepUs) (hdue : nextSweepUs ≤ tsUs) :
    Option.Rel Same
      ((r.sweepAt source (lastTick nextSweepUs settings.intervalUs tsUs)).map fun r =>
        r.scheduled (lastTick nextSweepUs settings.intervalUs tsUs + settings.intervalUs))
      (r.sweepEvery settings source nextSweepUs tsUs) := by
  have hpos := settings.intervalUs_pos
  obtain ⟨hlast, hnext⟩ := lastTick_spec nextSweepUs hpos tsUs
  induction hgap : (tsUs - nextSweepUs).toNat using Nat.strong_induction_on generalizing r nextSweepUs with
  | _ gap ih =>
    rw [sweepEvery, if_pos hdue]
    by_cases hlater : nextSweepUs + settings.intervalUs ≤ tsUs
    · -- the sweep at this tick is made up for by the last one
      have htick := lastTick_next nextSweepUs hpos tsUs
      have hafter : nextSweepUs ≤ lastTick nextSweepUs settings.intervalUs tsUs := by omega
      cases hswept : r.sweepAt source nextSweepUs with
      | none =>
        have hrange := fromMicroseconds_of_le hmin hafter (Option.map_eq_none_iff.mp hswept)
        unfold sweepAt
        rw [hrange]
        exact .none
      | some swept =>
        have hmin' : -62135596800000000 ≤ nextSweepUs + settings.intervalUs := by omega
        rw [← htick] at hlast hnext
        have hrest := ih (tsUs - (nextSweepUs + settings.intervalUs)).toNat (by omega) swept hmin' hlater hlast
          hnext rfl
        rw [htick] at hrest
        exact rel_trans (rel_map (sweepAt_skip hafter hswept) fun _ _ hsame => hsame.scheduled _) hrest
    · -- the last tick of the gap
      rw [lastTick_of_lt hdue (by omega)]
      cases hswept : r.sweepAt source nextSweepUs with
      | none => exact .none
      | some swept =>
        rw [Option.bind_some, sweepEvery, if_neg hlater]
        exact .some (.refl _)

/-! ## Whole runs -/

theorem Same.drain {r r' : CaptureRun} (h : r.Same r') (source : String) : (r.drain source).Same (r'.drain source) where
  flows := h.flows
  pending := rfl
  nextSweepUs := h.nextSweepUs
  fed := h.fed
  yielded := (h.observed source (h.pending ▸ .refl _)).yielded

theorem Same.sweepAt {r r' : CaptureRun} (h : r.Same r') (source : String) (us : Int) :
    Option.Rel Same (r.sweepAt source us) (r'.sweepAt source us) := by
  unfold CaptureRun.sweepAt
  rw [h.flows]
  cases DateTime.fromMicroseconds us with
  | none => exact .none
  | some now =>
    have hobserved := h.observed source (.refl (r'.flows.sweepTimeouts now).1)
    exact .some ⟨rfl, h.pending, h.nextSweepUs, h.fed, hobserved.yielded⟩

theorem Same.feedUs {r r' : CaptureRun} (h : r.Same r') (record : PcapRecord) :
    Option.Rel Same (r.feedUs settings record) (r'.feedUs settings record) := by
  unfold CaptureRun.feedUs
  cases DateTime.fromMicroseconds record.tsUs with
  | none => exact .none
  | some capturedAt =>
    refine .some ?_
    dsimp only
    cases settings.packetOf ⟨record.data, capturedAt⟩ with
    | none => exact h
    | some packet =>
      dsimp only
      rw [h.flows, h.pending]
      exact ⟨rfl, rfl, h.nextSweepUs, h.fed, h.yielded⟩

theorem Same.feed {r r' : CaptureRun} (h : r.Same r') (source : String) (record : PcapRecord) :
    Option.Rel Same (r.feed settings source record) (r'.feed settings source record) := by
  refine rel_map (h.feedUs record) fun fed fed' hsame => ?_
  have hcounted : ({ fed with fed := fed.fed + 1 } : CaptureRun).Same { fed' with fed := fed'.fed + 1 } :=
    ⟨hsame.flows, hsame.pending, hsame.nextSweepUs, congrArg (· + 1) hsame.fed, hsame.yielded⟩
  dsimp only
  by_cases hdrain : (fed.fed + 1) % drainEvery = 0
  · rw [if_pos hdrain, if_pos (hsame.fed ▸ hdrain)]
    exact hcounted.drain source
  · rw [if_neg hdrain, if_neg (hsame.fed ▸ hdrain)]
    exact hcounted

/-- The sweep in front of a frame, and the sweeps at every tick since the last one. -/
theorem Same.sweepDue {r r' : CaptureRun} (h : r.Same r') (settings : ReplaySettings) (source : String) (tsUs : Int)
    (hmin : ∀ nextSweepUs, r.nextSweepUs = some nextSweepUs → -62135596800000000 ≤ nextSweepUs) :
    Option.Rel Same (r.sweepDue settings source tsUs) (r'.sweepDueEvery settings source tsUs) := by
  unfold CaptureRun.sweepDue sweepDueEvery
  rw [← h.nextSweepUs]
  cases hnext : r.nextSweepUs with
  | none => exact .some (h.scheduled _)
  | some nextSweepUs =>
    dsimp only
    by_cases hdue : nextSweepUs ≤ tsUs
    · rw [if_pos hdue, if_pos hdue]
      refine rel_trans (rel_map ((h.drain source).sweepAt source _) fun _ _ hsame => hsame.scheduled _) ?_
      exact sweepEvery_same _ source (hmin nextSweepUs hnext) hdue
    · rw [if_neg hdue, if_neg hdue]
      exact .some h

/-- The next tick is not before the range of `datetime`. -/
def Scheduled (r : CaptureRun) : Prop :=
  ∀ nextSweepUs, r.nextSweepUs = some nextSweepUs → -62135596800000000 ≤ nextSweepUs

/-- A frame that is fed has a time, and leaves the schedule as it is. -/
theorem feedUs_scheduled {r fed : CaptureRun} {record : PcapRecord} (h : r.feedUs settings record = some fed) :
    fed.nextSweepUs = r.nextSweepUs ∧ -62135596800000000 ≤ record.tsUs := by
  obtain ⟨capturedAt, hcaptured, rfl⟩ := Option.map_eq_some_iff.mp h
  rw [← us_of_fromMicroseconds hcaptured]
  refine ⟨?_, capturedAt.min_le⟩
  cases settings.packetOf ⟨record.data, capturedAt⟩ with
  | none => rfl
  | some packet => rfl

theorem feed_scheduled {r fed : CaptureRun} {source : String} {record : PcapRecord}
    (h : r.feed settings source record = some fed) :
    fed.nextSweepUs = r.nextSweepUs ∧ -62135596800000000 ≤ record.tsUs := by
  obtain ⟨parsed, hparsed, rfl⟩ := Option.map_eq_some_iff.mp h
  obtain ⟨hsame, htime⟩ := feedUs_scheduled hparsed
  refine ⟨?_, htime⟩
  rw [← hsame]
  dsimp only
  split
  · rfl
  · rfl

/-- The first tick is put down in front of a frame that can be fed, and the others are later. -/
theorem Scheduled.turn {r r' : CaptureRun} (h : r.Scheduled) {record : String × PcapRecord}
    (hturn : r.turn settings record = some r') : r'.Scheduled := by
  have hpos := settings.intervalUs_pos
  obtain ⟨swept, hswept, hfed⟩ := Option.bind_eq_some_iff.mp hturn
  obtain ⟨hsame, htime⟩ := feed_scheduled hfed
  intro nextSweepUs hnext
  rw [hsame] at hnext
  unfold CaptureRun.sweepDue at hswept
  cases hbefore : r.nextSweepUs with
  | none =>
    rw [hbefore] at hswept
    obtain rfl := Option.some.inj hswept
    obtain rfl : record.2.tsUs + settings.intervalUs = nextSweepUs := Option.some.inj hnext
    omega
  | some before =>
    have hmin := h before hbefore
    rw [hbefore] at hswept
    dsimp only at hswept
    split at hswept
    · rename_i hdue
      obtain ⟨final, -, rfl⟩ := Option.map_eq_some_iff.mp hswept
      obtain ⟨hlast, hafter⟩ := lastTick_spec before hpos record.2.tsUs
      obtain rfl : lastTick before settings.intervalUs record.2.tsUs + settings.intervalUs = nextSweepUs :=
        Option.some.inj hnext
      omega
    · obtain rfl := Option.some.inj hswept
      obtain rfl : before = nextSweepUs := Option.some.inj (hbefore.symm.trans hnext)
      exact hmin

/-- A record, with one sweep in front of it or with all the sweeps that are due. -/
theorem Same.turn {r r' : CaptureRun} (h : r.Same r') (settings : ReplaySettings) (hscheduled : r.Scheduled)
    (record : String × PcapRecord) :
    Option.Rel Same (r.turn settings record) (r'.turnEvery settings record) := by
  have hdue := h.sweepDue settings record.1 record.2.tsUs hscheduled
  unfold CaptureRun.turn turnEvery
  generalize r.sweepDue settings record.1 record.2.tsUs = first at hdue
  generalize r'.sweepDueEvery settings record.1 record.2.tsUs = second at hdue
  cases hdue with
  | none => exact .none
  | some hsame => exact hsame.feed record.1 record.2

/-- The records of a stream, by induction on them. -/
theorem Same.turns {r r' : CaptureRun} (h : r.Same r') (settings : ReplaySettings) (hscheduled : r.Scheduled)
    (records : List (String × PcapRecord)) :
    Option.Rel Same (records.foldlM (CaptureRun.turn settings) r) (records.foldlM (turnEvery settings) r') := by
  induction records generalizing r r' with
  | nil => exact .some h
  | cons record records ih =>
    rw [List.foldlM_cons, List.foldlM_cons]
    have hturn := h.turn settings hscheduled record
    have hkept (next : CaptureRun) (heq : r.turn settings record = some next) : next.Scheduled := hscheduled.turn heq
    generalize r.turn settings record = first at hturn hkept
    generalize r'.turnEvery settings record = second at hturn
    cases hturn with
    | none => exact .none
    | some hsame => exact ih hsame (hkept _ rfl)

theorem Same.finish {r r' : CaptureRun} (h : r.Same r') (source : String) :
    (r.finish source).yielded.Perm (r'.finish source).yielded := by
  have hdrained := h.drain source
  have hopen : ((r.drain source).flows.flush.1).Perm (r'.drain source).flows.flush.1 := by rw [hdrained.flows]
  exact (hdrained.observed source hopen).yielded

end CaptureRun

/-- The flows of a stream, had it been swept at every tick. -/
def flowsSweptEveryTick (settings : ReplaySettings) (files : List (String × List PcapRecord)) :
    Option (List (Flow × String)) :=
  match files.getLast? with
  | none => none
  | some (source, _) =>
    ((streamRecords files).foldlM (CaptureRun.turnEvery settings) (.start settings)).map fun r =>
      (r.finish source).yielded

/-- Over whole captures, skipping ticks changes nothing but the order of the flows. -/
theorem flows_from_captures_every_tick (settings : ReplaySettings) (files : List (String × List PcapRecord)) :
    Option.Rel List.Perm (flowsFromCaptures settings files) (flowsSweptEveryTick settings files) := by
  unfold flowsFromCaptures flowsSweptEveryTick
  cases files.getLast? with
  | none => exact .none
  | some last =>
    have hruns := (CaptureRun.Same.refl (.start settings)).turns settings nofun (streamRecords files)
    dsimp only
    generalize (streamRecords files).foldlM (CaptureRun.turn settings) _ = first at hruns
    generalize (streamRecords files).foldlM (CaptureRun.turnEvery settings) _ = second at hruns
    cases hruns with
    | none => exact .none
    | some hsame => exact .some (hsame.finish last.1)

open CaptureRun

/-- Whatever the flows open, the schedule and the time of the next frame: the one sweep in front of the frame is at the
last tick up to it, and closes the flows that sweeps at all the ticks up to it close between them, and leaves the same
flows open. -/
theorem skipped_ticks (settings : ReplaySettings) (r : CaptureRun) (source : String) (next : DateTime)
    (hnext : r.nextSweepUs = some next.us) {tsUs : Int} (hdue : next.us ≤ tsUs) :
    (∃ skipped : Nat, lastTick next.us settings.intervalUs tsUs = next.us + skipped * settings.intervalUs) ∧
      lastTick next.us settings.intervalUs tsUs ≤ tsUs ∧
      tsUs < lastTick next.us settings.intervalUs tsUs + settings.intervalUs ∧
      Option.Rel Same (r.sweepDue settings source tsUs) (r.sweepDueEvery settings source tsUs) := by
  have hpos := settings.intervalUs_pos
  obtain ⟨hlast, hafter⟩ := lastTick_spec next.us hpos tsUs
  refine ⟨⟨((tsUs - next.us) / settings.intervalUs).toNat, ?_⟩, hlast, hafter, ?_⟩
  · have hnonneg : 0 ≤ (tsUs - next.us) / settings.intervalUs := Int.ediv_nonneg (by omega) hpos.le
    rw [Int.toNat_of_nonneg hnonneg]
    rfl
  · refine (Same.refl r).sweepDue settings source tsUs fun nextSweepUs heq => ?_
    obtain rfl := Option.some.inj (hnext.symm.trans heq)
    exact next.min_le

/-- A run with one connection open, after its first frame. -/
def oneConnection : CaptureRun :=
  ((CaptureRun.start datagramSettings).turn datagramSettings
    ("a.pcap", ⟨datagram 0, (captureTime 0).us, 42⟩)).getD (.start datagramSettings)

/-- The next frame comes 100 seconds after the first: two ticks are skipped. -/
theorem skipped_ticks_two :
    (∃ skipped : Nat, lastTick (captureTime 30).us datagramSettings.intervalUs (captureTime 100).us =
        (captureTime 30).us + skipped * datagramSettings.intervalUs) ∧
      lastTick (captureTime 30).us datagramSettings.intervalUs (captureTime 100).us ≤ (captureTime 100).us ∧
      (captureTime 100).us <
        lastTick (captureTime 30).us datagramSettings.intervalUs (captureTime 100).us + datagramSettings.intervalUs ∧
      Option.Rel Same (oneConnection.sweepDue datagramSettings "a.pcap" (captureTime 100).us)
        (oneConnection.sweepDueEvery datagramSettings "a.pcap" (captureTime 100).us) :=
  skipped_ticks datagramSettings oneConnection "a.pcap" (captureTime 30) (by decide +kernel) (by decide)

end Pirewall
