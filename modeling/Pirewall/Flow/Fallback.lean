/-
# Pirewall.Flow.Fallback -- surviving native engine panics

`FallbackFlowEngine` (`flow/fallback.py`): frames go to the native engine while it behaves, and to the Python one
after too many panics within a minute. On the way out `_fall_back` salvages, in four calls of the engine, what it
holds: its pending output, its open flows, its counters, and the number of flows its panics have discarded. A panic
in one of the four skips the rest of them.

Any call may panic, in any pattern. `fallback_accounts_iff` says exactly which patterns leave every frame and every
flow accounted for.
-/
import Pirewall.Flow.Tracker
import Pirewall.Lib.Run

namespace Pirewall

open Lib

/-! ## The panic budget -/

/-- `NativePanicBudget`: the panics of the last minute, oldest first. -/
structure NativePanicBudget where
  maxPerMinute : Nat
  recent : List ℚ
  total : Nat
  exhausted : Bool
  max_pos : 0 < maxPerMinute

namespace NativePanicBudget

def new (maxPerMinute : Nat) (max_pos : 0 < maxPerMinute) : NativePanicBudget :=
  ⟨maxPerMinute, [], 0, false, max_pos⟩

/-- `_WINDOW_SECONDS`. -/
def windowSeconds : ℚ := 60

/-- How long ago a panic was: the float `now - at`. -/
def age (now at' : ℚ) : ℚ := toDouble (now - at')

/-- `record`. -/
def record (budget : NativePanicBudget) (now : ℚ) : NativePanicBudget :=
  let recent := (budget.recent ++ [now]).dropWhile fun at' => decide (windowSeconds ≤ age now at')
  { budget with
    recent
    total := budget.total + 1
    exhausted := budget.exhausted || decide (budget.maxPerMinute ≤ recent.length) }

end NativePanicBudget

/-! ## The engine -/

/-- Which native calls panic while one call is served: its own, and the four of a fall-back; and the clock the
budget reads. -/
structure CallPanics where
  call : Bool
  drain : Bool
  flush : Bool
  counters : Bool
  panicStats : Bool
  clock : ℚ
  deriving DecidableEq

/-- No panic. -/
def CallPanics.none : CallPanics := ⟨false, false, false, false, false, 0⟩

variable {Frame : Type} {native python : FlowTracker Frame}

/-- The calls of a flow engine. -/
inductive FallbackCall (Frame : Type)
  | feedUs (frame : Frame)
  | drain
  | sweepTimeouts (now : DateTime)
  | flush
  | counters

/-- The frames a call feeds. -/
def FallbackCall.frames : FallbackCall Frame → Nat
  | .feedUs _ => 1
  | _ => 0

/-- What a call answers. -/
inductive FallbackAnswer
  | done
  | batch (batch : NativeBatch)
  | flows (flows : List Flow)
  | counters (seen malformed : Nat)

/-- The flows an answer hands out. -/
def FallbackAnswer.delivered : FallbackAnswer → List Flow
  | .batch drained => drained.completed
  | .flows closed => closed
  | .done => []
  | .counters _ _ => []

/-- The path that is live: `_native` is set, or `_python` is. -/
inductive LivePath (native python : FlowTracker Frame)
  | native (engine : NativeEngine native)
  | python (table : python.Table)

/-- `FallbackFlowEngine`. -/
structure FallbackFlowEngine (native python : FlowTracker Frame) where
  live : LivePath native python
  pending : NativeBatch
  seenOffset : Nat
  malformedOffset : Nat
  pythonSeen : Nat
  pythonMalformed : Nat
  flowsLostToPanics : Nat
  batchesLostToPanics : Nat
  budget : NativePanicBudget

namespace FallbackFlowEngine

/-- A new engine, with the native extension installed. -/
def new (native python : FlowTracker Frame) (maxPerMinute : Nat) (max_pos : 0 < maxPerMinute) :
    FallbackFlowEngine native python :=
  ⟨.native (.new native), .empty, 0, 0, 0, 0, 0, 0, .new maxPerMinute max_pos⟩

/-- `_start_python`. -/
def startPython (f : FallbackFlowEngine native python) : FallbackFlowEngine native python :=
  { f with live := .python python.empty }

/-- `_fall_back`: the salvage, up to the first of its calls that panics. -/
def fallBack (f : FallbackFlowEngine native python) (engine : NativeEngine native) (panics : CallPanics) :
    FallbackFlowEngine native python :=
  match engine.drain panics.drain with
  | (.error _, _) => f.startPython
  | (.ok drained, engine) =>
    let f := { f with pending := f.pending.merge drained }
    match engine.flush panics.flush with
    | (.error _, _) => f.startPython
    | (.ok closed, engine) =>
      let f := { f with pending := f.pending.merge ⟨closed, [], []⟩ }
      match engine.counters panics.counters with
      | (.error _, _) => f.startPython
      | (.ok (seen, malformed), engine) =>
        let f := { f with seenOffset := seen, malformedOffset := malformed }
        match (engine.panicStats panics.panicStats).1 with
        | .error _ => f.startPython
        | .ok (_, lost) => { f with flowsLostToPanics := f.flowsLostToPanics + lost }.startPython

/-- `_panicked`, after which the engine is what the panic left. -/
def panicked (f : FallbackFlowEngine native python) (engine : NativeEngine native) (panics : CallPanics) :
    FallbackFlowEngine native python :=
  let f := { f with live := .native engine, budget := f.budget.record panics.clock }
  if f.budget.exhausted then f.fallBack engine panics else f

/-- `_feed_python`. -/
def feedPython (f : FallbackFlowEngine native python) (table : python.Table) (frame : Frame) :
    FallbackFlowEngine native python :=
  { f with
    live := .python (python.feed table frame).table
    pending := f.pending.merge (python.feed table frame).output
    pythonSeen := f.pythonSeen + 1
    pythonMalformed := f.pythonMalformed + (python.feed table frame).malformed.toNat }

/-- `feed_us`. -/
def feedUs (f : FallbackFlowEngine native python) (panics : CallPanics) (frame : Frame) :
    FallbackFlowEngine native python :=
  match f.live with
  | .native engine =>
    match engine.feed panics.call frame with
    | (.error _, engine) => f.panicked engine panics
    | (.ok (), engine) => { f with live := .native engine }
  | .python table => f.feedPython table frame

/-- `drain`, which begins with `_take_pending`. -/
def drain (f : FallbackFlowEngine native python) (panics : CallPanics) :
    NativeBatch × FallbackFlowEngine native python :=
  let batch := f.pending
  let f := { f with pending := .empty }
  match f.live with
  | .native engine =>
    match engine.drain panics.call with
    | (.error _, engine) =>
      let f := { f with batchesLostToPanics := f.batchesLostToPanics + 1 }.panicked engine panics
      (batch.merge f.pending, { f with pending := .empty })
    | (.ok fresh, engine) => (batch.merge fresh, { f with live := .native engine })
  | .python _ => (batch, f)

/-- `sweep_timeouts`. -/
def sweepTimeouts (f : FallbackFlowEngine native python) (panics : CallPanics) (now : DateTime) :
    List Flow × FallbackFlowEngine native python :=
  match f.live with
  | .native engine =>
    match engine.sweepTimeouts panics.call now with
    | (.error _, engine) => ([], f.panicked engine panics)
    | (.ok flows, engine) => (flows, { f with live := .native engine })
  | .python table =>
    ((python.sweepTimeouts table now).1, { f with live := .python (python.sweepTimeouts table now).2 })

/-- `flush`. -/
def flush (f : FallbackFlowEngine native python) (panics : CallPanics) :
    List Flow × FallbackFlowEngine native python :=
  match f.live with
  | .native engine =>
    match engine.flush panics.call with
    | (.error _, engine) => ([], f.panicked engine panics)
    | (.ok flows, engine) => (flows, { f with live := .native engine })
  | .python table => (python.flush table, { f with live := .python python.empty })

/-- `counters`. A panic here is not reported to the budget. -/
def counters (f : FallbackFlowEngine native python) (panics : CallPanics) :
    (Nat × Nat) × FallbackFlowEngine native python :=
  match f.live with
  | .native engine =>
    match engine.counters panics.call with
    | (.error _, engine) => ((f.seenOffset, f.malformedOffset), { f with live := .native engine })
    | (.ok totals, engine) => (totals, { f with live := .native engine })
  | .python _ => ((f.seenOffset + f.pythonSeen, f.malformedOffset + f.pythonMalformed), f)

/-- One call. -/
def perform (f : FallbackFlowEngine native python) (panics : CallPanics) :
    FallbackCall Frame → FallbackAnswer × FallbackFlowEngine native python
  | .feedUs frame => (.done, f.feedUs panics frame)
  | .drain => (.batch (f.drain panics).1, (f.drain panics).2)
  | .sweepTimeouts now => (.flows (f.sweepTimeouts panics now).1, (f.sweepTimeouts panics now).2)
  | .flush => (.flows (f.flush panics).1, (f.flush panics).2)
  | .counters => (.counters (f.counters panics).1.1 (f.counters panics).1.2, (f.counters panics).2)

/-! ## What is held -/

/-- The totals `counters` returns when it meets no panic. -/
def totals (f : FallbackFlowEngine native python) : Nat × Nat :=
  match f.live with
  | .native engine => (engine.packetsSeen, engine.packetsMalformed)
  | .python _ => (f.seenOffset + f.pythonSeen, f.malformedOffset + f.pythonMalformed)

/-- The flows that are still to be handed out. -/
def held (f : FallbackFlowEngine native python) : Multiset FlowId :=
  (match f.live with
    | .native engine => engine.flows
    | .python table => python.openFlows table) + flowIds f.pending.completed

/-- The flows the next call opens. -/
def opens (f : FallbackFlowEngine native python) (panics : CallPanics) : FallbackCall Frame → List FlowId
  | .feedUs frame =>
    match f.live with
    | .native engine => if panics.call then [] else (native.feed engine.table frame).opened
    | .python table => (python.feed table frame).opened
  | _ => []

/-- The open flows the panic of the next call discards. -/
def discards (f : FallbackFlowEngine native python) (panics : CallPanics) : Multiset FlowId :=
  match f.live with
  | .native engine => if panics.call then native.openFlows engine.table else 0
  | .python _ => 0

/-- The completed flows of the batch the next call counts as lost, where it is lost: a panic in a `drain` that
abandons the engine and cannot drain it either. -/
def losesBatch (f : FallbackFlowEngine native python) (panics : CallPanics) : FallbackCall Frame → Multiset FlowId
  | .drain =>
    match f.live with
    | .native engine =>
      if panics.call && (f.budget.record panics.clock).exhausted && panics.drain then
        flowIds engine.pending.completed
      else 0
    | .python _ => 0
  | _ => 0

/-- Whether the next call abandons the native engine: it panics, and the budget is spent. -/
def fallsBack (f : FallbackFlowEngine native python) (panics : CallPanics) : FallbackCall Frame → Bool
  | .counters => false
  | _ =>
    match f.live with
    | .native _ => panics.call && (f.budget.record panics.clock).exhausted
    | .python _ => false

end FallbackFlowEngine

/-- What the salvage of a fall-back reads before the statistics goes through. -/
def CallPanics.salvages (panics : CallPanics) : Bool := !panics.drain && !panics.flush && !panics.counters

namespace FallbackFlowEngine

/-- What a fall-back from an engine that has just recovered leaves. -/
theorem fallBack_spec (f : FallbackFlowEngine native python) (engine : NativeEngine native) (panics : CallPanics)
    (hrecovered : native.openFlows engine.table = 0) :
    (f.fallBack engine panics).live = .python python.empty ∧
      (f.fallBack engine panics).pending.completed =
        f.pending.completed ++ (if panics.drain then [] else engine.pending.completed) ∧
      (f.fallBack engine panics).seenOffset = (if panics.salvages then engine.packetsSeen else f.seenOffset) ∧
      (f.fallBack engine panics).malformedOffset =
        (if panics.salvages then engine.packetsMalformed else f.malformedOffset) ∧
      (f.fallBack engine panics).flowsLostToPanics = f.flowsLostToPanics +
        (if panics.salvages && !panics.panicStats then engine.flowsLostToPanics else 0) ∧
      (f.fallBack engine panics).pythonSeen = f.pythonSeen ∧
      (f.fallBack engine panics).pythonMalformed = f.pythonMalformed := by
  have hclosed : native.flush engine.table = [] :=
    eq_nil_of_flowIds ((native.flush_flows engine.table).symm.trans hrecovered)
  unfold fallBack NativeEngine.drain NativeEngine.flush NativeEngine.counters NativeEngine.panicStats
    NativeEngine.guarded CallPanics.salvages
  cases panics.drain <;> cases panics.flush <;> cases panics.counters <;> cases panics.panicStats <;>
    simp [startPython, hclosed]

/-- A caught panic leaves the native engine live, or abandons it. -/
theorem panicked_of_exhausted {f : FallbackFlowEngine native python} {engine : NativeEngine native}
    {panics : CallPanics} (h : (f.budget.record panics.clock).exhausted = true) :
    f.panicked engine panics =
      { f with live := .native engine, budget := f.budget.record panics.clock }.fallBack engine panics :=
  if_pos h

theorem panicked_of_not_exhausted {f : FallbackFlowEngine native python} {engine : NativeEngine native}
    {panics : CallPanics} (h : (f.budget.record panics.clock).exhausted = false) :
    f.panicked engine panics = { f with live := .native engine, budget := f.budget.record panics.clock } :=
  if_neg (by simp [h])

/-- The counts after a panic that spends the budget. -/
theorem panicked_left {f : FallbackFlowEngine native python} {panics : CallPanics}
    (hexhausted : (f.budget.record panics.clock).exhausted = true) (engine : NativeEngine native) :
    (f.panicked engine.recover panics).live = .python python.empty ∧
      (f.panicked engine.recover panics).seenOffset =
        (if panics.salvages then engine.packetsSeen else f.seenOffset) ∧
      (f.panicked engine.recover panics).malformedOffset =
        (if panics.salvages then engine.packetsMalformed else f.malformedOffset) ∧
      (f.panicked engine.recover panics).flowsLostToPanics = f.flowsLostToPanics +
        (if panics.salvages && !panics.panicStats then
          engine.flowsLostToPanics + (native.openFlows engine.table).card else 0) ∧
      (f.panicked engine.recover panics).pythonSeen = f.pythonSeen ∧
      (f.panicked engine.recover panics).pythonMalformed = f.pythonMalformed := by
  rw [panicked_of_exhausted hexhausted]
  obtain ⟨hlive, -, hrest⟩ := fallBack_spec
    { f with live := .native engine.recover, budget := f.budget.record panics.clock } engine.recover panics
    native.openFlows_empty
  exact ⟨hlive, hrest⟩

/-- What a caught panic does to the flows: those the engine has not handed out stay, unless a fall-back cannot drain
them. -/
theorem panicked_flows (f : FallbackFlowEngine native python) (engine : NativeEngine native) (panics : CallPanics)
    (hdrain : (f.budget.record panics.clock).exhausted = true → panics.drain = true →
      engine.pending.completed = []) :
    (f.panicked engine.recover panics).held = flowIds engine.pending.completed + flowIds f.pending.completed := by
  cases hexhausted : (f.budget.record panics.clock).exhausted with
  | false =>
    rw [panicked_of_not_exhausted hexhausted]
    show native.openFlows native.empty + flowIds engine.pending.completed + flowIds f.pending.completed = _
    rw [native.openFlows_empty, zero_add]
  | true =>
    rw [panicked_of_exhausted hexhausted]
    obtain ⟨hlive, hpending, -⟩ := fallBack_spec
      { f with live := .native engine.recover, budget := f.budget.record panics.clock } engine.recover panics
      native.openFlows_empty
    unfold held
    rw [hlive, hpending]
    dsimp only
    rw [python.openFlows_empty, flowIds_append, zero_add, add_comm]
    cases hpanics : panics.drain with
    | false => rfl
    | true => rw [hdrain hexhausted hpanics, if_pos rfl]

/-- Taking the pending output leaves what is held elsewhere. -/
theorem held_taken (f : FallbackFlowEngine native python) :
    f.held = flowIds f.pending.completed + held { f with pending := .empty } := by
  unfold held
  rw [NativeBatch.empty_completed, flowIds_nil, add_zero, add_comm]

theorem held_native {f : FallbackFlowEngine native python} {engine : NativeEngine native}
    (hlive : f.live = .native engine) :
    f.held = native.openFlows engine.table + flowIds engine.pending.completed + flowIds f.pending.completed := by
  unfold held
  rw [hlive]
  rfl

theorem held_python {f : FallbackFlowEngine native python} {table : python.Table}
    (hlive : f.live = .python table) : f.held = python.openFlows table + flowIds f.pending.completed := by
  unfold held
  rw [hlive]

/-- A call that meets no panic on the native path. -/
theorem native_flows {f : FallbackFlowEngine native python} {engine : NativeEngine native} {panics : CallPanics}
    (hlive : f.live = .native engine) (hpanic : panics.call = false) (call : FallbackCall Frame) :
    f.held + ↑(f.opens panics call) =
      flowIds (f.perform panics call).1.delivered + (f.perform panics call).2.held := by
  rw [held_native hlive]
  cases call with
  | feedUs frame =>
    have hlaw := native.feed_flows engine.table frame
    simp only [perform, feedUs, opens, hlive, hpanic, NativeEngine.feed, NativeEngine.guarded, held,
      NativeEngine.flows, FallbackAnswer.delivered, flowIds_nil, zero_add, NativeBatch.merge_completed,
      flowIds_append, Bool.false_eq_true, if_false]
    -- the flow is open or completed, wherever it was before
    calc native.openFlows engine.table + flowIds engine.pending.completed + flowIds f.pending.completed +
          ↑(native.feed engine.table frame).opened
        = native.openFlows engine.table + ↑(native.feed engine.table frame).opened +
            flowIds engine.pending.completed + flowIds f.pending.completed := by abel
      _ = _ := by rw [hlaw]; abel
  | drain =>
    simp only [perform, drain, opens, hlive, hpanic, NativeEngine.drain, NativeEngine.guarded, held,
      NativeEngine.flows, FallbackAnswer.delivered, NativeBatch.merge_completed, NativeBatch.empty_completed,
      flowIds_append, flowIds_nil, Multiset.coe_nil, add_zero, Bool.false_eq_true, if_false]
    abel
  | sweepTimeouts now =>
    simp only [perform, sweepTimeouts, opens, hlive, hpanic, NativeEngine.sweepTimeouts, NativeEngine.guarded, held,
      NativeEngine.flows, FallbackAnswer.delivered, Multiset.coe_nil, add_zero, Bool.false_eq_true, if_false]
    rw [native.sweep_flows engine.table now]
    abel
  | flush =>
    simp only [perform, flush, opens, hlive, hpanic, NativeEngine.flush, NativeEngine.guarded, held,
      NativeEngine.flows, FallbackAnswer.delivered, Multiset.coe_nil, add_zero, Bool.false_eq_true, if_false,
      native.openFlows_empty]
    rw [native.flush_flows engine.table]
    abel
  | counters =>
    simp only [perform, counters, opens, hlive, hpanic, NativeEngine.counters, NativeEngine.guarded, held,
      NativeEngine.flows, FallbackAnswer.delivered, Multiset.coe_nil, add_zero, Bool.false_eq_true, if_false,
      flowIds_nil, zero_add]

/-- A call on the Python path. -/
theorem python_flows {f : FallbackFlowEngine native python} {table : python.Table} (hlive : f.live = .python table)
    (panics : CallPanics) (call : FallbackCall Frame) :
    f.held + ↑(f.opens panics call) =
      flowIds (f.perform panics call).1.delivered + (f.perform panics call).2.held := by
  rw [held_python hlive]
  cases call with
  | feedUs frame =>
    have hlaw := python.feed_flows table frame
    simp only [perform, feedUs, feedPython, opens, hlive, held, FallbackAnswer.delivered, flowIds_nil, zero_add,
      NativeBatch.merge_completed, flowIds_append]
    calc python.openFlows table + flowIds f.pending.completed + ↑(python.feed table frame).opened
        = python.openFlows table + ↑(python.feed table frame).opened + flowIds f.pending.completed := by abel
      _ = _ := by rw [hlaw]; abel
  | drain =>
    simp only [perform, drain, opens, hlive, held, FallbackAnswer.delivered, NativeBatch.empty_completed,
      flowIds_nil, Multiset.coe_nil, add_zero]
    abel
  | sweepTimeouts now =>
    simp only [perform, sweepTimeouts, opens, hlive, held, FallbackAnswer.delivered, Multiset.coe_nil, add_zero]
    rw [python.sweep_flows table now]
    abel
  | flush =>
    simp only [perform, flush, opens, hlive, held, FallbackAnswer.delivered, Multiset.coe_nil, add_zero,
      python.openFlows_empty]
    rw [python.flush_flows table]
    abel
  | counters =>
    simp only [perform, counters, opens, hlive, held, FallbackAnswer.delivered, Multiset.coe_nil, add_zero,
      flowIds_nil, zero_add]

/-- A call that panics hands out nothing that was open. -/
theorem panic_flows {f : FallbackFlowEngine native python} {engine : NativeEngine native} {panics : CallPanics}
    (hlive : f.live = .native engine) (hpanic : panics.call = true) (call : FallbackCall Frame)
    (hdrain : f.fallsBack panics call = true → panics.drain = true → engine.pending.completed = []) :
    flowIds engine.pending.completed + flowIds f.pending.completed =
      flowIds (f.perform panics call).1.delivered + (f.perform panics call).2.held := by
  have hfalls : ∀ call : FallbackCall Frame, call ≠ .counters →
      (f.fallsBack panics call = true ↔ (f.budget.record panics.clock).exhausted = true) := by
    intro call hcall
    unfold fallsBack
    cases call <;> simp_all
  cases call with
  | feedUs frame =>
    simp only [perform, feedUs, hlive, hpanic, NativeEngine.feed, NativeEngine.guarded, FallbackAnswer.delivered,
      flowIds_nil, zero_add, if_true]
    exact (panicked_flows f { engine with packetsSeen := engine.packetsSeen + 1 } panics fun h =>
      hdrain ((hfalls _ (by simp)).mpr h)).symm
  | drain =>
    simp only [perform, drain, hlive, hpanic, NativeEngine.drain, NativeEngine.guarded, FallbackAnswer.delivered,
      if_true, NativeBatch.merge_completed, flowIds_append]
    rw [add_assoc, ← held_taken]
    -- the salvaged output of a fall-back is put into the batch that was lost
    have hstruck := panicked_flows
      ({ f with live := .native engine, pending := .empty, batchesLostToPanics := f.batchesLostToPanics + 1 } :
        FallbackFlowEngine native python)
      engine panics fun h => hdrain ((hfalls _ (by simp)).mpr h)
    rw [NativeBatch.empty_completed, flowIds_nil, add_zero] at hstruck
    rw [hstruck, add_comm]
  | sweepTimeouts now =>
    simp only [perform, sweepTimeouts, hlive, hpanic, NativeEngine.sweepTimeouts, NativeEngine.guarded,
      FallbackAnswer.delivered, flowIds_nil, zero_add, if_true]
    exact (panicked_flows f _ panics fun h => hdrain ((hfalls _ (by simp)).mpr h)).symm
  | flush =>
    simp only [perform, flush, hlive, hpanic, NativeEngine.flush, NativeEngine.guarded,
      FallbackAnswer.delivered, flowIds_nil, zero_add, if_true]
    exact (panicked_flows f _ panics fun h => hdrain ((hfalls _ (by simp)).mpr h)).symm
  | counters =>
    simp only [perform, counters, hlive, hpanic, NativeEngine.counters, NativeEngine.guarded, held,
      NativeEngine.flows, NativeEngine.recover, FallbackAnswer.delivered, flowIds_nil, zero_add, if_true,
      native.openFlows_empty]

/-- As long as it is not abandoned, the native engine keeps the counts, and the offsets wait for it. -/
theorem native_kept {f : FallbackFlowEngine native python} {engine : NativeEngine native} {panics : CallPanics}
    (hlive : f.live = .native engine) {call : FallbackCall Frame} (hstays : f.fallsBack panics call = false) :
    ∃ next : NativeEngine native, (f.perform panics call).2.live = .native next ∧
      next.packetsSeen = engine.packetsSeen + call.frames ∧ engine.packetsMalformed ≤ next.packetsMalformed ∧
      next.packetsMalformed ≤ engine.packetsMalformed + call.frames ∧
      next.flowsLostToPanics = engine.flowsLostToPanics + (f.discards panics).card ∧
      (f.perform panics call).2.seenOffset = f.seenOffset ∧
      (f.perform panics call).2.malformedOffset = f.malformedOffset ∧
      (f.perform panics call).2.pythonSeen = f.pythonSeen ∧
      (f.perform panics call).2.pythonMalformed = f.pythonMalformed ∧
      (f.perform panics call).2.flowsLostToPanics = f.flowsLostToPanics := by
  have hdiscards : f.discards panics = if panics.call then native.openFlows engine.table else 0 := by
    unfold discards
    rw [hlive]
  rw [hdiscards]
  cases hpanic : panics.call with
  | false =>
    cases call <;>
      simp [perform, feedUs, drain, sweepTimeouts, flush, counters, hlive, hpanic, NativeEngine.feed,
        NativeEngine.drain, NativeEngine.sweepTimeouts, NativeEngine.flush, NativeEngine.counters,
        NativeEngine.guarded, FallbackCall.frames, Bool.toNat_le]
  | true =>
    -- a panic in `counters` never abandons the engine, one elsewhere has budget left
    cases call <;> first
      | simp [perform, counters, hlive, hpanic, NativeEngine.counters, NativeEngine.guarded,
          NativeEngine.recover, FallbackCall.frames]; done
      | (have hexhausted : (f.budget.record panics.clock).exhausted = false := by
          simpa [fallsBack, hlive, hpanic] using hstays
         simp [perform, feedUs, drain, sweepTimeouts, flush, hlive, hpanic, NativeEngine.feed,
          NativeEngine.drain, NativeEngine.sweepTimeouts, NativeEngine.flush, NativeEngine.guarded,
          NativeEngine.recover, FallbackCall.frames, panicked, hexhausted])

/-- What is left of the native engine once it has been abandoned. -/
theorem native_left {f : FallbackFlowEngine native python} {engine : NativeEngine native} {panics : CallPanics}
    (hlive : f.live = .native engine) {call : FallbackCall Frame} (hfalls : f.fallsBack panics call = true) :
    (f.perform panics call).2.live = .python python.empty ∧
      f.discards panics = native.openFlows engine.table ∧
      (f.perform panics call).2.seenOffset =
        (if panics.salvages then engine.packetsSeen + call.frames else f.seenOffset) ∧
      (f.perform panics call).2.malformedOffset =
        (if panics.salvages then engine.packetsMalformed else f.malformedOffset) ∧
      (f.perform panics call).2.flowsLostToPanics = f.flowsLostToPanics +
        (if panics.salvages && !panics.panicStats then
          engine.flowsLostToPanics + (native.openFlows engine.table).card else 0) ∧
      (f.perform panics call).2.pythonSeen = f.pythonSeen ∧
      (f.perform panics call).2.pythonMalformed = f.pythonMalformed := by
  have hmeans : panics.call = true ∧ (f.budget.record panics.clock).exhausted = true := by
    unfold fallsBack at hfalls
    cases call <;> simp_all
  obtain ⟨hpanic, hexhausted⟩ := hmeans
  have hdiscards : f.discards panics = native.openFlows engine.table := by
    simp only [discards, hlive, hpanic, if_true]
  -- every call but `counters` comes down to the same fall-back
  cases call with
  | counters => cases hfalls
  | feedUs frame =>
    obtain ⟨hpython, hrest⟩ :=
      panicked_left (f := f) hexhausted { engine with packetsSeen := engine.packetsSeen + 1 }
    simp only [perform, feedUs, hlive, hpanic, NativeEngine.feed, NativeEngine.guarded, if_true]
    exact ⟨hpython, hdiscards, hrest⟩
  | drain =>
    obtain ⟨hpython, hrest⟩ := panicked_left
      (f := { f with pending := .empty, batchesLostToPanics := f.batchesLostToPanics + 1 }) hexhausted engine
    simp only [perform, drain, hlive, hpanic, NativeEngine.drain, NativeEngine.guarded, if_true]
    simp only [hlive] at hpython hrest
    exact ⟨hpython, hdiscards, hrest⟩
  | sweepTimeouts now =>
    obtain ⟨hpython, hrest⟩ := panicked_left (f := f) hexhausted engine
    simp only [perform, sweepTimeouts, hlive, hpanic, NativeEngine.sweepTimeouts, NativeEngine.guarded, if_true]
    exact ⟨hpython, hdiscards, hrest⟩
  | flush =>
    obtain ⟨hpython, hrest⟩ := panicked_left (f := f) hexhausted engine
    simp only [perform, flush, hlive, hpanic, NativeEngine.flush, NativeEngine.guarded, if_true]
    exact ⟨hpython, hdiscards, hrest⟩

/-- What a call does to the flows: those it opens and those held before are handed out, held, or discarded. -/
theorem perform_flows (f : FallbackFlowEngine native python) (panics : CallPanics) (call : FallbackCall Frame)
    (hdrain : ∀ engine, f.live = .native engine → f.fallsBack panics call = true → panics.drain = true →
      engine.pending.completed = []) :
    f.held + ↑(f.opens panics call) =
      flowIds (f.perform panics call).1.delivered + (f.perform panics call).2.held + f.discards panics := by
  cases hlive : f.live with
  | python table =>
    have hnone : f.discards panics = 0 := by simp only [discards, hlive]
    rw [hnone, add_zero]
    exact python_flows hlive panics call
  | native engine =>
    cases hpanic : panics.call with
    | false =>
      have hnone : f.discards panics = 0 := by simp [discards, hlive, hpanic]
      rw [hnone, add_zero]
      exact native_flows hlive hpanic call
    | true =>
      have hopens : f.opens panics call = [] := by cases call <;> simp [opens, hlive, hpanic]
      have hdiscards : f.discards panics = native.openFlows engine.table := by simp [discards, hlive, hpanic]
      rw [hopens, hdiscards, held_native hlive, ← panic_flows hlive hpanic call (hdrain engine hlive)]
      rw [Multiset.coe_nil, add_zero, add_assoc, add_comm]

/-- On the Python path the counts go on from the offsets, and nothing panics. -/
theorem python_kept {f : FallbackFlowEngine native python} {table : python.Table} (hlive : f.live = .python table)
    (panics : CallPanics) (call : FallbackCall Frame) :
    (∃ next, (f.perform panics call).2.live = .python next) ∧
      (f.perform panics call).2.totals.1 = f.totals.1 + call.frames ∧
      f.totals.2 ≤ (f.perform panics call).2.totals.2 ∧
      (f.perform panics call).2.totals.2 ≤ f.totals.2 + call.frames ∧
      (f.perform panics call).2.flowsLostToPanics = f.flowsLostToPanics ∧
      (f.counters panics).1 = f.totals := by
  cases call <;>
    simp [perform, feedUs, feedPython, drain, sweepTimeouts, flush, counters, totals, hlive, FallbackCall.frames,
      Nat.add_assoc, Bool.toNat_le]

end FallbackFlowEngine

/-! ## Runs -/

/-- A call of a run, with the panics it meets. -/
structure FallbackInput (Frame : Type) where
  call : FallbackCall Frame
  panics : CallPanics

/-- The engine, with what has happened to the frames and flows it was fed: how many frames, which flows were opened,
which were handed out, which a panic discarded, and which went with a batch that was counted as lost. -/
structure FallbackRun (native python : FlowTracker Frame) where
  engine : FallbackFlowEngine native python
  feeds : Nat
  opened : Multiset FlowId
  delivered : List Flow
  discarded : Multiset FlowId
  lostBatch : Multiset FlowId

namespace FallbackRun

/-- A new engine. -/
def start (native python : FlowTracker Frame) (maxPerMinute : Nat) (max_pos : 0 < maxPerMinute) :
    FallbackRun native python :=
  ⟨.new native python maxPerMinute max_pos, 0, 0, [], 0, 0⟩

/-- One call of a run. -/
def step (r : FallbackRun native python) (input : FallbackInput Frame) : FallbackRun native python where
  engine := (r.engine.perform input.panics input.call).2
  feeds := r.feeds + input.call.frames
  opened := r.opened + ↑(r.engine.opens input.panics input.call)
  delivered := r.delivered ++ (r.engine.perform input.panics input.call).1.delivered
  discarded := r.discarded + r.engine.discards input.panics
  lostBatch := r.lostBatch + r.engine.losesBatch input.panics input.call

/-- The end of a replay: the open flows are flushed and the output is drained, without another panic. -/
def close (r : FallbackRun native python) : FallbackRun native python :=
  (r.step ⟨.flush, .none⟩).step ⟨.drain, .none⟩

/-- Every flow that was opened has been handed out, is one of those `flows_lost_to_panics` counts, or went with a
batch that was counted as lost. -/
def AccountsFlows (r : FallbackRun native python) : Prop :=
  ∃ lost : Multiset FlowId, r.opened = flowIds r.delivered + lost + r.lostBatch ∧
    lost.card = r.engine.flowsLostToPanics

/-- The counters after a call: they count the frames fed, they have not gone back, and if the call asked for them
it got them. -/
structure CountsFrames (r : FallbackRun native python) (input : FallbackInput Frame) : Prop where
  seen : (r.step input).engine.totals.1 = (r.step input).feeds
  seen_le : r.engine.totals.1 ≤ (r.step input).engine.totals.1
  malformed_le : r.engine.totals.2 ≤ (r.step input).engine.totals.2
  answered : input.call = .counters → (r.engine.counters input.panics).1 = r.engine.totals

/-- No panic costs the counters: none in `counters` itself while the native engine is live, and none in what a
fall-back reads before the statistics. Before the first frame there is nothing to lose. -/
structure SparesCounters (r : FallbackRun native python) (input : FallbackInput Frame) : Prop where
  counters : ∀ engine, r.engine.live = .native engine → input.call = .counters → input.panics.call = true →
    r.feeds = 0
  salvage : r.engine.fallsBack input.panics input.call = true → input.panics.salvages = false →
    r.feeds + input.call.frames = 0

/-- The panic of a call discards no open flow. -/
def DiscardsNothing (r : FallbackRun native python) (input : FallbackInput Frame) : Prop :=
  r.engine.discards input.panics = 0

/-- The call falls back, and reads how many flows have been discarded. -/
def CountsDiscarded (r : FallbackRun native python) (input : FallbackInput Frame) : Prop :=
  r.engine.fallsBack input.panics input.call = true ∧ input.panics.salvages = true ∧
    input.panics.panicStats = false

/-- What a run keeps in order, as long as nothing goes wrong in a salvage. -/
structure Sound (r : FallbackRun native python) : Prop where
  flows : r.opened = flowIds r.delivered + r.engine.held + r.discarded
  lostBatch : r.lostBatch = 0
  seen : r.engine.totals.1 = r.feeds
  malformed_le : r.engine.totals.2 ≤ r.feeds
  native : ∀ engine, r.engine.live = .native engine →
    r.engine.seenOffset = 0 ∧ r.engine.malformedOffset = 0 ∧ r.engine.pythonSeen = 0 ∧
      r.engine.pythonMalformed = 0 ∧ r.engine.flowsLostToPanics = 0 ∧
      engine.flowsLostToPanics = r.discarded.card
  fresh : r.feeds = 0 → r.opened = 0

/-! ## One call -/

theorem sound_start (maxPerMinute : Nat) (max_pos : 0 < maxPerMinute) :
    (start native python maxPerMinute max_pos).Sound where
  flows := by
    show (0 : Multiset FlowId) = 0 + (native.openFlows native.empty + 0 + 0) + 0
    rw [native.openFlows_empty]
    rfl
  lostBatch := rfl
  seen := rfl
  malformed_le := Nat.le_refl 0
  native := by
    rintro engine hlive
    cases hlive
    exact ⟨rfl, rfl, rfl, rfl, rfl, rfl⟩
  fresh := fun _ => rfl

/-- Before the first frame the native engine has nothing to hand out. -/
theorem Sound.nothing_pending {r : FallbackRun native python} (h : r.Sound) {engine : NativeEngine native}
    (hlive : r.engine.live = .native engine) (hfeeds : r.feeds = 0) : engine.pending.completed = [] := by
  have hflows := h.flows
  rw [h.fresh hfeeds, FallbackFlowEngine.held_native hlive] at hflows
  apply eq_nil_of_flowIds
  have hcard := congrArg Multiset.card hflows
  simp only [Multiset.card_zero, Multiset.card_add] at hcard
  exact Multiset.card_eq_zero.mp (by omega)

/-- A salvage that fails before the statistics does so before the first frame, so there is no output in it. -/
theorem Sound.drained {r : FallbackRun native python} (h : r.Sound) {input : FallbackInput Frame}
    (hspares : r.SparesCounters input) {engine : NativeEngine native} (hlive : r.engine.live = .native engine)
    (hfalls : r.engine.fallsBack input.panics input.call = true) (hdrain : input.panics.drain = true) :
    engine.pending.completed = [] := by
  have hfeeds := hspares.salvage hfalls (by simp [CallPanics.salvages, hdrain])
  exact h.nothing_pending hlive (by omega)

/-- The flows after a call whose salvage, if it has one, drains. -/
theorem step_flows {r : FallbackRun native python} (h : r.Sound) {input : FallbackInput Frame}
    (hspares : r.SparesCounters input) :
    (r.step input).opened =
        flowIds (r.step input).delivered + (r.step input).engine.held + (r.step input).discarded ∧
      (r.step input).lostBatch = 0 := by
  constructor
  · have hcall := r.engine.perform_flows input.panics input.call fun engine hlive hfalls hdrain =>
      h.drained hspares hlive hfalls hdrain
    show r.opened + ↑(r.engine.opens input.panics input.call) =
      flowIds (r.delivered ++ (r.engine.perform input.panics input.call).1.delivered) +
        (r.engine.perform input.panics input.call).2.held + (r.discarded + r.engine.discards input.panics)
    calc r.opened + ↑(r.engine.opens input.panics input.call)
        = flowIds r.delivered + r.discarded + (r.engine.held + ↑(r.engine.opens input.panics input.call)) := by
          rw [h.flows]; abel
      _ = _ := by rw [hcall, flowIds_append]; abel
  · show r.lostBatch + r.engine.losesBatch input.panics input.call = 0
    rw [h.lostBatch, zero_add]
    unfold FallbackFlowEngine.losesBatch
    split
    · rename_i hcall
      split
      · rename_i engine hlive
        split_ifs with hlost
        · simp only [Bool.and_eq_true] at hlost
          have hfalls : r.engine.fallsBack input.panics input.call = true := by
            simp [FallbackFlowEngine.fallsBack, hcall, hlive, hlost.1.1, hlost.1.2]
          rw [h.drained hspares hlive hfalls hlost.2, flowIds_nil]
        · rfl
      · rfl
    · rfl

/-- Only a frame opens a flow. -/
theorem step_fresh {r : FallbackRun native python} (h : r.Sound) (input : FallbackInput Frame)
    (hfeeds : (r.step input).feeds = 0) : (r.step input).opened = 0 := by
  have hnone : r.feeds = 0 ∧ input.call.frames = 0 := by
    have : r.feeds + input.call.frames = 0 := hfeeds
    omega
  have hopens : r.engine.opens input.panics input.call = [] := by
    cases hcall : input.call with
    | feedUs frame => simp [hcall, FallbackCall.frames] at hnone
    | drain => rfl
    | sweepTimeouts now => rfl
    | flush => rfl
    | counters => rfl
  show r.opened + ↑(r.engine.opens input.panics input.call) = 0
  rw [h.fresh hnone.1, hopens]
  rfl

/-- A call on the Python path. -/
theorem python_step {r : FallbackRun native python} (h : r.Sound) {table : python.Table}
    (hlive : r.engine.live = .python table) (input : FallbackInput Frame) :
    (r.step input).Sound ∧ r.CountsFrames input ∧ r.SparesCounters input := by
  obtain ⟨⟨next, hnext⟩, hseen, hmalformed, hmalformed_le, -, hanswer⟩ :=
    FallbackFlowEngine.python_kept hlive input.panics input.call
  have hstays : r.engine.fallsBack input.panics input.call = false := by
    unfold FallbackFlowEngine.fallsBack
    cases input.call <;> simp [hlive]
  have hspares : r.SparesCounters input :=
    ⟨fun engine hnative => (by rw [hlive] at hnative; cases hnative),
      fun hfalls => (by rw [hstays] at hfalls; cases hfalls)⟩
  have htotal : (r.step input).engine.totals.1 = (r.step input).feeds := by
    show (r.engine.perform input.panics input.call).2.totals.1 = r.feeds + input.call.frames
    rw [hseen, h.seen]
  refine ⟨⟨(step_flows h hspares).1, (step_flows h hspares).2, htotal, ?_, ?_, step_fresh h input⟩,
    ⟨htotal, ?_, hmalformed, fun _ => hanswer⟩, hspares⟩
  · show (r.engine.perform input.panics input.call).2.totals.2 ≤ r.feeds + input.call.frames
    have := h.malformed_le
    omega
  · intro engine hnative
    have : (r.step input).engine.live = .python next := hnext
    rw [this] at hnative
    cases hnative
  · show r.engine.totals.1 ≤ (r.engine.perform input.panics input.call).2.totals.1
    rw [hseen]
    exact Nat.le_add_right _ _

theorem totals_native {f : FallbackFlowEngine native python} {engine : NativeEngine native}
    (hlive : f.live = .native engine) : f.totals = (engine.packetsSeen, engine.packetsMalformed) := by
  unfold FallbackFlowEngine.totals
  rw [hlive]

theorem totals_python {f : FallbackFlowEngine native python} {table : python.Table}
    (hlive : f.live = .python table) :
    f.totals = (f.seenOffset + f.pythonSeen, f.malformedOffset + f.pythonMalformed) := by
  unfold FallbackFlowEngine.totals
  rw [hlive]

/-- What `counters` answers on the native path. -/
theorem counters_native {r : FallbackRun native python} (h : r.Sound) {engine : NativeEngine native}
    (hlive : r.engine.live = .native engine) (panics : CallPanics) :
    (r.engine.counters panics).1 = if panics.call then (0, 0) else r.engine.totals := by
  obtain ⟨hseen, hmalformed, -⟩ := h.native engine hlive
  cases hpanic : panics.call <;>
    simp [FallbackFlowEngine.counters, NativeEngine.counters, NativeEngine.guarded, FallbackFlowEngine.totals, hlive,
      hpanic, hseen, hmalformed]

/-- A panic in `counters` gets the totals only while they are still nothing. -/
theorem answered_iff {r : FallbackRun native python} (h : r.Sound) {engine : NativeEngine native}
    (hlive : r.engine.live = .native engine) (panics : CallPanics) :
    (r.engine.counters panics).1 = r.engine.totals ↔ (panics.call = true → r.feeds = 0) := by
  rw [counters_native h hlive]
  cases hpanic : panics.call with
  | false => simp
  | true =>
    have hseen := h.seen
    have hmalformed := h.malformed_le
    simp only [if_true, true_implies]
    rw [Prod.ext_iff]
    constructor
    · rintro ⟨hnone, -⟩
      rw [← hseen, ← hnone]
    · intro hfeeds
      exact ⟨by rw [hseen, hfeeds], by show 0 = r.engine.totals.2; omega⟩

/-- A call on the native path that does not leave it. -/
theorem native_step {r : FallbackRun native python} (h : r.Sound) {engine : NativeEngine native}
    (hlive : r.engine.live = .native engine) {input : FallbackInput Frame}
    (hstays : r.engine.fallsBack input.panics input.call = false) :
    (r.CountsFrames input ↔ r.SparesCounters input) ∧ (r.SparesCounters input → (r.step input).Sound) := by
  obtain ⟨next, hnext, hseen, hmalformed, hmalformed_le, hlost, hseenOffset, hmalformedOffset, hpythonSeen,
    hpythonMalformed, hflowsLost⟩ := FallbackFlowEngine.native_kept hlive hstays
  have hbefore := totals_native hlive
  have hafter : (r.step input).engine.totals = (next.packetsSeen, next.packetsMalformed) := totals_native hnext
  have hsame := h.seen
  have hbound := h.malformed_le
  rw [hbefore] at hsame hbound
  dsimp only at hsame hbound
  have htotal : (r.step input).engine.totals.1 = (r.step input).feeds := by
    rw [hafter]
    show next.packetsSeen = r.feeds + input.call.frames
    rw [hseen, hsame]
  constructor
  · constructor
    · intro hcounts
      refine ⟨fun _ _ hcall hpanic => (answered_iff h hlive input.panics).mp (hcounts.answered hcall) hpanic,
        fun hfalls => ?_⟩
      rw [hstays] at hfalls
      cases hfalls
    · intro hspares
      refine ⟨htotal, ?_, ?_, fun hcall => (answered_iff h hlive input.panics).mpr fun hpanic =>
        hspares.counters engine hlive hcall hpanic⟩
      · rw [hafter, hbefore]
        dsimp only
        omega
      · rw [hafter, hbefore]
        exact hmalformed
  · intro hspares
    refine ⟨(step_flows h hspares).1, (step_flows h hspares).2, htotal, ?_, ?_, step_fresh h input⟩
    · rw [hafter]
      show next.packetsMalformed ≤ r.feeds + input.call.frames
      omega
    · intro engine' hlive'
      have hsome : (r.step input).engine.live = .native next := hnext
      rw [hsome] at hlive'
      cases hlive'
      obtain ⟨hseen0, hmalformed0, hpython0, hpython0', hlost0, hdiscarded⟩ := h.native engine hlive
      refine ⟨hseenOffset.trans hseen0, hmalformedOffset.trans hmalformed0, hpythonSeen.trans hpython0,
        hpythonMalformed.trans hpython0', hflowsLost.trans hlost0, ?_⟩
      show next.flowsLostToPanics = (r.discarded + r.engine.discards input.panics).card
      rw [hlost, hdiscarded, Multiset.card_add]

/-- A call that leaves the native path. -/
theorem left_step {r : FallbackRun native python} (h : r.Sound) {engine : NativeEngine native}
    (hlive : r.engine.live = .native engine) {input : FallbackInput Frame}
    (hfalls : r.engine.fallsBack input.panics input.call = true) :
    (r.CountsFrames input ↔ r.SparesCounters input) ∧ (r.SparesCounters input → (r.step input).Sound) ∧
      (r.step input).engine.live = .python python.empty ∧
      (r.step input).engine.flowsLostToPanics =
        if input.panics.salvages && !input.panics.panicStats then (r.step input).discarded.card else 0 := by
  obtain ⟨hleft, hdiscards, hseen, hmalformed, hlost, hpythonSeen, hpythonMalformed⟩ :=
    FallbackFlowEngine.native_left hlive hfalls
  obtain ⟨hseen0, hmalformed0, hpython0, hpython0', hlost0, hdiscarded⟩ := h.native engine hlive
  have hcall : input.call ≠ .counters := by
    intro hcall
    rw [hcall] at hfalls
    cases hfalls
  have hsame := h.seen
  have hbound := h.malformed_le
  rw [totals_native hlive] at hsame hbound
  dsimp only at hsame hbound
  -- the totals after the step: with the salvage both engines have counted, without it none has
  have hafter : (r.step input).engine.totals =
      if input.panics.salvages then (r.feeds + input.call.frames, engine.packetsMalformed) else (0, 0) := by
    have hpython : (r.step input).engine.live = .python python.empty := hleft
    rw [totals_python hpython]
    show (_, _) = _
    simp only [step]
    rw [hseen, hmalformed, hpythonSeen, hpythonMalformed, hpython0, hpython0', hseen0, hmalformed0, hsame]
    split <;> simp
  -- so the counters are spared if the salvage works, or if there was nothing to count
  have hspares : r.SparesCounters input ↔ (input.panics.salvages = false → r.feeds + input.call.frames = 0) :=
    ⟨fun hspares => hspares.salvage hfalls,
      fun hsalvage => ⟨fun _ _ hcounters => absurd hcounters hcall, fun _ => hsalvage⟩⟩
  refine ⟨?_, ?_, hleft, ?_⟩
  · constructor
    · intro hcounts
      rw [hspares]
      intro hsalvages
      have := hcounts.seen
      rw [hafter, hsalvages] at this
      exact this.symm
    · intro hs
      rw [hspares] at hs
      -- the four conditions on the counters, with the salvage and without it
      cases hsalvages : input.panics.salvages with
      | true =>
        rw [hsalvages, if_pos rfl] at hafter
        exact ⟨by rw [hafter]; rfl, by rw [hafter, totals_native hlive]; dsimp only; omega,
          by rw [hafter, totals_native hlive], fun hcounters => absurd hcounters hcall⟩
      | false =>
        have hnone := hs hsalvages
        rw [hsalvages] at hafter
        refine ⟨by rw [hafter]; exact hnone.symm, ?_, ?_, fun hcounters => absurd hcounters hcall⟩
        · rw [hafter, totals_native hlive]
          simp only [Bool.false_eq_true, if_false]
          omega
        · rw [hafter, totals_native hlive]
          simp only [Bool.false_eq_true, if_false]
          omega
  -- the invariant: the native engine is gone, and the aggregator has counted nothing yet
  · intro hs
    refine ⟨(step_flows h hs).1, (step_flows h hs).2, ?_, ?_, ?_, step_fresh h input⟩
    · rw [hafter]
      show _ = r.feeds + input.call.frames
      split_ifs with hsalvages
      · rfl
      · exact (hs.salvage hfalls (by simpa using hsalvages)).symm
    · rw [hafter]
      show _ ≤ r.feeds + input.call.frames
      split_ifs
      · dsimp only
        omega
      · exact Nat.zero_le _
    · intro engine' hlive'
      have hpython : (r.step input).engine.live = .python python.empty := hleft
      rw [hpython] at hlive'
      cases hlive'
  · show (r.engine.perform input.panics input.call).2.flowsLostToPanics = _
    rw [hlost, hlost0, zero_add, hdiscarded]
    show _ = if _ then (r.discarded + r.engine.discards input.panics).card else 0
    rw [hdiscards, Multiset.card_add]

/-- Along a call the counters count exactly if no panic costs them, and then the run stays sound. -/
theorem counts_step {r : FallbackRun native python} (h : r.Sound) (input : FallbackInput Frame) :
    (r.CountsFrames input ↔ r.SparesCounters input) ∧ (r.SparesCounters input → (r.step input).Sound) := by
  cases hlive : r.engine.live with
  | python table =>
    obtain ⟨hsound, hcounts, hspares⟩ := python_step h hlive input
    exact ⟨iff_of_true hcounts hspares, fun _ => hsound⟩
  | native engine =>
    cases hfalls : r.engine.fallsBack input.panics input.call with
    | false => exact native_step h hlive hfalls
    | true =>
      obtain ⟨hcounts, hsound, -⟩ := left_step h hlive hfalls
      exact ⟨hcounts, hsound⟩

/-! ## Whole runs -/

/-- The counters stay right along a run exactly if no panic of the run costs them. -/
theorem along_counts_iff {r : FallbackRun native python} (h : r.Sound) (inputs : List (FallbackInput Frame)) :
    Along step CountsFrames r inputs ↔ Along step SparesCounters r inputs :=
  Along.iff_of_invariant (G := fun _ _ => True) (I := Sound) (fun _ input hs _ => (counts_step hs input).1)
    (fun _ input hs _ hq => (counts_step hs input).2 hq) (Along.of_forall (fun _ _ _ => trivial) r) h

theorem run_sound {r : FallbackRun native python} (h : r.Sound) {inputs : List (FallbackInput Frame)}
    (hspares : Along step SparesCounters r inputs) : (run step r inputs).Sound :=
  Along.invariant (G := SparesCounters) (I := Sound) (fun _ input hs hg => (counts_step hs input).2 hg) hspares h

/-- Once the Python path is live, nothing more is discarded and nothing more is counted. -/
theorem python_run {r : FallbackRun native python} {table : python.Table} (hlive : r.engine.live = .python table)
    (inputs : List (FallbackInput Frame)) :
    (run step r inputs).discarded = r.discarded ∧
      (run step r inputs).engine.flowsLostToPanics = r.engine.flowsLostToPanics ∧
      Along step DiscardsNothing r inputs ∧ Along step (fun r input => ¬ r.CountsDiscarded input) r inputs := by
  induction inputs generalizing r table with
  | nil => exact ⟨rfl, rfl, trivial, trivial⟩
  | cons input rest ih =>
    obtain ⟨⟨next, hnext⟩, -, -, -, hlost, -⟩ :=
      FallbackFlowEngine.python_kept hlive input.panics input.call
    have hdiscards : r.engine.discards input.panics = 0 := by simp only [FallbackFlowEngine.discards, hlive]
    have hstays : ¬ r.CountsDiscarded input := by
      rintro ⟨hfalls, -⟩
      unfold FallbackFlowEngine.fallsBack at hfalls
      cases hcall : input.call <;> simp [hcall, hlive] at hfalls
    obtain ⟨hdiscarded, hkept, hnothing, hnone⟩ := ih (r := r.step input) hnext
    refine ⟨hdiscarded.trans ?_, hkept.trans hlost, ⟨hdiscards, hnothing⟩, ⟨hstays, hnone⟩⟩
    show r.discarded + r.engine.discards input.panics = r.discarded
    rw [hdiscards, add_zero]

/-- `flows_lost_to_panics` counts the discarded flows at the end of a run exactly if there are none, or the engine
was abandoned and asked how many they are. -/
theorem lost_iff {r : FallbackRun native python} (h : r.Sound) {engine : NativeEngine native}
    (hlive : r.engine.live = .native engine) {inputs : List (FallbackInput Frame)}
    (hspares : Along step SparesCounters r inputs) :
    (run step r inputs).engine.flowsLostToPanics = (run step r inputs).discarded.card ↔
      (r.discarded = 0 ∧ Along step DiscardsNothing r inputs) ∨
        ¬ Along step (fun r input => ¬ r.CountsDiscarded input) r inputs := by
  induction inputs generalizing r engine with
  | nil =>
    obtain ⟨-, -, -, -, hlost, -⟩ := h.native engine hlive
    show r.engine.flowsLostToPanics = r.discarded.card ↔ _
    rw [hlost, eq_comm, Multiset.card_eq_zero]
    simp [Along]
  | cons input rest ih =>
    have hsound := (counts_step h input).2 hspares.1
    have hsum : (r.step input).discarded = 0 ↔ r.discarded = 0 ∧ r.DiscardsNothing input := by
      show r.discarded + r.engine.discards input.panics = 0 ↔ _
      rw [add_eq_zero]
      rfl
    rw [run_cons]
    show _ ↔ (_ ∧ r.DiscardsNothing input ∧ _) ∨ ¬ (¬ r.CountsDiscarded input ∧ _)
    cases hfalls : r.engine.fallsBack input.panics input.call with
    | false =>
      obtain ⟨next, hnext, -⟩ := FallbackFlowEngine.native_kept hlive hfalls
      have hstays : ¬ r.CountsDiscarded input := fun hcounts => by
        rw [hcounts.1] at hfalls
        cases hfalls
      rw [ih hsound hnext hspares.2, hsum]
      simp only [hstays, not_false_eq_true, true_and, and_assoc]
    | true =>
      obtain ⟨-, -, hleft, hlost⟩ := left_step h hlive hfalls
      obtain ⟨hdiscarded, hkept, hnothing, hnone⟩ := python_run hleft rest
      rw [hdiscarded, hkept, hlost]
      have hcounts : r.CountsDiscarded input ↔ (input.panics.salvages && !input.panics.panicStats) = true := by
        unfold CountsDiscarded
        simp [hfalls]
      cases hread : input.panics.salvages && !input.panics.panicStats with
      | true => simp [hcounts, hread]
      | false =>
        rw [if_neg Bool.false_ne_true, eq_comm, Multiset.card_eq_zero, hsum]
        simp [hcounts, hread, hnothing, hnone]

/-- Without another panic, flushing and draining hand out all that is held. -/
theorem close_held (r : FallbackRun native python) : r.close.engine.held = 0 := by
  cases hlive : r.engine.live <;>
    simp [close, step, FallbackFlowEngine.perform, FallbackFlowEngine.flush, FallbackFlowEngine.drain, hlive,
      NativeEngine.flush, NativeEngine.drain, NativeEngine.guarded, CallPanics.none, FallbackFlowEngine.held,
      NativeEngine.flows, native.openFlows_empty, python.openFlows_empty]

/-- A run that ends without another panic. -/
theorem close_eq (r : FallbackRun native python) (inputs : List (FallbackInput Frame)) :
    (run step r inputs).close = run step r (inputs ++ [⟨.flush, .none⟩, ⟨.drain, .none⟩]) := by
  rw [run_append]
  rfl

/-- The closing calls meet no panic. -/
theorem close_quiet (r : FallbackRun native python) :
    Along step SparesCounters r [⟨.flush, .none⟩, ⟨.drain, .none⟩] ∧
      Along step DiscardsNothing r [⟨.flush, .none⟩, ⟨.drain, .none⟩] ∧
      Along step (fun r input => ¬ r.CountsDiscarded input) r [⟨.flush, .none⟩, ⟨.drain, .none⟩] := by
  have hfalls : ∀ (r : FallbackRun native python) (call : FallbackCall Frame),
      r.engine.fallsBack CallPanics.none call = false := by
    intro r call
    unfold FallbackFlowEngine.fallsBack
    cases call <;> cases r.engine.live <;> rfl
  have hdiscards : ∀ r : FallbackRun native python, r.engine.discards CallPanics.none = 0 := by
    intro r
    unfold FallbackFlowEngine.discards
    cases r.engine.live <;> rfl
  have hquiet : ∀ input ∈ [(⟨.flush, .none⟩ : FallbackInput Frame), ⟨.drain, .none⟩], input.panics = .none := by
    simp
  refine ⟨Along.of_forall (fun input hin r => ?_) r, Along.of_forall (fun input hin r => ?_) r,
    Along.of_forall (fun input hin r => ?_) r⟩
  · refine ⟨fun _ _ _ hpanic => ?_, fun hfalls' => ?_⟩
    · rw [hquiet input hin] at hpanic
      cases hpanic
    · rw [hquiet input hin, hfalls] at hfalls'
      cases hfalls'
  · show r.engine.discards input.panics = 0
    rw [hquiet input hin, hdiscards]
  · rintro ⟨hfalls', -⟩
    rw [hquiet input hin, hfalls] at hfalls'
    cases hfalls'

/-- The flows of a run whose counters were spared are accounted for exactly if no panic discarded one, or the engine
was abandoned and asked how many they are. -/
theorem accounts_flows_iff (maxPerMinute : Nat) (max_pos : 0 < maxPerMinute) {inputs : List (FallbackInput Frame)}
    (hspares : Along step SparesCounters (start native python maxPerMinute max_pos) inputs) :
    (run step (start native python maxPerMinute max_pos) inputs).close.AccountsFlows ↔
      Along step DiscardsNothing (start native python maxPerMinute max_pos) inputs ∨
        ¬ Along step (fun r input => ¬ r.CountsDiscarded input) (start native python maxPerMinute max_pos)
          inputs := by
  obtain ⟨hquietSpares, hquietNothing, hquietNone⟩ :=
    close_quiet (run step (start native python maxPerMinute max_pos) inputs)
  have hall := Along.append_iff.mpr ⟨hspares, hquietSpares⟩
  have hsound := run_sound (sound_start maxPerMinute max_pos) hall
  have hlost := lost_iff (sound_start maxPerMinute max_pos) rfl hall
  rw [← close_eq] at hsound hlost
  rw [Along.append_iff, Along.append_iff, and_iff_left hquietNothing, and_iff_left hquietNone] at hlost
  have hflows := hsound.flows
  rw [close_held, add_zero] at hflows
  constructor
  · rintro ⟨lost, hopened, hcard⟩
    rw [hsound.lostBatch, add_zero, hflows, add_left_cancel_iff] at hopened
    rw [← hopened] at hcard
    exact (hlost.mp hcard.symm).imp And.right id
  · intro hcounted
    refine ⟨_, ?_, (hlost.mpr (hcounted.imp (fun hnothing => ⟨rfl, hnothing⟩) id)).symm⟩
    rw [hsound.lostBatch, add_zero]
    exact hflows

/-- Whatever calls are made and wherever the native engine panics, every frame and every flow is accounted for
exactly if no panic costs the counters, and no panic discards an open flow that the fall-back does not read the count
of. -/
theorem fallback_accounts_iff (native python : FlowTracker Frame) (maxPerMinute : Nat) (max_pos : 0 < maxPerMinute)
    (inputs : List (FallbackInput Frame)) :
    Along step CountsFrames (start native python maxPerMinute max_pos) inputs ∧
        (run step (start native python maxPerMinute max_pos) inputs).close.AccountsFlows ↔
      Along step SparesCounters (start native python maxPerMinute max_pos) inputs ∧
        (Along step DiscardsNothing (start native python maxPerMinute max_pos) inputs ∨
          ¬ Along step (fun r input => ¬ r.CountsDiscarded input) (start native python maxPerMinute max_pos)
            inputs) := by
  rw [along_counts_iff (sound_start maxPerMinute max_pos)]
  exact and_congr_right fun hspares => accounts_flows_iff maxPerMinute max_pos hspares

/-- A parser to which every frame opens one and the same TCP connection. -/
def opensConnection : FrameParser :=
  ⟨fun frame => some (connectionPacket frame.capturedAt false).metadata, fun _ => none⟩

/-- The Python path with that parser. -/
def connecting : FlowTracker CapturedFrame := .python opensConnection smallFlowConfig none

/-- Only the call itself panics. -/
def ownPanic (clock : ℚ) : CallPanics := ⟨true, false, false, false, false, clock⟩

/-- A flow is opened and a panicking sweep discards it; half a minute later a panicking frame discards the next one
and abandons the engine, which tells how many they were. The Python path opens a third. -/
def abandonedRun : List (FallbackInput CapturedFrame) :=
  [⟨.feedUs ⟨[], .epoch⟩, .none⟩, ⟨.sweepTimeouts .epoch, ownPanic 0⟩, ⟨.feedUs ⟨[], .firstSecond⟩, .none⟩,
   ⟨.feedUs ⟨[], .firstSecond⟩, ownPanic 30⟩, ⟨.counters, .none⟩, ⟨.drain, .none⟩,
   ⟨.feedUs ⟨[], .nextQuarter⟩, .none⟩]

theorem fallback_accounts_iff_sweep :
    Along step CountsFrames (start connecting connecting 2 (by decide)) abandonedRun ∧
      (run step (start connecting connecting 2 (by decide)) abandonedRun).close.AccountsFlows := by
  have hcounters : ∀ input ∈ abandonedRun, input.call = .counters → input.panics.call = false := by
    simp [abandonedRun, CallPanics.none, ownPanic]
  have hsalvages : ∀ input ∈ abandonedRun, input.panics.salvages = true := by
    simp [abandonedRun, CallPanics.none, ownPanic, CallPanics.salvages]
  have hspares : Along step SparesCounters (start connecting connecting 2 (by decide)) abandonedRun := by
    refine Along.of_forall ?_ _
    intro input hin r
    refine ⟨fun _ _ hcall hpanic => ?_, fun _ hlost => ?_⟩
    · rw [hcounters input hin hcall] at hpanic
      cases hpanic
    · rw [hsalvages input hin] at hlost
      cases hlost
  -- the fourth call abandons the engine and asks for the statistics
  have hcounted : ¬ Along step (fun r input => ¬ r.CountsDiscarded input)
      (start connecting connecting 2 (by decide)) abandonedRun := by
    rintro ⟨-, -, -, hfourth, -⟩
    exact hfourth ⟨by decide +kernel, rfl, rfl⟩
  exact (fallback_accounts_iff connecting connecting 2 (by decide) _).mpr ⟨hspares, .inr hcounted⟩

/-- A parser to which every frame is malformed, as an empty one is. -/
def refusesAll : FrameParser := ⟨fun _ => none, fun _ => none⟩

/-- The Python path with that parser. -/
def refusing : FlowTracker CapturedFrame := .python refusesAll smallFlowConfig none

/-- An empty frame, fed without a panic. -/
def emptyFrame : FallbackInput CapturedFrame := ⟨.feedUs ⟨[], .epoch⟩, .none⟩

/-- Two frames are fed; the second panics, which spends a budget of one, and so does the drain of the salvage. The
count falls from one frame to none. -/
theorem salvage_loses_the_count :
    ¬ ∀ (native python : FlowTracker CapturedFrame) (maxPerMinute : Nat) (max_pos : 0 < maxPerMinute)
      (inputs : List (FallbackInput CapturedFrame)),
      Along step CountsFrames (start native python maxPerMinute max_pos) inputs ∧
        (run step (start native python maxPerMinute max_pos) inputs).close.AccountsFlows := by
  intro h
  have hcounts := (h refusing refusing 1 (by decide)
    [emptyFrame, ⟨emptyFrame.call, ⟨true, true, false, false, false, 0⟩⟩]).1.2.1.seen_le
  simp [step, start, emptyFrame, FallbackFlowEngine.perform, FallbackFlowEngine.feedUs, FallbackFlowEngine.new,
    FallbackFlowEngine.panicked, FallbackFlowEngine.fallBack, FallbackFlowEngine.startPython,
    FallbackFlowEngine.totals, NativeEngine.feed, NativeEngine.drain, NativeEngine.guarded, NativeEngine.new,
    CallPanics.none, NativePanicBudget.record, NativePanicBudget.new, NativePanicBudget.windowSeconds,
    NativePanicBudget.age] at hcounts

end FallbackRun

end Pirewall
