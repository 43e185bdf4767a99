/-
# Pirewall.Runtime.Salvage -- the live capture loop when the native engine is abandoned

`CoreDaemon._native_capture_loop` polls the ring, drains the engine and hands what it produced to detection, round by
round. A caught panic costs the round; one too many within a minute ends the loop through `_fall_back_to_python`,
which is the policy of `FallbackFlowEngine._fall_back` written a second time.

The two do not salvage the same. `_fall_back` drains the engine and then flushes it; the live loop only flushes it.
`live_fallback_delivers_iff` says at which engine states that is enough.
-/
import Pirewall.Flow.Fallback

namespace Pirewall

open Lib

/-! ## The queues to detection -/

/-- `queue.Queue`, and the items it had no room for, of which its callers keep the number. -/
structure BoundedQueue (α : Type) where
  items : List α
  maxsize : Nat
  refused : List α

namespace BoundedQueue

variable {α : Type}

/-- An empty queue. -/
def new (maxsize : Nat) : BoundedQueue α := ⟨[], maxsize, []⟩

/-- `put_nowait`, where `queue.Full` is handled by dropping the item; no size is no bound. -/
def putNowait (q : BoundedQueue α) (item : α) : BoundedQueue α :=
  if 0 < q.maxsize ∧ q.maxsize ≤ q.items.length then { q with refused := q.refused ++ [item] }
  else { q with items := q.items ++ [item] }

/-- `put_nowait` for each item in turn. -/
def putAll (q : BoundedQueue α) (items : List α) : BoundedQueue α := items.foldl putNowait q

/-- All that was put, whether there was room or not. -/
def offered (q : BoundedQueue α) : Multiset α := ↑q.items + ↑q.refused

theorem putNowait_offered (q : BoundedQueue α) (item : α) : (q.putNowait item).offered = item ::ₘ q.offered := by
  unfold putNowait offered
  split_ifs
  · show ↑q.items + ↑(q.refused ++ [item]) = item ::ₘ (↑q.items + ↑q.refused)
    rw [← Multiset.coe_add, ← Multiset.singleton_add, Multiset.coe_singleton]
    abel
  · show ↑(q.items ++ [item]) + ↑q.refused = item ::ₘ (↑q.items + ↑q.refused)
    rw [← Multiset.coe_add, ← Multiset.singleton_add, Multiset.coe_singleton]
    abel

/-- Nothing that is put is lost without a trace. -/
theorem putAll_offered (q : BoundedQueue α) (items : List α) : (q.putAll items).offered = ↑items + q.offered := by
  induction items generalizing q with
  | nil => exact (zero_add _).symm
  | cons item rest ih =>
    show ((q.putNowait item).putAll rest).offered = _
    rw [ih, putNowait_offered, ← Multiset.cons_coe, Multiset.cons_add, Multiset.add_cons]

end BoundedQueue

/-- What fits in again was not there. -/
theorem eq_nil_of_add_le {α : Type} {xs : List α} {s : Multiset α} (h : ↑xs + s ≤ s) : xs = [] := by
  have hcard := Multiset.card_le_card h
  rw [Multiset.card_add, Multiset.coe_card] at hcard
  exact List.length_eq_zero_iff.mp (by omega)

/-! ## The capture thread -/

variable {Frame : Type} {native python : FlowTracker Frame}

/-- What the capture thread of `CoreDaemon` works on. -/
structure CaptureThread (native python : FlowTracker Frame) where
  live : LivePath native python
  capturing : Bool
  replay : Bool
  flowQueue : BoundedQueue Flow
  newFlowQueue : BoundedQueue NewFlowSignal
  inspected : List TcpPayload
  flowsCompleted : Nat
  panicBudget : NativePanicBudget
  panicsCaught : Nat
  nativeShed : Nat × Nat
  flowsShed : Nat
  signalsShed : Nat

/-- One round of the loop: the frames the poll feeds before it ends or panics, which of its calls panic, what the
engine says it has shed, the clock, and whether the Python capture starts, should the loop come to that. -/
structure CaptureRound (Frame : Type) where
  frames : List Frame
  poll : Bool
  drain : Bool
  shed : Bool
  flush : Bool
  totalShed : Nat × Nat
  clock : ℚ
  starts : Bool

namespace NativeEngine

variable {tracker : FlowTracker Frame}

/-- A frame fed without a panic. -/
def fed (e : NativeEngine tracker) (frame : Frame) : NativeEngine tracker := (e.feed false frame).2

/-- `poll`. A panic strikes after the frames that were fed, in one that only gets counted. -/
def poll (e : NativeEngine tracker) (panics : Bool) (frames : List Frame) :
    Except NativeEngineError Unit × NativeEngine tracker :=
  let e := frames.foldl fed e
  guarded { e with packetsSeen := e.packetsSeen + panics.toNat } "ring poll" panics fun e => ((), e)

/-- `shed`, of an engine that has shed `totals`. -/
def shed (e : NativeEngine tracker) (panics : Bool) (totals : Nat × Nat) :
    Except NativeEngineError (Nat × Nat) × NativeEngine tracker :=
  guarded e "shed" panics fun e => (totals, e)

end NativeEngine

namespace CaptureThread

/-- `_enqueue`. -/
def enqueue (t : CaptureThread native python) (flows : List Flow) : CaptureThread native python :=
  { t with flowQueue := t.flowQueue.putAll flows, flowsCompleted := t.flowsCompleted + flows.length }

/-- `_handle_new_flow`, for each signal. -/
def handleNewFlows (t : CaptureThread native python) (signals : List NewFlowSignal) : CaptureThread native python :=
  { t with newFlowQueue := t.newFlowQueue.putAll signals }

/-- `_inspect_tcp_payload`, for each payload. -/
def inspectTcpPayloads (t : CaptureThread native python) (payloads : List TcpPayload) :
    CaptureThread native python :=
  { t with inspected := t.inspected ++ payloads }

/-- `_note_native_panic`: whether the budget is spent. -/
def noteNativePanic (t : CaptureThread native python) (clock : ℚ) : Bool × CaptureThread native python :=
  ((t.panicBudget.record clock).exhausted,
    { t with panicBudget := t.panicBudget.record clock, panicsCaught := t.panicsCaught + 1 })

/-- `_note_native_shedding`. -/
def noteNativeShedding (t : CaptureThread native python) (flows signals : Nat) : CaptureThread native python :=
  { t with flowsShed := t.flowsShed + flows, signalsShed := t.signalsShed + signals }

/-- `_fall_back_to_python`: whether it swapped. -/
def fallBackToPython (t : CaptureThread native python) (engine : NativeEngine native) (flushPanics starts : Bool) :
    Bool × CaptureThread native python :=
  let t := { t with capturing := false }
  let (salvaged, engine) :=
    match engine.flush flushPanics with
    | (.ok flows, engine) => (flows, engine)
    | (.error _, engine) => ([], engine)
  let t := { t with live := .native engine }.enqueue salvaged
  if t.replay then (false, t)
  else if !starts then (false, t)
  else (true, { t with live := .python python.empty, capturing := true })

/-- A caught panic: the round is over, and the loop may be. -/
def struck (t : CaptureThread native python) (engine : NativeEngine native) (round : CaptureRound Frame) :
    CaptureThread native python :=
  let (exhausted, t) := t.noteNativePanic round.clock
  if exhausted then (t.fallBackToPython engine round.flush round.starts).2 else { t with live := .native engine }

/-- What a drain produced, in the order `NativeBatch` documents. -/
def handOver (t : CaptureThread native python) (batch : NativeBatch) : CaptureThread native python :=
  ((t.inspectTcpPayloads batch.tlsPayloads).handleNewFlows batch.newFlows).enqueue batch.completed

/-- One round of `_native_capture_loop`. -/
def nativeRound (t : CaptureThread native python) (engine : NativeEngine native) (round : CaptureRound Frame) :
    CaptureThread native python :=
  match engine.poll round.poll round.frames with
  | (.error _, engine) => t.struck engine round
  | (.ok (), engine) =>
    match engine.drain round.drain with
    | (.error _, engine) => t.struck engine round
    | (.ok batch, engine) =>
      let t := t.handOver batch
      match engine.shed round.shed round.totalShed with
      | (.error _, engine) => t.struck engine round
      | (.ok (flows, signals), engine) =>
        let t := { t with live := .native engine }
        if flows > t.nativeShed.1 ∨ signals > t.nativeShed.2 then
          { t.noteNativeShedding (flows - t.nativeShed.1) (signals - t.nativeShed.2) with
            nativeShed := (flows, signals) }
        else t

/-! ## What the fall-back hands over -/

/-- What the live fall-back does to the queues. -/
theorem fallBackToPython_queues (t : CaptureThread native python) (engine : NativeEngine native) (starts : Bool) :
    (t.fallBackToPython engine false starts).2.flowQueue = t.flowQueue.putAll (native.flush engine.table) ∧
      (t.fallBackToPython engine false starts).2.newFlowQueue = t.newFlowQueue ∧
      (t.fallBackToPython engine false starts).2.inspected = t.inspected := by
  unfold fallBackToPython NativeEngine.flush NativeEngine.guarded
  cases t.replay <;> cases starts <;> exact ⟨rfl, rfl, rfl⟩

end CaptureThread

/-- What `_fall_back` puts into its pending batch, when none of its calls panics. -/
def FallbackFlowEngine.salvage (f : FallbackFlowEngine native python) (engine : NativeEngine native) : NativeBatch :=
  ({ f with pending := .empty }.fallBack engine .none).pending

theorem FallbackFlowEngine.salvage_eq (f : FallbackFlowEngine native python) (engine : NativeEngine native) :
    f.salvage engine = engine.pending.merge ⟨native.flush engine.table, [], []⟩ := rfl

namespace CaptureThread

/-- The live fall-back hands detection all that `_fall_back` would salvage from the same engine: whatever becomes of
it there, a full queue counts what it refuses. -/
structure DeliversSalvage (t : CaptureThread native python) (f : FallbackFlowEngine native python)
    (engine : NativeEngine native) (starts : Bool) : Prop where
  completed : ↑(f.salvage engine).completed + t.flowQueue.offered ≤
    (t.fallBackToPython engine false starts).2.flowQueue.offered
  newFlows : ↑(f.salvage engine).newFlows + t.newFlowQueue.offered ≤
    (t.fallBackToPython engine false starts).2.newFlowQueue.offered
  tlsPayloads : (↑(f.salvage engine).tlsPayloads + ↑t.inspected : Multiset TcpPayload) ≤
    ↑(t.fallBackToPython engine false starts).2.inspected

/-- What is delivered was not pending. -/
theorem DeliversSalvage.pending_eq {t : CaptureThread native python} {f : FallbackFlowEngine native python}
    {engine : NativeEngine native} {starts : Bool} (h : t.DeliversSalvage f engine starts) :
    engine.pending = .empty := by
  obtain ⟨hflows, hsignals, hinspected⟩ := t.fallBackToPython_queues engine starts
  have hcompleted : engine.pending.completed = [] := by
    have hle := h.completed
    rw [hflows, BoundedQueue.putAll_offered, f.salvage_eq] at hle
    rw [NativeBatch.merge_completed, ← Multiset.coe_add, add_assoc] at hle
    exact eq_nil_of_add_le hle
  have hnewFlows : engine.pending.newFlows = [] := by
    have hle := h.newFlows
    rw [hsignals, f.salvage_eq] at hle
    simpa [NativeBatch.merge] using eq_nil_of_add_le hle
  have htlsPayloads : engine.pending.tlsPayloads = [] := by
    have hle := h.tlsPayloads
    rw [hinspected, f.salvage_eq] at hle
    simpa [NativeBatch.merge] using eq_nil_of_add_le hle
  show _ = NativeBatch.mk [] [] []
  rw [← hcompleted, ← hnewFlows, ← htlsPayloads]

/-- With nothing pending, flushing is all there is to do. -/
theorem DeliversSalvage.of_empty (t : CaptureThread native python) (f : FallbackFlowEngine native python)
    {engine : NativeEngine native} (starts : Bool) (hpending : engine.pending = .empty) :
    t.DeliversSalvage f engine starts := by
  obtain ⟨hflows, hsignals, hinspected⟩ := t.fallBackToPython_queues engine starts
  refine ⟨?_, ?_, ?_⟩
  · rw [hflows, BoundedQueue.putAll_offered, f.salvage_eq, hpending]
    exact le_refl _
  · rw [hsignals, f.salvage_eq, hpending]
    exact (zero_add _).le
  · rw [hinspected, f.salvage_eq, hpending]
    exact (zero_add _).le

/-- Whatever the engine holds when it is abandoned, and whether this is a replay, a capture that swaps or one that
goes down: the live fall-back delivers what `_fall_back` would salvage exactly if the engine has no output pending. -/
theorem live_fallback_delivers_iff (t : CaptureThread native python) (f : FallbackFlowEngine native python)
    (engine : NativeEngine native) (starts : Bool) :
    t.DeliversSalvage f engine starts ↔ engine.pending = .empty := by
  exact ⟨fun h => h.pending_eq, fun hpending => .of_empty t f starts hpending⟩

/-- What a round can do. Either it hands over all that was pending, or a panic strikes: in `shed`, when all of it
has just been handed over, or before that, with what the polled frames produced still in the engine. -/
theorem nativeRound_cases (t : CaptureThread native python) (engine : NativeEngine native)
    (round : CaptureRound Frame) :
    (∃ next, (t.nativeRound engine round).live = .native next ∧ round.shed = false ∧ next.pending = .empty) ∨
      (∃ next, t.nativeRound engine round =
          (t.handOver (round.frames.foldl NativeEngine.fed engine).pending).struck next round ∧
        round.shed = true ∧ next.pending = .empty) ∨
      (∃ next, t.nativeRound engine round = t.struck next round ∧ (round.poll = true ∨ round.drain = true) ∧
        next.pending = (round.frames.foldl NativeEngine.fed engine).pending) := by
  unfold nativeRound NativeEngine.poll NativeEngine.drain NativeEngine.shed NativeEngine.guarded
  cases hpoll : round.poll with
  | true => exact .inr (.inr ⟨_, rfl, .inl rfl, rfl⟩)
  | false =>
    cases hdrain : round.drain with
    | true => exact .inr (.inr ⟨_, rfl, .inr rfl, rfl⟩)
    | false =>
      cases hshed : round.shed with
      | true => exact .inr (.inl ⟨_, rfl, rfl, rfl⟩)
      | false =>
        refine .inl ⟨{ (round.frames.foldl NativeEngine.fed engine) with pending := .empty }, ?_, rfl, rfl⟩
        simp only [Bool.false_eq_true, if_false]
        split_ifs <;> rfl

/-- So a panic in `shed` that spends the budget costs no output. -/
theorem shed_panic_delivers {t : CaptureThread native python} {engine : NativeEngine native}
    {round : CaptureRound Frame} (hpoll : round.poll = false) (hdrain : round.drain = false)
    (hshed : round.shed = true) (f : FallbackFlowEngine native python) (starts : Bool) :
    ∃ t' next, t.nativeRound engine round = struck t' next round ∧ t'.DeliversSalvage f next starts := by
  rcases t.nativeRound_cases engine round with
    ⟨next, -, hquiet, -⟩ | ⟨next, hround, -, hpending⟩ | ⟨next, -, hor, -⟩
  · rw [hshed] at hquiet
    cases hquiet
  · exact ⟨_, next, hround, .of_empty _ f starts hpending⟩
  · rw [hpoll, hdrain] at hor
    rcases hor with hpanic | hpanic <;> cases hpanic

/-- The bytes of a SYN from `10.42.0.20:40000` to `8.8.8.8:80`. -/
def synBytes : List UInt8 :=
  [0, 0, 0, 0, 0, 2, 0, 0, 0, 0, 0, 1, 0x08, 0x00,
    0x45, 0, 0, 40, 0, 0, 0, 0, 64, 6, 0, 0, 10, 42, 0, 20, 8, 8, 8, 8,
    0x9c, 0x40, 0, 80, 0, 0, 0, 0, 0, 0, 0, 0, 0x50, 0x02, 4, 0, 0, 0, 0, 0]

/-- A parser that reads that frame. -/
def synParser : FrameParser where
  parsePacket frame :=
    if frame.raw = synBytes then
      some (ParsedFrame.metadata ⟨frame.capturedAt, 1#48, 2#48, .ipv4 0x0a2a0014#32 0x08080808#32, .tcp, some 40000,
        some 80, some tcpSyn, 40, 0, by decide⟩)
    else none
  extractTcpPayload _ := none

/-- A poll feeds a SYN and panics at the frame after it. The connection it opens is lost to the new-flow queue,
where `_fall_back` would have saved the signal. -/
theorem live_fallback_loses_pending :
    ¬ ∀ (native python : FlowTracker CapturedFrame) (t : CaptureThread native python)
      (f : FallbackFlowEngine native python) (engine : NativeEngine native) (starts : Bool),
      t.DeliversSalvage f engine starts := by
  intro h
  let tracker : FlowTracker CapturedFrame := .python synParser smallFlowConfig none
  let engine := ((NativeEngine.new tracker).poll true [⟨synBytes, .firstSecond⟩]).2
  let thread : CaptureThread tracker tracker :=
    ⟨.native engine, true, false, .new 10000, .new 50000, [], 0, .new 1 (by decide), 1, (0, 0), 0, 0⟩
  have hpending := (h tracker tracker thread (.new tracker tracker 1 (by decide)) engine true).pending_eq
  have hsignal : engine.pending.newFlows.length = 1 := by decide +kernel
  rw [hpending] at hsignal
  cases hsignal

end CaptureThread

end Pirewall
