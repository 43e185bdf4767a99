/-
# Pirewall.Runtime.DetectionThreads -- completed flows between the threads of the daemon

The capture thread and the sweep thread put completed flows, new-flow signals and slow clusters into bounded queues
and never wait. The detection thread takes one flow at a time and drains the signals before it processes it; while
scoring is batched it puts the flow, with the rest of its evidence, into a queue of a thread that scores many at once
and finishes them. Any step of one thread may come between two of another.

`DetectionDaemon.step` is one step of one of them. What a thread has in its hands is part of the point it is at, so
that no flow is anywhere but in the state. Three things hold however the steps interleave: a flow ends exactly once or
was refused at a full queue, a flow is not processed before the signals that were put before it, and a score ends up
at the flow it was computed for.

The first is an equation between multisets: the flows that were processed so far are those in the hands of a thread,
those that wait to be scored, and those that ended (`Accounted`). Each step moves flows from one of these places to
another. What is ahead of it is a line, at which a flow that finds the queue full is refused.

The second is about the order of two queues. What was put into either is kept in one list as it came, `arrivals`; both
queues are first in, first out, and a flow is ready to be processed only when it sees the signals before it
(`Ordered`).

The third is about the batch. A model is asked for many rows at once and answers with a list, and the flows of the
batch are paired with the answers by position. `Attests` says of what waits for the batch, of what was scored in it
and of what ended that its evidence is of this flow; with a model that scores row by row the pairing keeps it.
-/
import Pirewall.Firewall.Lifecycle
import Pirewall.Flow.ConnectionStart
import Pirewall.Runtime.Pipeline
import Pirewall.Runtime.Salvage

namespace Pirewall

/-! ## Queues -/

namespace BoundedQueue

variable {α : Type} (q : BoundedQueue α)

/-- `put_nowait` would raise `queue.Full`. -/
def Full : Prop := 0 < q.maxsize ∧ q.maxsize ≤ q.items.length

instance : Decidable q.Full := inferInstanceAs (Decidable (0 < q.maxsize ∧ q.maxsize ≤ q.items.length))

/-- The queue without its first item. -/
def dropFirst : BoundedQueue α := { q with items := q.items.tail }

@[simp] theorem dropFirst_items : q.dropFirst.items = q.items.tail := rfl

@[simp] theorem dropFirst_refused : q.dropFirst.refused = q.refused := rfl

theorem putNowait_of_full (h : q.Full) (item : α) : q.putNowait item = { q with refused := q.refused ++ [item] } :=
  if_pos h

theorem putNowait_of_room (h : ¬q.Full) (item : α) : q.putNowait item = { q with items := q.items ++ [item] } :=
  if_neg h

end BoundedQueue

namespace Engine

open Lib

/-! ## State -/

/-- What the detection thread drains the signals and the clusters for. -/
inductive DrainFor where
  | turn
  | flow (flow : FlowRecord)
  | exit

/-- Where the detection thread is, in `_detection_loop` and what that calls. -/
inductive DetectionPoint (Values : Type) where
  | top
  | signals (reason : DrainFor)
  | clusters (reason : DrainFor)
  | get
  | process (flow : FlowRecord)
  | handOver (scoring : PendingAnomalyScoring Values)
  | finish (flow : FlowRecord) (now : Time) (outcome : DetectionOutcome)
  | exited

namespace DetectionPoint

variable {Values : Type}

/-- The flow that has been taken and not yet processed. -/
def taken : DetectionPoint Values → List FlowRecord
  | .signals (.flow flow) | .clusters (.flow flow) | .process flow => [flow]
  | _ => []

/-- The flow for which the signals have been drained. -/
def ready : DetectionPoint Values → List FlowRecord
  | .clusters (.flow flow) | .process flow => [flow]
  | _ => []

/-- The flow that is to be scored. -/
def pending : DetectionPoint Values → List (PendingAnomalyScoring Values)
  | .handOver scoring => [scoring]
  | _ => []

/-- The flow that has all of its evidence. -/
def complete : DetectionPoint Values → List (FlowRecord × DetectionOutcome)
  | .finish flow _ outcome => [(flow, outcome)]
  | _ => []

/-- The flows that have been processed and not yet been let go of. -/
def analysed (point : DetectionPoint Values) : List FlowRecord :=
  point.pending.map PendingAnomalyScoring.flow ++ point.complete.map Prod.fst

end DetectionPoint

/-- Where the anomaly thread is, in `_anomaly_inference_loop` and what that calls. -/
inductive InferencePoint (Values : Type) where
  | top
  | get
  | collect (batch : List (PendingAnomalyScoring Values))
  | leftover (batch : List (PendingAnomalyScoring Values))
  | score (batch : List (PendingAnomalyScoring Values)) (last : Bool)
  | finish (scored : List (PendingAnomalyScoring Values × Option ScoredAnomaly)) (last : Bool)
  | exited

namespace InferencePoint

variable {Values : Type}

/-- The flows taken and not yet scored. -/
def pending : InferencePoint Values → List (PendingAnomalyScoring Values)
  | .collect batch | .leftover batch | .score batch _ => batch
  | _ => []

/-- The flows scored and not yet finished. -/
def scored : InferencePoint Values → List (PendingAnomalyScoring Values × Option ScoredAnomaly)
  | .finish scored _ => scored
  | _ => []

/-- The flows in the thread's hands. -/
def held (point : InferencePoint Values) : List FlowRecord :=
  point.pending.map PendingAnomalyScoring.flow ++ point.scored.map fun entry => entry.1.flow

end InferencePoint

/-- The queues' bounds and the size of a batch. -/
structure DaemonLimits where
  flowQueueMax : Nat
  newFlowQueueMax : Nat
  slowClusterQueueMax : Nat
  anomalyQueueMax : Nat
  anomalyBatchSize : Nat

/-- The bounds as they are, with the batch size as it ships. -/
def shippedLimits : DaemonLimits := ⟨10000, 50000, 1000, 5000, 50⟩

/-- The state of the threads. `arrivals` is what there was room for in the first two queues, in the order in which it
was put; `processed` has with each flow what the analyzer had observed by then; a flow that `ended` did so with the
outcome it was finished with, or failed. -/
structure DetectionDaemon (Values Analyzer : Type) where
  pipeline : FlowPipeline Analyzer
  flowQueue : BoundedQueue FlowRecord
  newFlowQueue : BoundedQueue NewFlowSignal
  /-- A cluster, and the id of its flow. -/
  slowClusterQueue : BoundedQueue (SlowConnectionCluster × String)
  anomalyQueue : BoundedQueue (PendingAnomalyScoring Values)
  detection : DetectionPoint Values
  inference : InferencePoint Values
  stopping : Bool
  arrivals : List (NewFlowSignal ⊕ FlowRecord)
  observed : List NewFlowSignal
  processed : List (FlowRecord × List NewFlowSignal)
  ended : List (FlowRecord × Option DetectionOutcome)

/-- What a step of the detection thread reads from outside: the clock, the manager's environment, the TLS match cached
for the flow, and the open flows that stand for the sources `_assess_sources_early` picks. -/
structure DetectionInput where
  now : Time
  env : Env
  signature : Option ProtocolSignatureEvidence
  snapshots : List FlowRecord

/-- One step of one thread. -/
inductive DaemonAction where
  | newFlow (signal : NewFlowSignal)
  | completed (flow : FlowRecord)
  | slowCluster (cluster : SlowConnectionCluster) (flowId : String)
  | stop
  | detect (input : DetectionInput)
  | infer (now : Time) (env : Env) (expired : Bool)
  | manage (call : Env × ManagerOp)

namespace DetectionDaemon

variable {Values Analyzer : Type} (settings : PipelineSettings Values Analyzer) (limits : DaemonLimits)

/-- The daemon at startup. The anomaly thread is there only if its model is. -/
def init (analyzer : Analyzer) (manager : FirewallManager) : DetectionDaemon Values Analyzer where
  pipeline := .init settings analyzer manager
  flowQueue := .new limits.flowQueueMax
  newFlowQueue := .new limits.newFlowQueueMax
  slowClusterQueue := .new limits.slowClusterQueueMax
  anomalyQueue := .new limits.anomalyQueueMax
  detection := .top
  inference := if settings.detectors.isolationForest.isSome then .top else .exited
  stopping := false
  arrivals := []
  observed := []
  processed := []
  ended := []

variable (d : DetectionDaemon Values Analyzer)

/-- `_handle_new_flow`. -/
def handleNewFlow (signal : NewFlowSignal) : DetectionDaemon Values Analyzer :=
  { d with
    newFlowQueue := d.newFlowQueue.putNowait signal
    arrivals := if d.newFlowQueue.Full then d.arrivals else d.arrivals ++ [.inl signal] }

/-- `_enqueue`, for one flow. -/
def enqueue (flow : FlowRecord) : DetectionDaemon Values Analyzer :=
  { d with
    flowQueue := d.flowQueue.putNowait flow
    arrivals := if d.flowQueue.Full then d.arrivals else d.arrivals ++ [.inr flow] }

/-- One turn of `_drain_new_flow_signals`: a signal is observed, or there is none left and the sources seen are
assessed early. -/
def drainSignal (input : DetectionInput) (reason : DrainFor) : DetectionDaemon Values Analyzer :=
  match d.newFlowQueue.items with
  | signal :: _ =>
    { d with
      newFlowQueue := d.newFlowQueue.dropFirst
      pipeline := { d.pipeline with
        analyzer := settings.detectors.observeNewConnection d.pipeline.analyzer signal }
      observed := d.observed ++ [signal] }
  | [] =>
    { d with
      pipeline := input.snapshots.foldl (fun p flow => p.processSnapshot settings flow input.now input.env) d.pipeline
      detection := .clusters reason }

/-- What the detection thread goes on with when it has drained both queues. -/
def drained : DrainFor → DetectionPoint Values
  | .turn => .get
  | .flow flow => .process flow
  | .exit => .exited

/-- One turn of `_drain_slow_clusters`. -/
def drainCluster (input : DetectionInput) (reason : DrainFor) : DetectionDaemon Values Analyzer :=
  match d.slowClusterQueue.items with
  | (cluster, flowId) :: _ =>
    { d with
      slowClusterQueue := d.slowClusterQueue.dropFirst
      pipeline := { d.pipeline with
        analyzer := settings.detectors.noteSlowConnections d.pipeline.analyzer cluster input.now }.processSnapshot
          settings ⟨cluster.representativeFlow, flowId⟩ input.now input.env }
  | [] => { d with detection := drained reason }

/-- `_flow_queue.get`, which times out only on an empty queue. -/
def takeFlow : DetectionDaemon Values Analyzer :=
  match d.flowQueue.items with
  | flow :: _ => { d with flowQueue := d.flowQueue.dropFirst, detection := .signals (.flow flow) }
  | [] => { d with detection := .top }

/-- `process`, and where it leaves the flow. -/
def processFlow (input : DetectionInput) (flow : FlowRecord) : DetectionDaemon Values Analyzer :=
  let result := d.pipeline.process settings flow input.now input.signature
  let d := { d with pipeline := result.2, processed := d.processed ++ [(flow, d.observed)] }
  match result.1 with
  | .failed => { d with detection := .top, ended := d.ended ++ [(flow, none)] }
  | .pending scoring => { d with detection := .handOver scoring }
  | .complete outcome => { d with detection := .finish flow input.now outcome }

/-- `_enqueue_anomaly_scoring`: what there is no room for is finished without a score. -/
def enqueueAnomalyScoring (scoring : PendingAnomalyScoring Values) : DetectionDaemon Values Analyzer :=
  { d with
    anomalyQueue := d.anomalyQueue.putNowait scoring
    detection := if d.anomalyQueue.Full then .finish scoring.flow scoring.now scoring.outcome else .top }

/-- `finish`, and the flow has ended. -/
def finishFlow (env : Env) (flow : FlowRecord) (now : Time) (outcome : DetectionOutcome) :
    DetectionDaemon Values Analyzer :=
  { d with
    pipeline := d.pipeline.finish settings flow now env outcome
    ended := d.ended ++ [(flow, some outcome)] }

/-- The next step of the detection thread. -/
def detect (input : DetectionInput) : DetectionDaemon Values Analyzer :=
  match d.detection with
  | .top => { d with detection := .signals (if d.stopping then .exit else .turn) }
  | .signals reason => d.drainSignal settings input reason
  | .clusters reason => d.drainCluster settings input reason
  | .get => d.takeFlow
  | .process flow => d.processFlow settings input flow
  | .handOver scoring => d.enqueueAnomalyScoring scoring
  | .finish flow now outcome => { d.finishFlow settings input.env flow now outcome with detection := .top }
  | .exited => d

/-- `_anomaly_queue.get` in `_collect_anomaly_batch`. -/
def takeFirst : DetectionDaemon Values Analyzer :=
  match d.anomalyQueue.items with
  | first :: _ => { d with anomalyQueue := d.anomalyQueue.dropFirst, inference := .collect [first] }
  | [] => { d with inference := .top }

/-- One more of a batch, unless it is full, its time is up or the queue is empty. -/
def collect (expired : Bool) (batch : List (PendingAnomalyScoring Values)) : DetectionDaemon Values Analyzer :=
  match d.anomalyQueue.items with
  | next :: _ =>
    if batch.length < limits.anomalyBatchSize ∧ expired = false then
      { d with anomalyQueue := d.anomalyQueue.dropFirst, inference := .collect (batch ++ [next]) }
    else { d with inference := .score batch false }
  | [] => { d with inference := .score batch false }

/-- One turn of `_drain_anomaly_queue_nowait`. -/
def collectLeftover (batch : List (PendingAnomalyScoring Values)) : DetectionDaemon Values Analyzer :=
  match d.anomalyQueue.items with
  | next :: _ => { d with anomalyQueue := d.anomalyQueue.dropFirst, inference := .leftover (batch ++ [next]) }
  | [] => { d with inference := if batch = [] then .exited else .score batch true }

/-- The evidence of a batch: none of it when inference fails. -/
def evidences (batch : List (PendingAnomalyScoring Values)) (now : Time) : List (Option ScoredAnomaly) :=
  match settings.detectors.isolationForest with
  | none => batch.map fun _ => none
  | some model =>
    match model.detectBatch (batch.map PendingAnomalyScoring.features) settings.detectors.anomalyScoreThreshold
        now with
    | none => batch.map fun _ => none
    | some verdicts => verdicts.map some

/-- `_score_and_finish_batch` up to its loop. -/
def scoreBatch (now : Time) (batch : List (PendingAnomalyScoring Values)) (last : Bool) :
    DetectionDaemon Values Analyzer :=
  let counters := d.pipeline.counters
  { d with
    pipeline :=
      if settings.detectors.isolationForest.isSome then
        { d.pipeline with counters := { counters with inferences := counters.inferences + batch.length } }
      else d.pipeline
    inference := .finish (batch.zip (evidences settings batch now)) last }

/-- The next step of the anomaly thread. -/
def infer (now : Time) (env : Env) (expired : Bool) : DetectionDaemon Values Analyzer :=
  match d.inference with
  | .top => { d with inference := if d.stopping then .leftover [] else .get }
  | .get => d.takeFirst
  | .collect batch => d.collect limits expired batch
  | .leftover batch => d.collectLeftover batch
  | .score batch last => d.scoreBatch settings now batch last
  | .finish ((scoring, anomaly) :: rest) last =>
    { d.finishFlow settings env scoring.flow scoring.now (withAnomalyEvidence scoring.outcome anomaly) with
      inference := .finish rest last }
  | .finish [] last => { d with inference := if last then .exited else .top }
  | .exited => d

/-- One step. -/
def step : DaemonAction → DetectionDaemon Values Analyzer
  | .newFlow signal => d.handleNewFlow signal
  | .completed flow => d.enqueue flow
  | .slowCluster cluster flowId => { d with slowClusterQueue := d.slowClusterQueue.putNowait (cluster, flowId) }
  | .stop => { d with stopping := true }
  | .detect input => d.detect settings input
  | .infer now env expired => d.infer settings limits now env expired
  | .manage call => { d with pipeline := { d.pipeline with manager := d.pipeline.manager.step call } }

/-! ## Flows and signals in order -/

/-- The signals among the arrivals. -/
def signalsOf (arrivals : List (NewFlowSignal ⊕ FlowRecord)) : List NewFlowSignal := arrivals.filterMap Sum.getLeft?

/-- The flows among them. -/
def flowsOf (arrivals : List (NewFlowSignal ⊕ FlowRecord)) : List FlowRecord := arrivals.filterMap Sum.getRight?

@[simp] theorem signalsOf_append (first rest : List (NewFlowSignal ⊕ FlowRecord)) :
    signalsOf (first ++ rest) = signalsOf first ++ signalsOf rest := List.filterMap_append

@[simp] theorem flowsOf_append (first rest : List (NewFlowSignal ⊕ FlowRecord)) :
    flowsOf (first ++ rest) = flowsOf first ++ flowsOf rest := List.filterMap_append

@[simp] theorem signalsOf_flow (flow : FlowRecord) : signalsOf [.inr flow] = [] := rfl

@[simp] theorem signalsOf_signal (signal : NewFlowSignal) : signalsOf [.inl signal] = [signal] := rfl

@[simp] theorem flowsOf_flow (flow : FlowRecord) : flowsOf [.inr flow] = [flow] := rfl

@[simp] theorem flowsOf_signal (signal : NewFlowSignal) : flowsOf [.inl signal] = [] := rfl

/-- The flow that arrived behind those, and of all signals before it none is missing. -/
def Sees (arrivals : List (NewFlowSignal ⊕ FlowRecord)) (done : List FlowRecord) (flow : FlowRecord)
    (seen : List NewFlowSignal) : Prop :=
  ∃ before after, arrivals = before ++ .inr flow :: after ∧ flowsOf before = done ∧ signalsOf before <+: seen

theorem Sees.append {arrivals : List (NewFlowSignal ⊕ FlowRecord)} {done : List FlowRecord} {flow : FlowRecord}
    {seen : List NewFlowSignal} (h : Sees arrivals done flow seen) (more : List (NewFlowSignal ⊕ FlowRecord)) :
    Sees (arrivals ++ more) done flow seen := by
  obtain ⟨before, after, rfl, hdone, hseen⟩ := h
  exact ⟨before, after ++ more, by rw [List.append_assoc, List.cons_append], hdone, hseen⟩

/-- Where every signal that has arrived is observed, none before any flow is missing. -/
theorem sees_of_flows {arrivals : List (NewFlowSignal ⊕ FlowRecord)} {done rest : List FlowRecord} {flow : FlowRecord}
    (h : flowsOf arrivals = done ++ flow :: rest) : Sees arrivals done flow (signalsOf arrivals) := by
  obtain ⟨front, back, rfl, hfront, hback⟩ := List.filterMap_eq_append_iff.mp h
  obtain ⟨between, arrival, after, rfl, hnone, harrival, -⟩ := List.filterMap_eq_cons_iff.mp hback
  obtain rfl : arrival = .inr flow := Sum.getRight?_eq_some_iff.mp harrival
  refine ⟨front ++ between, after, by rw [List.append_assoc], ?_, ?_⟩
  · rw [flowsOf_append, show flowsOf front = done from hfront, show flowsOf between = [] from
      List.filterMap_eq_nil_iff.mpr hnone, List.append_nil]
  · rw [← List.append_assoc, signalsOf_append (front ++ between)]
    exact List.prefix_append _ _

/-- Both queues are first in, first out, and a flow is ready only when it sees the signals before it. -/
structure Ordered (d : DetectionDaemon Values Analyzer) : Prop where
  signals : signalsOf d.arrivals = d.observed ++ d.newFlowQueue.items
  flows : flowsOf d.arrivals = d.processed.map Prod.fst ++ (d.detection.taken ++ d.flowQueue.items)
  ready : ∀ flow ∈ d.detection.ready, Sees d.arrivals (d.processed.map Prod.fst) flow d.observed
  seen : ∀ n flow seen, d.processed[n]? = some (flow, seen) →
    Sees d.arrivals ((d.processed.take n).map Prod.fst) flow seen ∧ seen <+: d.observed

variable {settings limits d} {d' : DetectionDaemon Values Analyzer}

theorem Ordered.congr (h : d.Ordered) (harrivals : d'.arrivals = d.arrivals) (hobserved : d'.observed = d.observed)
    (hsignals : d'.newFlowQueue = d.newFlowQueue) (hprocessed : d'.processed = d.processed)
    (hflows : d'.flowQueue = d.flowQueue) (htaken : d'.detection.taken = d.detection.taken)
    (hready : d'.detection.ready ⊆ d.detection.ready) : d'.Ordered where
  signals := by rw [harrivals, hobserved, hsignals, h.signals]
  flows := by rw [harrivals, hprocessed, htaken, hflows, h.flows]
  ready flow hflow := by
    rw [harrivals, hprocessed, hobserved]
    exact h.ready flow (hready hflow)
  seen := by
    rw [harrivals, hprocessed, hobserved]
    exact h.seen

theorem Ordered.init (analyzer : Analyzer) (manager : FirewallManager) :
    (init settings limits analyzer manager).Ordered where
  signals := rfl
  flows := rfl
  ready _ hflow := absurd hflow List.not_mem_nil
  seen n flow seen h := by
    change ([] : List (FlowRecord × List NewFlowSignal))[n]? = some (flow, seen) at h
    rw [List.getElem?_nil] at h
    cases h

/-- The arrivals go on. -/
theorem Ordered.arrive (h : d.Ordered) (more : List (NewFlowSignal ⊕ FlowRecord))
    (harrivals : d'.arrivals = d.arrivals ++ more) (hobserved : d'.observed = d.observed)
    (hsignals : d'.newFlowQueue.items = d.newFlowQueue.items ++ signalsOf more)
    (hprocessed : d'.processed = d.processed) (hpoint : d'.detection = d.detection)
    (hflows : d'.flowQueue.items = d.flowQueue.items ++ flowsOf more) : d'.Ordered where
  signals := by rw [harrivals, signalsOf_append, h.signals, hobserved, hsignals, List.append_assoc]
  flows := by
    rw [harrivals, flowsOf_append, h.flows, hprocessed, hpoint, hflows]
    simp only [List.append_assoc]
  ready flow hflow := by
    rw [hpoint] at hflow
    rw [harrivals, hprocessed, hobserved]
    exact (h.ready flow hflow).append more
  seen n flow seen hn := by
    rw [hprocessed] at hn
    rw [harrivals, hprocessed, hobserved]
    exact ⟨(h.seen n flow seen hn).1.append more, (h.seen n flow seen hn).2⟩

theorem Ordered.handleNewFlow (h : d.Ordered) (signal : NewFlowSignal) : (d.handleNewFlow signal).Ordered := by
  by_cases hfull : d.newFlowQueue.Full
  · refine h.arrive [] ?_ rfl ?_ rfl rfl ?_
    · simp [DetectionDaemon.handleNewFlow, hfull]
    · simp [DetectionDaemon.handleNewFlow, BoundedQueue.putNowait_of_full _ hfull, signalsOf]
    · simp [DetectionDaemon.handleNewFlow, flowsOf]
  · refine h.arrive [.inl signal] ?_ rfl ?_ rfl rfl ?_
    · simp [DetectionDaemon.handleNewFlow, hfull]
    · simp [DetectionDaemon.handleNewFlow, BoundedQueue.putNowait_of_room _ hfull]
    · simp [DetectionDaemon.handleNewFlow]

theorem Ordered.enqueue (h : d.Ordered) (flow : FlowRecord) : (d.enqueue flow).Ordered := by
  by_cases hfull : d.flowQueue.Full
  · refine h.arrive [] ?_ rfl ?_ rfl rfl ?_
    · simp [DetectionDaemon.enqueue, hfull]
    · simp [DetectionDaemon.enqueue, signalsOf]
    · simp [DetectionDaemon.enqueue, BoundedQueue.putNowait_of_full _ hfull, flowsOf]
  · refine h.arrive [.inr flow] ?_ rfl ?_ rfl rfl ?_
    · simp [DetectionDaemon.enqueue, hfull]
    · simp [DetectionDaemon.enqueue]
    · simp [DetectionDaemon.enqueue, BoundedQueue.putNowait_of_room _ hfull]

/-- What has been observed only grows. -/
theorem Ordered.observe (h : d.Ordered) {signal : NewFlowSignal} {rest : List NewFlowSignal}
    (hitems : d.newFlowQueue.items = signal :: rest) (harrivals : d'.arrivals = d.arrivals)
    (hobserved : d'.observed = d.observed ++ [signal]) (hsignals : d'.newFlowQueue.items = rest)
    (hprocessed : d'.processed = d.processed) (hflows : d'.flowQueue = d.flowQueue)
    (hpoint : d'.detection = d.detection) (hready : d.detection.ready = []) : d'.Ordered where
  signals := by rw [harrivals, h.signals, hobserved, hsignals, hitems, List.append_assoc, List.singleton_append]
  flows := by rw [harrivals, hprocessed, hpoint, hflows, h.flows]
  ready flow hflow := by
    rw [hpoint, hready] at hflow
    exact absurd hflow List.not_mem_nil
  seen n flow seen hn := by
    rw [hprocessed] at hn
    rw [harrivals, hprocessed, hobserved]
    exact ⟨(h.seen n flow seen hn).1, (h.seen n flow seen hn).2.trans (List.prefix_append _ _)⟩

theorem Ordered.drainSignal (h : d.Ordered) (input : DetectionInput) {reason : DrainFor}
    (hpoint : d.detection = .signals reason) : (d.drainSignal settings input reason).Ordered := by
  unfold DetectionDaemon.drainSignal
  cases hitems : d.newFlowQueue.items with
  | cons signal rest =>
    exact h.observe hitems rfl rfl (by simp [hitems]) rfl rfl rfl (by rw [hpoint]; rfl)
  | nil =>
    have hobserved : signalsOf d.arrivals = d.observed := by rw [h.signals, hitems, List.append_nil]
    have hflows := h.flows
    rw [hpoint] at hflows
    refine ⟨by rw [hitems]; exact hobserved.trans (List.append_nil _).symm, ?_, ?_, h.seen⟩
    · cases reason <;> exact hflows
    · intro flow hflow
      cases reason with
      | turn => exact absurd hflow List.not_mem_nil
      | exit => exact absurd hflow List.not_mem_nil
      | flow taken =>
        obtain rfl := List.mem_singleton.mp hflow
        -- the queue of the signals is empty while the flow is in hand
        have hsees := sees_of_flows hflows
        rw [hobserved] at hsees
        exact hsees

theorem Ordered.drainCluster (h : d.Ordered) (input : DetectionInput) {reason : DrainFor}
    (hpoint : d.detection = .clusters reason) : (d.drainCluster settings input reason).Ordered := by
  unfold DetectionDaemon.drainCluster
  split
  · exact h.congr rfl rfl rfl rfl rfl rfl (List.Subset.refl _)
  · refine h.congr rfl rfl rfl rfl rfl ?_ ?_
    · rw [hpoint]
      cases reason <;> rfl
    · rw [hpoint]
      cases reason <;> exact List.Subset.refl _

theorem Ordered.takeFlow (h : d.Ordered) (hpoint : d.detection = .get) : d.takeFlow.Ordered := by
  have hflows := h.flows
  rw [hpoint] at hflows
  unfold DetectionDaemon.takeFlow
  cases hitems : d.flowQueue.items with
  | nil => exact h.congr rfl rfl rfl rfl rfl (by rw [hpoint]; rfl) (List.nil_subset _)
  | cons flow rest =>
    refine ⟨h.signals, ?_, fun _ hflow => absurd hflow List.not_mem_nil, h.seen⟩
    rw [hitems] at hflows
    simpa [DetectionPoint.taken, hitems] using hflows

theorem Ordered.processFlow (h : d.Ordered) (input : DetectionInput) {flow : FlowRecord}
    (hpoint : d.detection = .process flow) : (d.processFlow settings input flow).Ordered := by
  have hflows := h.flows
  have hready := h.ready flow (by rw [hpoint]; exact List.mem_singleton_self _)
  rw [hpoint] at hflows
  have hdone : ∀ point : DetectionPoint Values, point.taken = [] → point.ready = [] →
      ∀ (pipeline : FlowPipeline Analyzer) (ended : List (FlowRecord × Option DetectionOutcome)),
        Ordered { d with
          pipeline := pipeline
          processed := d.processed ++ [(flow, d.observed)]
          detection := point
          ended := ended } := by
    intro point htaken hnone pipeline ended
    refine ⟨h.signals, ?_, ?_, ?_⟩
    · show flowsOf d.arrivals = (d.processed ++ [(flow, d.observed)]).map Prod.fst ++ (point.taken ++ d.flowQueue.items)
      rw [htaken, hflows, List.map_append, List.append_assoc]
      rfl
    · intro other hother
      rw [show point.ready = [] from hnone] at hother
      exact absurd hother List.not_mem_nil
    · intro n other seen hn
      change (d.processed ++ [(flow, d.observed)])[n]? = _ at hn
      show Sees d.arrivals (((d.processed ++ [(flow, d.observed)]).take n).map Prod.fst) other seen ∧ _
      rcases Nat.lt_or_ge n d.processed.length with hlt | hge
      · rw [List.getElem?_append_left hlt] at hn
        rw [List.take_append_of_le_length hlt.le]
        exact h.seen n other seen hn
      · rw [List.getElem?_append_right hge] at hn
        obtain ⟨hzero, heq⟩ : n - d.processed.length = 0 ∧ (flow, d.observed) = (other, seen) := by
          cases hsub : n - d.processed.length with
          | zero => rw [hsub] at hn; exact ⟨rfl, Option.some.inj hn⟩
          | succ m => rw [hsub] at hn; cases hn
        obtain ⟨rfl, rfl⟩ := Prod.mk.inj heq
        obtain rfl : n = d.processed.length := by omega
        rw [List.take_append_of_le_length le_rfl, List.take_length]
        exact ⟨hready, List.prefix_rfl⟩
  unfold DetectionDaemon.processFlow
  dsimp only
  split
  · exact hdone .top rfl rfl _ _
  · exact hdone (.handOver _) rfl rfl _ _
  · exact hdone (.finish _ _ _) rfl rfl _ _

theorem Ordered.detect (h : d.Ordered) (input : DetectionInput) : (d.detect settings input).Ordered := by
  unfold DetectionDaemon.detect
  cases hpoint : d.detection with
  | top =>
    refine h.congr rfl rfl rfl rfl rfl ?_ ?_
    · rw [hpoint]
      cases d.stopping <;> rfl
    · exact List.nil_subset _
  | signals reason => exact h.drainSignal input hpoint
  | clusters reason => exact h.drainCluster input hpoint
  | get => exact h.takeFlow hpoint
  | process flow => exact h.processFlow input hpoint
  | handOver scoring =>
    refine h.congr rfl rfl rfl rfl rfl ?_ ?_
    · rw [hpoint]
      unfold DetectionDaemon.enqueueAnomalyScoring
      dsimp only
      split <;> rfl
    · unfold DetectionDaemon.enqueueAnomalyScoring
      dsimp only
      split <;> exact List.nil_subset _
  | finish flow now outcome => exact h.congr rfl rfl rfl rfl rfl (by rw [hpoint]; rfl) (List.nil_subset _)
  | exited => exact h

variable (settings limits d) in
/-- The anomaly thread touches neither of the two queues. -/
theorem infer_front (now : Time) (env : Env) (expired : Bool) :
    (d.infer settings limits now env expired).arrivals = d.arrivals ∧
      (d.infer settings limits now env expired).observed = d.observed ∧
      (d.infer settings limits now env expired).newFlowQueue = d.newFlowQueue ∧
      (d.infer settings limits now env expired).processed = d.processed ∧
      (d.infer settings limits now env expired).flowQueue = d.flowQueue ∧
      (d.infer settings limits now env expired).detection = d.detection := by
  unfold infer takeFirst collect collectLeftover
  repeat' split
  all_goals exact ⟨rfl, rfl, rfl, rfl, rfl, rfl⟩

theorem Ordered.step (h : d.Ordered) (action : DaemonAction) : (d.step settings limits action).Ordered := by
  cases action with
  | newFlow signal => exact h.handleNewFlow signal
  | completed flow => exact h.enqueue flow
  | detect input => exact h.detect input
  | infer now env expired =>
    obtain ⟨harrivals, hobserved, hsignals, hprocessed, hflows, hpoint⟩ :=
      infer_front settings limits d now env expired
    exact h.congr harrivals hobserved hsignals hprocessed hflows (congrArg _ hpoint)
      (by rw [show (d.step settings limits (.infer now env expired)).detection = d.detection from hpoint]
          exact List.Subset.refl _)
  | _ => exact h.congr rfl rfl rfl rfl rfl rfl (List.Subset.refl _)

/-- **No flow is processed before the signals that were put before it.** In the order in which the flows were put, each
has, when it is processed, every signal before it observed, and all that are observed have arrived. -/
theorem signals_precede_flow (settings : PipelineSettings Values Analyzer) (limits : DaemonLimits) (analyzer : Analyzer)
    (manager : FirewallManager) (actions : List DaemonAction) (n : Nat) (flow : FlowRecord)
    (seen : List NewFlowSignal)
    (h : (run (step settings limits) (init settings limits analyzer manager) actions).processed[n]? =
      some (flow, seen)) :
    let d := run (step settings limits) (init settings limits analyzer manager) actions
    (∃ before after, d.arrivals = before ++ .inr flow :: after ∧
      flowsOf before = (d.processed.take n).map Prod.fst ∧ signalsOf before <+: seen) ∧
      seen <+: signalsOf d.arrivals := by
  have hordered : (run (step settings limits) (init settings limits analyzer manager) actions).Ordered :=
    List.foldlRecOn actions _ (Ordered.init analyzer manager) fun d hd action _ => hd.step action
  obtain ⟨hsees, hseen⟩ := hordered.seen n flow seen h
  refine ⟨hsees, hseen.trans ?_⟩
  rw [hordered.signals]
  exact List.prefix_append _ _

/-- A pipeline whose only detector is a forest that scores a flow by its bytes. -/
def forestSettings (batched : Bool) : PipelineSettings Nat Unit where
  detectors :=
    { extractFeatures := fun flow => .ok flow.byteCount
      lightgbm := none
      isolationForest := some
        { validates := fun _ => true
          decisionFunction := fun rows => rows.map fun bytes : Nat => 1 / 2 - (bytes : ℚ)
          length_decisionFunction := fun _ => List.length_map _
          modelVersion := "forest"
          featureSchemaVersion := "bytes"
          operatingThreshold := none }
      anomalyScoreThreshold := 0
      observeNewConnection := fun analyzer _ => analyzer
      noteSlowConnections := fun analyzer _ _ => analyzer
      observeCompletion := fun analyzer _ => analyzer
      assess := fun _ _ => none
      assessAt := fun analyzer _ _ => (none, analyzer) }
  threat := defaultThreatConfig
  defaultRuleTtlSeconds := 300
  quoted := fun text => text
  uuid := fun n => String.ofList (List.replicate n 'u')
  batched := batched

/-- The signal of a connection, and the connection. -/
def openedSignal : NewFlowSignal :=
  ⟨3232235786, 3405803786, some 443, .tcp, .firstSecond, none, none⟩

def openedFlow : FlowRecord := ⟨ConnectionStartTracker.attempt 5000, "flow"⟩

/-- Those of another one, of more bytes. -/
def secondSignal : NewFlowSignal := { openedSignal with timestamp := .nextQuarter }

def secondFlow : FlowRecord :=
  ⟨{ ConnectionStartTracker.attempt 5001 with byteCount := 90, forwardByteCount := 90, valid := by decide }, "second"⟩

/-- A turn of the detection thread, at the start of the clock. -/
def turn : DaemonAction := .detect ⟨0, siteEnv 0, none, []⟩

/-- The first connection is processed before the second is opened, with an operator at the manager in between; then
the anomaly thread runs. -/
def interleavedTurns : List DaemonAction :=
  [.newFlow openedSignal, .completed openedFlow] ++ List.replicate 9 turn ++
    [.manage (siteEnv 0, .revertToBase), .newFlow secondSignal, .completed secondFlow] ++ List.replicate 9 turn ++
    List.replicate 7 (.infer 0 (siteEnv 0) false)

/-- Each flow comes after its signal, and is processed when the detection thread has come around. -/
theorem signals_precede_flow_opened :
    let d := run (step (forestSettings true) shippedLimits)
      (init (forestSettings true) shippedLimits () (siteManager .active none)) interleavedTurns
    ((∃ before after, d.arrivals = before ++ .inr openedFlow :: after ∧
      flowsOf before = (d.processed.take 0).map Prod.fst ∧ signalsOf before <+: [openedSignal]) ∧
      [openedSignal] <+: signalsOf d.arrivals) ∧
    (∃ before after, d.arrivals = before ++ .inr secondFlow :: after ∧
      flowsOf before = (d.processed.take 1).map Prod.fst ∧ signalsOf before <+: [openedSignal, secondSignal]) ∧
      [openedSignal, secondSignal] <+: signalsOf d.arrivals :=
  ⟨signals_precede_flow (forestSettings true) shippedLimits () (siteManager .active none) _ 0 openedFlow
      [openedSignal] rfl,
    signals_precede_flow (forestSettings true) shippedLimits () (siteManager .active none) _ 1 secondFlow
      [openedSignal, secondSignal] rfl⟩

/-! ## Every flow once -/

/-- Where the flows are that have been processed. -/
def whereabouts (d : DetectionDaemon Values Analyzer) : Multiset FlowRecord :=
  ↑d.detection.analysed + ↑(d.anomalyQueue.items.map PendingAnomalyScoring.flow) + ↑d.inference.held +
    ↑(d.ended.map Prod.fst)

/-- None of them is lost, and none is there twice. -/
def Accounted (d : DetectionDaemon Values Analyzer) : Prop := ↑(d.processed.map Prod.fst) = d.whereabouts

theorem Accounted.init (analyzer : Analyzer) (manager : FirewallManager) :
    (init settings limits analyzer manager).Accounted := by
  unfold Accounted whereabouts DetectionDaemon.init
  cases settings.detectors.isolationForest <;> rfl

theorem Accounted.congr (h : d.Accounted) (hprocessed : d'.processed = d.processed)
    (hwhere : d'.whereabouts = d.whereabouts) : d'.Accounted := by
  unfold Accounted at h ⊢
  rw [hprocessed, hwhere, h]

/-- A flow that is handed over to be scored is the one that was processed. -/
theorem flow_of_pending {p : FlowPipeline Analyzer} {flow : FlowRecord} {now : Time}
    {signature : Option ProtocolSignatureEvidence} {scoring : PendingAnomalyScoring Values}
    (h : (p.process settings flow now signature).1 = .pending scoring) : scoring.flow = flow := by
  unfold FlowPipeline.process at h
  dsimp only at h
  split at h
  · cases h
  · split at h
    · obtain rfl := Processed.pending.inj h
      rfl
    · cases h

theorem Accounted.processFlow (h : d.Accounted) (input : DetectionInput) {flow : FlowRecord}
    (hpoint : d.detection = .process flow) : (d.processFlow settings input flow).Accounted := by
  unfold Accounted whereabouts at h
  rw [hpoint] at h
  have hone : (↑((d.processed ++ [(flow, d.observed)]).map Prod.fst) : Multiset FlowRecord) =
      ↑(d.processed.map Prod.fst) + {flow} := by
    rw [List.map_append, ← Multiset.coe_add]
    rfl
  unfold DetectionDaemon.processFlow Accounted whereabouts
  dsimp only
  split
  · dsimp only
    rw [hone, h, List.map_append, ← Multiset.coe_add, ← add_assoc]
    rfl
  · rename_i scoring hscoring
    dsimp only
    rw [hone, h, ← flow_of_pending hscoring]
    simp only [DetectionPoint.analysed, DetectionPoint.pending, DetectionPoint.complete, List.map_nil, List.map_cons,
      List.append_nil, Multiset.coe_nil, Multiset.coe_singleton]
    abel
  · dsimp only
    rw [hone, h]
    simp only [DetectionPoint.analysed, DetectionPoint.pending, DetectionPoint.complete, List.map_nil, List.map_cons,
      List.nil_append, Multiset.coe_nil, Multiset.coe_singleton]
    abel

theorem Accounted.enqueueAnomalyScoring (h : d.Accounted) {scoring : PendingAnomalyScoring Values}
    (hpoint : d.detection = .handOver scoring) : (d.enqueueAnomalyScoring scoring).Accounted := by
  refine h.congr rfl ?_
  unfold DetectionDaemon.enqueueAnomalyScoring whereabouts
  dsimp only
  by_cases hfull : d.anomalyQueue.Full
  · rw [if_pos hfull, BoundedQueue.putNowait_of_full _ hfull, hpoint]
    rfl
  · rw [if_neg hfull, BoundedQueue.putNowait_of_room _ hfull, hpoint, List.map_append, ← Multiset.coe_add]
    simp only [DetectionPoint.analysed, DetectionPoint.pending, DetectionPoint.complete, List.map_nil, List.map_cons,
      List.append_nil, Multiset.coe_nil, Multiset.coe_singleton]
    abel

/-- A flow that is finished moves from where it was to the flows that have ended. -/
theorem Accounted.finishFlow (h : d.Accounted) (flow : FlowRecord) (outcome : DetectionOutcome)
    (hprocessed : d'.processed = d.processed)
    (hrest : (↑d'.detection.analysed + ↑d'.inference.held : Multiset FlowRecord) + {flow} =
      ↑d.detection.analysed + ↑d.inference.held)
    (hqueue : d'.anomalyQueue = d.anomalyQueue)
    (hended : d'.ended = d.ended ++ [(flow, some outcome)]) : d'.Accounted := by
  refine h.congr hprocessed ?_
  unfold whereabouts
  rw [hqueue, hended, List.map_append, ← Multiset.coe_add]
  calc _ = (↑d'.detection.analysed + ↑d'.inference.held : Multiset FlowRecord) + {flow} +
        ↑(d.anomalyQueue.items.map PendingAnomalyScoring.flow) + ↑(d.ended.map Prod.fst) := by
          show _ + _ + _ + (_ + ({flow} : Multiset FlowRecord)) = _
          abel
    _ = _ := by
          rw [hrest]
          abel

/-- The detection thread goes from one point to another and has no processed flow in hand at either. -/
theorem Accounted.move (h : d.Accounted) (hprocessed : d'.processed = d.processed)
    (hqueue : d'.anomalyQueue = d.anomalyQueue) (hinference : d'.inference = d.inference)
    (hended : d'.ended = d.ended) (hfrom : d.detection.analysed = []) (hto : d'.detection.analysed = []) :
    d'.Accounted := by
  refine h.congr hprocessed ?_
  unfold whereabouts
  rw [hqueue, hinference, hended, hfrom, hto]

theorem Accounted.drainSignal (h : d.Accounted) (input : DetectionInput) {reason : DrainFor}
    (hpoint : d.detection = .signals reason) : (d.drainSignal settings input reason).Accounted := by
  unfold DetectionDaemon.drainSignal
  cases d.newFlowQueue.items with
  | cons signal rest => exact h.congr rfl rfl
  | nil => exact h.move rfl rfl rfl rfl (by rw [hpoint]; rfl) rfl

theorem Accounted.drainCluster (h : d.Accounted) (input : DetectionInput) {reason : DrainFor}
    (hpoint : d.detection = .clusters reason) : (d.drainCluster settings input reason).Accounted := by
  unfold DetectionDaemon.drainCluster
  cases d.slowClusterQueue.items with
  | cons entry rest => exact h.congr rfl rfl
  | nil => exact h.move rfl rfl rfl rfl (by rw [hpoint]; rfl) (by cases reason <;> rfl)

theorem Accounted.takeFlow (h : d.Accounted) (hpoint : d.detection = .get) : d.takeFlow.Accounted := by
  unfold DetectionDaemon.takeFlow
  cases d.flowQueue.items with
  | cons flow rest => exact h.move rfl rfl rfl rfl (by rw [hpoint]; rfl) rfl
  | nil => exact h.move rfl rfl rfl rfl (by rw [hpoint]; rfl) rfl

theorem Accounted.detect (h : d.Accounted) (input : DetectionInput) : (d.detect settings input).Accounted := by
  unfold DetectionDaemon.detect
  cases hpoint : d.detection with
  | top => exact h.move rfl rfl rfl rfl (by rw [hpoint]; rfl) rfl
  | signals reason => exact h.drainSignal input hpoint
  | clusters reason => exact h.drainCluster input hpoint
  | get => exact h.takeFlow hpoint
  | process flow => exact h.processFlow input hpoint
  | handOver scoring => exact h.enqueueAnomalyScoring hpoint
  | finish flow now outcome =>
    have hrest : (↑([] : List FlowRecord) + ↑d.inference.held : Multiset FlowRecord) + {flow} =
        ↑d.detection.analysed + ↑d.inference.held := by
      rw [hpoint, Multiset.coe_nil, zero_add, add_comm]
      rfl
    exact Accounted.finishFlow h flow outcome rfl hrest rfl rfl
  | exited => exact h

/-- One more is taken from the queue into the batch. -/
theorem Accounted.takeScoring (h : d.Accounted) {batch rest : List (PendingAnomalyScoring Values)}
    {next : PendingAnomalyScoring Values} (hitems : d.anomalyQueue.items = next :: rest)
    (hheld : d.inference.held = batch.map PendingAnomalyScoring.flow) (hprocessed : d'.processed = d.processed)
    (hpoint : d'.detection = d.detection) (hqueue : d'.anomalyQueue = d.anomalyQueue.dropFirst)
    (hheld' : d'.inference.held = (batch ++ [next]).map PendingAnomalyScoring.flow) (hended : d'.ended = d.ended) :
    d'.Accounted := by
  refine h.congr hprocessed ?_
  have hfirst : (↑((next :: rest).map PendingAnomalyScoring.flow) : Multiset FlowRecord) =
      {next.flow} + ↑(rest.map PendingAnomalyScoring.flow) := rfl
  have hlast : (↑((batch ++ [next]).map PendingAnomalyScoring.flow) : Multiset FlowRecord) =
      ↑(batch.map PendingAnomalyScoring.flow) + {next.flow} := by
    rw [List.map_append, ← Multiset.coe_add]
    rfl
  unfold whereabouts
  rw [hpoint, hqueue, hheld, hheld', hended, BoundedQueue.dropFirst_items, hitems, List.tail_cons, hfirst, hlast]
  abel

theorem length_evidences (batch : List (PendingAnomalyScoring Values)) (now : Time) :
    (evidences settings batch now).length = batch.length := by
  unfold evidences
  split
  · exact List.length_map _
  · split
    · exact List.length_map _
    · rename_i model _ _ verdicts hverdicts
      obtain ⟨scores, hscores, rfl⟩ := Option.map_eq_some_iff.mp hverdicts
      unfold IsolationForest.anomalyScoreBatch at hscores
      split_ifs at hscores
      obtain rfl := Option.some.inj hscores
      rw [List.length_map, List.length_zipWith, model.length_decisionFunction]
      simp

theorem Accounted.infer (h : d.Accounted) (now : Time) (env : Env) (expired : Bool) :
    (d.infer settings limits now env expired).Accounted := by
  -- where the thread goes on with the flows it has, nothing moves
  have hpoint_congr : ∀ (point : InferencePoint Values) (pipeline : FlowPipeline Analyzer),
      point.held = d.inference.held → Accounted { d with inference := point, pipeline := pipeline } := by
    intro point pipeline hheld
    refine h.congr rfl ?_
    unfold whereabouts
    rw [show point.held = d.inference.held from hheld]
  unfold DetectionDaemon.infer
  cases hpoint : d.inference with
  | top =>
    refine hpoint_congr _ _ ?_
    rw [hpoint]
    cases d.stopping <;> rfl
  | get =>
    unfold DetectionDaemon.takeFirst
    cases hitems : d.anomalyQueue.items with
    | nil => exact hpoint_congr _ _ (by rw [hpoint]; rfl)
    | cons first rest => 
      have hheld : d.inference.held =
          ([] : List (PendingAnomalyScoring Values)).map PendingAnomalyScoring.flow := by
        rw [hpoint]
        rfl
      -- the first of a batch leaves the queue
      exact h.takeScoring hitems hheld rfl rfl rfl rfl rfl
  | collect batch =>
    have hheld : d.inference.held = batch.map PendingAnomalyScoring.flow := by
      rw [hpoint]
      exact List.append_nil _
    unfold DetectionDaemon.collect
    cases hitems : d.anomalyQueue.items with
    | nil => exact hpoint_congr _ _ (by rw [hpoint]; rfl)
    | cons next rest =>
      dsimp only
      split
      · exact h.takeScoring hitems hheld rfl rfl rfl (List.append_nil _) rfl
      · exact hpoint_congr _ _ (by rw [hpoint]; rfl)
  | leftover batch =>
    have hheld : d.inference.held = batch.map PendingAnomalyScoring.flow := by
      rw [hpoint]
      exact List.append_nil _
    unfold DetectionDaemon.collectLeftover
    cases hitems : d.anomalyQueue.items with
    | nil =>
      refine hpoint_congr _ _ ?_
      rw [hheld]
      split
      · rename_i hnil
        rw [hnil]
        rfl
      · exact List.append_nil _
    | cons next rest => exact h.takeScoring hitems hheld rfl rfl rfl (List.append_nil _) rfl
  | score batch last =>
    refine hpoint_congr _ _ ?_
    rw [hpoint]
    -- each flow of the batch comes out with its score
    have hzip : (batch.zip (evidences settings batch now)).map Prod.fst = batch :=
      List.map_fst_zip (length_evidences batch now).ge
    show [] ++ (batch.zip (evidences settings batch now)).map (PendingAnomalyScoring.flow ∘ Prod.fst) =
      batch.map PendingAnomalyScoring.flow ++ []
    rw [List.nil_append, List.append_nil, ← List.map_map, hzip]
  | finish scored last =>
    cases scored with
    | nil =>
      refine hpoint_congr _ _ ?_
      rw [hpoint]
      cases last <;> rfl
    | cons entry rest =>
      have hheld : (↑d.inference.held : Multiset FlowRecord) =
          {entry.1.flow} + ↑(rest.map fun entry => entry.1.flow) := by
        rw [hpoint]
        rfl
      -- the flow that is finished leaves the hands of the thread for those that ended
      have hrest : (↑d.detection.analysed + ↑(rest.map fun entry => entry.1.flow) : Multiset FlowRecord) +
          {entry.1.flow} = ↑d.detection.analysed + ↑d.inference.held := by
        rw [hheld]
        abel
      exact Accounted.finishFlow h _ _ rfl hrest rfl rfl
  | exited => exact h

theorem Accounted.step (h : d.Accounted) (action : DaemonAction) : (d.step settings limits action).Accounted := by
  cases action with
  | detect input => exact h.detect input
  | infer now env expired => exact h.infer now env expired
  | _ => exact h.congr rfl rfl

/-- The flow that a step puts, or fails to put, into the queue. -/
def completed? : DaemonAction → Option FlowRecord
  | .completed flow => some flow
  | _ => none

variable (settings d) in
/-- The detection thread puts nothing into the queue. -/
theorem detect_offered (input : DetectionInput) :
    (d.detect settings input).flowQueue.refused = d.flowQueue.refused ∧
      (d.detect settings input).arrivals = d.arrivals := by
  unfold DetectionDaemon.detect DetectionDaemon.drainSignal DetectionDaemon.drainCluster DetectionDaemon.takeFlow
    DetectionDaemon.processFlow
  cases d.detection with
  | signals reason => cases d.newFlowQueue.items <;> exact ⟨rfl, rfl⟩
  | clusters reason => cases d.slowClusterQueue.items <;> exact ⟨rfl, rfl⟩
  | get => cases d.flowQueue.items <;> exact ⟨rfl, rfl⟩
  | process flow =>
    dsimp only
    split <;> exact ⟨rfl, rfl⟩
  | _ => exact ⟨rfl, rfl⟩

/-- Every flow put into the queue has been refused or has arrived. -/
theorem step_offered (d : DetectionDaemon Values Analyzer) (action : DaemonAction) :
    (↑(d.step settings limits action).flowQueue.refused + ↑(flowsOf (d.step settings limits action).arrivals) :
      Multiset FlowRecord) = ↑d.flowQueue.refused + ↑(flowsOf d.arrivals) + ↑(completed? action).toList := by
  cases action with
  | completed flow =>
    show (↑(d.flowQueue.putNowait flow).refused +
      ↑(flowsOf (if d.flowQueue.Full then d.arrivals else d.arrivals ++ [.inr flow])) : Multiset FlowRecord) =
        ↑d.flowQueue.refused + ↑(flowsOf d.arrivals) + {flow}
    by_cases hfull : d.flowQueue.Full
    · rw [BoundedQueue.putNowait_of_full _ hfull, if_pos hfull, ← Multiset.coe_add]
      show _ + ({flow} : Multiset FlowRecord) + _ = _
      abel
    · rw [BoundedQueue.putNowait_of_room _ hfull, if_neg hfull, flowsOf_append, ← Multiset.coe_add, flowsOf_flow,
        ← add_assoc]
      rfl
  | newFlow signal =>
    show (↑d.flowQueue.refused +
      ↑(flowsOf (if d.newFlowQueue.Full then d.arrivals else d.arrivals ++ [.inl signal])) : Multiset FlowRecord) =
        ↑d.flowQueue.refused + ↑(flowsOf d.arrivals) + 0
    rw [add_zero]
    split
    · rfl
    · rw [flowsOf_append, flowsOf_signal, List.append_nil]
  | detect input =>
    obtain ⟨hrefused, harrivals⟩ := detect_offered settings d input
    show (↑(d.detect settings input).flowQueue.refused + ↑(flowsOf (d.detect settings input).arrivals) :
      Multiset FlowRecord) = ↑d.flowQueue.refused + ↑(flowsOf d.arrivals) + 0
    rw [hrefused, harrivals, add_zero]
  | infer now env expired =>
    obtain ⟨harrivals, -, -, -, hflows, -⟩ := infer_front settings limits d now env expired
    show (↑(d.infer settings limits now env expired).flowQueue.refused +
      ↑(flowsOf (d.infer settings limits now env expired).arrivals) : Multiset FlowRecord) =
        ↑d.flowQueue.refused + ↑(flowsOf d.arrivals) + 0
    rw [hflows, harrivals, add_zero]
  | _ => exact (add_zero _).symm

theorem run_offered (d : DetectionDaemon Values Analyzer) (actions : List DaemonAction) :
    (↑(run (step settings limits) d actions).flowQueue.refused +
      ↑(flowsOf (run (step settings limits) d actions).arrivals) : Multiset FlowRecord) =
        ↑d.flowQueue.refused + ↑(flowsOf d.arrivals) + ↑(actions.filterMap completed?) := by
  induction actions generalizing d with
  | nil => exact (add_zero _).symm
  | cons action actions ih =>
    have hmore : (↑((action :: actions).filterMap completed?) : Multiset FlowRecord) =
        ↑(completed? action).toList + ↑(actions.filterMap completed?) := by
      rw [List.filterMap_cons]
      cases completed? action <;> rfl
    rw [run_cons, ih, step_offered, hmore, add_assoc]

/-- **Every flow is in one place.** Of the flows that were put into the queue, each one was refused, waits in a queue,
is in one thread's hands or has ended, as often as it was put. What the queue before the model refuses is not lost. -/
theorem each_flow_in_one_place (settings : PipelineSettings Values Analyzer) (limits : DaemonLimits)
    (analyzer : Analyzer) (manager : FirewallManager) (actions : List DaemonAction) :
    let d := run (step settings limits) (init settings limits analyzer manager) actions
    (↑(actions.filterMap completed?) : Multiset FlowRecord) =
      ↑d.flowQueue.refused + ↑d.flowQueue.items + ↑d.detection.taken + ↑d.detection.analysed +
        ↑(d.anomalyQueue.items.map PendingAnomalyScoring.flow) + ↑d.inference.held + ↑(d.ended.map Prod.fst) := by
  intro d
  have haccounted : d.Accounted :=
    List.foldlRecOn actions _ (Accounted.init analyzer manager) fun d hd action _ => hd.step action
  have hordered : d.Ordered :=
    List.foldlRecOn actions _ (Ordered.init analyzer manager) fun d hd action _ => hd.step action
  have hoffered : (↑(actions.filterMap completed?) : Multiset FlowRecord) =
      ↑d.flowQueue.refused + ↑(flowsOf d.arrivals) := by
    rw [run_offered]
    exact (zero_add _).symm
  have hflows : (↑(flowsOf d.arrivals) : Multiset FlowRecord) =
      d.whereabouts + (↑d.detection.taken + ↑d.flowQueue.items) := by
    rw [hordered.flows, ← Multiset.coe_add, ← Multiset.coe_add, haccounted]
  rw [hoffered, hflows, whereabouts]
  abel

/-! ## Scores of flows -/

variable (settings) in
/-- The threshold a score is held against. A batch takes the configured one, whatever the model was made with. -/
def scoreThreshold (model : IsolationForest Values) : ℚ :=
  if settings.batched then settings.detectors.anomalyScoreThreshold
  else model.operatingThreshold.getD settings.detectors.anomalyScoreThreshold

variable (settings) in
/-- What the model finds out about the flow from the flow's own features. -/
def ScoreOf (flow : FlowRecord) (anomaly : ScoredAnomaly) : Prop :=
  ∃ model values now, settings.detectors.isolationForest = some model ∧
    settings.detectors.extractFeatures flow.toFlow = .ok values ∧ inModelDomain flow.toFlow = true ∧
    model.detect ⟨flow.flowId, values⟩ (scoreThreshold settings model) now = some anomaly

variable (settings) in
/-- The evidence is the flow's. -/
structure Attested (flow : FlowRecord) (outcome : DetectionOutcome) : Prop where
  flowId : outcome.record.flowId = flow.flowId
  score : ∀ anomaly, outcome.record.anomaly = some anomaly → ScoreOf settings flow anomaly

variable (settings) in
/-- What is handed over to be scored is a flow in the model's domain with its features, and all but the score. -/
structure Scorable (scoring : PendingAnomalyScoring Values) : Prop where
  batched : settings.batched = true
  domain : inModelDomain scoring.flow.toFlow = true
  features : settings.detectors.extractFeatures scoring.flow.toFlow = .ok scoring.features.values
  featuresOf : scoring.features.flowId = scoring.flow.flowId
  flowId : scoring.outcome.record.flowId = scoring.flow.flowId
  unscored : scoring.outcome.record.anomaly = none

theorem Scorable.attested {scoring : PendingAnomalyScoring Values} (h : Scorable settings scoring) :
    Attested settings scoring.flow scoring.outcome where
  flowId := h.flowId
  score anomaly hanomaly := by
    rw [h.unscored] at hanomaly
    cases hanomaly

/-- The score is put where there was none. -/
theorem Scorable.attested_with {scoring : PendingAnomalyScoring Values} (h : Scorable settings scoring)
    {score : Option ScoredAnomaly} (hscore : ∀ anomaly, score = some anomaly → ScoreOf settings scoring.flow anomaly) :
    Attested settings scoring.flow (withAnomalyEvidence scoring.outcome score) where
  flowId := h.flowId
  score := hscore

/-- A flow fails only where its features cannot be extracted. -/
theorem process_failed {p : FlowPipeline Analyzer} {flow : FlowRecord} {now : Time}
    {signature : Option ProtocolSignatureEvidence}
    (h : (p.process settings flow now signature).1 = (.failed : Processed Values)) :
    ∃ e, settings.detectors.extractFeatures flow.toFlow = .error e := by
  unfold FlowPipeline.process at h
  dsimp only at h
  split at h
  · rename_i e he
    exact ⟨e, he⟩
  · split at h <;> cases h

theorem process_pending {p : FlowPipeline Analyzer} {flow : FlowRecord} {now : Time}
    {signature : Option ProtocolSignatureEvidence} {scoring : PendingAnomalyScoring Values}
    (h : (p.process settings flow now signature).1 = .pending scoring) : Scorable settings scoring := by
  unfold FlowPipeline.process at h
  dsimp only at h
  split at h
  · cases h
  · rename_i values hvalues
    split at h
    · rename_i hbatched
      rw [Bool.and_eq_true, Bool.and_eq_true] at hbatched
      obtain rfl := Processed.pending.inj h
      exact ⟨hbatched.1.1, hbatched.2, hvalues, rfl, rfl, rfl⟩
    · cases h

/-- A model that is asked about a flow alone is asked with the threshold of its own. -/
theorem detectAnomaly_cases {p : FlowPipeline Analyzer} {features : FeatureVector Values} {now : Time}
    {anomaly : ScoredAnomaly} (h : (p.detectAnomaly settings features now).1 = some anomaly) :
    ∃ model, settings.detectors.isolationForest = some model ∧
      model.detect features (model.operatingThreshold.getD settings.detectors.anomalyScoreThreshold) now =
        some anomaly := by
  unfold FlowPipeline.detectAnomaly at h
  split at h
  · cases h
  · rename_i model hmodel
    refine ⟨model, hmodel, ?_⟩
    split at h
    · rename_i found hfound
      obtain rfl := Option.some.inj h
      exact hfound
    · cases h

theorem process_complete {p : FlowPipeline Analyzer} {flow : FlowRecord} {now : Time}
    {signature : Option ProtocolSignatureEvidence} {outcome : DetectionOutcome}
    (h : (p.process settings flow now signature).1 = (.complete outcome : Processed Values)) :
    Attested settings flow outcome := by
  unfold FlowPipeline.process at h
  dsimp only at h
  split at h
  · cases h
  · rename_i values hvalues
    split at h
    · cases h
    · rename_i hinline
      obtain rfl := Processed.complete.inj h
      refine ⟨rfl, fun anomaly hanomaly => ?_⟩
      unfold FlowPipeline.analyze at hanomaly
      dsimp only [withAnomalyEvidence] at hanomaly
      by_cases hdomain : inModelDomain flow.toFlow = true
      · rw [if_pos hdomain] at hanomaly
        obtain ⟨model, hmodel, hdetect⟩ := detectAnomaly_cases hanomaly
        have hthreshold : scoreThreshold settings model =
            model.operatingThreshold.getD settings.detectors.anomalyScoreThreshold := by
          refine if_neg fun hbatched => hinline ?_
          rw [hbatched, hmodel, hdomain]
          rfl
        rw [← hthreshold] at hdetect
        exact ⟨model, values, now, hmodel, hvalues, hdomain, hdetect⟩
      · rw [if_neg hdomain] at hanomaly
        cases hanomaly

/-- A batch that scores row by row scores each flow as if it were alone. -/
theorem scoreOf_evidences (hrows : ∀ model, settings.detectors.isolationForest = some model → model.RowWise)
    {batch : List (PendingAnomalyScoring Values)} (hbatch : ∀ scoring ∈ batch, Scorable settings scoring) {now : Time}
    {scoring : PendingAnomalyScoring Values} {anomaly : ScoredAnomaly}
    (h : (scoring, some anomaly) ∈ batch.zip (evidences settings batch now)) :
    ScoreOf settings scoring.flow anomaly := by
  have hscorable : Scorable settings scoring := hbatch scoring (List.of_mem_zip h).1
  unfold evidences at h
  split at h
  · rw [List.zip_map_right] at h
    simp at h
  · rename_i model hmodel
    split at h
    · rw [List.zip_map_right] at h
      simp at h
    · rename_i verdicts hverdicts
      have hzip : batch.zip (verdicts.map some) = batch.map fun scoring =>
          (scoring, model.detect scoring.features settings.detectors.anomalyScoreThreshold now) := by
        rw [← model.detectBatch_eq (hrows model hmodel) hverdicts, List.map_map, ← List.zip_map', List.map_id']
        rfl
      rw [hzip] at h
      obtain ⟨_, -, heq⟩ := List.mem_map.mp h
      obtain ⟨rfl, hdetect⟩ := Prod.mk.inj heq
      refine ⟨model, _, now, hmodel, hscorable.features, hscorable.domain, ?_⟩
      rw [scoreThreshold, if_pos hscorable.batched, ← hscorable.featuresOf]
      exact hdetect

variable (settings) in
/-- What holds of a flow that is handed over to be scored (`Handed`) and of one that has its evidence (`Has`), however
it came by it. -/
structure Upholds (Handed : PendingAnomalyScoring Values → Prop) (Has : FlowRecord → DetectionOutcome → Prop) :
    Prop where
  pending : ∀ (p : FlowPipeline Analyzer) flow now signature scoring,
    (p.process settings flow now signature).1 = .pending scoring → Handed scoring
  complete : ∀ (p : FlowPipeline Analyzer) flow now signature outcome,
    (p.process settings flow now signature).1 = (.complete outcome : Processed Values) → Has flow outcome
  unscored : ∀ scoring, Handed scoring → Has scoring.flow scoring.outcome
  scored : ∀ (batch : List (PendingAnomalyScoring Values)) now, (∀ scoring ∈ batch, Handed scoring) →
    ∀ entry ∈ batch.zip (evidences settings batch now),
    Has entry.1.flow (withAnomalyEvidence entry.1.outcome entry.2)

/-- Everything that waits to be scored. -/
def scorings (d : DetectionDaemon Values Analyzer) : List (PendingAnomalyScoring Values) :=
  d.detection.pending ++ d.anomalyQueue.items ++ d.inference.pending

variable {Handed : PendingAnomalyScoring Values → Prop} {Has : FlowRecord → DetectionOutcome → Prop}

variable (settings Handed Has) in
/-- Wherever evidence is on its way, `Handed` or `Has` holds of it. -/
structure Attests (d : DetectionDaemon Values Analyzer) : Prop where
  pending : ∀ scoring ∈ d.scorings, Handed scoring
  scored : ∀ entry ∈ d.inference.scored, Has entry.1.flow (withAnomalyEvidence entry.1.outcome entry.2)
  complete : ∀ entry ∈ d.detection.complete, Has entry.1 entry.2
  failed : ∀ flow, (flow, none) ∈ d.ended → ∃ e, settings.detectors.extractFeatures flow.toFlow = .error e
  ended : ∀ flow outcome, (flow, some outcome) ∈ d.ended → Has flow outcome

theorem Attests.init (analyzer : Analyzer) (manager : FirewallManager) :
    (init settings limits analyzer manager).Attests settings Handed Has := by
  have hpending : (DetectionDaemon.init settings limits analyzer manager).scorings = [] := by
    unfold scorings DetectionDaemon.init
    cases settings.detectors.isolationForest <;> rfl
  have hscored : (DetectionDaemon.init settings limits analyzer manager).inference.scored = [] := by
    unfold DetectionDaemon.init
    cases settings.detectors.isolationForest <;> rfl
  refine ⟨?_, ?_, ?_, ?_, ?_⟩
  · rw [hpending]
    exact fun _ h => absurd h List.not_mem_nil
  · rw [hscored]
    exact fun _ h => absurd h List.not_mem_nil
  · exact fun _ h => absurd h List.not_mem_nil
  · exact fun _ h => absurd h List.not_mem_nil
  · exact fun _ _ h => absurd h List.not_mem_nil

/-- What is on its way only moves. -/
theorem Attests.congr (h : d.Attests settings Handed Has) (hpending : d'.scorings ⊆ d.scorings)
    (hscored : d'.inference.scored ⊆ d.inference.scored) (hcomplete : d'.detection.complete ⊆ d.detection.complete)
    (hended : d'.ended = d.ended) : d'.Attests settings Handed Has where
  pending scoring hscoring := h.pending scoring (hpending hscoring)
  scored entry hentry := h.scored entry (hscored hentry)
  complete entry hentry := h.complete entry (hcomplete hentry)
  failed := by
    rw [hended]
    exact h.failed
  ended := by
    rw [hended]
    exact h.ended

/-- A flow ends with its evidence. -/
theorem Attests.finishFlow (h : d.Attests settings Handed Has) {flow : FlowRecord} {outcome : DetectionOutcome}
    (hattested : Has flow outcome) (hpending : d'.scorings ⊆ d.scorings)
    (hscored : d'.inference.scored ⊆ d.inference.scored) (hcomplete : d'.detection.complete ⊆ d.detection.complete)
    (hended : d'.ended = d.ended ++ [(flow, some outcome)]) : d'.Attests settings Handed Has where
  pending scoring hscoring := h.pending scoring (hpending hscoring)
  scored entry hentry := h.scored entry (hscored hentry)
  complete entry hentry := h.complete entry (hcomplete hentry)
  failed other hother := by
    rw [hended, List.mem_append, List.mem_singleton] at hother
    rcases hother with hother | hother
    · exact h.failed other hother
    · cases hother
  ended other found hother := by
    rw [hended, List.mem_append, List.mem_singleton] at hother
    rcases hother with hother | hother
    · exact h.ended other found hother
    · cases hother
      exact hattested

theorem Attests.processFlow (hup : Upholds settings Handed Has) (h : d.Attests settings Handed Has)
    (input : DetectionInput) {flow : FlowRecord}
    (hpoint : d.detection = .process flow) : (d.processFlow settings input flow).Attests settings Handed Has := by
  have hpending : ∀ scoring ∈ d.anomalyQueue.items ++ d.inference.pending, Handed scoring := by
    have hall := h.pending
    unfold scorings at hall
    rw [hpoint] at hall
    exact hall
  unfold DetectionDaemon.processFlow
  dsimp only
  split
  · rename_i hfailed
    refine ⟨hpending, h.scored, fun _ hentry => absurd hentry List.not_mem_nil, ?_, ?_⟩
    · intro other hother
      rcases List.mem_append.mp hother with hother | hother
      · exact h.failed other hother
      · obtain rfl := (Prod.mk.inj (List.mem_singleton.mp hother)).1
        exact process_failed hfailed
    · intro other found hother
      rcases List.mem_append.mp hother with hother | hother
      · exact h.ended other found hother
      · cases (Prod.mk.inj (List.mem_singleton.mp hother)).2
  · rename_i scoring hscoring
    refine ⟨?_, h.scored, fun _ hentry => absurd hentry List.not_mem_nil, h.failed, h.ended⟩
    intro other hother
    rcases List.mem_cons.mp hother with rfl | hother
    · exact hup.pending _ _ _ _ _ hscoring
    · exact hpending other hother
  · rename_i outcome houtcome
    refine ⟨hpending, h.scored, fun entry hentry => ?_, h.failed, h.ended⟩
    obtain rfl := List.mem_singleton.mp hentry
    exact hup.complete _ _ _ _ _ houtcome

/-- The detection thread goes to a point where it has no processed flow in hand. -/
theorem Attests.move (h : d.Attests settings Handed Has) (hqueue : d'.anomalyQueue = d.anomalyQueue)
    (hinference : d'.inference = d.inference) (hended : d'.ended = d.ended) (hpending : d'.detection.pending = [])
    (hcomplete : d'.detection.complete = []) : d'.Attests settings Handed Has := by
  refine h.congr ?_ ?_ ?_ hended
  · unfold scorings
    rw [hqueue, hinference, hpending, List.nil_append, List.append_assoc]
    exact List.subset_append_right _ _
  · rw [hinference]
    exact List.Subset.refl _
  · rw [hcomplete]
    exact List.nil_subset _

theorem Attests.enqueueAnomalyScoring (hup : Upholds settings Handed Has) (h : d.Attests settings Handed Has)
    {scoring : PendingAnomalyScoring Values}
    (hpoint : d.detection = .handOver scoring) : (d.enqueueAnomalyScoring scoring).Attests settings Handed Has := by
  have hpending := h.pending
  unfold scorings at hpending
  rw [hpoint] at hpending
  have hhanded : Handed scoring := hpending scoring List.mem_cons_self
  unfold DetectionDaemon.enqueueAnomalyScoring
  by_cases hfull : d.anomalyQueue.Full
  · rw [if_pos hfull, BoundedQueue.putNowait_of_full _ hfull]
    refine ⟨fun other hother => hpending other (List.mem_cons_of_mem _ hother), h.scored, fun entry hentry => ?_,
      h.failed, h.ended⟩
    obtain rfl := List.mem_singleton.mp hentry
    exact hup.unscored scoring hhanded
  · rw [if_neg hfull, BoundedQueue.putNowait_of_room _ hfull]
    refine ⟨fun other hother => hpending other ?_, h.scored, fun _ hentry => absurd hentry List.not_mem_nil, h.failed,
      h.ended⟩
    simp only [scorings, DetectionPoint.pending, List.nil_append, List.append_assoc, List.mem_append,
      List.mem_cons, List.not_mem_nil, or_false] at hother ⊢
    tauto

theorem Attests.detect (hup : Upholds settings Handed Has) (h : d.Attests settings Handed Has)
    (input : DetectionInput) : (d.detect settings input).Attests settings Handed Has := by
  unfold DetectionDaemon.detect
  cases hpoint : d.detection with
  | top => exact h.move rfl rfl rfl rfl rfl
  | signals reason =>
    unfold DetectionDaemon.drainSignal
    cases d.newFlowQueue.items with
    | cons signal rest => exact h.congr (List.Subset.refl _) (List.Subset.refl _) (List.Subset.refl _) rfl
    | nil => exact h.move rfl rfl rfl rfl rfl
  | clusters reason =>
    unfold DetectionDaemon.drainCluster
    cases d.slowClusterQueue.items with
    | cons entry rest => exact h.congr (List.Subset.refl _) (List.Subset.refl _) (List.Subset.refl _) rfl
    | nil => exact h.move rfl rfl rfl (by cases reason <;> rfl) (by cases reason <;> rfl)
  | get =>
    unfold DetectionDaemon.takeFlow
    cases d.flowQueue.items with
    | cons flow rest => exact h.move rfl rfl rfl rfl rfl
    | nil => exact h.move rfl rfl rfl rfl rfl
  | process flow => exact h.processFlow hup input hpoint
  | handOver scoring => exact h.enqueueAnomalyScoring hup hpoint
  | finish flow now outcome =>
    have hattested : Has flow outcome :=
      h.complete (flow, outcome) (by rw [hpoint]; exact List.mem_singleton_self _)
    refine h.finishFlow hattested ?_ (List.Subset.refl _) (List.nil_subset _) rfl
    unfold scorings
    rw [hpoint]
    exact List.Subset.refl _
  | exited => exact h

/-- The anomaly thread takes from the queue what it then has in its hands. -/
theorem Attests.take (h : d.Attests settings Handed Has) (hpoint : d'.detection = d.detection)
    (hended : d'.ended = d.ended)
    (hpending : d'.anomalyQueue.items ++ d'.inference.pending ⊆ d.anomalyQueue.items ++ d.inference.pending)
    (hscored : d'.inference.scored = []) : d'.Attests settings Handed Has := by
  refine h.congr ?_ ?_ ?_ hended
  · unfold scorings
    rw [hpoint, List.append_assoc, List.append_assoc]
    exact List.append_subset.mpr ⟨List.subset_append_left _ _, List.subset_append_of_subset_right _ hpending⟩
  · rw [hscored]
    exact List.nil_subset _
  · rw [hpoint]
    exact List.Subset.refl _

theorem Attests.takeScoring (h : d.Attests settings Handed Has) {batch rest : List (PendingAnomalyScoring Values)}
    {next : PendingAnomalyScoring Values} (hitems : d.anomalyQueue.items = next :: rest)
    (hheld : d.inference.pending = batch) (hpoint : d'.detection = d.detection) (hended : d'.ended = d.ended)
    (hqueue : d'.anomalyQueue = d.anomalyQueue.dropFirst) (hheld' : d'.inference.pending = batch ++ [next])
    (hscored : d'.inference.scored = []) : d'.Attests settings Handed Has := by
  refine h.take hpoint hended (fun scoring hscoring => ?_) hscored
  rw [hqueue, hheld', BoundedQueue.dropFirst_items, hitems, List.tail_cons] at hscoring
  rw [hitems, hheld]
  simp only [List.mem_append, List.mem_cons, List.not_mem_nil, or_false] at hscoring ⊢
  tauto

theorem Attests.scoreBatch (hup : Upholds settings Handed Has)
    (h : d.Attests settings Handed Has) (now : Time) {batch : List (PendingAnomalyScoring Values)} {last : Bool}
    (hpoint : d.inference = .score batch last) :
    (d.scoreBatch settings now batch last).Attests settings Handed Has := by
  have hbatch : ∀ scoring ∈ batch, Handed scoring := by
    intro scoring hscoring
    refine h.pending scoring (List.mem_append_right _ ?_)
    rw [hpoint]
    exact hscoring
  refine ⟨fun scoring hscoring => h.pending scoring ?_, ?_, h.complete, h.failed, h.ended⟩
  · rcases List.mem_append.mp hscoring with hscoring | hscoring
    · exact List.mem_append_left _ hscoring
    · exact absurd hscoring List.not_mem_nil
  · exact hup.scored batch now hbatch

theorem Attests.infer (hup : Upholds settings Handed Has) (h : d.Attests settings Handed Has) (now : Time) (env : Env)
    (expired : Bool) : (d.infer settings limits now env expired).Attests settings Handed Has := by
  unfold DetectionDaemon.infer
  cases hpoint : d.inference with
  | top =>
    refine h.take rfl rfl ?_ (by cases d.stopping <;> rfl)
    rw [hpoint]
    cases d.stopping <;> exact List.Subset.refl _
  | get =>
    unfold DetectionDaemon.takeFirst
    cases hitems : d.anomalyQueue.items with
    | nil => exact h.take rfl rfl (by rw [hitems, hpoint]; exact List.Subset.refl _) rfl
    | cons first rest =>
      have hheld : d.inference.pending = [] := by
        rw [hpoint]
        rfl
      exact h.takeScoring hitems hheld rfl rfl rfl rfl rfl
  | collect batch =>
    unfold DetectionDaemon.collect
    cases hitems : d.anomalyQueue.items with
    | nil => exact h.take rfl rfl (by rw [hpoint]; exact List.Subset.refl _) rfl
    | cons next rest =>
      dsimp only
      split
      · exact h.takeScoring hitems (by rw [hpoint]; rfl) rfl rfl rfl rfl rfl
      · exact h.take rfl rfl (by rw [hpoint]; exact List.Subset.refl _) rfl
  | leftover batch =>
    unfold DetectionDaemon.collectLeftover
    cases hitems : d.anomalyQueue.items with
    | nil =>
      dsimp only
      split
      · exact h.take rfl rfl (List.append_subset.mpr ⟨List.subset_append_left _ _, List.nil_subset _⟩) rfl
      · exact h.take rfl rfl (by rw [hpoint]; exact List.Subset.refl _) rfl
    | cons next rest => exact h.takeScoring hitems (by rw [hpoint]; rfl) rfl rfl rfl rfl rfl
  | score batch last => exact h.scoreBatch hup now hpoint
  | finish scored last =>
    have hscored := h.scored
    rw [hpoint] at hscored
    cases scored with
    | nil =>
      refine h.take rfl rfl ?_ (by cases last <;> rfl)
      rw [hpoint]
      cases last <;> exact List.Subset.refl _
    | cons entry rest =>
      -- the flow that is finished has the score which was paired with it
      refine h.finishFlow (hscored entry List.mem_cons_self) ?_ ?_ (List.Subset.refl _) rfl
      · unfold scorings
        rw [hpoint]
        exact List.Subset.refl _
      · rw [hpoint]
        exact List.subset_cons_self _ _
  | exited => exact h

theorem Attests.step (hup : Upholds settings Handed Has) (h : d.Attests settings Handed Has) (action : DaemonAction) :
    (d.step settings limits action).Attests settings Handed Has := by
  cases action with
  | detect input => exact h.detect hup input
  | infer now env expired => exact h.infer hup now env expired
  | _ => exact h.congr (List.Subset.refl _) (List.Subset.refl _) (List.Subset.refl _) rfl

theorem Attests.run (hup : Upholds settings Handed Has) (analyzer : Analyzer) (manager : FirewallManager)
    (actions : List DaemonAction) :
    (Lib.run (DetectionDaemon.step settings limits) (DetectionDaemon.init settings limits analyzer manager)
      actions).Attests settings Handed Has :=
  List.foldlRecOn actions _ (Attests.init analyzer manager) fun _ hd action _ => hd.step hup action

/-- With a model that scores row by row, evidence on its way is the flow's own. -/
theorem upholds_attested (hrows : ∀ model, settings.detectors.isolationForest = some model → model.RowWise) :
    Upholds settings (Scorable settings) (Attested settings) where
  pending _ _ _ _ _ := process_pending
  complete _ _ _ _ _ := process_complete
  unscored _ := Scorable.attested
  scored batch now hbatch := by
    rintro ⟨scoring, score⟩ hentry
    refine (hbatch scoring (List.of_mem_zip hentry).1).attested_with fun anomaly hanomaly => ?_
    obtain rfl : score = some anomaly := hanomaly
    exact scoreOf_evidences hrows hbatch hentry

/-- **A flow ends with evidence of its own.** Whatever the threads do, a flow ends with no outcome only where its
features cannot be extracted; any other outcome bears its id, and the score in it is what the model finds out about
that flow's features alone, also if it came with a batch of others. -/
theorem flow_ends_with_own_evidence (settings : PipelineSettings Values Analyzer) (limits : DaemonLimits)
    (hrows : ∀ model, settings.detectors.isolationForest = some model → model.RowWise) (analyzer : Analyzer)
    (manager : FirewallManager) (actions : List DaemonAction) (flow : FlowRecord) (found : Option DetectionOutcome)
    (h : (flow, found) ∈ (run (step settings limits) (init settings limits analyzer manager) actions).ended) :
    (found = none → ∃ e, settings.detectors.extractFeatures flow.toFlow = .error e) ∧
      ∀ outcome, found = some outcome →
        outcome.record.flowId = flow.flowId ∧
          ∀ anomaly, outcome.record.anomaly = some anomaly →
            ∃ model values now, settings.detectors.isolationForest = some model ∧
              settings.detectors.extractFeatures flow.toFlow = .ok values ∧ inModelDomain flow.toFlow = true ∧
              model.detect ⟨flow.flowId, values⟩ (scoreThreshold settings model) now = some anomaly := by
  have hattests : (run (step settings limits) (init settings limits analyzer manager) actions).Attests settings
      (Scorable settings) (Attested settings) := Attests.run (upholds_attested hrows) analyzer manager actions
  refine ⟨fun hfound => hattests.failed flow (hfound ▸ h), fun outcome hfound => ?_⟩
  have hattested := hattests.ended flow outcome (hfound ▸ h)
  exact ⟨hattested.flowId, hattested.score⟩

/-- Both flows go to the anomaly thread and come out of one batch, each with a score of its own. -/
theorem flow_ends_with_own_evidence_batched :
    let d := run (step (forestSettings true) shippedLimits)
      (init (forestSettings true) shippedLimits () (siteManager .active none)) interleavedTurns
    (d.ended.map fun entry =>
        (entry.1.flowId, entry.2.map fun outcome => outcome.record.anomaly.map fun anomaly => anomaly.anomalyScore)) =
      [("flow", some (some (-119 / 2))), ("second", some (some (-179 / 2)))] ∧
    ∀ flow outcome anomaly, (flow, some outcome) ∈ d.ended → outcome.record.anomaly = some anomaly →
      ∃ model values now, (forestSettings true).detectors.isolationForest = some model ∧
        (forestSettings true).detectors.extractFeatures flow.toFlow = .ok values ∧
        inModelDomain flow.toFlow = true ∧
        model.detect ⟨flow.flowId, values⟩ (scoreThreshold (forestSettings true) model) now = some anomaly := by
  intro d
  have hrows : ∀ model, (forestSettings true).detectors.isolationForest = some model → model.RowWise := by
    intro model hmodel rows
    obtain rfl := Option.some.inj hmodel
    induction rows with
    | nil => rfl
    | cons row rows ih => exact congrArg _ ih
  refine ⟨by decide +kernel, fun flow outcome anomaly hended hanomaly => ?_⟩
  have hown := flow_ends_with_own_evidence (forestSettings true) shippedLimits hrows () (siteManager .active none)
    interleavedTurns flow (some outcome) hended
  exact (hown.2 outcome rfl).2 anomaly hanomaly

end DetectionDaemon

end Engine

end Pirewall
