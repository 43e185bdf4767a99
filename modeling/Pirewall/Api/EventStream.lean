/-
# Pirewall.Api.EventStream -- the live events of the control panel

The core keeps the last events in a bounded history, and nobody can subscribe to it. So the stream of a connected panel
polls: it fetches the whole history, forwards what it did not see at the poll before, and writes each as one
server-sent message. The core may be gone at a poll, or be back with an empty history.

`EventStream.step` is the core and one stream together. `Subscription` says what that should come to, with everything
that was ever recorded at hand: a poll brings what has been recorded since the last one, as far as the history holds it.
-/
import Mathlib.Data.List.DropRight
import Pirewall.Lib.EventSource
import Pirewall.Lib.JsonValue
import Pirewall.Lib.Run

namespace Pirewall.Api

open Lib

/-! ## Frames -/

/-- A `SecurityEvent`, as far as the stream looks at it: its id, and its `model_dump(mode="json")`. -/
structure EventView where
  id : String
  modelDump : JsonValue

/-- `_sse`. -/
def sse (name : String) (payload : JsonValue) : List Char :=
  "event: ".toList ++ name.toList ++ "\ndata: ".toList ++ payload.dumps ++ "\n\n".toList

/-- `_EVENT_NAME`. -/
def eventName : String := "security_event"

/-- `_ERROR_NAME`. -/
def errorName : String := "error"

/-- What the stream says when the core does not answer, from what was raised. -/
def errorPayload (exc : List CodePoint) : JsonValue :=
  .object [(codePoints "detail", .string (codePoints "pirewall-core is unreachable: " ++ exc))]

/-- What `event_source` yields. -/
inductive Frame where
  | event (e : EventView)
  | error (exc : List CodePoint)
  | keepAlive

namespace Frame

def text : Frame → List Char
  | event e => sse eventName e.modelDump
  | error exc => sse errorName (errorPayload exc)
  | keepAlive => ": keep-alive\n\n".toList

/-- The message that a frame is to its reader. -/
def message? : Frame → Option Message
  | event e => some ⟨eventName.toList, e.modelDump.dumps⟩
  | error exc => some ⟨errorName.toList, (errorPayload exc).dumps⟩
  | keepAlive => none

/-- The event in a frame. -/
def event? : Frame → Option EventView
  | event e => some e
  | _ => none

end Frame

/-- `json.dumps` writes one line. -/
theorem oneLine_dumps (payload : JsonValue) : Source.OneLine payload.dumps := by
  intro c hc
  have hprintable := payload.printable_dumps c hc
  refine ⟨fun heq => ?_, fun heq => ?_⟩
  · rw [heq] at hprintable
    exact absurd hprintable (by decide)
  · rw [heq] at hprintable
    exact absurd hprintable (by decide)

/-- A name that a message may bear. -/
def IsEventName (name : String) : Prop := name.toList ≠ [] ∧ Source.OneLine name.toList

theorem isEventName_event : IsEventName eventName := by
  rw [IsEventName, eventName, String.toList_ofList]
  exact ⟨List.cons_ne_nil _ _, Source.oneLine_of_all (by decide)⟩

theorem isEventName_error : IsEventName errorName := by
  rw [IsEventName, errorName, String.toList_ofList]
  exact ⟨List.cons_ne_nil _ _, Source.oneLine_of_all (by decide)⟩

theorem feed_sse (received : List Message) {name : String} (hname : IsEventName name) (payload : JsonValue) :
    (Source.idle received).feedAll (sse name payload) = .idle (received ++ [⟨name.toList, payload.dumps⟩]) := by
  have htext : sse name payload = Source.messageText name.toList payload.dumps := by
    unfold sse Source.messageText Source.eventField Source.dataField
    rw [String.toList_ofList, String.toList_ofList, String.toList_ofList]
    simp
  rw [htext]
  exact Source.feed_message received hname.1 hname.2 (oneLine_dumps payload)

theorem feed_keepAlive (received : List Message) :
    (Source.idle received).feedAll Frame.keepAlive.text = .idle received := by
  have htext : Frame.keepAlive.text = Source.commentText [' ', 'k', 'e', 'e', 'p', '-', 'a', 'l', 'i', 'v', 'e'] :=
    String.toList_ofList
  rw [htext]
  exact Source.feed_comment received (Source.oneLine_of_all (by decide))

/-- One frame is one message, or none. -/
theorem feed_frame (received : List Message) (frame : Frame) :
    (Source.idle received).feedAll frame.text = .idle (received ++ frame.message?.toList) := by
  cases frame with
  | event e => exact feed_sse received isEventName_event e.modelDump
  | error exc => exact feed_sse received isEventName_error (errorPayload exc)
  | keepAlive => exact (feed_keepAlive received).trans (congrArg Source.idle (List.append_nil received).symm)

/-- A stream is read frame by frame. -/
theorem read_frames (frames : List Frame) :
    Source.read (frames.flatMap Frame.text) = frames.filterMap Frame.message? := by
  have hfeed : ∀ received, (Source.idle received).feedAll (frames.flatMap Frame.text) =
      .idle (received ++ frames.filterMap Frame.message?) := by
    induction frames with
    | nil => exact fun received => congrArg Source.idle (List.append_nil received).symm
    | cons frame frames ih =>
      intro received
      have hmore : (frame :: frames).filterMap Frame.message? =
          frame.message?.toList ++ frames.filterMap Frame.message? := by
        rw [List.filterMap_cons]
        cases frame.message? <;> rfl
      rw [List.flatMap_cons, Source.feedAll_append, feed_frame, ih, hmore, List.append_assoc]
  exact congrArg Source.received (hfeed [])

/-! ## The stream -/

/-- `_INITIAL_BACKLOG`. -/
def initialBacklog : Nat := 25

/-- `_KEEPALIVE_EVERY_N_POLLS`. -/
def keepaliveEveryNPolls : Nat := 30

/-- `_select_new`. -/
def selectNew (events : List EventView) (seen : List String) (firstPass : Bool) : List EventView :=
  if firstPass then events.rtake initialBacklog else events.filter fun event => event.id ∉ seen

/-- The core's history and a stream: the ids of the poll before, and what has been yielded. -/
structure EventStream where
  history : List EventView
  seen : List String
  firstPass : Bool
  quietPolls : Nat
  frames : List Frame

/-- The core records an event, the core comes back after a restart, or the stream polls and gets an answer or none. -/
inductive StreamAction where
  | record (event : EventView)
  | restart
  | poll
  | pollFailed (exc : List CodePoint)

namespace EventStream

/-- A panel connects to a core that has just come up. -/
def init : EventStream := ⟨[], [], true, 0, []⟩

/-- What `event_source` does with an answer. -/
def poll (s : EventStream) : EventStream :=
  let fresh := selectNew s.history s.seen s.firstPass
  let polled := { s with seen := s.history.map EventView.id, firstPass := false }
  if fresh ≠ [] then { polled with quietPolls := 0, frames := s.frames ++ fresh.map .event }
  else if keepaliveEveryNPolls ≤ s.quietPolls + 1 then
    { polled with quietPolls := 0, frames := s.frames ++ [.keepAlive] }
  else { polled with quietPolls := s.quietPolls + 1 }

/-- One step, with a history of the last `limit` events. -/
def step (limit : Nat) (s : EventStream) : StreamAction → EventStream
  | .record event => { s with history := (s.history ++ [event]).rtake limit }
  | .restart => { s with history := [] }
  | .poll => s.poll
  | .pollFailed exc => { s with frames := s.frames ++ [.error exc] }

/-- The text that has been streamed. -/
def text (s : EventStream) : List Char := s.frames.flatMap Frame.text

end EventStream

/-! ## What it comes to -/

/-- All that was ever recorded, how much of it before the core came up and before the last poll, and what the panel has
been told: an event, or what a failed poll raised. -/
structure Subscription where
  recorded : List EventView
  started : Nat
  reported : Nat
  connected : Bool
  told : List Frame

namespace Subscription

def init : Subscription := ⟨[], 0, 0, false, []⟩

/-- A poll brings what was recorded since the last one, or the backlog, as far as the history holds it. -/
def step (limit : Nat) (s : Subscription) : StreamAction → Subscription
  | .record event => { s with recorded := s.recorded ++ [event] }
  | .restart => { s with started := s.recorded.length, reported := s.recorded.length }
  | .poll =>
    let fresh :=
      if s.connected then (s.recorded.drop s.reported).rtake limit
      else (s.recorded.drop s.started).rtake (min limit initialBacklog)
    { s with reported := s.recorded.length, connected := true, told := s.told ++ fresh.map .event }
  | .pollFailed exc => { s with told := s.told ++ [.error exc] }

end Subscription

/-! ## The last of a list -/

/-- The last of two lists are the last of the second, and of the first what there is still room for. -/
theorem rtake_append {α : Type} (first rest : List α) (n : Nat) :
    (first ++ rest).rtake n = first.rtake (n - rest.length) ++ rest.rtake n := by
  unfold List.rtake
  rw [List.drop_append, List.length_append]
  congr 1
  · rcases Nat.lt_or_ge n rest.length with hlt | hge
    · rw [List.drop_of_length_le (by omega), List.drop_of_length_le (by omega)]
    · congr 1
      omega
  · congr 1
    omega

/-- A bounded history takes in one more as the whole would. -/
theorem rtake_record {α : Type} (l : List α) (a : α) (n : Nat) : (l.rtake n ++ [a]).rtake n = (l ++ [a]).rtake n := by
  cases n with
  | zero => rw [List.rtake_zero, List.rtake_zero]
  | succ n =>
    rw [List.rtake_concat_succ, List.rtake_concat_succ]
    congr 1
    unfold List.rtake
    rw [List.drop_drop, List.length_drop]
    congr 1
    omega

theorem rtake_rtake {α : Type} (l : List α) (m n : Nat) : (l.rtake m).rtake n = l.rtake (min m n) := by
  unfold List.rtake
  rw [List.drop_drop, List.length_drop]
  congr 1
  omega

theorem rtake_subset_rtake {α : Type} (l : List α) {m n : Nat} (h : m ≤ n) : l.rtake m ⊆ l.rtake n := by
  have heq : l.rtake m = (l.rtake n).rtake m := by rw [rtake_rtake, Nat.min_eq_right h]
  rw [heq]
  exact List.drop_subset _ _

/-! ## The stream follows the subscription -/

/-- The event that is recorded. -/
def StreamAction.recorded? : StreamAction → Option EventView
  | .record event => some event
  | _ => none

/-- What the panel is told by a frame. -/
def Frame.told? : Frame → Option Frame
  | .keepAlive => none
  | frame => some frame

/-- The history is the end of what was recorded, and what is seen is the history of the last poll. -/
structure Follows (limit : Nat) (s : EventStream) (t : Subscription) : Prop where
  history : s.history = (t.recorded.drop t.started).rtake limit
  firstPass : s.firstPass = !t.connected
  started_le : t.started ≤ t.reported
  reported_le : t.reported ≤ t.recorded.length
  seen : t.connected = true → ∀ event ∈ ((t.recorded.take t.reported).drop t.started).rtake limit, event.id ∈ s.seen
  reported : ∀ id ∈ s.seen, id ∈ (t.recorded.take t.reported).map EventView.id
  told : s.frames.filterMap Frame.told? = t.told

variable {limit : Nat} {s : EventStream} {t : Subscription}

theorem follows_init (limit : Nat) : Follows limit .init .init where
  history := (List.rtake_nil _).symm
  firstPass := rfl
  started_le := le_rfl
  reported_le := le_rfl
  seen h := absurd h Bool.false_ne_true
  reported _ h := absurd h List.not_mem_nil
  told := rfl

/-- What a poll selects is what a subscription brings. -/
theorem Follows.selectNew (h : Follows limit s t) (hids : (t.recorded.map EventView.id).Nodup) :
    selectNew s.history s.seen s.firstPass =
      if t.connected then (t.recorded.drop t.reported).rtake limit
      else (t.recorded.drop t.started).rtake (min limit initialBacklog) := by
  unfold Api.selectNew
  rw [h.firstPass, h.history]
  cases hconnected : t.connected with
  | false => exact rtake_rtake _ _ _
  | true =>
    -- what was reported is behind, what came since is in front
    have hsplit : t.recorded.drop t.started =
        (t.recorded.take t.reported).drop t.started ++ t.recorded.drop t.reported := by
      rw [← List.take_append_drop t.reported t.recorded, List.drop_append_of_le_length]
      · simp
      · rw [List.length_take]
        have := h.started_le
        have := h.reported_le
        omega
    have hold : ∀ event ∈ ((t.recorded.take t.reported).drop t.started).rtake
        (limit - (t.recorded.drop t.reported).length), ¬event.id ∉ s.seen :=
      fun event hevent hnot => hnot (h.seen hconnected event (rtake_subset_rtake _ (Nat.sub_le _ _) hevent))
    have hnew : ∀ event ∈ (t.recorded.drop t.reported).rtake limit, event.id ∉ s.seen := by
      intro event hevent hseen
      have hids := hids
      rw [← List.take_append_drop t.reported t.recorded, List.map_append] at hids
      exact List.disjoint_of_nodup_append hids (h.reported _ hseen)
        (List.mem_map_of_mem (List.drop_subset _ _ hevent))
    rw [hsplit, rtake_append]
    show List.filter _ _ = _
    rw [List.filter_append, List.filter_eq_nil_iff.mpr, List.nil_append, List.filter_eq_self.mpr]
    · rfl
    · exact fun event hevent => decide_eq_true (hnew event hevent)
    · exact fun event hevent => by simpa using hold event hevent

theorem Follows.poll (h : Follows limit s t) (hids : (t.recorded.map EventView.id).Nodup) :
    Follows limit s.poll (t.step limit .poll) := by
  have hfresh := h.selectNew hids
  have htold : s.poll.frames.filterMap Frame.told? =
      t.told ++ (Api.selectNew s.history s.seen s.firstPass).map .event := by
    have hevents : ∀ fresh : List EventView, (fresh.map Frame.event).filterMap Frame.told? = fresh.map .event := by
      intro fresh
      rw [List.filterMap_map]
      exact List.filterMap_eq_map' ▸ rfl
    rw [← h.told]
    unfold EventStream.poll
    dsimp only
    split_ifs with hsome hquiet
    · rw [List.filterMap_append, hevents]
    · rw [not_not.mp hsome, List.filterMap_append]
      rfl
    · rw [not_not.mp hsome]
      exact (List.append_nil _).symm
  have hseen : s.poll.seen = s.history.map EventView.id ∧ s.poll.firstPass = false ∧ s.poll.history = s.history := by
    unfold EventStream.poll
    dsimp only
    split_ifs <;> exact ⟨rfl, rfl, rfl⟩
  have hle : t.started ≤ t.recorded.length := h.started_le.trans h.reported_le
  refine ⟨?_, hseen.2.1, hle, le_rfl, ?_, ?_, ?_⟩
  · rw [hseen.2.2]
    exact h.history
  · intro _ event hevent
    change event ∈ ((t.recorded.take t.recorded.length).drop t.started).rtake limit at hevent
    rw [List.take_length, ← h.history] at hevent
    rw [hseen.1]
    exact List.mem_map_of_mem hevent
  · intro id hid
    show id ∈ (t.recorded.take t.recorded.length).map EventView.id
    rw [hseen.1, h.history] at hid
    obtain ⟨event, hevent, rfl⟩ := List.mem_map.mp hid
    rw [List.take_length]
    exact List.mem_map_of_mem (List.drop_subset _ _ (List.drop_subset _ _ hevent))
  · rw [htold, hfresh]
    rfl

theorem Follows.step (h : Follows limit s t) (hids : (t.recorded.map EventView.id).Nodup) (action : StreamAction) :
    Follows limit (s.step limit action) (t.step limit action) := by
  cases action with
  | poll => exact h.poll hids
  | record event =>
    have hle : t.started ≤ t.recorded.length := h.started_le.trans h.reported_le
    refine ⟨?_, h.firstPass, h.started_le, ?_, ?_, ?_, h.told⟩
    · show (s.history ++ [event]).rtake limit = ((t.recorded ++ [event]).drop t.started).rtake limit
      rw [h.history, rtake_record, List.drop_append_of_le_length hle]
    · show t.reported ≤ (t.recorded ++ [event]).length
      rw [List.length_append]
      exact h.reported_le.trans (Nat.le_add_right _ _)
    · show t.connected = true → ∀ e ∈ (((t.recorded ++ [event]).take t.reported).drop t.started).rtake limit, _
      rw [List.take_append_of_le_length h.reported_le]
      exact h.seen
    · show ∀ id ∈ s.seen, id ∈ ((t.recorded ++ [event]).take t.reported).map EventView.id
      rw [List.take_append_of_le_length h.reported_le]
      exact h.reported
  | restart =>
    refine ⟨?_, h.firstPass, le_rfl, le_rfl, ?_, ?_, h.told⟩
    · show [] = (t.recorded.drop t.recorded.length).rtake limit
      rw [List.drop_length, List.rtake_nil]
    · intro _ event hevent
      change event ∈ ((t.recorded.take t.recorded.length).drop t.recorded.length).rtake limit at hevent
      rw [List.take_length, List.drop_length, List.rtake_nil] at hevent
      exact absurd hevent List.not_mem_nil
    · intro id hid
      show id ∈ (t.recorded.take t.recorded.length).map EventView.id
      rw [List.take_length]
      exact List.map_subset _ (List.take_subset _ _) (h.reported id hid)
  | pollFailed exc =>
    refine ⟨h.history, h.firstPass, h.started_le, h.reported_le, h.seen, h.reported, ?_⟩
    show (s.frames ++ [Frame.error exc]).filterMap Frame.told? = t.told ++ [.error exc]
    rw [List.filterMap_append, h.told]
    rfl

theorem recorded_step (t : Subscription) (action : StreamAction) :
    (t.step limit action).recorded = t.recorded ++ action.recorded?.toList := by
  cases action with
  | record event => rfl
  | _ => exact (List.append_nil _).symm

theorem filterMap_recorded (action : StreamAction) (actions : List StreamAction) :
    (action :: actions).filterMap StreamAction.recorded? =
      action.recorded?.toList ++ actions.filterMap StreamAction.recorded? := by
  rw [List.filterMap_cons]
  cases action.recorded? <;> rfl

/-- As long as no two events have one id, the stream follows through a whole run. -/
theorem Follows.run (h : Follows limit s t) {actions : List StreamAction}
    (hids : ((t.recorded ++ actions.filterMap StreamAction.recorded?).map EventView.id).Nodup) :
    Follows limit (Lib.run (EventStream.step limit) s actions) (Lib.run (Subscription.step limit) t actions) := by
  induction actions generalizing s t with
  | nil => exact h
  | cons action actions ih =>
    have hbefore : (t.recorded.map EventView.id).Nodup := by
      rw [List.map_append] at hids
      exact hids.of_append_left
    refine ih (h.step hbefore action) ?_
    rw [recorded_step, List.append_assoc, ← filterMap_recorded]
    exact hids

/-! ## What is told, and what is lost -/

/-- The events that have been told. -/
def delivered (frames : List Frame) : List EventView := frames.filterMap Frame.event?

theorem delivered_append (first rest : List Frame) : delivered (first ++ rest) = delivered first ++ delivered rest :=
  List.filterMap_append

theorem delivered_events (events : List EventView) : delivered (events.map .event) = events := by
  rw [delivered, List.filterMap_map]
  exact List.filterMap_some

/-- A keep-alive tells of no event. -/
theorem Follows.delivered (h : Follows limit s t) : delivered s.frames = delivered t.told := by
  have htold : ∀ frame : Frame, frame.told?.bind Frame.event? = frame.event? := by
    intro frame
    cases frame <;> rfl
  rw [← h.told, Api.delivered, Api.delivered, List.filterMap_filterMap]
  exact List.filterMap_congr fun frame _ => (htold frame).symm

/-- What has been told was recorded before the last poll, and is told in that order. -/
structure Told (t : Subscription) : Prop where
  started_le : t.started ≤ t.recorded.length
  reported_le : t.reported ≤ t.recorded.length
  connected : t.connected = false → delivered t.told = []
  delivered : List.Sublist (delivered t.told) (t.recorded.take t.reported)

theorem Told.step (h : Told t) (action : StreamAction) : Told (t.step limit action) := by
  have hkept : List.Sublist (Api.delivered t.told) (t.recorded.take t.reported) := h.delivered
  cases action with
  | record event =>
    refine ⟨?_, ?_, h.connected, ?_⟩
    · exact h.started_le.trans (by simp [Subscription.step])
    · exact h.reported_le.trans (by simp [Subscription.step])
    · show List.Sublist (Api.delivered t.told) ((t.recorded ++ [event]).take t.reported)
      rw [List.take_append_of_le_length h.reported_le]
      exact hkept
  | restart =>
    refine ⟨le_rfl, le_rfl, h.connected, ?_⟩
    show List.Sublist (Api.delivered t.told) (t.recorded.take t.recorded.length)
    rw [List.take_length]
    exact hkept.trans (List.take_sublist _ _)
  | pollFailed exc =>
    have htold : Api.delivered (t.told ++ [Frame.error exc]) = Api.delivered t.told := by
      rw [delivered_append]
      exact List.append_nil _
    refine ⟨h.started_le, h.reported_le, ?_, ?_⟩
    · exact fun hconnected => htold.trans (h.connected hconnected)
    · show List.Sublist (Api.delivered (t.told ++ [Frame.error exc])) _
      rw [htold]
      exact hkept
  | poll =>
    refine ⟨h.started_le, le_rfl, fun hconnected => absurd hconnected.symm Bool.false_ne_true, ?_⟩
    unfold Subscription.step
    dsimp only
    rw [delivered_append, delivered_events, List.take_length]
    cases hconnected : t.connected with
    | false =>
      rw [h.connected hconnected, if_neg Bool.false_ne_true, List.nil_append]
      exact (List.drop_sublist _ _).trans (List.drop_sublist _ _)
    | true =>
      rw [if_pos rfl]
      calc List.Sublist _ (t.recorded.take t.reported ++ t.recorded.drop t.reported) :=
            hkept.append (List.drop_sublist _ _)
        _ = t.recorded := List.take_append_drop _ _

theorem told_init : Told .init :=
  ⟨le_rfl, le_rfl, fun _ => rfl, List.Sublist.refl _⟩

theorem recorded_run (t : Subscription) (actions : List StreamAction) :
    (run (Subscription.step limit) t actions).recorded = t.recorded ++ actions.filterMap StreamAction.recorded? := by
  induction actions generalizing t with
  | nil => exact (List.append_nil _).symm
  | cons action actions ih =>
    rw [run_cons, ih, recorded_step, filterMap_recorded, List.append_assoc]

/-- **The panel is told what a subscription would tell it.** Read as server-sent events, the stream is the events that
were recorded between one poll and the next, the last `limit` of them, and the backlog before the first; a failed poll
is told and changes nothing of that, and a restart of the core costs what it had not been asked for. So no event is
told twice, and none before an earlier one. -/
theorem stream_tells_subscription (limit : Nat) (actions : List StreamAction)
    (hids : ((actions.filterMap StreamAction.recorded?).map EventView.id).Nodup) :
    let s := run (EventStream.step limit) .init actions
    Source.read s.text = (run (Subscription.step limit) .init actions).told.filterMap Frame.message? ∧
      List.Sublist (delivered s.frames) (actions.filterMap StreamAction.recorded?) := by
  intro s
  have hfollows : Follows limit s (run (Subscription.step limit) .init actions) := (follows_init limit).run hids
  have htold : Told (run (Subscription.step limit) .init actions) :=
    List.foldlRecOn actions _ told_init fun _ h action _ => h.step action
  have hquiet : ∀ frame : Frame, frame.told?.bind Frame.message? = frame.message? := by
    intro frame
    cases frame <;> rfl
  refine ⟨?_, ?_⟩
  · rw [EventStream.text, read_frames, ← hfollows.told, List.filterMap_filterMap]
    exact List.filterMap_congr fun frame _ => (hquiet frame).symm
  · have hrecorded : (run (Subscription.step limit) .init actions).recorded =
        actions.filterMap StreamAction.recorded? := recorded_run .init actions
    rw [hfollows.delivered, ← hrecorded]
    exact htold.delivered.trans (List.take_sublist _ _)

/-- An event, a poll, an event that the restarted core does not know any more, and one that it does. -/
theorem stream_tells_subscription_restarted :
    let s := run (EventStream.step 2) .init
      [.record ⟨"a", .null⟩, .poll, .record ⟨"b", .null⟩, .restart, .record ⟨"c", .object []⟩, .poll]
    Source.read s.text =
        [⟨eventName.toList, JsonValue.null.dumps⟩, ⟨eventName.toList, (JsonValue.object []).dumps⟩] ∧
      List.Sublist (delivered s.frames) [⟨"a", .null⟩, ⟨"b", .null⟩, ⟨"c", .object []⟩] :=
  stream_tells_subscription 2
    [.record ⟨"a", .null⟩, .poll, .record ⟨"b", .null⟩, .restart, .record ⟨"c", .object []⟩, .poll] (by decide)

/-- A subscription stays connected. -/
theorem connected_step {t : Subscription} {action : StreamAction} (h : t.connected = true ∨ action = .poll) :
    (t.step limit action).connected = true := by
  rcases h with h | rfl
  · cases action with
    | poll => rfl
    | _ => exact h
  · rfl

theorem connected_run {t : Subscription} {actions : List StreamAction}
    (h : t.connected = true ∨ StreamAction.poll ∈ actions) :
    (run (Subscription.step limit) t actions).connected = true := by
  induction actions generalizing t with
  | nil => exact h.resolve_right List.not_mem_nil
  | cons action actions ih =>
    refine ih ?_
    rcases h with h | h
    · exact .inl (connected_step (.inl h))
    · rcases List.mem_cons.mp h with rfl | h
      · exact .inl (connected_step (.inr rfl))
      · exact .inr h

/-- Between two polls, the panel is told of no event. -/
theorem between_run (limit : Nat) (t : Subscription) {between : List StreamAction} (hpoll : StreamAction.poll ∉ between)
    (hrestart : StreamAction.restart ∉ between) :
    (run (Subscription.step limit) t between).reported = t.reported ∧
      (run (Subscription.step limit) t between).connected = t.connected ∧
      delivered (run (Subscription.step limit) t between).told = delivered t.told := by
  induction between generalizing t with
  | nil => exact ⟨rfl, rfl, rfl⟩
  | cons action between ih =>
    have hpoll' : StreamAction.poll ∉ between := fun h => hpoll (List.mem_cons_of_mem _ h)
    have hrestart' : StreamAction.restart ∉ between := fun h => hrestart (List.mem_cons_of_mem _ h)
    obtain ⟨hreported, hconnected, htold⟩ := ih (t.step limit action) hpoll' hrestart'
    rw [run_cons, hreported, hconnected, htold]
    cases action with
    | poll => exact absurd List.mem_cons_self hpoll
    | restart => exact absurd List.mem_cons_self hrestart
    | record event => exact ⟨rfl, rfl, rfl⟩
    | pollFailed exc =>
      refine ⟨rfl, rfl, ?_⟩
      show delivered (t.told ++ [Frame.error exc]) = _
      rw [delivered_append]
      exact List.append_nil _

/-- The first of a list is among the last few only if it has few behind it. -/
theorem mem_rtake_cons {α : Type} {a : α} {rest : List α} (h : a ∉ rest) (n : Nat) :
    a ∈ (a :: rest).rtake n ↔ rest.length < n := by
  unfold List.rtake
  rw [List.length_cons]
  constructor
  · intro hmem
    by_contra hge
    obtain ⟨k, hk⟩ : ∃ k, rest.length + 1 - n = k + 1 := ⟨rest.length - n, by omega⟩
    rw [hk, List.drop_succ_cons] at hmem
    exact h (List.drop_subset _ _ hmem)
  · intro hlt
    rw [show rest.length + 1 - n = 0 by omega]
    exact List.mem_cons_self

/-- **An event is lost exactly where the history is too short.** An event recorded after the first poll is told at the
next one exactly if fewer than `limit` others were recorded in between, unless the core restarts. -/
theorem event_told_iff (limit : Nat) (before between : List StreamAction) (event : EventView)
    (hids : (((before ++ .record event :: between).filterMap StreamAction.recorded?).map EventView.id).Nodup)
    (hconnected : StreamAction.poll ∈ before) (hpoll : StreamAction.poll ∉ between)
    (hrestart : StreamAction.restart ∉ between) :
    event ∈ delivered (run (EventStream.step limit) .init (before ++ .record event :: between ++ [.poll])).frames ↔
      (between.filterMap StreamAction.recorded?).length < limit := by
  have hmore : (before ++ .record event :: between).filterMap StreamAction.recorded? =
      before.filterMap StreamAction.recorded? ++ event :: between.filterMap StreamAction.recorded? := by
    rw [List.filterMap_append, filterMap_recorded]
    rfl
  have hnodup := (hmore ▸ hids).of_map
  -- an event has an id of its own, so it is recorded once
  have hbefore : event ∉ before.filterMap StreamAction.recorded? := fun h =>
    List.disjoint_of_nodup_append hnodup h List.mem_cons_self
  have hafter : event ∉ between.filterMap StreamAction.recorded? :=
    (List.nodup_cons.mp (List.nodup_append.mp hnodup).2.1).1
  -- the subscription before the event, and the one that the next poll finds
  let t := run (Subscription.step limit) .init before
  let t' := run (Subscription.step limit) (t.step limit (.record event)) between
  have hfollows : Follows limit (run (EventStream.step limit) .init (before ++ .record event :: between ++ [.poll]))
      (t'.step limit .poll) := by
    have hrun : run (Subscription.step limit) .init (before ++ .record event :: between ++ [.poll]) =
        t'.step limit .poll := by
      rw [run_append, run_append]
      rfl
    rw [← hrun]
    refine (follows_init limit).run ?_
    rw [List.filterMap_append]
    show ((_ ++ (_ ++ [])).map EventView.id).Nodup
    rw [List.append_nil]
    exact hids
  have htold : Told t := List.foldlRecOn before _ told_init fun _ h action _ => h.step action
  have hrecorded : t.recorded = before.filterMap StreamAction.recorded? := recorded_run .init before
  have hrecorded' : t'.recorded = t.recorded ++ event :: between.filterMap StreamAction.recorded? := by
    show (run (Subscription.step limit) (t.step limit (.record event)) between).recorded = _
    rw [recorded_run, recorded_step, List.append_assoc]
    rfl
  obtain ⟨hreported, hconnected', hdelivered⟩ := between_run limit (t.step limit (.record event)) hpoll hrestart
  have hstill : t'.connected = true := hconnected'.trans (connected_run (.inr hconnected))
  -- of what the poll brings and what was told before, the event can only be at the end
  have hnever : event ∉ delivered t'.told ∧ event ∉ t.recorded := by
    rw [hrecorded]
    refine ⟨fun h => ?_, hbefore⟩
    rw [hdelivered] at h
    exact hbefore (hrecorded ▸ List.take_subset _ _ (htold.delivered.subset h))
  have hreported' : t'.reported = t.reported := hreported
  rw [hfollows.delivered]
  show event ∈ delivered (t'.told ++ _) ↔ _
  rw [delivered_append, delivered_events, if_pos hstill, hreported', hrecorded',
    List.drop_append_of_le_length htold.reported_le, rtake_append, List.mem_append, List.mem_append,
    mem_rtake_cons hafter]
  constructor
  · rintro (h | h | h)
    · exact absurd h hnever.1
    · exact absurd (List.drop_subset _ _ (List.drop_subset _ _ h)) hnever.2
    · exact h
  · exact fun h => .inr (.inr h)

/-- In a history of two, the first of two events is still there. -/
theorem event_told_iff_two :
    (⟨"a", .null⟩ : EventView) ∈ delivered (run (EventStream.step 2) .init
        [.poll, .record ⟨"a", .null⟩, .record ⟨"b", .null⟩, .poll]).frames ↔ 1 < 2 :=
  event_told_iff 2 [.poll] [.record ⟨"b", .null⟩] ⟨"a", .null⟩ (by decide) List.mem_cons_self
    (fun h => StreamAction.noConfusion ((List.mem_cons.mp h).resolve_right List.not_mem_nil))
    (fun h => StreamAction.noConfusion ((List.mem_cons.mp h).resolve_right List.not_mem_nil))

end Pirewall.Api
