/-
# Pirewall.Detection.BehaviorWindow -- when only the window counts

The measures of `_assess_state` are read off the indexes, and the indexes count what is remembered. They are measures
of the window as long as nothing older is remembered; but `_advance` forgets from the front of a queue, and the queues
are in the order of the calls. A connection or a failure that is older than the one before it stays behind it, and a
flow that ends long after its last packet is remembered under a time that may be over already.

`only_window_iff` has the exact condition, call by call, on the state before the call and its times: what is older
than the new horizon stands at the front, and what the call records is not older itself.
-/
import Pirewall.Detection.Behavior

namespace Pirewall

open Lib

/-! ## The measures -/

namespace SourceBehaviorState

/-- `max_failures_to_single_destination`, for REPEATED_FAILURES. -/
def maxFailuresToSingleDestination (s : SourceBehaviorState) : Nat := s.failuresPerDestination.values.foldr max 0

/-- `max_connections_to_single_destination`, for REPEATED_CONNECTIONS. -/
def maxConnectionsToSingleDestination (s : SourceBehaviorState) : Nat :=
  s.connectionsPerDestination.values.foldr max 0

/-- `len(destinations)`, for DESTINATION_DIVERSITY. -/
def destinationCount (s : SourceBehaviorState) : Nat := s.destinationCounts.size

/-- `scanned_port_breadth`, for SCANNING. -/
def scannedPortBreadth (s : SourceBehaviorState) : Nat := (s.portsPerDestination.values.map Dict.size).foldr max 0

/-- The remembered connections that are within the window. -/
def windowEvents (s : SourceBehaviorState) : List ConnectionEvent :=
  s.events.filter fun event => s.horizon ≤ event.timestamp

/-- The remembered failures that are within the window. -/
def windowFailures (s : SourceBehaviorState) : List FailureEvent :=
  s.failures.filter fun failure => s.horizon ≤ failure.timestamp

/-- Nothing outside the window is remembered, and every measure is one of what is within it. -/
structure OnlyWindow (s : SourceBehaviorState) : Prop where
  events : ∀ event ∈ s.events, s.horizon ≤ event.timestamp
  failures : ∀ failure ∈ s.failures, s.horizon ≤ failure.timestamp
  repeatedFailures : s.maxFailuresToSingleDestination = largestCount (s.windowFailures.filterMap FailureEvent.key)
  repeatedConnections :
    s.maxConnectionsToSingleDestination = largestCount (s.windowEvents.filterMap ConnectionEvent.pairKey)
  destinationDiversity :
    s.destinationCount = (s.windowEvents.filterMap ConnectionEvent.destinationKey).dedup.length
  scanning : s.scannedPortBreadth = greatestBreadth (s.windowEvents.filterMap ConnectionEvent.portAtKey)

/-! ## The condition -/

/-- When the remembered connections were opened, in the order they came. -/
def connectionTimes (s : SourceBehaviorState) : List Time := s.events.map ConnectionEvent.timestamp

/-- When the remembered failures were seen last, in the order they came. -/
def failureTimes (s : SourceBehaviorState) : List Time := s.failures.map FailureEvent.timestamp

/-- Where the window begins once a time has come. -/
def horizonAt (s : SourceBehaviorState) (timestamp : Time) : Time :=
  max s.lastSeen timestamp - timedelta s.limits.windowSeconds

/-- The times that a new connection finds: a full queue whose oldest entry is still within the window gives it up. -/
def timesBefore (s : SourceBehaviorState) (timestamp : Time) : List Time :=
  if s.limits.maxEvents = s.connectionTimes.length ∧
      s.connectionTimes.head?.all fun oldest => decide (s.horizonAt timestamp ≤ oldest) then s.connectionTimes.tail
  else s.connectionTimes

/-- What is older than the horizon of a call stands at the front, and what the call records is not older. -/
def Meets (s : SourceBehaviorState) : BehaviorOp → Prop
  | .observeNewConnection _ _ timestamp =>
    StaleFirst (s.horizonAt timestamp) s.connectionTimes ∧ StaleFirst (s.horizonAt timestamp) s.failureTimes ∧
      s.horizonAt timestamp ≤ timestamp
  | .observeCompletion flow =>
    StaleFirst (s.horizonAt flow.lastSeen.us) s.connectionTimes ∧
      StaleFirst (s.horizonAt flow.lastSeen.us) s.failureTimes ∧
      (isFailedConnectionAttempt flow = true → s.horizonAt flow.lastSeen.us ≤ flow.lastSeen.us)
  | .observe flow =>
    StaleFirst (s.horizonAt flow.lastSeen.us) (s.timesBefore flow.firstSeen.us ++ [flow.firstSeen.us]) ∧
      StaleFirst (s.horizonAt flow.lastSeen.us) s.failureTimes ∧
      (isFailedConnectionAttempt flow = true → s.horizonAt flow.lastSeen.us ≤ flow.lastSeen.us)
  | .noteSlowConnections _ _ timestamp | .prune timestamp =>
    StaleFirst (s.horizonAt timestamp) s.connectionTimes ∧ StaleFirst (s.horizonAt timestamp) s.failureTimes

/-! ## What a call leaves of the queues -/

/-- What `_advance` reads and leaves, as far as the window is concerned. -/
structure Advanced (s s' : SourceBehaviorState) (timestamp : Time) : Prop where
  limits : s'.limits = s.limits
  lastSeen : s'.lastSeen = max s.lastSeen timestamp
  connectionTimes : s'.connectionTimes = s.connectionTimes.dropWhile fun t => decide (t < s.horizonAt timestamp)
  failureTimes : s'.failureTimes = s.failureTimes.dropWhile fun t => decide (t < s.horizonAt timestamp)

/-- The loop over the connections, with everything it leaves alone. -/
theorem expireEvents_spec (horizon : Time) (s : SourceBehaviorState) :
    let s' := expireEvents horizon s.events s
    s'.connectionTimes = s.connectionTimes.dropWhile (fun t => decide (t < horizon)) ∧
      s'.failures = s.failures ∧ s'.limits = s.limits ∧ s'.lastSeen = s.lastSeen := by
  generalize hevents : s.events = events
  induction events generalizing s with
  | nil => simp [expireEvents, connectionTimes, hevents]
  | cons event rest ih =>
    simp only [expireEvents, connectionTimes, hevents, List.map_cons, List.dropWhile_cons]
    by_cases hstale : event.timestamp < horizon
    · have hpop : s.popEvent = { s with toConnectionIndexes := s.expireEvent event, events := rest } := by
        rw [popEvent, hevents]
      rw [if_pos hstale, if_pos (decide_eq_true hstale)]
      have hrest := ih s.popEvent (by rw [hpop])
      rw [hpop] at hrest ⊢
      exact hrest
    · rw [if_neg hstale, if_neg (by simpa using hstale)]
      exact ⟨by rw [hevents, List.map_cons], rfl, rfl, rfl⟩

/-- The loop over the failures. -/
theorem expireFailures_spec (horizon : Time) (s : SourceBehaviorState) :
    let s' := expireFailures horizon s.failures s
    s'.failureTimes = s.failureTimes.dropWhile (fun t => decide (t < horizon)) ∧
      s'.events = s.events ∧ s'.limits = s.limits ∧ s'.lastSeen = s.lastSeen := by
  generalize hfailures : s.failures = failures
  induction failures generalizing s with
  | nil => simp [expireFailures, failureTimes, hfailures]
  | cons failure rest ih =>
    simp only [expireFailures, failureTimes, hfailures, List.map_cons, List.dropWhile_cons]
    by_cases hstale : failure.timestamp < horizon
    · rw [if_pos hstale, if_pos (decide_eq_true hstale)]
      have hpop : s.popFailure.failures = rest ∧ s.popFailure.events = s.events ∧
          s.popFailure.limits = s.limits ∧ s.popFailure.lastSeen = s.lastSeen := by
        rw [popFailure, hfailures]
        exact ⟨rfl, rfl, rfl, rfl⟩
      obtain ⟨hrest, hkept, hlimits, hlast⟩ := hpop
      have hloop := ih s.popFailure hrest
      simp only [failureTimes, hrest, hkept, hlimits, hlast] at hloop
      exact hloop
    · rw [if_neg hstale, if_neg (by simpa using hstale)]
      exact ⟨by rw [hfailures, List.map_cons], rfl, rfl, rfl⟩

theorem tick_spec (s : SourceBehaviorState) (timestamp : Time) :
    (s.tick timestamp).lastSeen = max s.lastSeen timestamp ∧ (s.tick timestamp).limits = s.limits ∧
      (s.tick timestamp).events = s.events ∧ (s.tick timestamp).failures = s.failures := by
  rw [tick]
  split
  · rename_i h
    exact ⟨(max_eq_right h.le).symm, rfl, rfl, rfl⟩
  · rename_i h
    exact ⟨(max_eq_left (not_lt.mp h)).symm, rfl, rfl, rfl⟩

theorem advance_spec (s : SourceBehaviorState) (timestamp : Time) : Advanced s (s.advance timestamp) timestamp := by
  obtain ⟨hlast, hlimits, hevents, hfailures⟩ := s.tick_spec timestamp
  have hhorizon : (s.tick timestamp).horizon = s.horizonAt timestamp := by rw [horizon, hlast, hlimits, horizonAt]
  obtain ⟨hconnections, hkept, hlimits', hlast'⟩ := expireEvents_spec (s.tick timestamp).horizon (s.tick timestamp)
  -- the second loop reads the horizon anew, off what the first one left alone
  have hsame : (expireEvents (s.tick timestamp).horizon (s.tick timestamp).events (s.tick timestamp)).horizon =
      s.horizonAt timestamp := by
    rw [horizon, hlast', hlimits', hlast, hlimits, horizonAt]
  obtain ⟨htimes, hevents', hlimits'', hlast''⟩ := expireFailures_spec
    (expireEvents (s.tick timestamp).horizon (s.tick timestamp).events (s.tick timestamp)).horizon
    (expireEvents (s.tick timestamp).horizon (s.tick timestamp).events (s.tick timestamp))
  refine ⟨hlimits''.trans (hlimits'.trans hlimits), hlast''.trans (hlast'.trans hlast), ?_, ?_⟩
  · refine (congrArg (List.map ConnectionEvent.timestamp) hevents').trans (hconnections.trans ?_)
    rw [connectionTimes, hevents, hhorizon]
    rfl
  · refine htimes.trans ?_
    rw [failureTimes, hkept, hfailures, hsame]
    rfl

/-- What a full queue gives up for a new entry. -/
def giveWay (limit : Nat) (times : List Time) : List Time := if limit ≤ times.length then times.tail else times

/-- The queues after a new connection. -/
structure Opened (s s' : SourceBehaviorState) (timestamp : Time) : Prop where
  limits : s'.limits = s.limits
  lastSeen : s'.lastSeen = max s.lastSeen timestamp
  connectionTimes : s'.connectionTimes = giveWay s.limits.maxEvents
    (s.connectionTimes.dropWhile fun t => decide (t < s.horizonAt timestamp)) ++ [timestamp]
  failureTimes : s'.failureTimes = s.failureTimes.dropWhile fun t => decide (t < s.horizonAt timestamp)

theorem popEvent_spec (s : SourceBehaviorState) :
    s.popEvent.connectionTimes = s.connectionTimes.tail ∧ s.popEvent.failures = s.failures ∧
      s.popEvent.limits = s.limits ∧ s.popEvent.lastSeen = s.lastSeen := by
  rw [popEvent]
  cases hevents : s.events with
  | nil => simp [connectionTimes, hevents]
  | cons event rest => simp [connectionTimes, hevents]

theorem popFailure_spec (s : SourceBehaviorState) :
    s.popFailure.failureTimes = s.failureTimes.tail ∧ s.popFailure.events = s.events ∧
      s.popFailure.limits = s.limits ∧ s.popFailure.lastSeen = s.lastSeen := by
  rw [popFailure]
  cases hfailures : s.failures with
  | nil => simp [failureTimes, hfailures]
  | cons failure rest => simp [failureTimes, hfailures]

theorem observeNewConnection_spec (s : SourceBehaviorState) (destinationIp : IPv4Address)
    (destinationPort : Option Nat) (timestamp : Time) :
    Opened s (s.observeNewConnection destinationIp destinationPort timestamp) timestamp := by
  have hadvance := s.advance_spec timestamp
  obtain ⟨hpop, hkept, hlimits, hlast⟩ := (s.advance timestamp).popEvent_spec
  have hlength : (s.advance timestamp).events.length = (s.advance timestamp).connectionTimes.length :=
    (List.length_map _).symm
  rw [observeNewConnection]
  by_cases hfull : (s.advance timestamp).limits.maxEvents ≤ (s.advance timestamp).events.length
  · simp only [if_pos hfull]
    refine ⟨hlimits.trans hadvance.limits, hlast.trans hadvance.lastSeen, ?_, ?_⟩
    · rw [hlength, hadvance.limits, hadvance.connectionTimes] at hfull
      rw [giveWay, if_pos hfull, ← hadvance.connectionTimes, ← hpop]
      exact List.map_append
    · rw [← hadvance.failureTimes]
      exact congrArg (List.map FailureEvent.timestamp) hkept
  · simp only [if_neg hfull]
    refine ⟨hadvance.limits, hadvance.lastSeen, ?_, hadvance.failureTimes⟩
    rw [hlength, hadvance.limits, hadvance.connectionTimes] at hfull
    rw [giveWay, if_neg hfull, ← hadvance.connectionTimes]
    exact List.map_append

theorem noteFailure_spec (s : SourceBehaviorState) (destination : IPv4Address) (timestamp : Time) :
    (s.noteFailure destination timestamp).failureTimes =
        giveWay s.limits.maxEvents s.failureTimes ++ [timestamp] ∧
      (s.noteFailure destination timestamp).events = s.events ∧
      (s.noteFailure destination timestamp).limits = s.limits ∧
      (s.noteFailure destination timestamp).lastSeen = s.lastSeen := by
  obtain ⟨hpop, hkept, hlimits, hlast⟩ := s.popFailure_spec
  have hlength : s.failures.length = s.failureTimes.length := (List.length_map _).symm
  rw [noteFailure, giveWay, ← hlength]
  by_cases hfull : s.limits.maxEvents ≤ s.failures.length
  · simp only [if_pos hfull]
    exact ⟨hpop ▸ List.map_append, hkept, hlimits, hlast⟩
  · simp only [if_neg hfull]
    exact ⟨List.map_append, trivial, trivial, trivial⟩

/-! ## One call -/

/-- Nothing outside the window is remembered. -/
def Remembers (s : SourceBehaviorState) : Prop :=
  (∀ t ∈ s.connectionTimes, s.horizon ≤ t) ∧ ∀ t ∈ s.failureTimes, s.horizon ≤ t

/-- A queue without anything older than the horizon at its front loses nothing that is older by giving way. -/
theorem forall_giveWay_iff {limit : Nat} {horizon : Time} (times : List Time) :
    (∀ t ∈ giveWay limit (times.dropWhile fun t => decide (t < horizon)), horizon ≤ t) ↔
      StaleFirst horizon times := by
  rw [← forall_dropWhile_iff, giveWay]
  split
  · constructor
    · intro h t ht
      cases hdrop : times.dropWhile fun t => decide (t < horizon) with
      | nil => rw [hdrop] at ht; exact absurd ht List.not_mem_nil
      | cons oldest rest =>
        rw [hdrop] at ht h
        rcases List.mem_cons.mp ht with rfl | ht
        · -- the front is what the loop stopped at
          have hstop := List.head?_dropWhile_not (fun t => decide (t < horizon)) times
          rw [hdrop] at hstop
          simpa using hstop
        · exact h t ht
    · exact fun h t ht => h t (List.mem_of_mem_tail ht)
  · exact Iff.rfl

theorem forall_concat_iff {P : Time → Prop} {times : List Time} {t : Time} :
    (∀ t' ∈ times ++ [t], P t') ↔ (∀ t' ∈ times, P t') ∧ P t := by
  simp [or_imp, forall_and]

theorem advance_remembers_iff (s : SourceBehaviorState) (timestamp : Time) :
    (s.advance timestamp).Remembers ↔
      StaleFirst (s.horizonAt timestamp) s.connectionTimes ∧ StaleFirst (s.horizonAt timestamp) s.failureTimes := by
  obtain ⟨hlimits, hlast, hconnections, hfailures⟩ := s.advance_spec timestamp
  have hhorizon : (s.advance timestamp).horizon = s.horizonAt timestamp := by rw [horizon, hlast, hlimits, horizonAt]
  rw [Remembers, hhorizon, hconnections, hfailures, forall_dropWhile_iff, forall_dropWhile_iff]

theorem observeNewConnection_remembers_iff (s : SourceBehaviorState) (destinationIp : IPv4Address)
    (destinationPort : Option Nat) (timestamp : Time) :
    (s.observeNewConnection destinationIp destinationPort timestamp).Remembers ↔
      s.Meets (.observeNewConnection destinationIp destinationPort timestamp) := by
  obtain ⟨hlimits, hlast, hconnections, hfailures⟩ :=
    s.observeNewConnection_spec destinationIp destinationPort timestamp
  have hhorizon : (s.observeNewConnection destinationIp destinationPort timestamp).horizon = s.horizonAt timestamp := by
    rw [horizon, hlast, hlimits, horizonAt]
  rw [Remembers, hhorizon, hconnections, hfailures, forall_concat_iff, forall_giveWay_iff, forall_dropWhile_iff, Meets]
  exact ⟨fun ⟨⟨h, ht⟩, hf⟩ => ⟨h, hf, ht⟩, fun ⟨h, hf, ht⟩ => ⟨⟨h, ht⟩, hf⟩⟩

/-- The end of `observe_completion`, on a state that was just advanced. -/
theorem observeCompletion_remembers_iff (s : SourceBehaviorState) (flow : Flow) :
    (s.observeCompletion flow).Remembers ↔
      (s.advance flow.lastSeen.us).Remembers ∧
        (isFailedConnectionAttempt flow = true → s.horizonAt flow.lastSeen.us ≤ flow.lastSeen.us) := by
  obtain ⟨hlimits, hlast, hconnections, hfailures⟩ := s.advance_spec flow.lastSeen.us
  have hhorizon : (s.advance flow.lastSeen.us).horizon = s.horizonAt flow.lastSeen.us := by
    rw [horizon, hlast, hlimits, horizonAt]
  cases hfailed : isFailedConnectionAttempt flow with
  | false =>
    have hend : s.observeCompletion flow = s.advance flow.lastSeen.us := by simp [observeCompletion, hfailed]
    rw [hend]
    exact (and_iff_left (fun h => absurd h (by simp))).symm
  | true =>
    have hend : s.observeCompletion flow =
        (s.advance flow.lastSeen.us).noteFailure flow.destinationIp flow.lastSeen.us := by
      simp [observeCompletion, hfailed]
    obtain ⟨htimes, hkept, hsame, hlast'⟩ :=
      (s.advance flow.lastSeen.us).noteFailure_spec flow.destinationIp flow.lastSeen.us
    rw [hend, Remembers, Remembers, htimes, horizon, hlast', hsame, ← horizon, hhorizon, hfailures,
      forall_concat_iff, forall_giveWay_iff, forall_dropWhile_iff, connectionTimes, hkept, ← connectionTimes]
    constructor
    · rintro ⟨hc, hf, ht⟩
      exact ⟨⟨hc, hf⟩, fun _ => ht⟩
    · rintro ⟨⟨hc, hf⟩, ht⟩
      exact ⟨hc, hf, ht rfl⟩

/-- Before a later horizon, a new connection finds what `timesBefore` says. -/
theorem staleFirst_giveWay_iff (s : SourceBehaviorState) (hsize : s.events.length ≤ s.limits.maxEvents)
    {timestamp : Time} {horizon : Time} (hle : s.horizonAt timestamp ≤ horizon) (more : List Time) :
    StaleFirst horizon (giveWay s.limits.maxEvents
        (s.connectionTimes.dropWhile fun t => decide (t < s.horizonAt timestamp)) ++ more) ↔
      StaleFirst horizon (s.timesBefore timestamp ++ more) := by
  have hlength : s.connectionTimes.length = s.events.length := List.length_map _
  have hdropped :=
    (List.dropWhile_suffix (l := s.connectionTimes) fun t => decide (t < s.horizonAt timestamp)).length_le
  rw [timesBefore]
  by_cases hcase : s.limits.maxEvents = s.connectionTimes.length ∧
      s.connectionTimes.head?.all fun oldest => decide (s.horizonAt timestamp ≤ oldest)
  · -- nothing was dropped, so the queue is still full
    have hall : (s.connectionTimes.dropWhile fun t => decide (t < s.horizonAt timestamp)) = s.connectionTimes := by
      have hhead := hcase.2
      cases htimes : s.connectionTimes with
      | nil => rfl
      | cons oldest rest =>
        rw [htimes] at hhead
        rw [List.dropWhile_cons, if_neg (by simpa using hhead)]
    rw [if_pos hcase, hall, giveWay, if_pos hcase.1.le]
  · have hroom : ¬ s.limits.maxEvents ≤
        (s.connectionTimes.dropWhile fun t => decide (t < s.horizonAt timestamp)).length := by
      intro hfull
      have hsame : s.limits.maxEvents = s.connectionTimes.length := by omega
      refine hcase ⟨hsame, ?_⟩
      cases htimes : s.connectionTimes with
      | nil => rfl
      | cons oldest rest =>
        rw [htimes, List.dropWhile_cons] at hfull hdropped
        rw [htimes] at hsame
        simp only [List.head?_cons, Option.all_some, decide_eq_true_eq]
        by_contra hstale
        rw [if_pos (by simpa using hstale)] at hfull
        have hshort := (List.dropWhile_suffix (l := rest) fun t => decide (t < s.horizonAt timestamp)).length_le
        rw [List.length_cons] at hsame
        omega
    rw [if_neg hcase, giveWay, if_neg hroom]
    exact staleFirst_dropWhile_append hle

theorem observe_remembers_iff (s : SourceBehaviorState) (hsize : s.events.length ≤ s.limits.maxEvents) (flow : Flow) :
    (s.observe flow).Remembers ↔ s.Meets (.observe flow) := by
  have hle : flow.firstSeen.us ≤ flow.lastSeen.us := flow.valid.2.2.2.1
  obtain ⟨hlimits, hlast, hconnections, hfailures⟩ := s.observeNewConnection_spec flow.destinationIp
    (flow.destinationPort.map Fin.val) flow.firstSeen.us
  -- the second horizon is the later one, and the same as if the connection had not been opened in between
  have hhorizon : (s.observeNewConnection flow.destinationIp (flow.destinationPort.map Fin.val)
      flow.firstSeen.us).horizonAt flow.lastSeen.us = s.horizonAt flow.lastSeen.us := by
    rw [horizonAt, hlast, hlimits, horizonAt, max_assoc, max_eq_right hle]
  have hlater : s.horizonAt flow.firstSeen.us ≤ s.horizonAt flow.lastSeen.us := by
    rw [horizonAt, horizonAt]
    exact Int.sub_le_sub_right (max_le_max_left _ hle) _
  rw [observe, observeCompletion_remembers_iff, advance_remembers_iff, hhorizon, hconnections, hfailures,
    s.staleFirst_giveWay_iff hsize hlater, staleFirst_dropWhile hlater, Meets, and_assoc]

/-- **One call** leaves only the window remembered exactly when it meets the condition. -/
theorem perform_remembers_iff (s : SourceBehaviorState) (hsize : s.events.length ≤ s.limits.maxEvents)
    (op : BehaviorOp) : (s.perform op).Remembers ↔ s.Meets op := by
  cases op with
  | observeNewConnection destinationIp destinationPort timestamp =>
    exact s.observeNewConnection_remembers_iff destinationIp destinationPort timestamp
  | observeCompletion flow =>
    show (s.observeCompletion flow).Remembers ↔ _
    rw [observeCompletion_remembers_iff, advance_remembers_iff, Meets, and_assoc]
  | observe flow => exact s.observe_remembers_iff hsize flow
  | noteSlowConnections destinationIp count timestamp =>
    have hkept : (s.noteSlowConnections destinationIp count timestamp).Remembers ↔
        (s.advance timestamp).Remembers := by
      rw [noteSlowConnections]
      split <;> exact Iff.rfl
    exact hkept.trans (s.advance_remembers_iff timestamp)
  | prune now => exact s.advance_remembers_iff now

/-! ## Whole runs -/

/-- With exact counts, a state that remembers only the window measures only the window. -/
theorem Exact.onlyWindow_iff {limits : BehaviorLimits} {s : SourceBehaviorState} (h : s.Exact limits) :
    s.OnlyWindow ↔ s.Remembers := by
  constructor
  · intro hwindow
    constructor
    · intro t ht
      obtain ⟨event, hevent, rfl⟩ := List.mem_map.mp ht
      exact hwindow.events event hevent
    · intro t ht
      obtain ⟨failure, hfailure, rfl⟩ := List.mem_map.mp ht
      exact hwindow.failures failure hfailure
  · rintro ⟨hevents, hfailures⟩
    have hevent : ∀ event ∈ s.events, s.horizon ≤ event.timestamp := fun event hevent =>
      hevents _ (List.mem_map_of_mem hevent)
    have hfailure : ∀ failure ∈ s.failures, s.horizon ≤ failure.timestamp := fun failure hfailure =>
      hfailures _ (List.mem_map_of_mem hfailure)
    have hall : s.windowEvents = s.events :=
      List.filter_eq_self.mpr fun event hmem => decide_eq_true (hevent event hmem)
    have hallFailures : s.windowFailures = s.failures :=
      List.filter_eq_self.mpr fun failure hmem => decide_eq_true (hfailure failure hmem)
    refine ⟨hevent, hfailure, ?_, ?_, ?_, ?_⟩
    · rw [hallFailures]
      exact h.failures.foldr_max_values
    · rw [hall]
      exact h.connections.connectionsPerDestination.foldr_max_values
    · rw [hall]
      exact h.connections.destinationCounts.size_eq
    · rw [hall]
      exact h.connections.portsPerDestination.foldr_max_size

end SourceBehaviorState

/-- **Only the window counts**, after every call of a run, exactly when every call meets the condition. -/
theorem only_window_iff (limits : BehaviorLimits) (firstSeen : Time) (ops : List BehaviorOp) :
    Along SourceBehaviorState.perform (fun s op => (s.perform op).OnlyWindow) (.init limits firstSeen) ops ↔
      Along SourceBehaviorState.perform SourceBehaviorState.Meets (.init limits firstSeen) ops := by
  have hevery : Along SourceBehaviorState.perform (fun _ _ => True) (.init limits firstSeen) ops :=
    Along.of_forall (fun _ _ _ => trivial) _
  refine Along.iff_of_invariant (I := fun s => s.Exact limits) ?_ (fun s op h _ _ => h.perform op) hevery
    (SourceBehaviorState.Exact.init limits firstSeen)
  intro s op h _
  rw [(h.perform op).onlyWindow_iff]
  exact s.perform_remembers_iff (h.limits_eq ▸ h.events_le) op

/-! ## A failure behind a newer one -/

/-- The caps and windows of `DetectionConfig` as it ships. -/
def defaultLimits : BehaviorLimits where
  maxDestinations := 200
  maxPorts := 200
  maxRecent := 50
  windowSeconds := 300
  maxEvents := 2000
  floodWindowSeconds := 5
  maxFloodEntries := 501
  maxDestinations_pos := by omega
  maxPorts_pos := by omega
  maxRecent_pos := by omega
  maxEvents_pos := by omega
  maxFloodEntries_pos := by omega

/-- A connection attempt of one SYN that nobody answered. -/
def unansweredFlow (moment : DateTime) : Flow where
  sourceIp := 3232235786#32
  destinationIp := 167772161#32
  sourcePort := some 40000
  destinationPort := some 80
  protocol := .tcp
  firstSeen := moment
  lastSeen := moment
  packetCount := 1
  byteCount := 40
  forwardPacketCount := 1
  backwardPacketCount := 0
  forwardByteCount := 40
  backwardByteCount := 0
  tcpFlags := ⟨1, 0, 0, 0, 0, 0⟩
  packetSizeStats := ⟨40, 40, 40, 0⟩
  interArrivalStats := ⟨0, 0, 0, 0⟩
  payloadStats := ⟨0, 0, 0, 0, 0, 0⟩
  openedByInitiation := true
  sourceMac := none
  destinationMac := none
  valid := by simp [FlowFields.Valid]

/-- Two attempts, seen last 100 s and 50 s after the epoch, end in that order; 360 s after the epoch the state is
pruned. -/
def lateFailure : List BehaviorOp :=
  [.observeCompletion (unansweredFlow ⟨100000000, by omega, by omega⟩),
    .observeCompletion (unansweredFlow ⟨50000000, by omega, by omega⟩), .prune 360000000]

/-- The older failure is still remembered, and counted, when the window begins 60 s after the epoch. -/
theorem late_failure_counted :
    let s := run SourceBehaviorState.perform (.init defaultLimits 0) lateFailure
    (s.horizon = 60000000 ∧ s.failureTimes = [100000000, 50000000] ∧ s.maxFailuresToSingleDestination = 2) ∧
      ¬ s.OnlyWindow := by
  have hstate : (run SourceBehaviorState.perform (.init defaultLimits 0) lateFailure).horizon = 60000000 ∧
      (run SourceBehaviorState.perform (.init defaultLimits 0) lateFailure).failureTimes = [100000000, 50000000] ∧
      (run SourceBehaviorState.perform (.init defaultLimits 0) lateFailure).maxFailuresToSingleDestination = 2 := by
    decide +kernel
  refine ⟨hstate, fun hwindow => ?_⟩
  obtain ⟨hhorizon, htimes, -⟩ := hstate
  have hmem : (50000000 : Int) ∈
      (run SourceBehaviorState.perform (.init defaultLimits 0) lateFailure).failureTimes := by
    rw [htimes]
    exact List.mem_cons_of_mem _ List.mem_cons_self
  obtain ⟨failure, hfailure, htime⟩ := List.mem_map.mp hmem
  have hle := hwindow.failures failure hfailure
  rw [hhorizon, htime] at hle
  exact absurd hle (by decide)

end Pirewall
