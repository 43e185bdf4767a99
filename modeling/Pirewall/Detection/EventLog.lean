/-
# Pirewall.Detection.EventLog -- the detectors over a complete log

`D1State` keeps bounded tables, forgets events from the front of a device's queue whenever it measures it, and takes
events in the order they arrive, which is not the order of their times. `EventLog` keeps everything, and answers a
measurement from what it has in the window. As long as no bound is reached and the clock of the measurements does not
go back, the tables answer every measurement as the log does (`Refines`).

What has to be shown is that forgetting does not matter. A measurement forgets from the front of the queue while the
front is older than the longest window. An event that came late may stand behind a newer one and stay; one that is
forgotten was in none of the windows of that measurement, and those of a later one start no earlier, so it would not
have been counted again (`Refines.stale`). What stays and is too old is not counted either, because the values are
taken over the window and not over the queue. With clocks that go back the second measurement would miss what the
first has forgotten, and that is what `ClocksForward` excludes.

A bound that is reached drops something that is in the window. `NoBoundReached` asks of every call that it finds room
where it has to extend a table: among the devices, in the queue of the device, among the destinations, and in the
queue of the destination. Which table that is depends on the call (`HasRoom`).

Of slow clusters the tables keep one a destination, the last one that was reported. The log answers as they do when it
is asked about those only: of the clusters in the window it takes into account the last that was reported for each
destination, and the example at the end has a destination whose longer cluster was overwritten by a shorter one.

A creation-time signal announces a connection whose record comes later. `SameStarts` says that two lists of starts
differ in nothing a detector reads; a list with a signal next to its record and the list without it are such. A signal
says that a connection was sighted and nothing of how it went, and everything the detectors make of a start is either
a set of what was sighted, in which a connection that is sighted twice counts once, or a count over those that tell
how it went, in which the signal does not appear.
-/
import Pirewall.Detection.D1
import Pirewall.Lib.Run
import Pirewall.Lib.Window

namespace Pirewall

open Lib

/-! ## Calls -/

/-- The calls that feed D1 and read it. -/
inductive D1Call where
  | observe (start : ConnectionStart)
  | observeSlowCluster (mac : Mac) (sourceIp destinationIp : IPv4Address) (count : Nat) (moment : Time)
  | measureDevice (mac : Mac) (now : Time)
  | measureDestination (destination : IPv4Address) (now : Time)

/-- The clock of a measurement. -/
def D1Call.now? : D1Call → Option Time
  | .measureDevice _ now | .measureDestination _ now => some now
  | _ => none

/-- What a measurement returns. -/
abbrev Measured := List (ThresholdKey × Rat)

namespace D1State

def step (s : D1State) : D1Call → D1State
  | .observe start => s.observe start
  | .observeSlowCluster mac sourceIp destinationIp count moment =>
    s.observeSlowCluster mac sourceIp destinationIp count moment
  | .measureDevice mac now => (s.measureDevice mac now).2
  | .measureDestination destination now => (s.measureDestination destination now).2

def answer (s : D1State) : D1Call → Option Measured
  | .measureDevice mac now => some (s.measureDevice mac now).1
  | .measureDestination destination now => some (s.measureDestination destination now).1
  | _ => none

/-- What the measurements of a run return, one after the other. -/
def answers (s : D1State) : List D1Call → List Measured
  | [] => []
  | call :: rest => (s.answer call).toList ++ (s.step call).answers rest

/-- The starts a device is held to have made. -/
def eventsOf (s : D1State) (mac : Mac) : List ConnectionStart :=
  ((s.devices.get? mac).map Device.events).getD []

/-- Its slow clusters. -/
def slowOf (s : D1State) (mac : Mac) : Dict IPv4Address (Nat × Time) :=
  ((s.devices.get? mac).map Device.slow).getD Dict.empty

/-- What a destination is held to have seen. -/
def arrivalsOf (s : D1State) (destination : IPv4Address) : List (Time × Mac) :=
  (s.destinations.get? destination).getD []

/-- No table is full that the call would have to extend: the devices, the starts of one, the destinations, the
arrivals at one, the destinations a device has slow clusters to. -/
def HasRoom (s : D1State) : D1Call → Prop
  | .observe start =>
    ((s.devices.get? start.mac).isSome = true ∨ s.devices.size < s.config.maxTrackedMacs) ∧
    (s.eventsOf start.mac).length < s.config.maxEventsPerMac ∧
    ((s.destinations.get? start.destinationIp).isSome = true ∨
      s.destinations.size < s.config.maxTrackedDestinations) ∧
    -- a destination keeps as many arrivals as a device keeps starts
    (s.arrivalsOf start.destinationIp).length < s.config.maxEventsPerMac
  | .observeSlowCluster mac _ destinationIp count moment =>
    ((s.devices.get? mac).isSome = true ∨ s.devices.size < s.config.maxTrackedMacs) ∧
    ((s.slowOf mac).set destinationIp (count, moment)).size ≤ s.config.maxTrackedDestinations
  | _ => True

end D1State

/-! ## The log -/

/-- Concurrent slow connections of a device to a destination, as they were reported. -/
structure SlowCluster where
  mac : Mac
  destinationIp : IPv4Address
  count : Nat
  atTime : Time

/-- Everything D1 was told, in order. -/
structure EventLog where
  starts : List ConnectionStart
  clusters : List SlowCluster

namespace EventLog

def empty : EventLog := ⟨[], []⟩

def step (log : EventLog) : D1Call → EventLog
  | .observe start => { log with starts := log.starts ++ [start] }
  | .observeSlowCluster mac _ destinationIp count moment =>
    { log with clusters := log.clusters ++ [⟨mac, destinationIp, count, moment⟩] }
  | _ => log

def startsOf (log : EventLog) (mac : Mac) : List ConnectionStart :=
  log.starts.filter fun start => start.mac = mac

def clustersOf (log : EventLog) (mac : Mac) : List SlowCluster :=
  log.clusters.filter fun cluster => cluster.mac = mac

def arrivalsOf (log : EventLog) (destination : IPv4Address) : List (Time × Mac) :=
  (log.starts.filter fun start => start.destinationIp = destination).map fun start => (start.atTime, start.mac)

/-- The device has been heard of. -/
def knows (log : EventLog) (mac : Mac) : Bool :=
  log.starts.any (fun start => start.mac = mac) || log.clusters.any fun cluster => cluster.mac = mac

/-- The destination has been connected to. -/
def reached (log : EventLog) (destination : IPv4Address) : Bool :=
  log.starts.any fun start => start.destinationIp = destination

/-- Of the clusters to each destination, the last that was reported. -/
def lastReported (clusters : List SlowCluster) : List SlowCluster :=
  (clusters.map SlowCluster.destinationIp).dedup.filterMap fun destination =>
    clusters.reverse.find? fun cluster => cluster.destinationIp = destination

/-- The per-device detectors over what is in the window: of the starts, all, and of the clusters, those that
`among` selects. -/
def deviceValues (log : EventLog) (settings : D1State) (among : List SlowCluster → List SlowCluster) (mac : Mac)
    (now : Time) (window : Nat) : List (D1Detector × Rat) :=
  let events := (log.startsOf mac).filter fun event => inWindow window now event.atTime
  let clusters := (among (log.clustersOf mac)).filter fun cluster => inWindow window now cluster.atTime
  [(.verticalScan, (maxDistinct events ConnectionStart.destinationIp ConnectionStart.destinationPort : Rat)),
   (.horizontalScan, (maxDistinct events ConnectionStart.destinationPort ConnectionStart.destinationIp : Rat)),
   (.bruteForce, (settings.bruteForce events : Rat)),
   (.slowRateDos, (((clusters.map SlowCluster.count).foldr max 0 : Nat) : Rat))]
    ++ ((settings.failedRatio events).map fun ratio => (D1Detector.failedHandshake, ratio)).toList

/-- A measurement answered from the log; one of what was never heard of returns nothing. -/
def answer (log : EventLog) (settings : D1State) (among : List SlowCluster → List SlowCluster) :
    D1Call → Option Measured
  | .measureDevice mac now =>
    some (if log.knows mac then
      settings.windows.flatMap fun window =>
        (log.deviceValues settings among mac now window).map fun item => (⟨item.1, .device, window⟩, item.2)
    else [])
  | .measureDestination destination now =>
    some (if log.reached destination then
      settings.windows.map fun window => (⟨.fanIn, .destination, window⟩,
        (((((log.arrivalsOf destination).filter fun arrival => inWindow window now arrival.1).map
          Prod.snd).dedup).length : Rat))
    else [])
  | _ => none

def answers (settings : D1State) (among : List SlowCluster → List SlowCluster) (log : EventLog) :
    List D1Call → List Measured
  | [] => []
  | call :: rest => (log.answer settings among call).toList ++ answers settings among (log.step call) rest

end EventLog

/-! ## What a call does to the log -/

namespace EventLog

/-- A cluster is the last that was reported to its destination. -/
theorem mem_lastReported {clusters : List SlowCluster} {cluster : SlowCluster} :
    cluster ∈ lastReported clusters ↔
      (clusters.reverse.find? fun other => other.destinationIp = cluster.destinationIp) = some cluster := by
  unfold lastReported
  rw [List.mem_filterMap]
  constructor
  · rintro ⟨destination, -, hfind⟩
    have hdestination := List.find?_some hfind
    rw [of_decide_eq_true hdestination]
    exact hfind
  · intro hfind
    refine ⟨cluster.destinationIp, List.mem_dedup.mpr (List.mem_map.mpr ⟨cluster, ?_, rfl⟩), hfind⟩
    exact List.mem_reverse.mp (List.mem_of_find?_eq_some hfind)

variable (log : EventLog) (mac other : Mac) (start : ConnectionStart) (destination : IPv4Address)

/-- What the log has of a device after a start. -/
theorem startsOf_observe : (log.step (.observe start)).startsOf other =
    if other = start.mac then log.startsOf other ++ [start] else log.startsOf other := by
  unfold startsOf step
  rw [List.filter_append, List.filter_singleton]
  by_cases h : other = start.mac
  · simp [h]
  · simp [h, Ne.symm h]

theorem arrivalsOf_observe : (log.step (.observe start)).arrivalsOf destination =
    if destination = start.destinationIp then log.arrivalsOf destination ++ [(start.atTime, start.mac)]
    else log.arrivalsOf destination := by
  unfold arrivalsOf step
  rw [List.filter_append, List.filter_singleton]
  by_cases h : destination = start.destinationIp
  · simp [h]
  · simp [h, Ne.symm h]

/-- Who has been heard of after it. -/
theorem knows_observe : (log.step (.observe start)).knows other =
    (decide (other = start.mac) || log.knows other) := by
  unfold knows step
  rw [List.any_append, List.any_cons, List.any_nil, Bool.or_false, Bool.or_right_comm, Bool.or_comm]
  simp only [eq_comm]

theorem reached_observe : (log.step (.observe start)).reached destination =
    (decide (destination = start.destinationIp) || log.reached destination) := by
  unfold reached step
  rw [List.any_append, List.any_cons, List.any_nil, Bool.or_false, Bool.or_comm]
  simp only [eq_comm]

variable (sourceIp : IPv4Address) (count : Nat) (moment : Time)

/-- The clusters of a device after a report. -/
theorem clustersOf_observeSlowCluster :
    (log.step (.observeSlowCluster mac sourceIp destination count moment)).clustersOf other =
      if other = mac then log.clustersOf other ++ [⟨mac, destination, count, moment⟩]
      else log.clustersOf other := by
  unfold clustersOf step
  rw [List.filter_append, List.filter_singleton]
  by_cases h : other = mac
  · simp [h]
  · simp [h, Ne.symm h]

theorem knows_observeSlowCluster :
    (log.step (.observeSlowCluster mac sourceIp destination count moment)).knows other =
      (decide (other = mac) || log.knows other) := by
  unfold knows step
  rw [List.any_append, List.any_cons, List.any_nil, Bool.or_false, ← Bool.or_assoc, Bool.or_comm]
  simp only [eq_comm]

end EventLog

/-! ## What a call does to the tables -/

/-- With room, a bounded queue is a queue. -/
theorem pushBounded_of_lt {α : Type} {limit : Nat} {items : List α} (h : items.length < limit) (item : α) :
    pushBounded limit items item = items ++ [item] := by
  unfold pushBounded
  rw [show items.length + 1 - limit = 0 by omega, List.drop_zero]

namespace D1State

variable {s : D1State} {mac : Mac} {destination : IPv4Address} {now : Time}

theorem eventsOf_congr {s' : D1State} (h : s'.devices = s.devices) (mac : Mac) :
    s'.eventsOf mac = s.eventsOf mac := by
  unfold eventsOf
  rw [h]

theorem slowOf_congr {s' : D1State} (h : s'.devices = s.devices) (mac : Mac) : s'.slowOf mac = s.slowOf mac := by
  unfold slowOf
  rw [h]

theorem arrivalsOf_congr {s' : D1State} (h : s'.destinations = s.destinations) (destination : IPv4Address) :
    s'.arrivalsOf destination = s.arrivalsOf destination := by
  unfold arrivalsOf
  rw [h]

/-- The device that `_device` finds or makes. -/
def deviceFor (s : D1State) (mac : Mac) (sourceIp : IPv4Address) : Device :=
  ⟨sourceIp, s.eventsOf mac, s.slowOf mac⟩

/-- With room for the device, no other one goes. -/
theorem get?_updateDevice {sourceIp : IPv4Address} {write : Device → Device}
    (hroom : (s.devices.get? mac).isSome = true ∨ s.devices.size < s.config.maxTrackedMacs) (other : Mac) :
    (s.updateDevice mac sourceIp write).devices.get? other =
      if other = mac then some (write (s.deviceFor mac sourceIp)) else s.devices.get? other := by
  unfold updateDevice deviceFor eventsOf slowOf
  cases hget : s.devices.get? mac with
  | none =>
    rw [hget] at hroom
    have hsize : s.devices.size < s.config.maxTrackedMacs := hroom.resolve_left fun h => nomatch h
    -- with the new device the table is at its limit at most
    dsimp only
    rw [if_neg (by rw [Dict.size_set_of_none hget]; omega)]
    exact Dict.get?_set _ _ _ _
  | some device =>
    dsimp only
    rw [Dict.get?_moveToEnd, Dict.get?_set]
    rfl

/-- Updating a device touches neither the destinations nor the settings. -/
theorem updateDevice_frame (s : D1State) (mac : Mac) (sourceIp : IPv4Address) (write : Device → Device) :
    (s.updateDevice mac sourceIp write).config = s.config ∧
      (s.updateDevice mac sourceIp write).extraBruteForcePorts = s.extraBruteForcePorts ∧
      (s.updateDevice mac sourceIp write).destinations = s.destinations := by
  unfold updateDevice
  split
  · dsimp only
    split_ifs
    · exact ⟨rfl, rfl, rfl⟩
    · exact ⟨rfl, rfl, rfl⟩
  · exact ⟨rfl, rfl, rfl⟩

theorem noteMac_frame (s : D1State) (mac : Mac) (moment : Time) :
    (s.noteMac mac moment).config = s.config ∧
      (s.noteMac mac moment).extraBruteForcePorts = s.extraBruteForcePorts ∧
      (s.noteMac mac moment).devices = s.devices ∧ (s.noteMac mac moment).destinations = s.destinations := by
  unfold noteMac
  split_ifs
  · exact ⟨rfl, rfl, rfl, rfl⟩
  · dsimp only
    split_ifs
    · exact ⟨rfl, rfl, rfl, rfl⟩
    · exact ⟨rfl, rfl, rfl, rfl⟩

theorem noteArrival_frame (s : D1State) (start : ConnectionStart) :
    (s.noteArrival start).config = s.config ∧
      (s.noteArrival start).extraBruteForcePorts = s.extraBruteForcePorts ∧
      (s.noteArrival start).devices = s.devices := by
  unfold noteArrival
  split
  · dsimp only
    split_ifs
    · exact ⟨rfl, rfl, rfl⟩
    · exact ⟨rfl, rfl, rfl⟩
  · exact ⟨rfl, rfl, rfl⟩

/-- With room for the destination and at it, no other one goes and no arrival does. -/
theorem get?_noteArrival {start : ConnectionStart}
    (hroom : (s.destinations.get? start.destinationIp).isSome = true ∨
      s.destinations.size < s.config.maxTrackedDestinations)
    (hlength : (s.arrivalsOf start.destinationIp).length < s.config.maxEventsPerMac) (other : IPv4Address) :
    (s.noteArrival start).destinations.get? other =
      if other = start.destinationIp then some (s.arrivalsOf start.destinationIp ++ [(start.atTime, start.mac)])
      else s.destinations.get? other := by
  unfold noteArrival
  unfold arrivalsOf at hlength ⊢
  cases hget : s.destinations.get? start.destinationIp with
  | none =>
    rw [hget] at hroom
    rw [hget, Option.getD_none] at hlength
    have hsize : s.destinations.size < s.config.maxTrackedDestinations := hroom.resolve_left fun h => nomatch h
    dsimp only
    rw [if_neg (by rw [Dict.size_set_of_none hget]; omega), pushBounded_of_lt hlength]
    exact Dict.get?_set _ _ _ _
  | some arrivals =>
    rw [hget, Option.getD_some] at hlength
    dsimp only
    rw [pushBounded_of_lt hlength, Dict.get?_moveToEnd, Dict.get?_set]
    rfl

/-- What `observe` leaves of the tables. -/
structure Observed (s : D1State) (start : ConnectionStart) (s' : D1State) : Prop where
  config : s'.config = s.config
  ports : s'.extraBruteForcePorts = s.extraBruteForcePorts
  devices : ∀ other, s'.devices.get? other =
    if other = start.mac then some ⟨start.sourceIp, s.eventsOf start.mac ++ [start], s.slowOf start.mac⟩
    else s.devices.get? other
  destinations : ∀ other, s'.destinations.get? other =
    if other = start.destinationIp then some (s.arrivalsOf start.destinationIp ++ [(start.atTime, start.mac)])
    else s.destinations.get? other

theorem observe_observed {start : ConnectionStart} (hroom : s.HasRoom (.observe start)) :
    Observed s start (s.observe start) := by
  obtain ⟨hdevice, hevents, hdestination, harrivals⟩ := hroom
  unfold observe
  dsimp only
  -- the counter of dropped starts is in no table
  generalize hcounted : (if (((s.devices.get? start.mac).map fun device => device.events.length).getD 0
      == s.config.maxEventsPerMac) = true then
    { s with counters := { s.counters with eventsDropped := s.counters.eventsDropped + 1 } } else s) = counted
  have hsame : counted.config = s.config ∧ counted.extraBruteForcePorts = s.extraBruteForcePorts ∧
      counted.devices = s.devices ∧ counted.destinations = s.destinations := by
    rw [← hcounted]
    split_ifs
    · exact ⟨rfl, rfl, rfl, rfl⟩
    · exact ⟨rfl, rfl, rfl, rfl⟩
  obtain ⟨hconfig, hports, hdevices, hdestinations⟩ := hsame
  rw [← hdevices, ← hconfig] at hdevice
  generalize hwritten : counted.updateDevice start.mac start.sourceIp (fun device =>
    { device with events := pushBounded counted.config.maxEventsPerMac device.events start }) = written
  obtain ⟨hconfig₁, hports₁, hdestinations₁⟩ := counted.updateDevice_frame start.mac start.sourceIp
    fun device => { device with events := pushBounded counted.config.maxEventsPerMac device.events start }
  rw [hwritten] at hconfig₁ hports₁ hdestinations₁
  have hget : ∀ other, written.devices.get? other =
      if other = start.mac then some ⟨start.sourceIp, s.eventsOf start.mac ++ [start], s.slowOf start.mac⟩
      else s.devices.get? other := by
    intro other
    rw [← hwritten, get?_updateDevice hdevice]
    unfold deviceFor eventsOf slowOf
    unfold eventsOf at hevents
    rw [hdevices, hconfig, pushBounded_of_lt hevents]
  obtain ⟨hconfig₂, hports₂, hdevices₂, hdestinations₂⟩ := written.noteMac_frame start.mac start.atTime
  obtain ⟨hconfig₃, hports₃, hdevices₃⟩ := (written.noteMac start.mac start.atTime).noteArrival_frame start
  have htables : (written.noteMac start.mac start.atTime).destinations = s.destinations :=
    hdestinations₂.trans (hdestinations₁.trans hdestinations)
  have hlimits : (written.noteMac start.mac start.atTime).config = s.config :=
    hconfig₂.trans (hconfig₁.trans hconfig)
  refine ⟨hconfig₃.trans hlimits, hports₃.trans (hports₂.trans (hports₁.trans hports)), fun other => ?_,
    fun other => ?_⟩
  · rw [hdevices₃, hdevices₂]
    exact hget other
  · have hseen := arrivalsOf_congr htables start.destinationIp
    rw [get?_noteArrival (by rw [htables, hlimits]; exact hdestination) (by rw [hseen, hlimits]; exact harrivals),
      hseen, htables]

/-- What `observe_slow_cluster` leaves of the tables. -/
structure SlowObserved (s : D1State) (mac : Mac) (sourceIp destinationIp : IPv4Address) (count : Nat)
    (moment : Time) (s' : D1State) : Prop where
  config : s'.config = s.config
  ports : s'.extraBruteForcePorts = s.extraBruteForcePorts
  devices : ∀ other, s'.devices.get? other =
    if other = mac then some ⟨sourceIp, s.eventsOf mac, (s.slowOf mac).set destinationIp (count, moment)⟩
    else s.devices.get? other
  destinations : s'.destinations = s.destinations

theorem observeSlowCluster_observed {sourceIp destinationIp : IPv4Address} {count : Nat} {moment : Time}
    (hroom : s.HasRoom (.observeSlowCluster mac sourceIp destinationIp count moment)) :
    SlowObserved s mac sourceIp destinationIp count moment
      (s.observeSlowCluster mac sourceIp destinationIp count moment) := by
  obtain ⟨hdevice, hsize⟩ := hroom
  have hrecord : recordSlow s.config.maxTrackedDestinations (s.slowOf mac) destinationIp count moment =
      (s.slowOf mac).set destinationIp (count, moment) := if_neg (not_lt.mpr hsize)
  unfold observeSlowCluster
  dsimp only
  rw [if_neg (by simpa [slowOf] using hsize)]
  obtain ⟨hconfig, hports, hdestinations⟩ := s.updateDevice_frame mac sourceIp fun device =>
    { device with slow := recordSlow s.config.maxTrackedDestinations device.slow destinationIp count moment }
  refine ⟨hconfig, hports, fun other => ?_, hdestinations⟩
  rw [get?_updateDevice hdevice]
  show (if other = mac then some (⟨sourceIp, s.eventsOf mac,
    recordSlow s.config.maxTrackedDestinations (s.slowOf mac) destinationIp count moment⟩ : Device) else _) = _
  rw [hrecord]

/-- Measuring a device forgets what is stale of it, and nothing of another one. -/
theorem get?_measureDevice (s : D1State) (mac : Mac) (now : Time) (other : Mac) :
    (s.measureDevice mac now).2.devices.get? other =
      (s.devices.get? other).map fun device => if other = mac then s.prune device now else device := by
  unfold measureDevice
  cases hget : s.devices.get? mac with
  | none =>
    dsimp only
    by_cases hother : other = mac
    · rw [hother, hget]
      rfl
    · simp only [hother, if_false, Option.map_id']
  | some device =>
    dsimp only
    rw [Dict.get?_set]
    by_cases hother : other = mac
    · rw [if_pos hother, hother, hget, Option.map_some, if_pos rfl]
    · simp only [hother, if_false, Option.map_id']

theorem measureDevice_frame (s : D1State) (mac : Mac) (now : Time) :
    (s.measureDevice mac now).2.config = s.config ∧
      (s.measureDevice mac now).2.extraBruteForcePorts = s.extraBruteForcePorts ∧
      (s.measureDevice mac now).2.destinations = s.destinations := by
  unfold measureDevice
  split
  · exact ⟨rfl, rfl, rfl⟩
  · exact ⟨rfl, rfl, rfl⟩

/-- Measuring a destination forgets what is stale at it, and nothing at another one. -/
theorem get?_measureDestination (s : D1State) (destination : IPv4Address) (now : Time) (other : IPv4Address) :
    (s.measureDestination destination now).2.destinations.get? other =
      (s.destinations.get? other).map fun arrivals =>
        if other = destination then arrivals.dropWhile fun arrival => decide (arrival.1 < now - s.horizon)
        else arrivals := by
  unfold measureDestination
  cases hget : s.destinations.get? destination with
  | none =>
    dsimp only
    by_cases hother : other = destination
    · rw [hother, hget]
      rfl
    · simp only [hother, if_false, Option.map_id']
  | some arrivals =>
    dsimp only
    rw [Dict.get?_set]
    by_cases hother : other = destination
    · rw [if_pos hother, hother, hget, Option.map_some, if_pos rfl]
    · simp only [hother, if_false, Option.map_id']

theorem measureDestination_frame (s : D1State) (destination : IPv4Address) (now : Time) :
    (s.measureDestination destination now).2.config = s.config ∧
      (s.measureDestination destination now).2.extraBruteForcePorts = s.extraBruteForcePorts ∧
      (s.measureDestination destination now).2.devices = s.devices := by
  unfold measureDestination
  split
  · exact ⟨rfl, rfl, rfl⟩
  · exact ⟨rfl, rfl, rfl⟩

/-! ## The tables answer as the log does -/

/-- What the tables hold of the log. `last` is the latest clock of a measurement. -/
structure Refines (settings : D1State) (log : EventLog) (last : Time) (s : D1State) : Prop where
  config : s.config = settings.config
  ports : s.extraBruteForcePorts = settings.extraBruteForcePorts
  known : ∀ mac, (s.devices.get? mac).isSome = log.knows mac
  events : ∀ mac, SameWindows (· ∈ settings.windows)
    (fun window now (start : ConnectionStart) => inWindow window now start.atTime) last (s.eventsOf mac)
    (log.startsOf mac)
  slow : ∀ mac destination, (s.slowOf mac).get? destination =
    ((log.clustersOf mac).reverse.find? fun cluster => cluster.destinationIp = destination).map
      fun cluster => (cluster.count, cluster.atTime)
  reached : ∀ destination, (s.destinations.get? destination).isSome = log.reached destination
  arrivals : ∀ destination, SameWindows (· ∈ settings.windows)
    (fun window now (arrival : Time × Mac) => inWindow window now arrival.1) last (s.arrivalsOf destination)
    (log.arrivalsOf destination)

variable {settings : D1State} {log : EventLog} {last : Time}

theorem refines_init (config : D1Config) (thresholds : D1ThresholdFile) (ports : List Nat) (last : Time) :
    Refines (init config thresholds ports) .empty last (init config thresholds ports) where
  config := rfl
  ports := rfl
  known _ := rfl
  events _ := .refl []
  slow _ _ := rfl
  reached _ := rfl
  arrivals _ := .refl []

/-- The settings, and what follows from them. -/
theorem Refines.windows (h : Refines settings log last s) : s.windows = settings.windows := by
  unfold D1State.windows
  rw [h.config]

theorem Refines.bruteForce (h : Refines settings log last s) (events : List ConnectionStart) :
    s.bruteForce events = settings.bruteForce events := by
  have htry : s.bruteForceTry? = settings.bruteForceTry? := by
    funext event
    unfold bruteForceTry? brutePorts
    rw [h.config, h.ports]
  unfold D1State.bruteForce
  rw [htry, h.config]

theorem Refines.failedRatio (h : Refines settings log last s) (events : List ConnectionStart) :
    s.failedRatio events = settings.failedRatio events := by
  unfold D1State.failedRatio
  rw [h.config]

/-! ### Each call keeps that -/

theorem Observed.eventsOf {start : ConnectionStart} {s' : D1State} (h : Observed s start s') (other : Mac) :
    s'.eventsOf other = if other = start.mac then s.eventsOf other ++ [start] else s.eventsOf other := by
  unfold D1State.eventsOf
  rw [h.devices]
  split_ifs with hother
  · rw [hother]
    rfl
  · rfl

theorem Observed.slowOf {start : ConnectionStart} {s' : D1State} (h : Observed s start s') (other : Mac) :
    s'.slowOf other = s.slowOf other := by
  unfold D1State.slowOf
  rw [h.devices]
  split_ifs with hother
  · rw [hother]
    rfl
  · rfl

theorem Observed.arrivalsOf {start : ConnectionStart} {s' : D1State} (h : Observed s start s')
    (other : IPv4Address) : s'.arrivalsOf other =
      if other = start.destinationIp then s.arrivalsOf other ++ [(start.atTime, start.mac)]
      else s.arrivalsOf other := by
  unfold D1State.arrivalsOf
  rw [h.destinations]
  split_ifs with hother
  · rw [hother]
    rfl
  · rfl

/-- A start goes to the end of its device's queue and to the end of the log. -/
theorem Refines.observe (h : Refines settings log last s) {start : ConnectionStart} {s' : D1State}
    (hobserved : Observed s start s') : Refines settings (log.step (.observe start)) last s' where
  config := hobserved.config.trans h.config
  ports := hobserved.ports.trans h.ports
  known other := by
    rw [hobserved.devices, log.knows_observe other start, ← h.known]
    by_cases hother : other = start.mac
    · simp [hother]
    · simp [hother]
  events other := by
    rw [hobserved.eventsOf, log.startsOf_observe other start]
    split_ifs
    · exact (h.events other).append [start]
    · exact h.events other
  slow other destination := by
    rw [hobserved.slowOf]
    exact h.slow other destination
  reached destination := by
    rw [hobserved.destinations, log.reached_observe start destination, ← h.reached]
    by_cases hdestination : destination = start.destinationIp
    · simp [hdestination]
    · simp [hdestination]
  arrivals destination := by
    rw [hobserved.arrivalsOf, log.arrivalsOf_observe start destination]
    split_ifs
    · exact (h.arrivals destination).append _
    · exact h.arrivals destination

/-- A report overwrites the cluster of its destination; in the log it is the last. -/
theorem Refines.observeSlowCluster (h : Refines settings log last s) {sourceIp destinationIp : IPv4Address}
    {count : Nat} {moment : Time} {s' : D1State}
    (hobserved : SlowObserved s mac sourceIp destinationIp count moment s') :
    Refines settings (log.step (.observeSlowCluster mac sourceIp destinationIp count moment)) last s' where
  config := hobserved.config.trans h.config
  ports := hobserved.ports.trans h.ports
  known other := by
    rw [hobserved.devices, log.knows_observeSlowCluster mac other destinationIp sourceIp count moment, ← h.known]
    by_cases hother : other = mac
    · simp [hother]
    · simp [hother]
  events other := by
    have hevents : s'.eventsOf other = s.eventsOf other := by
      unfold D1State.eventsOf
      rw [hobserved.devices]
      split_ifs with hother
      · rw [hother]
        rfl
      · rfl
    rw [hevents]
    exact h.events other
  slow other destination := by
    rw [log.clustersOf_observeSlowCluster mac other destinationIp sourceIp count moment]
    unfold D1State.slowOf
    rw [hobserved.devices]
    split_ifs with hother
    · -- the last cluster to a destination is the first from the end
      rw [List.reverse_append, List.reverse_singleton, List.singleton_append, List.find?_cons, hother]
      show ((s.slowOf mac).set destinationIp (count, moment)).get? destination = _
      rw [Dict.get?_set, h.slow]
      by_cases hdestination : destination = destinationIp
      · simp [hdestination]
      · simp [hdestination, Ne.symm hdestination]
    · exact h.slow other destination
  reached destination := by
    rw [hobserved.destinations]
    exact h.reached destination
  arrivals destination := by
    rw [arrivalsOf_congr hobserved.destinations]
    exact h.arrivals destination

/-- What a measurement forgets is in no window of a later one. -/
theorem Refines.stale (h : Refines settings log last s) {window : Nat} (hwindow : window ∈ settings.windows)
    {later : Time} (hlater : now ≤ later) {moment : Time} (hstale : decide (moment < now - s.horizon) = true) :
    inWindow window later moment = false :=
  inWindow_stale (s := s) hlater (h.windows ▸ hwindow) (of_decide_eq_true hstale)

/-- A measurement forgets what no later one would count. -/
theorem Refines.measureDevice (h : Refines settings log last s) (hle : last ≤ now) :
    Refines settings log now (s.measureDevice mac now).2 := by
  obtain ⟨hconfig, hports, hdestinations⟩ := s.measureDevice_frame mac now
  refine ⟨hconfig.trans h.config, hports.trans h.ports, fun other => ?_, fun other => ?_,
    fun other destination => ?_, fun destination => ?_, fun destination => ?_⟩
  · rw [get?_measureDevice, Option.isSome_map]
    exact h.known other
  · have hevents : (s.measureDevice mac now).2.eventsOf other = if other = mac then
        (s.eventsOf other).dropWhile fun event => decide (event.atTime < now - s.horizon)
        else s.eventsOf other := by
      unfold D1State.eventsOf
      rw [get?_measureDevice]
      cases s.devices.get? other with
      | none => split_ifs <;> rfl
      | some device => split_ifs <;> rfl
    rw [hevents]
    split_ifs
    · exact ((h.events other).later hle).dropWhile fun _ hwindow _ hlater _ hstale =>
        h.stale hwindow hlater hstale
    · exact (h.events other).later hle
  · have hslow : (s.measureDevice mac now).2.slowOf other = s.slowOf other := by
      unfold D1State.slowOf
      rw [get?_measureDevice]
      cases s.devices.get? other with
      | none => rfl
      | some device =>
        show (if other = mac then s.prune device now else device).slow = device.slow
        split_ifs <;> rfl
    rw [hslow]
    exact h.slow other destination
  · rw [hdestinations]
    exact h.reached destination
  · rw [arrivalsOf_congr hdestinations]
    exact (h.arrivals destination).later hle

theorem Refines.measureDestination (h : Refines settings log last s) (hle : last ≤ now) :
    Refines settings log now (s.measureDestination destination now).2 := by
  obtain ⟨hconfig, hports, hdevices⟩ := s.measureDestination_frame destination now
  refine ⟨hconfig.trans h.config, hports.trans h.ports, fun other => ?_, fun other => ?_, fun other d => ?_,
    fun other => ?_, fun other => ?_⟩
  · rw [hdevices]
    exact h.known other
  · rw [eventsOf_congr hdevices]
    exact (h.events other).later hle
  · rw [slowOf_congr hdevices]
    exact h.slow other d
  · rw [get?_measureDestination, Option.isSome_map]
    exact h.reached other
  · have harrivals : (s.measureDestination destination now).2.arrivalsOf other = if other = destination then
        (s.arrivalsOf other).dropWhile fun arrival => decide (arrival.1 < now - s.horizon)
        else s.arrivalsOf other := by
      unfold D1State.arrivalsOf
      rw [get?_measureDestination]
      cases s.destinations.get? other with
      | none => split_ifs <;> rfl
      | some arrivals => split_ifs <;> rfl
    rw [harrivals]
    split_ifs
    · exact ((h.arrivals other).later hle).dropWhile fun _ hwindow _ hlater _ hstale =>
        h.stale hwindow hlater hstale
    · exact (h.arrivals other).later hle

/-! ### And answers from it -/

theorem Refines.slowest (h : Refines settings log last s) (mac : Mac) (now : Time) (window : Nat) :
    (((s.slowOf mac).values.filter fun cluster => inWindow window now cluster.2).map Prod.fst).foldr max 0 =
      (((EventLog.lastReported (log.clustersOf mac)).filter fun cluster =>
        inWindow window now cluster.atTime).map SlowCluster.count).foldr max 0 := by
  refine foldr_max_congr fun n => ?_
  simp only [List.mem_map, List.mem_filter, Dict.mem_values_iff, h.slow, EventLog.mem_lastReported]
  constructor
  · rintro ⟨_, ⟨⟨destination, hlast⟩, hin⟩, rfl⟩
    obtain ⟨cluster, hfind, rfl⟩ := Option.map_eq_some_iff.mp hlast
    refine ⟨cluster, ⟨?_, hin⟩, rfl⟩
    have hdestination := List.find?_some hfind
    rw [of_decide_eq_true hdestination]
    exact hfind
  · rintro ⟨cluster, ⟨hfind, hin⟩, rfl⟩
    have hlast := congrArg (Option.map fun other : SlowCluster => (other.count, other.atTime)) hfind
    exact ⟨(cluster.count, cluster.atTime), ⟨⟨cluster.destinationIp, hlast⟩, hin⟩, rfl⟩

/-- The values over the window, from the tables and from the log. -/
theorem Refines.windowValues (h : Refines settings log last s) (hle : last ≤ now) {device : Device}
    (hdevice : s.devices.get? mac = some device) {window : Nat} (hwindow : window ∈ settings.windows) :
    s.windowValues device now window = log.deviceValues settings EventLog.lastReported mac now window := by
  have hevents := h.events mac window hwindow now hle
  have hslow := h.slowest mac now window
  unfold eventsOf at hevents
  unfold slowOf at hslow
  rw [hdevice, Option.map_some, Option.getD_some] at hevents hslow
  unfold D1State.windowValues EventLog.deviceValues
  dsimp only at hevents ⊢
  rw [hevents, hslow, h.bruteForce, h.failedRatio]

/-- A measurement with a clock that has not gone back is answered from the log. -/
theorem Refines.answer (h : Refines settings log last s) (call : D1Call)
    (hclock : ∀ now, call.now? = some now → last ≤ now) :
    s.answer call = log.answer settings EventLog.lastReported call := by
  cases call with
  | observe start => rfl
  | observeSlowCluster mac sourceIp destinationIp count moment => rfl
  | measureDevice mac now =>
    have hknown := h.known mac
    have hle := hclock now rfl
    show some (s.measureDevice mac now).1 = some (if log.knows mac then _ else _)
    rw [measureDevice_fst, ← hknown]
    cases hget : s.devices.get? mac with
    | none => rfl
    | some device =>
      dsimp only
      rw [h.windows, Option.isSome_some, if_pos rfl]
      refine congrArg some (List.flatMap_congr fun window hwindow => ?_)
      rw [h.windowValues hle hget hwindow]
  | measureDestination destination now =>
    have hreached := h.reached destination
    have hle := hclock now rfl
    show some (s.measureDestination destination now).1 = some (if log.reached destination then _ else _)
    rw [← hreached]
    unfold D1State.measureDestination
    cases hget : s.destinations.get? destination with
    | none => rfl
    | some arrivals =>
      dsimp only
      rw [h.windows, Option.isSome_some, if_pos rfl]
      refine congrArg some (List.map_congr_left fun window hwindow => ?_)
      have harrivals := h.arrivals destination window hwindow now hle
      have hforgotten : (arrivals.dropWhile fun arrival => decide (arrival.1 < now - s.horizon)).filter
          (fun arrival => inWindow window now arrival.1) =
            arrivals.filter fun arrival => inWindow window now arrival.1 :=
        filter_dropWhile (fun _ hstale => h.stale hwindow (le_refl now) hstale) _
      unfold arrivalsOf at harrivals
      rw [hget, Option.getD_some] at harrivals
      rw [hforgotten, harrivals]

/-- The latest clock after a call. -/
def latestClock (last : Time) (call : D1Call) : Time := call.now?.getD last

/-- The step lemma. -/
theorem Refines.step (h : Refines settings log last s) {call : D1Call} (hroom : s.HasRoom call)
    (hclock : ∀ now, call.now? = some now → last ≤ now) :
    Refines settings (log.step call) (latestClock last call) (s.step call) := by
  cases call with
  | observe start => exact h.observe (observe_observed hroom)
  | observeSlowCluster mac sourceIp destinationIp count moment =>
    exact h.observeSlowCluster (observeSlowCluster_observed hroom)
  | measureDevice mac now => exact h.measureDevice (hclock now rfl)
  | measureDestination destination now => exact h.measureDestination (hclock now rfl)

/-- The run: the clocks of the measurements do not go back, and no table is full when it has to grow. -/
theorem Refines.answers {calls : List D1Call} (h : Refines settings log last s)
    (hlast : ∀ now ∈ calls.filterMap D1Call.now?, last ≤ now)
    (hclocks : (calls.filterMap D1Call.now?).Pairwise (· ≤ ·)) (hroom : Along D1State.step HasRoom s calls) :
    s.answers calls = EventLog.answers settings EventLog.lastReported log calls := by
  induction calls generalizing s log last with
  | nil => rfl
  | cons call calls ih =>
    have hclock : ∀ now, call.now? = some now → last ≤ now := by
      intro now hnow
      exact hlast now (List.mem_filterMap.mpr ⟨call, List.mem_cons_self, hnow⟩)
    -- only a measurement moves the clock, and the clocks after it are not behind it
    have hrest : (calls.filterMap D1Call.now?).Pairwise (· ≤ ·) ∧
        ∀ now ∈ calls.filterMap D1Call.now?, latestClock last call ≤ now := by
      unfold latestClock
      rw [List.filterMap_cons] at hclocks hlast
      cases hnow : call.now? with
      | none =>
        rw [hnow] at hclocks hlast
        exact ⟨hclocks, hlast⟩
      | some now =>
        rw [hnow] at hclocks
        exact ⟨(List.pairwise_cons.mp hclocks).2, (List.pairwise_cons.mp hclocks).1⟩
    show (s.answer call).toList ++ (s.step call).answers calls = (log.answer _ _ call).toList ++ _
    rw [h.answer call hclock, ih (h.step hroom.1 hclock) hrest.2 hrest.1 hroom.2]

end D1State

/-! ## A signal next to its record -/

/-- Who was seen connecting to what, and when: all that a signal knows. -/
def ConnectionStart.sighting (start : ConnectionStart) : Mac × IPv4Address × Option Nat × Time :=
  (start.mac, start.destinationIp, start.destinationPort, start.atTime)

/-- The start says how the connection went, or how long it took. -/
def ConnectionStart.tells (start : ConnectionStart) : Bool := start.hasOutcome || start.durationSeconds.isSome

/-- The creation-time signal of the connection. -/
def ConnectionStart.signal (record : ConnectionStart) : ConnectionStart :=
  { record with failed := none, durationSeconds := none, byteCount := none }

/-- The signal of a start is what the creation-time signal of its connection makes. -/
theorem startFromSignal_signal {record signal : ConnectionStart}
    (h : startFromSignal (some record.mac.text) record.sourceIp record.destinationIp record.destinationPort .tcp
      record.atTime = some signal) : signal = record.signal := by
  unfold startFromSignal at h
  rw [Option.bind_some, Mac.ofString?_text] at h
  exact (Option.some.inj h).symm

/-- A record made of a connection's features and the signal made at its creation are of one connection: the
signal is what the record says without the outcome. -/
theorem startFromSignal_of_features {isStart : Bool} {sourceMac : Option String}
    {sourceIp destinationIp : IPv4Address} {destinationPort : Option Nat} {firstSeen : Time}
    {features : StartFeatures} {record : ConnectionStart}
    (h : startFromFeatures isStart sourceMac sourceIp destinationIp destinationPort firstSeen features =
      some record) :
    startFromSignal sourceMac sourceIp destinationIp destinationPort .tcp firstSeen = some record.signal ∧
      record.tells = true := by
  unfold startFromFeatures at h
  unfold startFromSignal
  cases hmac : sourceMac.bind Mac.ofString? with
  | none =>
    rw [hmac] at h
    exact absurd h (by simp)
  | some mac =>
    rw [hmac] at h
    dsimp only at h ⊢
    split at h
    · exact absurd h (by simp)
    · obtain rfl := Option.some.inj h
      exact ⟨rfl, rfl⟩

/-- The same connections were sighted, and the same of them told about. -/
structure SameStarts (starts starts' : List ConnectionStart) : Prop where
  sightings : ∀ x, x ∈ starts.map ConnectionStart.sighting ↔ x ∈ starts'.map ConnectionStart.sighting
  told : starts.filter ConnectionStart.tells = starts'.filter ConnectionStart.tells

namespace SameStarts

variable {starts starts' : List ConnectionStart}

theorem refl (starts : List ConnectionStart) : SameStarts starts starts := ⟨fun _ => Iff.rfl, rfl⟩

theorem append {more more' : List ConnectionStart} (h : SameStarts starts starts') (hmore : SameStarts more more') :
    SameStarts (starts ++ more) (starts' ++ more') where
  sightings x := by
    rw [List.map_append, List.map_append, List.mem_append, List.mem_append, h.sightings, hmore.sightings]
  told := by rw [List.filter_append, List.filter_append, h.told, hmore.told]

/-- A signal before its record, or after it. -/
theorem signal_record (record : ConnectionStart) : SameStarts [record.signal, record] [record] where
  sightings x := by
    show x ∈ [record.sighting, record.sighting] ↔ x ∈ [record.sighting]
    simp
  told := rfl

theorem record_signal (record : ConnectionStart) : SameStarts [record, record.signal] [record] where
  sightings x := by
    show x ∈ [record.sighting, record.sighting] ↔ x ∈ [record.sighting]
    simp
  told := by
    have hsignal : record.signal.tells = false := rfl
    simp [List.filter_cons, hsignal]

/-- What is asked of a sighting can be asked of both. -/
theorem exists_iff (h : SameStarts starts starts') {p : ConnectionStart → Prop}
    (hp : ∀ a b : ConnectionStart, a.sighting = b.sighting → p a → p b) :
    (∃ start ∈ starts, p start) ↔ ∃ start ∈ starts', p start := by
  constructor
  · rintro ⟨start, hstart, hpstart⟩
    obtain ⟨start', hstart', hsame⟩ := List.mem_map.mp ((h.sightings _).mp (List.mem_map_of_mem hstart))
    exact ⟨start', hstart', hp start start' hsame.symm hpstart⟩
  · rintro ⟨start, hstart, hpstart⟩
    obtain ⟨start', hstart', hsame⟩ := List.mem_map.mp ((h.sightings _).mpr (List.mem_map_of_mem hstart))
    exact ⟨start', hstart', hp start start' hsame.symm hpstart⟩

/-- So can be what is in a window, and what is of a device. -/
theorem filter (h : SameStarts starts starts') {p : ConnectionStart → Bool}
    (hp : ∀ a b : ConnectionStart, a.sighting = b.sighting → p a = p b) :
    SameStarts (starts.filter p) (starts'.filter p) where
  sightings x := by
    simp only [List.mem_map, List.mem_filter, and_assoc]
    refine h.exists_iff (p := fun start => p start = true ∧ start.sighting = x) ?_
    rintro a b hsame ⟨hpa, hx⟩
    exact ⟨(hp a b hsame).symm.trans hpa, hsame.symm.trans hx⟩
  told := by
    rw [List.filter_comm, h.told, List.filter_comm]

/-! ### What the detectors make of them -/

/-- The number of destinations or ports does not count a connection twice. -/
theorem maxDistinct {κ ν : Type} [DecidableEq κ] [DecidableEq ν] (h : SameStarts starts starts')
    {group : ConnectionStart → κ} {member : ConnectionStart → ν}
    (hgroup : ∀ a b : ConnectionStart, a.sighting = b.sighting → group a = group b)
    (hmember : ∀ a b : ConnectionStart, a.sighting = b.sighting → member a = member b) :
    Pirewall.maxDistinct starts group member = Pirewall.maxDistinct starts' group member := by
  have hmembers : ∀ k, (((starts.filter fun event => group event = k).map member).dedup).length =
      (((starts'.filter fun event => group event = k).map member).dedup).length := by
    intro k
    refine length_dedup_congr fun x => ?_
    simp only [List.mem_map, List.mem_filter, decide_eq_true_eq, and_assoc]
    refine h.exists_iff (p := fun start => group start = k ∧ member start = x) ?_
    rintro a b hsame ⟨hk, hx⟩
    exact ⟨(hgroup a b hsame).symm.trans hk, (hmember a b hsame).symm.trans hx⟩
  refine foldr_max_congr fun n => ?_
  simp only [List.mem_map, List.mem_dedup, hmembers, exists_exists_and_eq_and]
  refine h.exists_iff fun a b hsame hn => ?_
  rw [← hgroup a b hsame]
  exact hn

/-- The ratio of failures is taken over starts that tell of one. -/
theorem failedRatio (h : SameStarts starts starts') (s : D1State) :
    s.failedRatio starts = s.failedRatio starts' := by
  have hcompleted : ∀ l : List ConnectionStart, l.filter ConnectionStart.hasOutcome =
      (l.filter ConnectionStart.tells).filter ConnectionStart.hasOutcome := by
    intro l
    rw [List.filter_filter]
    refine List.filter_congr fun start _ => ?_
    unfold ConnectionStart.tells
    cases start.hasOutcome <;> rfl
  unfold D1State.failedRatio
  rw [hcompleted, h.told, ← hcompleted]

/-- And so are the attempts at one service. -/
theorem bruteForce (h : SameStarts starts starts') (s : D1State) :
    s.bruteForce starts = s.bruteForce starts' := by
  have htries : ∀ l : List ConnectionStart, l.filterMap s.bruteForceTry? =
      (l.filter ConnectionStart.tells).filterMap s.bruteForceTry? := by
    intro l
    rw [List.filterMap_filter]
    refine List.filterMap_congr fun start _ => ?_
    -- a try has a duration
    unfold ConnectionStart.tells D1State.bruteForceTry?
    cases start.durationSeconds with
    | some duration => simp
    | none => cases start.destinationPort <;> simp
  unfold D1State.bruteForce
  rw [htries, h.told, ← htries]

end SameStarts

/-- Two logs that differ in signals of connections that were recorded. -/
structure EventLog.Same (log log' : EventLog) : Prop where
  starts : SameStarts log.starts log'.starts
  clusters : log.clusters = log'.clusters

namespace EventLog.Same

variable {log log' : EventLog} {settings : D1State} {among : List SlowCluster → List SlowCluster}

theorem startsOf (h : Same log log') (mac : Mac) : SameStarts (log.startsOf mac) (log'.startsOf mac) := by
  refine h.starts.filter fun a b hsame => ?_
  rw [show a.mac = b.mac from congrArg Prod.fst hsame]

theorem knows (h : Same log log') (mac : Mac) : log.knows mac = log'.knows mac := by
  unfold EventLog.knows
  rw [h.clusters, Bool.eq_iff_iff]
  simp only [Bool.or_eq_true, List.any_eq_true, decide_eq_true_eq]
  refine or_congr (h.starts.exists_iff fun a b hsame hmac => ?_) Iff.rfl
  exact (congrArg Prod.fst hsame).symm.trans hmac

theorem destination_eq {a b : ConnectionStart} (hsame : a.sighting = b.sighting) :
    a.destinationIp = b.destinationIp := congrArg (fun sighting => sighting.2.1) hsame

theorem reached (h : Same log log') (destination : IPv4Address) :
    log.reached destination = log'.reached destination := by
  unfold EventLog.reached
  rw [Bool.eq_iff_iff]
  simp only [List.any_eq_true, decide_eq_true_eq]
  exact h.starts.exists_iff fun a b hsame hdestination => (destination_eq hsame).symm.trans hdestination

/-- The values of a device are the same from either log. -/
theorem deviceValues (h : Same log log') (mac : Mac) (now : Time) (window : Nat) :
    log.deviceValues settings among mac now window = log'.deviceValues settings among mac now window := by
  have hevents := (h.startsOf mac).filter (p := fun event => inWindow window now event.atTime) fun a b hsame => by
    rw [show a.atTime = b.atTime from congrArg (fun sighting => sighting.2.2.2) hsame]
  have hport : ∀ a b : ConnectionStart, a.sighting = b.sighting → a.destinationPort = b.destinationPort :=
    fun a b hsame => congrArg (fun sighting => sighting.2.2.1) hsame
  unfold EventLog.deviceValues EventLog.clustersOf
  dsimp only
  rw [hevents.maxDistinct (fun _ _ hsame => destination_eq hsame) hport,
    hevents.maxDistinct hport (fun _ _ hsame => destination_eq hsame), hevents.bruteForce, hevents.failedRatio,
    h.clusters]

/-- The devices that connected to a destination in a window. -/
theorem mem_callers (log : EventLog) (destination : IPv4Address) (now : Time) (window : Nat) (mac : Mac) :
    mac ∈ ((log.arrivalsOf destination).filter fun arrival => inWindow window now arrival.1).map Prod.snd ↔
      ∃ start ∈ log.starts, start.destinationIp = destination ∧ inWindow window now start.atTime = true ∧
        start.mac = mac := by
  unfold EventLog.arrivalsOf
  simp only [List.mem_map, List.mem_filter, decide_eq_true_eq]
  constructor
  · rintro ⟨_, ⟨⟨start, ⟨hstart, hdestination⟩, rfl⟩, hin⟩, hmac⟩
    exact ⟨start, hstart, hdestination, hin, hmac⟩
  · rintro ⟨start, hstart, hdestination, hin, hmac⟩
    exact ⟨_, ⟨⟨start, ⟨hstart, hdestination⟩, rfl⟩, hin⟩, hmac⟩

theorem callers (h : Same log log') (destination : IPv4Address) (now : Time) (window : Nat) :
    ((((log.arrivalsOf destination).filter fun arrival => inWindow window now arrival.1).map
        Prod.snd).dedup).length =
      ((((log'.arrivalsOf destination).filter fun arrival => inWindow window now arrival.1).map
        Prod.snd).dedup).length := by
  refine length_dedup_congr fun mac => ?_
  rw [mem_callers, mem_callers]
  refine h.starts.exists_iff ?_
  rintro a b hsame ⟨hdestination, hin, hmac⟩
  refine ⟨(destination_eq hsame).symm.trans hdestination, ?_, (congrArg Prod.fst hsame).symm.trans hmac⟩
  rw [show b.atTime = a.atTime from (congrArg (fun sighting => sighting.2.2.2) hsame).symm]
  exact hin

/-- And so is every answer. -/
theorem answer (h : Same log log') (call : D1Call) :
    log.answer settings among call = log'.answer settings among call := by
  unfold EventLog.answer
  cases call with
  | measureDevice mac now => simp only [h.knows, h.deviceValues]
  | measureDestination destination now => simp only [h.reached, h.callers]
  | _ => rfl

theorem step (h : Same log log') (call : D1Call) : Same (log.step call) (log'.step call) := by
  cases call with
  | observe start => exact ⟨h.starts.append (.refl [start]), h.clusters⟩
  | observeSlowCluster mac sourceIp destinationIp count moment =>
    refine ⟨h.starts, ?_⟩
    show log.clusters ++ [⟨mac, destinationIp, count, moment⟩] = log'.clusters ++ [_]
    rw [h.clusters]
  | _ => exact h

/-- The answers of a run, over both logs. -/
theorem answers (h : Same log log') (calls : List D1Call) :
    EventLog.answers settings among log calls = EventLog.answers settings among log' calls := by
  induction calls generalizing log log' with
  | nil => rfl
  | cons call calls ih =>
    show (log.answer settings among call).toList ++ _ = (log'.answer settings among call).toList ++ _
    rw [h.answer call, ih (h.step call)]

end EventLog.Same

/-! ## The tables and the log -/

namespace EventLog

/-- The answers of two runs, one after the other. -/
theorem answers_append (settings : D1State) (among : List SlowCluster → List SlowCluster) (log : EventLog)
    (before after : List D1Call) : answers settings among log (before ++ after) =
      answers settings among log before ++ answers settings among (run step log before) after := by
  induction before generalizing log with
  | nil => rfl
  | cons call before ih =>
    show (log.answer settings among call).toList ++ answers settings among (log.step call) (before ++ after) = _
    rw [ih, ← List.append_assoc]
    rfl

/-- Starts answer nothing. -/
theorem answers_observe (settings : D1State) (among : List SlowCluster → List SlowCluster) (log : EventLog)
    (starts : List ConnectionStart) (after : List D1Call) :
    answers settings among log (starts.map D1Call.observe ++ after) =
      answers settings among { log with starts := log.starts ++ starts } after := by
  induction starts generalizing log with
  | nil =>
    rw [List.append_nil]
    rfl
  | cons start starts ih =>
    show answers settings among (log.step (.observe start)) (starts.map D1Call.observe ++ after) = _
    rw [ih]
    show answers settings among ⟨log.starts ++ [start] ++ starts, log.clusters⟩ after = _
    rw [List.append_assoc]
    rfl

end EventLog

/-- The clocks of the measurements do not go back. -/
def ClocksForward (calls : List D1Call) : Prop := (calls.filterMap D1Call.now?).Pairwise (· ≤ ·)

/-- No table has to grow that is full. -/
def NoBoundReached (config : D1Config) (thresholds : D1ThresholdFile) (ports : List Nat) (calls : List D1Call) :
    Prop := Along D1State.step D1State.HasRoom (.init config thresholds ports) calls

theorem answers_eq_log {config : D1Config} {thresholds : D1ThresholdFile} {ports : List Nat} {calls : List D1Call}
    (hclocks : ClocksForward calls) (hroom : NoBoundReached config thresholds ports calls) :
    (D1State.init config thresholds ports).answers calls =
      EventLog.answers (.init config thresholds ports) EventLog.lastReported .empty calls := by
  -- nothing has been forgotten before the first measurement
  obtain ⟨last, hlast⟩ : ∃ last, ∀ now ∈ calls.filterMap D1Call.now?, last ≤ now := by
    unfold ClocksForward at hclocks
    cases hnows : calls.filterMap D1Call.now? with
    | nil => exact ⟨0, fun now hnow => nomatch hnow⟩
    | cons first rest =>
      rw [hnows] at hclocks
      refine ⟨first, fun now hnow => ?_⟩
      rcases List.mem_cons.mp hnow with rfl | hnow
      · exact le_refl now
      · exact (List.pairwise_cons.mp hclocks).1 now hnow
  exact (D1State.refines_init config thresholds ports last).answers hlast hclocks hroom

/-- D1 answers every measurement as the complete log does, of the slow clusters the last to each destination; and a
signal of the same connection before or after a start changes no answer. -/
theorem d1_refines_log (config : D1Config) (thresholds : D1ThresholdFile) (ports : List Nat)
    (calls : List D1Call) (hclocks : ClocksForward calls)
    (hroom : NoBoundReached config thresholds ports calls) :
    (D1State.init config thresholds ports).answers calls =
      EventLog.answers (.init config thresholds ports) EventLog.lastReported .empty calls ∧
    ∀ before after record signal, calls = before ++ .observe record :: after →
      startFromSignal (some record.mac.text) record.sourceIp record.destinationIp record.destinationPort .tcp
        record.atTime = some signal →
      ∀ pair ∈ [[signal, record], [record, signal]],
        NoBoundReached config thresholds ports (before ++ pair.map D1Call.observe ++ after) →
        (D1State.init config thresholds ports).answers (before ++ pair.map D1Call.observe ++ after) =
          (D1State.init config thresholds ports).answers calls := by
  refine ⟨answers_eq_log hclocks hroom, ?_⟩
  rintro before after record signal rfl hsignal pair hpair hroom'
  have hclocks' : ClocksForward (before ++ pair.map D1Call.observe ++ after) := by
    unfold ClocksForward at hclocks ⊢
    -- starts have no clock, so both runs have the same ones
    have hnone : (pair.map D1Call.observe).filterMap D1Call.now? = [] := by
      rw [List.filterMap_map]
      exact List.filterMap_eq_nil_iff.mpr fun start _ => rfl
    rw [List.filterMap_append, List.filterMap_append, hnone, List.append_nil]
    rw [List.filterMap_append, List.filterMap_cons] at hclocks
    exact hclocks
  obtain rfl := startFromSignal_signal hsignal
  have hsame : SameStarts pair [record] := by
    rcases List.mem_cons.mp hpair with rfl | hpair
    · exact .signal_record record
    · rw [List.mem_singleton.mp hpair]
      exact .record_signal record
  rw [answers_eq_log hclocks hroom, answers_eq_log hclocks' hroom', List.append_assoc,
    EventLog.answers_append _ _ _ before (pair.map D1Call.observe ++ after),
    EventLog.answers_append _ _ _ before (.observe record :: after), EventLog.answers_observe]
  refine congrArg (EventLog.answers _ _ EventLog.empty before ++ ·) ?_
  have hlogs : EventLog.Same
      { run EventLog.step .empty before with starts := (run EventLog.step .empty before).starts ++ pair }
      { run EventLog.step .empty before with starts := (run EventLog.step .empty before).starts ++ [record] } :=
    ⟨SameStarts.append (.refl _) hsame, rfl⟩
  exact (hlogs.answers after).trans (EventLog.answers_observe _ _ _ [record] after).symm

def scanner : Mac := ⟨"02:00:00:00:00:0a", by decide⟩

def scannerIp : IPv4Address := .ofOctets 10 0 0 10

def scanned : IPv4Address := .ofOctets 10 0 0 20

/-- A refused connection of the scanner, as its record tells it. -/
def refused (port : Nat) (moment : Time) : ConnectionStart where
  mac := scanner
  sourceIp := scannerIp
  destinationIp := scanned
  destinationPort := some port
  atTime := moment
  failed := some true
  durationSeconds := some 0
  byteCount := some 0

/-- The second record comes late, the third after a measurement has forgotten the second. -/
def scanCalls : List D1Call :=
  [.observe (refused 22 (seconds 50)), .observe (refused 80 (seconds 3)),
   .observeSlowCluster scanner scannerIp scanned 9 (seconds 55), .measureDevice scanner (seconds 70),
   .observe (refused 443 (seconds 52)), .measureDestination scanned (seconds 71),
   .measureDevice scanner (seconds 100)]

theorem d1_refines_log_scan :
    (D1State.init defaultD1Config floorsFile [8080]).answers scanCalls =
      EventLog.answers (.init defaultD1Config floorsFile [8080]) EventLog.lastReported .empty scanCalls ∧
    (D1State.init defaultD1Config floorsFile [8080]).answers
        (.observe (refused 22 (seconds 50)).signal :: scanCalls) =
      (D1State.init defaultD1Config floorsFile [8080]).answers scanCalls := by
  have hclocks : ClocksForward scanCalls := by
    show [seconds 70, seconds 71, seconds 100].Pairwise (· ≤ ·)
    decide
  have hroom : NoBoundReached defaultD1Config floorsFile [8080] scanCalls := by
    refine ⟨⟨.inr ?_, ?_, .inr ?_, ?_⟩, ⟨.inl ?_, ?_, .inl ?_, ?_⟩, ⟨.inl ?_, ?_⟩, trivial,
      ⟨.inl ?_, ?_, .inl ?_, ?_⟩, trivial, trivial, trivial⟩
    all_goals decide +kernel
  have hroom' : NoBoundReached defaultD1Config floorsFile [8080]
      (.observe (refused 22 (seconds 50)).signal :: scanCalls) := by
    refine ⟨⟨.inr ?_, ?_, .inr ?_, ?_⟩, ⟨.inl ?_, ?_, .inl ?_, ?_⟩, ⟨.inl ?_, ?_, .inl ?_, ?_⟩, ⟨.inl ?_, ?_⟩,
      trivial, ⟨.inl ?_, ?_, .inl ?_, ?_⟩, trivial, trivial, trivial⟩
    all_goals decide +kernel
  have hrefines := d1_refines_log defaultD1Config floorsFile [8080] scanCalls hclocks hroom
  refine ⟨hrefines.1, ?_⟩
  exact hrefines.2 [] scanCalls.tail (refused 22 (seconds 50)) (refused 22 (seconds 50)).signal rfl rfl _
    List.mem_cons_self hroom'

/-- A second report on the same destination, and one that comes late. -/
def overwrittenRuns : List (List D1Call) :=
  [[.observeSlowCluster scanner scannerIp scanned 9 (seconds 1),
    .observeSlowCluster scanner scannerIp scanned 2 (seconds 2), .measureDevice scanner (seconds 2)],
   [.observeSlowCluster scanner scannerIp scanned 9 (seconds 65),
    .observeSlowCluster scanner scannerIp scanned 2 0, .measureDevice scanner (seconds 70)]]

/-- Two events a device, and two arrivals a destination. -/
def crowdedConfig : D1Config := { defaultD1Config with
  maxEventsPerMac := 2
  maxEventsPerMac_pos := by decide }

/-- Three devices connect to one destination, each once. -/
def crowdedCalls : List D1Call :=
  [.observe (refused 22 0), .observe { refused 22 0 with mac := ⟨"02:00:00:00:00:0b", by decide⟩ },
   .observe { refused 22 0 with mac := ⟨"02:00:00:00:00:0c", by decide⟩ }, .measureDestination scanned 0]

/-- The slow-rate value does not come from all the clusters in the window; and a destination forgets arrivals when
no device has reached its bound, without a counter that says so. -/
theorem slow_cluster_overwritten :
    (∀ calls ∈ overwrittenRuns,
      ClocksForward calls ∧ NoBoundReached defaultD1Config floorsFile [] calls ∧
      (D1State.init defaultD1Config floorsFile []).answers calls ≠
        EventLog.answers (.init defaultD1Config floorsFile []) id .empty calls) ∧
    ((run D1State.step (.init crowdedConfig floorsFile []) crowdedCalls).counters.eventsDropped = 0 ∧
      (run D1State.step (.init crowdedConfig floorsFile []) crowdedCalls).counters.macsEvicted = 0 ∧
      (run D1State.step (.init crowdedConfig floorsFile []) crowdedCalls).counters.destinationsEvicted = 0 ∧
      (D1State.init crowdedConfig floorsFile []).answers crowdedCalls ≠
        EventLog.answers (.init crowdedConfig floorsFile []) id .empty crowdedCalls) := by
  refine ⟨?_, by decide +kernel⟩
  intro calls hcalls
  simp only [overwrittenRuns, List.mem_cons, List.not_mem_nil, or_false] at hcalls
  rcases hcalls with rfl | rfl
  · refine ⟨List.pairwise_singleton _ _, ⟨⟨.inr ?_, ?_⟩, ⟨.inl ?_, ?_⟩, trivial, trivial⟩, ?_⟩
    all_goals decide +kernel
  · refine ⟨List.pairwise_singleton _ _, ⟨⟨.inr ?_, ?_⟩, ⟨.inl ?_, ?_⟩, trivial, trivial⟩, ?_⟩
    all_goals decide +kernel

end Pirewall
