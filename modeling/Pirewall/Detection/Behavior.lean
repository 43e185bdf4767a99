/-
# Pirewall.Detection.Behavior -- what one source did within the window

`SourceBehaviorState` remembers the connections a source opened and those of its attempts that failed, and counts
them in five dictionaries, each with a cap. A connection is taken into an index while there is room and remembers
where it was taken in; when it is forgotten, by age or because there are too many, it is counted down exactly there.

`exact_counts` is that statement for whole runs. An operation does one of two things to the indexes: it takes one
event in at the end, or it forgets the oldest; `Counts` is kept by either, whatever the times are.
-/
import Pirewall.Flow.Packet
import Pirewall.Lib.Run
import Pirewall.Lib.Tally

namespace Pirewall

open Lib

/-! ## The state -/

/-- `timedelta(seconds=…)`, in microseconds: to the nearest, and to the even one between two. -/
def timedelta (seconds : ℚ) : Int :=
  let us := seconds * 1000000
  let below := ⌊us⌋
  if us - below < 1 / 2 then below
  else if 1 / 2 < us - below then below + 1
  else if below % 2 = 0 then below
  else below + 1

/-- The caps and windows a state is made with. -/
structure BehaviorLimits where
  maxDestinations : Nat
  maxPorts : Nat
  maxRecent : Nat
  windowSeconds : ℚ
  maxEvents : Nat
  floodWindowSeconds : ℚ
  maxFloodEntries : Nat
  maxDestinations_pos : 0 < maxDestinations
  maxPorts_pos : 0 < maxPorts
  maxRecent_pos : 0 < maxRecent
  maxEvents_pos : 0 < maxEvents
  maxFloodEntries_pos : 0 < maxFloodEntries

/-- `_ConnectionEvent`: a connection, and the indexes it was taken into. -/
structure ConnectionEvent where
  timestamp : Time
  destinationIp : IPv4Address
  destinationPort : Option Nat
  destinationTracked : Bool
  portTracked : Bool
  globalPortTracked : Bool
  pairTracked : Bool
  deriving DecidableEq

/-- One entry of `_failures`. -/
structure FailureEvent where
  timestamp : Time
  destination : IPv4Address
  tracked : Bool
  deriving DecidableEq

/-- The indexes over the connections. -/
structure ConnectionIndexes where
  destinationCounts : Dict IPv4Address Nat
  ports : Dict Nat Nat
  portsPerDestination : Dict IPv4Address (Dict Nat Nat)
  connectionsPerDestination : Dict (IPv4Address × Option Nat) Nat

/-- `SourceBehaviorState`. Queues have their oldest entry first. -/
structure SourceBehaviorState extends ConnectionIndexes where
  limits : BehaviorLimits
  firstSeen : Time
  lastSeen : Time
  streakStarted : Time
  events : List ConnectionEvent
  failures : List FailureEvent
  failuresPerDestination : Dict IPv4Address Nat
  recentConnectionTimes : List Time
  slowConnectionCounts : Dict IPv4Address (Int × Time)
  recentPerDestination : Dict IPv4Address (List Time)

/-- `SourceBehaviorState.__init__`. -/
def SourceBehaviorState.init (limits : BehaviorLimits) (firstSeen : Time) : SourceBehaviorState where
  limits := limits
  firstSeen := firstSeen
  lastSeen := firstSeen
  streakStarted := firstSeen
  events := []
  failures := []
  destinationCounts := Dict.empty
  ports := Dict.empty
  portsPerDestination := Dict.empty
  connectionsPerDestination := Dict.empty
  failuresPerDestination := Dict.empty
  recentConnectionTimes := []
  slowConnectionCounts := Dict.empty
  recentPerDestination := Dict.empty

/-! ## Taking a connection in, and forgetting it -/

namespace ConnectionIndexes

/-- The indexes with one more connection, and the event that remembers where it was taken in. -/
def takeIn (indexes : ConnectionIndexes) (limits : BehaviorLimits) (destinationIp : IPv4Address)
    (destinationPort : Option Nat) (timestamp : Time) : ConnectionIndexes × ConnectionEvent :=
  let destinationTracked := hasRoom indexes.destinationCounts limits.maxDestinations destinationIp
  let portsHere := (indexes.portsPerDestination.get? destinationIp).getD Dict.empty
  let globalPortTracked := destinationPort.any (hasRoom indexes.ports limits.maxPorts)
  let portTracked := destinationPort.any fun port => destinationTracked && hasRoom portsHere limits.maxPorts port
  let pair := (destinationIp, destinationPort)
  let pairTracked := hasRoom indexes.connectionsPerDestination limits.maxDestinations pair
  ({ destinationCounts :=
       if destinationTracked then countUp indexes.destinationCounts destinationIp else indexes.destinationCounts
     ports :=
       match destinationPort with
       | none => indexes.ports
       | some port => if globalPortTracked then countUp indexes.ports port else indexes.ports
     portsPerDestination :=
       match destinationPort with
       | none => indexes.portsPerDestination
       | some port =>
         if destinationTracked then
           -- `setdefault` leaves an empty entry where the port is refused
           if portTracked then countUpIn indexes.portsPerDestination destinationIp port
           else indexes.portsPerDestination.set destinationIp portsHere
         else indexes.portsPerDestination
     connectionsPerDestination :=
       if pairTracked then countUp indexes.connectionsPerDestination pair else indexes.connectionsPerDestination },
   { timestamp, destinationIp, destinationPort, destinationTracked, portTracked, globalPortTracked, pairTracked })

/-- `_expire_event`. -/
def expireEvent (indexes : ConnectionIndexes) (event : ConnectionEvent) : ConnectionIndexes where
  destinationCounts :=
    if event.destinationTracked then countDown indexes.destinationCounts event.destinationIp
    else indexes.destinationCounts
  ports :=
    match event.destinationPort with
    | none => indexes.ports
    | some port => if event.globalPortTracked then countDown indexes.ports port else indexes.ports
  portsPerDestination :=
    match event.destinationPort with
    | none => indexes.portsPerDestination
    | some port =>
      if event.portTracked then countDownIn indexes.portsPerDestination event.destinationIp port
      else indexes.portsPerDestination
  connectionsPerDestination :=
    if event.pairTracked then
      countDown indexes.connectionsPerDestination (event.destinationIp, event.destinationPort)
    else indexes.connectionsPerDestination

end ConnectionIndexes

/-- `append` on a `deque(maxlen=…)`: the oldest goes when a full one grows. -/
def appendBounded {α : Type} (maxlen : Nat) (items : List α) (item : α) : List α :=
  (items ++ [item]).drop ((items ++ [item]).length - maxlen)

namespace SourceBehaviorState

/-- `self._expire_event(self._events.popleft())`. -/
def popEvent (s : SourceBehaviorState) : SourceBehaviorState :=
  match s.events with
  | [] => s
  | event :: rest => { s with toConnectionIndexes := s.expireEvent event, events := rest }

/-- `self._expire_failure(self._failures.popleft())`. -/
def popFailure (s : SourceBehaviorState) : SourceBehaviorState :=
  match s.failures with
  | [] => s
  | failure :: rest =>
    { s with
      failuresPerDestination :=
        if failure.tracked then countDown s.failuresPerDestination failure.destination
        else s.failuresPerDestination
      failures := rest }

/-- The loop over the connections in `_advance`: as long as the oldest is before the horizon. -/
def expireEvents (horizon : Time) : List ConnectionEvent → SourceBehaviorState → SourceBehaviorState
  | [], s => s
  | event :: rest, s => if event.timestamp < horizon then expireEvents horizon rest s.popEvent else s

/-- The loop over the failures in `_advance`. -/
def expireFailures (horizon : Time) : List FailureEvent → SourceBehaviorState → SourceBehaviorState
  | [], s => s
  | failure :: rest, s => if failure.timestamp < horizon then expireFailures horizon rest s.popFailure else s

/-- Where the window of the state begins. -/
def horizon (s : SourceBehaviorState) : Time := s.lastSeen - timedelta s.limits.windowSeconds

/-- The clock of `_advance`: the newest timestamp seen, and the start of the streak. -/
def tick (s : SourceBehaviorState) (timestamp : Time) : SourceBehaviorState :=
  if s.lastSeen < timestamp then
    { s with
      streakStarted :=
        if s.limits.windowSeconds < ((timestamp - s.lastSeen : Int) : ℚ) / 1000000 then timestamp else s.streakStarted
      lastSeen := timestamp }
  else s

/-- The two loops of `_advance`. -/
def expire (s : SourceBehaviorState) : SourceBehaviorState :=
  let s := expireEvents s.horizon s.events s
  expireFailures s.horizon s.failures s

/-- `_advance`. -/
def advance (s : SourceBehaviorState) (timestamp : Time) : SourceBehaviorState :=
  let s := (s.tick timestamp).expire
  let floodHorizon := s.lastSeen - timedelta s.limits.floodWindowSeconds
  { s with
    recentPerDestination :=
      s.recentPerDestination.filter fun _ times => !times.getLast?.any fun newest => newest < floodHorizon
    slowConnectionCounts := s.slowConnectionCounts.filter fun _ snapshot => !decide (snapshot.2 < s.horizon) }

/-- `observe_new_connection`. -/
def observeNewConnection (s : SourceBehaviorState) (destinationIp : IPv4Address) (destinationPort : Option Nat)
    (timestamp : Time) : SourceBehaviorState :=
  let s := s.advance timestamp
  let s := if s.limits.maxEvents ≤ s.events.length then s.popEvent else s
  let (indexes, event) := s.takeIn s.limits destinationIp destinationPort timestamp
  { s with
    toConnectionIndexes := indexes
    events := s.events ++ [event]
    recentConnectionTimes := appendBounded s.limits.maxRecent s.recentConnectionTimes timestamp
    recentPerDestination :=
      match s.recentPerDestination.get? destinationIp with
      | some times => s.recentPerDestination.set destinationIp (appendBounded s.limits.maxFloodEntries times timestamp)
      | none =>
        if s.recentPerDestination.size < s.limits.maxDestinations then
          s.recentPerDestination.set destinationIp (appendBounded s.limits.maxFloodEntries [] timestamp)
        else s.recentPerDestination }

/-- The end of `observe_completion`, once the flow is known to have failed. -/
def noteFailure (s : SourceBehaviorState) (destination : IPv4Address) (timestamp : Time) : SourceBehaviorState :=
  let s := if s.limits.maxEvents ≤ s.failures.length then s.popFailure else s
  let tracked := hasRoom s.failuresPerDestination s.limits.maxDestinations destination
  { s with
    failuresPerDestination :=
      if tracked then countUp s.failuresPerDestination destination else s.failuresPerDestination
    failures := s.failures ++ [⟨timestamp, destination, tracked⟩] }

end SourceBehaviorState

/-- `is_failed_connection_attempt`: a TCP flow with a SYN and no answer at all. -/
def isFailedConnectionAttempt (flow : Flow) : Bool :=
  if flow.protocol ≠ .tcp then false
  else if flow.backwardPacketCount ≠ 0 then false
  else decide (1 ≤ flow.tcpFlags.syn)

namespace SourceBehaviorState

/-- `observe_completion`. -/
def observeCompletion (s : SourceBehaviorState) (flow : Flow) : SourceBehaviorState :=
  let s := s.advance flow.lastSeen.us
  if !isFailedConnectionAttempt flow then s else s.noteFailure flow.destinationIp flow.lastSeen.us

/-- `observe`. -/
def observe (s : SourceBehaviorState) (flow : Flow) : SourceBehaviorState :=
  (s.observeNewConnection flow.destinationIp (flow.destinationPort.map Fin.val) flow.firstSeen.us).observeCompletion
    flow

/-- `note_slow_connections`. -/
def noteSlowConnections (s : SourceBehaviorState) (destinationIp : IPv4Address) (count : Int) (timestamp : Time) :
    SourceBehaviorState :=
  let s := s.advance timestamp
  if hasRoom s.slowConnectionCounts s.limits.maxDestinations destinationIp then
    { s with slowConnectionCounts := s.slowConnectionCounts.set destinationIp (count, timestamp) }
  else s

/-- `prune`. -/
def prune (s : SourceBehaviorState) (now : Time) : SourceBehaviorState := s.advance now

end SourceBehaviorState

/-- The calls on a `SourceBehaviorState`. -/
inductive BehaviorOp where
  | observeNewConnection (destinationIp : IPv4Address) (destinationPort : Option Nat) (timestamp : Time)
  | observeCompletion (flow : Flow)
  | observe (flow : Flow)
  | noteSlowConnections (destinationIp : IPv4Address) (count : Int) (timestamp : Time)
  | prune (now : Time)

/-- One call. -/
def SourceBehaviorState.perform (s : SourceBehaviorState) : BehaviorOp → SourceBehaviorState
  | .observeNewConnection destinationIp destinationPort timestamp =>
    s.observeNewConnection destinationIp destinationPort timestamp
  | .observeCompletion flow => s.observeCompletion flow
  | .observe flow => s.observe flow
  | .noteSlowConnections destinationIp count timestamp => s.noteSlowConnections destinationIp count timestamp
  | .prune now => s.prune now

/-! ## What the indexes count -/

namespace ConnectionEvent

/-- Where `destination_counts` counts a connection. -/
def destinationKey (event : ConnectionEvent) : Option IPv4Address :=
  if event.destinationTracked then some event.destinationIp else none

/-- Where `ports` counts it. -/
def portKey (event : ConnectionEvent) : Option Nat :=
  event.destinationPort.bind fun port => if event.globalPortTracked then some port else none

/-- Where `ports_per_destination` counts it. -/
def portAtKey (event : ConnectionEvent) : Option (IPv4Address × Nat) :=
  event.destinationPort.bind fun port => if event.portTracked then some (event.destinationIp, port) else none

/-- Where `connections_per_destination` counts it. -/
def pairKey (event : ConnectionEvent) : Option (IPv4Address × Option Nat) :=
  if event.pairTracked then some (event.destinationIp, event.destinationPort) else none

end ConnectionEvent

/-- Where `failures_per_destination` counts a failure. -/
def FailureEvent.key (failure : FailureEvent) : Option IPv4Address :=
  if failure.tracked then some failure.destination else none

namespace ConnectionIndexes

/-- The indexes count the events that were taken into them, key by key. -/
structure Counts (indexes : ConnectionIndexes) (events : List ConnectionEvent) : Prop where
  destinationCounts : Lib.Tally indexes.destinationCounts (events.filterMap ConnectionEvent.destinationKey)
  ports : Lib.Tally indexes.ports (events.filterMap ConnectionEvent.portKey)
  portsPerDestination : Grouped indexes.portsPerDestination (events.filterMap ConnectionEvent.portAtKey)
  connectionsPerDestination : Lib.Tally indexes.connectionsPerDestination (events.filterMap ConnectionEvent.pairKey)

/-- The indexes keep their caps. -/
structure WithinCaps (indexes : ConnectionIndexes) (limits : BehaviorLimits) : Prop where
  destinationCounts : indexes.destinationCounts.size ≤ limits.maxDestinations
  ports : indexes.ports.size ≤ limits.maxPorts
  portsHere : ∀ destinationIp ports, indexes.portsPerDestination.get? destinationIp = some ports →
    ports.size ≤ limits.maxPorts
  connectionsPerDestination : indexes.connectionsPerDestination.size ≤ limits.maxDestinations

variable {indexes : ConnectionIndexes} {limits : BehaviorLimits} {events : List ConnectionEvent}

/-- A port is refused only where others are counted, so `setdefault` leaves no empty entry. -/
theorem setdefault_eq_self {groups : Dict IPv4Address (Dict Nat Nat)} {destinationIp : IPv4Address} {port : Nat}
    (hfull : hasRoom ((groups.get? destinationIp).getD Dict.empty) limits.maxPorts port = false) :
    groups.set destinationIp ((groups.get? destinationIp).getD Dict.empty) = groups := by
  cases hget : groups.get? destinationIp with
  | none =>
    rw [hget] at hfull
    have hroom : hasRoom (Dict.empty : Dict Nat Nat) limits.maxPorts port = true := by
      rw [hasRoom, Bool.or_eq_true]
      exact .inr (decide_eq_true limits.maxPorts_pos)
    exact absurd (hroom.symm.trans hfull) (by simp)
  | some ports => exact Dict.set_eq_self_iff.mpr hget

theorem Counts.takeIn_portsPerDestination (h : indexes.Counts events) (limits : BehaviorLimits)
    (destinationIp : IPv4Address) (port : Nat) (timestamp : Time) :
    Grouped (indexes.takeIn limits destinationIp (some port) timestamp).1.portsPerDestination
      (events.filterMap ConnectionEvent.portAtKey ++
        (indexes.takeIn limits destinationIp (some port) timestamp).2.portAtKey.toList) := by
  simp only [takeIn, ConnectionEvent.portAtKey, Option.any_some, Option.bind_some]
  cases hroom : hasRoom indexes.destinationCounts limits.maxDestinations destinationIp with
  | false =>
    simp only [Bool.false_and, Bool.false_eq_true, reduceIte]
    exact (List.append_nil _).symm ▸ h.portsPerDestination
  | true =>
    simp only [Bool.true_and, reduceIte]
    cases hport : hasRoom ((indexes.portsPerDestination.get? destinationIp).getD Dict.empty) limits.maxPorts port with
    | true => exact h.portsPerDestination.countUp destinationIp port
    | false =>
      simp only [reduceIte, Bool.false_eq_true, setdefault_eq_self hport]
      exact (List.append_nil _).symm ▸ h.portsPerDestination

/-- One more connection is taken in, and the event says where. -/
theorem Counts.takeIn (h : indexes.Counts events) (limits : BehaviorLimits) (destinationIp : IPv4Address)
    (destinationPort : Option Nat) (timestamp : Time) :
    (indexes.takeIn limits destinationIp destinationPort timestamp).1.Counts
      (events ++ [(indexes.takeIn limits destinationIp destinationPort timestamp).2]) := by
  constructor
  · rw [filterMap_concat_toList]
    exact h.destinationCounts.countUpIf _ _
  · rw [filterMap_concat_toList]
    cases destinationPort with
    | none => exact (List.append_nil _).symm ▸ h.ports
    | some port => exact h.ports.countUpIf _ _
  · rw [filterMap_concat_toList]
    cases destinationPort with
    | none => exact (List.append_nil _).symm ▸ h.portsPerDestination
    | some port => exact h.takeIn_portsPerDestination limits destinationIp port timestamp
  · rw [filterMap_concat_toList]
    exact h.connectionsPerDestination.countUpIf _ _

/-- The oldest event goes, and with it what it counted. -/
theorem Counts.expireEvent {event : ConnectionEvent} (h : indexes.Counts (event :: events)) :
    (indexes.expireEvent event).Counts events := by
  obtain ⟨hdestinations, hports, hportsPer, hpairs⟩ := h
  rw [filterMap_cons_toList] at hdestinations hports hportsPer hpairs
  obtain ⟨timestamp, destinationIp, destinationPort, destinationTracked, portTracked, globalPortTracked, pairTracked⟩ :=
    event
  constructor
  · exact hdestinations.countDownIf
  · cases destinationPort with
    | none => exact hports
    | some port => exact hports.countDownIf
  · cases destinationPort with
    | none => exact hportsPer
    | some port =>
      cases portTracked with
      | true => exact hportsPer.countDown
      | false => exact hportsPer
  · exact hpairs.countDownIf

/-- A connection is taken in only where there is room. -/
theorem WithinCaps.takeIn (h : indexes.WithinCaps limits) (destinationIp : IPv4Address) (destinationPort : Option Nat)
    (timestamp : Time) : (indexes.takeIn limits destinationIp destinationPort timestamp).1.WithinCaps limits := by
  have hcount : ∀ {κ : Type} [DecidableEq κ] (counts : Dict κ Nat) (cap : Nat) (k : κ), counts.size ≤ cap →
      (if hasRoom counts cap k then countUp counts k else counts).size ≤ cap := by
    intro κ _ counts cap k hsize
    split
    · rename_i hroom
      exact size_set_le hroom hsize _
    · exact hsize
  constructor
  · exact hcount _ _ _ h.destinationCounts
  · cases destinationPort with
    | none => exact h.ports
    | some port => exact hcount _ _ _ h.ports
  · intro destinationIp' ports hget
    cases destinationPort with
    | none => exact h.portsHere destinationIp' ports hget
    | some port =>
      simp only [ConnectionIndexes.takeIn, Option.any_some] at hget
      -- what stands under the destination before, and whatever is made of it, keeps the cap
      have hhere : ((indexes.portsPerDestination.get? destinationIp).getD Dict.empty).size ≤ limits.maxPorts := by
        cases hold : indexes.portsPerDestination.get? destinationIp with
        | none => exact Nat.zero_le _
        | some ports => exact h.portsHere destinationIp ports hold
      split at hget
      · rename_i htracked
        simp only [htracked, Bool.true_and] at hget
        split at hget
        · rename_i hroom
          rw [countUpIn, Dict.get?_set] at hget
          split at hget
          · exact Option.some.inj hget ▸ size_set_le hroom hhere _
          · exact h.portsHere destinationIp' ports hget
        · rw [Dict.get?_set] at hget
          split at hget
          · exact Option.some.inj hget ▸ hhere
          · exact h.portsHere destinationIp' ports hget
      · exact h.portsHere destinationIp' ports hget
  · exact hcount _ _ _ h.connectionsPerDestination

theorem WithinCaps.expireEvent (h : indexes.WithinCaps limits) (event : ConnectionEvent) :
    (indexes.expireEvent event).WithinCaps limits := by
  have hcount : ∀ {κ : Type} [DecidableEq κ] (counts : Dict κ Nat) (taken : Bool) (cap : Nat) (k : κ),
      counts.size ≤ cap → (if taken then countDown counts k else counts).size ≤ cap := by
    intro κ _ counts taken cap k hsize
    split
    · exact (size_countDown_le counts k).trans hsize
    · exact hsize
  obtain ⟨timestamp, destinationIp, destinationPort, destinationTracked, portTracked, globalPortTracked, pairTracked⟩ :=
    event
  constructor
  · exact hcount _ _ _ _ h.destinationCounts
  · cases destinationPort with
    | none => exact h.ports
    | some port => exact hcount _ _ _ _ h.ports
  · intro destinationIp' ports hget
    cases destinationPort with
    | none => exact h.portsHere destinationIp' ports hget
    | some port =>
      cases portTracked with
      | false => exact h.portsHere destinationIp' ports hget
      | true =>
        obtain ⟨before, hbefore, hle⟩ := get?_countDownIn (show (countDownIn indexes.portsPerDestination
          destinationIp port).get? destinationIp' = some ports from hget)
        exact hle.trans (h.portsHere destinationIp' before hbefore)
  · exact hcount _ _ _ _ h.connectionsPerDestination

/-- A port is counted under a destination only as long as the destination is counted. -/
theorem Counts.ports_subset (h : indexes.Counts events)
    (htracked : ∀ event ∈ events, event.portTracked = true → event.destinationTracked = true) :
    ∀ destinationIp ∈ indexes.portsPerDestination.keys, destinationIp ∈ indexes.destinationCounts.keys := by
  intro destinationIp hkey
  obtain ⟨port, hport⟩ := h.portsPerDestination.exists_mem_of_mem_keys hkey
  obtain ⟨event, hevent, hkey⟩ := List.mem_filterMap.mp hport
  rw [h.destinationCounts.mem_keys_iff]
  refine List.mem_filterMap.mpr ⟨event, hevent, ?_⟩
  obtain ⟨port', -, hif⟩ := Option.bind_eq_some_iff.mp hkey
  split at hif
  · rename_i hflag
    rw [ConnectionEvent.destinationKey, if_pos (htracked event hevent hflag), (Prod.mk.inj (Option.some.inj hif)).1]
  · exact absurd hif (by simp)

end ConnectionIndexes

/-! ## One operation -/

namespace SourceBehaviorState

/-- Every index counts what is remembered, and nothing is beyond its cap. -/
structure Exact (limits : BehaviorLimits) (s : SourceBehaviorState) : Prop where
  limits_eq : s.limits = limits
  connections : s.Counts s.events
  caps : s.WithinCaps limits
  tracked : ∀ event ∈ s.events, event.portTracked = true → event.destinationTracked = true
  failures : Lib.Tally s.failuresPerDestination (s.failures.filterMap FailureEvent.key)
  failuresPerDestination_le : s.failuresPerDestination.size ≤ limits.maxDestinations
  events_le : s.events.length ≤ limits.maxEvents
  failures_le : s.failures.length ≤ limits.maxEvents

variable {limits : BehaviorLimits} {s : SourceBehaviorState}

theorem Exact.init (limits : BehaviorLimits) (firstSeen : Time) : (init limits firstSeen).Exact limits where
  limits_eq := rfl
  connections := ⟨.empty, .empty, .empty, .empty⟩
  caps := ⟨Nat.zero_le _, Nat.zero_le _, by simp [SourceBehaviorState.init], Nat.zero_le _⟩
  tracked := by simp [SourceBehaviorState.init]
  failures := .empty
  failuresPerDestination_le := Nat.zero_le _
  events_le := Nat.zero_le _
  failures_le := Nat.zero_le _

/-- Forgetting the oldest connection. -/
theorem Exact.popEvent (h : s.Exact limits) : s.popEvent.Exact limits := by
  rw [SourceBehaviorState.popEvent]
  cases hevents : s.events with
  | nil => exact h
  | cons event rest =>
    have hcounts := h.connections
    have htracked := h.tracked
    have hlength := h.events_le
    rw [hevents] at hcounts htracked hlength
    exact { h with
      connections := hcounts.expireEvent
      caps := h.caps.expireEvent event
      tracked := fun other hother => htracked other (List.mem_cons_of_mem _ hother)
      events_le := (Nat.le_succ _).trans hlength }

/-- Forgetting the oldest failure. -/
theorem Exact.popFailure (h : s.Exact limits) : s.popFailure.Exact limits := by
  rw [SourceBehaviorState.popFailure]
  cases hfailures : s.failures with
  | nil => exact h
  | cons failure rest =>
    have htally := h.failures
    have hlength := h.failures_le
    rw [hfailures, filterMap_cons_toList] at htally
    rw [hfailures] at hlength
    have hsize : (if failure.tracked then countDown s.failuresPerDestination failure.destination
        else s.failuresPerDestination).size ≤ limits.maxDestinations := by
      split
      · exact (size_countDown_le _ _).trans h.failuresPerDestination_le
      · exact h.failuresPerDestination_le
    exact { h with
      failures := htally.countDownIf
      failuresPerDestination_le := hsize
      failures_le := (Nat.le_succ _).trans hlength }

theorem Exact.expireEvents (horizon : Time) (events : List ConnectionEvent) (h : s.Exact limits) :
    (expireEvents horizon events s).Exact limits := by
  induction events generalizing s with
  | nil => exact h
  | cons event rest ih =>
    rw [SourceBehaviorState.expireEvents]
    split
    · exact ih h.popEvent
    · exact h

theorem Exact.expireFailures (horizon : Time) (failures : List FailureEvent) (h : s.Exact limits) :
    (expireFailures horizon failures s).Exact limits := by
  induction failures generalizing s with
  | nil => exact h
  | cons failure rest ih =>
    rw [SourceBehaviorState.expireFailures]
    split
    · exact ih h.popFailure
    · exact h

theorem Exact.tick (h : s.Exact limits) (timestamp : Time) : (s.tick timestamp).Exact limits := by
  rw [SourceBehaviorState.tick]
  split
  · exact { h with }
  · exact h

/-- Whatever time comes, `_advance` only forgets. -/
theorem Exact.advance (h : s.Exact limits) (timestamp : Time) : (s.advance timestamp).Exact limits := by
  have hexpired : (s.tick timestamp).expire.Exact limits := by
    apply Exact.expireFailures
    exact (h.tick timestamp).expireEvents _ _
  exact { hexpired with }

/-- There is room for one more connection once the oldest went. -/
theorem Exact.roomForEvent (h : s.Exact limits) :
    (if s.limits.maxEvents ≤ s.events.length then s.popEvent else s).Exact limits ∧
      (if s.limits.maxEvents ≤ s.events.length then s.popEvent else s).events.length < limits.maxEvents := by
  have hpos := limits.maxEvents_pos
  have hle := h.events_le
  rw [h.limits_eq]
  split
  · refine ⟨h.popEvent, ?_⟩
    rw [SourceBehaviorState.popEvent]
    cases hevents : s.events with
    | nil =>
      show s.events.length < limits.maxEvents
      rw [hevents]
      exact hpos
    | cons event rest =>
      rw [hevents, List.length_cons] at hle
      exact hle
  · rename_i hroom
    exact ⟨h, Nat.lt_of_not_le hroom⟩

theorem Exact.roomForFailure (h : s.Exact limits) :
    (if s.limits.maxEvents ≤ s.failures.length then s.popFailure else s).Exact limits ∧
      (if s.limits.maxEvents ≤ s.failures.length then s.popFailure else s).failures.length < limits.maxEvents := by
  have hpos := limits.maxEvents_pos
  have hle := h.failures_le
  rw [h.limits_eq]
  split
  · refine ⟨h.popFailure, ?_⟩
    rw [SourceBehaviorState.popFailure]
    cases hfailures : s.failures with
    | nil =>
      show s.failures.length < limits.maxEvents
      rw [hfailures]
      exact hpos
    | cons failure rest =>
      rw [hfailures, List.length_cons] at hle
      exact hle
  · rename_i hroom
    exact ⟨h, Nat.lt_of_not_le hroom⟩

theorem Exact.observeNewConnection (h : s.Exact limits) (destinationIp : IPv4Address) (destinationPort : Option Nat)
    (timestamp : Time) : (s.observeNewConnection destinationIp destinationPort timestamp).Exact limits := by
  rw [SourceBehaviorState.observeNewConnection]
  simp only
  obtain ⟨hroom, hlength⟩ := (h.advance timestamp).roomForEvent
  -- the state the connection is taken into
  generalize (if (s.advance timestamp).limits.maxEvents ≤ (s.advance timestamp).events.length
    then (s.advance timestamp).popEvent else s.advance timestamp) = room at hroom hlength ⊢
  refine { hroom with
    connections := hroom.connections.takeIn _ _ _ _
    caps := ?_
    tracked := ?_
    events_le := ?_ }
  · rw [hroom.limits_eq]
    exact hroom.caps.takeIn destinationIp destinationPort timestamp
  · intro event hevent htracked
    rcases List.mem_append.mp hevent with hold | hnew
    · exact hroom.tracked event hold htracked
    · obtain rfl := List.mem_singleton.mp hnew
      cases destinationPort with
      | none => exact absurd htracked (by simp [ConnectionIndexes.takeIn])
      | some port =>
        simp only [ConnectionIndexes.takeIn, Option.any_some, Bool.and_eq_true] at htracked
        exact htracked.1
  · show (room.events ++ [_]).length ≤ limits.maxEvents
    rw [List.length_append]
    exact hlength

theorem Exact.noteFailure (h : s.Exact limits) (destination : IPv4Address) (timestamp : Time) :
    (s.noteFailure destination timestamp).Exact limits := by
  rw [SourceBehaviorState.noteFailure]
  obtain ⟨hroom, hlength⟩ := h.roomForFailure
  generalize (if s.limits.maxEvents ≤ s.failures.length then s.popFailure else s) = room at hroom hlength ⊢
  refine { hroom with
    failures := ?_
    failuresPerDestination_le := ?_
    failures_le := ?_ }
  · rw [filterMap_concat_toList]
    exact hroom.failures.countUpIf _ _
  · show (if hasRoom room.failuresPerDestination room.limits.maxDestinations destination then
      countUp room.failuresPerDestination destination else room.failuresPerDestination).size ≤ limits.maxDestinations
    rw [hroom.limits_eq]
    split
    · rename_i htracked
      exact size_set_le htracked hroom.failuresPerDestination_le _
    · exact hroom.failuresPerDestination_le
  · show (room.failures ++ [_]).length ≤ limits.maxEvents
    rw [List.length_append]
    exact hlength

theorem Exact.observeCompletion (h : s.Exact limits) (flow : Flow) : (s.observeCompletion flow).Exact limits := by
  simp only [SourceBehaviorState.observeCompletion]
  split
  · exact h.advance _
  · exact (h.advance _).noteFailure _ _

theorem Exact.noteSlowConnections (h : s.Exact limits) (destinationIp : IPv4Address) (count : Int)
    (timestamp : Time) : (s.noteSlowConnections destinationIp count timestamp).Exact limits := by
  simp only [SourceBehaviorState.noteSlowConnections]
  split
  · exact { h.advance timestamp with }
  · exact h.advance timestamp

/-- Every call keeps the counts exact. -/
theorem Exact.perform (h : s.Exact limits) (op : BehaviorOp) : (s.perform op).Exact limits := by
  cases op with
  | observeNewConnection destinationIp destinationPort timestamp => exact h.observeNewConnection _ _ _
  | observeCompletion flow => exact h.observeCompletion flow
  | observe flow => exact (h.observeNewConnection _ _ _).observeCompletion flow
  | noteSlowConnections destinationIp count timestamp => exact h.noteSlowConnections _ _ _
  | prune now => exact h.advance now

/-! ## Whole runs -/

/-- The counts are exact after any calls. -/
theorem exact_run (limits : BehaviorLimits) (firstSeen : Time) (ops : List BehaviorOp) :
    (run perform (init limits firstSeen) ops).Exact limits := by
  have hevery : Along perform (fun _ _ => True) (init limits firstSeen) ops :=
    Along.of_forall (fun _ _ _ => trivial) _
  exact hevery.invariant (fun _ op h _ => h.perform op) (Exact.init limits firstSeen)

end SourceBehaviorState

/-- **Exact counters**: after any calls at any times, every index holds for each key the number of remembered events
taken in for it and no empty entry, every cap is kept, and ports are counted only under counted destinations. -/
theorem exact_counts (limits : BehaviorLimits) (firstSeen : Time) (ops : List BehaviorOp) :
    let s := run SourceBehaviorState.perform (.init limits firstSeen) ops
    s.Counts s.events ∧ Lib.Tally s.failuresPerDestination (s.failures.filterMap FailureEvent.key) ∧
      (s.WithinCaps limits ∧ s.portsPerDestination.size ≤ limits.maxDestinations ∧
        s.failuresPerDestination.size ≤ limits.maxDestinations ∧ s.events.length ≤ limits.maxEvents ∧
        s.failures.length ≤ limits.maxEvents) ∧
      ∀ destinationIp ∈ s.portsPerDestination.keys, destinationIp ∈ s.destinationCounts.keys := by
  have h := SourceBehaviorState.exact_run limits firstSeen ops
  have hsubset := h.connections.ports_subset h.tracked
  exact ⟨h.connections, h.failures,
    ⟨h.caps, (Dict.size_le_of_keys hsubset).trans h.caps.destinationCounts, h.failuresPerDestination_le, h.events_le,
      h.failures_le⟩, hsubset⟩

end Pirewall
