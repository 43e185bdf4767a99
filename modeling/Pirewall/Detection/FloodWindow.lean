/-
# Pirewall.Detection.FloodWindow -- what FLOOD sees through capped deques

FLOOD asks whether a source opened as many connections to one destination within the burst window as the threshold
allows. A state keeps the times of each destination in a deque that is capped just above the threshold, and deletes
the deque once its newest entry is older than the window.

Neither loses anything: `flood_iff` counts all connections of the source instead. What is deleted is too old for every
window to come, and what a full deque drops leaves as many as the threshold asks for.

`mul` is the product of two floats. The window begins where `timedelta` puts it, on a whole microsecond.
-/
import Pirewall.Detection.BehaviorWindow
import Mathlib.Algebra.Order.Ring.Star
import Mathlib.Data.Rat.Star

namespace Pirewall

open Lib

/-! ## The analyzer -/

/-- What a `DetectionConfig` says about the state of a source, and the thresholds of FLOOD. -/
structure DetectionConfig where
  maxTrackedSources : Nat
  maxTrackedDestinationsPerSource : Nat
  maxTrackedPortsPerSource : Nat
  maxTrackedConnectionsPerSource : Nat
  recentConnectionsWindow : Nat
  behaviorWindowSeconds : Nat
  burstWindowSeconds : ℚ
  floodConnectionsPerSecondThreshold : ℚ
  maxTrackedSources_pos : 0 < maxTrackedSources
  maxTrackedDestinationsPerSource_pos : 0 < maxTrackedDestinationsPerSource
  maxTrackedPortsPerSource_pos : 0 < maxTrackedPortsPerSource
  maxTrackedConnectionsPerSource_pos : 0 < maxTrackedConnectionsPerSource
  recentConnectionsWindow_pos : 0 < recentConnectionsWindow
  behaviorWindowSeconds_pos : 0 < behaviorWindowSeconds
  burstWindowSeconds_pos : 0 < burstWindowSeconds
  floodConnectionsPerSecondThreshold_pos : 0 < floodConnectionsPerSecondThreshold

/-- `BehaviorAnalyzer`: its sources, the one that was seen last at the end. -/
structure BehaviorAnalyzer where
  sources : Dict IPv4Address SourceBehaviorState

/-- `BehaviorAnalyzer.__init__`. -/
def BehaviorAnalyzer.new : BehaviorAnalyzer := ⟨Dict.empty⟩

section Analyzer

variable (mul : ℚ → ℚ → ℚ) (config : DetectionConfig)

/-- `flood_connections_per_second_threshold * burst_window_seconds`. -/
def DetectionConfig.floodConnections : ℚ := mul config.floodConnectionsPerSecondThreshold config.burstWindowSeconds

/-- What `_get_or_create` makes a state with. -/
def DetectionConfig.behaviorLimits : BehaviorLimits where
  maxDestinations := config.maxTrackedDestinationsPerSource
  maxPorts := config.maxTrackedPortsPerSource
  maxRecent := config.recentConnectionsWindow
  windowSeconds := config.behaviorWindowSeconds
  maxEvents := config.maxTrackedConnectionsPerSource
  floodWindowSeconds := config.burstWindowSeconds
  maxFloodEntries := ⌈config.floodConnections mul⌉.toNat + 1
  maxDestinations_pos := config.maxTrackedDestinationsPerSource_pos
  maxPorts_pos := config.maxTrackedPortsPerSource_pos
  maxRecent_pos := config.recentConnectionsWindow_pos
  maxEvents_pos := config.maxTrackedConnectionsPerSource_pos
  maxFloodEntries_pos := Nat.succ_pos _

namespace BehaviorAnalyzer

/-- `_get_or_create`: a new source takes the place of the one that was seen longest ago, if there is no other. -/
def getOrCreate (analyzer : BehaviorAnalyzer) (sourceIp : IPv4Address) (firstSeen : Time) :
    SourceBehaviorState × BehaviorAnalyzer :=
  match analyzer.sources.get? sourceIp with
  | none =>
    let sources :=
      if config.maxTrackedSources ≤ analyzer.sources.size then analyzer.sources.popFirst else analyzer.sources
    let state := SourceBehaviorState.init (config.behaviorLimits mul) firstSeen
    (state, ⟨sources.set sourceIp state⟩)
  | some state => (state, ⟨analyzer.sources.moveToEnd sourceIp⟩)

/-- `observe_new_connection`. -/
def observeNewConnection (analyzer : BehaviorAnalyzer) (sourceIp destinationIp : IPv4Address)
    (destinationPort : Option Nat) (timestamp : Time) : BehaviorAnalyzer :=
  let (state, analyzer) := analyzer.getOrCreate mul config sourceIp timestamp
  ⟨analyzer.sources.set sourceIp (state.observeNewConnection destinationIp destinationPort timestamp)⟩

end BehaviorAnalyzer

namespace SourceBehaviorState

/-- `max_recent_connections_to_single_destination`. -/
def maxRecentConnectionsToSingleDestination (s : SourceBehaviorState) : Nat :=
  let horizon := s.lastSeen - timedelta s.limits.floodWindowSeconds
  (s.recentPerDestination.values.map fun times => times.countP fun moment => horizon ≤ moment).foldr max 0

/-- The condition of FLOOD in `_assess_state`. -/
def flood (s : SourceBehaviorState) : Bool :=
  decide (config.floodConnections mul ≤ s.maxRecentConnectionsToSingleDestination)

end SourceBehaviorState

/-- Whether `assess` reports FLOOD for a source, if it is tracked. -/
def BehaviorAnalyzer.assessFlood (analyzer : BehaviorAnalyzer) (sourceIp : IPv4Address) : Option Bool :=
  (analyzer.sources.get? sourceIp).map fun state => state.flood mul config

end Analyzer

/-- A connection that a source opens. -/
structure NewConnection where
  destinationIp : IPv4Address
  destinationPort : Option Nat
  timestamp : Time

namespace NewConnection

/-- The times of the connections to a destination. -/
def timesTo (ip : IPv4Address) (connections : List NewConnection) : List Time :=
  (connections.filter fun c => c.destinationIp = ip).map NewConnection.timestamp

/-- How many connections a destination received from a moment on. -/
def received (ip : IPv4Address) (since : Time) (connections : List NewConnection) : Nat :=
  connections.countP fun c => c.destinationIp = ip ∧ since ≤ c.timestamp

end NewConnection

/-! ## What a call does to the deques -/

namespace SourceBehaviorState

theorem popEvent_recent (s : SourceBehaviorState) : s.popEvent.recentPerDestination = s.recentPerDestination := by
  rw [popEvent]
  split <;> rfl

theorem popFailure_recent (s : SourceBehaviorState) :
    s.popFailure.recentPerDestination = s.recentPerDestination := by
  rw [popFailure]
  split <;> rfl

theorem expireEvents_recent (horizon : Time) (events : List ConnectionEvent) (s : SourceBehaviorState) :
    (expireEvents horizon events s).recentPerDestination = s.recentPerDestination := by
  induction events generalizing s with
  | nil => rfl
  | cons event rest ih =>
    rw [expireEvents]
    split
    · rw [ih, popEvent_recent]
    · rfl

theorem expireFailures_recent (horizon : Time) (failures : List FailureEvent) (s : SourceBehaviorState) :
    (expireFailures horizon failures s).recentPerDestination = s.recentPerDestination := by
  induction failures generalizing s with
  | nil => rfl
  | cons failure rest ih =>
    rw [expireFailures]
    split
    · rw [ih, popFailure_recent]
    · rfl

theorem tick_recent (s : SourceBehaviorState) (timestamp : Time) :
    (s.tick timestamp).recentPerDestination = s.recentPerDestination := by
  rw [tick]
  split <;> rfl

/-- Where the burst window begins. -/
def floodHorizon (s : SourceBehaviorState) : Time := s.lastSeen - timedelta s.limits.floodWindowSeconds

/-- What `_advance` leaves of the deques: those whose newest entry is within the window. -/
theorem advance_recent (s : SourceBehaviorState) (timestamp : Time) :
    (s.advance timestamp).recentPerDestination = s.recentPerDestination.filter fun _ times =>
      !times.getLast?.any fun newest => newest < (s.advance timestamp).floodHorizon := by
  have hsame : (s.tick timestamp).expire.recentPerDestination = s.recentPerDestination := by
    rw [expire, expireFailures_recent, expireEvents_recent, tick_recent]
  have hadvanced : (s.advance timestamp).recentPerDestination =
      (s.tick timestamp).expire.recentPerDestination.filter fun _ times =>
        !times.getLast?.any fun newest => newest < (s.advance timestamp).floodHorizon := rfl
  rw [hadvanced, hsame]

/-- A new time goes to the deque of its destination, if it has one or there is room for one. -/
def noteTime (limits : BehaviorLimits) (recent : Dict IPv4Address (List Time)) (ip : IPv4Address)
    (timestamp : Time) : Dict IPv4Address (List Time) :=
  match recent.get? ip with
  | some times => recent.set ip (appendBounded limits.maxFloodEntries times timestamp)
  | none =>
    if recent.size < limits.maxDestinations then
      recent.set ip (appendBounded limits.maxFloodEntries [] timestamp)
    else recent

theorem observeNewConnection_recent (s : SourceBehaviorState) (ip : IPv4Address) (port : Option Nat)
    (timestamp : Time) : (s.observeNewConnection ip port timestamp).recentPerDestination =
      noteTime s.limits (s.advance timestamp).recentPerDestination ip timestamp := by
  have hlimits := (s.advance_spec timestamp).limits
  rw [observeNewConnection]
  by_cases hfull : (s.advance timestamp).limits.maxEvents ≤ (s.advance timestamp).events.length
  · simp only [if_pos hfull]
    rw [popEvent_recent, (s.advance timestamp).popEvent_spec.2.2.1, hlimits]
    rfl
  · simp only [if_neg hfull]
    rw [hlimits]
    rfl

/-! ## What the deques tell -/

open NewConnection

/-- The deques tell of the connections so far whatever any window to come can ask of them. -/
structure TracksFlood (limits : BehaviorLimits) (connections : List NewConnection) (s : SourceBehaviorState) :
    Prop where
  limits_eq : s.limits = limits
  keys : ∀ ip ∈ s.recentPerDestination.keys, ip ∈ connections.map NewConnection.destinationIp
  recent : ∀ ip, Recent limits.maxFloodEntries (s.floodHorizon - 1) (timesTo ip connections)
    ((s.recentPerDestination.get? ip).getD [])

variable {limits : BehaviorLimits} {connections : List NewConnection} {s : SourceBehaviorState}

theorem TracksFlood.init (limits : BehaviorLimits) (firstSeen : Time) :
    (init limits firstSeen).TracksFlood limits [] where
  limits_eq := rfl
  keys ip hip := absurd hip (by simp [SourceBehaviorState.init, Dict.keys, Dict.empty])
  recent ip := Recent.of_old (by simp [timesTo])

theorem sorted_timesTo (h : (connections.map NewConnection.timestamp).Pairwise (· ≤ ·)) (ip : IPv4Address) :
    (timesTo ip connections).Pairwise (· ≤ ·) := h.sublist (List.filter_sublist.map _)

/-- Time passes, and deques that are too old are deleted. -/
theorem TracksFlood.advance (h : s.TracksFlood limits connections)
    (hsorted : (connections.map NewConnection.timestamp).Pairwise (· ≤ ·)) (timestamp : Time) :
    (s.advance timestamp).TracksFlood limits connections := by
  obtain ⟨hlimits, hlast, -, -⟩ := s.advance_spec timestamp
  have hle : s.floodHorizon - 1 ≤ (s.advance timestamp).floodHorizon - 1 := by
    rw [floodHorizon, floodHorizon, hlimits, hlast]
    exact sub_le_sub_right (sub_le_sub_right (le_max_left s.lastSeen timestamp) _) 1
  refine ⟨hlimits.trans h.limits_eq, ?_, fun ip => ?_⟩
  · intro ip hip
    rw [advance_recent] at hip
    obtain ⟨times, hget⟩ := Dict.mem_keys_iff.mp hip
    rw [Dict.get?_filter] at hget
    exact h.keys ip (Dict.mem_keys_iff.mpr ⟨times, (Option.filter_eq_some_iff.mp hget).1⟩)
  · have hlater := (h.recent ip).later hle
    rw [advance_recent, Dict.get?_filter]
    cases hget : s.recentPerDestination.get? ip with
    | none =>
      rw [hget] at hlater
      exact hlater
    | some times =>
      rw [hget] at hlater
      cases hstale : times.getLast?.any fun newest => decide (newest < (s.advance timestamp).floodHorizon) with
      | false =>
        rw [Option.filter_some, hstale]
        exact hlater
      | true =>
        -- the newest of them is too old, and so are those that were dropped
        obtain ⟨newest, hnewest, hold⟩ := (Option.any_eq_true _ _).mp hstale
        have hforgotten := hlater.forget (sorted_timesTo hsorted ip) hnewest
          (Int.le_sub_one_of_lt (of_decide_eq_true hold))
        rw [Option.filter_some, hstale]
        exact hforgotten

theorem timesTo_snoc (ip : IPv4Address) (connections : List NewConnection) (c : NewConnection) :
    timesTo ip (connections ++ [c]) =
      timesTo ip connections ++ if c.destinationIp = ip then [c.timestamp] else [] := by
  rw [timesTo, timesTo, List.filter_append, List.map_append, List.filter_singleton]
  split <;> simp_all

/-- A destination without a deque finds room for one, as long as there are no more destinations than the cap. -/
theorem TracksFlood.hasRoom (h : s.TracksFlood limits connections) {ip : IPv4Address}
    (hget : s.recentPerDestination.get? ip = none)
    (hcap : (ip :: connections.map NewConnection.destinationIp).dedup.length ≤ limits.maxDestinations) :
    s.recentPerDestination.size < limits.maxDestinations := by
  have hnodup : (ip :: s.recentPerDestination.keys).Nodup :=
    List.nodup_cons.mpr ⟨Dict.get?_eq_none_iff.mp hget, s.recentPerDestination.nodup⟩
  have hsubset : ip :: s.recentPerDestination.keys ⊆ (ip :: connections.map NewConnection.destinationIp).dedup := by
    intro other hother
    rw [List.mem_dedup]
    rcases List.mem_cons.mp hother with rfl | hkey
    · exact List.mem_cons_self
    · exact List.mem_cons_of_mem ip (h.keys other hkey)
  have hlength := (hnodup.subperm hsubset).length_le
  rw [List.length_cons, Dict.keys, List.length_map] at hlength
  exact hlength.trans hcap

/-- **One connection.** -/
theorem TracksFlood.observeNewConnection (h : s.TracksFlood limits connections) (c : NewConnection)
    (hsorted : (connections.map NewConnection.timestamp).Pairwise (· ≤ ·))
    (hcap : (c.destinationIp :: connections.map NewConnection.destinationIp).dedup.length ≤ limits.maxDestinations) :
    (s.observeNewConnection c.destinationIp c.destinationPort c.timestamp).TracksFlood limits (connections ++ [c]) := by
  have hadvance := h.advance hsorted c.timestamp
  obtain ⟨hlimits, hlast, -, -⟩ := s.observeNewConnection_spec c.destinationIp c.destinationPort c.timestamp
  obtain ⟨hlimits', hlast', -, -⟩ := s.advance_spec c.timestamp
  have hhorizon : (s.observeNewConnection c.destinationIp c.destinationPort c.timestamp).floodHorizon =
      (s.advance c.timestamp).floodHorizon := by
    rw [floodHorizon, floodHorizon, hlimits, hlimits', hlast, hlast']
  -- its deque has the new time at the end, whether it was there or is made
  have hnoted : noteTime s.limits (s.advance c.timestamp).recentPerDestination c.destinationIp c.timestamp =
      (s.advance c.timestamp).recentPerDestination.set c.destinationIp (appendBounded limits.maxFloodEntries
        (((s.advance c.timestamp).recentPerDestination.get? c.destinationIp).getD []) c.timestamp) := by
    rw [noteTime, h.limits_eq]
    cases hget : (s.advance c.timestamp).recentPerDestination.get? c.destinationIp with
    | some times => rfl
    | none => exact if_pos (hadvance.hasRoom hget hcap)
  refine ⟨hlimits.trans h.limits_eq, ?_, fun ip => ?_⟩
  · intro ip hip
    rw [observeNewConnection_recent, hnoted, Dict.mem_keys_set] at hip
    rw [List.map_append, List.mem_append]
    rcases hip with rfl | hip
    · exact .inr (by simp)
    · exact .inl (hadvance.keys ip hip)
  · rw [observeNewConnection_recent, hnoted, hhorizon, Dict.get?_set, timesTo_snoc]
    by_cases hip : ip = c.destinationIp
    · subst hip
      rw [if_pos rfl, if_pos rfl]
      exact (hadvance.recent _).append c.timestamp
    · rw [if_neg hip, if_neg (Ne.symm hip), List.append_nil]
      exact hadvance.recent ip

/-- A connection of the source. -/
def connect (s : SourceBehaviorState) (c : NewConnection) : SourceBehaviorState :=
  s.observeNewConnection c.destinationIp c.destinationPort c.timestamp

/-- **Whole runs.** -/
theorem tracksFlood_run (limits : BehaviorLimits) (firstSeen : Time)
    (hsorted : (connections.map NewConnection.timestamp).Pairwise (· ≤ ·))
    (hcap : (connections.map NewConnection.destinationIp).dedup.length ≤ limits.maxDestinations) :
    (run connect (init limits firstSeen) connections).TracksFlood limits connections := by
  induction connections using List.reverseRecOn with
  | nil => exact TracksFlood.init limits firstSeen
  | append_singleton connections c ih =>
    rw [List.map_append] at hsorted hcap
    have hbefore := (List.pairwise_append.mp hsorted).1
    -- the destinations before the last connection are some of all
    have hfewer : (connections.map NewConnection.destinationIp).dedup.length ≤ limits.maxDestinations := by
      refine ((List.nodup_dedup _).subperm fun ip hip => ?_).length_le.trans hcap
      exact List.mem_dedup.mpr (List.mem_append_left _ (List.mem_dedup.mp hip))
    have hall : (c.destinationIp :: connections.map NewConnection.destinationIp).dedup.length =
        (connections.map NewConnection.destinationIp ++ [c].map NewConnection.destinationIp).dedup.length :=
      length_dedup_congr fun ip => by simp [or_comm]
    rw [run_append]
    exact (ih hbefore hfewer).observeNewConnection c hbefore (hall ▸ hcap)

/-- The clock of a state is at its last connection. -/
theorem lastSeen_run {firstSeen : Time} {c : NewConnection}
    (hfirst : firstSeen ≤ c.timestamp) (hlast : ∀ earlier ∈ connections, earlier.timestamp ≤ c.timestamp) :
    (run connect (init limits firstSeen) (connections ++ [c])).lastSeen = c.timestamp := by
  have hle : ∀ s : SourceBehaviorState, s.lastSeen ≤ c.timestamp →
      (run connect s connections).lastSeen ≤ c.timestamp := by
    induction connections with
    | nil => exact fun s hs => hs
    | cons earlier rest ih =>
      intro s hs
      refine ih (fun other hother => hlast other (List.mem_cons_of_mem _ hother)) _ ?_
      rw [connect, (s.observeNewConnection_spec _ _ _).lastSeen]
      exact max_le hs (hlast earlier List.mem_cons_self)
  rw [run_append, run_cons, run_nil, connect, (SourceBehaviorState.observeNewConnection_spec _ _ _ _).lastSeen]
  exact max_eq_right (hle _ hfirst)

theorem received_eq (ip : IPv4Address) (since : Time) (connections : List NewConnection) :
    received ip since connections = ((timesTo ip connections).filter fun t => since - 1 < t).length := by
  rw [timesTo, List.filter_map, List.length_map, List.filter_filter, ← List.countP_eq_length_filter, received]
  refine List.countP_congr fun c _ => ?_
  simp only [Function.comp_apply, Bool.and_eq_true, decide_eq_true_eq, Int.sub_one_lt_iff]
  exact and_comm

/-- **What FLOOD sees**: up to as many as a deque holds, the most that a destination received within the window. -/
theorem TracksFlood.le_max_iff (h : s.TracksFlood limits connections)
    (hsorted : (connections.map NewConnection.timestamp).Pairwise (· ≤ ·)) {n : Nat} (hn : n ≤ limits.maxFloodEntries) :
    n ≤ s.maxRecentConnectionsToSingleDestination ↔ ∃ ip, n ≤ received ip s.floodHorizon connections := by
  have hkept : ∀ ip times, s.recentPerDestination.get? ip = some times →
      (n ≤ times.countP (fun moment => s.floodHorizon ≤ moment) ↔ n ≤ received ip s.floodHorizon connections) := by
    intro ip times hget
    have hrecent := h.recent ip
    rw [hget, Option.getD_some] at hrecent
    rw [received_eq, ← hrecent.le_filter_iff (sorted_timesTo hsorted ip) hn, List.countP_eq_length_filter]
    simp only [Int.sub_one_lt_iff]
  have hnone : ∀ ip, s.recentPerDestination.get? ip = none → n ≤ received ip s.floodHorizon connections → n = 0 := by
    intro ip hget hle
    have hrecent := h.recent ip
    rw [hget, Option.getD_none] at hrecent
    rw [received_eq, ← hrecent.le_filter_iff (sorted_timesTo hsorted ip) hn] at hle
    simpa using hle
  rw [maxRecentConnectionsToSingleDestination, le_foldr_max_iff]
  constructor
  · rintro (rfl | ⟨count, hcount, hle⟩)
    · exact ⟨0, Nat.zero_le _⟩
    · obtain ⟨times, htimes, rfl⟩ := List.mem_map.mp hcount
      obtain ⟨ip, hget⟩ := Dict.mem_values_iff.mp htimes
      exact ⟨ip, (hkept ip times hget).mp hle⟩
  · rintro ⟨ip, hle⟩
    cases hget : s.recentPerDestination.get? ip with
    | none => exact .inl (hnone ip hget hle)
    | some times =>
      exact .inr ⟨_, List.mem_map.mpr ⟨times, Dict.mem_values_iff.mpr ⟨ip, hget⟩, rfl⟩, (hkept ip times hget).mpr hle⟩

end SourceBehaviorState

/-! ## FLOOD -/

namespace BehaviorAnalyzer

variable (mul : ℚ → ℚ → ℚ) (config : DetectionConfig)

/-- A connection of one source. -/
def connect (sourceIp : IPv4Address) (analyzer : BehaviorAnalyzer) (c : NewConnection) : BehaviorAnalyzer :=
  analyzer.observeNewConnection mul config sourceIp c.destinationIp c.destinationPort c.timestamp

/-- What a source's connection does to its state, which is made if there is none. -/
theorem get?_connect (sourceIp : IPv4Address) (analyzer : BehaviorAnalyzer) (c : NewConnection) :
    (connect mul config sourceIp analyzer c).sources.get? sourceIp =
      some (((analyzer.sources.get? sourceIp).getD (.init (config.behaviorLimits mul) c.timestamp)).connect c) := by
  rw [connect, observeNewConnection, getOrCreate]
  cases analyzer.sources.get? sourceIp <;> simp [SourceBehaviorState.connect]

/-- The state of a source that was not tracked before its first connection. -/
theorem get?_run (sourceIp : IPv4Address) (first : NewConnection) (rest : List NewConnection) :
    (run (connect mul config sourceIp) new (first :: rest)).sources.get? sourceIp =
      some (run SourceBehaviorState.connect (.init (config.behaviorLimits mul) first.timestamp) (first :: rest)) := by
  have hrest : ∀ (analyzer : BehaviorAnalyzer) (state : SourceBehaviorState),
      analyzer.sources.get? sourceIp = some state →
      (run (connect mul config sourceIp) analyzer rest).sources.get? sourceIp =
        some (run SourceBehaviorState.connect state rest) := by
    induction rest with
    | nil => exact fun analyzer state hget => hget
    | cons c rest ih =>
      intro analyzer state hget
      refine ih _ _ ?_
      rw [get?_connect, hget, Option.getD_some]
  refine hrest _ _ ?_
  rw [get?_connect]
  rfl

end BehaviorAnalyzer

/-- Where the window begins is a matter of seconds, if these are whole microseconds. -/
theorem sub_timedelta_le_iff {seconds : ℚ} {us : Int} (h : seconds * 1000000 = us) (last moment : Time) :
    last - timedelta seconds ≤ moment ↔ (((last - moment : Int) : ℚ) / 1000000 ≤ seconds) := by
  have htimedelta : timedelta seconds = us := by
    rw [timedelta, h, Int.floor_intCast]
    norm_num
  rw [htimedelta, div_le_iff₀ (by norm_num), h, Int.cast_le, sub_le_comm]

/-- **The caps on the deques lose nothing**: after any connections of a source, at times in order and to no more
destinations than the cap, it floods exactly if some destination received as many as the threshold asks for in the
window that `timedelta` takes off its last time. If the window is a whole number of microseconds, that is the last
`burst_window_seconds`. -/
theorem flood_iff (mul : ℚ → ℚ → ℚ) (config : DetectionConfig) (sourceIp : IPv4Address)
    (connections : List NewConnection) (last : NewConnection)
    (hsorted : ((connections ++ [last]).map NewConnection.timestamp).Pairwise (· ≤ ·))
    (hcap : ((connections ++ [last]).map NewConnection.destinationIp).dedup.length ≤
      config.maxTrackedDestinationsPerSource) :
    ∃ state, (run (BehaviorAnalyzer.connect mul config sourceIp) .new (connections ++ [last])).sources.get? sourceIp =
        some state ∧ state.lastSeen = last.timestamp ∧
      (state.flood mul config = true ↔ ∃ ip, config.floodConnections mul ≤ ((connections ++ [last]).countP fun c =>
        c.destinationIp = ip ∧ state.lastSeen - timedelta config.burstWindowSeconds ≤ c.timestamp : Nat)) ∧
      ∀ us : Int, config.burstWindowSeconds * 1000000 = us →
        (state.flood mul config = true ↔ ∃ ip, config.floodConnections mul ≤ ((connections ++ [last]).countP fun c =>
          c.destinationIp = ip ∧
            ((state.lastSeen - c.timestamp : Int) : ℚ) / 1000000 ≤ config.burstWindowSeconds : Nat)) := by
  obtain ⟨first, rest, hcons⟩ : ∃ first rest, connections ++ [last] = first :: rest :=
    List.exists_cons_of_ne_nil (by simp)
  have hget := BehaviorAnalyzer.get?_run mul config sourceIp first rest
  rw [← hcons] at hget
  have hbefore : ∀ earlier ∈ connections, earlier.timestamp ≤ last.timestamp := by
    rw [List.map_append] at hsorted
    exact fun earlier hearlier => (List.pairwise_append.mp hsorted).2.2 _ (List.mem_map_of_mem hearlier) _ (by simp)
  have hfirst : first.timestamp ≤ last.timestamp := by
    have hmem : first ∈ connections ++ [last] := hcons ▸ List.mem_cons_self
    rcases List.mem_append.mp hmem with hearlier | hlast
    · exact hbefore first hearlier
    · rw [List.mem_singleton.mp hlast]
  have htracks := SourceBehaviorState.tracksFlood_run (config.behaviorLimits mul) first.timestamp hsorted hcap
  have hlast : (run SourceBehaviorState.connect (.init (config.behaviorLimits mul) first.timestamp)
      (connections ++ [last])).lastSeen = last.timestamp := SourceBehaviorState.lastSeen_run hfirst hbefore
  -- the threshold is a number of connections that a deque holds
  have hflood : (run SourceBehaviorState.connect (.init (config.behaviorLimits mul) first.timestamp)
      (connections ++ [last])).flood mul config = true ↔ ∃ ip, config.floodConnections mul ≤
        ((connections ++ [last]).countP fun c => c.destinationIp = ip ∧
          last.timestamp - timedelta config.burstWindowSeconds ≤ c.timestamp : Nat) := by
    have hceil : ∀ count : Nat, config.floodConnections mul ≤ count ↔ ⌈config.floodConnections mul⌉.toNat ≤ count :=
      fun count => by rw [Int.ceil_toNat, Nat.ceil_le]
    have hhorizon := congrArg (last.timestamp - timedelta ·.floodWindowSeconds) htracks.limits_eq
    rw [SourceBehaviorState.flood, decide_eq_true_eq, hceil, htracks.le_max_iff hsorted (Nat.le_succ _),
      SourceBehaviorState.floodHorizon, hlast, hhorizon]
    exact exists_congr fun ip => (hceil _).symm
  refine ⟨_, hget, hlast, ?_, fun us hus => ?_⟩
  · rw [hlast]
    exact hflood
  · rw [hlast, hflood]
    simp only [sub_timedelta_le_iff hus]

/-- As `DetectionConfig` ships, but with the burst window and the threshold given. -/
def floodConfig (burstWindowSeconds floodConnectionsPerSecondThreshold : ℚ) (hwindow : 0 < burstWindowSeconds)
    (hthreshold : 0 < floodConnectionsPerSecondThreshold) : DetectionConfig where
  maxTrackedSources := 10000
  maxTrackedDestinationsPerSource := 200
  maxTrackedPortsPerSource := 200
  maxTrackedConnectionsPerSource := 2000
  recentConnectionsWindow := 50
  behaviorWindowSeconds := 300
  burstWindowSeconds
  floodConnectionsPerSecondThreshold
  maxTrackedSources_pos := Nat.succ_pos (nat_lit 9999)
  maxTrackedDestinationsPerSource_pos := Nat.succ_pos (nat_lit 199)
  maxTrackedPortsPerSource_pos := Nat.succ_pos (nat_lit 199)
  maxTrackedConnectionsPerSource_pos := Nat.succ_pos (nat_lit 1999)
  recentConnectionsWindow_pos := Nat.succ_pos (nat_lit 49)
  behaviorWindowSeconds_pos := Nat.succ_pos (nat_lit 299)
  burstWindowSeconds_pos := hwindow
  floodConnectionsPerSecondThreshold_pos := hthreshold

/-- A connection of the source to one server at some microsecond. -/
def toServer (timestamp : Time) : NewConnection := ⟨3232261121#32, some 80, timestamp⟩

/-- Four connections, three of them within the last second, flood at three in a second. -/
theorem flood_iff_three :
    (run (BehaviorAnalyzer.connect (· * ·) (floodConfig 1 3 (by norm_num) (by norm_num)) 3232235786#32) .new
      [toServer 0, toServer 1500000, toServer 2000000, toServer 2500000]).assessFlood (· * ·)
        (floodConfig 1 3 (by norm_num) (by norm_num)) 3232235786#32 = some true := by
  obtain ⟨state, hget, hlast, -, hflood⟩ := flood_iff (· * ·) (floodConfig 1 3 (by norm_num) (by norm_num))
    3232235786#32 [toServer 0, toServer 1500000, toServer 2000000] (toServer 2500000) (by decide) (by decide)
  have hthree := (hflood 1000000 (by norm_num [floodConfig])).mpr ⟨3232261121#32, by rw [hlast]; decide +kernel⟩
  have hassess : ∀ analyzer : BehaviorAnalyzer, analyzer.sources.get? 3232235786#32 = some state →
      analyzer.assessFlood (· * ·) (floodConfig 1 3 (by norm_num) (by norm_num)) 3232235786#32 = some true := by
    intro analyzer hstate
    rw [BehaviorAnalyzer.assessFlood, hstate, Option.map_some, hthree]
  exact hassess _ hget

/-- A window of 2^-19 seconds, 1.907… microseconds, is taken for one of 2: two connections 2 microseconds apart flood
at two in such a window, though it holds only one of them. -/
theorem flood_counts_older :
    let config := floodConfig (1 / 524288) 1048576 (by norm_num) (by norm_num)
    ∃ state, (run (BehaviorAnalyzer.connect (· * ·) config 3232235786#32) .new [toServer 0, toServer 2]).sources.get?
        3232235786#32 = some state ∧ state.lastSeen = 2 ∧ state.flood (· * ·) config = true ∧
      ¬ ∃ ip, config.floodConnections (· * ·) ≤ ([toServer 0, toServer 2].countP fun c =>
        c.destinationIp = ip ∧
          ((state.lastSeen - c.timestamp : Int) : ℚ) / 1000000 ≤ config.burstWindowSeconds : Nat) := by
  intro config
  have hstate : (run SourceBehaviorState.connect (.init (config.behaviorLimits (· * ·)) 0)
      [toServer 0, toServer 2]).lastSeen = 2 ∧
      (run SourceBehaviorState.connect (.init (config.behaviorLimits (· * ·)) 0) [toServer 0, toServer 2]).flood
        (· * ·) config = true := by decide +kernel
  refine ⟨_, BehaviorAnalyzer.get?_run (· * ·) config _ (toServer 0) [toServer 2], hstate.1, hstate.2, ?_⟩
  have htwo : config.floodConnections (· * ·) = (2 : Nat) := by
    norm_num [DetectionConfig.floodConnections, config, floodConfig]
  have hone : ([toServer 0, toServer 2].countP fun c =>
      ((2 - c.timestamp : Int) : ℚ) / 1000000 ≤ config.burstWindowSeconds) = 1 := by decide +kernel
  rintro ⟨ip, hle⟩
  refine absurd (Nat.cast_le.mp (htwo ▸ hle)) (not_le.mpr ?_)
  rw [show (toServer 0).timestamp = 0 from rfl, hstate.1]
  refine lt_of_le_of_lt (List.countP_mono_left fun c _ hc => ?_) (hone ▸ Nat.one_lt_two)
  exact decide_eq_true (of_decide_eq_true hc).2

end Pirewall
