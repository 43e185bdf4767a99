/-
# Pirewall.Detection.D1 -- the deterministic detectors

`detection_v2/d1.py`: connection starts, slow clusters, leases and failed portal logins, folded into bounded
tables, and the detectors that count over sliding windows of them. A detector above its threshold fires
`D1Evidence`, whose id names the detector, the scope, the window, the subject and the *bucket* of the window
the clock is in. The count slides with the clock and the bucket does not.

A method that changes the tables returns them: measuring a device forgets what its longest window has left
behind. Values and thresholds are exact rationals, and the bucket is the floor of an exact quotient.
-/
import Mathlib.Data.List.Dedup
import Mathlib.Data.List.Sort
import Pirewall.Lib.Text
import Pirewall.Lib.Window
import Pirewall.Policy.Evidence

namespace Pirewall

open Lib

/-! ## Thresholds -/

/-- What one threshold counts over: one MAC, one destination, one portal account, or the whole LAN. -/
inductive Scope where
  | device | destination | account | global
  deriving DecidableEq, Repr

def Scope.value : Scope → String
  | .device => "device"
  | .destination => "destination"
  | .account => "account"
  | .global => "global"

/-- The name of one threshold. -/
structure ThresholdKey where
  detector : D1Detector
  scope : Scope
  windowSeconds : Nat
  deriving DecidableEq

/-- A thresholds file, as the detectors read it. -/
structure D1ThresholdFile where
  /-- `value`: the threshold in force, none when the file has no such entry. -/
  value : ThresholdKey → Option Rat
  /-- `Field(ge=0.0)` of an entry. -/
  nonneg : ∀ key threshold, value key = some threshold → 0 ≤ threshold

/-- `config/d1_thresholds.toml`: the floors, until benign data has been fitted. -/
def floors : List (ThresholdKey × Rat) :=
  [(⟨.bruteForce, .device, 10⟩, 10), (⟨.bruteForce, .device, 60⟩, 20),
   (⟨.failedHandshake, .device, 10⟩, 3 / 5), (⟨.failedHandshake, .device, 60⟩, 1 / 2),
   (⟨.fanIn, .destination, 10⟩, 10), (⟨.fanIn, .destination, 60⟩, 20),
   (⟨.horizontalScan, .device, 10⟩, 20), (⟨.horizontalScan, .device, 60⟩, 40),
   (⟨.newLeaseRate, .global, 10⟩, 5), (⟨.newLeaseRate, .global, 60⟩, 10),
   (⟨.newMacRate, .global, 10⟩, 5), (⟨.newMacRate, .global, 60⟩, 10),
   (⟨.portalAuthFailures, .account, 10⟩, 5), (⟨.portalAuthFailures, .account, 60⟩, 10),
   (⟨.portalAuthFailures, .global, 10⟩, 15), (⟨.portalAuthFailures, .global, 60⟩, 30),
   (⟨.slowRateDos, .device, 10⟩, 8), (⟨.slowRateDos, .device, 60⟩, 8),
   (⟨.verticalScan, .device, 10⟩, 15), (⟨.verticalScan, .device, 60⟩, 25)]

theorem floors_nonneg : ∀ entry ∈ floors, 0 ≤ entry.2 := by decide +kernel

/-- `floors_file`. -/
def floorsFile : D1ThresholdFile where
  value key := floors.lookup key
  nonneg key threshold h := by
    obtain ⟨before, after, heq, _⟩ := List.lookup_eq_some_iff.mp h
    exact floors_nonneg (key, threshold) (heq ▸ List.mem_append_right _ List.mem_cons_self)

/-! ## Configuration -/

/-- The `[d1]` section, with what its model validates. -/
structure D1Config where
  windowsSeconds : List Nat
  maxTrackedMacs : Nat
  maxTrackedDestinations : Nat
  maxEventsPerMac : Nat
  maxTrackedAccounts : Nat
  evaluationCooldownSeconds : Rat
  bruteForcePorts : List Nat
  bruteForceMaxDurationSeconds : Rat
  bruteForceSizeTolerance : Rat
  failedHandshakeMinStarts : Nat
  kernelPollIntervalSeconds : Rat
  maxKnownMacs : Nat
  maxTrackedMacs_pos : 0 < maxTrackedMacs
  maxTrackedDestinations_pos : 0 < maxTrackedDestinations
  maxEventsPerMac_pos : 0 < maxEventsPerMac
  maxTrackedAccounts_pos : 0 < maxTrackedAccounts
  cooldown_nonneg : 0 ≤ evaluationCooldownSeconds
  maxDuration_pos : 0 < bruteForceMaxDurationSeconds
  tolerance_range : 0 < bruteForceSizeTolerance ∧ bruteForceSizeTolerance ≤ 1
  minStarts_pos : 0 < failedHandshakeMinStarts
  pollInterval_pos : 0 < kernelPollIntervalSeconds
  maxKnownMacs_pos : 0 < maxKnownMacs
  /-- `_check_windows`. -/
  windows_required : 10 ∈ windowsSeconds ∧ 60 ∈ windowsSeconds
  windows_pos : ∀ window ∈ windowsSeconds, 0 < window

theorem defaultTracked_pos : 0 < 4096 := by decide

theorem defaultAccounts_pos : 0 < 1024 := by decide

/-- The `[d1]` section as it ships. -/
def defaultD1Config : D1Config where
  windowsSeconds := [10, 60]
  maxTrackedMacs := 4096
  maxTrackedDestinations := 4096
  maxEventsPerMac := 4096
  maxTrackedAccounts := 1024
  evaluationCooldownSeconds := 1
  bruteForcePorts := [22, 80, 443, 8080]
  bruteForceMaxDurationSeconds := 5
  bruteForceSizeTolerance := 1 / 4
  failedHandshakeMinStarts := 10
  kernelPollIntervalSeconds := 1
  maxKnownMacs := 16384
  maxTrackedMacs_pos := defaultTracked_pos
  maxTrackedDestinations_pos := defaultTracked_pos
  maxEventsPerMac_pos := defaultTracked_pos
  maxTrackedAccounts_pos := defaultAccounts_pos
  cooldown_nonneg := by norm_num
  maxDuration_pos := by norm_num
  tolerance_range := by norm_num
  minStarts_pos := by decide
  pollInterval_pos := by norm_num
  maxKnownMacs_pos := by decide
  windows_required := by decide
  windows_pos := by decide

/-! ## Connection starts -/

/-- One connection start by one device. The outcome is unknown for a creation-time signal. -/
structure ConnectionStart where
  mac : Mac
  sourceIp : IPv4Address
  destinationIp : IPv4Address
  destinationPort : Option Nat
  atTime : Time
  failed : Option Bool := none
  durationSeconds : Option Rat := none
  byteCount : Option Nat := none

/-- `has_outcome`: true for a completed record, false for a creation-time signal. -/
def ConnectionStart.hasOutcome (start : ConnectionStart) : Bool := start.failed.isSome

/-- The canonical feature values a record's outcome is read from. -/
structure StartFeatures where
  packetCount : Rat
  backwardPacketCount : Rat
  payloadByteCount : Rat
  durationSeconds : Rat

/-- `start_from_features`: a handshake failed when the responder never answered, or the exchange ended within
three packets without one payload byte. -/
def startFromFeatures (isStart : Bool) (sourceMac : Option String) (sourceIp destinationIp : IPv4Address)
    (destinationPort : Option Nat) (firstSeen : Time) (features : StartFeatures) : Option ConnectionStart :=
  match sourceMac.bind Mac.ofString? with
  | none => none
  | some mac =>
    if !isStart then none
    else
      some
        { mac, sourceIp, destinationIp, destinationPort
          atTime := firstSeen
          failed := some (decide (features.backwardPacketCount = 0) ||
            (decide (features.packetCount ≤ 3) && decide (features.payloadByteCount = 0)))
          durationSeconds := some (max features.durationSeconds 0)
          byteCount := some features.payloadByteCount.floor.toNat }

/-- `start_from_signal`: a creation-time TCP signal, without an outcome. -/
def startFromSignal (sourceMac : Option String) (sourceIp destinationIp : IPv4Address)
    (destinationPort : Option Nat) (protocol : Protocol) (moment : Time) : Option ConnectionStart :=
  match sourceMac.bind Mac.ofString? with
  | none => none
  | some mac =>
    if protocol ≠ .tcp then none
    else some { mac, sourceIp, destinationIp, destinationPort, atTime := moment }

/-! ## State -/

/-- Evictions and drops. -/
structure D1Counters where
  macsEvicted : Nat := 0
  destinationsEvicted : Nat := 0
  eventsDropped : Nat := 0
  accountsEvicted : Nat := 0
  knownMacsEvicted : Nat := 0

/-- One tracked device: its connection starts, and its concurrent slow connections to each destination with
the time they were observed. -/
structure Device where
  lastIp : IPv4Address
  events : List ConnectionStart
  slow : Dict IPv4Address (Nat × Time)

structure D1State where
  config : D1Config
  thresholds : D1ThresholdFile
  /-- The portal's listen port, when there is a portal. -/
  extraBruteForcePorts : List Nat
  devices : Dict Mac Device
  destinations : Dict IPv4Address (List (Time × Mac))
  knownMacs : Dict Mac Unit
  knownLeases : Dict (IPv4Address × Mac) Unit
  newMacs : List Time
  newLeases : List Time
  accounts : Dict String (List (Time × Option Mac))
  portalFailures : List Time
  leasesSeeded : Bool
  counters : D1Counters

/-- `deque(maxlen=limit).append`: the oldest goes when a full one grows. -/
def pushBounded {α : Type} (limit : Nat) (items : List α) (item : α) : List α :=
  (items ++ [item]).drop (items.length + 1 - limit)

/-- Within the window that ends now. -/
def inWindow (window : Nat) (now moment : Time) : Bool :=
  decide (now - seconds window ≤ moment) && decide (moment ≤ now)

namespace D1State

def init (config : D1Config) (thresholds : D1ThresholdFile) (extraBruteForcePorts : List Nat) : D1State where
  config := config
  thresholds := thresholds
  extraBruteForcePorts := extraBruteForcePorts
  devices := Dict.empty
  destinations := Dict.empty
  knownMacs := Dict.empty
  knownLeases := Dict.empty
  newMacs := []
  newLeases := []
  accounts := Dict.empty
  portalFailures := []
  leasesSeeded := false
  counters := {}

/-- `_windows`: each once, shortest first. -/
def windows (s : D1State) : List Nat := s.config.windowsSeconds.dedup.insertionSort fun a b => a ≤ b

/-- `max(self._windows)`. -/
def longestWindow (s : D1State) : Nat := s.windows.foldr max 0

/-- `_horizon`. -/
def horizon (s : D1State) : Int := seconds s.longestWindow

/-- `_brute_ports`. -/
def brutePorts (s : D1State) : List Nat := s.config.bruteForcePorts ++ s.extraBruteForcePorts

/-! ## Input -/

/-- `_device`, and what the caller then writes into it. -/
def updateDevice (s : D1State) (mac : Mac) (sourceIp : IPv4Address) (write : Device → Device) : D1State :=
  match s.devices.get? mac with
  | none =>
    let devices := s.devices.set mac (write ⟨sourceIp, [], Dict.empty⟩)
    if devices.size > s.config.maxTrackedMacs then
      { s with
        devices := devices.popFirst
        counters := { s.counters with macsEvicted := s.counters.macsEvicted + 1 } }
    else { s with devices }
  | some device =>
    { s with devices := (s.devices.set mac (write { device with lastIp := sourceIp })).moveToEnd mac }

/-- `_note_mac`: a MAC not known yet is one new MAC. -/
def noteMac (s : D1State) (mac : Mac) (moment : Time) : D1State :=
  if s.knownMacs.contains mac then { s with knownMacs := s.knownMacs.moveToEnd mac }
  else
    let knownMacs := s.knownMacs.set mac ()
    let s := { s with newMacs := pushBounded s.config.maxEventsPerMac s.newMacs moment }
    if knownMacs.size > s.config.maxKnownMacs then
      { s with
        knownMacs := knownMacs.popFirst
        counters := { s.counters with knownMacsEvicted := s.counters.knownMacsEvicted + 1 } }
    else { s with knownMacs }

/-- The arrival of a start at its destination. -/
def noteArrival (s : D1State) (start : ConnectionStart) : D1State :=
  let limit := s.config.maxEventsPerMac
  match s.destinations.get? start.destinationIp with
  | none =>
    let destinations := s.destinations.set start.destinationIp (pushBounded limit [] (start.atTime, start.mac))
    if destinations.size > s.config.maxTrackedDestinations then
      { s with
        destinations := destinations.popFirst
        counters := { s.counters with destinationsEvicted := s.counters.destinationsEvicted + 1 } }
    else { s with destinations }
  | some arrivals =>
    { s with destinations :=
        (s.destinations.set start.destinationIp
          (pushBounded limit arrivals (start.atTime, start.mac))).moveToEnd start.destinationIp }

/-- `observe`. -/
def observe (s : D1State) (start : ConnectionStart) : D1State :=
  let full := ((s.devices.get? start.mac).map fun device => device.events.length).getD 0
    == s.config.maxEventsPerMac
  let s := if full then { s with counters := { s.counters with eventsDropped := s.counters.eventsDropped + 1 } }
    else s
  let s := s.updateDevice start.mac start.sourceIp fun device =>
    { device with events := pushBounded s.config.maxEventsPerMac device.events start }
  (s.noteMac start.mac start.atTime).noteArrival start

/-- The slow clusters of a device with one more; the one observed longest ago goes when there are too many. -/
def recordSlow (limit : Nat) (slow : Dict IPv4Address (Nat × Time)) (destinationIp : IPv4Address) (count : Nat)
    (moment : Time) : Dict IPv4Address (Nat × Time) :=
  let slow := slow.set destinationIp (count, moment)
  if slow.size > limit then
    match firstMin (fun entry => entry.2.2) slow.entries with
    | some oldest => slow.erase oldest.1
    | none => slow
  else slow

/-- `observe_slow_cluster`. -/
def observeSlowCluster (s : D1State) (mac : Mac) (sourceIp destinationIp : IPv4Address) (count : Nat)
    (moment : Time) : D1State :=
  let limit := s.config.maxTrackedDestinations
  let known := ((s.devices.get? mac).map Device.slow).getD Dict.empty
  let evicts := decide ((known.set destinationIp (count, moment)).size > limit)
  let s := s.updateDevice mac sourceIp fun device =>
    { device with slow := recordSlow limit device.slow destinationIp count moment }
  if evicts then
    { s with counters := { s.counters with destinationsEvicted := s.counters.destinationsEvicted + 1 } }
  else s

/-- One binding of `observe_bindings`: an (IP, MAC) never seen before is one new lease, once seeded. -/
def observeBinding (s : D1State) (moment : Time) (binding : Binding) : D1State :=
  let key := (binding.ip, binding.mac)
  if s.knownLeases.contains key then { s with knownLeases := s.knownLeases.moveToEnd key }
  else
    let knownLeases := s.knownLeases.set key ()
    { s with
      knownLeases := if knownLeases.size > s.config.maxKnownMacs then knownLeases.popFirst else knownLeases
      newLeases :=
        if s.leasesSeeded then pushBounded s.config.maxEventsPerMac s.newLeases moment else s.newLeases }

/-- `observe_bindings`. -/
def observeBindings (s : D1State) (bindings : List Binding) (moment : Time) : D1State :=
  { bindings.foldl (fun s binding => s.observeBinding moment binding) s with leasesSeeded := true }

/-- `observe_portal_failure`. -/
def observePortalFailure (s : D1State) (account : String) (mac : Option Mac) (moment : Time) : D1State :=
  let limit := s.config.maxEventsPerMac
  let s := { s with portalFailures := pushBounded limit s.portalFailures moment }
  match s.accounts.get? account with
  | none =>
    let accounts := s.accounts.set account (pushBounded limit [] (moment, mac))
    if accounts.size > s.config.maxTrackedAccounts then
      { s with
        accounts := accounts.popFirst
        counters := { s.counters with accountsEvicted := s.counters.accountsEvicted + 1 } }
    else { s with accounts }
  | some failures =>
    { s with accounts := (s.accounts.set account (pushBounded limit failures (moment, mac))).moveToEnd account }

/-- `last_ip`. -/
def lastIp (s : D1State) (mac : Mac) : Option IPv4Address := (s.devices.get? mac).map Device.lastIp

end D1State

/-! ## Detectors -/

/-- `_max_distinct`: the most distinct members any one group has. -/
def maxDistinct {κ ν : Type} [DecidableEq κ] [DecidableEq ν] (events : List ConnectionStart)
    (group : ConnectionStart → κ) (member : ConnectionStart → ν) : Nat :=
  (((events.map group).dedup).map fun k =>
    (((events.filter fun event => group event = k).map member).dedup).length).foldr max 0

/-- `statistics.median` of a list that is not empty. -/
def median (sizes : List Nat) : Rat :=
  let sorted := sizes.insertionSort fun a b => a ≤ b
  let half := sorted.length / 2
  if sorted.length % 2 = 1 then sorted.getD half 0
  else ((sorted.getD (half - 1) 0 : Rat) + sorted.getD half 0) / 2

namespace D1State

/-- `_failed_ratio`. -/
def failedRatio (s : D1State) (events : List ConnectionStart) : Option Rat :=
  let completed := events.filter ConnectionStart.hasOutcome
  if completed.length < s.config.failedHandshakeMinStarts then none
  else some ((completed.filter fun event => event.failed == some true).length / completed.length)

/-- The group and the size of a start that may be one try of a brute force. -/
def bruteForceTry? (s : D1State) (event : ConnectionStart) : Option ((IPv4Address × Nat) × Nat) :=
  match event.destinationPort, event.durationSeconds, event.byteCount with
  | some port, some duration, some size =>
    if s.brutePorts.contains port && decide (duration ≤ s.config.bruteForceMaxDurationSeconds)
        && event.failed != some true then
      some ((event.destinationIp, port), size)
    else none
  | _, _, _ => none

/-- The sizes close to their median. -/
def similar (tolerance : Rat) (sizes : List Nat) : Nat :=
  (sizes.filter fun size => decide (|(size : Rat) - median sizes| ≤ tolerance * max (median sizes) 1)).length

/-- `_brute_force`: the most short, similar-size starts to one destination and port. -/
def bruteForce (s : D1State) (events : List ConnectionStart) : Nat :=
  let tries := events.filterMap s.bruteForceTry?
  ((tries.map Prod.fst).dedup.map fun group =>
    similar s.config.bruteForceSizeTolerance
      ((tries.filter fun item => item.1 = group).map Prod.snd)).foldr max 0

/-- `_prune`. -/
def prune (s : D1State) (device : Device) (now : Time) : Device :=
  { device with events := device.events.dropWhile fun event => decide (event.atTime < now - s.horizon) }

/-- The values of the per-device detectors over one window. -/
def windowValues (s : D1State) (device : Device) (now : Time) (window : Nat) : List (D1Detector × Rat) :=
  let events := device.events.filter fun event => inWindow window now event.atTime
  [(.verticalScan, (maxDistinct events ConnectionStart.destinationIp ConnectionStart.destinationPort : Rat)),
   (.horizontalScan, (maxDistinct events ConnectionStart.destinationPort ConnectionStart.destinationIp : Rat)),
   (.bruteForce, (s.bruteForce events : Rat)),
   (.slowRateDos, ((((device.slow.values.filter fun cluster => inWindow window now cluster.2).map
     Prod.fst).foldr max 0 : Nat) : Rat))]
    ++ ((s.failedRatio events).map fun ratio => (D1Detector.failedHandshake, ratio)).toList

/-- `measure_device`. -/
def measureDevice (s : D1State) (mac : Mac) (now : Time) : List (ThresholdKey × Rat) × D1State :=
  match s.devices.get? mac with
  | none => ([], s)
  | some device =>
    let device := s.prune device now
    (s.windows.flatMap fun window =>
      (s.windowValues device now window).map fun item => (⟨item.1, .device, window⟩, item.2),
     { s with devices := s.devices.set mac device })

/-- `measure_destination`: distinct MACs opening connections to one destination. -/
def measureDestination (s : D1State) (destination : IPv4Address) (now : Time) :
    List (ThresholdKey × Rat) × D1State :=
  match s.destinations.get? destination with
  | none => ([], s)
  | some arrivals =>
    let arrivals := arrivals.dropWhile fun arrival => decide (arrival.1 < now - s.horizon)
    (s.windows.map fun window =>
      (⟨.fanIn, .destination, window⟩,
        ((((arrivals.filter fun arrival => inWindow window now arrival.1).map Prod.snd).dedup).length : Rat)),
     { s with destinations := s.destinations.set destination arrivals })

/-- `measure_global`. -/
def measureGlobal (s : D1State) (now : Time) : List (ThresholdKey × Rat) :=
  s.windows.flatMap fun window =>
    [(D1Detector.newMacRate, s.newMacs), (.newLeaseRate, s.newLeases),
     (.portalAuthFailures, s.portalFailures)].map fun series =>
      (⟨series.1, .global, window⟩, ((series.2.filter (inWindow window now)).length : Rat))

end D1State

/-! ## Firing -/

/-- `str(n)` of an integer. -/
def intChars (n : Int) : List Char :=
  if n < 0 then '-' :: Nat.toDigits 10 n.natAbs else Nat.toDigits 10 n.natAbs

/-- `floor(now.timestamp() / window)`. -/
def bucket (window : Nat) (now : Time) : Int := now / seconds window

/-- `d1:<detector>:<scope>:<window>:<subject>:<bucket>`. -/
def d1IdChars (key : ThresholdKey) (subject : String) (bucket : Int) : List Char :=
  'd' :: '1' :: ':' :: (key.detector.value.toList ++ ':' :: (key.scope.value.toList ++ ':' ::
    (Nat.toDigits 10 key.windowSeconds ++ ':' :: (subject.toList ++ ':' :: intChars bucket))))

def d1Id (key : ThresholdKey) (subject : String) (bucket : Int) : String :=
  String.ofList (d1IdChars key subject bucket)

namespace D1State

/-- `_fire`. -/
def fire (s : D1State) (key : ThresholdKey) (value : Rat) (mac : Option Mac) (subject : String) (now : Time) :
    Option D1Evidence :=
  match s.thresholds.value key with
  | none => none
  | some threshold =>
    if value ≤ threshold then none
    else
      some
        { id := d1Id key subject (bucket key.windowSeconds now)
          detector := key.detector
          windowSeconds := key.windowSeconds
          value, threshold, mac
          observedAt := now }

/-- `evaluate_device`. -/
def evaluateDevice (s : D1State) (mac : Mac) (now : Time) : List D1Evidence × D1State :=
  let (measured, s) := s.measureDevice mac now
  (measured.filterMap fun item => s.fire item.1 item.2 (some mac) mac.text now, s)

/-- `evaluate_destination`: no single MAC, so the evidence names none. -/
def evaluateDestination (s : D1State) (destination : IPv4Address) (now : Time) :
    List D1Evidence × D1State :=
  let (measured, s) := s.measureDestination destination now
  (measured.filterMap fun item => s.fire item.1 item.2 none (IPv4Address.str destination) now, s)

/-- The one device behind every failure, when there is one. -/
def culprit (recent : List (Option Mac)) : Option Mac :=
  match recent.dedup with
  | [mac] => mac
  | _ => none

/-- The portal failures of one account over one window. -/
def evaluateAccount (s : D1State) (now : Time) (window : Nat)
    (entry : String × List (Time × Option Mac)) : Option D1Evidence :=
  let recent := (entry.2.filter fun failure => inWindow window now failure.1).map Prod.snd
  s.fire ⟨.portalAuthFailures, .account, window⟩ recent.length (culprit recent) ("account=" ++ entry.1) now

/-- `evaluate_global`. -/
def evaluateGlobal (s : D1State) (now : Time) : List D1Evidence :=
  (s.measureGlobal now).filterMap (fun item => s.fire item.1 item.2 none "lan" now)
    ++ s.windows.flatMap fun window => s.accounts.entries.filterMap (s.evaluateAccount now window)

end D1State

/-! ## Ids -/

theorem D1Detector.value_injective {a b : D1Detector} (h : a.value = b.value) : a = b := by
  cases a <;> cases b <;> first | rfl | exact absurd h (by decide)

theorem Scope.value_injective {a b : Scope} (h : a.value = b.value) : a = b := by
  cases a <;> cases b <;> first | rfl | exact absurd h (by decide)

theorem D1Detector.colon_not_mem_value (detector : D1Detector) : ':' ∉ detector.value.toList := by
  cases detector <;> decide

theorem Scope.colon_not_mem_value (scope : Scope) : ':' ∉ scope.value.toList := by
  cases scope <;> decide

/-- Only digits are digits. -/
theorem not_mem_toDigits {c : Char} (h : c.isDigit = false) (n : Nat) : c ∉ Nat.toDigits 10 n := by
  intro hmem
  have hdigit := Nat.isDigit_of_mem_toDigits (by decide) (le_refl 10) hmem
  exact absurd (hdigit.symm.trans h) (by decide)

theorem toDigits_injective {m n : Nat} (h : Nat.toDigits 10 m = Nat.toDigits 10 n) : m = n := by
  rw [← Nat.ofDigitChars_ten_toDigits (n := m), h, Nat.ofDigitChars_ten_toDigits]

theorem intChars_injective {m n : Int} (h : intChars m = intChars n) : m = n := by
  have hminus : ∀ k l : Nat, '-' :: Nat.toDigits 10 k ≠ Nat.toDigits 10 l := by
    intro k l heq
    exact not_mem_toDigits (by decide) l (heq ▸ List.mem_cons_self)
  unfold intChars at h
  split at h
  · rename_i hm
    split at h
    · have habs := toDigits_injective (List.tail_eq_of_cons_eq h)
      omega
    · exact absurd h (hminus _ _)
  · rename_i hm
    split at h
    · exact absurd h.symm (hminus _ _)
    · have habs := toDigits_injective h
      omega

/-- Of one subject, the id names the detector, the scope, the window and the bucket. -/
theorem d1Id_injective {key key' : ThresholdKey} {subject : String} {b b' : Int}
    (h : d1Id key subject b = d1Id key' subject b') : key = key' ∧ b = b' := by
  have hchars : d1IdChars key subject b = d1IdChars key' subject b' := by
    have := congrArg String.toList h
    simpa [d1Id] using this
  simp only [d1IdChars, List.cons.injEq, true_and] at hchars
  obtain ⟨hdetector, hrest⟩ := append_separator_inj key.detector.colon_not_mem_value
    key'.detector.colon_not_mem_value hchars
  obtain ⟨hscope, hrest⟩ := append_separator_inj key.scope.colon_not_mem_value
    key'.scope.colon_not_mem_value hrest
  obtain ⟨hwindow, hrest⟩ := append_separator_inj (not_mem_toDigits (by decide) _)
    (not_mem_toDigits (by decide) _) hrest
  have hbucket := List.tail_eq_of_cons_eq (List.append_cancel_left hrest)
  refine ⟨?_, intChars_injective hbucket⟩
  cases key
  cases key'
  simp only [ThresholdKey.mk.injEq]
  exact ⟨D1Detector.value_injective (String.toList_inj.mp hdetector),
    Scope.value_injective (String.toList_inj.mp hscope), toDigits_injective hwindow⟩

/-! ## What measuring reads -/

namespace D1State

variable {s : D1State} {mac : Mac} {device : Device} {before now : Time} {window : Nat}

theorem seconds_le_horizon (h : window ∈ s.windows) : seconds window ≤ s.horizon := by
  have hmax : window ≤ s.longestWindow := List.le_max_of_le h (le_refl window)
  unfold horizon seconds
  omega

/-- What is forgotten at one measurement is in no window of a later one. -/
theorem inWindow_stale (hle : before ≤ now) (hwindow : window ∈ s.windows) {moment : Time}
    (hstale : moment < before - s.horizon) : inWindow window now moment = false := by
  have hhorizon := seconds_le_horizon hwindow
  have hearly : ¬ now - seconds window ≤ moment := by
    intro hin
    linarith
  simp only [inWindow, hearly, decide_false, Bool.false_and]

/-- What was forgotten by an earlier measurement is in no window of this one. -/
theorem windowValues_prune (hle : before ≤ now) (hwindow : window ∈ s.windows) :
    s.windowValues (s.prune device before) now window = s.windowValues device now window := by
  have hevents : (s.prune device before).events.filter (fun event => inWindow window now event.atTime) =
      device.events.filter fun event => inWindow window now event.atTime :=
    filter_dropWhile (fun _ hold => inWindow_stale hle hwindow (of_decide_eq_true hold)) _
  unfold windowValues
  rw [hevents]
  rfl

/-- `measure_device`, from the events the device holds. -/
theorem measureDevice_fst (s : D1State) (mac : Mac) (now : Time) :
    (s.measureDevice mac now).1 = match s.devices.get? mac with
      | none => []
      | some device => s.windows.flatMap fun window =>
        (s.windowValues device now window).map fun item => (⟨item.1, .device, window⟩, item.2) := by
  unfold measureDevice
  cases s.devices.get? mac with
  | none => rfl
  | some device =>
    refine List.flatMap_congr fun window hwindow => ?_
    rw [windowValues_prune (le_refl now) hwindow]

/-- A detector is above its threshold for a device. -/
def Fires (s : D1State) (mac : Mac) (now : Time) (key : ThresholdKey) : Prop :=
  ∃ value threshold, (key, value) ∈ (s.measureDevice mac now).1 ∧ s.thresholds.value key = some threshold ∧
    threshold < value

theorem fire_congr {s' : D1State} (h : s'.thresholds = s.thresholds) : s'.fire = s.fire := by
  funext key value mac subject now
  unfold fire
  rw [h]

theorem measureDevice_thresholds (s : D1State) (mac : Mac) (now : Time) :
    (s.measureDevice mac now).2.thresholds = s.thresholds := by
  unfold measureDevice
  split
  · rfl
  · rfl

theorem evaluateDevice_fst (s : D1State) (mac : Mac) (now : Time) :
    (s.evaluateDevice mac now).1 =
      (s.measureDevice mac now).1.filterMap fun item => s.fire item.1 item.2 (some mac) mac.text now := by
  unfold evaluateDevice
  dsimp only
  rw [fire_congr (s.measureDevice_thresholds mac now)]

/-- The evidence of a device: one item for each detector above its threshold, named by the bucket. -/
theorem mem_evaluateDevice {item : D1Evidence} :
    item ∈ (s.evaluateDevice mac now).1 ↔ ∃ key value threshold, (key, value) ∈ (s.measureDevice mac now).1 ∧
      s.thresholds.value key = some threshold ∧ threshold < value ∧
      item = ⟨d1Id key mac.text (bucket key.windowSeconds now), key.detector, key.windowSeconds, value, threshold,
        some mac, now⟩ := by
  rw [evaluateDevice_fst, List.mem_filterMap]
  constructor
  · rintro ⟨⟨key, value⟩, hmem, hfire⟩
    unfold fire at hfire
    split at hfire
    · exact absurd hfire (by simp)
    · rename_i threshold hthreshold
      split at hfire
      · exact absurd hfire (by simp)
      · rename_i habove
        exact ⟨key, value, threshold, hmem, hthreshold, not_le.mp habove, (Option.some.inj hfire).symm⟩
  · rintro ⟨key, value, threshold, hmem, hthreshold, habove, rfl⟩
    refine ⟨(key, value), hmem, ?_⟩
    unfold fire
    rw [hthreshold]
    exact if_neg (not_le.mpr habove)

/-- What an evaluation leaves of the tables: the device has forgotten some events that no later window holds. -/
theorem evaluateDevice_snd (s : D1State) (mac : Mac) (now : Time) :
    (s.evaluateDevice mac now).2 = match s.devices.get? mac with
      | none => s
      | some device => { s with devices := s.devices.set mac (s.prune device now) } := by
  show (s.measureDevice mac now).2 = _
  unfold measureDevice
  split
  · rfl
  · rfl

theorem lastIp_evaluateDevice (s : D1State) (mac other : Mac) (now : Time) :
    (s.evaluateDevice mac now).2.lastIp other = s.lastIp other := by
  rw [evaluateDevice_snd]
  cases hget : s.devices.get? mac with
  | none => rfl
  | some device =>
    unfold lastIp
    show Option.map Device.lastIp ((s.devices.set mac (s.prune device now)).get? other) = _
    rw [Dict.get?_set]
    split
    · rename_i heq
      rw [heq, hget]
      rfl
    · rfl

/-- Evaluating a device does not change what a later evaluation of it finds. -/
theorem evaluateDevice_again (hle : before ≤ now) :
    ((s.evaluateDevice mac before).2.evaluateDevice mac now).1 = (s.evaluateDevice mac now).1 := by
  have hmeasured : ((s.evaluateDevice mac before).2.measureDevice mac now).1 = (s.measureDevice mac now).1 := by
    rw [measureDevice_fst, measureDevice_fst, evaluateDevice_snd]
    cases hget : s.devices.get? mac with
    | none => simp only [hget]
    | some device =>
      simp only [Dict.get?_set, if_true]
      refine List.flatMap_congr fun window hwindow => ?_
      exact congrArg _ (windowValues_prune hle hwindow)
  have hthresholds : (s.evaluateDevice mac before).2.thresholds = s.thresholds := by
    rw [evaluateDevice_snd]
    split
    · rfl
    · rfl
  rw [evaluateDevice_fst, evaluateDevice_fst, hmeasured, fire_congr hthresholds]

end D1State

end Pirewall
