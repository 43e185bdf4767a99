/-
# Pirewall.Identity.LeaseSync -- the lease file, the binding table and the kernel

`LeaseSync` keeps three things in step: the lease file, the binding table, and the binding sets of the
kernel. `seed` writes the whole table at startup; every `poll` re-reads the file, updates the table first
and then sends the kernel the difference. A refused write is remembered in `_needs_full_resync`, and the
next poll writes the whole table again.

Between polls the invariant is therefore: the kernel is in step with the table, or the flag is set. A poll
keeps it whatever fails. `seed` does not establish it: a seed that the kernel refused leaves the flag
down, and the polls that follow send differences against a table the kernel never saw.
-/
import Pirewall.Lib.Run
import Pirewall.Identity.Bindings
import Pirewall.Firewall.BindingSets
import Pirewall.Firewall.Lifecycle

namespace Pirewall

open Lib NftNames

/-! ## The model -/

/-- What opening and reading the lease file gave: an error, or its size in bytes and its decoded text. -/
inductive LeaseRead where
  | failed (why : String)
  | contents (bytes : Nat) (text : String)

/-- `MAX_LEASE_FILE_BYTES`. -/
def maxLeaseFileBytes : Nat := 1024 * 1024

/-- `LeaseSync`, with the events it has emitted. -/
structure LeaseSync where
  path : String
  protectedNetwork : IPv4Network
  table : LeaseBindingTable
  manager : FirewallManager
  events : List SecurityEvent
  needsFullResync : Bool
  readFailing : Bool
  lastIgnored : Dict IgnoredLease Nat
  passes : Nat
  failures : Nat

namespace LeaseSync

def leaseSyncSubsystem : String := "runtime.lease_sync"

/-- `SEED_FAILURE_ACTOR`. -/
def seedFailureActor : String := "pirewall-core (binding seed failed)"

/-- `LeaseSync.__init__`. -/
def init (path : String) (protectedNetwork : IPv4Network) (table : LeaseBindingTable)
    (manager : FirewallManager) : LeaseSync where
  path := path
  protectedNetwork := protectedNetwork
  table := table
  manager := manager
  events := []
  needsFullResync := false
  readFailing := false
  lastIgnored := Dict.empty
  passes := 0
  failures := 0

/-- `_emit`. -/
def emit (s : LeaseSync) (severity : EventSeverity) (reason : String) (now : Time) : LeaseSync :=
  { s with events := s.events ++ [{ timestamp := now, severity, eventType := .systemWarning,
                                    subsystem := leaseSyncSubsystem, reason := some reason }] }

/-- `_read`, and the reason where it returns `None`. -/
def read (s : LeaseSync) (file : LeaseRead) : Except String LeaseParse × LeaseSync :=
  match file with
  | .failed why => (.error why, s)
  | .contents bytes text =>
    if maxLeaseFileBytes < bytes then
      (.error ("larger than " ++ toString maxLeaseFileBytes ++ " bytes"), s)
    else
      let parsed := parseLeases text s.protectedNetwork
      (.ok parsed, { s with lastIgnored := parsed.ignored })

/-- `_seed_failed`: the raw guard to observe, and an event that says so. -/
def seedFailed (s : LeaseSync) (why : String) (now : Time) : LeaseSync :=
  let s := { s with failures := s.failures + 1 }
  match s.manager.sets with
  | none => s.emit .warning ("binding seed failed, " ++ why ++ ".") now
  | some _ =>
    let hint := ". Fix the cause, then put the raw guard back in enforce mode (set_guard_mode, "
      ++ "or reload the static template with pirewall-start)"
    match s.manager.setGuardMode .raw .observe seedFailureActor now with
    | (.ok event, manager) =>
      { s with manager, events := s.events ++ [event] }.emit .warning
        ("binding seed failed, " ++ why ++ "; the raw guard is now in observe mode (anti-spoof records "
          ++ "but does not drop)" ++ hint ++ ".") now
    | (.error e, manager) =>
      { s with manager }.emit .critical
        ("binding seed failed, " ++ why ++ "; setting the raw guard to observe ALSO failed: " ++ e ++ hint
          ++ ".") now

/-- The table `seed` writes: with the file's leases applied, if it could be read. -/
def seededTable (s : LeaseSync) (file : LeaseRead) (now : Time) : Except String LeaseBindingTable :=
  match (s.read file).1 with
  | .error _ => .ok s.table
  | .ok parsed => (s.table.applyLeases parsed.bindings now).map Prod.snd

/-- `seed`. The first component is its result, or the exception that left it. -/
def seed (s : LeaseSync) (file : LeaseRead) (now clock : Time) : Except String Bool × LeaseSync :=
  let seeded := s.seededTable file now
  let (parsed, s) := s.read file
  match seeded with
  | .error e => (.error e, s)
  | .ok table =>
    match s.manager.replaceBindings table.snapshot now clock with
    | (.error e, manager) =>
      (.ok false, { s with table, manager }.seedFailed ("writing the binding sets failed: " ++ e) now)
    | (.ok _, manager) =>
      let s := { s with table, manager }
      match parsed with
      | .error why => (.ok false, s.seedFailed ("the lease file could not be read: " ++ why) now)
      | .ok _ => (.ok true, s)

/-- The leases one poll applies: the file's, or what is held already where it cannot be read. -/
def polledLeases (s : LeaseSync) (file : LeaseRead) (now : Time) : List Binding × LeaseSync :=
  match s.read file with
  | (.error why, s) =>
    let s :=
      if s.readFailing then s
      else { s with readFailing := true }.emit .error
        ("the lease file " ++ s.path ++ " could not be read (" ++ why
          ++ "); keeping the last known bindings until it can") now
    (s.table.snapshot.filter fun binding => binding.expiresAt.isSome, s)
  | (.ok parsed, s) =>
    let s :=
      if s.readFailing then
        { s with readFailing := false }.emit .info
          ("the lease file " ++ s.path ++ " is readable again") now
      else s
    (parsed.bindings, s)

/-- The kernel write of a poll: everything if a write failed before, else the change. -/
def pollWrite (s : LeaseSync) (change : BindingChange) (now clock : Time) :
    Except String Nat × FirewallManager :=
  if s.needsFullResync then s.manager.replaceBindings s.table.snapshot now clock
  else s.manager.syncBindings change now clock

/-- `poll`. The first component is its result, or the exception that left it. -/
def poll (s : LeaseSync) (file : LeaseRead) (now clock : Time) : Except String Nat × LeaseSync :=
  let (leases, s) := { s with passes := s.passes + 1 }.polledLeases file now
  match s.table.applyLeases leases now with
  | .error e => (.error e, s)
  | .ok (change, table) =>
    let s := { s with table }
    match s.pollWrite change now clock with
    | (.ok written, manager) => (.ok written, { s with manager, needsFullResync := false })
    | (.error e, manager) =>
      (.ok 0, { s with manager, failures := s.failures + 1, needsFullResync := true }.emit .error
        ("binding sync failed, retrying as a full resync: " ++ e) now)

/-! ## Staying in step -/

/-- The kernel's binding sets hold exactly what the table has. -/
def InStep (s : LeaseSync) (clock : Time) : Prop :=
  s.manager.BindingSetsHold clock s.table.snapshot

/-- One poll of a run: what the file gave, and when. -/
def pollStep (clock : Time) (s : LeaseSync) (call : LeaseRead × Time) : LeaseSync :=
  (s.poll call.1 call.2 clock).2

/-- The poll returned, and no kernel write of it was refused. -/
def PollLands (clock : Time) (s : LeaseSync) (call : LeaseRead × Time) : Prop :=
  (∃ n, (s.poll call.1 call.2 clock).1 = .ok n) ∧ (pollStep clock s call).failures = s.failures

theorem read_frame (s : LeaseSync) (file : LeaseRead) :
    (s.read file).2 = { s with lastIgnored := (s.read file).2.lastIgnored } := by
  unfold read
  split
  · rfl
  · split
    · rfl
    · rfl

/-- Reading the file touches neither side. -/
theorem polledLeases_frame (s : LeaseSync) (file : LeaseRead) (now : Time) :
    (s.polledLeases file now).2.table = s.table ∧ (s.polledLeases file now).2.manager = s.manager ∧
      (s.polledLeases file now).2.needsFullResync = s.needsFullResync ∧
      (s.polledLeases file now).2.failures = s.failures := by
  have hread := s.read_frame file
  unfold polledLeases
  split
  · rename_i why s₁ heq
    rw [heq] at hread
    simp only at hread
    rw [hread]
    simp only
    split
    · exact ⟨rfl, rfl, rfl, rfl⟩
    · exact ⟨rfl, rfl, rfl, rfl⟩
  · rename_i parsed s₁ heq
    rw [heq] at hread
    simp only at hread
    rw [hread]
    simp only
    split
    · exact ⟨rfl, rfl, rfl, rfl⟩
    · exact ⟨rfl, rfl, rfl, rfl⟩

/-- What a poll does: it raises before it changed anything, or it updates the table and writes. -/
theorem poll_cases (s : LeaseSync) (file : LeaseRead) (now clock : Time) :
    (∃ e, s.table.applyLeases (({ s with passes := s.passes + 1 } : LeaseSync).polledLeases file now).1
        now = .error e ∧ (s.poll file now clock).1 = .error e ∧
      (s.poll file now clock).2.table = s.table ∧ (s.poll file now clock).2.manager = s.manager ∧
      (s.poll file now clock).2.needsFullResync = s.needsFullResync) ∨
    ∃ change table', s.table.applyLeases (({ s with passes := s.passes + 1 } : LeaseSync).polledLeases
        file now).1 now = .ok (change, table') ∧
      (s.poll file now clock).2.table = table' ∧
      (s.poll file now clock).2.manager = ({ s with table := table' }.pollWrite change now clock).2 ∧
      ((∃ n, ({ s with table := table' }.pollWrite change now clock).1 = .ok n ∧
        (s.poll file now clock).1 = .ok n ∧ (s.poll file now clock).2.needsFullResync = false ∧
        (s.poll file now clock).2.failures = s.failures) ∨
      ∃ e, ({ s with table := table' }.pollWrite change now clock).1 = .error e ∧
        (s.poll file now clock).2.needsFullResync = true ∧
        (s.poll file now clock).2.failures = s.failures + 1) := by
  obtain ⟨htable, hmanager, hneeds, hfailures⟩ :=
    polledLeases_frame { s with passes := s.passes + 1 } file now
  unfold poll
  generalize hleases : ({ s with passes := s.passes + 1 } : LeaseSync).polledLeases file now = polled at *
  obtain ⟨leases, s₁⟩ := polled
  simp only at htable hmanager hneeds hfailures ⊢
  split
  · rename_i e happly
    rw [htable] at happly
    exact .inl ⟨e, happly, rfl, htable, hmanager, hneeds⟩
  · rename_i change table' happly
    rw [htable] at happly
    have hwrite : ({ s₁ with table := table' } : LeaseSync).pollWrite change now clock =
        ({ s with table := table' } : LeaseSync).pollWrite change now clock := by
      simp only [pollWrite, hmanager, hneeds]
    rw [hwrite]
    refine .inr ⟨change, table', happly, ?_⟩
    split
    · rename_i n manager heq
      exact ⟨rfl, by rw [heq], .inl ⟨n, by rw [heq], rfl, rfl, hfailures⟩⟩
    · rename_i e manager heq
      exact ⟨rfl, by rw [heq]; rfl, .inr ⟨e, by rw [heq], rfl, congrArg (· + 1) hfailures⟩⟩

/-- The invariant between polls: in step, or about to be rewritten. -/
def Tracked (clock : Time) (s : LeaseSync) : Prop :=
  (∃ b, s.manager.sets = some b) ∧ (s.needsFullResync = true ∨ s.InStep clock)

/-- Sending the difference between two tables takes the kernel from the one to the other. -/
theorem syncBindings_inStep {m : FirewallManager} {table table' : LeaseBindingTable}
    {leases : List Binding} {change : BindingChange} {now clock : Time} {n : Nat}
    (happly : table.applyLeases leases now = .ok (change, table'))
    (hstep : m.BindingSetsHold clock table.snapshot) (hok : (m.syncBindings change now clock).1 = .ok n) :
    (m.syncBindings change now clock).2.BindingSetsHold clock table'.snapshot := by
  obtain ⟨b, hsets, hholds⟩ := hstep
  rcases FirewallManager.syncBindings_cases hsets change now clock with ⟨_, b', _, hsets', h'⟩ | ⟨e, herror, _⟩
  · refine ⟨b', hsets', ?_⟩
    intro a ha k
    have hkeys := LeaseBindingTable.applyLeases_keys happly
      (FirewallManager.bindingKey a.setName) (fun _ _ => FirewallManager.bindingKey_ip) k
    simp only [← FirewallManager.isWanted_iff] at hkeys
    rw [h' a ha k, hholds a ha k, hkeys, Bool.not_eq_true]
  · rw [hok] at herror
    exact absurd herror (by simp)

/-- A poll keeps the invariant, and one whose write landed ends in step. -/
theorem Tracked.poll {clock : Time} {s : LeaseSync} (h : s.Tracked clock) (call : LeaseRead × Time) :
    (pollStep clock s call).Tracked clock ∧ (PollLands clock s call → (pollStep clock s call).InStep clock) := by
  obtain ⟨file, now⟩ := call
  obtain ⟨⟨b, hsets⟩, hcases⟩ := h
  rcases s.poll_cases file now clock with
    ⟨e, _, hraised, htable, hmanager, hneeds⟩ | ⟨change, table', happly, htable, hmanager, hwrite⟩
  · -- nothing happened, and the poll did not return
    refine ⟨⟨⟨b, by rw [pollStep, hmanager]; exact hsets⟩, ?_⟩, ?_⟩
    · simp only [pollStep, InStep, htable, hmanager, hneeds]
      exact hcases
    · rintro ⟨⟨n, hreturned⟩, _⟩
      rw [hraised] at hreturned
      exact absurd hreturned (by simp)
  · have hstep : ∀ n, (({ s with table := table' } : LeaseSync).pollWrite change now clock).1 = .ok n →
        (({ s with table := table' } : LeaseSync).pollWrite change now clock).2.BindingSetsHold clock
          table'.snapshot := by
      intro n hok
      unfold pollWrite at hok ⊢
      split at hok
      · rename_i hresync
        rw [if_pos hresync]
        rcases FirewallManager.replaceBindings_cases hsets table'.snapshot now clock with
          ⟨_, _, hholds⟩ | ⟨e, herror, _⟩
        · exact hholds
        · rw [hok] at herror
          exact absurd herror (by simp)
      · rename_i hresync
        rw [if_neg hresync]
        exact syncBindings_inStep happly (hcases.resolve_left hresync) hok
    have hkept : ∃ b', (({ s with table := table' } : LeaseSync).pollWrite change now clock).2.sets =
        some b' := by
      unfold pollWrite
      split
      · rcases FirewallManager.replaceBindings_cases hsets table'.snapshot now clock with
          ⟨_, _, b', hsets', _⟩ | ⟨_, _, _, b', _, hsets', _⟩
        · exact ⟨b', hsets'⟩
        · exact ⟨b', hsets'⟩
      · rcases FirewallManager.syncBindings_cases hsets change now clock with
          ⟨_, b', _, hsets', _⟩ | ⟨_, _, _, b', _, hsets', _⟩
        · exact ⟨b', hsets'⟩
        · exact ⟨b', hsets'⟩
    have hin : (∃ n, (({ s with table := table' } : LeaseSync).pollWrite change now clock).1 = .ok n) →
        (pollStep clock s (file, now)).InStep clock := by
      rintro ⟨n, hok⟩
      simp only [pollStep, InStep, htable, hmanager]
      exact hstep n hok
    refine ⟨⟨by rw [pollStep, hmanager]; exact hkept, ?_⟩, ?_⟩
    · rcases hwrite with ⟨n, hok, _⟩ | ⟨e, _, hneeds, _⟩
      · exact .inr (hin ⟨n, hok⟩)
      · exact .inl hneeds
    · rintro ⟨_, hfailures⟩
      rcases hwrite with ⟨n, hok, _⟩ | ⟨e, _, _, hmore⟩
      · exact hin ⟨n, hok⟩
      · rw [pollStep, hmore] at hfailures
        exact absurd hfailures (by omega)

/-! ## Seeding -/

/-- The seed reaches the kernel: the write is accepted, or there was nothing to write. -/
def SeedLands (s : LeaseSync) (file : LeaseRead) (now clock : Time) : Prop :=
  ∃ table, s.seededTable file now = .ok table ∧
    ((∃ n, (s.manager.replaceBindings table.snapshot now clock).1 = .ok n) ∨
      s.manager.BindingSetsHold clock table.snapshot)

theorem sameBindingSets_setGuardMode {m : FirewallManager} {b : FakeSetBackend} (hsets : m.sets = some b)
    (guard : GuardName) (mode : GuardMode) (actor : String) (now clock : Time) :
    m.SameBindingSets (m.setGuardMode guard mode actor now).2 clock := by
  have htables : (b.setGuardModes [(guard, mode)]).2.tables = b.tables := by
    unfold FakeSetBackend.setGuardModes
    rcases hb : b.begin with ⟨r, b₁⟩
    obtain ⟨hb₁, _⟩ := FakeSetBackend.begin_faults hb
    rw [hb₁]
    cases r with
    | error e => rfl
    | ok u =>
      simp only
      split <;> rfl
  refine ⟨b, (b.setGuardModes [(guard, mode)]).2, hsets, ?_, ?_⟩
  · unfold FirewallManager.setGuardMode
    rw [hsets]
    simp only
    split
    · rename_i heq
      rw [heq]
    · rename_i heq
      rw [heq]
  · intro a _ k
    simp only [FakeSetBackend.holds, FakeSetBackend.expiry?, FakeSetBackend.find?, htables]

theorem SameBindingSets.refl {m : FirewallManager} {b : FakeSetBackend} (hsets : m.sets = some b)
    (clock : Time) : m.SameBindingSets m clock := ⟨b, b, hsets, hsets, fun _ _ _ => rfl⟩

/-- Reporting a failed seed leaves the table and the binding sets alone, and the flag down. -/
theorem seedFailed_frame (s : LeaseSync) {b : FakeSetBackend} (hsets : s.manager.sets = some b)
    (why : String) (now clock : Time) :
    (s.seedFailed why now).table = s.table ∧
      (s.seedFailed why now).needsFullResync = s.needsFullResync ∧
      (s.seedFailed why now).protectedNetwork = s.protectedNetwork ∧
      s.manager.SameBindingSets (s.seedFailed why now).manager clock := by
  have hsame := sameBindingSets_setGuardMode hsets .raw .observe seedFailureActor now clock
  unfold seedFailed
  simp only [hsets]
  split
  · rename_i event manager heq
    rw [heq] at hsame
    exact ⟨rfl, rfl, rfl, hsame⟩
  · rename_i e manager heq
    rw [heq] at hsame
    exact ⟨rfl, rfl, rfl, hsame⟩

/-- What `seed` leaves: its table, the flag as it was, and the kernel as the one write left it. -/
theorem seed_frame (s : LeaseSync) {b : FakeSetBackend} (hsets : s.manager.sets = some b)
    (file : LeaseRead) (now clock : Time) {table : LeaseBindingTable}
    (hseeded : s.seededTable file now = .ok table) :
    (s.seed file now clock).2.table = table ∧
      (s.seed file now clock).2.needsFullResync = s.needsFullResync ∧
      (s.seed file now clock).2.protectedNetwork = s.protectedNetwork ∧
      (s.manager.replaceBindings table.snapshot now clock).2.SameBindingSets
        (s.seed file now clock).2.manager clock := by
  have hread := s.read_frame file
  have hsets' : ∃ b', (s.manager.replaceBindings table.snapshot now clock).2.sets = some b' := by
    rcases FirewallManager.replaceBindings_cases hsets table.snapshot now clock with
      ⟨_, _, b', hsets', _⟩ | ⟨_, _, _, b', _, hsets', _⟩
    · exact ⟨b', hsets'⟩
    · exact ⟨b', hsets'⟩
  obtain ⟨b', hsets'⟩ := hsets'
  unfold seed
  rw [hseeded]
  generalize s.read file = outcome at hread
  obtain ⟨parsed, s₁⟩ := outcome
  simp only at hread ⊢
  rw [hread]
  simp only
  split
  · rename_i e manager heq
    rw [heq] at hsets' ⊢
    exact seedFailed_frame _ hsets' _ now clock
  · rename_i n manager heq
    rw [heq] at hsets' ⊢
    split
    · exact seedFailed_frame _ hsets' _ now clock
    · exact ⟨rfl, rfl, rfl, SameBindingSets.refl hsets' clock⟩

/-- After the seed the kernel is in step exactly if the seed reached it. -/
theorem seed_inStep_iff (s : LeaseSync) {b : FakeSetBackend} (hsets : s.manager.sets = some b)
    (file : LeaseRead) (now clock : Time) {table : LeaseBindingTable}
    (hseeded : s.seededTable file now = .ok table) :
    (s.seed file now clock).2.InStep clock ↔ s.SeedLands file now clock := by
  obtain ⟨htable, _, _, hsame⟩ := s.seed_frame hsets file now clock hseeded
  rw [InStep, htable, FirewallManager.BindingSetsHold.congr hsame]
  have hlands : s.SeedLands file now clock ↔
      ((∃ n, (s.manager.replaceBindings table.snapshot now clock).1 = .ok n) ∨
        s.manager.BindingSetsHold clock table.snapshot) := by
    unfold SeedLands
    rw [hseeded]
    simp only [Except.ok.injEq]
    exact ⟨fun ⟨_, heq, h⟩ => heq ▸ h, fun h => ⟨table, rfl, h⟩⟩
  rw [hlands]
  rcases FirewallManager.replaceBindings_cases hsets table.snapshot now clock with
    ⟨n, hok, hholds⟩ | ⟨e, herror, hunchanged⟩
  · exact iff_of_true hholds (.inl ⟨n, hok⟩)
  · rw [FirewallManager.BindingSetsHold.congr hunchanged]
    constructor
    · exact .inr
    · rintro (⟨n, hok⟩ | h)
      · rw [herror] at hok
        exact absurd hok (by simp)
      · exact h

theorem wantedLeases_congr {table table' : LeaseBindingTable} (hstatic : table'.static = table.static)
    (hmacs : table'.staticMacs = table.staticMacs) (leases : List Binding) (now : Time) :
    table'.wantedLeases leases now = table.wantedLeases leases now := by
  have hwant : table'.wantLease now = table.wantLease now := by
    funext wanted binding
    simp only [LeaseBindingTable.wantLease, hstatic, hmacs]
  rw [LeaseBindingTable.wantedLeases, LeaseBindingTable.wantedLeases, hwant]

theorem applyLeases_of_leases (table : LeaseBindingTable) (leases : List Binding)
    (h : ∀ binding ∈ leases, binding.source = .lease) (now : Time) :
    ∃ change table', table.applyLeases leases now = .ok (change, table') ∧
      table'.static = table.static ∧ table'.staticMacs = table.staticMacs ∧
      table'.leases = table.wantedLeases leases now := by
  unfold LeaseBindingTable.applyLeases
  rw [dif_pos h]
  exact ⟨_, _, rfl, rfl, rfl, rfl⟩

/-- A poll that would change nothing writes nothing, and lands. -/
theorem poll_unchanged {s : LeaseSync} {b : FakeSetBackend} (hsets : s.manager.sets = some b)
    (hflag : s.needsFullResync = false) (file : LeaseRead) (now clock : Time)
    (hsource : ∀ binding ∈ (({ s with passes := s.passes + 1 } : LeaseSync).polledLeases file now).1,
      binding.source = .lease)
    (hsame : s.table.wantedLeases (({ s with passes := s.passes + 1 } : LeaseSync).polledLeases file now).1
      now = s.table.leases) :
    PollLands clock s (file, now) ∧ ((pollStep clock s (file, now)).InStep clock → s.InStep clock) := by
  obtain ⟨change, table', happly, hstatic, _, hleases⟩ := applyLeases_of_leases s.table _ hsource now
  obtain ⟨hremoved, hadded⟩ := LeaseBindingTable.applyLeases_same happly hsame
  have hwrite : ({ s with table := table' } : LeaseSync).pollWrite change now clock =
      (.ok 0, s.manager) := by
    simp [pollWrite, hflag, FirewallManager.syncBindings, hsets, hremoved, hadded]
  have hsnapshot : table'.snapshot = s.table.snapshot := by
    rw [LeaseBindingTable.snapshot, LeaseBindingTable.snapshot, hstatic, hleases, hsame]
  rcases s.poll_cases file now clock with
    ⟨e, herror, _⟩ | ⟨change', table'', happly', htable, hmanager, hcases⟩
  · rw [happly] at herror
    exact absurd herror (by simp)
  · obtain ⟨rfl, rfl⟩ := Prod.mk.inj (Except.ok.inj (happly'.symm.trans happly))
    rw [hwrite] at hmanager hcases
    rcases hcases with ⟨n, _, hreturned, _, hfailures⟩ | ⟨e, herror, _⟩
    · refine ⟨⟨⟨n, hreturned⟩, hfailures⟩, ?_⟩
      simp only [pollStep, InStep, htable, hmanager, hsnapshot]
      exact id
    · exact absurd herror (by simp)

/-- Reading the same file at the same time again gives the leases the table has. -/
theorem polledLeases_seeded {s : LeaseSync} (hfresh : s.table.leases = Dict.empty) (file : LeaseRead)
    (now : Time) (s₁ : LeaseSync) (hnetwork : s₁.protectedNetwork = s.protectedNetwork)
    (hseeded : s.seededTable file now = .ok s₁.table) :
    (∀ binding ∈ (s₁.polledLeases file now).1, binding.source = .lease) ∧
      s₁.table.wantedLeases (s₁.polledLeases file now).1 now = s₁.table.leases := by
  unfold seededTable read at hseeded
  unfold polledLeases read
  rw [hnetwork]
  -- the file could not be read: the table holds no lease, before and after
  have hunread : s.table = s₁.table →
      (∀ binding ∈ s₁.table.snapshot.filter (fun binding => binding.expiresAt.isSome),
        binding.source = .lease) ∧ s₁.table.wantedLeases
          (s₁.table.snapshot.filter fun binding => binding.expiresAt.isSome) now = s₁.table.leases := by
    intro htable
    rw [htable] at hfresh
    have hnone : s₁.table.snapshot.filter (fun binding => binding.expiresAt.isSome) = [] := by
      refine List.filter_eq_nil_iff.mpr fun binding hmem hsome => ?_
      rcases LeaseBindingTable.mem_snapshot.mp hmem with hget | hget
      · have hsource := (s₁.table.static_keyed _ _ hget).2
        rw [binding.expiry_matches_source.mpr hsome] at hsource
        exact absurd hsource (by simp)
      · rw [hfresh] at hget
        exact absurd hget (by simp)
    rw [hnone, hfresh]
    exact ⟨by simp, rfl⟩
  cases file with
  | failed why =>
    simp only [Except.ok.injEq] at hseeded ⊢
    split
    · exact hunread hseeded
    · exact hunread hseeded
  | contents bytes text =>
    simp only at hseeded ⊢
    split
    · rename_i hlarge
      split at hlarge
      · rename_i hbig
        simp only [hbig, if_true, Except.ok.injEq] at hseeded
        simp only [Prod.mk.injEq] at hlarge
        obtain ⟨_, rfl⟩ := hlarge
        simp only
        split
        · exact hunread hseeded
        · exact hunread hseeded
      · exact absurd hlarge (by simp)
    · rename_i parsed s₂ hread
      split at hread
      · exact absurd hread (by simp)
      · rename_i hsmall
        simp only [hsmall, if_false] at hseeded
        simp only [Prod.mk.injEq, Except.ok.injEq] at hread
        obtain ⟨rfl, rfl⟩ := hread
        have hsource : ∀ binding ∈ (parseLeases text s.protectedNetwork).bindings,
            binding.source = .lease := fun binding => parseLeases_source
        obtain ⟨change, table', happly, hstatic, hmacs, hleases⟩ :=
          applyLeases_of_leases s.table _ hsource now
        rw [happly] at hseeded
        obtain rfl : table' = s₁.table := Except.ok.inj hseeded
        exact ⟨hsource, by rw [wantedLeases_congr hstatic hmacs, hleases]⟩

theorem seededTable_ok (s : LeaseSync) (file : LeaseRead) (now : Time) :
    ∃ table, s.seededTable file now = .ok table := by
  unfold seededTable read
  cases file with
  | failed why => exact ⟨_, rfl⟩
  | contents bytes text =>
    simp only
    split
    · exact ⟨_, rfl⟩
    · rename_i parsed hread
      split at hread
      · exact absurd hread (by simp)
      · obtain rfl := Except.ok.inj hread
        obtain ⟨change, table', happly, _⟩ := applyLeases_of_leases s.table
          (parseLeases text s.protectedNetwork).bindings (fun _ => parseLeases_source) now
        rw [happly]
        exact ⟨table', rfl⟩

/-- **The kernel follows the table.** Whatever the lease file gives and whichever writes the kernel
refuses: after a seed every poll that lands leaves the binding sets with exactly the pairs of the table,
for every run of polls, if and only if the seed itself reached the kernel. -/
theorem polls_stay_in_step_iff (path : String) (protectedNetwork : IPv4Network)
    (table : LeaseBindingTable) (hfresh : table.leases = Dict.empty) (manager : FirewallManager)
    (b : FakeSetBackend) (hsets : manager.sets = some b) (file : LeaseRead) (now clock : Time) :
    (∀ polls, Along (pollStep clock)
      (fun s call => PollLands clock s call → (pollStep clock s call).InStep clock)
      ((init path protectedNetwork table manager).seed file now clock).2 polls) ↔
    (init path protectedNetwork table manager).SeedLands file now clock := by
  obtain ⟨table', hseeded⟩ := (init path protectedNetwork table manager).seededTable_ok file now
  have hiff := (init path protectedNetwork table manager).seed_inStep_iff hsets file now clock hseeded
  obtain ⟨htable, hflag, hnetwork, _, b', _, hsets', _⟩ :=
    (init path protectedNetwork table manager).seed_frame hsets file now clock hseeded
  generalize ((init path protectedNetwork table manager).seed file now clock).2 = seeded at *
  rw [← hiff]
  constructor
  · -- one more look at the same file writes nothing, and so repairs nothing
    intro h
    obtain ⟨hsource, hsame⟩ := polledLeases_seeded (s := init path protectedNetwork table manager) hfresh
      file now { seeded with passes := seeded.passes + 1 } hnetwork (htable ▸ hseeded)
    obtain ⟨hlands, hback⟩ := poll_unchanged hsets' hflag file now clock hsource hsame
    exact hback ((h [(file, now)]).1 hlands)
  · intro hstep polls
    exact Along.of_invariant (G := fun _ _ => True) (I := Tracked clock)
      (fun s call h _ => (h.poll call).1) (fun s call h _ => (h.poll call).2)
      (.of_forall (fun _ _ _ => trivial) _) ⟨⟨b', hsets'⟩, .inr hstep⟩

/-- Lease sync on the site's kernel, which refuses the writes `faults` says. -/
def siteSync (faults : List Bool) : LeaseSync :=
  .init "/var/lib/NetworkManager/dnsmasq-wlan0.leases" siteLan (.ofStatic [])
    (siteManager .active (some { siteKernel with faults }))

/-- The lease file of one phone. -/
def phoneLeases : LeaseRead := .contents 46 "1893456000 02:00:00:00:00:09 10.0.0.9 phone *\n"

theorem polls_stay_in_step_phone :
    (siteSync []).SeedLands phoneLeases 0 0 ∧
    Along (pollStep 0) (fun s call => PollLands 0 s call → (pollStep 0 s call).InStep 0)
      ((siteSync []).seed phoneLeases 0 0).2
      [(.failed "Permission denied", seconds 10), (phoneLeases, seconds 20)] := by
  have hlands : (siteSync []).SeedLands phoneLeases 0 0 := by
    obtain ⟨table, htable⟩ := (siteSync []).seededTable_ok phoneLeases 0
    have hok : ((siteSync []).seededTable phoneLeases 0).toOption.map (fun table =>
        ((siteSync []).manager.replaceBindings table.snapshot 0 0).1.toOption) = some (some 8) := by
      decide +kernel
    refine ⟨table, htable, .inl ⟨8, ?_⟩⟩
    rw [htable] at hok
    have hwrite : ((siteSync []).manager.replaceBindings table.snapshot 0 0).1.toOption = some 8 :=
      Option.some.inj hok
    generalize ((siteSync []).manager.replaceBindings table.snapshot 0 0).1 = result at hwrite
    cases result with
    | error e => exact absurd hwrite (by simp [Except.toOption])
    | ok n => exact congrArg Except.ok (Option.some.inj hwrite)
  exact ⟨hlands, (polls_stay_in_step_iff _ siteLan (.ofStatic []) rfl _
    { siteKernel with faults := [] } rfl phoneLeases 0 0).mpr hlands _⟩

/-- The kernel refuses the seed and nothing after it. The next poll of the same file lands without
writing, and the phone's pair is not in the kernel. -/
theorem refused_seed_is_not_repaired :
    ¬ Along (pollStep 0) (fun s call => PollLands 0 s call → (pollStep 0 s call).InStep 0)
      ((siteSync [true]).seed phoneLeases 0 0).2 [(phoneLeases, 0)] := by
  intro h
  have hreturned : (((siteSync [true]).seed phoneLeases 0 0).2.poll phoneLeases 0 0).1.toOption = some 0 := by
    decide +kernel
  have hlands : PollLands 0 ((siteSync [true]).seed phoneLeases 0 0).2 (phoneLeases, 0) := by
    refine ⟨?_, by decide +kernel⟩
    generalize (((siteSync [true]).seed phoneLeases 0 0).2.poll phoneLeases 0 0).1 = result at hreturned
    cases result with
    | error e => exact absurd hreturned (by simp [Except.toOption])
    | ok n => exact ⟨n, rfl⟩
  obtain ⟨b, hsets, hholds⟩ := h.1 hlands
  have hmissing : (pollStep 0 ((siteSync [true]).seed phoneLeases 0 0).2 (phoneLeases, 0)).manager.sets.map
      (fun b => b.holds 0 ⟨inetFamily, staticTable, setBound4⟩ (.one "10.0.0.9")) = some false := by
    decide +kernel
  have hbound : FirewallManager.isWanted
      (pollStep 0 ((siteSync [true]).seed phoneLeases 0 0).2 (phoneLeases, 0)).table.snapshot setBound4
      (.one "10.0.0.9") = true := by
    decide +kernel
  rw [hsets, Option.map_some] at hmissing
  have hheld := (hholds ⟨inetFamily, staticTable, setBound4⟩ (by decide) (.one "10.0.0.9")).mpr hbound
  exact absurd (hheld.symm.trans (Option.some.inj hmissing)) (by simp)

end LeaseSync

end Pirewall
