/-
# Pirewall.Identity.LeaseDiffs -- one call of `apply_leases`, wherever it stands in a run

A call offers any leases: several for one address, renewals, addresses that moved or were swapped, leases
that have run out or that name a static device. What it keeps is, for each address, the offer that runs
longest among those that count (`Offered`); what it reports is the difference to what was there; and the
batch that difference becomes takes the kernel from the one snapshot to the other.
-/
import Pirewall.Lib.Run
import Pirewall.Identity.LeaseSync

namespace Pirewall

open Lib

namespace LeaseBindingTable

/-- An offer that counts: it has not run out, and names neither a static address nor a static MAC. -/
structure Offered (table : LeaseBindingTable) (leases : List Binding) (now : Time) (binding : Binding) :
    Prop where
  mem : binding ∈ leases
  unexpired : now < binding.expiry
  ip_free : table.static.get? binding.ip = none
  mac_free : binding.mac ∉ table.staticMacs

theorem Offered.cons {table : LeaseBindingTable} {leases : List Binding} {now : Time} {binding : Binding}
    (h : table.Offered leases now binding) (lease : Binding) :
    table.Offered (leases ++ [lease]) now binding :=
  ⟨List.mem_append_left _ h.mem, h.unexpired, h.ip_free, h.mac_free⟩

/-- An offer in a longer list: the last one, or one of the others. -/
theorem Offered.cases {table : LeaseBindingTable} {leases : List Binding} {now : Time} {lease binding : Binding}
    (h : table.Offered (leases ++ [lease]) now binding) :
    table.Offered leases now binding ∨ binding = lease := by
  rcases List.mem_append.mp h.mem with hmem | hmem
  · exact .inl ⟨hmem, h.unexpired, h.ip_free, h.mac_free⟩
  · exact .inr (List.mem_singleton.mp hmem)

/-- The longest-running of the offers for each address. -/
structure Latest (table : LeaseBindingTable) (leases : List Binding) (now : Time)
    (wanted : Dict IPv4Address Binding) : Prop where
  offered : ∀ ip binding, wanted.get? ip = some binding →
    binding.ip = ip ∧ table.Offered leases now binding ∧
      ∀ other, table.Offered leases now other → other.ip = ip → other.expiry ≤ binding.expiry
  covers : ∀ other, table.Offered leases now other → ∃ binding, wanted.get? other.ip = some binding

/-- An offer that does not count changes nothing. -/
theorem Latest.skip {table : LeaseBindingTable} {leases : List Binding} {now : Time}
    {wanted : Dict IPv4Address Binding} (h : table.Latest leases now wanted) {lease : Binding}
    (hskip : ¬ table.Offered (leases ++ [lease]) now lease) : table.Latest (leases ++ [lease]) now wanted := by
  have hback : ∀ other, table.Offered (leases ++ [lease]) now other → table.Offered leases now other := by
    intro other hother
    rcases hother.cases with hother' | rfl
    · exact hother'
    · exact absurd hother hskip
  refine ⟨?_, fun other hother => h.covers other (hback other hother)⟩
  intro ip binding hget
  obtain ⟨hip, hoffered, hlatest⟩ := h.offered ip binding hget
  exact ⟨hip, hoffered.cons lease, fun other hother => hlatest other (hback other hother)⟩

/-- An offer that outruns what is there, or finds nothing there, takes the address. -/
theorem Latest.take {table : LeaseBindingTable} {leases : List Binding} {now : Time}
    {wanted : Dict IPv4Address Binding} (h : table.Latest leases now wanted) {lease : Binding}
    (hlease : table.Offered (leases ++ [lease]) now lease)
    (hlonger : ∀ current, wanted.get? lease.ip = some current → current.expiry ≤ lease.expiry) :
    table.Latest (leases ++ [lease]) now (wanted.set lease.ip lease) := by
  refine ⟨?_, ?_⟩
  · intro ip binding hget
    rw [Dict.get?_set] at hget
    split at hget
    · rename_i hip
      obtain rfl := Option.some.inj hget
      refine ⟨hip.symm, hlease, ?_⟩
      intro other hother hsame
      rcases hother.cases with hother | rfl
      · obtain ⟨current, hcurrent⟩ := h.covers other hother
        rw [hsame, hip] at hcurrent
        exact le_trans ((h.offered _ _ hcurrent).2.2 other hother (hsame.trans hip)) (hlonger current hcurrent)
      · exact le_refl _
    · rename_i hip
      obtain ⟨hkeyed, hoffered, hlatest⟩ := h.offered ip binding hget
      refine ⟨hkeyed, hoffered.cons lease, ?_⟩
      intro other hother hsame
      rcases hother.cases with hother | rfl
      · exact hlatest other hother hsame
      · exact absurd hsame.symm hip
  · intro other hother
    rw [Dict.get?_set]
    split
    · exact ⟨lease, rfl⟩
    · rename_i hip
      rcases hother.cases with hother | rfl
      · exact h.covers other hother
      · exact absurd rfl hip

/-- An offer that runs no longer than what is there is dropped. -/
theorem Latest.keep {table : LeaseBindingTable} {leases : List Binding} {now : Time}
    {wanted : Dict IPv4Address Binding} (h : table.Latest leases now wanted) {lease current : Binding}
    (hcurrent : wanted.get? lease.ip = some current) (hshorter : lease.expiry ≤ current.expiry) :
    table.Latest (leases ++ [lease]) now wanted := by
  refine ⟨?_, ?_⟩
  · intro ip binding hget
    obtain ⟨hkeyed, hoffered, hlatest⟩ := h.offered ip binding hget
    refine ⟨hkeyed, hoffered.cons lease, ?_⟩
    intro other hother hsame
    rcases hother.cases with hother | rfl
    · exact hlatest other hother hsame
    · rw [hsame, hget] at hcurrent
      obtain rfl := Option.some.inj hcurrent
      exact hshorter
  · intro other hother
    rcases hother.cases with hother | rfl
    · exact h.covers other hother
    · exact ⟨current, hcurrent⟩

/-- One round of the loop. -/
theorem Latest.wantLease {table : LeaseBindingTable} {leases : List Binding} {now : Time}
    {wanted : Dict IPv4Address Binding} (h : table.Latest leases now wanted) (lease : Binding) :
    table.Latest (leases ++ [lease]) now (table.wantLease now wanted lease) := by
  unfold LeaseBindingTable.wantLease
  split
  · rename_i hexpired
    exact h.skip fun hoffered => absurd hoffered.unexpired (not_lt.mpr hexpired)
  rename_i hlive
  split
  · rename_i hstatic
    refine h.skip fun hoffered => ?_
    rw [Bool.or_eq_true, Dict.contains, hoffered.ip_free, List.contains_iff_mem] at hstatic
    exact hstatic.elim (by simp) hoffered.mac_free
  rename_i hfree
  simp only [Bool.or_eq_true, not_or, Dict.contains, Option.not_isSome_iff_eq_none,
    List.contains_iff_mem] at hfree
  have hoffered : table.Offered (leases ++ [lease]) now lease :=
    ⟨List.mem_append_right _ (List.mem_singleton.mpr rfl), not_le.mp hlive, hfree.1, hfree.2⟩
  cases hcurrent : wanted.get? lease.ip with
  | none =>
    exact h.take hoffered fun current hget => absurd (hcurrent.symm.trans hget) (by simp)
  | some current =>
    dsimp only
    split
    · rename_i hlonger
      refine h.take hoffered ?_
      intro other hget
      obtain rfl := Option.some.inj (hcurrent.symm.trans hget)
      exact le_of_lt hlonger
    · rename_i hshorter
      exact h.keep hcurrent (not_lt.mp hshorter)

/-- What a call keeps: the longest-running offer of each address. -/
theorem wantedLeases_latest (table : LeaseBindingTable) (leases : List Binding) (now : Time) :
    table.Latest leases now (table.wantedLeases leases now) := by
  induction leases using List.reverseRecOn with
  | nil => exact ⟨fun _ _ h => absurd h (by simp [wantedLeases]), fun _ h => absurd h.mem (by simp)⟩
  | append_singleton leases lease ih =>
    rw [wantedLeases, List.foldl_append]
    exact ih.wantLease lease

/-! ## Runs -/

/-- A binding of a lease file. -/
abbrev Lease := { binding : Binding // binding.source = .lease }

/-- The bindings of a list of leases. -/
def bindings (leases : List Lease) : List Binding := leases.map Subtype.val

theorem bindings_source (leases : List Lease) : ∀ binding ∈ bindings leases, binding.source = .lease := by
  intro binding hmem
  obtain ⟨lease, _, rfl⟩ := List.mem_map.mp hmem
  exact lease.2

/-- The table after one more call. -/
def afterLeases (table : LeaseBindingTable) (call : List Lease × Time) : LeaseBindingTable :=
  match table.applyLeases (bindings call.1) call.2 with
  | .ok (_, table) => table
  | .error _ => table

/-- No call touches the static entries. -/
theorem run_static (calls : List (List Lease × Time)) (table : LeaseBindingTable) :
    (run afterLeases table calls).static = table.static ∧
      (run afterLeases table calls).staticMacs = table.staticMacs := by
  induction calls generalizing table with
  | nil => exact ⟨rfl, rfl⟩
  | cons call calls ih =>
    obtain ⟨change, table', happly, hstatic, hmacs, _⟩ :=
      LeaseSync.applyLeases_of_leases table (bindings call.1) (bindings_source call.1) call.2
    have hafter : table.afterLeases call = table' := by
      rw [afterLeases, happly]
    obtain ⟨h, h'⟩ := ih (table.afterLeases call)
    rw [hafter] at h h'
    rw [run_cons, hafter]
    exact ⟨h.trans hstatic, h'.trans hmacs⟩

/-- The static table holds the addresses of its entries. -/
theorem ofStatic_static (entries : List { binding : Binding // binding.source = .static })
    (ip : IPv4Address) :
    (ofStatic entries).static.get? ip = none ↔ ∀ entry ∈ entries, ip ≠ entry.1.ip := by
  have hkeys : ∀ (entries : List { binding : Binding // binding.source = .static })
      (static : Dict IPv4Address Binding),
      ip ∈ (entries.foldl (fun static entry => static.set entry.1.ip entry.1) static).keys ↔
        ip ∈ static.keys ∨ ∃ entry ∈ entries, ip = entry.1.ip := by
    intro entries
    induction entries with
    | nil => simp
    | cons first rest ih =>
      intro static
      rw [List.foldl_cons, ih, Dict.mem_keys_set]
      simp only [List.mem_cons, exists_eq_or_imp]
      tauto
  rw [Dict.get?_eq_none_iff]
  show ip ∉ (entries.foldl (fun static entry => static.set entry.1.ip entry.1) Dict.empty).keys ↔ _
  rw [hkeys]
  simp [Dict.keys, Dict.empty]

/-- A lease that counts, under these static entries. -/
def Counts (entries : List { binding : Binding // binding.source = .static }) (now : Time)
    (binding : Binding) : Prop :=
  now < binding.expiry ∧ ∀ entry ∈ entries, binding.ip ≠ entry.1.ip ∧ binding.mac ≠ entry.1.mac

theorem offered_iff {entries : List { binding : Binding // binding.source = .static }}
    {table : LeaseBindingTable} (hstatic : table.static = (ofStatic entries).static)
    (hmacs : table.staticMacs = (ofStatic entries).staticMacs) {leases : List Binding} {now : Time}
    {binding : Binding} :
    table.Offered leases now binding ↔ binding ∈ leases ∧ Counts entries now binding := by
  have hmac : binding.mac ∉ table.staticMacs ↔ ∀ entry ∈ entries, binding.mac ≠ entry.1.mac := by
    rw [hmacs]
    show binding.mac ∉ entries.map (fun entry => entry.1.mac) ↔ _
    simp only [List.mem_map, not_exists, not_and, ne_eq]
    exact forall₂_congr fun _ _ => not_congr eq_comm
  constructor
  · rintro ⟨hmem, hlive, hip, hfree⟩
    rw [hstatic, ofStatic_static] at hip
    exact ⟨hmem, hlive, fun entry hentry => ⟨hip entry hentry, hmac.mp hfree entry hentry⟩⟩
  · rintro ⟨hmem, hlive, hfree⟩
    refine ⟨hmem, hlive, ?_, hmac.mpr fun entry hentry => (hfree entry hentry).2⟩
    rw [hstatic, ofStatic_static]
    exact fun entry hentry => (hfree entry hentry).1

theorem mem_leases_iff {table : LeaseBindingTable} {binding : Binding} :
    binding ∈ table.leases.values ↔ table.leases.get? binding.ip = some binding := by
  rw [Dict.mem_values_iff]
  constructor
  · rintro ⟨ip, hget⟩
    rw [(table.leases_keyed ip binding hget).1]
    exact hget
  · exact fun hget => ⟨_, hget⟩

/-- The batch of a change, on a backend that refuses none of its writes. -/
theorem syncBindings_reliable {m : FirewallManager} {b : FakeSetBackend} (hsets : m.sets = some b)
    (h : b.Reliable FirewallManager.bindingSets) (change : BindingChange) (now clock : Time) :
    ∃ n, (m.syncBindings change now clock).1 = .ok n := by
  unfold FirewallManager.syncBindings
  rw [hsets]
  dsimp only
  split
  · exact ⟨0, rfl⟩
  have hops : ∀ op ∈ change.removed.flatMap (fun binding => bindingOps .delete binding none) ++
      change.added.flatMap (fun binding =>
        bindingOps .add binding (m.bindingTimeout binding now)),
      validateElement op = .ok () ∧ op.address ∈ FirewallManager.bindingSets := by
    intro op hop
    rcases List.mem_append.mp hop with hop | hop
    · obtain ⟨binding, _, hop⟩ := List.mem_flatMap.mp hop
      exact FirewallManager.bindingOps_valid (fun t ht => absurd ht (by simp)) hop
    · obtain ⟨binding, _, hop⟩ := List.mem_flatMap.mp hop
      exact FirewallManager.bindingOps_valid (fun t ht => FirewallManager.bindingTimeout_pos ht) hop
  obtain ⟨hok, _⟩ := h.apply clock (fun op hop => (hops op hop).1) fun op hop => (hops op hop).2
  rw [hok]
  exact ⟨_, rfl⟩

/-- After any calls, the next one leaves at most one lease an address, none expired and none on a static
device, each the longest-running of the offers that count; it reports exactly what changed; and the batch of
its change takes kernel sets that hold the old snapshot to the new one. A kernel that refuses the batch keeps
the old one, and one that refuses nothing takes it. -/
theorem lease_diffs_are_exact (entries : List { binding : Binding // binding.source = .static })
    (calls : List (List Lease × Time)) (leases : List Lease) (now : Time) :
    let table := run afterLeases (ofStatic entries) calls
    ∃ change table', table.applyLeases (bindings leases) now = .ok (change, table') ∧
      (∀ x ∈ table'.leases.values, ∀ y ∈ table'.leases.values, x.ip = y.ip → x = y) ∧
      (∀ binding ∈ table'.leases.values, binding ∈ bindings leases ∧ Counts entries now binding ∧
        ∀ other ∈ bindings leases, Counts entries now other → other.ip = binding.ip →
          other.expiry ≤ binding.expiry) ∧
      (∀ offer ∈ bindings leases, Counts entries now offer →
        ∃ binding ∈ table'.leases.values, binding.ip = offer.ip) ∧
      (∀ binding, binding ∈ table'.leases.values ↔
        (binding ∈ table.leases.values ∧ binding ∉ change.removed) ∨ binding ∈ change.added) ∧
      ∀ (m : FirewallManager) (clock : Time), m.BindingSetsHold clock table.snapshot →
        ((∃ n, (m.syncBindings change now clock).1 = .ok n ∧
            (m.syncBindings change now clock).2.BindingSetsHold clock table'.snapshot) ∨
          ∃ e, (m.syncBindings change now clock).1 = .error e ∧
            (m.syncBindings change now clock).2.BindingSetsHold clock table.snapshot) ∧
        ∀ b, m.sets = some b → b.Reliable FirewallManager.bindingSets →
          (m.syncBindings change now clock).2.BindingSetsHold clock table'.snapshot := by
  intro table
  obtain ⟨hstatic, hmacs⟩ := run_static calls (ofStatic entries)
  obtain ⟨change, table', happly, _, _, hwanted⟩ :=
    LeaseSync.applyLeases_of_leases table (bindings leases) (bindings_source leases) now
  obtain ⟨_, _, hremoved, hadded⟩ := applyLeases_ok happly
  -- what is kept of an address is the longest-running offer for it
  have hlatest := table.wantedLeases_latest (bindings leases) now
  rw [← hwanted] at hlatest
  refine ⟨change, table', happly, ?_, ?_, ?_, ?_, ?_⟩
  · intro x hx y hy hip
    have hx' := mem_leases_iff.mp hx
    rw [hip, mem_leases_iff.mp hy] at hx'
    exact (Option.some.inj hx').symm
  · intro binding hmem
    obtain ⟨_, hoffered, hlongest⟩ := hlatest.offered _ _ (mem_leases_iff.mp hmem)
    obtain ⟨hin, hcounts⟩ := (offered_iff hstatic hmacs).mp hoffered
    exact ⟨hin, hcounts, fun other hother hcounts' =>
      hlongest other ((offered_iff hstatic hmacs).mpr ⟨hother, hcounts'⟩)⟩
  · intro offer hoffer hcounts
    obtain ⟨binding, hget⟩ := hlatest.covers offer ((offered_iff hstatic hmacs).mpr ⟨hoffer, hcounts⟩)
    exact ⟨binding, Dict.mem_values_iff.mpr ⟨_, hget⟩, (hlatest.offered _ _ hget).1⟩
  · intro binding
    rw [mem_leases_iff, mem_leases_iff, hremoved, hadded]
    tauto
  · intro m clock hholds
    -- a batch that was taken leaves the new snapshot
    have hsent : ∀ n, (m.syncBindings change now clock).1 = .ok n →
        (m.syncBindings change now clock).2.BindingSetsHold clock table'.snapshot := fun n hok =>
      LeaseSync.syncBindings_inStep happly hholds hok
    constructor
    · have hbefore := hholds
      obtain ⟨b, hsets, _⟩ := hholds
      -- it is taken, or it changes nothing
      rcases FirewallManager.syncBindings_cases hsets change now clock with
        ⟨n, _, hok, _⟩ | ⟨e, herror, hsame⟩
      · exact .inl ⟨n, hok, hsent n hok⟩
      · exact .inr ⟨e, herror, (FirewallManager.BindingSetsHold.congr hsame).mpr hbefore⟩
    · intro b hsets hreliable
      obtain ⟨n, hok⟩ := syncBindings_reliable hsets hreliable change now clock
      exact hsent n hok

/-- A lease on the LAN address with this last octet. -/
def leaseTo (mac : Mac) (device : Nat) (expiry : Time) : Lease :=
  ⟨⟨.ofOctets 10 0 0 device, mac, .lease, some expiry, by simp⟩, rfl⟩

def phone : Mac := ⟨"02:00:00:00:00:28", by decide +kernel⟩

def laptop : Mac := ⟨"02:00:00:00:00:29", by decide +kernel⟩

/-- A printer, with an address of its own. -/
def printer : { binding : Binding // binding.source = .static } :=
  ⟨⟨.ofOctets 10 0 0 7, ⟨"02:00:00:00:00:07", by decide +kernel⟩, .static, none, by simp⟩, rfl⟩

def issuedLeases : List Lease := [leaseTo phone 8 (seconds 600), leaseTo laptop 9 (seconds 600)]

def leasedTable : LeaseBindingTable := run afterLeases (ofStatic [printer]) [(issuedLeases, 0)]

/-- The two devices swap their addresses, and one of them is offered the printer's as well. -/
def swappedLeases : List Lease :=
  [leaseTo laptop 8 (seconds 900), leaseTo phone 9 (seconds 900), leaseTo phone 7 (seconds 900)]

/-- A kernel that refuses nothing, with the table's pairs in it. -/
def leasedManager : FirewallManager :=
  ((siteManager .active (some (.load none none fun _ => .observe))).replaceBindings leasedTable.snapshot (seconds 60)
    (seconds 60)).2

/-- Both pairs are exchanged in one batch, and the kernel has the new ones. -/
theorem lease_diffs_are_exact_swapped :
    leasedManager.BindingSetsHold (seconds 60) leasedTable.snapshot ∧
    ∃ change table', leasedTable.applyLeases (bindings swappedLeases) (seconds 60) = .ok (change, table') ∧
      change.removed = bindings issuedLeases ∧
      change.added = [(leaseTo laptop 8 (seconds 900)).1, (leaseTo phone 9 (seconds 900)).1] ∧
      (leasedManager.syncBindings change (seconds 60) (seconds 60)).2.BindingSetsHold (seconds 60) table'.snapshot := by
  have hholds : leasedManager.BindingSetsHold (seconds 60) leasedTable.snapshot := by
    have hwritten : ((siteManager .active (some (.load none none fun _ => .observe))).replaceBindings
        leasedTable.snapshot (seconds 60) (seconds 60)).1.toOption.isSome = true := by
      decide +kernel
    rcases FirewallManager.replaceBindings_cases (m := siteManager .active (some (.load none none fun _ => .observe)))
      rfl leasedTable.snapshot (seconds 60) (seconds 60) with ⟨n, _, hholds⟩ | ⟨e, herror, _⟩
    · exact hholds
    · rw [herror] at hwritten
      exact absurd hwritten (by simp [Except.toOption])
  have hloaded : leasedManager.sets.map (fun b => (b.faults, FirewallManager.bindingSets.map fun a =>
      (b.find? a).map FakeSet.size)) = some ([], FirewallManager.bindingSets.map fun _ => some none) := by
    decide +kernel
  obtain ⟨b, hsets, hb⟩ := Option.map_eq_some_iff.mp hloaded
  obtain ⟨hfaults, hsizes⟩ := Prod.mk.inj hb
  have hreliable : b.Reliable FirewallManager.bindingSets := by
    refine ⟨hfaults, fun a ha => ?_⟩
    exact Option.map_eq_some_iff.mp (List.map_inj_left.mp hsizes a ha)
  obtain ⟨change, table', happly, _, _, _, _, hsync⟩ :=
    lease_diffs_are_exact [printer] [(issuedLeases, 0)] swappedLeases (seconds 60)
  have hchange : (leasedTable.applyLeases (bindings swappedLeases) (seconds 60)).toOption.map
      (fun applied => (applied.1.removed, applied.1.added)) =
        some (bindings issuedLeases, [(leaseTo laptop 8 (seconds 900)).1, (leaseTo phone 9 (seconds 900)).1]) := by
    decide +kernel
  have happly : leasedTable.applyLeases (bindings swappedLeases) (seconds 60) = .ok (change, table') := happly
  rw [happly] at hchange
  obtain ⟨hremoved, hadded⟩ := Prod.mk.inj (Option.some.inj hchange)
  exact ⟨hholds, change, table', happly, hremoved, hadded,
    (hsync leasedManager (seconds 60) hholds).2 b hsets hreliable⟩

end LeaseBindingTable

end Pirewall
