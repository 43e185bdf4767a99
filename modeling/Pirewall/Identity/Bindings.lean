/-
# Pirewall.Identity.Bindings -- the table of IP-MAC bindings

`LeaseBindingTable` merges the static entries of the configuration, fixed for the life of the process,
with the current leases; a static entry always wins. `apply_leases` replaces the leases and reports the
difference, and that difference is all the kernel is told. So the difference has to be complete:
`applyLeases_keys` says that the keys of the new table are the old ones without the removed and with the
added ones, for any way of reading a key off a binding that determines its address.
-/
import Pirewall.Identity.LeaseFile

namespace Pirewall

open Lib

/-- `LeaseBindingTable`: static entries plus the current leases, each under its own address. -/
structure LeaseBindingTable where
  static : Dict IPv4Address Binding
  staticMacs : List Mac
  leases : Dict IPv4Address Binding
  static_keyed : ∀ ip binding, static.get? ip = some binding → binding.ip = ip ∧ binding.source = .static
  leases_keyed : ∀ ip binding, leases.get? ip = some binding → binding.ip = ip ∧ binding.source = .lease
  /-- A lease never names a static address. -/
  leases_apart : ∀ ip binding, leases.get? ip = some binding → static.get? ip = none

namespace LeaseBindingTable

/-- `LeaseBindingTable.__init__`, over entries that are all STATIC. -/
def ofStatic (entries : List { binding : Binding // binding.source = .static }) : LeaseBindingTable where
  static := entries.foldl (fun static entry => static.set entry.1.ip entry.1) Dict.empty
  staticMacs := entries.map fun entry => entry.1.mac
  leases := Dict.empty
  static_keyed := by
    suffices hfold : ∀ static : Dict IPv4Address Binding,
        (∀ ip binding, static.get? ip = some binding → binding.ip = ip ∧ binding.source = .static) →
        ∀ ip binding, (entries.foldl (fun static entry => static.set entry.1.ip entry.1) static).get? ip =
          some binding → binding.ip = ip ∧ binding.source = .static from
      hfold Dict.empty fun _ _ h => absurd h (by simp)
    induction entries with
    | nil => exact fun static h => h
    | cons entry entries ih =>
      intro static hstatic
      refine ih (static.set entry.1.ip entry.1) ?_
      intro ip binding h
      rw [Dict.get?_set] at h
      split at h
      · rename_i heq
        obtain rfl := Option.some.inj h
        exact ⟨heq.symm, entry.2⟩
      · exact hstatic ip binding h
  leases_keyed := fun _ _ h => absurd h (by simp)
  leases_apart := fun _ _ h => absurd h (by simp)

/-- `LeaseBindingTable(static)`, `none` where it raises. -/
def init (entries : List Binding) : Option LeaseBindingTable :=
  (entries.mapM fun binding => if h : binding.source = .static then some ⟨binding, h⟩ else none).map ofStatic

/-- `resolve_mac`: static first. -/
def resolveMac (table : LeaseBindingTable) (ip : IPv4Address) : Option Mac :=
  ((table.static.get? ip).or (table.leases.get? ip)).map Binding.mac

/-- `resolve_ip`: the static entry, else the latest-expiring lease. -/
def resolveIp (table : LeaseBindingTable) (mac : Mac) : Option IPv4Address :=
  match table.static.values.find? fun binding => binding.mac == mac with
  | some binding => some binding.ip
  | none =>
    match table.leases.values.filter fun binding => binding.mac == mac with
    | [] => none
    | first :: rest =>
      some (rest.foldl (fun best binding => if best.expiry < binding.expiry then binding else best)
        first).ip

/-- Bindings in address order. -/
def sortedByIp (bindings : List Binding) : List Binding :=
  bindings.insertionSort fun x y => x.ip.toNat ≤ y.ip.toNat

/-- `snapshot`: static first, each group in address order. -/
def snapshot (table : LeaseBindingTable) : List Binding :=
  sortedByIp table.static.values ++ sortedByIp table.leases.values

/-- One lease of the loop of `apply_leases`. -/
def wantLease (table : LeaseBindingTable) (now : Time) (wanted : Dict IPv4Address Binding)
    (binding : Binding) : Dict IPv4Address Binding :=
  if binding.expiry ≤ now then wanted
  else if table.static.contains binding.ip || table.staticMacs.contains binding.mac then wanted
  else
    match wanted.get? binding.ip with
    | none => wanted.set binding.ip binding
    | some current => if current.expiry < binding.expiry then wanted.set binding.ip binding else wanted

/-- The leases `apply_leases` ends up with. -/
def wantedLeases (table : LeaseBindingTable) (leases : List Binding) (now : Time) :
    Dict IPv4Address Binding :=
  leases.foldl (table.wantLease now) Dict.empty

/-- What the loop keeps is a lease, under its own address, apart from the static entries. -/
theorem wantedLeases_spec (table : LeaseBindingTable) {leases : List Binding}
    (h : ∀ binding ∈ leases, binding.source = .lease) (now : Time) (ip : IPv4Address) (binding : Binding)
    (hget : (table.wantedLeases leases now).get? ip = some binding) :
    binding.ip = ip ∧ binding.source = .lease ∧ table.static.get? ip = none := by
  unfold wantedLeases at hget
  suffices hfold : ∀ wanted : Dict IPv4Address Binding,
      (∀ ip binding, wanted.get? ip = some binding →
        binding.ip = ip ∧ binding.source = .lease ∧ table.static.get? ip = none) →
      (leases.foldl (table.wantLease now) wanted).get? ip = some binding →
      binding.ip = ip ∧ binding.source = .lease ∧ table.static.get? ip = none from
    hfold Dict.empty (fun _ _ h => absurd h (by simp)) hget
  clear hget
  induction leases with
  | nil => exact fun wanted hwanted hget => hwanted ip binding hget
  | cons lease leases ih =>
    intro wanted hwanted hget
    obtain ⟨hlease, hleases⟩ := List.forall_mem_cons.mp h
    refine ih hleases (table.wantLease now wanted lease) ?_ hget
    -- filing a lease that passed the two filters
    have hset : table.static.contains lease.ip = false → ∀ ip binding,
        (wanted.set lease.ip lease).get? ip = some binding →
          binding.ip = ip ∧ binding.source = .lease ∧ table.static.get? ip = none := by
      intro hstatic ip binding hb
      rw [Dict.get?_set] at hb
      split at hb
      · rename_i hip
        obtain rfl := Option.some.inj hb
        exact ⟨hip.symm, hlease, by rw [hip]; simpa [Dict.contains] using hstatic⟩
      · exact hwanted ip binding hb
    unfold wantLease
    split
    · exact hwanted
    · split
      · exact hwanted
      · rename_i hstatic
        simp only [Bool.or_eq_true, not_or, Bool.not_eq_true] at hstatic
        split
        · exact hset hstatic.1
        · split
          · exact hset hstatic.1
          · exact hwanted

/-- `apply_leases`: replace the leases, and what changed. -/
def applyLeases (table : LeaseBindingTable) (leases : List Binding) (now : Time) :
    Except String (BindingChange × LeaseBindingTable) :=
  if h : ∀ binding ∈ leases, binding.source = .lease then
    let wanted := table.wantedLeases leases now
    .ok
      ({ removed := sortedByIp (table.leases.values.filter fun binding =>
           decide (wanted.get? binding.ip ≠ some binding))
         added := sortedByIp (wanted.values.filter fun binding =>
           decide (table.leases.get? binding.ip ≠ some binding)) },
       { table with
         leases := wanted
         leases_keyed := fun ip binding hget =>
           ⟨(table.wantedLeases_spec h now ip binding hget).1, (table.wantedLeases_spec h now ip binding hget).2.1⟩
         leases_apart := fun ip binding hget => (table.wantedLeases_spec h now ip binding hget).2.2 })
  else .error "apply_leases takes LEASE bindings only"

theorem mem_sortedByIp {bindings : List Binding} {binding : Binding} :
    binding ∈ sortedByIp bindings ↔ binding ∈ bindings := List.mem_insertionSort _

theorem mem_snapshot {table : LeaseBindingTable} {binding : Binding} :
    binding ∈ table.snapshot ↔
      table.static.get? binding.ip = some binding ∨ table.leases.get? binding.ip = some binding := by
  rw [snapshot, List.mem_append, mem_sortedByIp, mem_sortedByIp, Dict.mem_values_iff, Dict.mem_values_iff]
  constructor
  · rintro (⟨ip, hget⟩ | ⟨ip, hget⟩)
    · exact .inl (by rw [(table.static_keyed ip binding hget).1]; exact hget)
    · exact .inr (by rw [(table.leases_keyed ip binding hget).1]; exact hget)
  · rintro (hget | hget)
    · exact .inl ⟨_, hget⟩
    · exact .inr ⟨_, hget⟩

section Change

variable {table table' : LeaseBindingTable} {leases : List Binding} {now : Time} {change : BindingChange}

/-- What a call of `apply_leases` that went through did. -/
theorem applyLeases_ok (h : table.applyLeases leases now = .ok (change, table')) :
    table'.static = table.static ∧ table'.leases = table.wantedLeases leases now ∧
    (∀ binding, binding ∈ change.removed ↔
      table.leases.get? binding.ip = some binding ∧ table'.leases.get? binding.ip ≠ some binding) ∧
    ∀ binding, binding ∈ change.added ↔
      table'.leases.get? binding.ip = some binding ∧ table.leases.get? binding.ip ≠ some binding := by
  unfold applyLeases at h
  split at h
  · rename_i hleases
    obtain ⟨rfl, rfl⟩ := Prod.mk.inj (Except.ok.inj h)
    refine ⟨rfl, rfl, ?_, ?_⟩
    · intro binding
      rw [mem_sortedByIp, List.mem_filter, Dict.mem_values_iff, decide_eq_true_eq]
      constructor
      · rintro ⟨⟨ip, hget⟩, hnot⟩
        exact ⟨by rw [(table.leases_keyed ip binding hget).1]; exact hget, hnot⟩
      · rintro ⟨hget, hnot⟩
        exact ⟨⟨_, hget⟩, hnot⟩
    · intro binding
      rw [mem_sortedByIp, List.mem_filter, Dict.mem_values_iff, decide_eq_true_eq]
      constructor
      · rintro ⟨⟨ip, hget⟩, hnot⟩
        exact ⟨by rw [(table.wantedLeases_spec hleases now ip binding hget).1]; exact hget, hnot⟩
      · rintro ⟨hget, hnot⟩
        exact ⟨⟨_, hget⟩, hnot⟩
  · exact absurd h (by simp)

/-- The reported change is the whole difference between the two tables, key by key. -/
theorem applyLeases_keys (h : table.applyLeases leases now = .ok (change, table')) {κ : Type}
    (key : Binding → κ) (hkey : ∀ x y, key x = key y → x.ip = y.ip) (k : κ) :
    (∃ binding ∈ table'.snapshot, key binding = k) ↔
      (∃ binding ∈ change.added, key binding = k) ∨
      ((∃ binding ∈ table.snapshot, key binding = k) ∧ ¬ ∃ binding ∈ change.removed, key binding = k) := by
  obtain ⟨hstatic, _, hremoved, hadded⟩ := applyLeases_ok h
  -- a removed binding is a lease: no static entry has its key
  have hapart : ∀ binding gone, table.static.get? binding.ip = some binding → gone ∈ change.removed →
      key gone ≠ key binding := by
    intro binding gone hget hgone heq
    have hlease := ((hremoved gone).mp hgone).1
    have hnone := table.leases_apart _ _ hlease
    rw [hkey gone binding heq, hget] at hnone
    exact absurd hnone (by simp)
  constructor
  · rintro ⟨binding, hmem, rfl⟩
    rcases mem_snapshot.mp hmem with hget | hget
    · rw [hstatic] at hget
      refine .inr ⟨⟨binding, mem_snapshot.mpr (.inl hget), rfl⟩, ?_⟩
      rintro ⟨gone, hgone, heq⟩
      exact hapart binding gone hget hgone heq
    · by_cases hold : table.leases.get? binding.ip = some binding
      · refine .inr ⟨⟨binding, mem_snapshot.mpr (.inr hold), rfl⟩, ?_⟩
        rintro ⟨gone, hgone, heq⟩
        obtain ⟨hlease, hnot⟩ := (hremoved gone).mp hgone
        rw [hkey gone binding heq, hold] at hlease
        obtain rfl := Option.some.inj hlease
        exact hnot hget
      · exact .inl ⟨binding, (hadded binding).mpr ⟨hget, hold⟩, rfl⟩
  · rintro (⟨binding, hmem, rfl⟩ | ⟨⟨binding, hmem, rfl⟩, hkept⟩)
    · exact ⟨binding, mem_snapshot.mpr (.inr ((hadded binding).mp hmem).1), rfl⟩
    · rcases mem_snapshot.mp hmem with hget | hget
      · exact ⟨binding, mem_snapshot.mpr (.inl (by rw [hstatic]; exact hget)), rfl⟩
      · refine ⟨binding, mem_snapshot.mpr (.inr ?_), rfl⟩
        by_contra hnot
        exact hkept ⟨binding, (hremoved binding).mpr ⟨hget, hnot⟩, rfl⟩

/-- Applying what is already there changes nothing. -/
theorem applyLeases_same (h : table.applyLeases leases now = .ok (change, table'))
    (hsame : table.wantedLeases leases now = table.leases) : change.removed = [] ∧ change.added = [] := by
  obtain ⟨_, hleases, hremoved, hadded⟩ := applyLeases_ok h
  rw [hsame] at hleases
  constructor
  · refine List.eq_nil_iff_forall_not_mem.mpr fun binding hmem => ?_
    obtain ⟨hget, hnot⟩ := (hremoved binding).mp hmem
    exact hnot (hleases ▸ hget)
  · refine List.eq_nil_iff_forall_not_mem.mpr fun binding hmem => ?_
    obtain ⟨hget, hnot⟩ := (hadded binding).mp hmem
    exact hnot (hleases ▸ hget)

end Change

end LeaseBindingTable

end Pirewall
