/-
# Pirewall.Portal.Stores -- what a store call that raises leaves behind

The account store and the allowlist store change their dictionary and then write the file. The write is all
or nothing: a temporary file, renamed over the old one. So a call that raises never touches the file, and it
leaves memory as it was too unless its own write failed with something to change. For
`FirewallManager.add_allowlist_entry` there is a second way to raise, and a documented one: the kernel
refuses the pair, and the entry stays, in memory and on disk, because it still protects the device.

`StoreCall` and `AllowlistStoreCall` are the calls of the two stores, `changes` is what a call is about to
change, and one lemma per store says that a call is at most one write of the changed dictionary.
-/
import Pirewall.Firewall.AllowBound
import Pirewall.Portal.Service

namespace Pirewall

open Lib

/-- A call that raises leaves what `view` sees of the state as it was. -/
def AtomicOnError {σ μ ε α : Type} (view : σ → μ) (before : σ) (outcome : Except ε α × σ) : Prop :=
  ∀ e, outcome.1 = .error e → view outcome.2 = view before

/-- A call that writes once: it raises exactly when the write fails, and then it has changed what `view`
sees or not. -/
theorem atomicOnError_write {σ μ ε α : Type} {view : σ → μ} {before : σ} {outcome : Except ε α × σ}
    {fails changed : Bool} (hok : fails = false → ∃ a, outcome.1 = .ok a)
    (hfail : fails = true → (∃ e, outcome.1 = .error e) ∧ (view outcome.2 = view before ↔ changed = false)) :
    AtomicOnError view before outcome ↔ ¬ (fails = true ∧ changed = true) := by
  cases fails with
  | false =>
    obtain ⟨a, ha⟩ := hok rfl
    refine iff_of_true (fun e he => ?_) (by simp)
    exact absurd (ha.symm.trans he) (by simp)
  | true =>
    obtain ⟨⟨e, he⟩, hview⟩ := hfail rfl
    simp only [true_and, Bool.not_eq_true, ← hview]
    exact ⟨fun h => h e he, fun h _ _ => h⟩

/-! ## Accounts -/

/-- The calls of the account store that write it. -/
inductive StoreCall where
  | add (username password salt : String) (createdAt : Time) (createdBy note : String) (isDemo : Bool)
  | setPassword (username password salt : String)
  | remove (username : String)
  | removeDemoAccounts

namespace PortalUserStore

/-- A call: whether it raised, and the store after it. -/
def perform (store : PortalUserStore) : StoreCall → Except StoreError Unit × PortalUserStore
  | .add username password salt createdAt createdBy note isDemo =>
    let (result, after) := store.add username password salt createdAt createdBy note isDemo
    (result.map fun _ => (), after)
  | .setPassword username password salt =>
    let (result, after) := store.setPassword username password salt
    (result.map fun _ => (), after)
  | .remove username =>
    let (result, after) := store.remove username
    (result.map fun _ => (), after)
  | .removeDemoAccounts =>
    let (result, after) := store.removeDemoAccounts
    (result.map fun _ => (), after)

/-- The next write of the file fails. -/
def writeFails (store : PortalUserStore) : Bool := store.faults.head? == some true

/-- The call has something to change: a new valid account, a present account with another hash or still in
demo status, a present account, some demo account. -/
def changes (store : PortalUserStore) : StoreCall → Bool
  | .add username password salt createdAt createdBy note isDemo =>
    !store.users.contains username
      && (store.newUser username password salt createdAt createdBy note isDemo).isValid
  | .setPassword username password salt =>
    (store.users.get? username).any fun user =>
      user.passwordHash != store.passwords.hash salt password || user.isDemo
  | .remove username => store.users.contains username
  | .removeDemoAccounts => !store.doomed.isEmpty

/-- Memory, the file, and which passwords verify. -/
def view (store : PortalUserStore) : Dict String PortalUser × List PortalUser × (String → String → Bool) :=
  (store.users, store.file, store.verify)

/-- The file holds the accounts in memory. -/
def InSync (store : PortalUserStore) : Prop := store.file = store.listUsers

theorem persist_cases (store : PortalUserStore) :
    if store.writeFails then store.persist = (.error .notWritten, { store with faults := store.faults.tail })
    else store.persist.1 = .ok () ∧ store.persist.2.InSync := by
  unfold persist writeFails
  by_cases h : store.faults.head? = some true
  · simp [h]
  · simp only [h, beq_iff_eq, if_false]
    exact ⟨trivial, rfl⟩

theorem mem_doomed {store : PortalUserStore} {username : String} (h : username ∈ store.doomed) :
    store.users.contains username = true := by
  rw [doomed, (List.perm_insertionSort _ _).mem_iff] at h
  obtain ⟨⟨name, user⟩, hmem, rfl⟩ := List.mem_map.mp h
  rw [Dict.contains, Dict.mem_entries_iff.mp (List.mem_of_mem_filter hmem)]
  rfl

/-- A call writes nothing and has nothing to change, or is one write of the dictionary it changed. -/
theorem perform_cases (store : PortalUserStore) (call : StoreCall) :
    ((store.perform call).2 = store ∧ store.changes call = false) ∨
    ∃ users, (users = store.users ↔ store.changes call = false) ∧
      store.perform call = persist { store with users } := by
  cases call with
  | add username password salt createdAt createdBy note isDemo =>
    simp only [perform, add, changes]
    -- an account that exists, or a record that is not valid, raises before anything is written
    cases hcontains : store.users.contains username with
    | true => exact .inl ⟨rfl, rfl⟩
    | false =>
      cases hvalid : (store.newUser username password salt createdAt createdBy note isDemo).isValid with
      | false => exact .inl ⟨rfl, rfl⟩
      | true =>
        refine .inr ⟨store.users.set username
          (store.newUser username password salt createdAt createdBy note isDemo), ?_, ?_⟩
        · rw [Dict.contains, Option.isSome_eq_false_iff, Option.isNone_iff_eq_none] at hcontains
          simp [Dict.set_eq_self_iff, hcontains]
        · simp only [if_true, Bool.false_eq_true, if_false]
          -- what is left to do is up to the write
          generalize persist _ = outcome
          rcases outcome with ⟨_ | _, after⟩
          · rfl
          · rfl
  | setPassword username password salt =>
    simp only [perform, setPassword, changes]
    cases hget : store.users.get? username with
    | none => exact .inl ⟨rfl, rfl⟩
    | some user =>
      refine .inr ⟨store.users.set username
        { user with passwordHash := store.passwords.hash salt password, isDemo := false }, ?_, ?_⟩
      · rw [Dict.set_eq_self_iff, hget, Option.some.injEq]
        cases user
        simp
      · simp only
        generalize persist _ = outcome
        rcases outcome with ⟨_ | _, after⟩
        · rfl
        · rfl
  | remove username =>
    simp only [perform, remove, changes]
    cases hcontains : store.users.contains username with
    | false => exact .inl ⟨rfl, rfl⟩
    | true =>
      refine .inr ⟨store.users.erase username, ?_, ?_⟩
      · rw [Dict.erase_eq_self_iff]
        rw [Dict.contains] at hcontains
        exact iff_of_false (fun h => by simp [h] at hcontains) (by simp)
      · simp only [if_true]
        generalize persist _ = outcome
        rcases outcome with ⟨_ | _, after⟩
        · rfl
        · rfl
  | removeDemoAccounts =>
    simp only [perform, removeDemoAccounts, changes]
    cases hdoomed : store.doomed with
    | nil => exact .inl ⟨rfl, rfl⟩
    | cons name rest =>
      refine .inr ⟨(name :: rest).foldl (fun users name => users.erase name) store.users, ?_, ?_⟩
      -- the first doomed account is there, so removing it is a change
      · have hname : store.users.contains name = true := mem_doomed (hdoomed ▸ List.mem_cons_self)
        refine iff_of_false (fun h => ?_) (by simp)
        rw [Dict.foldl_erase] at h
        rw [← h, Dict.contains, Dict.get?_filter] at hname
        simp at hname
      · simp only [reduceCtorEq, if_false]
        generalize persist _ = outcome
        rcases outcome with ⟨_ | _, after⟩
        · rfl
        · rfl

/-- A call that raises leaves the store as it was exactly unless its write fails with something to
change. -/
theorem atomicOnError_iff (store : PortalUserStore) (call : StoreCall) :
    AtomicOnError view store (store.perform call) ↔
      ¬ (store.writeFails = true ∧ store.changes call = true) := by
  rcases store.perform_cases call with ⟨hsame, hnone⟩ | ⟨users, hchanges, hperform⟩
  · refine iff_of_true (fun e _ => by rw [hsame]) (by simp [hnone])
  · have hpersist := persist_cases { store with users }
    have hfails : writeFails { store with users } = store.writeFails := rfl
    rw [hfails] at hpersist
    rw [hperform]
    refine atomicOnError_write (fun hwrite => ?_) (fun hwrite => ?_)
    · rw [hwrite] at hpersist
      exact ⟨(), hpersist.1⟩
    · rw [hwrite, if_pos rfl] at hpersist
      rw [hpersist, ← hchanges]
      refine ⟨⟨_, rfl⟩, congrArg Prod.fst, ?_⟩
      rintro rfl
      rfl

/-- A call that raises leaves the file as it was; one that returns leaves file and memory in agreement. -/
theorem perform_file (store : PortalUserStore) (call : StoreCall) :
    (∀ e, (store.perform call).1 = .error e → (store.perform call).2.file = store.file) ∧
    ((store.perform call).1 = .ok () → store.InSync → (store.perform call).2.InSync) := by
  rcases store.perform_cases call with ⟨hsame, _⟩ | ⟨users, _, hperform⟩
  · rw [hsame]
    exact ⟨fun _ _ => rfl, fun _ h => h⟩
  · have hpersist := persist_cases { store with users }
    rw [hperform]
    split at hpersist
    · rw [hpersist]
      exact ⟨fun _ _ => rfl, fun h => absurd h (by simp)⟩
    · exact ⟨fun e he => absurd (hpersist.1.symm.trans he) (by simp), fun _ _ => hpersist.2⟩

end PortalUserStore

/-! ## The allowlist store -/

/-- The calls of the allowlist store. -/
inductive AllowlistStoreCall where
  | add (entry : AllowlistEntry)
  | remove (entryId : String)

namespace AllowlistStore

/-- A call: whether it raised, and the store after it. -/
def perform (store : AllowlistStore) : AllowlistStoreCall → Except String Unit × AllowlistStore
  | .add entry => store.add entry
  | .remove entryId =>
    let (result, after) := store.remove entryId
    (result.map fun _ => (), after)

/-- The next write of the file fails. -/
def writeFails (store : AllowlistStore) : Bool := store.faults.head? == some true

/-- The call has something to change: an entry that is not stored as it is, an id that is stored. -/
def changes (store : AllowlistStore) : AllowlistStoreCall → Bool
  | .add entry => store.entries.get? entry.id != some entry
  | .remove entryId => store.entries.contains entryId

/-- Memory and the file. -/
def view (store : AllowlistStore) : Dict String AllowlistEntry × List AllowlistEntry :=
  (store.entries, store.file)

/-- The file holds the entries in memory. -/
def InSync (store : AllowlistStore) : Prop := store.file = store.listEntries

theorem persist_cases (store : AllowlistStore) :
    if store.writeFails then
      store.persist = (.error "could not write allowlist store", { store with faults := store.faults.tail })
    else store.persist.1 = .ok () ∧ store.persist.2.InSync := by
  unfold persist writeFails
  by_cases h : store.faults.head? = some true
  · simp [h]
  · simp only [h, beq_iff_eq, if_false]
    exact ⟨trivial, rfl⟩

theorem perform_cases (store : AllowlistStore) (call : AllowlistStoreCall) :
    ((store.perform call) = (.ok (), store) ∧ store.changes call = false) ∨
    ∃ entries, (entries = store.entries ↔ store.changes call = false) ∧
      store.perform call = persist { store with entries } := by
  cases call with
  | add entry =>
    refine .inr ⟨store.entries.set entry.id entry, ?_, rfl⟩
    simp [changes, Dict.set_eq_self_iff]
  | remove entryId =>
    simp only [perform, remove, changes]
    cases hcontains : store.entries.contains entryId with
    | false => exact .inl ⟨rfl, rfl⟩
    | true =>
      refine .inr ⟨store.entries.erase entryId, ?_, ?_⟩
      · rw [Dict.erase_eq_self_iff]
        rw [Dict.contains] at hcontains
        exact iff_of_false (fun h => by simp [h] at hcontains) (by simp)
      · simp only [if_true]
        generalize persist _ = outcome
        rcases outcome with ⟨_ | _, after⟩
        · rfl
        · rfl

theorem atomicOnError_iff (store : AllowlistStore) (call : AllowlistStoreCall) :
    AtomicOnError view store (store.perform call) ↔
      ¬ (store.writeFails = true ∧ store.changes call = true) := by
  rcases store.perform_cases call with ⟨hsame, hnone⟩ | ⟨entries, hchanges, hperform⟩
  · refine iff_of_true (fun e _ => by rw [hsame]) (by simp [hnone])
  · have hpersist := persist_cases { store with entries }
    have hfails : writeFails { store with entries } = store.writeFails := rfl
    rw [hfails] at hpersist
    rw [hperform]
    refine atomicOnError_write (fun hwrite => ?_) (fun hwrite => ?_)
    · rw [hwrite] at hpersist
      exact ⟨(), hpersist.1⟩
    · rw [hwrite, if_pos rfl] at hpersist
      rw [hpersist, ← hchanges]
      refine ⟨⟨_, rfl⟩, congrArg Prod.fst, ?_⟩
      rintro rfl
      rfl

theorem perform_file (store : AllowlistStore) (call : AllowlistStoreCall) :
    (∀ e, (store.perform call).1 = .error e → (store.perform call).2.file = store.file) ∧
    ((store.perform call).1 = .ok () → store.InSync → (store.perform call).2.InSync) := by
  rcases store.perform_cases call with ⟨hsame, _⟩ | ⟨entries, _, hperform⟩
  · rw [hsame]
    exact ⟨fun _ _ => rfl, fun _ h => h⟩
  · have hpersist := persist_cases { store with entries }
    rw [hperform]
    split at hpersist
    · rw [hpersist]
      exact ⟨fun _ _ => rfl, fun h => absurd h (by simp)⟩
    · exact ⟨fun e he => absurd (hpersist.1.symm.trans he) (by simp), fun _ _ => hpersist.2⟩

/-- An addition whose write goes through is in memory and on disk. -/
theorem add_stored {store : AllowlistStore} (hwrite : store.writeFails = false) (entry : AllowlistEntry) :
    (store.add entry).1 = .ok () ∧ (store.add entry).2.entries.get? entry.id = some entry ∧
      (store.add entry).2.InSync := by
  have hpersist := persist_cases { store with entries := store.entries.set entry.id entry }
  have hfails : writeFails { store with entries := store.entries.set entry.id entry } = false := hwrite
  rw [hfails] at hpersist
  refine ⟨hpersist.1, ?_, hpersist.2⟩
  unfold add persist
  dsimp only
  split
  · simp
  · simp

end AllowlistStore

/-! ## The manager over its store -/

namespace FirewallManager

/-- The pairs an entry is compared with are those of the list before it. -/
theorem allowBoundPairs_append_exclude (allowlist : List AllowlistEntry) (entry : AllowlistEntry) :
    allowBoundPairs (allowlist ++ [entry]) (some entry.id) = allowBoundPairs allowlist (some entry.id) := by
  simp [allowBoundPairs]

/-- The first two steps of `add_allowlist_entry`: the list, then the store. -/
theorem storing_add_cases (m : FirewallManager) (entry : AllowlistEntry) :
    (∃ m₁, ({ m with allowlist := m.allowlist ++ [entry] }.storing fun store => store.add entry) = (.ok (), m₁) ∧
      (∀ store, m.allowlistStore = some store → store.writeFails = false) ∧
      m₁ = { m with
        allowlist := m.allowlist ++ [entry]
        allowlistStore := m.allowlistStore.map fun store => (store.add entry).2 }) ∨
    ∃ e m₁, ({ m with allowlist := m.allowlist ++ [entry] }.storing fun store => store.add entry) = (.error e, m₁) ∧
      (∃ store, m.allowlistStore = some store ∧ store.writeFails = true) ∧
      m₁.allowlist = m.allowlist ++ [entry] := by
  unfold storing
  cases hstore : m.allowlistStore with
  | none => exact .inl ⟨_, rfl, by simp, by simp⟩
  | some store =>
    cases hwrite : store.writeFails with
    | false =>
      refine .inl ⟨_, Prod.ext (AllowlistStore.add_stored hwrite entry).1 rfl, ?_, rfl⟩
      intro other hother
      exact Option.some.inj hother ▸ hwrite
    | true =>
      have hpersist := AllowlistStore.persist_cases { store with entries := store.entries.set entry.id entry }
      have hfails : AllowlistStore.writeFails { store with entries := store.entries.set entry.id entry } =
        true := hwrite
      rw [hfails, if_pos rfl] at hpersist
      have hfail : (store.add entry).1 = .error "could not write allowlist store" :=
        congrArg Prod.fst hpersist
      exact .inr ⟨_, _, Prod.ext hfail rfl, ⟨store, rfl, hwrite⟩, rfl⟩

/-- The manager with an entry added to its list and its store. -/
def listing (m : FirewallManager) (entry : AllowlistEntry) : FirewallManager :=
  { m with
    allowlist := m.allowlist ++ [entry]
    allowlistStore := m.allowlistStore.map fun store => (store.add entry).2 }

/-- The kernel write `add_allowlist_entry` makes, if any: the pair no other entry pins yet. -/
def pinning (m : FirewallManager) (entry : AllowlistEntry) : Option ((String × String) × FakeSetBackend) :=
  match allowBoundPair entry, m.sets with
  | some pair, some sets =>
    if (allowBoundPairs m.allowlist (some entry.id)).contains pair then none else some (pair, sets)
  | _, _ => none

theorem pinning_eq_some {m : FirewallManager} {entry : AllowlistEntry} {pair : String × String}
    {sets : FakeSetBackend} : m.pinning entry = some (pair, sets) ↔ allowBoundPair entry = some pair ∧
      m.sets = some sets ∧ pair ∉ allowBoundPairs m.allowlist (some entry.id) := by
  unfold pinning
  cases allowBoundPair entry with
  | none => simp
  | some pair' =>
    cases m.sets with
    | none => simp
    | some sets' =>
      simp only
      split
      · rename_i hpinned
        simp only [reduceCtorEq, false_iff]
        rintro ⟨hpair, _, hunpinned⟩
        obtain rfl := Option.some.inj hpair
        exact hunpinned (List.contains_iff_mem.mp hpinned)
      · rename_i hunpinned
        simp only [Option.some.injEq, Prod.mk.injEq]
        constructor
        · rintro ⟨rfl, rfl⟩
          exact ⟨rfl, rfl, fun hpinned => hunpinned (List.contains_iff_mem.mpr hpinned)⟩
        · exact fun h => ⟨h.1, h.2.1⟩

/-- `add_allowlist_entry` over a store that can be written: list and store, then the kernel write. -/
theorem addAllowlistEntry_eq {m : FirewallManager} (entry : AllowlistEntry) (now : Time)
    (hwrites : ∀ store, m.allowlistStore = some store → store.writeFails = false) :
    m.addAllowlistEntry entry now =
      match m.pinning entry with
      | none => (.ok (), m.listing entry)
      | some (pair, sets) =>
        ((sets.apply (allowBoundOps .add pair) now).1,
          { m.listing entry with sets := some (sets.apply (allowBoundOps .add pair) now).2 }) := by
  unfold addAllowlistEntry pinning
  rcases m.storing_add_cases entry with ⟨m₁, hstoring, _, rfl⟩ | ⟨_, _, _, ⟨store, hstore, hfails⟩, _⟩
  · simp only [hstoring, allowBoundPairs_append_exclude]
    cases allowBoundPair entry with
    | none => rfl
    | some pair =>
      cases hsets : m.sets with
      | none => simp only [listing, hsets]
      | some sets =>
        by_cases hpinned : pair ∈ allowBoundPairs m.allowlist (some entry.id)
        · simp only [listing, hsets, List.contains_iff_mem, hpinned, if_true]
        · simp only [listing, hsets, List.contains_iff_mem, hpinned, if_false]
  · exact absurd ((hwrites store hstore).symm.trans hfails) (by simp)

/-- An addition that does not raise has written the store. -/
theorem writes_of_addAllowlistEntry_ok {m : FirewallManager} {entry : AllowlistEntry} {now : Time}
    (hok : (m.addAllowlistEntry entry now).1 = .ok ()) :
    ∀ store, m.allowlistStore = some store → store.writeFails = false := by
  rcases m.storing_add_cases entry with ⟨_, _, hwrites, _⟩ | ⟨e, m₁, hstoring, _, _⟩
  · exact hwrites
  · unfold addAllowlistEntry at hok
    rw [hstoring] at hok
    exact absurd hok (by simp)

end FirewallManager

/-! ## All the stores -/

/-- A store call that raises although the file can be written leaves memory, file and passwords as they
were; no call that raises touches the file, and one that returns leaves memory and file in agreement. An
`add_allowlist_entry` over a store that can be written raises what the kernel refused the entry's pair with,
and keeps the entry, in memory and on disk. -/
theorem stores_on_error :
    (∀ (store : PortalUserStore) (call : StoreCall),
      (store.writeFails = false → AtomicOnError PortalUserStore.view store (store.perform call)) ∧
      (∀ e, (store.perform call).1 = .error e → (store.perform call).2.file = store.file) ∧
      ((store.perform call).1 = .ok () → store.InSync → (store.perform call).2.InSync)) ∧
    (∀ (store : AllowlistStore) (call : AllowlistStoreCall),
      (store.writeFails = false → AtomicOnError AllowlistStore.view store (store.perform call)) ∧
      (∀ e, (store.perform call).1 = .error e → (store.perform call).2.file = store.file) ∧
      ((store.perform call).1 = .ok () → store.InSync → (store.perform call).2.InSync)) ∧
    ∀ (m : FirewallManager) (entry : AllowlistEntry) (now : Time) (e : String),
      (∀ store, m.allowlistStore = some store → store.writeFails = false) →
      (m.addAllowlistEntry entry now).1 = .error e →
      (∃ pair sets, allowBoundPair entry = some pair ∧ m.sets = some sets ∧
        pair ∉ FirewallManager.allowBoundPairs m.allowlist (some entry.id) ∧
        (sets.apply (allowBoundOps .add pair) now).1 = .error e) ∧
      (m.addAllowlistEntry entry now).2.allowlist = m.allowlist ++ [entry] ∧
      ∀ store, m.allowlistStore = some store →
        ∃ after, (m.addAllowlistEntry entry now).2.allowlistStore = some after ∧
          after.entries.get? entry.id = some entry ∧ after.InSync := by
  refine ⟨?_, ?_, ?_⟩
  · intro store call
    refine ⟨fun hwrite => (store.atomicOnError_iff call).mpr (by simp [hwrite]), ?_⟩
    exact store.perform_file call
  · intro store call
    refine ⟨fun hwrite => (store.atomicOnError_iff call).mpr (by simp [hwrite]), ?_⟩
    exact store.perform_file call
  · intro m entry now e hwrites hraises
    have hrefused : ∃ pair sets, m.pinning entry = some (pair, sets) ∧
        (sets.apply (allowBoundOps .add pair) now).1 = .error e := by
      rw [FirewallManager.addAllowlistEntry_eq entry now hwrites] at hraises
      cases hpinning : m.pinning entry with
      | none =>
        rw [hpinning] at hraises
        exact absurd hraises (by simp)
      | some write =>
        rw [hpinning] at hraises
        exact ⟨write.1, write.2, rfl, hraises⟩
    have hlisting : (m.addAllowlistEntry entry now).2.allowlist = (m.listing entry).allowlist ∧
        (m.addAllowlistEntry entry now).2.allowlistStore = (m.listing entry).allowlistStore := by
      rw [FirewallManager.addAllowlistEntry_eq entry now hwrites]
      cases m.pinning entry with
      | none => exact ⟨rfl, rfl⟩
      | some write => exact ⟨rfl, rfl⟩
    obtain ⟨pair, sets, hpinning, hrefuses⟩ := hrefused
    obtain ⟨hpair, hsets, hunpinned⟩ := FirewallManager.pinning_eq_some.mp hpinning
    refine ⟨⟨pair, sets, hpair, hsets, hunpinned, hrefuses⟩, hlisting.1, ?_⟩
    intro store hstore
    refine ⟨(store.add entry).2, ?_, (AllowlistStore.add_stored (hwrites store hstore) entry).2⟩
    rw [hlisting.2, FirewallManager.listing, hstore]
    rfl

/-- One account, on a disk that is full. -/
def fullDisk : PortalUserStore where
  passwords := ⟨fun _ password => password, fun password storedHash => password == storedHash⟩
  users := Dict.empty.set "alice" ⟨"alice", "old", 0, "admin", "", false⟩
  file := [⟨"alice", "old", 0, "admin", "", false⟩]
  faults := [true]

/-- The same account, on a disk with room. -/
def roomyDisk : PortalUserStore := { fullDisk with faults := [] }

/-- A manager with an empty allowlist store, whose kernel refuses the next write. -/
def refusingManager : FirewallManager :=
  .init (siteConfig .assisted) siteBackend (some ⟨Dict.empty, [], []⟩)
    (some { siteKernel with faults := [true] })

theorem stores_on_error_refused :
    AtomicOnError PortalUserStore.view roomyDisk (roomyDisk.perform (.setPassword "bob" "new" "salt")) ∧
    AtomicOnError AllowlistStore.view ⟨Dict.empty, [], []⟩
      (AllowlistStore.perform ⟨Dict.empty, [], []⟩ (.remove "entry")) ∧
    (refusingManager.addAllowlistEntry (FirewallManager.phoneEntry "entry") 0).2.allowlist =
      refusingManager.allowlist ++ [FirewallManager.phoneEntry "entry"] := by
  refine ⟨(stores_on_error.1 _ _).1 rfl, (stores_on_error.2.1 _ _).1 rfl, ?_⟩
  refine (stores_on_error.2.2 _ _ 0 "simulated set backend failure" ?_ rfl).2.1
  intro store hstore
  obtain rfl := Option.some.inj hstore
  rfl

/-- The kernel's refusal leaves the entry on the list, and a password change that the full disk rejects
takes effect all the same: the new password verifies and the old one does not. -/
theorem refused_entry_stays :
    (refusingManager.addAllowlistEntry (FirewallManager.phoneEntry "entry") 0).1 =
      .error "simulated set backend failure" ∧
    refusingManager.allowlist = [] ∧
    (refusingManager.addAllowlistEntry (FirewallManager.phoneEntry "entry") 0).2.allowlist =
      [FirewallManager.phoneEntry "entry"] ∧
    (fullDisk.perform (.setPassword "alice" "new" "salt")).1 = .error .notWritten ∧
    (fullDisk.verify "alice" "old", fullDisk.verify "alice" "new") = (true, false) ∧
    ((fullDisk.perform (.setPassword "alice" "new" "salt")).2.verify "alice" "old",
      (fullDisk.perform (.setPassword "alice" "new" "salt")).2.verify "alice" "new") = (false, true) :=
  ⟨rfl, rfl, rfl, rfl, rfl, rfl⟩

end Pirewall
