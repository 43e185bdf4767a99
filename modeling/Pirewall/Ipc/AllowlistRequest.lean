/-
# Pirewall.Ipc.AllowlistRequest -- what an allowlist request leaves behind

ADD_ALLOWLIST_ENTRY writes four places one after the other: the manager's list, its store, the two
`allow_bound` sets, the portal accounts. An entry that does not validate changes none of them, and a
response with `ok` finds all of them written. In between, `add_allowlist_entry` raises when the kernel
refuses the pair and keeps the entry by design, since the validator protects the device without the meter
exemption; the account is then not created either.
-/
import Pirewall.Portal.Grants
import Pirewall.Portal.Stores
import Pirewall.Ipc.Dispatcher

namespace Pirewall

open Lib NftNames

namespace FirewallManager

/-- The entry is on the allowlist, and in the store and its file when there is one. -/
def Keeps (m : FirewallManager) (entry : AllowlistEntry) : Prop :=
  entry ∈ m.allowlist ∧ ∀ store, m.allowlistStore = some store →
    store.entries.get? entry.id = some entry ∧ entry ∈ store.file

theorem keeps_listing {m : FirewallManager} (entry : AllowlistEntry)
    (hwrites : ∀ store, m.allowlistStore = some store → store.writeFails = false) :
    (m.listing entry).Keeps entry := by
  refine ⟨List.mem_append_right _ List.mem_cons_self, ?_⟩
  intro store hstore
  obtain ⟨before, hbefore, rfl⟩ := Option.map_eq_some_iff.mp hstore
  obtain ⟨_, hget, hsync⟩ := AllowlistStore.add_stored (hwrites before hbefore) entry
  refine ⟨hget, ?_⟩
  rw [hsync, AllowlistStore.listEntries, (List.perm_insertionSort _ _).mem_iff]
  exact Dict.mem_values_iff.mpr ⟨entry.id, hget⟩

/-- A pair the kernel took is in both sets. -/
theorem holds_of_pinned {entry : AllowlistEntry} {pair : String × String}
    (hpair : allowBoundPair entry = some pair) {sets : FakeSetBackend} {now : Time}
    (hok : (sets.apply (allowBoundOps .add pair) now).1 = .ok ()) {a : SetAddress} (ha : a ∈ allowBoundSets) :
    (sets.apply (allowBoundOps .add pair) now).2.holds now a (.pair pair.1 pair.2) = true := by
  obtain ⟨hops, hon⟩ := allowBoundOps_spec hpair .add
  rcases sets.apply_cases (allowBoundOps .add pair) now with ⟨_, happlied⟩ | ⟨_, _, herror, _⟩
  · rw [happlied.holds_of_kind (fun op hop => (hops op hop).2.1) .add fun op hop _ => (hops op hop).1]
    exact .inl ⟨rfl, (hon a ha _).mpr rfl⟩
  · rw [herror] at hok
    exact absurd hok (by simp)

/-- The pair is in both `allow_bound` sets. -/
def PairHeld (m : FirewallManager) (now : Time) (pair : String × String) : Prop :=
  ∃ sets, m.sets = some sets ∧ ∀ a ∈ allowBoundSets, sets.holds now a (.pair pair.1 pair.2) = true

end FirewallManager

/-! ## The account -/

/-- The account is there, as it was asked for, in memory and in the file. -/
def PortalUserStore.Has (store : PortalUserStore) (username : String) (entry : AllowlistEntry) : Prop :=
  ∃ user, store.users.get? username = some user ∧ user ∈ store.file ∧ user.createdBy = entry.createdBy ∧
    user.note = CoreRpcDispatcher.provisionNote entry

theorem PortalUserStore.add_ok {store : PortalUserStore} {username password salt : String} {createdAt : Time}
    {createdBy note : String} {isDemo : Bool} {user : PortalUser}
    (hok : (store.add username password salt createdAt createdBy note isDemo).1 = .ok user) :
    user = store.newUser username password salt createdAt createdBy note isDemo ∧
      (store.add username password salt createdAt createdBy note isDemo).2.users.get? username = some user ∧
      user ∈ (store.add username password salt createdAt createdBy note isDemo).2.file := by
  unfold add at hok ⊢
  split at hok
  · exact absurd hok (by simp)
  rename_i hfree
  rw [if_neg hfree]
  simp only at hok ⊢
  split at hok
  swap
  · exact absurd hok (by simp)
  rename_i hvalid
  rw [if_pos hvalid]
  generalize huser : store.newUser username password salt createdAt createdBy note isDemo = fresh at hok ⊢
  have hpersist := persist_cases { store with users := store.users.set username fresh }
  have husers : (persist { store with users := store.users.set username fresh }).2.users =
      store.users.set username fresh := by
    unfold persist
    dsimp only
    split
    · rfl
    · rfl
  generalize persist { store with users := store.users.set username fresh } = outcome at hok hpersist husers ⊢
  rcases outcome with ⟨_ | _, after⟩
  · exact absurd hok (by simp)
  · obtain rfl : fresh = user := Except.ok.inj hok
    simp only at husers ⊢
    split at hpersist
    · exact absurd (congrArg Prod.fst hpersist) (by simp)
    have hget : after.users.get? username = some fresh := by
      rw [husers, Dict.get?_set, if_pos rfl]
    refine ⟨trivial, hget, ?_⟩
    rw [hpersist.2, listUsers, (List.perm_insertionSort _ _).mem_iff]
    exact Dict.mem_values_iff.mpr ⟨username, hget⟩

theorem PortalService.addUser_ok {s : PortalService} {now : Time} {username createdBy note generated salt : String}
    {password : Option String} {result : PortalUser × Option String}
    (hok : (s.addUser now username password createdBy note generated salt).1 = .ok result) :
    ∃ user, (s.addUser now username password createdBy note generated salt).2.store.users.get? username = some user ∧
      user ∈ (s.addUser now username password createdBy note generated salt).2.store.file ∧
      user.createdBy = createdBy ∧ user.note = note := by
  unfold addUser at hok ⊢
  dsimp only at hok ⊢
  split at hok
  · exact absurd hok (by simp)
  rename_i user store heq
  have hadded := PortalUserStore.add_ok (congrArg Prod.fst heq)
  rw [heq] at hadded
  obtain ⟨rfl, hget, hfile⟩ := hadded
  exact ⟨_, hget, hfile, rfl, rfl⟩

namespace CoreRpcDispatcher

/-- The account a request asked for is there; without one the portal is as it was. -/
def AccountPlaced (before after : CoreRpcDispatcher) (entry : AllowlistEntry) (portalUsername : Option String) :
    Prop :=
  match requestedAccount portalUsername with
  | none => after.portal = before.portal
  | some username => ∃ portal, after.portal = some portal ∧ portal.store.Has username entry

/-- What `provision` leaves: the manager as it was, and on success the account that was asked for. -/
theorem provision_spec (d : CoreRpcDispatcher) (env : RpcEnv) (entry : AllowlistEntry)
    (portalUsername : Option String) :
    (d.provision env entry portalUsername).2.manager = d.manager ∧
    ((∃ data, (d.provision env entry portalUsername).1 = .ok data) →
      AccountPlaced d (d.provision env entry portalUsername).2 entry portalUsername) := by
  unfold provision AccountPlaced
  cases requestedAccount portalUsername with
  | none => exact ⟨rfl, fun _ => rfl⟩
  | some username =>
    cases d.portal with
    | none => exact ⟨rfl, fun ⟨_, h⟩ => absurd h (by simp)⟩
    | some portal =>
      dsimp only
      split
      · exact ⟨rfl, fun ⟨_, h⟩ => absurd h (by simp)⟩
      · rename_i user generated portal' heq
        have hadded := PortalService.addUser_ok (congrArg Prod.fst heq)
        rw [heq] at hadded
        exact ⟨rfl, fun _ => ⟨portal', rfl, hadded⟩⟩

/-! ## The request -/

/-- The request after the manager's part: an error, or the portal's part. -/
theorem handle_add (d : CoreRpcDispatcher) (env : RpcEnv) (entry : AllowlistEntry)
    (portalUsername : Option String) :
    (∃ e, (d.manager.addAllowlistEntry entry env.now).1 = .error e ∧
      (d.handle env (.addAllowlistEntry (.ok entry) portalUsername)).1.isOk = false ∧
      (d.handle env (.addAllowlistEntry (.ok entry) portalUsername)).2 =
        { d with manager := (d.manager.addAllowlistEntry entry env.now).2 }) ∨
    (d.manager.addAllowlistEntry entry env.now).1 = .ok () ∧
      (d.handle env (.addAllowlistEntry (.ok entry) portalUsername)).2.manager =
        (d.manager.addAllowlistEntry entry env.now).2 ∧
      ((d.handle env (.addAllowlistEntry (.ok entry) portalUsername)).1.isOk = true →
        AccountPlaced d (d.handle env (.addAllowlistEntry (.ok entry) portalUsername)).2 entry portalUsername) := by
  simp only [handle, dispatch, addAllowlistEntry]
  cases hadd : d.manager.addAllowlistEntry entry env.now with
  | mk r manager =>
  cases r with
  | error e => exact .inl ⟨e, rfl, rfl, rfl⟩
  | ok u =>
    refine .inr ⟨rfl, ?_⟩
    have hspec := provision_spec { d with manager } env entry portalUsername
    simp only
    cases hprovision : CoreRpcDispatcher.provision { d with manager } env entry portalUsername with
    | mk r after =>
    rw [hprovision] at hspec
    cases r with
    | error e => exact ⟨hspec.1, fun h => absurd h (by simp [RpcResponse.isOk])⟩
    | ok data => exact ⟨hspec.1, fun _ => hspec.2 ⟨data, rfl⟩⟩

/-- An entry that does not validate changes nothing. When the kernel refuses the pair, the response is an
error, the entry stays on the list and in the store, and neither the sets nor the accounts change. After a
response with `ok` the entry is kept, the account that was asked for is there, and so is the pair in both
sets, if this request had to write it or the sets held it. -/
theorem allowlist_request_outcome (d : CoreRpcDispatcher) (env : RpcEnv) (portalUsername : Option String) :
    (∀ e, (d.handle env (.addAllowlistEntry (.error e) portalUsername)).1.isOk = false ∧
      (d.handle env (.addAllowlistEntry (.error e) portalUsername)).2 = d) ∧
    ∀ entry response after, d.handle env (.addAllowlistEntry (.ok entry) portalUsername) = (response, after) →
      (∀ pair sets e, (∀ store, d.manager.allowlistStore = some store → store.writeFails = false) →
        d.manager.pinning entry = some (pair, sets) →
        (sets.apply (allowBoundOps .add pair) env.now).1 = .error e →
        response.isOk = false ∧ after.manager.Keeps entry ∧ after.portal = d.portal ∧
          ∃ sets', after.manager.sets = some sets' ∧ ∀ a k, sets'.expiry? a k = sets.expiry? a k) ∧
      (response.isOk = true →
        after.manager.allowlist = d.manager.allowlist ++ [entry] ∧ after.manager.Keeps entry ∧
        AccountPlaced d after entry portalUsername ∧
        ∀ pair, allowBoundPair entry = some pair → d.manager.sets ≠ none →
          pair ∉ FirewallManager.allowBoundPairs d.manager.allowlist (some entry.id) ∨
            d.manager.PairHeld env.now pair →
          after.manager.PairHeld env.now pair) := by
  refine ⟨fun e => ⟨rfl, rfl⟩, ?_⟩
  intro entry response after hhandle
  have hcases := d.handle_add env entry portalUsername
  rw [hhandle] at hcases
  constructor
  -- the kernel refuses: by then the entry is listed and stored, and the error is the answer
  · intro pair sets e hwrites hpinning hrefused
    have hadd := FirewallManager.addAllowlistEntry_eq entry env.now hwrites
    simp only [hpinning] at hadd
    rcases hcases with ⟨_, _, hresponse, hafter⟩ | ⟨hok, _, _⟩
    · obtain rfl : after = _ := hafter
      rw [hadd]
      refine ⟨hresponse, FirewallManager.keeps_listing entry hwrites, rfl, _, rfl, ?_⟩
      intro a k
      -- a refused batch leaves every element as it was
      rcases sets.apply_cases (allowBoundOps .add pair) env.now with ⟨htaken, _⟩ | ⟨_, _, herror, _⟩
      · exact absurd (htaken.symm.trans hrefused) (by simp)
      · rw [herror]
        rfl
    · rw [hadd] at hok
      exact absurd (hok.symm.trans hrefused) (by simp)
  · intro hresponse
    rcases hcases with ⟨_, _, hfailed, _⟩ | ⟨hok, hmanager, haccount⟩
    · exact absurd (hfailed.symm.trans hresponse) (by simp)
    -- the answer is `ok`: the store took the entry, and the kernel the pair if there was one to write
    have hwrites := FirewallManager.writes_of_addAllowlistEntry_ok hok
    have hadd := FirewallManager.addAllowlistEntry_eq entry env.now hwrites
    have hkept := FirewallManager.keeps_listing entry hwrites
    have hmanager : after.manager = (d.manager.addAllowlistEntry entry env.now).2 := hmanager
    rw [hmanager, hadd]
    cases hpinning : d.manager.pinning entry with
    | none =>
      refine ⟨rfl, hkept, haccount hresponse, ?_⟩
      intro pair hpair hsets hheld
      rcases hheld with hunpinned | hheld
      · -- a pair that no other entry pins is written
        obtain ⟨sets, hsets⟩ := Option.ne_none_iff_exists'.mp hsets
        have hwritten := FirewallManager.pinning_eq_some.mpr ⟨hpair, hsets, hunpinned⟩
        exact absurd (hpinning.symm.trans hwritten) (by simp)
      · exact hheld
    | some write =>
      obtain ⟨pair, sets⟩ := write
      refine ⟨rfl, hkept, haccount hresponse, ?_⟩
      intro pair' hpair' _ _
      obtain ⟨hpair, _, _⟩ := FirewallManager.pinning_eq_some.mp hpinning
      obtain rfl := Option.some.inj (hpair.symm.trans hpair')
      simp only [hpinning] at hadd
      have htaken : (sets.apply (allowBoundOps .add pair) env.now).1 = .ok () := by
        rw [hadd] at hok
        exact hok
      exact ⟨_, rfl, fun a ha => FirewallManager.holds_of_pinned hpair htaken ha⟩

/-- A request at the small site: nft answers every read. -/
def siteRpcEnv : RpcEnv := ⟨0, fun _ => none, fun _ => true, "generated", "salt"⟩

/-- The core of that site, with its portal. -/
def siteCore : CoreRpcDispatcher :=
  ⟨siteManager .assisted (some siteKernel),
    some (.init (sitePortalConfig 8 (by decide)) true siteStore id Dict.empty), none, []⟩

theorem allowlist_request_outcome_site :
    (withoutPortal refusingManager).manager.pinning (FirewallManager.phoneEntry "entry") ≠ none ∧
    ((withoutPortal refusingManager).handle siteRpcEnv
      (.addAllowlistEntry (.ok (FirewallManager.phoneEntry "entry")) none)).2.manager.Keeps
        (FirewallManager.phoneEntry "entry") ∧
    (∃ portal, (siteCore.handle siteRpcEnv
        (.addAllowlistEntry (.ok (FirewallManager.phoneEntry "entry")) (some "bob"))).2.portal = some portal ∧
      portal.store.Has "bob" (FirewallManager.phoneEntry "entry")) ∧
    (siteCore.handle siteRpcEnv
      (.addAllowlistEntry (.ok (FirewallManager.phoneEntry "entry")) (some "bob"))).2.manager.PairHeld
        siteRpcEnv.now (FirewallManager.pinnedMac.text, "10.0.0.9") := by
  have hpinning : (withoutPortal refusingManager).manager.pinning (FirewallManager.phoneEntry "entry") =
      some ((FirewallManager.pinnedMac.text, "10.0.0.9"), { siteKernel with faults := [true] }) := rfl
  have hfree : (FirewallManager.pinnedMac.text, "10.0.0.9") ∉ FirewallManager.allowBoundPairs
      siteCore.manager.allowlist (some (FirewallManager.phoneEntry "entry").id) := by decide
  have houtcome := (allowlist_request_outcome siteCore siteRpcEnv (some "bob")).2
    (FirewallManager.phoneEntry "entry") _ _ rfl
  obtain ⟨_, _, hplaced, hheld⟩ := houtcome.2 (by decide +kernel)
  refine ⟨by rw [hpinning]; simp, ?_, hplaced, hheld _ rfl (by decide) (.inl hfree)⟩
  refine (((allowlist_request_outcome _ siteRpcEnv none).2 _ _ _ rfl).1 _ _ "simulated set backend failure"
    ?_ hpinning rfl).2.1
  intro store hstore
  obtain rfl := Option.some.inj hstore
  rfl

/-- Refused and yet on the allowlist: the pair the kernel does not take, and the account that a core
without a portal cannot provision. -/
theorem refused_request_keeps_entry :
    ((withoutPortal refusingManager).handle siteRpcEnv
      (.addAllowlistEntry (.ok (FirewallManager.phoneEntry "entry")) none)).1.isOk = false ∧
    refusingManager.allowlist = [] ∧
    ((withoutPortal refusingManager).handle siteRpcEnv
      (.addAllowlistEntry (.ok (FirewallManager.phoneEntry "entry")) none)).2.manager.allowlist =
        [FirewallManager.phoneEntry "entry"] ∧
    ((withoutPortal (siteManager .assisted (some siteKernel))).handle siteRpcEnv
      (.addAllowlistEntry (.ok (FirewallManager.phoneEntry "entry")) (some "alice"))).1.isOk = false ∧
    ((withoutPortal (siteManager .assisted (some siteKernel))).handle siteRpcEnv
      (.addAllowlistEntry (.ok (FirewallManager.phoneEntry "entry")) (some "alice"))).2.manager.allowlist =
        [FirewallManager.phoneEntry "entry"] :=
  ⟨rfl, rfl, rfl, rfl, rfl⟩

end CoreRpcDispatcher

end Pirewall
