/-
# Pirewall.Portal.Grants -- the sessions and the kernel's grants, over whole runs

Two stores hold who is signed in: the session registry and the kernel's `authed` set. Every operation but a login that
got past its checks only lets go of things, and `Settles` says how: nothing is added to either store, a session that
goes was expired or has lost its grant, and a live session that stays keeps its grant as it was. Both directions of
the agreement between the stores follow from it by induction over a run: that a grant has a session behind it
(`Backed`) and that a live session has a grant that lasts as long (`Working`). What a login does to either is where
the code and the agreement part.

An operation that lets go of a session revokes its grant, and one that finds a grant without a session revokes that.
The kernel lets go of elements by itself when their time is over, which is what the registry's expiry is compared
with. A grant is an address, with the MAC that the portal binds it to where it binds one, so a session whose address
was leased to another device still names the grant it was given.
-/
import Pirewall.Lib.Run
import Pirewall.Firewall.Lifecycle
import Pirewall.Portal.Service

namespace Pirewall

open Lib

/-! ## The kernel set -/

namespace AuthedSet

variable {authed : AuthedSet}

theorem get?_lapse {now expiry : Time} {grant : PortalGrant} :
    (authed.lapse now).get? grant = some expiry ↔ authed.get? grant = some expiry ∧ now < expiry := by
  rw [lapse, Dict.get?_filter, Option.filter_eq_some_iff, decide_eq_true_eq]

theorem get?_addElement (authed : AuthedSet) (added : PortalGrant) (expiry : Time) (grant : PortalGrant) :
    (authed.addElement added expiry).get? grant =
      if grant = added then some ((authed.get? added).getD expiry) else authed.get? grant := by
  unfold addElement Dict.contains
  cases hget : authed.get? added with
  | none =>
    rw [if_neg (by simp), Dict.get?_set]
    rfl
  | some old =>
    rw [if_pos (by simp)]
    split
    · rename_i heq
      rw [heq, hget]
      rfl
    · rfl

/-- What a deauthorization of `clientIp`, with or without a MAC, is about. -/
def Named (clientIp : IPv4Address) (clientMac : Option Mac) (grant : PortalGrant) : Prop :=
  grant.1 = clientIp ∧ (clientMac = none ∨ grant.2 = clientMac)

theorem get?_deauthorize (authed : AuthedSet) (clientIp : IPv4Address) (clientMac : Option Mac)
    (grant : PortalGrant) :
    (Named clientIp clientMac grant ∧ (authed.deauthorize clientIp clientMac).get? grant = none) ∨
      (¬ Named clientIp clientMac grant ∧
        (authed.deauthorize clientIp clientMac).get? grant = authed.get? grant) := by
  obtain ⟨ip, mac⟩ := grant
  unfold deauthorize Named
  cases clientMac with
  | some m =>
    rw [Dict.get?_erase]
    by_cases heq : (ip, mac) = (clientIp, some m)
    · obtain ⟨rfl, rfl⟩ := Prod.mk.inj heq
      exact .inl ⟨⟨rfl, .inr rfl⟩, if_pos rfl⟩
    · refine .inr ⟨?_, if_neg heq⟩
      rintro ⟨rfl, hmac | rfl⟩
      · exact absurd hmac (by simp)
      · exact heq rfl
  | none =>
    dsimp only
    rw [Dict.foldl_erase, Dict.get?_filter]
    by_cases hip : ip = clientIp
    · -- every element of the address is named: it is on the list, or there is none
      refine .inl ⟨⟨hip, .inl rfl⟩, ?_⟩
      cases hget : authed.get? (ip, mac) with
      | none => rfl
      | some expiry =>
        have hmem : (ip, mac) ∈ authed.keys.filter fun grant => grant.1 == clientIp := by
          rw [List.mem_filter]
          exact ⟨Dict.mem_keys_iff.mpr ⟨expiry, hget⟩, by simpa using hip⟩
        rw [if_neg (by simpa using List.ne_nil_of_mem hmem), Option.filter_some,
          if_neg (by simpa using hmem)]
    · refine .inr ⟨fun h => hip h.1, ?_⟩
      have hnot : (ip, mac) ∉
          (if (authed.keys.filter fun grant => grant.1 == clientIp).isEmpty then [(clientIp, none)]
            else authed.keys.filter fun grant => grant.1 == clientIp) := by
        split
        · simp [hip]
        · simp [hip]
      cases authed.get? (ip, mac) with
      | none => rfl
      | some expiry => rw [Option.filter_some, if_pos (by simpa using hnot)]

/-- What is left after a deauthorization. -/
theorem get?_deauthorize_iff {clientIp : IPv4Address} {clientMac : Option Mac} {grant : PortalGrant}
    {expiry : Time} :
    (authed.deauthorize clientIp clientMac).get? grant = some expiry ↔
      authed.get? grant = some expiry ∧ ¬ Named clientIp clientMac grant := by
  rcases authed.get?_deauthorize clientIp clientMac grant with ⟨hnamed, hnone⟩ | ⟨hfree, hsame⟩
  · rw [hnone]
    exact ⟨fun h => absurd h (by simp), fun h => absurd hnamed h.2⟩
  · rw [hsame]
    exact ⟨fun h => ⟨h, hfree⟩, And.left⟩

theorem get?_of_deauthorize {clientIp : IPv4Address} {clientMac : Option Mac} {grant : PortalGrant}
    {expiry : Time} (h : (authed.deauthorize clientIp clientMac).get? grant = some expiry) :
    authed.get? grant = some expiry := (get?_deauthorize_iff.mp h).1

end AuthedSet

namespace PortalService

open AuthedSet

/-- Several deauthorizations, one after the other: what none of them names is left. -/
theorem foldl_deauthorize (grants : List PortalGrant) (s : PortalService) :
    (grants.foldl (fun s grant => s.deauthorize grant.1 grant.2) s).sessions = s.sessions ∧
    (grants.foldl (fun s grant => s.deauthorize grant.1 grant.2) s).config = s.config ∧
    (grants.foldl (fun s grant => s.deauthorize grant.1 grant.2) s).macBound = s.macBound ∧
    ∀ grant expiry,
      (grants.foldl (fun s grant => s.deauthorize grant.1 grant.2) s).authed.get? grant = some expiry ↔
        s.authed.get? grant = some expiry ∧ ∀ gone ∈ grants, ¬ Named gone.1 gone.2 grant := by
  induction grants generalizing s with
  | nil => exact ⟨rfl, rfl, rfl, fun g e => by simp⟩
  | cons first grants ih =>
    obtain ⟨hsessions, hconfig, hmac, hgrants⟩ := ih (s.deauthorize first.1 first.2)
    refine ⟨hsessions, hconfig, hmac, ?_⟩
    intro g e
    rw [List.foldl_cons, hgrants, List.forall_mem_cons]
    show (s.authed.deauthorize first.1 first.2).get? g = some e ∧ _ ↔ _
    rw [get?_deauthorize_iff, and_assoc]

/-! ## Letting go -/

/-- The two stores after operations that only let go of sessions and grants, at `now`. -/
structure Settles (now : Time) (s s' : PortalService) : Prop where
  config : s'.config = s.config
  macBound : s'.macBound = s.macBound
  limits : s'.sessions.limits = s.sessions.limits
  inverse : s.sessions.Inverse → s'.sessions.Inverse
  registry : ∀ token session, s'.sessions.byToken.get? token = some session →
    s.sessions.byToken.get? token = some session
  grants : ∀ grant expiry, s'.authed.get? grant = some expiry → s.authed.get? grant = some expiry
  dropped : ∀ token session, s.sessions.byToken.get? token = some session →
    s'.sessions.byToken.get? token = some session ∨ session.expiresAt ≤ now ∨
      s'.authed.get? session.grant = none
  kept : ∀ token session, s'.sessions.byToken.get? token = some session → now < session.expiresAt →
    s'.authed.get? session.grant = s.authed.get? session.grant

variable {now : Time} {s s' s'' : PortalService}

/-- Nothing the two stores depend on changed. -/
theorem Settles.of_eq (hconfig : s'.config = s.config) (hmac : s'.macBound = s.macBound)
    (hsessions : s'.sessions = s.sessions) (hauthed : s'.authed = s.authed) : Settles now s s' where
  config := hconfig
  macBound := hmac
  limits := by rw [hsessions]
  inverse := fun h => hsessions ▸ h
  registry := fun _ _ h => hsessions ▸ h
  grants := fun _ _ h => hauthed ▸ h
  dropped := fun _ _ h => .inl (hsessions ▸ h)
  kept := fun _ _ _ _ => by rw [hauthed]

theorem Settles.refl (now : Time) (s : PortalService) : Settles now s s := .of_eq rfl rfl rfl rfl

theorem Settles.trans (h : Settles now s s') (h' : Settles now s' s'') : Settles now s s'' where
  config := h'.config.trans h.config
  macBound := h'.macBound.trans h.macBound
  limits := h'.limits.trans h.limits
  inverse := fun hi => h'.inverse (h.inverse hi)
  registry := fun t x hx => h.registry t x (h'.registry t x hx)
  grants := fun g e hg => h.grants g e (h'.grants g e hg)
  dropped := by
    intro t x hx
    rcases h.dropped t x hx with hkept | hexpired | hnone
    · exact h'.dropped t x hkept
    · exact .inr (.inl hexpired)
    · refine .inr (.inr ?_)
      by_contra hsome
      obtain ⟨e, he⟩ := Option.ne_none_iff_exists'.mp hsome
      rw [h'.grants _ _ he] at hnone
      exact absurd hnone (by simp)
  kept := fun t x hx hlive =>
    (h'.kept t x hx hlive).trans (h.kept t x (h'.registry t x hx) hlive)

theorem Settles.foldl {α : Type} {f : PortalService → α → PortalService} {items : List α}
    (P : PortalService → Prop) (hP : ∀ s s', P s → Settles now s s' → P s')
    (hf : ∀ s, P s → ∀ x ∈ items, Settles now s (f s x)) (hs : P s) :
    Settles now s (items.foldl f s) := by
  induction items generalizing s with
  | nil => exact .refl now s
  | cons x items ih =>
    have hx := hf s hs x List.mem_cons_self
    exact hx.trans (ih (fun s hs y hy => hf s hs y (List.mem_cons_of_mem _ hy)) (hP s _ hs hx))

theorem Settles.of_lapses {sessions : PortalSessionRegistry} (h : s.sessions.Lapses now sessions) :
    Settles now s { s with sessions } where
  config := rfl
  macBound := rfl
  limits := h.limits
  inverse := h.inverse
  registry := h.registry
  grants := fun _ _ hg => hg
  dropped := fun t x hx => (h.dropped t x hx).imp_right .inl
  kept := fun _ _ _ _ => rfl

/-- A deauthorization, with the sessions it belongs to: what goes had expired or is named by it, and it
names no live session that stays. -/
theorem Settles.release {sessions : PortalSessionRegistry} {clientIp : IPv4Address} {clientMac : Option Mac}
    (hlimits : sessions.limits = s.sessions.limits)
    (hinverse : s.sessions.Inverse → sessions.Inverse)
    (hregistry : ∀ t x, sessions.byToken.get? t = some x → s.sessions.byToken.get? t = some x)
    (hdropped : ∀ t x, s.sessions.byToken.get? t = some x →
      sessions.byToken.get? t = some x ∨ x.expiresAt ≤ now ∨ Named clientIp clientMac x.grant)
    (hkept : ∀ t x, sessions.byToken.get? t = some x → now < x.expiresAt → ¬ Named clientIp clientMac x.grant) :
    Settles now s ({ s with sessions }.deauthorize clientIp clientMac) where
  config := rfl
  macBound := rfl
  limits := hlimits
  inverse := hinverse
  registry := hregistry
  grants := fun _ _ hg => get?_of_deauthorize hg
  dropped := by
    intro t x hx
    refine (hdropped t x hx).imp_right (Or.imp_right ?_)
    intro hnamed
    rcases s.authed.get?_deauthorize clientIp clientMac x.grant with ⟨_, hnone⟩ | ⟨hnot, _⟩
    · exact hnone
    · exact absurd hnamed hnot
  kept := by
    intro t x hx hlive
    rcases s.authed.get?_deauthorize clientIp clientMac x.grant with ⟨hnamed, _⟩ | ⟨_, hsame⟩
    · exact absurd hnamed (hkept t x hx hlive)
    · exact hsame

theorem Settles.deauthorize {clientIp : IPv4Address} {clientMac : Option Mac}
    (h : ∀ t x, s.sessions.byToken.get? t = some x → now < x.expiresAt → ¬ Named clientIp clientMac x.grant) :
    Settles now s (s.deauthorize clientIp clientMac) :=
  Settles.release rfl id (fun _ _ => id) (fun _ _ => .inl) h

/-- Ending the session of an address, with a deauthorization that covers it. -/
theorem Settles.invalidateIp (hi : s.sessions.Inverse) (clientIp : IPv4Address) {clientMac : Option Mac}
    (hmac : ∀ t x, s.sessions.byToken.get? t = some x → x.clientIp = clientIp →
      clientMac = none ∨ x.clientMac = clientMac) :
    Settles now s
      ({ s with sessions := (s.sessions.invalidateIp clientIp).2 }.deauthorize clientIp clientMac) := by
  have hbyToken : ∀ t x, (s.sessions.invalidateIp clientIp).2.byToken.get? t = some x ↔
      s.sessions.byToken.get? t = some x ∧ x.clientIp ≠ clientIp := by
    intro t x
    rw [hi.invalidateIp_byToken, Dict.get?_filter, Option.filter_eq_some_iff, bne_iff_ne]
  refine Settles.release (s.sessions.invalidateIp_limits clientIp) (fun h => h.invalidateIp clientIp)
    (fun t x hx => ((hbyToken t x).mp hx).1) ?_ ?_
  · intro t x hx
    by_cases hip : x.clientIp = clientIp
    · exact .inr (.inr ⟨hip, hmac t x hx hip⟩)
    · exact .inl ((hbyToken t x).mpr ⟨hx, hip⟩)
  · intro t x hx _ hnamed
    exact ((hbyToken t x).mp hx).2 hnamed.1

theorem Settles.revoke (hi : s.sessions.Inverse) (clientIp : IPv4Address) :
    Settles now s (s.revoke clientIp) := by
  refine Settles.invalidateIp hi clientIp ?_
  intro t x hx hip
  have hfound := PortalSessionRegistry.invalidateIp_fst hx hip
  show (s.sessions.invalidateIp clientIp).1.bind PortalSession.clientMac = none ∨
    x.clientMac = (s.sessions.invalidateIp clientIp).1.bind PortalSession.clientMac
  rw [hfound]
  exact .inr rfl

/-- Ending a session: it is the only one of its address, now as in the registry it was listed from. -/
theorem Settles.endSession (listed : PortalSessionRegistry) {session : PortalSession}
    (hlisted : listed.byToken.get? session.token = some session)
    (hsub : ∀ t x, s.sessions.byToken.get? t = some x → listed.byToken.get? t = some x) :
    Settles now s (s.endSession session) := by
  refine Settles.release (s.sessions.invalidate_limits session.token) (fun h => h.invalidate session.token) ?_ ?_ ?_
  · intro t x hx
    rw [PortalSessionRegistry.invalidate_byToken, Dict.get?_erase] at hx
    split at hx
    · exact absurd hx (by simp)
    · exact hx
  · intro t x hx
    rw [PortalSessionRegistry.invalidate_byToken, Dict.get?_erase]
    split
    · rename_i heq
      have hxl := hsub t x hx
      rw [heq, hlisted] at hxl
      obtain rfl := Option.some.inj hxl
      exact .inr (.inr ⟨rfl, .inr rfl⟩)
    · exact .inl hx
  · intro t x hx _ hnamed
    rw [PortalSessionRegistry.invalidate_byToken, Dict.get?_erase] at hx
    split at hx
    · exact absurd hx (by simp)
    · rename_i hne
      exact hne (PortalSessionRegistry.token_eq_of_clientIp (hsub t x hx) hlisted hnamed.1)

/-! ## The operations that let go -/

section Operations

variable (env : PortalEnv)

theorem endSessionsFor_settles (s : PortalService) (username : String) :
    Settles env.now s (s.endSessionsFor env username) := by
  unfold endSessionsFor
  refine (Settles.of_lapses (s.sessions.lapses_purgeExpired env.now)).trans ?_
  refine Settles.foldl
    (fun s' => ∀ t x, s'.sessions.byToken.get? t = some x →
      (s.sessions.purgeExpired env.now).2.byToken.get? t = some x)
    (fun s₁ s₂ hs₁ h t x hx => hs₁ t x (h.registry t x hx)) ?_ (fun _ _ => id)
  intro s₁ hs₁ session hmem
  refine Settles.endSession (s.sessions.purgeExpired env.now).2 ?_ hs₁
  have hvalues := (List.mem_insertionSort _).mp (List.mem_filter.mp hmem).1
  obtain ⟨t, ht⟩ := Dict.mem_values_iff.mp hvalues
  rw [((s.sessions.purgeExpired env.now).2.indexed t session ht).1]
  exact ht

theorem settles_store (s : PortalService) (store : PortalUserStore) : Settles now s { s with store } :=
  .of_eq rfl rfl rfl rfl

theorem setPassword_settles (s : PortalService) (username : String) (password : Option String)
    (generated salt : String) :
    Settles env.now s (s.setPassword env username password generated salt).2 := by
  unfold setPassword
  dsimp only
  split
  · exact settles_store s _
  · exact (settles_store s _).trans (endSessionsFor_settles env _ username)

theorem removeUser_settles (s : PortalService) (username : String) :
    Settles env.now s (s.removeUser env username).2 := by
  unfold removeUser
  split
  · exact settles_store s _
  · exact settles_store s _
  · exact (settles_store s _).trans (endSessionsFor_settles env _ username)

theorem keepalive_settles (hi : s.sessions.Inverse) (token : Option String) (clientIp : IPv4Address) :
    Settles env.now s (s.keepalive env token clientIp).2 := by
  unfold keepalive
  split
  · exact .revoke hi clientIp
  · split
    · exact .refl _ s
    · rename_i token _
      have hlapses := s.sessions.lapses_validate token clientIp env.now
      have hrevoke : Settles env.now s
          ({ s with sessions := (s.sessions.validate token clientIp env.now).2 }.revoke clientIp) :=
        (Settles.of_lapses hlapses).trans (.revoke (hlapses.inverse hi) clientIp)
      dsimp only
      split
      · exact hrevoke
      · split
        · exact .of_lapses hlapses
        · exact hrevoke

theorem logout_settles (hi : s.sessions.Inverse) (token : String) (clientIp : IPv4Address) :
    Settles env.now s (s.logout env token clientIp).2 := by
  have hlapses := s.sessions.lapses_validate token clientIp env.now
  unfold logout
  dsimp only
  split
  · exact .of_lapses hlapses
  · rename_i session hsession
    split
    · obtain ⟨hget, _, rfl, hsame⟩ := PortalSessionRegistry.validate_some hsession
      rw [hsame, ← (s.sessions.indexed token session hget).1]
      refine Settles.endSession s.sessions ?_ fun _ _ => id
      rw [(s.sessions.indexed token session hget).1]
      exact hget
    · exact (Settles.of_lapses hlapses).trans (.revoke (hlapses.inverse hi) clientIp)

theorem forceLogout_settles (now : Time) (hi : s.sessions.Inverse) (clientIp : IPv4Address) :
    Settles now s (s.forceLogout clientIp).2 :=
  Settles.invalidateIp hi clientIp fun _ _ _ _ => .inl rfl

end Operations

/-! ## The sweep -/

/-- What every state of a run has: an exact index, elements and sessions that name a MAC on a MAC-bound
portal and none on an IP-only one, and one timeout for both stores. -/
structure Sound (s : PortalService) : Prop where
  inverse : s.sessions.Inverse
  grants_paired : ∀ grant expiry, s.authed.get? grant = some expiry → grant.2.isSome = s.macBound
  sessions_paired : ∀ token session, s.sessions.byToken.get? token = some session →
    session.clientMac.isSome = s.macBound
  timeout : s.sessions.tokenExpirySeconds = s.config.sessionTimeoutSeconds

theorem Sound.settles (hs : s.Sound) (h : Settles now s s') : s'.Sound where
  inverse := h.inverse hs.inverse
  grants_paired := fun g e hg => by rw [h.macBound]; exact hs.grants_paired g e (h.grants g e hg)
  sessions_paired := fun t x hx => by rw [h.macBound]; exact hs.sessions_paired t x (h.registry t x hx)
  timeout := by rw [h.config, (Prod.mk.inj h.limits).1]; exact hs.timeout

/-- The scan of `reconcile` drops expired sessions only, and what it calls an orphan is a grant no live
session was issued. -/
theorem foldl_scanGrant (now : Time) (keys orphans : List PortalGrant) (r : PortalSessionRegistry) :
    r.Lapses now (keys.foldl (scanGrant now) (orphans, r)).2 ∧
    ∀ grant ∈ (keys.foldl (scanGrant now) (orphans, r)).1, grant ∈ orphans ∨ grant ∈ keys ∧
      ∀ t x, r.byToken.get? t = some x → now < x.expiresAt → x.grant ≠ grant := by
  induction keys generalizing orphans r with
  | nil => exact ⟨.refl now r, fun _ h => .inl h⟩
  | cons key keys ih =>
    have hlapses := r.lapses_getByIp key.1 now
    obtain ⟨hrest, horphans⟩ := ih (scanGrant now (orphans, r) key).1 (r.getByIp key.1 now).2
    refine ⟨hlapses.trans hrest, ?_⟩
    intro grant hmem
    rcases horphans grant hmem with hnew | ⟨hkeys, hnone⟩
    · unfold scanGrant at hnew
      dsimp only at hnew
      split at hnew
      · exact .inl hnew
      · rename_i hany
        rcases List.mem_append.mp hnew with hold | hkey
        · exact .inl hold
        · rw [List.mem_singleton] at hkey
          refine .inr ⟨hkey ▸ List.mem_cons_self, ?_⟩
          rintro t x hx hlive rfl
          apply hany
          rw [← hkey]
          show ((r.getByIp x.clientIp now).1.any fun session => session.clientMac == x.clientMac) = true
          rw [PortalSessionRegistry.getByIp_live hx hlive]
          simp
    · refine .inr ⟨List.mem_cons_of_mem _ hkeys, ?_⟩
      intro t x hx hlive
      rcases hlapses.dropped t x hx with hkept | hexpired
      · exact hnone t x hkept hlive
      · exact absurd hlive (not_lt.mpr hexpired)

/-- A live session is named by the deauthorization of a grant only if the grant is its own. -/
theorem Sound.not_named (hs : s.Sound) {grant : PortalGrant} {expiry : Time}
    (hgrant : s.authed.get? grant = some expiry) {t : String} {x : PortalSession}
    (hx : s.sessions.byToken.get? t = some x) (hne : x.grant ≠ grant) : ¬ Named grant.1 grant.2 x.grant := by
  rintro ⟨hip, hnone | hmac⟩
  · have hbound : x.clientMac.isSome = grant.2.isSome :=
      (hs.sessions_paired t x hx).trans (hs.grants_paired grant expiry hgrant).symm
    rw [hnone, Option.isSome_none, Option.isSome_eq_false_iff, Option.isNone_iff_eq_none] at hbound
    exact hne (Prod.ext hip (hbound.trans hnone.symm))
  · exact hne (Prod.ext hip hmac)

theorem reconcile_settles (env : PortalEnv) (hs : s.Sound) : Settles env.now s (s.reconcile env).2 := by
  obtain ⟨hlapses, horphans⟩ := foldl_scanGrant env.now s.authed.keys [] s.sessions
  refine (Settles.of_lapses hlapses).trans ?_
  refine Settles.foldl
    (fun s' => ∀ t x, s'.sessions.byToken.get? t = some x → s.sessions.byToken.get? t = some x)
    (fun s₁ s₂ hs₁ h t x hx => hs₁ t x (h.registry t x hx)) ?_ hlapses.registry
  intro s₁ hs₁ grant hmem
  rcases horphans grant ((List.mem_insertionSort _).mp hmem) with hnil | ⟨hkey, hnone⟩
  · exact absurd hnil List.not_mem_nil
  · obtain ⟨expiry, hgrant⟩ := Dict.mem_keys_iff.mp hkey
    exact Settles.deauthorize fun t x hx hlive =>
      hs.not_named hgrant (hs₁ t x hx) (hnone t x (hs₁ t x hx) hlive)

theorem sweep_settles (env : PortalEnv) (hs : s.Sound) : Settles env.now s (s.sweep env).2 := by
  have hlapses := s.sessions.lapses_purgeExpired env.now
  -- the element of a session that expired is no element of a session that is live
  have hexpired : Settles env.now s ((s.sessions.purgeExpired env.now).1.foldl
      (fun s session => s.deauthorize session.clientIp session.clientMac)
      { s with sessions := (s.sessions.purgeExpired env.now).2 }) := by
    refine (Settles.of_lapses hlapses).trans (Settles.foldl
      (fun s' => ∀ t x, s'.sessions.byToken.get? t = some x → s.sessions.byToken.get? t = some x)
      (fun s₁ s₂ hs₁ h t x hx => hs₁ t x (h.registry t x hx)) ?_ hlapses.registry)
    intro s₁ hs₁ session hmem
    have hmem := List.mem_filter.mp hmem
    obtain ⟨t', ht'⟩ := Dict.mem_values_iff.mp hmem.1
    refine Settles.deauthorize ?_
    intro t x hx hlive hnamed
    have htoken := PortalSessionRegistry.token_eq_of_clientIp (hs₁ t x hx) ht' hnamed.1
    have hsame := hs₁ t x hx
    rw [htoken, ht'] at hsame
    obtain rfl := Option.some.inj hsame
    exact absurd hlive (not_lt.mpr (of_decide_eq_true hmem.2))
  exact hexpired.trans (reconcile_settles env (hs.settles hexpired))

end PortalService

/-! ## The portal of the small site

One account, sessions of half an hour, and phones at the addresses of the site's LAN: the concrete inputs
of what follows about runs. -/

def phone : Mac := ⟨"02:00:00:00:00:01", by decide⟩
def tablet : Mac := ⟨"02:00:00:00:00:02", by decide⟩

def siteAddress (device : Nat) : IPv4Address := IPv4Address.ofOctets 10 0 0 device

def sitePortalConfig (maxSessions : Nat) (h : 0 < maxSessions) : PortalConfig :=
  ⟨1800, 5, 300, 10, 50, maxSessions, "Please contact your network administrator.", by decide, h⟩

/-- A store whose one account is `alice`; the scheme keeps the password in clear. -/
def siteStore : PortalUserStore where
  passwords := ⟨fun _ password => password, fun password storedHash => password == storedHash⟩
  users := Dict.empty.set "alice" ⟨"alice", "secret", 0, "admin", "", false⟩
  file := []
  faults := []

def siteStart (maxSessions : Nat) (h : 0 < maxSessions) : PortalSystem :=
  .start (sitePortalConfig maxSessions h) true siteStore id Dict.empty
    ⟨0, fun _ => none, siteManager .active (some siteKernel), true⟩

/-- A call `elapsed` seconds after the last one, with every address bound to `mac`. -/
def siteCall (elapsed : Nat) (mac : Mac) (accepts : Bool) (op : PortalOp) : PortalCall :=
  ⟨elapsed * 1000000, fun _ => some mac, siteManager .active (some siteKernel), accepts, op⟩

/-- `alice` signs in from a device. -/
def siteLogin (device : Nat) (token : String) : PortalOp := .login "alice" "secret" (siteAddress device) token

end Pirewall
