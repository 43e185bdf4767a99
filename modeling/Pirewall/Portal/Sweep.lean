/-
# Pirewall.Portal.Sweep -- the sweep restores the portal invariant

`sweep` runs over two stores that may have drifted apart in any way: it purges what has expired, takes the
grants of those sessions away, and then takes away every grant that no live session stands behind. Nothing is
assumed about how the stores came to be as they are; only the set is of one type, bare addresses or pairs,
because nft's set is.

`sweep_spec` is the exact result: of the grants, those with a live session of the same address and MAC; of the
sessions, the live ones.
-/
import Pirewall.Portal.Agreement

namespace Pirewall

open Lib

namespace PortalService

open AuthedSet

variable {s : PortalService} {now : Time}

/-- A live session of exactly this address and MAC. -/
def HasSession (r : PortalSessionRegistry) (now : Time) (grant : PortalGrant) : Prop :=
  ∃ session ∈ r.byToken.values, now < session.expiresAt ∧ session.grant = grant

/-- A grant that `_grant_has_session` accepts has a session. -/
theorem hasSession_of_getByIp {r : PortalSessionRegistry} {grant : PortalGrant}
    (h : ((r.getByIp grant.1 now).1.any fun session => session.clientMac == grant.2) = true) :
    HasSession r now grant := by
  obtain ⟨session, hfound, hmac⟩ := (Option.any_eq_true _ _).mp h
  unfold PortalSessionRegistry.getByIp at hfound
  split at hfound
  · exact absurd hfound (by simp)
  · rename_i token _
    obtain ⟨hget, hlive, hip, _⟩ := PortalSessionRegistry.validate_some hfound
    exact ⟨session, Dict.mem_values_iff.mpr ⟨token, hget⟩, hlive, Prod.ext hip (beq_iff_eq.mp hmac)⟩

theorem HasSession.of_lapses {r r' : PortalSessionRegistry} (h : r.Lapses now r') {grant : PortalGrant}
    (hsession : HasSession r' now grant) : HasSession r now grant := by
  obtain ⟨session, hmem, hlive, hgrant⟩ := hsession
  obtain ⟨token, hget⟩ := Dict.mem_values_iff.mp hmem
  exact ⟨session, Dict.mem_values_iff.mpr ⟨token, h.registry token session hget⟩, hlive, hgrant⟩

/-- The scan of `reconcile` misses no orphan. -/
theorem scanGrant_complete (keys orphans : List PortalGrant) (r : PortalSessionRegistry) {grant : PortalGrant}
    (h : grant ∈ keys ∨ grant ∈ orphans) (hnone : ¬ HasSession r now grant) :
    grant ∈ (keys.foldl (scanGrant now) (orphans, r)).1 := by
  induction keys generalizing orphans r with
  | nil => exact h.elim (fun hmem => absurd hmem List.not_mem_nil) id
  | cons key keys ih =>
    have hrest : ¬ HasSession (scanGrant now (orphans, r) key).2 now grant := fun hsession =>
      hnone (hsession.of_lapses (r.lapses_getByIp key.1 now))
    refine ih (scanGrant now (orphans, r) key).1 (scanGrant now (orphans, r) key).2 ?_ hrest
    show grant ∈ keys ∨
      grant ∈ if ((r.getByIp key.1 now).1.any fun session => session.clientMac == key.2) = true then orphans
        else orphans ++ [key]
    rcases h with hmem | hmem
    · rcases List.mem_cons.mp hmem with rfl | hmem
      · rw [if_neg fun hany => hnone (hasSession_of_getByIp hany)]
        exact .inr (List.mem_append_right _ (List.mem_singleton.mpr rfl))
      · exact .inl hmem
    · right
      split
      · exact hmem
      · exact List.mem_append_left _ hmem

/-- The set is of one type: bare addresses, or pairs. -/
def OneType (authed : AuthedSet) : Prop :=
  ∃ paired : Bool, ∀ grant expiry, authed.get? grant = some expiry → grant.2.isSome = paired

/-- In a set of one type, taking one grant away takes no other. -/
theorem OneType.not_named {authed : AuthedSet} (h : OneType authed) {gone grant : PortalGrant}
    {expiry expiry' : Time} (hgone : authed.get? gone = some expiry) (hgrant : authed.get? grant = some expiry')
    (hne : gone ≠ grant) : ¬ Named gone.1 gone.2 grant := by
  obtain ⟨paired, hpaired⟩ := h
  rintro ⟨hip, hmac | hmac⟩
  · have hbare : grant.2.isSome = gone.2.isSome := (hpaired _ _ hgrant).trans (hpaired _ _ hgone).symm
    rw [hmac, Option.isSome_none, Option.isSome_eq_false_iff, Option.isNone_iff_eq_none] at hbare
    exact hne (Prod.ext hip.symm (hmac.trans hbare.symm))
  · exact hne (Prod.ext hip.symm hmac.symm)

/-- `reconcile` leaves the grants with a session, and loses no live one. -/
theorem reconcile_spec (env : PortalEnv) (h : OneType s.authed) :
    (∀ grant expiry, (s.reconcile env).2.authed.get? grant = some expiry ↔
      s.authed.get? grant = some expiry ∧ HasSession s.sessions env.now grant) ∧
    s.sessions.Lapses env.now (s.reconcile env).2.sessions := by
  obtain ⟨hlapses, horphans⟩ := foldl_scanGrant env.now s.authed.keys [] s.sessions
  obtain ⟨hsessions, _, _, hgrants⟩ := foldl_deauthorize
    ((s.authed.keys.foldl (scanGrant env.now) ([], s.sessions)).1.insertionSort fun x y => grantLe x y = true)
    { s with sessions := (s.authed.keys.foldl (scanGrant env.now) ([], s.sessions)).2 }
  refine ⟨?_, by rw [show (s.reconcile env).2.sessions = _ from hsessions]; exact hlapses⟩
  intro grant expiry
  refine (hgrants grant expiry).trans (and_congr_right fun hget => ?_)
  constructor
  · intro hfree
    by_contra hnone
    have hkey : grant ∈ s.authed.keys := Dict.mem_keys_iff.mpr ⟨expiry, hget⟩
    have horphan := scanGrant_complete s.authed.keys [] s.sessions (.inl hkey) hnone
    exact hfree grant ((List.mem_insertionSort _).mpr horphan) ⟨rfl, .inr rfl⟩
  · rintro ⟨session, hmem, hlive, hgrant⟩ gone hgone
    obtain ⟨token, hsession⟩ := Dict.mem_values_iff.mp hmem
    rcases horphans gone ((List.mem_insertionSort _).mp hgone) with hnil | ⟨hkey, hnone⟩
    · exact absurd hnil List.not_mem_nil
    · obtain ⟨expiry', hget'⟩ := Dict.mem_keys_iff.mp hkey
      refine h.not_named hget' hget ?_
      rintro rfl
      exact hnone token session hsession hlive hgrant

/-- `sweep` between its two halves: the expired sessions are gone, and their grants. -/
def purged (s : PortalService) (now : Time) : PortalService :=
  (s.sessions.purgeExpired now).1.foldl (fun s session => s.deauthorize session.clientIp session.clientMac)
    { s with sessions := (s.sessions.purgeExpired now).2 }

/-- The first half of `sweep`: the grants of expired sessions go, and with them none of a live session. -/
theorem purged_spec (s : PortalService) (now : Time) :
    (s.purged now).sessions = (s.sessions.purgeExpired now).2 ∧
      (∀ grant expiry, (s.purged now).authed.get? grant = some expiry → s.authed.get? grant = some expiry) ∧
      ∀ grant expiry, HasSession s.sessions now grant → s.authed.get? grant = some expiry →
        (s.purged now).authed.get? grant = some expiry := by
  have hmap : s.purged now = ((s.sessions.purgeExpired now).1.map PortalSession.grant).foldl
      (fun s grant => s.deauthorize grant.1 grant.2) { s with sessions := (s.sessions.purgeExpired now).2 } := by
    rw [purged, List.foldl_map]
    rfl
  obtain ⟨hsessions, _, _, hgrants⟩ := foldl_deauthorize
    ((s.sessions.purgeExpired now).1.map PortalSession.grant)
    { s with sessions := (s.sessions.purgeExpired now).2 }
  rw [← hmap] at hsessions hgrants
  refine ⟨hsessions, fun grant expiry hget => ((hgrants grant expiry).mp hget).1, ?_⟩
  rintro grant expiry ⟨session, hmem, hlive, rfl⟩ hget
  refine (hgrants _ expiry).mpr ⟨hget, ?_⟩
  intro gone hgone hnamed
  obtain ⟨expired, hexpired, rfl⟩ := List.mem_map.mp hgone
  obtain ⟨hstored, hlapsed⟩ := List.mem_filter.mp hexpired
  obtain ⟨token, hsession⟩ := Dict.mem_values_iff.mp hmem
  obtain ⟨token', hsession'⟩ := Dict.mem_values_iff.mp hstored
  -- one address has one session, so the expired one would be the live one
  have htoken := PortalSessionRegistry.token_eq_of_clientIp hsession hsession' hnamed.1
  rw [htoken, hsession'] at hsession
  obtain rfl := Option.some.inj hsession
  exact absurd hlive (not_lt.mpr (of_decide_eq_true hlapsed))

/-- What a session table loses to `Lapses`, it loses to its clock: the live sessions are the same. -/
theorem hasSession_iff_of_lapses {r r' : PortalSessionRegistry} (h : r.Lapses now r') (grant : PortalGrant) :
    HasSession r' now grant ↔ HasSession r now grant := by
  constructor
  · exact HasSession.of_lapses h
  · rintro ⟨session, hmem, hlive, hgrant⟩
    obtain ⟨token, hget⟩ := Dict.mem_values_iff.mp hmem
    rcases h.dropped token session hget with hkept | hexpired
    · exact ⟨session, Dict.mem_values_iff.mpr ⟨token, hkept⟩, hlive, hgrant⟩
    · exact absurd hlive (not_lt.mpr hexpired)

/-- Whatever the two stores hold, after a sweep the set is exactly the grants it held with a live session of
the same address and MAC behind them, each with its timeout as it was, and every live session is kept. -/
theorem sweep_restores_invariant (s : PortalService) (env : PortalEnv) (h : OneType s.authed) :
    (∀ grant expiry, (s.sweep env).2.authed.get? grant = some expiry ↔
      s.authed.get? grant = some expiry ∧
        ∃ session ∈ s.sessions.byToken.values, env.now < session.expiresAt ∧ session.grant = grant) ∧
    ∀ token session, (s.sweep env).2.sessions.byToken.get? token = some session ↔
      s.sessions.byToken.get? token = some session ∧ env.now < session.expiresAt := by
  obtain ⟨hsessions, hfewer, hkept⟩ := s.purged_spec env.now
  have hlapses := s.sessions.lapses_purgeExpired env.now
  have htype : OneType (s.purged env.now).authed := by
    obtain ⟨paired, hpaired⟩ := h
    exact ⟨paired, fun grant expiry hget => hpaired grant expiry (hfewer grant expiry hget)⟩
  obtain ⟨hgrants, hrest⟩ := reconcile_spec env htype
  rw [hsessions] at hgrants hrest
  refine ⟨?_, ?_⟩
  · intro grant expiry
    refine (hgrants grant expiry).trans ?_
    rw [hasSession_iff_of_lapses hlapses]
    constructor
    · rintro ⟨hget, hsession⟩
      exact ⟨hfewer grant expiry hget, hsession⟩
    · rintro ⟨hget, hsession⟩
      exact ⟨hkept grant expiry hsession hget, hsession⟩
  · intro token session
    have hpurged : (s.sessions.purgeExpired env.now).2.byToken.get? token = some session ↔
        s.sessions.byToken.get? token = some session ∧ env.now < session.expiresAt := by
      rw [PortalSessionRegistry.purgeExpired_byToken, Dict.get?_filter, Option.filter_eq_some_iff,
        decide_eq_true_eq]
    rw [← hpurged]
    constructor
    · exact hrest.registry token session
    · intro hget
      rcases hrest.dropped token session hget with hkept | hexpired
      · exact hkept
      · exact absurd (hpurged.mp hget).2 (not_lt.mpr hexpired)

/-- A portal that was restarted over the grant of a phone: nobody is signed in, and the grant goes. -/
def restarted : PortalService :=
  { signedInTwice.service with
    sessions := .init 1800 512
    authed := Dict.empty.set (siteAddress 9, some phone) 1800000000 }

theorem sweep_restores_invariant_restarted :
    OneType restarted.authed ∧
      ∀ grant expiry, (restarted.sweep sitePoll).2.authed.get? grant ≠ some expiry := by
  have htype : OneType restarted.authed := by
    refine ⟨true, ?_⟩
    intro grant expiry hget
    rw [show restarted.authed = Dict.empty.set (siteAddress 9, some phone) 1800000000 from rfl,
      Dict.get?_set] at hget
    split at hget
    · rename_i heq
      rw [heq]
      rfl
    · exact absurd hget (by simp)
  refine ⟨htype, ?_⟩
  intro grant expiry hget
  obtain ⟨_, session, hmem, _⟩ := ((sweep_restores_invariant restarted sitePoll htype).1 grant expiry).mp hget
  exact absurd hmem List.not_mem_nil

end PortalService

end Pirewall
