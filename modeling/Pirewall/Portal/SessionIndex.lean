/-
# Pirewall.Portal.SessionIndex -- the two maps of the session registry

A registry is called in any order: sessions are created, looked up by token or by address, ended and purged, and a
lookup may end a session too. `RegistryCall` is one of the seven calls and `call` what it answers and leaves.

The one call that can raise is `create` on a registry built for no session at all: there `min` has nothing to choose
from. The tokens come from `secrets`, so a token that is created is not one in use (`Fresh`). Along every such run
the two maps are inverse to each other and the table is within its bound (`session_maps_inverse`).
-/
import Pirewall.Lib.Run
import Pirewall.Portal.Sessions

namespace Pirewall

open Lib

/-- A call of the registry. -/
inductive RegistryCall
  | create (username : String) (clientIp : IPv4Address) (token : String) (now : Time) (clientMac : Option Mac)
  | validate (token : String) (clientIp : IPv4Address) (now : Time)
  | getByIp (clientIp : IPv4Address) (now : Time)
  | invalidate (token : String)
  | invalidateIp (clientIp : IPv4Address)
  | purgeExpired (now : Time)
  | listSessions (now : Time)

/-- What a call answers; `raises` is the `ValueError` of `min` over no session. -/
inductive RegistryAnswer
  | session (session : Option PortalSession)
  | sessions (sessions : List PortalSession)
  | raises
  deriving DecidableEq

namespace PortalSessionRegistry

variable {r : PortalSessionRegistry} {now : Time} {clientIp : IPv4Address} {token : String}
  {session : PortalSession}

/-- The table as `create` finds it: nothing expired, and nothing of the address. -/
def cleared (r : PortalSessionRegistry) (clientIp : IPv4Address) (now : Time) : PortalSessionRegistry :=
  ((r.purgeExpired now).2.invalidateIp clientIp).2

/-- One call. -/
def call (r : PortalSessionRegistry) : RegistryCall → RegistryAnswer × PortalSessionRegistry
  | .create username clientIp token now clientMac =>
    -- the table counts as full and has no session to drop
    if r.maxSessions ≤ (r.cleared clientIp now).byToken.size ∧ (r.cleared clientIp now).byToken.values = [] then
      (.raises, r.cleared clientIp now)
    else
      let (session, r) := r.create username clientIp token now clientMac
      (.session (some session), r)
  | .validate token clientIp now =>
    let (session, r) := r.validate token clientIp now
    (.session session, r)
  | .getByIp clientIp now =>
    let (session, r) := r.getByIp clientIp now
    (.session session, r)
  | .invalidate token =>
    let (session, r) := r.invalidate token
    (.session session, r)
  | .invalidateIp clientIp =>
    let (session, r) := r.invalidateIp clientIp
    (.session session, r)
  | .purgeExpired now =>
    let (sessions, r) := r.purgeExpired now
    (.sessions sessions, r)
  | .listSessions now =>
    let (sessions, r) := r.listSessions now
    (.sessions sessions, r)

/-- The state after a call. -/
def step (r : PortalSessionRegistry) (c : RegistryCall) : PortalSessionRegistry := (r.call c).2

/-- A token that is created is not in use. -/
def Fresh (r : PortalSessionRegistry) : RegistryCall → Prop
  | .create _ _ token _ _ => r.byToken.get? token = none
  | _ => True

instance (r : PortalSessionRegistry) (c : RegistryCall) : Decidable (r.Fresh c) :=
  match c with
  | .create _ _ token _ _ => inferInstanceAs (Decidable (r.byToken.get? token = none))
  | .validate .. | .getByIp .. | .invalidate _ | .invalidateIp _ | .purgeExpired _ | .listSessions _ => .isTrue trivial

/-! ## Sizes -/

theorem size_invalidate_le (r : PortalSessionRegistry) (token : String) :
    (r.invalidate token).2.byToken.size ≤ r.byToken.size := by
  rw [invalidate_byToken]
  exact List.length_filter_le _ _

/-- The session that is ended makes room for one. -/
theorem size_invalidate_of_some (h : r.byToken.get? token = some session) :
    (r.invalidate token).2.byToken.size + 1 = r.byToken.size := by
  rw [invalidate_byToken]
  exact Dict.size_erase_of_some h

theorem size_invalidateIp_le (r : PortalSessionRegistry) (clientIp : IPv4Address) :
    (r.invalidateIp clientIp).2.byToken.size ≤ r.byToken.size := by
  unfold invalidateIp
  split
  · exact le_refl _
  · exact r.size_invalidate_le _

theorem size_purgeExpired_le (r : PortalSessionRegistry) (now : Time) :
    (r.purgeExpired now).2.byToken.size ≤ r.byToken.size := by
  rw [purgeExpired_byToken]
  exact List.length_filter_le _ _

theorem size_validate_le (r : PortalSessionRegistry) (token : String) (clientIp : IPv4Address) (now : Time) :
    (r.validate token clientIp now).2.byToken.size ≤ r.byToken.size := by
  unfold validate
  split
  · exact le_refl _
  · split
    · exact r.size_invalidate_le token
    · split <;> exact le_refl _

theorem size_getByIp_le (r : PortalSessionRegistry) (clientIp : IPv4Address) (now : Time) :
    (r.getByIp clientIp now).2.byToken.size ≤ r.byToken.size := by
  unfold getByIp
  split
  · exact le_refl _
  · exact r.size_validate_le _ clientIp now

theorem size_cleared_le (r : PortalSessionRegistry) (clientIp : IPv4Address) (now : Time) :
    (r.cleared clientIp now).byToken.size ≤ r.byToken.size :=
  (size_invalidateIp_le _ clientIp).trans (r.size_purgeExpired_le now)

theorem limits_cleared (r : PortalSessionRegistry) (clientIp : IPv4Address) (now : Time) :
    (r.cleared clientIp now).limits = r.limits :=
  (invalidateIp_limits _ clientIp).trans (r.lapses_purgeExpired now).limits

/-- A full table with a session to drop drops it. -/
theorem size_makeRoom_lt (hle : r.byToken.size ≤ r.maxSessions)
    (h : ¬(r.maxSessions ≤ r.byToken.size ∧ r.byToken.values = [])) : r.makeRoom.byToken.size < r.maxSessions := by
  unfold makeRoom
  split
  · rename_i hfull
    obtain ⟨oldest, holdest⟩ := exists_firstMin PortalSession.expiresAt fun hnil => h ⟨hfull, hnil⟩
    obtain ⟨t, ht⟩ := Dict.mem_values_iff.mp (firstMin_mem holdest)
    have hsize := r.size_invalidate_of_some ((r.indexed t oldest ht).1 ▸ ht)
    rw [holdest]
    show (r.invalidate oldest.token).2.byToken.size < r.maxSessions
    omega
  · rename_i hroom
    exact not_le.mp hroom

theorem size_set_le (d : Dict String PortalSession) (token : String) (session : PortalSession) :
    (d.set token session).size ≤ d.size + 1 := by
  cases h : d.get? token with
  | none => exact (Dict.size_set_of_none h session).le
  | some other => exact (Dict.size_set_of_some h session).le.trans (Nat.le_succ _)

/-- `create` leaves the table within its bound, or raises. -/
theorem size_create_le (hle : r.byToken.size ≤ r.maxSessions) (username : String) (clientMac : Option Mac)
    (h : ¬(r.maxSessions ≤ (r.cleared clientIp now).byToken.size ∧ (r.cleared clientIp now).byToken.values = [])) :
    (r.create username clientIp token now clientMac).2.byToken.size ≤ r.maxSessions := by
  have hmax : (r.cleared clientIp now).maxSessions = r.maxSessions := (Prod.mk.inj (r.limits_cleared clientIp now)).2
  have hroom : (r.cleared clientIp now).makeRoom.byToken.size < (r.cleared clientIp now).maxSessions :=
    size_makeRoom_lt (hmax.symm ▸ (r.size_cleared_le clientIp now).trans hle) (hmax.symm ▸ h)
  calc (r.create username clientIp token now clientMac).2.byToken.size
      ≤ (r.cleared clientIp now).makeRoom.byToken.size + 1 := size_set_le _ _ _
    _ ≤ (r.cleared clientIp now).maxSessions := hroom
    _ = r.maxSessions := hmax

/-! ## Runs -/

/-- The registry as every call finds it: the maps are inverse, and the table is within its bound. -/
structure Sound (maxSessions : Nat) (r : PortalSessionRegistry) : Prop where
  inverse : r.Inverse
  bounded : r.byToken.size ≤ maxSessions
  max : r.maxSessions = maxSessions

/-- A call that adds no session. -/
theorem Sound.of_le {maxSessions : Nat} {r' : PortalSessionRegistry} (h : r.Sound maxSessions) (hinverse : r'.Inverse)
    (hsize : r'.byToken.size ≤ r.byToken.size) (hlimits : r'.limits = r.limits) : r'.Sound maxSessions :=
  ⟨hinverse, hsize.trans h.bounded, (Prod.mk.inj hlimits).2.trans h.max⟩

/-- Every call keeps the registry sound. -/
theorem Sound.step {maxSessions : Nat} (h : r.Sound maxSessions) {c : RegistryCall} (hfresh : r.Fresh c) :
    (r.step c).Sound maxSessions := by
  cases c with
  | create username clientIp token now clientMac =>
    unfold PortalSessionRegistry.step call
    dsimp only
    split
    · exact h.of_le ((h.inverse.purgeExpired now).invalidateIp clientIp) (r.size_cleared_le clientIp now)
        (r.limits_cleared clientIp now)
    · rename_i hroom
      refine ⟨h.inverse.create hfresh username clientMac, ?_, ?_⟩
      · exact h.max ▸ size_create_le (h.max.symm ▸ h.bounded) username clientMac hroom
      · exact (Prod.mk.inj (r.create_limits username clientMac)).2.trans h.max
  | validate token clientIp now =>
    exact h.of_le ((r.lapses_validate token clientIp now).inverse h.inverse) (r.size_validate_le token clientIp now)
      (r.lapses_validate token clientIp now).limits
  | getByIp clientIp now =>
    exact h.of_le ((r.lapses_getByIp clientIp now).inverse h.inverse) (r.size_getByIp_le clientIp now)
      (r.lapses_getByIp clientIp now).limits
  | invalidate token =>
    exact h.of_le (h.inverse.invalidate token) (r.size_invalidate_le token) (r.invalidate_limits token)
  | invalidateIp clientIp =>
    exact h.of_le (h.inverse.invalidateIp clientIp) (r.size_invalidateIp_le clientIp) (r.invalidateIp_limits clientIp)
  | purgeExpired now =>
    exact h.of_le (h.inverse.purgeExpired now) (r.size_purgeExpired_le now) (r.lapses_purgeExpired now).limits
  | listSessions now =>
    exact h.of_le (h.inverse.purgeExpired now) (r.size_purgeExpired_le now) (r.lapses_purgeExpired now).limits

theorem Sound.init (tokenExpirySeconds maxSessions : Nat) : (init tokenExpirySeconds maxSessions).Sound maxSessions :=
  ⟨inverse_init tokenExpirySeconds maxSessions, Nat.zero_le _, rfl⟩

theorem Sound.run {maxSessions : Nat} {calls : List RegistryCall} (h : r.Sound maxSessions)
    (hfresh : Along PortalSessionRegistry.step Fresh r calls) :
    (run PortalSessionRegistry.step r calls).Sound maxSessions :=
  hfresh.invariant (I := fun r => r.Sound maxSessions) (fun _ _ hr hc => hr.step hc) h

/-- Each map leads back to where the other came from. -/
theorem Sound.maps_iff {maxSessions : Nat} (h : r.Sound maxSessions) (clientIp : IPv4Address) (token : String) :
    r.tokenByIp.get? clientIp = some token ↔ ∃ session, r.byToken.get? token = some session ∧
      session.token = token ∧ session.clientIp = clientIp := by
  refine ⟨fun hip => ?_, ?_⟩
  · obtain ⟨session, hget, hclient⟩ := h.inverse clientIp token hip
    exact ⟨session, hget, (r.indexed token session hget).1, hclient⟩
  · rintro ⟨session, hget, -, rfl⟩
    exact (r.indexed token session hget).2

/-- What `get_by_ip` returns is the live session of the address. -/
theorem getByIp_some (h : (r.getByIp clientIp now).1 = some session) :
    r.byToken.get? session.token = some session ∧ now < session.expiresAt ∧ session.clientIp = clientIp := by
  unfold getByIp at h
  split at h
  · exact absurd h (by simp)
  · rename_i t _
    obtain ⟨hget, hlive, hip, -⟩ := validate_some h
    exact ⟨(r.indexed t session hget).1.symm ▸ hget, hlive, hip⟩

/-- **The two maps of the registry are inverse.** After any calls in any order, as long as the tokens created are
fresh: an address leads to a token exactly when a session of that token and address is held; no address has two
sessions; there are no more than `max_sessions`; and a lookup returns only a live session of the address it was asked
about. -/
theorem session_maps_inverse (tokenExpirySeconds maxSessions : Nat) (calls : List RegistryCall)
    (hfresh : Along step Fresh (init tokenExpirySeconds maxSessions) calls) :
    let r := run step (init tokenExpirySeconds maxSessions) calls
    (∀ clientIp token, r.tokenByIp.get? clientIp = some token ↔ ∃ session, r.byToken.get? token = some session ∧
      session.token = token ∧ session.clientIp = clientIp) ∧
    (∀ session ∈ r.byToken.values, ∀ other ∈ r.byToken.values, session.clientIp = other.clientIp → session = other) ∧
    r.byToken.size ≤ maxSessions ∧
    (∀ token clientIp now session, (r.call (.validate token clientIp now)).1 = .session (some session) →
      r.byToken.get? token = some session ∧ now < session.expiresAt ∧ session.clientIp = clientIp) ∧
    (∀ clientIp now session, (r.call (.getByIp clientIp now)).1 = .session (some session) →
      r.byToken.get? session.token = some session ∧ now < session.expiresAt ∧ session.clientIp = clientIp) := by
  have hsound := (Sound.init tokenExpirySeconds maxSessions).run hfresh
  intro r
  refine ⟨hsound.maps_iff, ?_, hsound.bounded, ?_, ?_⟩
  · intro session hsession other hother hip
    obtain ⟨t₁, h₁⟩ := Dict.mem_values_iff.mp hsession
    obtain ⟨t₂, h₂⟩ := Dict.mem_values_iff.mp hother
    have htokens : t₁ = t₂ := token_eq_of_clientIp h₁ h₂ hip
    rw [htokens, h₂] at h₁
    exact (Option.some.inj h₁).symm
  · intro token clientIp now session hanswer
    obtain ⟨hget, hlive, hip, -⟩ := validate_some (RegistryAnswer.session.inj hanswer)
    exact ⟨hget, hlive, hip⟩
  · intro clientIp now session hanswer
    exact getByIp_some (RegistryAnswer.session.inj hanswer)

/-- Two logins at a table for one session. -/
def twoLogins : List RegistryCall :=
  [.create "ada" 0x0A00000A#32 "first" 0 none, .create "bob" 0x0A00000B#32 "second" 1 none,
    .validate "first" 0x0A00000A#32 2]

/-- The second login pushes the first out. -/
theorem session_maps_inverse_full :
    (run step (init 1800 1) twoLogins).byToken.size ≤ 1 ∧
      (run step (init 1800 1) twoLogins).tokenByIp.get? 0x0A00000B#32 = some "second" := by
  have hmaps := session_maps_inverse 1800 1 twoLogins ⟨rfl, by decide +kernel, trivial, trivial⟩
  refine ⟨hmaps.2.2.1, (hmaps.1 _ _).mpr ?_⟩
  exact ⟨⟨"second", "bob", 0x0A00000B#32, 1, 1 + seconds 1800, none⟩, by decide +kernel⟩

end PortalSessionRegistry

end Pirewall
