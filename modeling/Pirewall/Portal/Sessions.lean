/-
# Pirewall.Portal.Sessions -- the registry of signed-in clients

`PortalSessionRegistry` (`portal/sessions.py`): the live sessions by token, and the token of each client
address. A registry carries the half of the index that no call can break: a session is filed under its
own token, and its address points at that token, so an address has at most one session. The other half,
that an address points at a session of its own (`Inverse`), needs the tokens of new sessions to be fresh.

Each operation has one lemma that says which sessions it leaves, as a dictionary; the callers never open
the index. The random session ids are left out.
-/
import Mathlib.Data.List.Sort
import Pirewall.Core.Models

namespace Pirewall

open Lib

/-- One authenticated LAN client, bound to the address the login came from. -/
structure PortalSession where
  token : String
  username : String
  clientIp : IPv4Address
  issuedAt : Time
  expiresAt : Time
  clientMac : Option Mac
  deriving DecidableEq

/-- `PortalSessionRegistry`. -/
structure PortalSessionRegistry where
  tokenExpirySeconds : Nat
  maxSessions : Nat
  byToken : Dict String PortalSession
  tokenByIp : Dict IPv4Address String
  /-- A session is filed under its own token, and its address points at that token. -/
  indexed : ∀ token session, byToken.get? token = some session →
    session.token = token ∧ tokenByIp.get? session.clientIp = some token

namespace PortalSessionRegistry

variable {r : PortalSessionRegistry} {now : Time} {clientIp : IPv4Address} {token : String}
  {session : PortalSession}

/-! ## Operations -/

/-- `PortalSessionRegistry.__init__`. -/
def init (tokenExpirySeconds maxSessions : Nat) : PortalSessionRegistry :=
  ⟨tokenExpirySeconds, maxSessions, Dict.empty, Dict.empty, fun _ _ h => absurd h (by simp)⟩

/-- `invalidate`: the session that went, if there was one. -/
def invalidate (r : PortalSessionRegistry) (token : String) :
    Option PortalSession × PortalSessionRegistry :=
  match r.byToken.get? token with
  | none => (none, r)
  | some session =>
    (some session,
     { r with
       byToken := r.byToken.erase token
       tokenByIp :=
         if r.tokenByIp.get? session.clientIp = some token then r.tokenByIp.erase session.clientIp
         else r.tokenByIp
       indexed := by
         intro t s hget
         rw [Dict.get?_erase] at hget
         split at hget
         · exact absurd hget (by simp)
         · rename_i hne
           obtain ⟨htoken, hip⟩ := r.indexed t s hget
           refine ⟨htoken, ?_⟩
           split
           · rename_i hindex
             rw [Dict.get?_erase, if_neg, hip]
             intro heq
             rw [heq, hindex] at hip
             exact hne (Option.some.inj hip).symm
           · exact hip })

/-- `invalidate_ip`. -/
def invalidateIp (r : PortalSessionRegistry) (clientIp : IPv4Address) :
    Option PortalSession × PortalSessionRegistry :=
  match r.tokenByIp.get? clientIp with
  | none => (none, r)
  | some token => r.invalidate token

/-- `purge_expired`: the sessions that went. -/
def purgeExpired (r : PortalSessionRegistry) (now : Time) : List PortalSession × PortalSessionRegistry :=
  let expired := r.byToken.values.filter fun session => decide (session.expiresAt ≤ now)
  (expired, expired.foldl (fun r session => (r.invalidate session.token).2) r)

/-- `create` with a full table: the session closest to its expiry is dropped. -/
def makeRoom (r : PortalSessionRegistry) : PortalSessionRegistry :=
  if r.maxSessions ≤ r.byToken.size then
    match firstMin PortalSession.expiresAt r.byToken.values with
    | none => r
    | some oldest => (r.invalidate oldest.token).2
  else r

@[simp] theorem invalidate_byToken (r : PortalSessionRegistry) (token : String) :
    (r.invalidate token).2.byToken = r.byToken.erase token := by
  unfold invalidate
  split
  · rename_i hnone
    exact (Dict.erase_of_none hnone).symm
  · rfl

/-- An address whose session was ended has none. -/
theorem invalidateIp_noneAt {t : String}
    (h : (r.invalidateIp clientIp).2.byToken.get? t = some session) : session.clientIp ≠ clientIp := by
  intro hip
  unfold invalidateIp at h
  split at h
  · rename_i hnone
    have := (r.indexed t session h).2
    rw [hip, hnone] at this
    exact absurd this (by simp)
  · rename_i token htoken
    rw [invalidate_byToken, Dict.get?_erase] at h
    split at h
    · exact absurd h (by simp)
    · rename_i hne
      have := (r.indexed t session h).2
      rw [hip, htoken] at this
      exact hne (Option.some.inj this).symm

theorem makeRoom_le {t : String} (h : r.makeRoom.byToken.get? t = some session) :
    r.byToken.get? t = some session := by
  unfold makeRoom at h
  split at h
  · split at h
    · exact h
    · rw [invalidate_byToken, Dict.get?_erase] at h
      split at h
      · exact absurd h (by simp)
      · exact h
  · exact h

/-- Filing a session under `token`, once its address has no other. -/
def insert (r : PortalSessionRegistry) (session : PortalSession)
    (h : ∀ t s, r.byToken.get? t = some s → s.clientIp ≠ session.clientIp) : PortalSessionRegistry :=
  { r with
    byToken := r.byToken.set session.token session
    tokenByIp := r.tokenByIp.set session.clientIp session.token
    indexed := by
      intro t s hget
      rw [Dict.get?_set] at hget
      split at hget
      · rename_i heq
        obtain rfl := Option.some.inj hget
        exact ⟨heq.symm, by rw [Dict.get?_set, if_pos rfl, heq]⟩
      · rw [Dict.get?_set, if_neg (h t s hget)]
        exact r.indexed t s hget }

/-- `create`: issue a session for the address, replacing any it has. -/
def create (r : PortalSessionRegistry) (username : String) (clientIp : IPv4Address) (token : String)
    (now : Time) (clientMac : Option Mac) : PortalSession × PortalSessionRegistry :=
  let session : PortalSession :=
    { token, username, clientIp, issuedAt := now, expiresAt := now + seconds r.tokenExpirySeconds,
      clientMac }
  (session,
   (((r.purgeExpired now).2.invalidateIp clientIp).2.makeRoom).insert session fun _ _ h =>
     invalidateIp_noneAt (makeRoom_le h))

/-- `validate`: the session only if the token is live and still bound to the address. -/
def validate (r : PortalSessionRegistry) (token : String) (clientIp : IPv4Address) (now : Time) :
    Option PortalSession × PortalSessionRegistry :=
  match r.byToken.get? token with
  | none => (none, r)
  | some session =>
    if session.expiresAt ≤ now then (none, (r.invalidate token).2)
    else if session.clientIp ≠ clientIp then (none, r)
    else (some session, r)

/-- `get_by_ip`. -/
def getByIp (r : PortalSessionRegistry) (clientIp : IPv4Address) (now : Time) :
    Option PortalSession × PortalSessionRegistry :=
  match r.tokenByIp.get? clientIp with
  | none => (none, r)
  | some token => r.validate token clientIp now

/-- `list_sessions`: live sessions, soonest to expire first. -/
def listSessions (r : PortalSessionRegistry) (now : Time) : List PortalSession × PortalSessionRegistry :=
  let r := (r.purgeExpired now).2
  (r.byToken.values.insertionSort fun x y => x.expiresAt ≤ y.expiresAt, r)

/-! ## What each operation leaves -/

/-- The two limits a registry is built with. -/
def limits (r : PortalSessionRegistry) : Nat × Nat := (r.tokenExpirySeconds, r.maxSessions)

theorem invalidate_limits (r : PortalSessionRegistry) (token : String) :
    (r.invalidate token).2.limits = r.limits := by
  unfold invalidate
  split
  · rfl
  · rfl

theorem invalidateIp_limits (r : PortalSessionRegistry) (clientIp : IPv4Address) :
    (r.invalidateIp clientIp).2.limits = r.limits := by
  unfold invalidateIp
  split
  · rfl
  · exact r.invalidate_limits _

theorem foldl_invalidate_limits (sessions : List PortalSession) (r : PortalSessionRegistry) :
    (sessions.foldl (fun r session => (r.invalidate session.token).2) r).limits = r.limits := by
  induction sessions generalizing r with
  | nil => rfl
  | cons session sessions ih => rw [List.foldl_cons, ih, invalidate_limits]

/-- The other half of the index: an address points at a session of its own. -/
def Inverse (r : PortalSessionRegistry) : Prop :=
  ∀ ip token, r.tokenByIp.get? ip = some token →
    ∃ session, r.byToken.get? token = some session ∧ session.clientIp = ip

theorem inverse_init (tokenExpirySeconds maxSessions : Nat) : (init tokenExpirySeconds maxSessions).Inverse :=
  fun _ _ h => absurd h (by simp [init])

/-- One session per address. -/
theorem token_eq_of_clientIp {t₁ t₂ : String} {s₁ s₂ : PortalSession}
    (h₁ : r.byToken.get? t₁ = some s₁) (h₂ : r.byToken.get? t₂ = some s₂)
    (hip : s₁.clientIp = s₂.clientIp) : t₁ = t₂ := by
  have hindex := (r.indexed t₁ s₁ h₁).2
  rw [hip, (r.indexed t₂ s₂ h₂).2] at hindex
  exact (Option.some.inj hindex).symm

theorem Inverse.invalidate (h : r.Inverse) (token : String) : (r.invalidate token).2.Inverse := by
  unfold PortalSessionRegistry.invalidate
  split
  · exact h
  · rename_i session hsession
    have hindex := (r.indexed token session hsession).2
    intro ip t hget
    simp only [hindex, if_true, Dict.get?_erase] at hget ⊢
    split at hget
    · exact absurd hget (by simp)
    · rename_i hne
      obtain ⟨other, hother, hip⟩ := h ip t hget
      refine ⟨other, ?_, hip⟩
      rw [if_neg, hother]
      rintro rfl
      rw [hsession] at hother
      obtain rfl := Option.some.inj hother
      exact hne hip.symm

theorem Inverse.invalidateIp (h : r.Inverse) (clientIp : IPv4Address) :
    (r.invalidateIp clientIp).2.Inverse := by
  unfold PortalSessionRegistry.invalidateIp
  split
  · exact h
  · exact h.invalidate _

/-- Ending the session of an address ends that session and no other. -/
theorem Inverse.invalidateIp_byToken (h : r.Inverse) (clientIp : IPv4Address) :
    (r.invalidateIp clientIp).2.byToken = r.byToken.filter fun _ s => s.clientIp != clientIp := by
  unfold PortalSessionRegistry.invalidateIp
  split
  · rename_i hnone
    have hall : ∀ t s, r.byToken.get? t = some s → (s.clientIp != clientIp) = true := by
      intro t s hget
      rw [bne_iff_ne]
      rintro rfl
      exact absurd ((r.indexed t s hget).2.symm.trans hnone) (by simp)
    apply Dict.ext
    exact (List.filter_eq_self.mpr fun e he => hall e.1 e.2 (Dict.mem_entries_iff.mp he)).symm
  · rename_i token htoken
    obtain ⟨session, hsession, hip⟩ := h clientIp token htoken
    rw [invalidate_byToken]
    refine Dict.filter_congr ?_
    intro t s hget
    rw [Bool.eq_iff_iff, decide_eq_true_eq, bne_iff_ne]
    constructor
    · rintro hne heq
      exact hne (token_eq_of_clientIp hget hsession (heq.trans hip.symm))
    · rintro hne rfl
      rw [hsession] at hget
      obtain rfl := Option.some.inj hget
      exact hne hip

theorem invalidateIp_fst (hget : r.byToken.get? token = some session)
    (hip : session.clientIp = clientIp) : (r.invalidateIp clientIp).1 = some session := by
  unfold PortalSessionRegistry.invalidateIp PortalSessionRegistry.invalidate
  rw [← hip, (r.indexed token session hget).2]
  simp only [hget]

/-- Ending several sessions by their tokens. -/
theorem foldl_invalidate_byToken (sessions : List PortalSession) (r : PortalSessionRegistry) :
    (sessions.foldl (fun r session => (r.invalidate session.token).2) r).byToken =
      r.byToken.filter fun t _ => t ∉ sessions.map PortalSession.token := by
  rw [← Dict.foldl_erase]
  induction sessions generalizing r with
  | nil => rfl
  | cons session sessions ih =>
    rw [List.foldl_cons, ih, invalidate_byToken]
    rfl

theorem Inverse.foldl_invalidate (h : r.Inverse) (sessions : List PortalSession) :
    (sessions.foldl (fun r session => (r.invalidate session.token).2) r).Inverse := by
  induction sessions generalizing r with
  | nil => exact h
  | cons session sessions ih => exact ih (h.invalidate session.token)

/-- `purge_expired` keeps the sessions that have not expired. -/
theorem purgeExpired_byToken (r : PortalSessionRegistry) (now : Time) :
    (r.purgeExpired now).2.byToken = r.byToken.filter fun _ s => decide (now < s.expiresAt) := by
  unfold purgeExpired
  rw [foldl_invalidate_byToken]
  refine Dict.filter_congr ?_
  intro t s hget
  rw [decide_eq_decide, List.mem_map]
  constructor
  · intro hnot
    by_contra hle
    refine hnot ⟨s, ?_, (r.indexed t s hget).1⟩
    rw [List.mem_filter, Dict.mem_values_iff, decide_eq_true_eq]
    exact ⟨⟨t, hget⟩, not_lt.mp hle⟩
  · rintro hlt ⟨expired, hmem, rfl⟩
    rw [List.mem_filter, Dict.mem_values_iff, decide_eq_true_eq] at hmem
    obtain ⟨⟨t', hget'⟩, hle⟩ := hmem
    rw [(r.indexed t' expired hget').1, hget'] at hget
    obtain rfl := Option.some.inj hget
    exact absurd hle (not_le.mpr hlt)

theorem Inverse.purgeExpired (h : r.Inverse) (now : Time) : (r.purgeExpired now).2.Inverse :=
  h.foldl_invalidate _

theorem Inverse.makeRoom (h : r.Inverse) : r.makeRoom.Inverse := by
  unfold PortalSessionRegistry.makeRoom
  split
  · split
    · exact h
    · exact h.invalidate _
  · exact h

/-! ## Looking a session up -/

/-- A session that `validate` returns is the live one of the address. -/
theorem validate_some (h : (r.validate token clientIp now).1 = some session) :
    r.byToken.get? token = some session ∧ now < session.expiresAt ∧ session.clientIp = clientIp ∧
      (r.validate token clientIp now).2 = r := by
  unfold validate at h ⊢
  split at h
  · exact absurd h (by simp)
  · rename_i found hfound
    split at h
    · exact absurd h (by simp)
    · rename_i hlive
      split at h
      · exact absurd h (by simp)
      · rename_i hip
        obtain rfl := Option.some.inj h
        have hip := not_not.mp hip
        rw [hfound]
        exact ⟨rfl, not_le.mp hlive, hip, by simp [hlive, hip]⟩

/-- `r'` is `r` after some sessions that had expired were dropped. -/
structure Lapses (now : Time) (r r' : PortalSessionRegistry) : Prop where
  limits : r'.limits = r.limits
  inverse : r.Inverse → r'.Inverse
  registry : ∀ token session, r'.byToken.get? token = some session → r.byToken.get? token = some session
  dropped : ∀ token session, r.byToken.get? token = some session →
    r'.byToken.get? token = some session ∨ session.expiresAt ≤ now

theorem Lapses.refl (now : Time) (r : PortalSessionRegistry) : Lapses now r r :=
  ⟨rfl, id, fun _ _ => id, fun _ _ => .inl⟩

theorem Lapses.trans {r' r'' : PortalSessionRegistry} (h : Lapses now r r') (h' : Lapses now r' r'') :
    Lapses now r r'' where
  limits := h'.limits.trans h.limits
  inverse := fun hi => h'.inverse (h.inverse hi)
  registry := fun t x hx => h.registry t x (h'.registry t x hx)
  dropped := by
    intro t x hx
    rcases h.dropped t x hx with hkept | hexpired
    · exact h'.dropped t x hkept
    · exact .inr hexpired

theorem lapses_purgeExpired (r : PortalSessionRegistry) (now : Time) : Lapses now r (r.purgeExpired now).2 where
  limits := foldl_invalidate_limits _ r
  inverse := fun h => h.purgeExpired now
  registry := by
    intro t x hx
    rw [purgeExpired_byToken, Dict.get?_filter, Option.filter_eq_some_iff] at hx
    exact hx.1
  dropped := by
    intro t x hx
    rw [purgeExpired_byToken, Dict.get?_filter, Option.filter_eq_some_iff, decide_eq_true_eq]
    by_cases hlive : now < x.expiresAt
    · exact .inl ⟨hx, hlive⟩
    · exact .inr (not_lt.mp hlive)

/-- `validate` drops at most the session of its token, and that one only when it has expired. -/
theorem lapses_validate (r : PortalSessionRegistry) (token : String) (clientIp : IPv4Address) (now : Time) :
    Lapses now r (r.validate token clientIp now).2 := by
  unfold validate
  split
  · exact .refl now r
  · rename_i session hsession
    split
    · rename_i hle
      refine ⟨r.invalidate_limits token, fun h => h.invalidate token, ?_, ?_⟩
      · intro t x hx
        rw [invalidate_byToken, Dict.get?_erase] at hx
        split at hx
        · exact absurd hx (by simp)
        · exact hx
      · intro t x hx
        rw [invalidate_byToken, Dict.get?_erase]
        split
        · rename_i heq
          rw [heq, hsession] at hx
          obtain rfl := Option.some.inj hx
          exact .inr hle
        · exact .inl hx
    · split
      · exact .refl now r
      · exact .refl now r

theorem lapses_getByIp (r : PortalSessionRegistry) (clientIp : IPv4Address) (now : Time) :
    Lapses now r (r.getByIp clientIp now).2 := by
  unfold getByIp
  split
  · exact .refl now r
  · exact r.lapses_validate _ clientIp now

/-- A live session is the one `validate` finds under its token. -/
theorem validate_live (hget : r.byToken.get? token = some session) (hlive : now < session.expiresAt) :
    r.validate token session.clientIp now = (some session, r) := by
  unfold validate
  simp only [hget, not_le.mpr hlive, if_false, ne_eq, not_true_eq_false]

theorem getByIp_live (hget : r.byToken.get? token = some session) (hlive : now < session.expiresAt) :
    (r.getByIp session.clientIp now).1 = some session := by
  unfold getByIp
  rw [(r.indexed token session hget).2]
  dsimp only
  rw [validate_live hget hlive]

/-! ## Signing in -/

/-- The live sessions of the other addresses: what a login from `clientIp` finds in the table. -/
def standing (r : PortalSessionRegistry) (clientIp : IPv4Address) (now : Time) : Dict String PortalSession :=
  r.byToken.filter fun _ s => decide (now < s.expiresAt) && s.clientIp != clientIp

/-- The session of another address that a login from `clientIp` pushes out of a full table. -/
def evicted (r : PortalSessionRegistry) (clientIp : IPv4Address) (now : Time) : Option PortalSession :=
  if r.maxSessions ≤ (r.standing clientIp now).size then
    firstMin PortalSession.expiresAt (r.standing clientIp now).values
  else none

/-- Making room drops one session, the first of those closest to their expiry. -/
theorem makeRoom_byToken (r : PortalSessionRegistry) :
    r.makeRoom.byToken =
      match (if r.maxSessions ≤ r.byToken.size then firstMin PortalSession.expiresAt r.byToken.values
        else none) with
      | none => r.byToken
      | some oldest => r.byToken.erase oldest.token := by
  unfold makeRoom
  by_cases hfull : r.maxSessions ≤ r.byToken.size
  · rw [if_pos hfull, if_pos hfull]
    cases firstMin PortalSession.expiresAt r.byToken.values with
    | none => rfl
    | some oldest => exact r.invalidate_byToken oldest.token
  · rw [if_neg hfull, if_neg hfull]

theorem Inverse.replaced_byToken (h : r.Inverse) (clientIp : IPv4Address) (now : Time) :
    ((r.purgeExpired now).2.invalidateIp clientIp).2.byToken = r.standing clientIp now := by
  rw [(h.purgeExpired now).invalidateIp_byToken, purgeExpired_byToken]
  apply Dict.ext
  show (r.byToken.entries.filter _).filter _ = r.byToken.entries.filter _
  rw [List.filter_filter]
  exact List.filter_congr fun e _ => Bool.and_comm _ _

theorem get?_standing {t : String} :
    (r.standing clientIp now).get? t = some session ↔
      r.byToken.get? t = some session ∧ now < session.expiresAt ∧ session.clientIp ≠ clientIp := by
  rw [standing, Dict.get?_filter, Option.filter_eq_some_iff, Bool.and_eq_true, decide_eq_true_eq, bne_iff_ne]

theorem evicted_mem (h : r.evicted clientIp now = some session) :
    (r.standing clientIp now).get? session.token = some session := by
  unfold evicted at h
  split at h
  · obtain ⟨t, ht⟩ := Dict.mem_values_iff.mp (firstMin_mem h)
    rw [(r.indexed t session (get?_standing.mp ht).1).1]
    exact ht
  · exact absurd h (by simp)

/-- What `create` leaves: the new session, and the standing ones but for the evicted. -/
theorem Inverse.create_get? (h : r.Inverse) (username : String) (clientMac : Option Mac) (t : String) :
    (r.create username clientIp token now clientMac).2.byToken.get? t =
      if t = token then some (r.create username clientIp token now clientMac).1
      else ((r.standing clientIp now).get? t).filter fun s => decide (r.evicted clientIp now ≠ some s) := by
  show (((r.purgeExpired now).2.invalidateIp clientIp).2.makeRoom.byToken.set token _).get? t = _
  have hlimits : ((r.purgeExpired now).2.invalidateIp clientIp).2.limits = r.limits :=
    (invalidateIp_limits _ _).trans (foldl_invalidate_limits _ r)
  rw [Dict.get?_set, makeRoom_byToken, h.replaced_byToken, (Prod.mk.inj hlimits).2]
  change (if t = token then _ else (match r.evicted clientIp now with
    | none => _
    | some oldest => _ : Dict String PortalSession).get? t) = _
  split
  · rfl
  · cases hevicted : r.evicted clientIp now with
    | none => cases (r.standing clientIp now).get? t <;> simp [Option.filter_some]
    | some oldest =>
      have holdest := evicted_mem hevicted
      show ((r.standing clientIp now).erase oldest.token).get? t = _
      rw [Dict.get?_erase]
      cases hget : (r.standing clientIp now).get? t with
      | none => simp
      | some s =>
        have htoken := (r.indexed t s (get?_standing.mp hget).1).1
        by_cases heq : t = oldest.token
        · rw [heq, holdest] at hget
          simp [heq, Option.some.inj hget, Option.filter_some]
        · have hne : oldest ≠ s := by
            rintro rfl
            exact heq htoken.symm
          simp [heq, hne, Option.filter_some]

theorem create_limits (r : PortalSessionRegistry) (username : String) (clientMac : Option Mac) :
    (r.create username clientIp token now clientMac).2.limits = r.limits := by
  have hroom : ∀ r : PortalSessionRegistry, r.makeRoom.limits = r.limits := by
    intro r
    unfold makeRoom
    split
    · split
      · rfl
      · exact r.invalidate_limits _
    · rfl
  show ((r.purgeExpired now).2.invalidateIp clientIp).2.makeRoom.limits = r.limits
  rw [hroom, invalidateIp_limits]
  exact foldl_invalidate_limits _ r

/-- A live session under another token that `create` does not keep is of the address, or evicted. -/
theorem Inverse.create_kept (h : r.Inverse) (username : String) (clientMac : Option Mac) {t : String}
    (hget : r.byToken.get? t = some session) (hne : t ≠ token) (hlive : now < session.expiresAt)
    (hip : session.clientIp ≠ clientIp) (hevicted : r.evicted clientIp now ≠ some session) :
    (r.create username clientIp token now clientMac).2.byToken.get? t = some session := by
  rw [h.create_get?, if_neg hne, Option.filter_eq_some_iff, decide_eq_true_eq]
  exact ⟨get?_standing.mpr ⟨hget, hlive, hip⟩, hevicted⟩

/-- What `create` leaves under another token was there, live and of another address. -/
theorem Inverse.create_old (h : r.Inverse) (username : String) (clientMac : Option Mac) {t : String}
    (hget : (r.create username clientIp token now clientMac).2.byToken.get? t = some session)
    (hne : t ≠ token) : r.byToken.get? t = some session ∧ session.clientIp ≠ clientIp := by
  rw [h.create_get?, if_neg hne, Option.filter_eq_some_iff] at hget
  exact ⟨(get?_standing.mp hget.1).1, (get?_standing.mp hget.1).2.2⟩

/-- A login under a fresh token keeps the index. -/
theorem Inverse.create (h : r.Inverse) (hfresh : r.byToken.get? token = none) (username : String)
    (clientMac : Option Mac) : (r.create username clientIp token now clientMac).2.Inverse := by
  have hroom := ((h.purgeExpired now).invalidateIp clientIp).makeRoom
  intro ip t hget
  have hget' : (((r.purgeExpired now).2.invalidateIp clientIp).2.makeRoom.tokenByIp.set clientIp token).get? ip =
      some t := hget
  rw [Dict.get?_set] at hget'
  split at hget'
  · rename_i heq
    obtain rfl := Option.some.inj hget'
    exact ⟨_, by rw [h.create_get?, if_pos rfl], heq.symm⟩
  · obtain ⟨session, hsession, hip⟩ := hroom ip t hget'
    have hold := makeRoom_le hsession
    rw [h.replaced_byToken, get?_standing] at hold
    refine ⟨session, ?_, hip⟩
    show (((r.purgeExpired now).2.invalidateIp clientIp).2.makeRoom.byToken.set token _).get? t = _
    rw [Dict.get?_set, if_neg, hsession]
    rintro rfl
    rw [hfresh] at hold
    exact absurd hold.1 (by simp)

end PortalSessionRegistry

end Pirewall
