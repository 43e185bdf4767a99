/-
# Pirewall.Api.Auth -- the sessions of the control panel

`SessionStore` holds what it needs of each session that is live: the session and when it was last used. `Life` is what
has happened to a token instead, whatever came of it: the session it was issued for and every time it was presented.
A session is live as long as it was always presented in time, and that is what `validate` answers.
-/
import Pirewall.Core.Models
import Pirewall.Lib.Run

namespace Pirewall.Api

open Lib

/-- An issued session token and its validity. -/
structure Session where
  token : String
  username : String
  issuedAt : Time
  expiresAt : Time
  deriving DecidableEq

/-- `SessionStore`; the idle timeout is a `timedelta`. -/
structure SessionStore where
  tokenExpirySeconds : Nat
  idleTimeout : Option Int
  sessions : Dict String Session
  lastUsed : Dict String Time

namespace SessionStore

/-- `SessionStore.__init__`. -/
def init (tokenExpirySeconds : Nat) (idleTimeoutSeconds : Option Nat) : SessionStore :=
  ⟨tokenExpirySeconds, idleTimeoutSeconds.map fun n => seconds n, Dict.empty, Dict.empty⟩

/-- The session that `create` issues; `token` is the `secrets.token_urlsafe` of the call. -/
def issue (store : SessionStore) (token username : String) (now : Time) : Session :=
  ⟨token, username, now, now + seconds store.tokenExpirySeconds⟩

/-- `create`. -/
def create (store : SessionStore) (token username : String) (now : Time) : Session × SessionStore :=
  let session := store.issue token username now
  (session, { store with
    sessions := store.sessions.set token session
    lastUsed := store.lastUsed.set token now })

/-- `invalidate`. -/
def invalidate (store : SessionStore) (token : String) : SessionStore :=
  { store with sessions := store.sessions.erase token, lastUsed := store.lastUsed.erase token }

/-- `idle_expired` of `validate`. -/
def idleExpired (store : SessionStore) (lastUsed now : Time) : Bool :=
  store.idleTimeout.any fun timeout => decide (timeout ≤ now - lastUsed)

/-- `validate`. -/
def validate (store : SessionStore) (token : String) (now : Time) : Option Session × SessionStore :=
  match store.sessions.get? token with
  | none => (none, store)
  | some session =>
    let lastUsed := (store.lastUsed.get? token).getD session.issuedAt
    if session.expiresAt ≤ now ∨ store.idleExpired lastUsed now then (none, store.invalidate token)
    else (some session, { store with lastUsed := store.lastUsed.set token now })

end SessionStore

/-! ## The life of a token -/

/-- The calls on a `SessionStore`. -/
inductive SessionCall where
  | create (token username : String) (now : Time)
  | validate (token : String) (now : Time)
  | invalidate (token : String)

/-- One call. -/
def SessionStore.step (store : SessionStore) : SessionCall → SessionStore
  | .create token username now => (store.create token username now).2
  | .validate token now => (store.validate token now).2
  | .invalidate token => store.invalidate token

/-- The session of a token and when the token was presented, the last time first; it was issued at the first. -/
structure Life where
  session : Session
  lastUsed : Time
  usedBefore : List Time

namespace Life

/-- A token that has just been issued. -/
def ofSession (session : Session) : Life := ⟨session, session.issuedAt, []⟩

/-- Presented once more. -/
def present (now : Time) (life : Life) : Life := ⟨life.session, now, life.lastUsed :: life.usedBefore⟩

/-- Each time it was presented it had not expired, and had not been idle for too long. -/
def Kept (idleTimeout : Option Int) (life : Life) : Prop :=
  (life.lastUsed :: life.usedBefore).IsChain fun later earlier =>
    later < life.session.expiresAt ∧ ∀ timeout ∈ idleTimeout, later - earlier < timeout

instance (idleTimeout : Option Int) (life : Life) : Decidable (life.Kept idleTimeout) :=
  inferInstanceAs (Decidable (List.IsChain _ _))

/-- A life that has been kept. -/
def live (idleTimeout : Option Int) (life : Option Life) : Option Life := life.filter fun l => l.Kept idleTimeout

/-- What a call does to the life of a token. -/
def step (store : SessionStore) (token : String) (life : Option Life) : SessionCall → Option Life
  | .create token' username now => if token' = token then some (.ofSession (store.issue token' username now)) else life
  | .validate token' now => if token' = token then life.map (present now) else life
  | .invalidate token' => if token' = token then none else life

end Life

namespace SessionStore

/-- The life of a token after some calls on a new store. -/
def lifeOf (store : SessionStore) (calls : List SessionCall) (token : String) : Option Life :=
  run (Life.step store token) none calls

variable {store : SessionStore} {token : String} {life : Option Life}

/-- A session that was used in time is used in time again if it has not expired and has not been idle. -/
theorem kept_present (store : SessionStore) (l : Life) (now : Time) :
    (l.present now).Kept store.idleTimeout ↔
      l.Kept store.idleTimeout ∧ ¬(l.session.expiresAt ≤ now ∨ store.idleExpired l.lastUsed now = true) := by
  have hidle : (∀ timeout ∈ store.idleTimeout, now - l.lastUsed < timeout) ↔
      ¬store.idleExpired l.lastUsed now = true := by
    unfold idleExpired
    cases store.idleTimeout with
    | none => simp
    | some timeout => simp
  show List.IsChain _ (now :: l.lastUsed :: l.usedBefore) ↔ _
  rw [List.isChain_cons_cons, hidle, not_or, not_le]
  exact and_comm

theorem live_present (store : SessionStore) (life : Option Life) (now : Time) :
    Life.live store.idleTimeout (life.map (Life.present now)) =
      (Life.live store.idleTimeout life).bind fun l =>
        if l.session.expiresAt ≤ now ∨ store.idleExpired l.lastUsed now then none else some (l.present now) := by
  cases life with
  | none => rfl
  | some l =>
    have hpresent := kept_present store l now
    unfold Life.live
    by_cases hkept : l.Kept store.idleTimeout
    · by_cases hover : l.session.expiresAt ≤ now ∨ store.idleExpired l.lastUsed now = true
      · simp [Option.filter, hkept, hover, hpresent]
      · simp [Option.filter, hkept, hover, hpresent]
    · simp [Option.filter, hkept, hpresent]

/-- What a store holds of a token is what has to be known of its life. -/
structure Shows (store : SessionStore) (token : String) (life : Option Life) : Prop where
  session : store.sessions.get? token = (Life.live store.idleTimeout life).map Life.session
  lastUsed : ∀ l ∈ Life.live store.idleTimeout life, store.lastUsed.get? token = some l.lastUsed

theorem shows_init (tokenExpirySeconds : Nat) (idleTimeoutSeconds : Option Nat) (token : String) :
    (init tokenExpirySeconds idleTimeoutSeconds).Shows token none where
  session := rfl
  lastUsed l h := absurd h (by simp [Life.live])

/-- What `validate` answers, and what it leaves. -/
theorem Shows.validate (h : store.Shows token life) (now : Time) :
    (store.validate token now).1 = (Life.live store.idleTimeout (life.map (Life.present now))).map Life.session ∧
      (store.validate token now).2.Shows token (life.map (Life.present now)) := by
  have hsession := h.session
  have hpresent := live_present store life now
  unfold SessionStore.validate
  cases hlive : Life.live store.idleTimeout life with
  | none =>
    rw [hlive] at hsession hpresent
    rw [hsession, hpresent]
    exact ⟨rfl, hsession.trans (congrArg _ hpresent).symm, fun l hl => absurd (hpresent ▸ hl) (by simp)⟩
  | some l =>
    rw [hlive] at hsession hpresent
    rw [hsession, h.lastUsed l hlive, hpresent]
    dsimp only [Option.map_some, Option.getD_some, Option.bind_some] at hpresent ⊢
    split
    · rename_i hover
      rw [if_pos hover] at hpresent
      refine ⟨rfl, ?_, fun l hl => absurd (hpresent ▸ hl) (by simp)⟩
      show (store.sessions.erase token).get? token = (Life.live store.idleTimeout _).map Life.session
      rw [hpresent, Dict.get?_erase, if_pos rfl]
      rfl
    · rename_i hover
      rw [if_neg hover] at hpresent
      refine ⟨rfl, ?_, fun l' hl' => ?_⟩
      · show store.sessions.get? token = (Life.live store.idleTimeout _).map Life.session
        rw [hpresent]
        exact hsession
      · obtain rfl : l.present now = l' := Option.some.inj (hpresent.symm.trans hl')
        show (store.lastUsed.set token now).get? token = some now
        rw [Dict.get?_set, if_pos rfl]

/-- The limits of a store stay what they are. -/
theorem limits_step (store : SessionStore) (call : SessionCall) :
    (store.step call).tokenExpirySeconds = store.tokenExpirySeconds ∧
      (store.step call).idleTimeout = store.idleTimeout := by
  cases call with
  | create token username now => exact ⟨rfl, rfl⟩
  | invalidate token => exact ⟨rfl, rfl⟩
  | validate token now =>
    show (store.validate token now).2.tokenExpirySeconds = _ ∧ (store.validate token now).2.idleTimeout = _
    unfold SessionStore.validate
    split
    · exact ⟨rfl, rfl⟩
    · dsimp only
      split
      · exact ⟨rfl, rfl⟩
      · exact ⟨rfl, rfl⟩

theorem idleTimeout_run (store : SessionStore) (calls : List SessionCall) :
    (run step store calls).idleTimeout = store.idleTimeout := by
  induction calls generalizing store with
  | nil => rfl
  | cons call calls ih => exact (ih (store.step call)).trans (store.limits_step call).2

/-- A validation leaves other tokens alone. -/
theorem validate_other (store : SessionStore) {token' : String} (hne : token ≠ token') (now : Time) :
    (store.validate token' now).2.sessions.get? token = store.sessions.get? token ∧
      (store.validate token' now).2.lastUsed.get? token = store.lastUsed.get? token := by
  unfold SessionStore.validate
  split
  · exact ⟨rfl, rfl⟩
  · dsimp only
    split
    · exact ⟨by rw [invalidate, Dict.get?_erase, if_neg hne], by rw [invalidate, Dict.get?_erase, if_neg hne]⟩
    · exact ⟨rfl, by rw [Dict.get?_set, if_neg hne]⟩

theorem Shows.step (h : store.Shows token life) (call : SessionCall) :
    (store.step call).Shows token (Life.step store token life call) := by
  cases call with
  | create token' username now =>
    show Shows _ token (if token' = token then _ else life)
    by_cases htoken : token' = token
    · subst htoken
      rw [if_pos rfl]
      constructor
      · show (store.sessions.set token' (store.issue token' username now)).get? token' = _
        rw [Dict.get?_set, if_pos rfl]
        rfl
      · intro l hl
        obtain rfl : Life.ofSession (store.issue token' username now) = l := Option.some.inj hl
        show (store.lastUsed.set token' now).get? token' = some now
        rw [Dict.get?_set, if_pos rfl]
    -- a call with another token touches neither entry of this one
    · rw [if_neg htoken]
      constructor
      · show (store.sessions.set token' (store.issue token' username now)).get? token = _
        rw [Dict.get?_set, if_neg (Ne.symm htoken)]
        exact h.session
      · intro l hl
        show (store.lastUsed.set token' now).get? token = _
        rw [Dict.get?_set, if_neg (Ne.symm htoken)]
        exact h.lastUsed l hl
  | validate token' now =>
    show Shows (store.validate token' now).2 token (if token' = token then _ else life)
    by_cases htoken : token' = token
    · subst htoken
      rw [if_pos rfl]
      exact (h.validate now).2
    · rw [if_neg htoken]
      -- validating another token may end that session, and no other
      obtain ⟨hsession, hlast⟩ := store.validate_other (Ne.symm htoken) now
      have hidle : (store.validate token' now).2.idleTimeout = store.idleTimeout :=
        (store.limits_step (.validate token' now)).2
      constructor
      · rw [hsession, hidle]
        exact h.session
      · rw [hlast, hidle]
        exact h.lastUsed
  | invalidate token' =>
    show Shows (store.invalidate token') token (if token' = token then none else life)
    by_cases htoken : token' = token
    · subst htoken
      rw [if_pos rfl]
      constructor
      · show (store.sessions.erase token').get? token' = none
        rw [Dict.get?_erase, if_pos rfl]
      · exact fun l hl => absurd hl (by simp [Life.live])
    · rw [if_neg htoken]
      constructor
      · show (store.sessions.erase token').get? token = _
        rw [Dict.get?_erase, if_neg (Ne.symm htoken)]
        exact h.session
      · intro l hl
        show (store.lastUsed.erase token').get? token = _
        rw [Dict.get?_erase, if_neg (Ne.symm htoken)]
        exact h.lastUsed l hl

/-- Through all calls. -/
theorem Shows.run (h : store.Shows token life) (calls : List SessionCall) :
    (Lib.run SessionStore.step store calls).Shows token (Lib.run (Life.step store token) life calls) := by
  induction calls generalizing store life with
  | nil => exact h
  | cons call calls ih =>
    have hsame : Life.step (store.step call) token = Life.step store token := by
      funext life' call'
      cases call' with
      | create token' username now =>
        show (if token' = token then some (.ofSession ((store.step call).issue token' username now)) else life') = _
        rw [issue, (store.limits_step call).1]
        rfl
      | _ => rfl
    have hrun := ih (h.step call)
    rwa [hsame] at hrun

end SessionStore

end Pirewall.Api
