import CaManager.Accounts.Administration

/-!
# Authenticating a request

A request shows an API key, or comes with a browser's session. A key carries the permissions
that it was made with, a session those of its user's role. A session is asked how long it has
been there, if it knows, and for how long it has been idle.
-/

namespace CaManager

open Library

/-- An API key. Its permissions are what its JSON column reads as. -/
structure ApiKey where
  id : ℕ := 0
  userId : ℕ
  keyHash : String
  name : String
  permissions : List String
  expiresAt : Option Time := none
  lastUsedAt : Option Time := none
  isActive : Bool := true
  deriving Repr, DecidableEq

instance : Keyed ApiKey := ⟨ApiKey.id, fun k r => { r with id := k }, fun _ _ => rfl, fun _ => rfl⟩

@[simp] theorem key_apiKey (r : ApiKey) : Keyed.key r = r.id := rfl

@[simp] theorem withKey_apiKey (k : ℕ) (r : ApiKey) : Keyed.withKey k r = { r with id := k } := rfl

inductive AuthMethod
  | apiKey (id : ℕ) (name : String)
  | session
  deriving Repr, DecidableEq

/-- Who a request comes from, and what it may do. The user of a key may be missing. -/
structure AuthResult where
  userId : ℕ
  user : Option User
  authMethod : AuthMethod
  permissions : List String
  deriving Repr, DecidableEq

structure Caller where
  apiKey : Option String := none
  session : BrowserSession := {}
  deriving Repr, DecidableEq

namespace AuthManager

def expired (now : Time) (row : ApiKey) : Bool := row.expiresAt.any (· < now)

def shownKey [HashLibrary] (keys : Table ApiKey) (key : String) : Option ApiKey :=
  keys.first fun row => row.keyHash = HashLibrary.sha256 key && row.isActive

def verifyApiKey [HashLibrary] (st : Accounts) (keys : Table ApiKey) (now : Time) (key : String) :
    Option (AuthResult × Table ApiKey) := do
  let row ← shownKey keys key
  guard (expired now row = false)
  return (⟨row.userId, st.users.get? row.userId, .apiKey row.id row.name, row.permissions⟩,
    keys.update row.id fun row => { row with lastUsedAt := some now })

def secondsSetting (st : Accounts) (key : String) (default : ℤ) : ℤ :=
  (((st.settings key).filter (· ≠ "")).bind fun v => readInt 10 v.toList).getD default

/-- `_get_session_timeout` -/
def sessionTimeout (st : Accounts) : ℤ := secondsSetting st "session_timeout" 28800

/-- `_get_session_max_lifetime` -/
def sessionMaxLifetime (st : Accounts) : ℤ := secondsSetting st "session_max_lifetime" 86400

/-- A session that is too old or idle for too long is cleared. One that does not know when it
began is not too old. -/
def verifySession (st : Accounts) (session : BrowserSession) (now : Time) :
    Option AuthResult × BrowserSession :=
  match (session.userId.bind st.users.get?).filter User.active with
  | none => (none, session)
  | some u =>
    if session.loginTime.any fun t => sessionMaxLifetime st < now - t then (none, {})
    else if session.lastActivity.any fun t => sessionTimeout st < now - t then (none, {})
    else
      (some ⟨u.id, some u, .session, Administration.rolePermissions u.role⟩,
        { session with lastActivity := some now })

def authenticateRequest [HashLibrary] (st : Accounts) (keys : Table ApiKey) (now : Time)
    (caller : Caller) : Option AuthResult × Table ApiKey × BrowserSession :=
  match (caller.apiKey.filter (· ≠ "")).bind (verifyApiKey st keys now) with
  | some (result, keys) => (some result, keys, caller.session)
  | none =>
    let (result, session) := verifySession st caller.session now
    (result, keys, session)

/-- The check of `require_auth` on who has been authenticated. -/
def authorize (required : List String) (result : Option AuthResult) :
    Except Refusal AuthResult := do
  let result ← orThrow result ⟨401, "Authentication required"⟩
  match required.find? fun p => !Administration.hasPermission p result.permissions with
  | some p => throw ⟨403, "Missing permission: " ++ p⟩
  | none => return result

end AuthManager

section Authorization

open AuthManager

variable {st : Accounts} {keys : Table ApiKey} {now : Time} {result : AuthResult}

theorem authorize_eq_ok {required : List String} {found : Option AuthResult} :
    authorize required found = .ok result ↔
      found = some result ∧
        ∀ p ∈ required, Administration.hasPermission p result.permissions = true := by
  simp only [authorize, bind_eq_ok, orThrow_eq_ok]
  constructor
  · rintro ⟨result', rfl, h⟩
    split at h
    · cases h
    · next hnone =>
      obtain rfl := pure_eq_ok.mp h
      exact ⟨rfl, by simpa using hnone⟩
  · rintro ⟨rfl, h⟩
    refine ⟨result, rfl, ?_⟩
    have hnone : required.find? (fun p => !Administration.hasPermission p result.permissions) =
        none := by simpa using h
    rw [hnone]
    rfl

theorem verifyApiKey_eq_some [HashLibrary] {key : String} {keys' : Table ApiKey} :
    verifyApiKey st keys now key = some (result, keys') ↔
      ∃ row, shownKey keys key = some row ∧ expired now row = false ∧
        result = ⟨row.userId, st.users.get? row.userId, .apiKey row.id row.name, row.permissions⟩ ∧
        keys' = keys.update row.id fun row => { row with lastUsedAt := some now } := by
  unfold verifyApiKey
  cases hrow : shownKey keys key with
  | none => simp
  | some row =>
    cases hexpired : expired now row with
    | true => simp [hexpired]
    | false =>
      simp only [Option.bind_eq_bind, Option.bind_some, hexpired, guard_true, Option.pure_def,
        Option.some.injEq, Prod.mk.injEq, exists_eq_left', true_and]
      exact and_congr eq_comm eq_comm

theorem any_eq_false_iff {o : Option Time} {limit : ℤ} :
    (o.any fun t => limit < now - t) = false ↔ ∀ t ∈ o, now - t ≤ limit := by
  cases o <;> simp

/-- A session that is accepted belongs to an active user, and is neither too old nor idle for too
long, as far as it knows. -/
theorem verifySession_eq_some {session session' : BrowserSession} :
    verifySession st session now = (some result, session') ↔
      ∃ id u, session.userId = some id ∧ st.users.get? id = some u ∧ u.active = true ∧
        (∀ t ∈ session.loginTime, now - t ≤ sessionMaxLifetime st) ∧
        (∀ t ∈ session.lastActivity, now - t ≤ sessionTimeout st) ∧
        result = ⟨u.id, some u, .session, Administration.rolePermissions u.role⟩ ∧
        session' = { session with lastActivity := some now } := by
  unfold verifySession
  constructor
  · intro h
    split at h
    · cases h
    · next u huser =>
      obtain ⟨hfound, hactive⟩ := Option.filter_eq_some_iff.mp huser
      obtain ⟨id, hid, hu⟩ := Option.bind_eq_some_iff.mp hfound
      split_ifs at h with hold hidle
      · cases h
      · cases h
      · cases h
        exact ⟨id, u, hid, hu, hactive, any_eq_false_iff.mp (by simpa using hold),
          any_eq_false_iff.mp (by simpa using hidle), rfl, rfl⟩
  · rintro ⟨id, u, hid, hu, hactive, hold, hidle, rfl, rfl⟩
    have huser : (session.userId.bind st.users.get?).filter User.active = some u := by
      rw [hid, Option.bind_some, hu, Option.filter_some, if_pos hactive]
    rw [huser]
    dsimp only
    rw [any_eq_false_iff.mpr hold, any_eq_false_iff.mpr hidle]
    rfl

end Authorization

end CaManager
