import CaManager.Sso.Callback
import CaManager.Sso.Users

/-!
# Signing in with a password

Two routes check a password against the user's hash, one asks a directory, and one takes the
second factor that a session waits for. Failed attempts are counted on the user's row, and
failed codes in a table of the process. A browser is known by the key in its cookie.
-/

namespace CaManager

open Library Sso

/-- Password hashes, one-time codes, and the JSON of recovery codes. -/
class AccountLibrary where
  checkPasswordHash : String → String → Bool
  totpVerify : String → String → ℕ → Time → Bool
  loads : String → Option Json
  dumps : Json → String

structure CodeFailures where
  count : ℕ := 0
  lockedUntil : Option Time := none
  deriving Repr, DecidableEq

/-- The answer of a login route, and what it leaves behind. `login` is the user that the
session was given to, `verified` the user whose password was right. -/
structure LoginAnswer where
  status : ℕ
  message : String
  accounts : Accounts
  session : BrowserSession
  codeFailures : ℕ → Option CodeFailures
  login : Option ℕ := none
  verified : Option ℕ := none

structure LoginContext where
  accounts : Accounts
  session : BrowserSession
  codeFailures : ℕ → Option CodeFailures
  now : Time

namespace LoginContext

variable (c : LoginContext)

def refuse (status : ℕ) (message : String) (accounts : Accounts) : LoginAnswer :=
  { status, message, accounts, session := c.session, codeFailures := c.codeFailures }

end LoginContext

namespace Login

def checkLockout (st : Accounts) (username : String) (now : Time) : Bool × Accounts :=
  match st.userNamed username with
  | none => (false, st)
  | some u =>
    match u.lockedUntil with
    | none => (false, st)
    | some lockedUntil =>
      if now < lockedUntil then (true, st)
      else (false, st.setUser u.id fun u => { u with lockedUntil := none, failedLogins := 0 })

/-- One more failed attempt on a row; the last one that is allowed locks it. -/
def failedRow (maxAttempts : ℕ) (minutes : ℤ) (now : Time) (u : User) : User :=
  { u with
    failedLogins := u.failedLogins + 1
    lockedUntil :=
      if maxAttempts ≤ u.failedLogins + 1 then some (now + minutes * 60) else u.lockedUntil }

def recordFailure (maxAttempts : ℕ) (minutes : ℤ) (st : Accounts) (username : String)
    (now : Time) : Accounts :=
  match st.userNamed username with
  | none => st
  | some u => st.setUser u.id (failedRow maxAttempts minutes now)

def clearedRow (u : User) : User :=
  { u with failedLogins := 0, lockedUntil := none }

def clearFailures (st : Accounts) (username : String) : Accounts :=
  match st.userNamed username with
  | none => st
  | some u =>
    if u.failedLogins ≠ 0 || u.lockedUntil.isSome then st.setUser u.id clearedRow else st

/-- `MAX_FAILED_ATTEMPTS` -/
def maxFailedAttempts : ℕ := 5

/-- `LOCKOUT_DURATION_MINUTES` -/
def lockoutDurationMinutes : ℤ := 15

def checkAccountLockout : Accounts → String → Time → Bool × Accounts := checkLockout

def recordFailedAttempt : Accounts → String → Time → Accounts :=
  recordFailure maxFailedAttempts lockoutDurationMinutes

def clearFailedAttempts : Accounts → String → Accounts := clearFailures

/-- `LDAP_MAX_FAILED_ATTEMPTS` -/
def ldapMaxFailedAttempts : ℕ := 5

/-- `LDAP_LOCKOUT_MINUTES` -/
def ldapLockoutMinutes : ℤ := 15

def checkLdapLockout : Accounts → String → Time → Bool × Accounts := checkLockout

def recordLdapFailedAttempt : Accounts → String → Time → Accounts :=
  recordFailure ldapMaxFailedAttempts ldapLockoutMinutes

def clearLdapFailedAttempts : Accounts → String → Accounts := clearFailures

/-- `auth.login` once the account is known not to be locked. -/
def loginUnlocked [AccountLibrary] (c : LoginContext) (st : Accounts)
    (username password : String) : LoginAnswer :=
  match st.userNamed username with
  | none => c.refuse 401 "Invalid credentials" (recordFailedAttempt st username c.now)
  | some u =>
    if u.active && AccountLibrary.checkPasswordHash u.passwordHash password then
      { status := 200, message := "Login successful"
        accounts := clearFailedAttempts st username
        session :=
          { userId := some u.id, username := some u.username
            loginTime := some c.now, lastActivity := some c.now }
        codeFailures := c.codeFailures
        login := some u.id, verified := some u.id }
    else c.refuse 401 "Invalid credentials" (recordFailedAttempt st username c.now)

/-- `auth.login`. Whether the user has a second factor is not asked. -/
def login [AccountLibrary] (c : LoginContext) (username password : String) : LoginAnswer :=
  if username = "" ∨ password = "" then
    c.refuse 400 "Username and password required" c.accounts
  else
    match checkAccountLockout c.accounts (strip username) c.now with
    | (true, st) => c.refuse 429 "Account temporarily locked. Try again later." st
    | (false, st) => loginUnlocked c st (strip username) password

def signedInRow (now : Time) (u : User) : User :=
  { u with lastLogin := some now, loginCount := u.loginCount + 1, failedLogins := 0 }

/-- `auth_methods.login_password`. Whether the account is locked is not asked. -/
def loginPassword [AccountLibrary] (c : LoginContext) (username password : String) :
    LoginAnswer :=
  if username = "" ∨ password = "" then
    c.refuse 400 "Username and password required" c.accounts
  else
    match c.accounts.userNamed username with
    | none => c.refuse 401 "Invalid credentials" c.accounts
    | some u =>
      if u.active = false then c.refuse 401 "Invalid credentials" c.accounts
      else if AccountLibrary.checkPasswordHash u.passwordHash password = false then
        c.refuse 401 "Invalid credentials"
          (c.accounts.setUser u.id fun u => { u with failedLogins := u.failedLogins + 1 })
      else if u.totpConfirmed then
        { status := 200, message := "2FA verification required"
          accounts := c.accounts.setUser u.id (signedInRow c.now)
          session := { pending2fa := some ⟨u.id, u.username, "password"⟩ }
          codeFailures := c.codeFailures
          verified := some u.id }
      else
        { status := 200, message := "Login successful"
          accounts := c.accounts.setUser u.id (signedInRow c.now)
          session :=
            { userId := some u.id, username := some u.username, authMethod := some "password" }
          codeFailures := c.codeFailures
          login := some u.id, verified := some u.id }

/-- `_MAX_2FA_ATTEMPTS` -/
def max2faAttempts : ℕ := 5

/-- `_2FA_LOCKOUT_SECONDS` -/
def lockoutSeconds2fa : ℤ := 900

/-- `_check_2fa_lockout` -/
def check2faLockout {κ : Type*} [DecidableEq κ] (failures : κ → Option CodeFailures) (key : κ)
    (now : Time) : Bool × (κ → Option CodeFailures) :=
  match (failures key).bind CodeFailures.lockedUntil with
  | none => (false, failures)
  | some lockedUntil =>
    if now < lockedUntil then (true, failures) else (false, Function.update failures key none)

/-- `_record_2fa_failure` -/
def record2faFailure {κ : Type*} [DecidableEq κ] (failures : κ → Option CodeFailures) (key : κ)
    (now : Time) : κ → Option CodeFailures :=
  let entry := (failures key).getD {}
  Function.update failures key (some
    { count := entry.count + 1
      lockedUntil :=
        if max2faAttempts ≤ entry.count + 1 then some (now + lockoutSeconds2fa)
        else entry.lockedUntil })

inductive Recovery
  | used (remaining : String)
  | invalid
  | raised
  deriving Repr, DecidableEq

def takeRecoveryCode [AccountLibrary] (backupCodes : Option String) (code : String) : Recovery :=
  match backupCodes with
  | none => .invalid
  | some "" => .invalid
  | some stored =>
    match AccountLibrary.loads stored with
    | none => .invalid
    | some (.array codes) =>
      if codes.any (Json.isText code) then
        .used (AccountLibrary.dumps (.array (codes.eraseP (Json.isText code))))
      else .invalid
    | some (.text codes) => if occursIn code codes then .raised else .invalid
    | some (.object codes) => if codes.any (·.1 = code) then .raised else .invalid
    | some _ => .raised

/-- `auth_methods.login_2fa` -/
def login2fa [AccountLibrary] (c : LoginContext) (code : String) : LoginAnswer :=
  match c.session.pending2fa with
  | none => c.refuse 401 "No pending 2FA verification" c.accounts
  | some pending =>
    let (locked, failures) := check2faLockout c.codeFailures pending.userId c.now
    let c := { c with codeFailures := failures }
    if locked then c.refuse 429 "Too many failed attempts. Try again later." c.accounts
    else if code = "" then c.refuse 400 "Verification code required" c.accounts
    else
      let granted (u : User) (accounts : Accounts) : LoginAnswer :=
        { status := 200, message := "Login successful", accounts
          session :=
            { userId := some u.id, username := some u.username, authMethod := some pending.method }
          codeFailures := Function.update failures pending.userId none
          login := some u.id }
      match c.accounts.users.get? pending.userId with
      | none => { c.refuse 401 "Invalid credentials" c.accounts with session := {} }
      | some u =>
        if u.active = false then
          { c.refuse 401 "Invalid credentials" c.accounts with session := {} }
        else
          match u.totpSecret with
          | none => c.refuse 500 "Internal server error" c.accounts
          | some secret =>
            if AccountLibrary.totpVerify secret code 1 c.now then granted u c.accounts
            else
              match takeRecoveryCode u.backupCodes code with
              | .used remaining =>
                granted u (c.accounts.setUser u.id fun u =>
                  { u with backupCodes := some remaining })
              | .invalid =>
                { c.refuse 401 "Invalid verification code" c.accounts with
                  codeFailures := record2faFailure failures pending.userId c.now }
              | .raised => c.refuse 500 "Internal server error" c.accounts

/-- Whom `login_2fa` signs in: the active user that the session waits for, for a code that is
valid now or that the stored ones lose. -/
theorem login2fa_eq_some [AccountLibrary] {c : LoginContext} {code : String} {id : ℕ} :
    (login2fa c code).login = some id ↔
      ∃ pending u secret, c.session.pending2fa = some pending ∧
        (check2faLockout c.codeFailures pending.userId c.now).1 = false ∧ code ≠ "" ∧
        c.accounts.users.get? pending.userId = some u ∧ u.active = true ∧
        u.totpSecret = some secret ∧
        (AccountLibrary.totpVerify secret code 1 c.now = true ∨
          ∃ remaining, takeRecoveryCode u.backupCodes code = .used remaining) ∧ u.id = id := by
  constructor
  · intro h
    unfold login2fa at h
    split at h
    next => cases h
    next pending hpending =>
      cases hchecked : check2faLockout c.codeFailures pending.userId c.now with
      | mk locked failures =>
        rw [hchecked] at h
        dsimp only at h
        split_ifs at h with hlocked hcode
        · cases h
        · cases h
        · split at h
          next => cases h
          next u hu =>
            split_ifs at h with hactive
            · cases h
            · split at h
              next => cases h
              next secret hsecret =>
                have hshown : (AccountLibrary.totpVerify secret code 1 c.now = true ∨
                    ∃ remaining, takeRecoveryCode u.backupCodes code = .used remaining) ∧
                      u.id = id := by
                  split_ifs at h with htotp
                  · exact ⟨.inl htotp, Option.some.inj h⟩
                  · split at h
                    next remaining hused => exact ⟨.inr ⟨remaining, hused⟩, Option.some.inj h⟩
                    next => cases h
                    next => cases h
                exact ⟨pending, u, secret, hpending, by simpa [hchecked] using hlocked, hcode, hu,
                  by simpa using hactive, hsecret, hshown⟩
  · rintro ⟨pending, u, secret, hpending, hlocked, hcode, hu, hactive, hsecret, hshown, rfl⟩
    unfold login2fa
    rw [hpending]
    dsimp only
    rw [hlocked, if_neg Bool.false_ne_true, if_neg hcode, hu]
    dsimp only
    rw [if_neg (by rw [hactive]; decide), hsecret]
    dsimp only
    split_ifs with htotp
    · rfl
    · obtain ⟨remaining, hused⟩ := hshown.resolve_left htotp
      rw [hused]

/-- The provider that a directory login asks for, or the first one that is enabled. -/
def ldapProvider (st : Accounts) (providerId : Option ℕ) : Option SsoProvider :=
  match providerId with
  | some id => st.providers.get? id
  | none => st.providers.first fun p => p.providerType = .ldap && p.enabled

/-- `sso.ldap_login` once the account is known not to be locked. -/
def ldapLoginUnlocked (d : LdapDirectory) (c : LoginContext) (st : Accounts)
    (username password : String) (providerId : Option ℕ) : LoginAnswer :=
  match ldapProvider st providerId with
  | none => c.refuse 400 "No LDAP provider configured" st
  | some p =>
    if p.enabled = false then c.refuse 400 "LDAP provider is disabled" st
    else
      match ldapAuthenticateUser d p username password with
      | .error _ =>
        c.refuse 401 "Invalid credentials" (recordLdapFailedAttempt st username c.now)
      | .ok info =>
        match getOrCreateSsoUser st p info.username info.email info.fullname
            (ldapExternalData info) c.now with
        | .refused _ =>
          c.refuse 403 ("User not found and automatic account creation is disabled. " ++
            "Contact your administrator.") st
        | .raised _ => c.refuse 500 "Internal server error" st
        | .user id st' =>
          let answer := signIn (clearLdapFailedAttempts st' username) c.session id p.id
            (some info.dn) "ldap" c.now
          { status := 200, message := "LDAP authentication successful"
            accounts := answer.accounts, session := answer.session
            codeFailures := c.codeFailures
            login := some id, verified := some id }

/-- `sso.ldap_login` -/
def ldapLogin (d : LdapDirectory) (c : LoginContext) (username password : String)
    (providerId : Option ℕ) : LoginAnswer :=
  if username = "" ∨ password = "" then
    c.refuse 400 "Username and password required" c.accounts
  else
    match checkLdapLockout c.accounts username c.now with
    | (true, st) =>
      c.refuse 429 "Account temporarily locked due to too many failed attempts" st
    | (false, st) => ldapLoginUnlocked d c st username password providerId

end Login

/-- A request to one of the routes that password logins go through. -/
inductive LoginRoute
  | login (username password : String)
  | loginPassword (username password : String)
  | login2fa (code : String)
  | ldapLogin (d : LdapDirectory) (username password : String) (providerId : Option ℕ)

/-- A request, some time after the last one, from the browser with a cookie. -/
structure LoginRequest where
  elapsed : ℕ
  cookie : String
  route : LoginRoute

/-- The accounts, the sessions by cookie, the failed codes and the time. -/
structure LoginState where
  accounts : Accounts
  sessions : String → BrowserSession := fun _ => {}
  codeFailures : ℕ → Option CodeFailures := fun _ => none
  now : Time := 0

namespace LoginState

variable [AccountLibrary] (s : LoginState)

def context (r : LoginRequest) : LoginContext :=
  ⟨s.accounts, s.sessions r.cookie, s.codeFailures, s.now + r.elapsed⟩

def answer (r : LoginRequest) : LoginAnswer :=
  match r.route with
  | .login username password => Login.login (s.context r) username password
  | .loginPassword username password => Login.loginPassword (s.context r) username password
  | .login2fa code => Login.login2fa (s.context r) code
  | .ldapLogin d username password providerId =>
    Login.ldapLogin d (s.context r) username password providerId

def serve (r : LoginRequest) : LoginState :=
  let a := s.answer r
  { accounts := a.accounts, sessions := Function.update s.sessions r.cookie a.session
    codeFailures := a.codeFailures, now := s.now + r.elapsed }

end LoginState

end CaManager
