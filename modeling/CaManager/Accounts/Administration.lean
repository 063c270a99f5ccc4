import CaManager.Library.Fallible
import CaManager.Sso.Users

/-!
# Administering users

The routes by which users are created, changed and deactivated, the settings for client
certificates, and the deletion of enrolled ones. A request is served in two steps: the check
reads what it needs and decides what to write, and the commit writes it, whatever other
requests have committed in between. A commit writes the columns that the request changed.
-/

namespace CaManager

open Library Sso

/-- The strength of passwords, as the first error that is found, and their hashes. -/
class PasswordLibrary where
  validatePassword : String → Option String → Option String
  generatePasswordHash : String → String

/-- How a request shows who sends it: a session, or a key with permissions of its own. -/
inductive Credential
  | session (userId : ℕ)
  | apiKey (userId : ℕ) (permissions : List String)

structure Refusal where
  status : ℕ
  message : String
  deriving Repr, DecidableEq

namespace Administration

/-- `ROLE_PERMISSIONS` -/
def rolePermissions (role : String) : List String :=
  match role with
  | "admin" => ["*"]
  | "operator" =>
    ["read:certificates", "write:certificates",
     "read:user_certificates", "write:user_certificates", "delete:user_certificates",
     "read:cas", "write:cas", "read:csrs", "write:csrs", "delete:csrs", "read:templates",
     "read:truststore", "write:truststore", "read:crl", "write:crl", "read:acme", "write:acme",
     "read:scep", "read:est", "read:hsm", "read:policies", "read:approvals", "write:approvals",
     "read:audit", "read:settings", "write:settings", "read:groups", "write:groups"]
  | "auditor" =>
    ["read:certificates", "read:user_certificates", "read:cas", "read:csrs", "read:templates",
     "read:truststore", "read:crl", "read:acme", "read:scep", "read:est", "read:hsm",
     "read:policies", "read:approvals", "read:audit", "read:groups"]
  | "viewer" =>
    ["read:certificates", "read:user_certificates", "read:cas", "read:csrs", "read:templates",
     "read:truststore"]
  | _ => []

def hasPermission (required : String) (permissions : List String) : Bool :=
  "*" ∈ permissions || required ∈ permissions ||
    (':' ∈ required.toList && ((splitText ':' required).headD "" ++ ":*") ∈ permissions)

/-- The user that a request comes from. Only a session asks whether the user is active. -/
def authenticate (st : Accounts) : Credential → Option (User × List String)
  | .session userId =>
    ((st.users.get? userId).filter User.active).map fun u => (u, rolePermissions u.role)
  | .apiKey userId permissions => (st.users.get? userId).map fun u => (u, permissions)

/-- `require_auth` -/
def requireAuth (st : Accounts) (c : Credential) (permission : Option String) :
    Except Refusal User := do
  let (u, permissions) ← orThrow (authenticate st c) ⟨401, "Authentication required"⟩
  match permission with
  | some p => ensure (hasPermission p permissions = true) ⟨403, "Missing permission: " ++ p⟩
  | none => pure ()
  return u

inductive Write
  | insertUser (u : User)
  | updateUser (loaded changed : User)
  | settings (changes : String → Option String)
  | deleteCertificate (id : ℕ)

/-- The columns that were changed since the row was loaded, written into the row. -/
def changedColumns (loaded changed u : User) : User :=
  { u with
    email := if changed.email = loaded.email then u.email else changed.email
    passwordHash :=
      if changed.passwordHash = loaded.passwordHash then u.passwordHash else changed.passwordHash
    fullName := if changed.fullName = loaded.fullName then u.fullName else changed.fullName
    role := if changed.role = loaded.role then u.role else changed.role
    customRoleId :=
      if changed.customRoleId = loaded.customRoleId then u.customRoleId else changed.customRoleId
    active := if changed.active = loaded.active then u.active else changed.active
    lastLogin := if changed.lastLogin = loaded.lastLogin then u.lastLogin else changed.lastLogin }

/-- Does the database refuse to write the row, because its address is that of another user? -/
def rejects (st : Accounts) (loaded changed : User) : Bool :=
  changed.email ≠ loaded.email && st.emailTaken loaded.id changed.email

def Write.commit (st : Accounts) : Write → Accounts
  | .insertUser u => (st.addUser u).getD st
  | .updateUser loaded changed =>
    if rejects st loaded changed then st else st.setUser loaded.id (changedColumns loaded changed)
  | .settings changes => { st with settings := fun key => (changes key).or (st.settings key) }
  | .deleteCertificate id => { st with authCertificates := st.authCertificates.delete id }

/-- A request between its steps. `checking` is a bulk deletion whose next user is to be
checked, `committing` has something to write. -/
inductive Thread
  | idle
  | checking (actor : ℕ) (ids : List ℕ)
  | committing (w : Write) (actor : ℕ) (ids : List ℕ)

inductive CustomRoleField
  | absent
  | cleared
  | notANumber
  | role (id : ℕ)
  deriving Repr, DecidableEq

structure NewUser where
  username : String
  email : String
  password : String
  fullName : String := ""
  role : String := "viewer"
  customRole : CustomRoleField := .absent
  active : Bool := true
  deriving Repr, DecidableEq

structure UserChanges where
  email : Option String := none
  fullName : Option String := none
  role : Option String := none
  customRole : CustomRoleField := .absent
  active : Option Bool := none
  password : Option String := none
  deriving Repr, DecidableEq

structure MtlsSettings where
  enabled : Option Bool := none
  required : Option Bool := none
  trustedCaId : Option String := none
  deriving Repr, DecidableEq

/-- The requests that decide who administers, with the sign-ons that update roles. -/
inductive Request
  | createUser (c : Credential) (data : NewUser)
  | updateUser (c : Credential) (userId : ℕ) (data : UserChanges)
  | deleteUser (c : Credential) (userId : ℕ)
  | toggleUserStatus (c : Credential) (userId : ℕ)
  | bulkDeleteUsers (c : Credential) (ids : List ℕ)
  | updateMtlsSettings (c : Credential) (data : Option MtlsSettings)
  | deleteMtlsCertificate (c : Credential) (certId : ℕ)
  | deleteUserMtlsCertificate (c : Credential) (userId certId : ℕ)
  | ssoLogin (p : SsoProvider) (username email fullname : String) (externalData : Members)

/-- The accounts, what else the checks read, the time, and the requests in progress. -/
structure State where
  accounts : Accounts
  customRoles : List ℕ := []
  caRefids : List String := []
  now : Time := 0
  threads : ℕ → Thread := fun _ => .idle

section Routes

variable (s : State)

def invalidRole : Refusal :=
  ⟨400, "Invalid role. Must be one of: " ++ ", ".intercalate validRoles⟩

def createUser [PasswordLibrary] (g : User) (data : NewUser) : Except Refusal Write := do
  ensure (g.role = "admin") ⟨403, "Insufficient permissions"⟩
  ensure (data.username ≠ "") ⟨400, "Username is required"⟩
  ensure (data.email ≠ "") ⟨400, "Email is required"⟩
  ensure (data.password ≠ "") ⟨400, "Password is required"⟩
  match PasswordLibrary.validatePassword data.password (some data.username) with
  | some message => throw ⟨400, message⟩
  | none => pure ()
  ensure (s.accounts.userNamed data.username = none) ⟨409, "Username already exists"⟩
  ensure (s.accounts.users.first (fun u => u.email = data.email) = none)
    ⟨409, "Email already exists"⟩
  ensure (data.role ∈ validRoles) invalidRole
  ensure (data.role = "viewer" ∨ g.role = "admin") ⟨403, "Only admins can assign elevated roles"⟩
  let customRoleId ←
    match data.customRole with
    | .role id => do
      ensure (g.role = "admin") ⟨403, "Only admins can assign custom roles"⟩
      ensure (id ∈ s.customRoles) ⟨404, "Custom role not found"⟩
      pure (some id)
    | _ => pure none
  return .insertUser
    { username := data.username, email := data.email
      passwordHash := PasswordLibrary.generatePasswordHash data.password
      fullName := some data.fullName, role := data.role, customRoleId, active := data.active }

def updateUser [PasswordLibrary] (g : User) (userId : ℕ) (data : UserChanges) :
    Except Refusal Write := do
  ensure (g.role = "admin" ∨ g.id = userId) ⟨403, "Access denied"⟩
  let u ← orThrow (s.accounts.users.get? userId) ⟨404, "User not found"⟩
  ensure (∀ email ∈ data.email, s.accounts.emailTaken userId email = false)
    ⟨409, "Email already in use"⟩
  ensure (data.role = none ∨ g.role = "admin") ⟨403, "Only admins can change roles"⟩
  ensure (∀ role ∈ data.role, role ∈ validRoles) invalidRole
  ensure (data.customRole = .absent ∨ g.role = "admin")
    ⟨403, "Only admins can assign custom roles"⟩
  let customRoleId ←
    match data.customRole with
    | .absent => pure u.customRoleId
    | .cleared => pure none
    | .notANumber => throw ⟨400, "Invalid custom role ID"⟩
    | .role id => do
      ensure (id ∈ s.customRoles) ⟨404, "Custom role not found"⟩
      pure (some id)
  ensure (data.active = none ∨ g.role = "admin") ⟨403, "Only admins can change active status"⟩
  let passwordHash ←
    match data.password.filter (· ≠ "") with
    | none => pure u.passwordHash
    | some password =>
      match PasswordLibrary.validatePassword password none with
      | some message => throw ⟨400, message⟩
      | none => pure (PasswordLibrary.generatePasswordHash password)
  return .updateUser u
    { u with
      email := data.email.getD u.email, fullName := data.fullName.or u.fullName
      role := data.role.getD u.role, customRoleId, active := data.active.getD u.active
      passwordHash }

def deleteUser (g : User) (userId : ℕ) : Except Refusal Write := do
  ensure (g.role = "admin") ⟨403, "Insufficient permissions"⟩
  ensure (g.id ≠ userId) ⟨403, "Cannot delete your own account"⟩
  let u ← orThrow (s.accounts.users.get? userId) ⟨404, "User not found"⟩
  return .updateUser u { u with active := false }

def toggleUserStatus (g : User) (userId : ℕ) : Except Refusal Write := do
  ensure (g.role = "admin") ⟨403, "Insufficient permissions"⟩
  ensure (g.id ≠ userId) ⟨403, "Cannot toggle your own account status"⟩
  let u ← orThrow (s.accounts.users.get? userId) ⟨404, "User not found"⟩
  return .updateUser u { u with active := !u.active }

def bulkDeleteUsers (g : User) (ids : List ℕ) : Except Refusal Thread := do
  ensure (g.role = "admin") ⟨403, "Insufficient permissions"⟩
  ensure (ids ≠ []) ⟨400, "ids array required"⟩
  return .checking g.id ids

def bulkDeleteNext (actor id : ℕ) (ids : List ℕ) : Thread :=
  if actor = id then .checking actor ids
  else
    match s.accounts.users.get? id with
    | none => .checking actor ids
    | some u => .committing (.updateUser u { u with active := false }) actor ids

/-- The enabled certificates of active administrators, whether expired or not. -/
def adminCertificates : List AuthCertificate :=
  let adminIds := (s.accounts.users.select fun u => u.role = "admin" && u.active).map User.id
  s.accounts.authCertificates.select fun c => c.userId ∈ adminIds && c.enabled

def flagText (flag : Bool) : String := if flag then "true" else "false"

/-- `_set_mtls_config`: a value that is the stored one is not written. -/
def changedSetting (key : String) (value : Option String) : Option String :=
  value.filter fun value => s.accounts.settings key ≠ some value

def updateMtlsSettings (data : Option MtlsSettings) : Except Refusal Write := do
  let data ← orThrow data ⟨400, "No data provided"⟩
  ensure (data.enabled = some true → ∀ caId ∈ data.trustedCaId, caId ≠ "" → caId ∈ s.caRefids)
    ⟨404, "Trusted CA not found"⟩
  ensure (data.required = some true → data.enabled = some true → adminCertificates s ≠ [])
    ⟨400, "Cannot require mTLS: no admin user has an enrolled certificate. " ++
      "Enroll at least one admin certificate first."⟩
  return .settings fun key =>
    match key with
    | "mtls_enabled" => changedSetting s key (data.enabled.map flagText)
    | "mtls_required" => changedSetting s key (data.required.map flagText)
    | "mtls_trusted_ca_id" => changedSetting s key data.trustedCaId
    | _ => none

def deleteMtlsCertificate (g : User) (certId : ℕ) : Except Refusal Write := do
  let c ← orThrow (s.accounts.authCertificates.get? certId) ⟨404, "Certificate not found"⟩
  ensure (c.userId = g.id ∨ g.role = "admin") ⟨403, "Not authorized"⟩
  return .deleteCertificate certId

def deleteUserMtlsCertificate (userId certId : ℕ) : Except Refusal Write := do
  let _ ← orThrow (s.accounts.users.get? userId) ⟨404, "User not found"⟩
  let _ ← orThrow ((s.accounts.authCertificates.get? certId).filter (·.userId = userId))
    ⟨404, "Certificate not found"⟩
  return .deleteCertificate certId

/-- `_get_or_create_sso_user` up to its commit; a login that raises updates no role. -/
def ssoLogin (p : SsoProvider) (username email fullname : String) (externalData : Members) :
    Option Write :=
  match s.accounts.userNamed username with
  | some u =>
    if p.autoUpdateUsers then
      (resolveRole p externalData).map fun role =>
        .updateUser u { withContact email fullname u with role, lastLogin := some s.now }
    else none
  | none =>
    if p.autoCreateUsers then
      (resolveRole p externalData).map fun role =>
        .insertUser (createdUser username email fullname role s.now)
    else none

def check [PasswordLibrary] : Request → Except Refusal Thread
  | .createUser c data => do
    let g ← requireAuth s.accounts c (some "write:users")
    return .committing (← createUser s g data) g.id []
  | .updateUser c userId data => do
    let g ← requireAuth s.accounts c (some "write:users")
    return .committing (← updateUser s g userId data) g.id []
  | .deleteUser c userId => do
    let g ← requireAuth s.accounts c (some "delete:users")
    return .committing (← deleteUser s g userId) g.id []
  | .toggleUserStatus c userId => do
    let g ← requireAuth s.accounts c (some "write:users")
    return .committing (← toggleUserStatus s g userId) g.id []
  | .bulkDeleteUsers c ids => do
    let g ← requireAuth s.accounts c (some "delete:users")
    bulkDeleteUsers g ids
  | .updateMtlsSettings c data => do
    let g ← requireAuth s.accounts c (some "admin:system")
    return .committing (← updateMtlsSettings s data) g.id []
  | .deleteMtlsCertificate c certId => do
    let g ← requireAuth s.accounts c none
    return .committing (← deleteMtlsCertificate s g certId) g.id []
  | .deleteUserMtlsCertificate c userId certId => do
    let g ← requireAuth s.accounts c (some "admin:users")
    return .committing (← deleteUserMtlsCertificate s userId certId) g.id []
  | .ssoLogin p username email fullname externalData =>
    match ssoLogin s p username email fullname externalData with
    | some w => .ok (.committing w 0 [])
    | none => .ok .idle

end Routes

/-- A request arrives and is checked, a request in progress takes its next step, or time
passes. -/
inductive Event
  | begin (k : ℕ) (r : Request)
  | proceed (k : ℕ)
  | elapse (seconds : ℕ)

def proceed (s : State) : Thread → Thread × Accounts
  | .idle => (.idle, s.accounts)
  | .checking _ [] => (.idle, s.accounts)
  | .checking actor (id :: ids) => (bulkDeleteNext s actor id ids, s.accounts)
  | .committing w actor ids => (.checking actor ids, w.commit s.accounts)

def step [PasswordLibrary] (s : State) : Event → State
  | .begin k r =>
    { s with threads := Function.update s.threads k ((check s r).toOption.getD .idle) }
  | .proceed k =>
    { s with
      accounts := (proceed s (s.threads k)).2
      threads := Function.update s.threads k (proceed s (s.threads k)).1 }
  | .elapse seconds => { s with now := s.now + seconds }

end Administration

end CaManager
