import CaManager.Library.Json
import CaManager.Library.Tables
import CaManager.Library.Texts
import CaManager.X509

/-!
# The rows of accounts and sign-on

Users, sign-on providers, sign-on sessions and enrolled client certificates, with the
columns that signing in, and administering who may, read or write. A browser's session is
kept on the server under the key in its cookie.
-/

namespace CaManager

open Library

structure User where
  id : ℕ := 0
  username : String
  email : String
  passwordHash : String
  fullName : Option String := none
  role : String := "viewer"
  customRoleId : Option ℕ := none
  active : Bool := true
  totpSecret : Option String := none
  totpConfirmed : Bool := false
  backupCodes : Option String := none
  forcePasswordChange : Bool := false
  lastLogin : Option Time := none
  loginCount : ℕ := 0
  failedLogins : ℕ := 0
  lockedUntil : Option Time := none
  deriving Repr, DecidableEq

inductive ProviderType
  | saml
  | oauth2
  | ldap
  deriving Repr, DecidableEq

/-- A sign-on provider. Its two mappings are JSON columns. -/
structure SsoProvider where
  id : ℕ := 0
  name : String
  providerType : ProviderType
  enabled : Bool := false
  ldapBindDn : Option String := none
  ldapBaseDn : String := ""
  ldapUserFilter : String := "(uid=\x7busername\x7d)"
  ldapGroupFilter : Option String := none
  ldapUsernameAttr : String := "uid"
  ldapEmailAttr : String := "mail"
  ldapFullnameAttr : String := "cn"
  ldapGroupMemberAttr : Option String := some "member"
  attributeMapping : JsonText := .empty
  roleMapping : JsonText := .empty
  defaultRole : Option String := some "viewer"
  autoCreateUsers : Bool := true
  autoUpdateUsers : Bool := true

structure SsoSession where
  id : ℕ := 0
  userId : ℕ
  providerId : ℕ
  sessionId : Option String
  ssoNameId : Option String
  expiresAt : Time
  deriving Repr, DecidableEq

structure AuthCertificate where
  id : ℕ := 0
  userId : ℕ
  certSerial : String
  certSubject : String
  certIssuer : Option String := none
  certFingerprint : Option String := none
  certPem : Option X509 := none
  name : Option String := none
  enabled : Bool := true
  validFrom : Option Time := none
  validUntil : Option Time := none
  lastUsedAt : Option Time := none
  deriving Repr, DecidableEq

instance : Keyed User := ⟨User.id, fun k u => { u with id := k }, fun _ _ => rfl, fun _ => rfl⟩

instance : Keyed SsoProvider :=
  ⟨SsoProvider.id, fun k p => { p with id := k }, fun _ _ => rfl, fun _ => rfl⟩

instance : Keyed SsoSession :=
  ⟨SsoSession.id, fun k s => { s with id := k }, fun _ _ => rfl, fun _ => rfl⟩

instance : Keyed AuthCertificate :=
  ⟨AuthCertificate.id, fun k c => { c with id := k }, fun _ _ => rfl, fun _ => rfl⟩

@[simp] theorem key_user (u : User) : Keyed.key u = u.id := rfl

@[simp] theorem withKey_user (k : ℕ) (u : User) : Keyed.withKey k u = { u with id := k } := rfl

@[simp] theorem key_authCertificate (c : AuthCertificate) : Keyed.key c = c.id := rfl

@[simp] theorem withKey_authCertificate (k : ℕ) (c : AuthCertificate) :
    Keyed.withKey k c = { c with id := k } := rfl

/-- The tables of accounts and sign-on, and the settings by key. -/
structure Accounts where
  users : Table User := ∅
  providers : Table SsoProvider := ∅
  ssoSessions : Table SsoSession := ∅
  authCertificates : Table AuthCertificate := ∅
  settings : String → Option String := fun _ => none

structure Pending2fa where
  userId : ℕ
  username : String
  method : String
  deriving Repr, DecidableEq

/-- A browser's session on the server. Its times are read back as they were written. -/
structure BrowserSession where
  userId : Option ℕ := none
  username : Option String := none
  authMethod : Option String := none
  loginTime : Option Time := none
  lastActivity : Option Time := none
  pending2fa : Option Pending2fa := none
  ssoState : Option String := none
  deriving Repr, DecidableEq

namespace Accounts

variable (st : Accounts)

/-- `User.query.filter_by(username=…).first()` -/
def userNamed (username : String) : Option User :=
  st.users.first fun u => u.username = username

def setUser (id : ℕ) (f : User → User) : Accounts :=
  { st with users := st.users.update id f }

def emailTaken (id : ℕ) (email : String) : Bool :=
  (st.users.first fun u => u.email = email && u.id ≠ id).isSome

def addUser (u : User) : Option Accounts :=
  if (st.userNamed u.username).isSome || (st.users.first fun v => v.email = u.email).isSome then
    none
  else some { st with users := st.users.insert u }

section Lookup

variable {st}

theorem username_of_userNamed {username : String} {u : User}
    (h : st.userNamed username = some u) : u.username = username := by
  simpa using Table.holds_of_first h

theorem mem_of_userNamed {username : String} {u : User} (h : st.userNamed username = some u) :
    u ∈ st.users :=
  Table.mem_of_first h

theorem userNamed_setUser {id : ℕ} {f : User → User} (hf : ∀ u, (f u).username = u.username)
    (username : String) :
    (st.setUser id f).userNamed username =
      (st.userNamed username).map fun u => if u.id = id then { f u with id } else u := by
  refine Table.first_update fun u => ?_
  rw [withKey_user, hf]

theorem addUser_eq_some {u : User} {st' : Accounts} (h : st.addUser u = some st') :
    st.userNamed u.username = none ∧ st' = { st with users := st.users.insert u } := by
  unfold addUser at h
  split_ifs at h with htaken
  rw [Bool.or_eq_true, not_or, Bool.not_eq_true, Option.isSome_eq_false_iff,
    Option.isNone_iff_eq_none] at htaken
  exact ⟨htaken.1, (Option.some.inj h).symm⟩

theorem userNamed_addUser {u : User} {st' : Accounts} (h : st.addUser u = some st')
    (username : String) :
    st'.userNamed username =
      if u.username = username then some { u with id := st.users.nextKey }
      else st.userNamed username := by
  obtain ⟨hfree, rfl⟩ := addUser_eq_some h
  have hinsert : ({ st with users := st.users.insert u } : Accounts).userNamed username =
      (st.userNamed username).or
        (if u.username = username then some { u with id := st.users.nextKey } else none) := by
    unfold userNamed
    rw [Table.first_insert]
    by_cases hname : u.username = username
    · simp [hname]
    · simp [hname]
  rw [hinsert]
  split_ifs with hname
  · rw [← hname, hfree, Option.none_or]
  · rw [Option.or_none]

end Lookup

end Accounts

end CaManager
