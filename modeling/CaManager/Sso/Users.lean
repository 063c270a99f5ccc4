import CaManager.Accounts.Rows

/-!
# Users from a sign-on provider

How a sign-on finds, updates or creates its user, and which role the provider's mapping
gives. The data that a provider asserts is a dictionary; the resolver reads its `roles`, or
else its `groups`. A result of `none` stands for an exception.
-/

namespace CaManager

open Library

namespace Sso

/-- `VALID_ROLES` -/
def validRoles : List String := ["admin", "operator", "auditor", "viewer"]

def knownRole (role : String) : String :=
  if role ∈ validRoles then role else "viewer"

def parseJsonField : JsonText → Members
  | .value (.object members) => members
  | .quoted (.value (.object members)) => members
  | _ => []

/-- `external_data.get('roles', external_data.get('groups', []))`, a text as a list of one. -/
def externalRoles (externalData : Members) : Json :=
  match (externalData.lookup "roles").or (externalData.lookup "groups") with
  | some (.text role) => .array [.text role]
  | some roles => roles
  | none => .array []

/-- The role of a mapping entry. Only a hashable value can be looked for among the roles. -/
def mappedRole (role : Json) : Option String :=
  if role.hashable then some (knownRole (role.text?.getD "viewer")) else none

def fallbackRole (p : SsoProvider) : String :=
  knownRole (p.defaultRole.getD "viewer")

def resolveRole (p : SsoProvider) (externalData : Members) : Option String :=
  let mapping := parseJsonField p.roleMapping
  if mapping.isEmpty then some (fallbackRole p)
  else
    match (externalRoles externalData).names with
    | none => none
    | some names =>
      match mapping.find? fun entry => entry.1 ∈ names with
      | some entry => mappedRole entry.2
      | none => some (fallbackRole p)

/-- What looking up or making the user gives. An exception leaves what was changed so far
uncommitted. -/
inductive UserResult
  | user (id : ℕ) (st : Accounts)
  | refused (code : String)
  | raised (pending : Accounts)

def withContact (email fullname : String) (u : User) : User :=
  { u with
    email := if email = "" then u.email else email
    fullName := if fullname = "" then u.fullName else some fullname }

def createdUser (username email fullname role : String) (now : Time) : User :=
  { username, email := if email = "" then username ++ "@sso.local" else email
    passwordHash := ""
    fullName := some (if fullname = "" then username else fullname)
    role, active := true, lastLogin := some now }

/-- `_get_or_create_sso_user`. Whether the user is active is not asked. -/
def getOrCreateSsoUser (st : Accounts) (p : SsoProvider)
    (username email fullname : String) (externalData : Members) (now : Time) : UserResult :=
  match st.userNamed username with
  | some u =>
    if p.autoUpdateUsers then
      if email ≠ "" && st.emailTaken u.id email then .raised st
      else
        match resolveRole p externalData with
        | some role =>
          .user u.id (st.setUser u.id fun u =>
            { withContact email fullname u with role, lastLogin := some now })
        | none => .raised (st.setUser u.id (withContact email fullname))
    else .user u.id st
  | none =>
    if p.autoCreateUsers then
      match resolveRole p externalData with
      | some role =>
        match st.addUser (createdUser username email fullname role now) with
        | some st' => .user st.users.nextKey st'
        | none => .raised st
      | none => .raised st
    else .refused "auto_create_disabled"

section Results

variable {st st' : Accounts} {p : SsoProvider} {username email fullname : String}
  {externalData : Members} {now : Time}

theorem username_of_getOrCreateSsoUser {id : ℕ}
    (h : getOrCreateSsoUser st p username email fullname externalData now = .user id st') :
    ∃ u, st'.users.get? id = some u ∧ u.username = username := by
  unfold getOrCreateSsoUser at h
  split at h
  next u hu =>
    have hname := Accounts.username_of_userNamed hu
    have hget : st.users.get? u.id = some u :=
      Table.get?_eq_some_iff.mpr ⟨Accounts.mem_of_userNamed hu, rfl⟩
    split_ifs at h
    · split at h
      next role hrole =>
        cases h
        exact ⟨_, Table.get?_update_self hget, hname⟩
      next => cases h
    · cases h
      exact ⟨u, hget, hname⟩
  next =>
    split_ifs at h
    · split at h
      next role hrole =>
        split at h
        next st'' hadd =>
          cases h
          obtain ⟨-, rfl⟩ := Accounts.addUser_eq_some hadd
          exact ⟨_, Table.get?_insert_nextKey, rfl⟩
        next => cases h
      next => cases h

/-- A user comes out of a sign-on when the address is free, the role resolves, and a user
that is not there may be made. -/
def Admits (st : Accounts) (p : SsoProvider) (username email fullname : String)
    (externalData : Members) (now : Time) : Prop :=
  match st.userNamed username with
  | some u =>
    p.autoUpdateUsers = false ∨
      (email = "" ∨ st.emailTaken u.id email = false) ∧ (resolveRole p externalData).isSome = true
  | none =>
    p.autoCreateUsers = true ∧ ∃ role, resolveRole p externalData = some role ∧
      (st.addUser (createdUser username email fullname role now)).isSome = true

theorem admits_iff :
    Admits st p username email fullname externalData now ↔
      ∃ id st', getOrCreateSsoUser st p username email fullname externalData now = .user id st' := by
  unfold Admits getOrCreateSsoUser
  cases hu : st.userNamed username with
  | some u =>
    dsimp only
    by_cases hupdate : p.autoUpdateUsers
    · rw [if_pos hupdate, hupdate]
      by_cases hemail : (email ≠ "" && st.emailTaken u.id email) = true
      · rw [if_pos hemail]
        simp only [Bool.and_eq_true, decide_eq_true_eq] at hemail
        simp [hemail.1, hemail.2]
      · rw [if_neg hemail]
        simp only [Bool.and_eq_true, decide_eq_true_eq, not_and, Bool.not_eq_true] at hemail
        have hfree : email = "" ∨ st.emailTaken u.id email = false := by
          rcases eq_or_ne email "" with h | h
          · exact .inl h
          · exact .inr (hemail h)
        cases hrole : resolveRole p externalData with
        | some role => simp [hfree]
        | none => simp
    · rw [if_neg hupdate]
      simp [Bool.not_eq_true _ ▸ hupdate]
  | none =>
    dsimp only
    by_cases hcreate : p.autoCreateUsers
    · rw [if_pos hcreate]
      cases hrole : resolveRole p externalData with
      | some role =>
        cases hadd : st.addUser (createdUser username email fullname role now) with
        | some st' => simp [hcreate, hadd]
        | none => simp [hadd]
      | none => simp
    · simp [hcreate]

end Results

end Sso

end CaManager

/-!
# Directory sign-on

How the program asks a directory about a user: it binds as a service account, looks the user
up, binds as the user to check the password, and collects the user's groups, either from the
names of groups on the user's entry or by a search for groups with that member. The mapping
test repeats the lookup without the password. The directory is a parameter.
-/

namespace CaManager

open Library

structure LdapEntry where
  dn : String
  attributes : List (String × List String)
  deriving Repr, DecidableEq

def LdapEntry.attribute? (e : LdapEntry) (name : String) : Option (List String) :=
  e.attributes.lookup name

/-- A directory as its client library shows it; an answer of `none` is an exception. -/
structure LdapDirectory where
  serviceBinds : Bool
  userBinds : String → String → Option Bool
  search : String → String → List String → Option (List LdapEntry)
  escapeFilterChars : String → String
  attributeText : List String → String

namespace Sso

/-- What a directory says about a user who could bind. -/
structure LdapUserInfo where
  dn : String
  username : String
  email : String
  fullname : String
  groups : List String
  deriving Repr, DecidableEq

def userFilter (d : LdapDirectory) (p : SsoProvider) (username : String) : String :=
  p.ldapUserFilter.replace "\x7busername\x7d" (d.escapeFilterChars username)

def dnFilter (d : LdapDirectory) (userDn : String) : String :=
  "(distinguishedName=" ++ d.escapeFilterChars userDn ++ ")"

def memberAttr (p : SsoProvider) : String :=
  lower (strip (((p.ldapGroupMemberAttr.filter (· ≠ "")).getD "member")))

/-- The part of a text after `CN=` at its start. -/
def afterCn (part : String) : Option String :=
  match part.toList with
  | c :: n :: '=' :: rest =>
    if c.toUpper = 'C' && n.toUpper = 'N' then some (String.ofList rest) else none
  | _ => none

/-- The common name that splitting a distinguished name at its commas finds first. -/
def splitCommonName (dn : String) : Option String :=
  ((splitText ',' dn).map strip).findSome? afterCn

/-- The group names read from the `memberOf` values of an entry. -/
def memberOfNames (e : LdapEntry) : List String :=
  ((e.attribute? "memberOf").getD []).filterMap splitCommonName

def groupBase (p : SsoProvider) : String :=
  let rest := ",".intercalate ((splitText ',' p.ldapBaseDn).drop 1)
  if rest = "" then p.ldapBaseDn else rest

def groupFilter (d : LdapDirectory) (p : SsoProvider) (filter userDn : String) : String :=
  let filter := strip filter
  let filter := if filter.toList.head? = some '(' then filter else "(" ++ filter ++ ")"
  "(&" ++ filter ++ "(" ++ memberAttr p ++ "=" ++ d.escapeFilterChars userDn ++ "))"

def foundNames (d : LdapDirectory) (entries : List LdapEntry) : List String :=
  entries.filterMap fun e => (e.attribute? "cn").map d.attributeText

def memberOfGroups (d : LdapDirectory) (p : SsoProvider) (username userDn : String) :
    Option (List String) := do
  guard d.serviceBinds
  let byDn ← d.search p.ldapBaseDn (dnFilter d userDn) ["memberOf"]
  let entries ←
    if byDn.isEmpty then d.search p.ldapBaseDn (userFilter d p username) ["memberOf"]
    else some byDn
  return (entries.head?.map memberOfNames).getD []

/-- The groups of a user, by a search for groups that have the user as a member. -/
def searchedGroups (d : LdapDirectory) (p : SsoProvider) (filter userDn : String) :
    Option (List String) := do
  guard d.serviceBinds
  let entries ← d.search (groupBase p) (groupFilter d p filter userDn) ["cn"]
  return foundNames d entries

/-- The groups a sign-on goes by. Without a group filter there are none, and so when the
directory raises. -/
def signOnGroups (d : LdapDirectory) (p : SsoProvider) (username userDn : String) :
    List String :=
  match p.ldapGroupFilter.filter (· ≠ "") with
  | none => []
  | some filter =>
    (if memberAttr p = "memberof" then memberOfGroups d p username userDn
      else searchedGroups d p filter userDn).getD []

def entryText (d : LdapDirectory) (e : LdapEntry) (name default : String) : String :=
  ((e.attribute? name).map d.attributeText).getD default

/-- `_ldap_authenticate_user`: the user's data, or the message of a refusal. -/
def ldapAuthenticateUser (d : LdapDirectory) (p : SsoProvider) (username password : String) :
    Except String LdapUserInfo := do
  if d.serviceBinds = false then throw "LDAP authentication failed"
  match d.search p.ldapBaseDn (userFilter d p username)
      [p.ldapUsernameAttr, p.ldapEmailAttr, p.ldapFullnameAttr] with
  | none => throw "LDAP authentication failed"
  | some [] => throw "Invalid credentials"
  | some (entry :: _) =>
    match d.userBinds entry.dn password with
    | none => throw "LDAP authentication failed"
    | some false => throw "Invalid credentials"
    | some true =>
      return { dn := entry.dn
               username := entryText d entry p.ldapUsernameAttr username
               email := entryText d entry p.ldapEmailAttr ""
               fullname := entryText d entry p.ldapFullnameAttr ""
               groups := signOnGroups d p username entry.dn }

def ldapExternalData (info : LdapUserInfo) : Members :=
  [("dn", .text info.dn), ("username", .text info.username), ("email", .text info.email),
   ("fullname", .text info.fullname), ("groups", .array (info.groups.map .text))]

inductive MappingTest
  | refused (message : String)
  | notFound (username : String)
  | failed
  | resolved (userDn : String) (groups : List String) (role : String)
  deriving Repr, DecidableEq

/-- The groups that the mapping test reads, on the connection that found the entry. -/
def testGroups (d : LdapDirectory) (p : SsoProvider) (entry : LdapEntry) :
    Option (List String) :=
  match p.ldapGroupFilter.filter (· ≠ "") with
  | none => some []
  | some filter =>
    if memberAttr p = "memberof" then
      if (entry.attribute? "memberOf").isSome then some (memberOfNames entry)
      else
        (d.search p.ldapBaseDn (dnFilter d entry.dn) ["memberOf"]).map fun entries =>
          (entries.head?.map memberOfNames).getD []
    else
      (d.search (groupBase p) (groupFilter d p filter entry.dn) ["cn"]).map (foundNames d)

def testMapping (d : LdapDirectory) (p : SsoProvider) (username : String) : MappingTest :=
  if p.providerType ≠ .ldap then
    .refused "Test mapping is only available for LDAP providers"
  else if strip username = "" then .refused "Username is required"
  else if d.serviceBinds = false then .failed
  else
    let attributes := [p.ldapUsernameAttr, p.ldapEmailAttr, p.ldapFullnameAttr] ++
      if memberAttr p = "memberof" then ["memberOf"] else []
    match d.search p.ldapBaseDn (userFilter d p (strip username)) attributes with
    | none => .failed
    | some [] => .notFound (strip username)
    | some (entry :: _) =>
      match testGroups d p entry with
      | none => .failed
      | some groups =>
        match resolveRole p [("groups", .array (groups.map .text))] with
        | none => .failed
        | some role => .resolved entry.dn groups role

end Sso

end CaManager
