import CaManager.Sso.Callback
import CaManager.Sso.Users

/-!
# Roles by mapping

The role that a sign-on gives, against what the mapping says: the role of the first entry
whose external name is among the groups that the provider asserts. The resolver looks for
the entry among the names it reads from the data that each kind of sign-on builds for it.
-/

namespace CaManager

open Library

namespace Sso

/-- A role mapping as it should be read: the first entry among the groups, or the default. -/
def roleFor (mapping : List (String × String)) (default : Option String)
    (groups : List String) : String :=
  match mapping.find? fun entry => entry.1 ∈ groups with
  | some entry => knownRole entry.2
  | none => knownRole (default.getD "viewer")

def withMapping (p : SsoProvider) (mapping : List (String × String)) (default : Option String) :
    SsoProvider :=
  { p with
    roleMapping := .value (.object (mapping.map fun entry => (entry.1, .text entry.2)))
    defaultRole := default }

/-- A group of a directory: its distinguished name as the directory writes it, and its
common names. -/
structure LdapGroup where
  dn : String
  names : List String
  deriving Repr, DecidableEq

/-- A directory answers the questions that the program asks about a user, each time with the
same groups. -/
structure LdapAnswer (d : LdapDirectory) (p : SsoProvider) (username : String) where
  userDn : String
  groups : List LdapGroup
  binds : d.serviceBinds = true
  found : ∀ attributes, ∃ e rest,
    d.search p.ldapBaseDn (userFilter d p username) attributes = some (e :: rest) ∧
      e.dn = userDn ∧
      ("memberOf" ∈ attributes → (e.attribute? "memberOf").getD [] = groups.map LdapGroup.dn)
  foundByDn : ∃ entries,
    d.search p.ldapBaseDn (dnFilter d userDn) ["memberOf"] = some entries ∧
      ∀ e ∈ entries.head?, (e.attribute? "memberOf").getD [] = groups.map LdapGroup.dn
  searched : ∀ filter, p.ldapGroupFilter = some filter → memberAttr p ≠ "memberof" →
    ∃ entries, d.search (groupBase p) (groupFilter d p filter userDn) ["cn"] = some entries ∧
      entries.filterMap (LdapEntry.attribute? · "cn") = groups.map LdapGroup.names

/-- What a provider says about a user who signs on. -/
inductive Assertion (d : LdapDirectory) (p : SsoProvider)
  | oauth2 (userinfo : Members)
  | saml (attributes : SamlAttributes) (nameId : Option String)
  | ldap (username password : String) (answer : LdapAnswer d p username) (info : LdapUserInfo)
      (bound : ldapAuthenticateUser d p username password = .ok info)

namespace Assertion

variable {d : LdapDirectory} {p : SsoProvider}

def externalData : Assertion d p → Members
  | oauth2 userinfo => userinfo
  | saml attributes nameId => samlExternalData attributes nameId
  | ldap _ _ _ info _ => ldapExternalData info

/-- The groups or roles that the provider asserts: those under `roles`, or else those under
`groups`, or the groups of the directory if it is asked for them. -/
def groups : Assertion d p → List String
  | oauth2 userinfo => (externalRoles userinfo).names.getD []
  | saml attributes _ => ((attributes.lookup "roles").or (attributes.lookup "groups")).getD []
  | ldap _ _ answer _ _ =>
    match p.ldapGroupFilter.filter (· ≠ "") with
    | some _ => answer.groups.flatMap LdapGroup.names
    | none => []

def namesRead (a : Assertion d p) : Option (List String) := (externalRoles a.externalData).names

/-- The mapping test for the user of an assertion gives the role. Only directory providers
have the test. -/
def TestGives (p' : SsoProvider) (role : String) : Assertion d p → Prop
  | ldap username _ _ _ _ =>
    ∀ typed, strip typed = username → username ≠ "" → p'.providerType = .ldap →
      ∃ userDn groups, testMapping d p' typed = .resolved userDn groups role
  | _ => True

/-- With any mapping and default role, the sign-on gives the role that the mapping gives the
asserted groups, the user gets it, and the mapping test shows it. -/
def RoleMapped (a : Assertion d p) : Prop :=
  ∀ mapping default,
    resolveRole (withMapping p mapping default) a.externalData =
        some (roleFor mapping default a.groups) ∧
      (∀ st username email fullname now id st',
        getOrCreateSsoUser st (withMapping p mapping default) username email fullname
            a.externalData now = .user id st' →
          p.autoUpdateUsers = true ∨ st.userNamed username = none →
          (st'.users.get? id).map User.role = some (roleFor mapping default a.groups)) ∧
      a.TestGives (withMapping p mapping default) (roleFor mapping default a.groups)

end Assertion

section Resolver

variable {p : SsoProvider} {mapping : List (String × String)} {default : Option String}
  {externalData : Members} {names groups : List String}

theorem roleFor_congr (h : ∀ entry ∈ mapping, entry.1 ∈ names ↔ entry.1 ∈ groups) :
    roleFor mapping default names = roleFor mapping default groups := by
  have hfind : (mapping.find? fun entry => entry.1 ∈ names) =
      mapping.find? fun entry => entry.1 ∈ groups := by
    induction mapping with
    | nil => rfl
    | cons entry mapping ih =>
      have hrest := ih fun entry' h' => h entry' (List.mem_cons_of_mem _ h')
      have hentry : (decide (entry.1 ∈ names)) = decide (entry.1 ∈ groups) :=
        decide_eq_decide.mpr (h entry List.mem_cons_self)
      rw [List.find?_cons, List.find?_cons, hentry, hrest]
  unfold roleFor
  rw [hfind]

theorem find?_textMembers (mapping : List (String × String)) :
    ((mapping.map fun entry => (entry.1, Json.text entry.2)).find? fun entry =>
        entry.1 ∈ names) =
      (mapping.find? fun entry => entry.1 ∈ names).map fun entry =>
        (entry.1, Json.text entry.2) := by
  rw [List.find?_map]
  rfl

theorem resolveRole_withMapping (h : (externalRoles externalData).names = some names) :
    resolveRole (withMapping p mapping default) externalData =
      some (roleFor mapping default names) := by
  cases mapping with
  | nil => rfl
  | cons entry mapping =>
    have hparse : parseJsonField (withMapping p (entry :: mapping) default).roleMapping =
        (entry :: mapping).map fun entry => (entry.1, Json.text entry.2) := rfl
    unfold resolveRole
    rw [hparse, h]
    dsimp only
    rw [find?_textMembers, if_neg (by simp)]
    unfold roleFor
    cases (entry :: mapping).find? fun entry => entry.1 ∈ names with
    | none => rfl
    | some entry => rfl

theorem role_of_getOrCreateSsoUser {st st' : Accounts} {username email fullname : String}
    {now : Time} {id : ℕ} {role : String} (hrole : resolveRole p externalData = some role)
    (h : getOrCreateSsoUser st p username email fullname externalData now = .user id st')
    (hfresh : p.autoUpdateUsers = true ∨ st.userNamed username = none) :
    (st'.users.get? id).map User.role = some role := by
  unfold getOrCreateSsoUser at h
  rw [hrole] at h
  split at h
  next u hu =>
    have hupdate : p.autoUpdateUsers = true := by
      rcases hfresh with hupdate | hnone
      · exact hupdate
      · rw [hu] at hnone
        cases hnone
    have hget : st.users.get? u.id = some u :=
      Table.get?_eq_some_iff.mpr ⟨Accounts.mem_of_userNamed hu, rfl⟩
    rw [if_pos hupdate] at h
    split_ifs at h
    cases h
    exact congrArg (Option.map User.role) (Table.get?_update_self hget)
  next =>
    split_ifs at h
    dsimp only at h
    split at h
    next st'' hadd =>
      cases h
      obtain ⟨-, rfl⟩ := Accounts.addUser_eq_some hadd
      exact congrArg (Option.map User.role) Table.get?_insert_nextKey
    next => cases h

end Resolver

section Directory

variable {d : LdapDirectory} {p : SsoProvider} {username : String}

/-- The group names that the program reads from what the directory answers. -/
def LdapAnswer.names (answer : LdapAnswer d p username) : List String :=
  match p.ldapGroupFilter.filter (· ≠ "") with
  | none => []
  | some _ =>
    if memberAttr p = "memberof" then answer.groups.filterMap fun g => splitCommonName g.dn
    else answer.groups.map fun g => d.attributeText g.names

variable (answer : LdapAnswer d p username)

theorem memberOfNames_eq {e : LdapEntry}
    (h : (e.attribute? "memberOf").getD [] = answer.groups.map LdapGroup.dn) :
    memberOfNames e = answer.groups.filterMap fun g => splitCommonName g.dn := by
  rw [memberOfNames, h, List.filterMap_map]
  rfl

theorem foundNames_eq {entries : List LdapEntry}
    (h : entries.filterMap (LdapEntry.attribute? · "cn") = answer.groups.map LdapGroup.names) :
    foundNames d entries = answer.groups.map fun g => d.attributeText g.names := by
  have hmap : foundNames d entries =
      (entries.filterMap (LdapEntry.attribute? · "cn")).map d.attributeText :=
    List.map_filterMap.symm
  rw [hmap, h, List.map_map]
  rfl

theorem memberOfGroups_eq :
    memberOfGroups d p username answer.userDn =
      some (answer.groups.filterMap fun g => splitCommonName g.dn) := by
  obtain ⟨byDn, hbyDn, hmember⟩ := answer.foundByDn
  obtain ⟨e, rest, hfound, -, hattribute⟩ := answer.found ["memberOf"]
  unfold memberOfGroups
  rw [answer.binds, hbyDn, hfound]
  cases byDn with
  | nil =>
    have hnames := memberOfNames_eq answer (hattribute List.mem_cons_self)
    simp [hnames]
  | cons e' rest' =>
    have hnames := memberOfNames_eq answer (hmember e' rfl)
    simp [hnames]

theorem searchedGroups_eq {filter : String} (hfilter : p.ldapGroupFilter = some filter)
    (hattr : memberAttr p ≠ "memberof") :
    searchedGroups d p filter answer.userDn =
      some (answer.groups.map fun g => d.attributeText g.names) := by
  obtain ⟨entries, hsearch, hcn⟩ := answer.searched filter hfilter hattr
  unfold searchedGroups
  rw [answer.binds, hsearch]
  simp [foundNames_eq answer hcn]

theorem signOnGroups_eq : signOnGroups d p username answer.userDn = answer.names := by
  unfold signOnGroups LdapAnswer.names
  cases hfilter : p.ldapGroupFilter.filter (· ≠ "") with
  | none => rfl
  | some filter =>
    dsimp only
    split_ifs with hattr
    · rw [memberOfGroups_eq, Option.getD_some]
    · rw [searchedGroups_eq answer (Option.eq_some_of_filter_eq_some hfilter) hattr,
        Option.getD_some]

theorem groups_of_ldapAuthenticateUser {password : String} {info : LdapUserInfo}
    (h : ldapAuthenticateUser d p username password = .ok info) : info.groups = answer.names := by
  obtain ⟨e, rest, hfound, hdn, -⟩ :=
    answer.found [p.ldapUsernameAttr, p.ldapEmailAttr, p.ldapFullnameAttr]
  unfold ldapAuthenticateUser at h
  rw [hfound, if_neg (by simp [answer.binds])] at h
  dsimp only at h
  rw [hdn] at h
  cases hbinds : d.userBinds answer.userDn password with
  | none => simp [hbinds] at h
  | some right =>
    cases right with
    | false => simp [hbinds] at h
    | true =>
      rw [hbinds] at h
      cases h
      exact signOnGroups_eq answer

theorem testGroups_eq {e : LdapEntry} (hdn : e.dn = answer.userDn)
    (hattribute : memberAttr p = "memberof" →
      (e.attribute? "memberOf").getD [] = answer.groups.map LdapGroup.dn) :
    testGroups d p e = some answer.names := by
  unfold testGroups LdapAnswer.names
  rw [hdn]
  cases hfilter : p.ldapGroupFilter.filter (· ≠ "") with
  | none => rfl
  | some filter =>
    dsimp only
    split_ifs with hattr hsome
    · rw [memberOfNames_eq answer (hattribute hattr)]
    · -- the entry came without the attribute, so the user is in no group
      have hnone : (e.attribute? "memberOf").getD [] = [] := by
        rw [Option.not_isSome_iff_eq_none] at hsome
        rw [hsome, Option.getD_none]
      obtain ⟨entries, hbyDn, hmember⟩ := answer.foundByDn
      have hgroups : answer.groups = [] := by
        have hmap := hattribute hattr
        rw [hnone] at hmap
        exact List.map_eq_nil_iff.mp hmap.symm
      rw [hbyDn, hgroups]
      cases entries with
      | nil => rfl
      | cons e' rest' =>
        have hnames := memberOfNames_eq answer (hmember e' rfl)
        rw [hgroups] at hnames
        simpa using hnames
    · obtain ⟨entries, hsearch, hcn⟩ :=
        answer.searched filter (Option.eq_some_of_filter_eq_some hfilter) hattr
      rw [hsearch, Option.map_some, foundNames_eq answer hcn]

theorem testMapping_eq {mapping : List (String × String)} {default : Option String}
    {typed : String} (htyped : strip typed = username) (hname : username ≠ "")
    (htype : p.providerType = .ldap) :
    testMapping d (withMapping p mapping default) typed =
      .resolved answer.userDn answer.names (roleFor mapping default answer.names) := by
  obtain ⟨e, rest, hfound, hdn, hattribute⟩ := answer.found
    ([p.ldapUsernameAttr, p.ldapEmailAttr, p.ldapFullnameAttr] ++
      if memberAttr p = "memberof" then ["memberOf"] else [])
  have hgroups : testGroups d (withMapping p mapping default) e = some answer.names := by
    refine testGroups_eq answer hdn fun hattr => hattribute ?_
    simp [hattr]
  have hrole : resolveRole (withMapping p mapping default)
      [("groups", .array (answer.names.map .text))] =
        some (roleFor mapping default answer.names) :=
    resolveRole_withMapping (Json.names_array_text answer.names)
  have hldap : ¬(withMapping p mapping default).providerType ≠ .ldap := not_not.mpr htype
  unfold testMapping
  generalize hp : withMapping p mapping default = p' at hgroups hrole hldap ⊢
  have hsearch : d.search p'.ldapBaseDn (userFilter d p' username)
      ([p'.ldapUsernameAttr, p'.ldapEmailAttr, p'.ldapFullnameAttr] ++
        if memberAttr p' = "memberof" then ["memberOf"] else []) = some (e :: rest) := by
    subst hp
    exact hfound
  rw [htyped, if_neg hldap, if_neg hname, if_neg (by simp [answer.binds])]
  dsimp only
  rw [hsearch]
  dsimp only
  rw [hgroups]
  dsimp only
  rw [hrole, hdn]

namespace Assertion

/-- The resolver finds the asserted groups: a token provider lists them in a value that can be
searched, a SAML provider asserts none, and the names read from a directory are those of the
groups. -/
def ReadsGroups : Assertion d p → Prop
  | oauth2 userinfo => (externalRoles userinfo).names ≠ none
  | saml attributes _ => ((attributes.lookup "roles").or (attributes.lookup "groups")).getD [] = []
  | ldap _ _ answer _ _ =>
    ∀ n, n ∈ answer.names ↔
      p.ldapGroupFilter.filter (· ≠ "") ≠ none ∧ ∃ g ∈ answer.groups, n ∈ g.names

theorem namesRead_ldap {password : String} {info : LdapUserInfo}
    (bound : ldapAuthenticateUser d p username password = .ok info) :
    (Assertion.ldap username password answer info bound).namesRead = some answer.names := by
  rw [← groups_of_ldapAuthenticateUser answer bound]
  exact Json.names_array_text info.groups

theorem readsGroups_iff (a : Assertion d p) :
    a.ReadsGroups ↔ ∃ names, a.namesRead = some names ∧ ∀ n, n ∈ names ↔ n ∈ a.groups := by
  cases a with
  | oauth2 userinfo =>
    have hgroups : (oauth2 userinfo : Assertion d p).groups =
        (externalRoles userinfo).names.getD [] := rfl
    have hread : (oauth2 userinfo : Assertion d p).namesRead = (externalRoles userinfo).names := rfl
    rw [hgroups, hread, ReadsGroups]
    cases (externalRoles userinfo).names with
    | none => simp
    | some names => simp
  | saml attributes nameId =>
    have hread : (saml attributes nameId : Assertion d p).namesRead = some [] := rfl
    rw [hread]
    constructor
    · intro h
      refine ⟨[], rfl, fun n => ?_⟩
      rw [groups, show _ = [] from h]
    · rintro ⟨names, ⟨rfl⟩, h⟩
      exact List.eq_nil_iff_forall_not_mem.mpr fun n hn => List.not_mem_nil ((h n).mpr hn)
  | ldap username password answer info bound =>
    have hgroups : ∀ n, n ∈ (ldap username password answer info bound).groups ↔
        p.ldapGroupFilter.filter (· ≠ "") ≠ none ∧ ∃ g ∈ answer.groups, n ∈ g.names := by
      intro n
      unfold groups
      cases p.ldapGroupFilter.filter (· ≠ "") with
      | none => simp
      | some filter => simp
    simp only [namesRead_ldap, Option.some.injEq, exists_eq_left', hgroups]
    exact Iff.rfl

/-- Whatever the mapping, a sign-on follows it exactly when the resolver reads the names of the
asserted groups. -/
theorem roleMapped_iff_namesRead (a : Assertion d p) :
    a.RoleMapped ↔ ∃ names, a.namesRead = some names ∧ ∀ n, n ∈ names ↔ n ∈ a.groups := by
  constructor
  · intro h
    cases hread : a.namesRead with
    | none =>
      obtain ⟨hrole, -, -⟩ := h [("x", "admin")] none
      have hparse : parseJsonField (withMapping p [("x", "admin")] none).roleMapping =
          [("x", .text "admin")] := rfl
      unfold namesRead at hread
      unfold resolveRole at hrole
      rw [hparse, hread] at hrole
      cases hrole
    | some names =>
      refine ⟨names, rfl, fun n => ?_⟩
      -- a mapping of the one name to a role that is not the default tells them apart
      obtain ⟨hrole, -, -⟩ := h [(n, "admin")] none
      rw [resolveRole_withMapping hread, Option.some.injEq] at hrole
      by_cases hn : n ∈ names
      · by_cases hg : n ∈ a.groups
        · exact iff_of_true hn hg
        · simp [roleFor, hn, hg, knownRole, validRoles] at hrole
      · by_cases hg : n ∈ a.groups
        · simp [roleFor, hn, hg, knownRole, validRoles] at hrole
        · exact iff_of_false hn hg
  · rintro ⟨names, hread, hgroups⟩ mapping default
    have hcongr : roleFor mapping default names = roleFor mapping default a.groups :=
      roleFor_congr fun entry _ => hgroups entry.1
    have hrole : resolveRole (withMapping p mapping default) a.externalData =
        some (roleFor mapping default a.groups) :=
      hcongr ▸ resolveRole_withMapping hread
    refine ⟨hrole, ?_, ?_⟩
    · intro st username email fullname now id st' hresult hfresh
      exact role_of_getOrCreateSsoUser hrole hresult hfresh
    · cases a with
      | oauth2 userinfo => trivial
      | saml attributes nameId => trivial
      | ldap username password answer info bound =>
        intro typed htyped hname htype
        rw [namesRead_ldap answer bound, Option.some.injEq] at hread
        subst hread
        rw [← hcongr]
        exact ⟨_, _, testMapping_eq answer htyped hname htype⟩

end Assertion

/-- A directory without answers, and a SAML provider that maps `admins`. -/
def silentDirectory : LdapDirectory := ⟨false, fun _ _ => none, fun _ _ _ => none, id, fun _ => ""⟩

def sampleProvider : SsoProvider :=
  withMapping { name := "idp", providerType := .saml, enabled := true } [("admins", "admin")] none

def sampleDatabase : Accounts := { providers := (∅ : Table SsoProvider).insert sampleProvider }

end Directory

end Sso

end CaManager
