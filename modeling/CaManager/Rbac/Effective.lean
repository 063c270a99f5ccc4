import CaManager.Accounts.Authentication
import CaManager.Rbac.Roles

/-!
# Reported and enforced permissions

One route reports the effective permissions of a user, of the role, of the custom role and of the
groups. A request is admitted by the permissions of a session or of a key, which are others: those
of a session are of the role alone, in the words of the routes, and a key keeps those it was made
with. Both read a wildcard the same way.
-/

namespace CaManager

open Library

structure Group where
  id : ℕ := 0
  name : String
  permissions : Json := .array []

instance : Keyed Group :=
  ⟨Group.id, fun k g => { g with id := k }, fun _ _ => rfl, fun _ => rfl⟩

structure GroupMember where
  id : ℕ := 0
  groupId : ℕ
  userId : ℕ
  deriving Repr, DecidableEq

instance : Keyed GroupMember :=
  ⟨GroupMember.id, fun k m => { m with id := k }, fun _ _ => rfl, fun _ => rfl⟩

namespace Rbac

structure Organisation where
  accounts : Accounts := {}
  keys : Table ApiKey := ∅
  roles : Table CustomRole := ∅
  groups : Table Group := ∅
  members : Table GroupMember := ∅

/-- `AVAILABLE_PERMISSIONS` -/
def availablePermissions : List String :=
  ["read:cas", "write:cas", "delete:cas", "admin:cas",
   "read:certs", "write:certs", "delete:certs", "revoke:certs",
   "read:csrs", "write:csrs", "delete:csrs", "sign:csrs",
   "read:users", "write:users", "delete:users", "admin:users",
   "read:groups", "write:groups", "delete:groups", "admin:groups",
   "read:settings", "write:settings", "admin:system",
   "read:audit", "export:audit",
   "read:acme", "write:acme", "delete:acme",
   "read:scep", "write:scep", "delete:scep",
   "read:truststore", "write:truststore", "delete:truststore",
   "read:hsm", "write:hsm", "delete:hsm",
   "read:sso", "write:sso", "delete:sso",
   "read:templates", "write:templates", "delete:templates",
   "read:policies", "write:policies", "delete:policies",
   "read:approvals", "write:approvals"]

def basePermissions (role : String) : List String :=
  if role = "admin" then availablePermissions
  else if role = "operator" then ["read:cas", "read:certs", "write:certs", "read:csrs", "sign:csrs"]
  else ["read:cas", "read:certs"]

def texts (permissions : List String) : Finset Permission :=
  (permissions.map Permission.text).toFinset

/-- What `update(permissions or [])` adds to a set, and whether it comes to its end. It adds one
element after the other. -/
def added (permissions : Json) : Finset Permission × Bool :=
  if permissions.truthy then
    match permissions with
    | .text value => ((value.toList.map fun c => .text (String.singleton c)).toFinset, true)
    | .array elements =>
      (((elements.map permission?).takeWhile Option.isSome).reduceOption.toFinset,
        elements.all fun e => (permission? e).isSome)
    | .object members => ((members.map fun m => .text m.1).toFinset, true)
    | _ => (∅, false)
  else (∅, true)

def groupPermissions : List Group → Finset Permission
  | [] => ∅
  | group :: groups =>
    (added group.permissions).1 ∪
      if (added group.permissions).2 then groupPermissions groups else ∅

/-- `User.groups` -/
def groupsOf (o : Organisation) (userId : ℕ) : List Group :=
  (o.members.select fun m => m.userId = userId).filterMap fun m => o.groups.get? m.groupId

def customRole (o : Organisation) (user : User) : Option CustomRole :=
  user.customRoleId.bind o.roles.get?

/-- The permissions of the custom role. Where collecting them raises, there is no report. -/
def customPermissions (o : Organisation) (depth : ℕ) (user : User) :
    Except Refusal (Finset Permission) :=
  match customRole o user with
  | some role =>
    (getAllPermissions o.roles depth role).mapError fun _ => ⟨500, "Internal server error"⟩
  | none => .ok ∅

def getEffectivePermissions (o : Organisation) (depth userId : ℕ) :
    Except Refusal (Finset Permission) := do
  let user ← orThrow (o.accounts.users.get? userId) ⟨404, "Not Found"⟩
  let inherited ← customPermissions o depth user
  return texts (basePermissions user.role) ∪ inherited ∪ groupPermissions (groupsOf o user.id)

section Wildcards

def categoryWildcard (p : String) : String := (splitText ':' p).headD "" ++ ":*"

def Granted (has : String → Prop) (p : String) : Prop :=
  has "*" ∨ has p ∨ ':' ∈ p.toList ∧ has (categoryWildcard p)

instance {has : String → Prop} [DecidablePred has] (p : String) : Decidable (Granted has p) :=
  inferInstanceAs (Decidable (_ ∨ _))

variable {has has' : String → Prop} {p : String}

theorem hasPermission_iff {permissions : List String} :
    Administration.hasPermission p permissions = true ↔ Granted (· ∈ permissions) p := by
  simp only [Administration.hasPermission, Granted, categoryWildcard, Bool.or_eq_true,
    Bool.and_eq_true, decide_eq_true_eq, or_assoc]

theorem granted_star : Granted has "*" ↔ has "*" := by
  have hcolon : ':' ∉ "*".toList := by decide
  simp only [Granted, hcolon, false_and, or_false, or_self]

theorem colon_notMem_headD (p : String) : ':' ∉ ((splitText ':' p).headD "").toList := by
  cases hparts : splitText ':' p with
  | nil => exact List.not_mem_nil
  | cons part parts =>
    have hmem : part ∈ splitText ':' p := hparts ▸ List.mem_cons_self
    exact notMem_of_mem_splitText hmem

theorem categoryWildcard_idem (p : String) :
    categoryWildcard (categoryWildcard p) = categoryWildcard p := by
  have hcolon : categoryWildcard p =
      (splitText ':' p).headD "" ++ String.singleton ':' ++ "*" := by
    rw [String.append_assoc]
    rfl
  have hhead : splitText ':' (categoryWildcard p) =
      (splitText ':' p).headD "" :: splitText ':' "*" := by
    rw [hcolon]
    exact splitText_append (colon_notMem_headD p) "*"
  rw [categoryWildcard, hhead]
  rfl

theorem granted_categoryWildcard : Granted has (categoryWildcard p) ↔
    has "*" ∨ has (categoryWildcard p) := by
  simp only [Granted, categoryWildcard_idem]
  constructor
  · rintro (h | h | ⟨_, h⟩)
    · exact .inl h
    · exact .inr h
    · exact .inr h
  · rintro (h | h)
    · exact .inl h
    · exact .inr (.inl h)

theorem Granted.trans (h : ∀ q, has q → Granted has' q) (hp : Granted has p) : Granted has' p := by
  rcases hp with hstar | hp | ⟨hcolon, hcategory⟩
  · exact .inl (granted_star.mp (h _ hstar))
  · exact h p hp
  · rcases granted_categoryWildcard.mp (h _ hcategory) with hstar | hcategory
    · exact .inl hstar
    · exact .inr (.inr ⟨hcolon, hcategory⟩)

theorem forall_granted_iff : (∀ p, Granted has p ↔ Granted has' p) ↔
    (∀ p, has p → Granted has' p) ∧ ∀ p, has' p → Granted has p := by
  constructor
  · exact fun h => ⟨fun p hp => (h p).mp (.inr (.inl hp)), fun p hp => (h p).mpr (.inr (.inl hp))⟩
  · exact fun h p => ⟨Granted.trans h.1, Granted.trans h.2⟩

end Wildcards

def Grants (perms : Finset Permission) (p : String) : Prop :=
  Granted (fun q => Permission.text q ∈ perms) p

/-- There is a report on the user, and a request that is authenticated so is admitted exactly if
everything that is required is granted by the report. -/
def Enforced (o : Organisation) (depth : ℕ) (user : User) (result : AuthResult) : Prop :=
  ∃ perms, getEffectivePermissions o depth user.id = .ok perms ∧
    ∀ required, AuthManager.authorize required (some result) = .ok result ↔
      ∀ p ∈ required, Grants perms p

/-- Climbing from the role ends within so many steps, and all on the way have sets. -/
def EndsWithin (roles : Table CustomRole) : ℕ → CustomRole → Prop
  | 0, _ => False
  | depth + 1, role => Settable role.permissions ∧
      ∀ q, parent roles role = some q → EndsWithin roles depth q

def Collectable (o : Organisation) (depth : ℕ) (user : User) : Prop :=
  ∀ role, customRole o user = some role → EndsWithin o.roles depth role

/-- The permission is of the base role, is inherited through the custom role, or is added by a
group. -/
def Given (o : Organisation) (user : User) (p : String) : Prop :=
  p ∈ basePermissions user.role ∨
    (∃ role, customRole o user = some role ∧ Inherited o.roles role (.text p)) ∨
    .text p ∈ groupPermissions (groupsOf o user.id)

/-- The custom role can be collected. A session is that of an administrator to whom the custom
role or a group gives the general wildcard. A key has nothing that is not given, and what is given
is granted by the key. -/
def Matching (o : Organisation) (depth : ℕ) (user : User) (result : AuthResult) : Prop :=
  Collectable o depth user ∧
    match result.authMethod with
    | .session => user.role = "admin" ∧ Given o user "*"
    | .apiKey _ _ => (∀ p ∈ result.permissions, Granted (Given o user) p) ∧
        ∀ p, Given o user p → Granted (· ∈ result.permissions) p

section Reports

variable {o : Organisation} {depth : ℕ} {user : User} {roles : Table CustomRole}
  {role : CustomRole}

theorem endsWithin_of_getAllPermissions (hrole : role ∈ roles) {perms : Finset Permission}
    (h : getAllPermissions roles depth role = .ok perms) :
    EndsWithin roles depth role ∧ ∀ p, p ∈ perms ↔ Inherited roles role p := by
  induction depth generalizing role perms with
  | zero => cases h
  | succ depth ih =>
    obtain ⟨own, hown, h⟩ := bind_eq_ok.mp h
    cases hparent : parent roles role with
    | none =>
      rw [hparent] at h
      obtain rfl := pure_eq_ok.mp h
      refine ⟨⟨⟨own, hown⟩, fun q hq => by rw [hparent] at hq; cases hq⟩, fun p => ?_⟩
      rw [inherited_of_no_parent hrole hparent, hown]
      simp
    | some q =>
      obtain ⟨k, _, hget⟩ := Option.bind_eq_some_iff.mp hparent
      rw [hparent] at h
      obtain ⟨inherited, hinherited, h⟩ := bind_eq_ok.mp h
      obtain ⟨hends, hmem⟩ := ih (Table.mem_of_get? hget) hinherited
      refine ⟨⟨⟨own, hown⟩, fun q' hq' => ?_⟩, fun p => ?_⟩
      · exact Option.some.inj (hparent.symm.trans hq') ▸ hends
      · rw [← pure_eq_ok.mp h, Finset.mem_union, inherited_of_parent hrole hparent, hmem, hown]
        simp

theorem exists_of_endsWithin (h : EndsWithin roles depth role) :
    ∃ perms, getAllPermissions roles depth role = .ok perms := by
  induction depth generalizing role with
  | zero => exact h.elim
  | succ depth ih =>
    obtain ⟨⟨own, hown⟩, hends⟩ := h
    cases hparent : parent roles role with
    | none => exact ⟨own, by simp [getAllPermissions, hown, hparent]⟩
    | some q =>
      obtain ⟨inherited, hinherited⟩ := ih (hends q hparent)
      exact ⟨own ∪ inherited, by simp [getAllPermissions, hown, hparent, hinherited]⟩

theorem text_mem_texts {permissions : List String} {p : String} :
    Permission.text p ∈ texts permissions ↔ p ∈ permissions := by
  simp [texts]

theorem collectable_of_customPermissions {perms : Finset Permission}
    (h : customPermissions o depth user = .ok perms) : Collectable o depth user ∧
      ∀ p, p ∈ perms ↔ ∃ role, customRole o user = some role ∧ Inherited o.roles role p := by
  unfold Collectable
  unfold customPermissions at h
  cases hrole : customRole o user with
  | none =>
    rw [hrole] at h
    cases h
    exact ⟨nofun, fun p => by simp⟩
  | some role =>
    obtain ⟨k, _, hget⟩ := Option.bind_eq_some_iff.mp hrole
    rw [hrole] at h
    obtain ⟨hends, hmem⟩ :=
      endsWithin_of_getAllPermissions (Table.mem_of_get? hget) (mapError_eq_ok.mp h)
    exact ⟨fun role' hrole' => Option.some.inj hrole' ▸ hends, fun p => by rw [hmem]; simp⟩

theorem exists_customPermissions (h : Collectable o depth user) :
    ∃ perms, customPermissions o depth user = .ok perms := by
  unfold customPermissions
  cases hrole : customRole o user with
  | none => exact ⟨∅, rfl⟩
  | some role =>
    obtain ⟨perms, hperms⟩ := exists_of_endsWithin (h role hrole)
    exact ⟨perms, mapError_eq_ok.mpr hperms⟩

theorem given_of_report {perms : Finset Permission}
    (huser : o.accounts.users.get? user.id = some user)
    (h : getEffectivePermissions o depth user.id = .ok perms) :
    Collectable o depth user ∧ ∀ p, Permission.text p ∈ perms ↔ Given o user p := by
  obtain ⟨user', hfound, h⟩ := bind_eq_ok.mp h
  obtain rfl : user = user' := Option.some.inj (huser.symm.trans (orThrow_eq_ok.mp hfound))
  obtain ⟨inherited, hinherited, h⟩ := bind_eq_ok.mp h
  obtain ⟨hcollectable, hmem⟩ := collectable_of_customPermissions hinherited
  refine ⟨hcollectable, fun p => ?_⟩
  rw [← pure_eq_ok.mp h, Finset.mem_union, Finset.mem_union, text_mem_texts, hmem, or_assoc]
  rfl

theorem exists_report (huser : o.accounts.users.get? user.id = some user)
    (h : Collectable o depth user) :
    ∃ perms, getEffectivePermissions o depth user.id = .ok perms := by
  obtain ⟨inherited, hinherited⟩ := exists_customPermissions h
  exact ⟨_, bind_eq_ok.mpr ⟨user, orThrow_eq_ok.mpr huser,
    bind_eq_ok.mpr ⟨inherited, hinherited, rfl⟩⟩⟩

/-- For every list of requirements the check and the report agree exactly if what either has is
granted by the other. -/
theorem enforced_iff {result : AuthResult} (huser : o.accounts.users.get? user.id = some user) :
    Enforced o depth user result ↔ Collectable o depth user ∧
      (∀ p ∈ result.permissions, Granted (Given o user) p) ∧
      ∀ p, Given o user p → Granted (· ∈ result.permissions) p := by
  have hadmits : ∀ required, AuthManager.authorize required (some result) = .ok result ↔
      ∀ p ∈ required, Granted (· ∈ result.permissions) p := by
    intro required
    simp only [authorize_eq_ok, true_and, hasPermission_iff]
  rw [← forall_granted_iff]
  constructor
  · rintro ⟨perms, hperms, h⟩
    obtain ⟨hcollectable, hgiven⟩ := given_of_report huser hperms
    refine ⟨hcollectable, fun p => ?_⟩
    have hp := (hadmits [p]).symm.trans (h [p])
    simpa only [List.forall_mem_singleton, Grants, hgiven] using hp
  · rintro ⟨hcollectable, h⟩
    obtain ⟨perms, hperms⟩ := exists_report huser hcollectable
    refine ⟨perms, hperms, fun required => (hadmits required).trans ?_⟩
    simp only [Grants, (given_of_report huser hperms).2, h]

theorem not_granted_read_certs {role : String} (hrole : role ≠ "admin") :
    ¬Granted (· ∈ Administration.rolePermissions role) "read:certs" := by
  unfold Administration.rolePermissions
  split
  · exact absurd rfl hrole
  · decide
  · decide
  · decide
  · decide

theorem read_certs_given (hrole : user.role ≠ "admin") : Given o user "read:certs" := by
  refine .inl ?_
  unfold basePermissions
  rw [if_neg hrole]
  split_ifs
  · decide
  · decide

theorem session_matches_iff :
    ((∀ p ∈ Administration.rolePermissions user.role, Granted (Given o user) p) ∧
      ∀ p, Given o user p → Granted (· ∈ Administration.rolePermissions user.role) p) ↔
    user.role = "admin" ∧ Given o user "*" := by
  by_cases hrole : user.role = "admin"
  · have hadmin : Administration.rolePermissions user.role = ["*"] := by rw [hrole]; rfl
    rw [hadmin, List.forall_mem_singleton, granted_star]
    constructor
    · exact fun h => ⟨hrole, h.1⟩
    · exact fun h => ⟨h.2, fun p _ => .inl (List.mem_singleton_self _)⟩
  · refine iff_of_false (fun h => ?_) fun h => hrole h.1
    exact not_granted_read_certs hrole (h.2 _ (read_certs_given hrole))

end Reports

section Requests

variable [HashLibrary] {o : Organisation} {depth : ℕ} {now : Time} {caller : Caller}
  {user : User} {result : AuthResult}

theorem authenticated_cases
    (h : (AuthManager.authenticateRequest o.accounts o.keys now caller).1 = some result)
    (huser : result.user = some user) : o.accounts.users.get? user.id = some user ∧
      (result.authMethod = .session →
        result.permissions = Administration.rolePermissions user.role) := by
  unfold AuthManager.authenticateRequest at h
  split at h
  · next found keys hkey =>
    cases h
    obtain ⟨key, _, hkey⟩ := Option.bind_eq_some_iff.mp hkey
    obtain ⟨row, _, _, rfl, _⟩ := verifyApiKey_eq_some.mp hkey
    have hget : o.accounts.users.get? row.userId = some user := huser
    have hid : user.id = row.userId := Table.key_of_get? hget
    exact ⟨by rw [hid, hget], nofun⟩
  · obtain ⟨id, u, _, hget, _, _, _, rfl, _⟩ := verifySession_eq_some.mp (Prod.ext h rfl)
    cases huser
    have hid : user.id = id := Table.key_of_get? hget
    exact ⟨by rw [hid, hget], fun _ => rfl⟩

/-- The permissions that are reported of a user are those that requests of the user are admitted
by exactly if they match. -/
theorem effective_enforced_iff
    (h : (AuthManager.authenticateRequest o.accounts o.keys now caller).1 = some result)
    (huser : result.user = some user) :
    Enforced o depth user result ↔ Matching o depth user result := by
  obtain ⟨hget, hsession⟩ := authenticated_cases h huser
  rw [enforced_iff hget, Matching]
  refine and_congr_right fun _ => ?_
  cases hmethod : result.authMethod with
  | session =>
    rw [hsession hmethod]
    exact session_matches_iff
  | apiKey id name => exact Iff.rfl

end Requests

section Sample

/-- An administrator whose custom role has the wildcard, and a viewer whose custom role has one
permission more than viewers. -/
def administrator : User :=
  { id := 1, username := "root", email := "root@example.org", passwordHash := "", role := "admin",
    customRoleId := some 1 }

def customViewer : User :=
  { id := 2, username := "eve", email := "eve@example.org", passwordHash := "",
    customRoleId := some 2 }

def sampleOrganisation : Organisation where
  accounts := { users := ⟨[administrator, customViewer], by decide⟩ }
  roles := ⟨[{ id := 1, name := "everything", permissions := .array [.text "*"] },
    { id := 2, name := "authorities", permissions := .array [.text "write:cas"] }], by decide⟩

def sessionOf (user : User) : AuthResult :=
  ⟨user.id, some user, .session, Administration.rolePermissions user.role⟩

theorem effective_enforced_administrator :
    Enforced sampleOrganisation 2 administrator (sessionOf administrator) ↔
      Matching sampleOrganisation 2 administrator (sessionOf administrator) :=
  let _ := spelledHash
  have hsession : (AuthManager.authenticateRequest sampleOrganisation.accounts
      sampleOrganisation.keys 0 { session := { userId := some 1 } }).1 =
        some (sessionOf administrator) := by
    decide +kernel
  effective_enforced_iff hsession rfl

/-- The viewer is reported to have a permission for which the session is refused. -/
theorem custom_permission_refused :
    let _ := spelledHash
    (AuthManager.authenticateRequest sampleOrganisation.accounts sampleOrganisation.keys 0
      { session := { userId := some 2 } }).1 = some (sessionOf customViewer) ∧
    ¬Enforced sampleOrganisation 2 customViewer (sessionOf customViewer) := by
  refine ⟨by decide +kernel, ?_⟩
  rintro ⟨perms, hperms, h⟩
  have hreported : (getEffectivePermissions sampleOrganisation 2 customViewer.id).toOption.any
      fun perms => decide (Permission.text "write:cas" ∈ perms) := by decide +kernel
  rw [hperms] at hreported
  have hmem : Permission.text "write:cas" ∈ perms := of_decide_eq_true hreported
  have hadmitted := (h ["write:cas"]).mpr (List.forall_mem_singleton.mpr (.inr (.inl hmem)))
  have hrefused : ¬Administration.hasPermission "write:cas"
      (sessionOf customViewer).permissions = true := by decide +kernel
  exact hrefused ((authorize_eq_ok.mp hadmitted).2 _ List.mem_cons_self)

end Sample

end Rbac

end CaManager
