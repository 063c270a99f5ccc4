import CaManager.Accounts.Administration
import CaManager.Library.Ancestry
import CaManager.Library.Machines
import Mathlib.Data.Finset.Union

/-!
# Custom roles and what they inherit

A role may name another that it inherits from. The routes that create and change roles do not
look where that leads, and collecting the permissions of a role follows the names without
remembering where it was.
-/

namespace CaManager

open Library Relation

/-- A custom role. Its permissions are a JSON column. -/
structure CustomRole where
  id : ℕ := 0
  name : String
  permissions : Json := .array []
  inheritsFrom : Option ℕ := none
  isSystem : Bool := false

instance : Keyed CustomRole :=
  ⟨CustomRole.id, fun k r => { r with id := k }, fun _ _ => rfl, fun _ => rfl⟩

namespace Rbac

/-- An element of a set of JSON values; a truth value is the number it equals. -/
inductive Permission
  | null
  | number (value : ℚ)
  | text (value : String)
  deriving DecidableEq

inductive RoleError
  | typeError
  | recursionError
  deriving Repr, DecidableEq

def permission? : Json → Option Permission
  | .null => some .null
  | .bool value => some (.number (if value then 1 else 0))
  | .number value => some (.number value)
  | .text value => some (.text value)
  | _ => none

/-- `set(permissions or [])` -/
def permissionSet (permissions : Json) : Except RoleError (Finset Permission) :=
  if permissions.truthy then
    match permissions with
    | .text value => .ok (value.toList.map fun c => .text (String.singleton c)).toFinset
    | .array elements =>
      match elements.mapM permission? with
      | some ps => .ok ps.toFinset
      | none => .error .typeError
    | .object members => .ok (members.map fun m => .text m.1).toFinset
    | _ => .error .typeError
  else .ok ∅

/-- The `parent` of a role. -/
def parent (roles : Table CustomRole) (role : CustomRole) : Option CustomRole :=
  role.inheritsFrom.bind roles.get?

/-- `get_all_permissions`, within a depth of recursion. -/
def getAllPermissions (roles : Table CustomRole) :
    ℕ → CustomRole → Except RoleError (Finset Permission)
  | 0, _ => .error .recursionError
  | depth + 1, role => do
    let perms ← permissionSet role.permissions
    match parent roles role with
    | some parent =>
      let inherited ← getAllPermissions roles depth parent
      return perms ∪ inherited
    | none => return perms

structure Directory where
  roles : Table CustomRole
  users : Table User

/-- The body of a request: each member may be missing, and the name and the parent be null. -/
structure RoleData where
  name : Option (Option String) := none
  permissions : Option Json := none
  inheritsFrom : Option (Option ℕ) := none

def newRole (name : String) (data : RoleData) : CustomRole :=
  { name, permissions := data.permissions.getD (.array [])
    inheritsFrom := data.inheritsFrom.join }

def createCustomRole (d : Directory) (data : RoleData) : Except Refusal Directory := do
  let name ← orThrow (data.name.join.filter (· ≠ "")) ⟨400, "Role name is required"⟩
  ensure ((d.roles.first fun r => r.name = name).isNone = true) ⟨409, "Role already exists"⟩
  return { d with roles := d.roles.insert (newRole name data) }

def changedRole (name : String) (data : RoleData) (r : CustomRole) : CustomRole :=
  { r with
    name
    permissions := data.permissions.getD r.permissions
    inheritsFrom := data.inheritsFrom.getD r.inheritsFrom }

def updateCustomRole (d : Directory) (roleId : ℕ) (data : RoleData) : Except Refusal Directory := do
  let role ← orThrow (d.roles.get? roleId) ⟨404, "Not Found"⟩
  let name ← orThrow (data.name.getD (some role.name)) ⟨500, "Internal server error"⟩
  ensure ((d.roles.first fun r => r.name = name ∧ r.id ≠ roleId).isNone = true)
    ⟨500, "Internal server error"⟩
  return { d with roles := d.roles.update roleId (changedRole name data) }

def disinherit (roleId : ℕ) (r : CustomRole) : CustomRole :=
  { r with inheritsFrom := r.inheritsFrom.filter (· ≠ roleId) }

def deleteCustomRole (d : Directory) (roleId : ℕ) : Except Refusal Directory := do
  let role ← orThrow (d.roles.get? roleId) ⟨404, "Not Found"⟩
  ensure (role.isSystem = false) ⟨403, "System roles cannot be deleted"⟩
  let userCount := (d.users.select fun u => u.customRoleId = some roleId).length
  ensure (userCount = 0)
    ⟨409, s!"Role is assigned to {userCount} user(s). Remove assignments first."⟩
  return { d with roles := (d.roles.map (disinherit roleId) fun _ _ => rfl).delete roleId }

/-- A request to the routes, or a change of the users elsewhere. -/
inductive Event
  | create (data : RoleData)
  | update (roleId : ℕ) (data : RoleData)
  | delete (roleId : ℕ)
  | users (users : Table User)

def step (d : Directory) : Event → Directory
  | .create data => (createCustomRole d data).toOption.getD d
  | .update roleId data => (updateCustomRole d roleId data).toOption.getD d
  | .delete roleId => (deleteCustomRole d roleId).toOption.getD d
  | .users users => { d with users }

def parentId (roles : Table CustomRole) (id : ℕ) : Option ℕ :=
  (roles.get? id).bind CustomRole.inheritsFrom

def Climbs (roles : Table CustomRole) : ℕ → ℕ → Prop :=
  ReflTransGen fun a b => parentId roles a = some b

def Inherited (roles : Table CustomRole) (role : CustomRole) (p : Permission) : Prop :=
  ∃ a ∈ roles, Climbs roles role.id a.id ∧ ∃ perms, permissionSet a.permissions = .ok perms ∧
    p ∈ perms

/-- No role inherits from itself, and collecting the permissions of any ends with those that it
has and inherits. -/
structure Sound (d : Directory) : Prop where
  acyclic : Acyclic (parentId d.roles)
  collects : ∀ role ∈ d.roles, ∃ enough, ∀ depth, enough ≤ depth →
    ∃ perms, getAllPermissions d.roles depth role = .ok perms ∧
      ∀ p, p ∈ perms ↔ Inherited d.roles role p

def Settable (permissions : Json) : Prop := ∃ perms, permissionSet permissions = .ok perms

/-- The permissions stored are a set, and the role is not reached from its new parent. -/
def Safe (d : Directory) : Event → Prop
  | .create data => (∃ d', createCustomRole d data = .ok d') →
      Settable (data.permissions.getD (.array [])) ∧
        ∀ p, data.inheritsFrom.join = some p → ¬Climbs d.roles p d.roles.nextKey
  | .update roleId data => (∃ d', updateCustomRole d roleId data = .ok d') →
      (∀ permissions ∈ data.permissions, Settable permissions) ∧
        ∀ p, data.inheritsFrom = some (some p) → ¬Climbs d.roles p roleId
  | _ => True

section Collecting

variable {roles : Table CustomRole} {role q : CustomRole} {p : Permission}

theorem parentId_of_mem (h : role ∈ roles) : parentId roles role.id = role.inheritsFrom := by
  have hget : roles.get? role.id = some role := Table.get?_eq_some_iff.mpr ⟨h, rfl⟩
  rw [parentId, hget, Option.bind_some]

theorem eq_of_mem_of_id {a b : CustomRole} (ha : a ∈ roles) (hb : b ∈ roles) (h : a.id = b.id) :
    a = b :=
  Table.eq_of_key_eq ha hb h

theorem inherited_of_parent (hrole : role ∈ roles) (hparent : parent roles role = some q) :
    Inherited roles role p ↔
      (∃ perms, permissionSet role.permissions = .ok perms ∧ p ∈ perms) ∨ Inherited roles q p := by
  obtain ⟨k, hk, hget⟩ := Option.bind_eq_some_iff.mp hparent
  have hid : q.id = k := Table.key_of_get? hget
  have hedge : parentId roles role.id = some q.id := by rw [parentId_of_mem hrole, hk, hid]
  constructor
  · rintro ⟨a, ha, hclimbs, hperms⟩
    rcases ReflTransGen.cases_head hclimbs with heq | ⟨b, hb, hrest⟩
    · exact .inl (eq_of_mem_of_id hrole ha heq ▸ hperms)
    · obtain rfl : q.id = b := Option.some.inj (hedge.symm.trans hb)
      exact .inr ⟨a, ha, hrest, hperms⟩
  · rintro (hperms | ⟨a, ha, hclimbs, hperms⟩)
    · exact ⟨role, hrole, .refl, hperms⟩
    · exact ⟨a, ha, hclimbs.head hedge, hperms⟩

theorem inherited_of_no_parent (hrole : role ∈ roles) (hparent : parent roles role = none) :
    Inherited roles role p ↔
      ∃ perms, permissionSet role.permissions = .ok perms ∧ p ∈ perms := by
  constructor
  · rintro ⟨a, ha, hclimbs, hperms⟩
    rcases ReflTransGen.cases_head hclimbs with heq | ⟨b, hb, hrest⟩
    · exact eq_of_mem_of_id hrole ha heq ▸ hperms
    · -- the name leads to no role, so nothing is above it
      rw [parentId_of_mem hrole] at hb
      have hnone : roles.get? b = none := by rwa [parent, hb, Option.bind_some] at hparent
      rcases ReflTransGen.cases_head hrest with heq | ⟨c, hc, _⟩
      · exact absurd heq.symm (Table.get?_eq_none_iff.mp hnone a ha)
      · rw [parentId, hnone, Option.bind_none] at hc
        cases hc
  · exact fun hperms => ⟨role, hrole, .refl, hperms⟩

theorem collects_of_ascend (hset : ∀ r ∈ roles, Settable r.permissions) {n depth : ℕ} {l : List ℕ}
    (hrole : role ∈ roles) (h : ascend (parentId roles) n (some role.id) = some l)
    (hdepth : n ≤ depth) :
    ∃ perms, getAllPermissions roles depth role = .ok perms ∧
      ∀ p, p ∈ perms ↔ Inherited roles role p := by
  induction n generalizing role depth l with
  | zero => cases h
  | succ n ih =>
    obtain ⟨depth, rfl⟩ : ∃ m, depth = m + 1 := ⟨depth - 1, by omega⟩
    obtain ⟨rest, hrest, _⟩ := Option.map_eq_some_iff.mp h
    obtain ⟨own, hown⟩ := hset role hrole
    cases hparent : parent roles role with
    | none =>
      refine ⟨own, by simp [getAllPermissions, hown, hparent], fun p => ?_⟩
      rw [inherited_of_no_parent hrole hparent, hown]
      simp
    | some q =>
      obtain ⟨k, hk, hget⟩ := Option.bind_eq_some_iff.mp hparent
      have hid : q.id = k := Table.key_of_get? hget
      rw [parentId_of_mem hrole, hk, ← hid] at hrest
      obtain ⟨perms, hperms, hmem⟩ := ih (Table.mem_of_get? hget) hrest (Nat.le_of_succ_le_succ hdepth)
      refine ⟨own ∪ perms, by simp [getAllPermissions, hown, hparent, hperms], fun p => ?_⟩
      rw [inherited_of_parent hrole hparent, hown, Finset.mem_union, hmem]
      simp

def named (roles : Table CustomRole) : List ℕ :=
  roles.rows.map CustomRole.id ++ roles.rows.filterMap CustomRole.inheritsFrom

theorem mem_named_of_parentId {a b : ℕ} (h : parentId roles a = some b) : b ∈ named roles := by
  obtain ⟨r, hget, hr⟩ := Option.bind_eq_some_iff.mp h
  exact List.mem_append_right _ (List.mem_filterMap.mpr ⟨r, Table.mem_of_get? hget, hr⟩)

theorem sound_iff (d : Directory) :
    Sound d ↔ Acyclic (parentId d.roles) ∧ ∀ role ∈ d.roles, Settable role.permissions := by
  constructor
  · intro h
    refine ⟨h.acyclic, fun role hrole => ?_⟩
    obtain ⟨enough, henough⟩ := h.collects role hrole
    obtain ⟨perms, hperms, _⟩ := henough (enough + 1) (Nat.le_succ enough)
    obtain ⟨own, hown, _⟩ := bind_eq_ok.mp hperms
    exact ⟨own, hown⟩
  · rintro ⟨hacyclic, hset⟩
    refine ⟨hacyclic, fun role hrole => ⟨(named d.roles).length, fun depth hdepth => ?_⟩⟩
    have hmem : ∀ a ∈ some role.id, a ∈ named d.roles := by
      intro a ha
      obtain rfl := Option.some.inj ha
      exact List.mem_append_left _ (List.mem_map.mpr ⟨role, hrole, rfl⟩)
    obtain ⟨l, hl, _⟩ := hacyclic.exists_ascend (fun a b => mem_named_of_parentId) hmem
    exact collects_of_ascend hset hrole hl hdepth

end Collecting

section Steps

variable {roles : Table CustomRole}

theorem parentId_insert (role : CustomRole) (a : ℕ) :
    parentId (roles.insert role) a =
      if a = roles.nextKey then role.inheritsFrom else parentId roles a := by
  rw [parentId, Table.get?_insert]
  split_ifs
  · rfl
  · rfl

theorem parentId_update {roleId : ℕ} {role : CustomRole} (hget : roles.get? roleId = some role)
    (change : CustomRole → CustomRole) (a : ℕ) :
    parentId (roles.update roleId change) a =
      if a = roleId then (change role).inheritsFrom else parentId roles a := by
  split_ifs with ha
  · rw [parentId, ha, Table.get?_update_self hget]
    rfl
  · rw [parentId, Table.get?_update_of_ne (Ne.symm ha)]
    rfl

theorem parentId_delete {roleId a b : ℕ}
    (h : parentId ((roles.map (disinherit roleId) fun _ _ => rfl).delete roleId) a = some b) :
    parentId roles a = some b := by
  obtain ⟨r, hget, hr⟩ := Option.bind_eq_some_iff.mp h
  obtain ⟨hmem, hid⟩ := Table.get?_eq_some_iff.mp hget
  obtain ⟨r', hr', rfl⟩ := (Table.mem_map _).mp (Table.mem_delete.mp hmem).1
  have hget' : roles.get? a = some r' := Table.get?_eq_some_iff.mpr ⟨hr', hid⟩
  rw [parentId, hget', Option.bind_some]
  exact (Option.filter_eq_some_iff.mp hr).1

/-- Putting one role in place keeps everything sound exactly if its permissions are a set and it
is not reached from its parent. -/
theorem sound_link_iff {d d' : Directory} (h : Sound d) {k : ℕ} (role : CustomRole)
    (hmem : ∀ r, r ∈ d'.roles ↔ r = role ∨ r ∈ d.roles ∧ r.id ≠ k)
    (hparent : ∀ a, parentId d'.roles a =
      if a = k then role.inheritsFrom else parentId d.roles a) :
    Sound d' ↔ Settable role.permissions ∧
      ∀ p, role.inheritsFrom = some p → ¬Climbs d.roles p k := by
  obtain ⟨hacyclic, hset⟩ := (sound_iff d).mp h
  have hsame : ∀ a, a ≠ k → parentId d'.roles a = parentId d.roles a :=
    fun a ha => (hparent a).trans (if_neg ha)
  have hk : parentId d'.roles k = role.inheritsFrom := (hparent k).trans (if_pos rfl)
  have hacyclic' : Acyclic (parentId d'.roles) ↔
      ∀ p, role.inheritsFrom = some p → ¬Climbs d.roles p k := by
    cases hrole : role.inheritsFrom with
    | none =>
      refine iff_of_true (hacyclic.mono fun a b hab => ?_) fun p hp => by cases hp
      by_cases ha : a = k
      · rw [ha, hk, hrole] at hab
        cases hab
      · exact (hsame a ha).symm.trans hab
    | some p =>
      rw [hacyclic.link_iff hsame (hk.trans hrole)]
      exact ⟨fun hnot q hq => Option.some.inj hq ▸ hnot, fun hnot => hnot p rfl⟩
  have hset' : (∀ r ∈ d'.roles, Settable r.permissions) ↔ Settable role.permissions := by
    constructor
    · exact fun hall => hall role ((hmem role).mpr (.inl rfl))
    · intro hrole r hr
      rcases (hmem r).mp hr with rfl | ⟨hold, _⟩
      · exact hrole
      · exact hset r hold
  rw [sound_iff, hacyclic', hset', and_comm]

theorem getD_of_refused {d : Directory} {x : Except Refusal Directory} (h : ¬∃ d', x = .ok d') :
    x.toOption.getD d = d := by
  cases x with
  | ok d' => exact absurd ⟨d', rfl⟩ h
  | error e => rfl

theorem sound_create_iff {d : Directory} (h : Sound d) (data : RoleData) :
    Sound (step d (.create data)) ↔ Safe d (.create data) := by
  by_cases haccepted : ∃ d', createCustomRole d data = .ok d'
  · obtain ⟨d', hd'⟩ := haccepted
    obtain ⟨name, _, hrest⟩ := bind_eq_ok.mp hd'
    obtain ⟨_, _, heq⟩ := bind_eq_ok.mp hrest
    have hstep : step d (.create data) = { d with roles := d.roles.insert (newRole name data) } := by
      rw [step, hd', ← pure_eq_ok.mp heq]
      rfl
    have hsafe : Safe d (.create data) ↔ Settable (data.permissions.getD (.array [])) ∧
        ∀ p, data.inheritsFrom.join = some p → ¬Climbs d.roles p d.roles.nextKey :=
      ⟨fun hall => hall ⟨d', hd'⟩, fun hall _ => hall⟩
    rw [hstep, hsafe]
    refine sound_link_iff h (Keyed.withKey d.roles.nextKey (newRole name data))
      (fun r => ?_) (parentId_insert (newRole name data))
    refine Table.mem_insert.trans (or_comm.trans (or_congr_right ?_))
    exact ⟨fun hr => ⟨hr, (Table.key_lt_nextKey hr).ne⟩, And.left⟩
  · rw [step, getD_of_refused haccepted]
    exact iff_of_true h fun haccepted' => absurd haccepted' haccepted

theorem sound_update_iff {d : Directory} (h : Sound d) (roleId : ℕ) (data : RoleData) :
    Sound (step d (.update roleId data)) ↔ Safe d (.update roleId data) := by
  by_cases haccepted : ∃ d', updateCustomRole d roleId data = .ok d'
  · obtain ⟨d', hd'⟩ := haccepted
    obtain ⟨role, hget, hrest⟩ := bind_eq_ok.mp hd'
    rw [orThrow_eq_ok] at hget
    obtain ⟨name, _, hrest⟩ := bind_eq_ok.mp hrest
    obtain ⟨_, _, heq⟩ := bind_eq_ok.mp hrest
    have hstep : step d (.update roleId data) =
        { d with roles := d.roles.update roleId (changedRole name data) } := by
      rw [step, hd', ← pure_eq_ok.mp heq]
      rfl
    have hsafe : Safe d (.update roleId data) ↔
        (∀ permissions ∈ data.permissions, Settable permissions) ∧
          ∀ p, data.inheritsFrom = some (some p) → ¬Climbs d.roles p roleId :=
      ⟨fun hall => hall ⟨d', hd'⟩, fun hall _ => hall⟩
    have hlink : Sound { d with roles := d.roles.update roleId (changedRole name data) } ↔
        Settable (changedRole name data role).permissions ∧
          ∀ p, (changedRole name data role).inheritsFrom = some p → ¬Climbs d.roles p roleId := by
      refine sound_link_iff h (Keyed.withKey roleId (changedRole name data role))
        (fun r => ?_) (parentId_update hget (changedRole name data))
      refine Table.mem_update.trans (or_comm.trans (or_congr_left ?_))
      rw [hget]
      simp
    obtain ⟨hacyclic, hset⟩ := (sound_iff d).mp h
    have hrole : role ∈ d.roles := Table.mem_of_get? hget
    have hid : role.id = roleId := Table.key_of_get? hget
    rw [hstep, hsafe, hlink]
    refine and_congr ?_ ?_
    · -- permissions that are not sent stay
      unfold changedRole
      cases data.permissions with
      | none => simpa using hset role hrole
      | some permissions => simp
    · unfold changedRole
      cases data.inheritsFrom with
      | none =>
        refine iff_of_true (fun p hp hclimbs => ?_) fun p hp => by cases hp
        have hedge : parentId d.roles roleId = some p := by
          rw [← hid, parentId_of_mem hrole]
          exact hp
        exact hacyclic roleId (TransGen.head' hedge hclimbs)
      | some inheritsFrom => simp
  · rw [step, getD_of_refused haccepted]
    exact iff_of_true h fun haccepted' => absurd haccepted' haccepted

theorem Sound.delete {d : Directory} (h : Sound d) (roleId : ℕ) :
    Sound (step d (.delete roleId)) := by
  by_cases haccepted : ∃ d', deleteCustomRole d roleId = .ok d'
  · obtain ⟨d', hd'⟩ := haccepted
    obtain ⟨role, _, hrest⟩ := bind_eq_ok.mp hd'
    obtain ⟨_, _, hrest⟩ := bind_eq_ok.mp hrest
    obtain ⟨_, _, heq⟩ := bind_eq_ok.mp hrest
    obtain ⟨hacyclic, hset⟩ := (sound_iff d).mp h
    rw [step, hd', ← pure_eq_ok.mp heq]
    refine (sound_iff _).mpr ⟨hacyclic.mono fun a b => parentId_delete, fun r hr => ?_⟩
    obtain ⟨r', hr', rfl⟩ := (Table.mem_map _).mp (Table.mem_delete.mp hr).1
    exact hset r' hr'
  · rwa [step, getD_of_refused haccepted]

theorem sound_step_iff {d : Directory} (h : Sound d) (e : Event) :
    Sound (step d e) ↔ Safe d e := by
  cases e with
  | create data => exact sound_create_iff h data
  | update roleId data => exact sound_update_iff h roleId data
  | delete roleId => exact iff_of_true (h.delete roleId) trivial
  | users users => exact iff_of_true ⟨h.acyclic, h.collects⟩ trivial

end Steps

/-- From roles that do not inherit yet, inheritance stays sound exactly if each request that is
accepted stores a set of permissions and a parent from which the role is not reached. -/
theorem inheritance_run_iff {d : Directory}
    (hroles : ∀ r ∈ d.roles, r.inheritsFrom = none ∧ Settable r.permissions) (es : List Event) :
    (∀ pre, pre <+: es → Sound (run step d pre)) ↔ Meets step Safe d es := by
  have hacyclic : Acyclic (parentId d.roles) := by
    intro a ha
    obtain ⟨b, hab, _⟩ := TransGen.head'_iff.mp ha
    obtain ⟨r, hget, hr⟩ := Option.bind_eq_some_iff.mp hab
    rw [(hroles r (Table.mem_of_get? hget)).1] at hr
    cases hr
  have hsound : Sound d := (sound_iff d).mpr ⟨hacyclic, fun r hr => (hroles r hr).2⟩
  refine forall_prefix_iff_meets (I := fun _ => True) ?_ (fun _ _ _ _ _ => trivial) es trivial
    hsound
  exact fun d e _ h => sound_step_iff h e

def sampleRoles : Directory :=
  { roles := ⟨[{ id := 1, name := "operator", permissions := .array [.text "read:cas"] },
      { id := 2, name := "auditor", permissions := .array [.text "read:audit"] }], by decide⟩
    users := ∅ }

theorem inheritance_run_sample :
    (∀ pre, pre <+: [Event.delete 2] → Sound (run step sampleRoles pre)) ↔
      Meets step Safe sampleRoles [.delete 2] := by
  refine inheritance_run_iff (fun r hr => ?_) _
  simp only [sampleRoles, Table.mem_def, List.mem_cons, List.not_mem_nil, or_false] at hr
  rcases hr with rfl | rfl
  · exact ⟨rfl, _, rfl⟩
  · exact ⟨rfl, _, rfl⟩

/-- Two accepted updates make two roles inherit from each other. -/
theorem roles_inherit_in_circle :
    ¬Sound (run step sampleRoles [.update 1 { inheritsFrom := some (some 2) },
      .update 2 { inheritsFrom := some (some 1) }]) := by
  intro h
  refine h.acyclic 1 ?_
  refine TransGen.head (b := 2) ?_ (.single ?_)
  · decide
  · decide

end Rbac

end CaManager
