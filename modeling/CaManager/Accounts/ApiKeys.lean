import CaManager.Accounts.Administrators
import CaManager.Accounts.Authentication

/-!
# API keys

Users make API keys with permissions of their choice, make them anew and revoke them, while
administrators change roles and deactivate users. A key keeps the permissions it was made
with, and is asked for nothing else. No request gets beyond its user's role exactly as long as
the keys are made within the role, and the roles stay above the keys.
-/

namespace CaManager

open Library

/-- `auth.permissions.has_permission` -/
def Administration.roleHasPermission (role required : String) : Bool :=
  let permissions := rolePermissions role
  let parts := splitText ':' required
  let action := parts.headD ""
  let resource := if ':' ∈ required.toList then (parts.drop 1).headD "" else "*"
  "*" ∈ permissions || required ∈ permissions ||
    permissions.any fun perm => perm = action ++ ":*" || perm = "*:" ++ resource

structure NewKey where
  name : String := ""
  permissions : Json := .null
  expiresDays : ℤ := 365

/-- The users and what administering them needs, the keys, and how many a user may have. -/
structure KeyState where
  admin : Administration.State
  keys : Table ApiKey := ∅
  maxKeys : ℕ := 10

namespace ApiKeys

def validCategories : List String := ["read", "write", "delete", "admin"]

def validResources : List String :=
  ["cas", "certificates", "acme", "scep", "crl", "settings", "users", "system"]

/-- The format of a permission. What the text of any other value would be is left out. -/
def checkPermission : Json → Except Refusal String
  | .text perm =>
    if perm = "*" then .ok perm
    else if ':' ∈ perm.toList then do
      let category := (splitText ':' perm).headD ""
      let resource := String.ofList ((perm.toList.dropWhile (· ≠ ':')).drop 1)
      ensure (category ∈ validCategories ∨ category = "*")
        ⟨400, "Invalid permission category: " ++ category⟩
      ensure (resource ∈ validResources ∨ resource = "*")
        ⟨400, "Invalid permission resource: " ++ resource⟩
      return perm
    else .error ⟨400, "Invalid permission format: " ++ perm⟩
  | .array elements =>
    if elements.any (Json.isText ":") then .error ⟨500, "Internal server error"⟩
    else .error ⟨400, "Invalid permission format"⟩
  | .object members =>
    if members.any (·.1 = ":") then .error ⟨500, "Internal server error"⟩
    else .error ⟨400, "Invalid permission format"⟩
  | _ => .error ⟨500, "Internal server error"⟩

/-- Between the first and the last second that a `datetime` can be. -/
def InCalendar (t : Time) : Prop := -62135596800 ≤ t ∧ t ≤ 253402300799

instance (t : Time) : Decidable (InCalendar t) := inferInstanceAs (Decidable (_ ∧ _))

/-- `utc_now() + timedelta(days=…)`, which may be out of range. -/
def expiry (now : Time) (expiresDays : ℤ) : Option Time :=
  if expiresDays.natAbs ≤ 999999999 ∧ InCalendar (now + days expiresDays) then
    some (now + days expiresDays)
  else none

def Grants (role : String) (permissions : List String) : Prop :=
  "*" ∈ Administration.rolePermissions role ∨
    ∀ p ∈ permissions, p ∈ Administration.rolePermissions role

instance (role : String) (permissions : List String) : Decidable (Grants role permissions) :=
  inferInstanceAs (Decidable (_ ∨ _))

/-- The user of the key is active, and the role grants the key's permissions. -/
def WithinRole (st : Accounts) (row : ApiKey) : Prop :=
  ∃ u ∈ st.users.get? row.userId, u.active = true ∧ Grants u.role row.permissions

instance (st : Accounts) (row : ApiKey) : Decidable (WithinRole st row) :=
  inferInstanceAs (Decidable (∃ u ∈ _, _))

def Live (now : Time) (row : ApiKey) : Prop :=
  row.isActive = true ∧ AuthManager.expired now row = false

instance (now : Time) (row : ApiKey) : Decidable (Live now row) :=
  inferInstanceAs (Decidable (_ ∧ _))

section Permissions

open Administration

variable {role p : String} {permissions : List String}

theorem plain_of_mem {perm : String} (h : perm ∈ rolePermissions role) :
    perm = "*" ∨ perm.toList.head? ≠ some '*' ∧ perm.toList.getLast? ≠ some '*' := by
  unfold rolePermissions at h
  split at h
  all_goals
    revert perm
    decide

theorem pattern_not_mem (h : "*" ∉ rolePermissions role) (action : String) :
    action ++ ":*" ∉ rolePermissions role := by
  intro hmem
  rcases plain_of_mem hmem with heq | ⟨_, hlast⟩
  · exact h (heq ▸ hmem)
  · rw [String.toList_append] at hlast
    exact hlast (List.getLast?_append_of_ne_nil _ (by decide))

theorem resourcePattern_not_mem (h : "*" ∉ rolePermissions role) (resource : String) :
    "*:" ++ resource ∉ rolePermissions role := by
  intro hmem
  rcases plain_of_mem hmem with heq | ⟨hhead, _⟩
  · exact h (heq ▸ hmem)
  · rw [String.toList_append] at hhead
    exact hhead rfl

theorem roleHasPermission_iff : roleHasPermission role p = true ↔
    "*" ∈ rolePermissions role ∨ p ∈ rolePermissions role := by
  unfold roleHasPermission
  simp only [Bool.or_eq_true, decide_eq_true_eq, or_assoc, List.any_eq_true]
  refine or_congr_right' fun hstar => or_iff_left ?_
  rintro ⟨perm, hmem, rfl | rfl⟩
  · exact pattern_not_mem hstar _ hmem
  · exact resourcePattern_not_mem hstar _ hmem

theorem grants_iff : Grants role permissions ↔
    ∀ p, hasPermission p permissions = true → roleHasPermission role p = true := by
  constructor
  · rintro (hstar | hall) p hp
    · exact roleHasPermission_iff.mpr (.inl hstar)
    · rw [roleHasPermission_iff]
      by_cases hstar : "*" ∈ rolePermissions role
      · exact .inl hstar
      · simp only [hasPermission, Bool.or_eq_true, Bool.and_eq_true, decide_eq_true_eq] at hp
        rcases hp with (hp | hp) | ⟨_, hp⟩
        · exact .inl (hall _ hp)
        · exact .inr (hall _ hp)
        · exact absurd (hall _ hp) (pattern_not_mem hstar _)
  · intro h
    by_cases hstar : "*" ∈ rolePermissions role
    · exact .inl hstar
    · refine .inr fun p hp => ?_
      have hlisted : hasPermission p permissions = true := by simp [hasPermission, hp]
      exact (roleHasPermission_iff.mp (h p hlisted)).resolve_left hstar

end Permissions

def AllWithin (st : Accounts) (now : Time) (keys : Table ApiKey) : Prop :=
  ∀ row ∈ keys, Live now row → WithinRole st row

def revoke (keys : Table ApiKey) (id : ℕ) : Table ApiKey :=
  keys.update id fun row => { row with isActive := false }

section Changes

variable {st : Accounts} {now : Time} {keys : Table ApiKey} {row : ApiKey} {id : ℕ}
  {f : ApiKey → ApiKey}

/-- A change of a key that leaves whose it is and what it grants, and wakes no key up. -/
structure Harmless (f : ApiKey → ApiKey) : Prop where
  userId : ∀ row, (f row).userId = row.userId
  keyHash : ∀ row, (f row).keyHash = row.keyHash
  permissions : ∀ row, (f row).permissions = row.permissions
  expiresAt : ∀ row, (f row).expiresAt = row.expiresAt
  active : ∀ row, (f row).isActive = true → row.isActive = true

theorem harmless_used (now : Time) : Harmless fun row => { row with lastUsedAt := some now } :=
  ⟨fun _ => rfl, fun _ => rfl, fun _ => rfl, fun _ => rfl, fun _ h => h⟩

theorem harmless_revoked : Harmless fun row => { row with isActive := false } :=
  ⟨fun _ => rfl, fun _ => rfl, fun _ => rfl, fun _ => rfl, fun _ h => by cases h⟩

theorem AllWithin.update (h : AllWithin st now keys) (hf : Harmless f) :
    AllWithin st now (keys.update id f) := by
  intro row hrow hlive
  rcases Table.mem_update.mp hrow with ⟨hrow, _⟩ | ⟨row₀, hrow₀, rfl⟩
  · exact h row hrow hlive
  · have hlive₀ : Live now row₀ := by
      refine ⟨hf.active row₀ hlive.1, ?_⟩
      have hexpired : (f row₀).expiresAt.any (· < now) = false := hlive.2
      rw [hf.expiresAt] at hexpired
      exact hexpired
    obtain ⟨u, hu, hactive, hgrants⟩ := h row₀ (Table.mem_of_get? hrow₀) hlive₀
    refine ⟨u, ?_, hactive, ?_⟩
    · change u ∈ st.users.get? (f row₀).userId
      rw [hf.userId]
      exact hu
    · change Grants u.role (f row₀).permissions
      rw [hf.permissions]
      exact hgrants

theorem AllWithin.insert_iff (h : AllWithin st now keys) :
    AllWithin st now (keys.insert row) ↔ (Live now row → WithinRole st row) := by
  constructor
  · exact fun hall => hall (Keyed.withKey keys.nextKey row) (Table.mem_insert.mpr (.inr rfl))
  · intro hrow r hr
    rcases Table.mem_insert.mp hr with hr | rfl
    · exact h r hr
    · exact hrow

theorem AllWithin.revoke_insert_iff (h : AllWithin st now keys) (hne : keys.nextKey ≠ id) :
    AllWithin st now (revoke (keys.insert row) id) ↔ (Live now row → WithinRole st row) := by
  constructor
  · intro hall
    exact hall (Keyed.withKey keys.nextKey row)
      (Table.mem_update.mpr (.inl ⟨Table.mem_insert.mpr (.inr rfl), hne⟩))
  · exact fun hrow => (h.insert_iff.mpr hrow).update harmless_revoked

theorem not_expired_before {later : Time} (hle : now ≤ later)
    (h : AuthManager.expired later row = false) : AuthManager.expired now row = false := by
  unfold AuthManager.expired at h ⊢
  cases hexpires : row.expiresAt with
  | none => rfl
  | some t =>
    rw [hexpires] at h
    simp only [Option.any_some, decide_eq_false_iff_not, not_lt] at h ⊢
    exact hle.trans h

theorem get?_commit {st : Accounts} {id : ℕ} {u : User} (h : st.users.get? id = some u)
    (w : Administration.Write) : ∃ u', (w.commit st).users.get? id = some u' := by
  cases w with
  | insertUser v =>
    cases hadd : st.addUser v with
    | none => exact ⟨u, by simpa [Administration.Write.commit, hadd] using h⟩
    | some st' =>
      obtain ⟨_, rfl⟩ := Accounts.addUser_eq_some hadd
      refine ⟨u, ?_⟩
      rw [Administration.Write.commit, hadd]
      exact Table.get?_insert_of_get? h
  | updateUser loaded changed =>
    simp only [Administration.Write.commit]
    split_ifs
    · exact ⟨u, h⟩
    · by_cases hid : loaded.id = id
      · subst hid
        exact ⟨_, Table.get?_update_self h⟩
      · exact ⟨u, (Table.get?_update_of_ne hid).trans h⟩
  | settings changes => exact ⟨u, h⟩
  | deleteCertificate id => exact ⟨u, h⟩

theorem get?_proceed {a : Administration.State} {id : ℕ} {u : User}
    (h : a.accounts.users.get? id = some u) (t : Administration.Thread) :
    ∃ u', (Administration.proceed a t).2.users.get? id = some u' := by
  cases t with
  | idle => exact ⟨u, h⟩
  | checking actor ids =>
    cases ids with
    | nil => exact ⟨u, h⟩
    | cons id' ids => exact ⟨u, h⟩
  | committing w actor ids => exact get?_commit h w

end Changes

variable [HashLibrary]

/-- The row that `AuthManager.create_api_key` inserts. Hashes of keys are unique. -/
def newRow (keys : Table ApiKey) (now : Time) (userId : ℕ) (name : String)
    (permissions : List String) (expiresDays : ℤ) (token : String) : Option ApiKey := do
  let expiresAt ← expiry now expiresDays
  let keyHash := HashLibrary.sha256 ("ucm_ak_" ++ token)
  guard ((keys.first fun row => row.keyHash = keyHash) = none)
  return { userId, keyHash, name, permissions, expiresAt := some expiresAt }

section Routes

variable (s : KeyState) (caller : Caller)

def authenticated : Option AuthResult :=
  (AuthManager.authenticateRequest s.admin.accounts s.keys s.admin.now caller).1

def touched : Table ApiKey :=
  (AuthManager.authenticateRequest s.admin.accounts s.keys s.admin.now caller).2.1

/-- `create_api_key`: the key it stores. -/
def createApiKey (data : Option NewKey) (token : String) : Except Refusal ApiKey := do
  let g ← AuthManager.authorize [] (authenticated s caller)
  let data ← orThrow (data.filter fun data => data.name ≠ "") ⟨400, "Name is required"⟩
  ensure (data.permissions.truthy = true) ⟨400, "Permissions are required"⟩
  match data.permissions with
  | .array elements =>
    let permissions ← elements.mapM checkPermission
    ensure ((s.keys.select fun row => row.userId = g.userId && row.isActive).length < s.maxKeys)
      ⟨400, "Maximum " ++ toString s.maxKeys ++ " active API keys per user"⟩
    orThrow (newRow s.keys s.admin.now g.userId data.name permissions data.expiresDays token)
      ⟨500, "Failed to create API key"⟩
  | _ => throw ⟨400, "Permissions must be a list"⟩

def ownKey (userId keyId : ℕ) : Option ApiKey :=
  (s.keys.get? keyId).filter fun row => row.userId = userId

/-- `regenerate_api_key`: the old key, and the one it stores. The old one need not be active. -/
def regenerateApiKey (keyId : ℕ) (token : String) : Except Refusal (ApiKey × ApiKey) := do
  let g ← AuthManager.authorize [] (authenticated s caller)
  let oldKey ← orThrow (ownKey s g.userId keyId) ⟨404, "API key not found"⟩
  let row ← orThrow
    (newRow s.keys s.admin.now g.userId (oldKey.name ++ " (regenerated)") oldKey.permissions 365
      token)
    ⟨500, "Failed to regenerate API key"⟩
  return (oldKey, row)

/-- `delete_api_key`: the key it revokes. -/
def deleteApiKey (keyId : ℕ) : Except Refusal ApiKey := do
  let g ← AuthManager.authorize [] (authenticated s caller)
  orThrow (ownKey s g.userId keyId) ⟨404, "API key not found"⟩

def serve (required : List String) : Except Refusal AuthResult :=
  AuthManager.authorize required (authenticated s caller)

end Routes

/-- Something happens to users or time, or a request about keys or to any route arrives. -/
inductive Event
  | admin (e : Administration.Event)
  | createApiKey (caller : Caller) (data : Option NewKey) (token : String)
  | regenerateApiKey (caller : Caller) (keyId : ℕ) (token : String)
  | deleteApiKey (caller : Caller) (keyId : ℕ)
  | request (caller : Caller) (required : List String)

def step [PasswordLibrary] (s : KeyState) : Event → KeyState
  | .admin e => { s with admin := Administration.step s.admin e }
  | .createApiKey caller data token =>
    match createApiKey s caller data token with
    | .ok row => { s with keys := (touched s caller).insert row }
    | .error _ => { s with keys := touched s caller }
  | .regenerateApiKey caller keyId token =>
    match regenerateApiKey s caller keyId token with
    | .ok (oldKey, row) => { s with keys := revoke ((touched s caller).insert row) oldKey.id }
    | .error _ => { s with keys := touched s caller }
  | .deleteApiKey caller keyId =>
    match deleteApiKey s caller keyId with
    | .ok row => { s with keys := revoke (touched s caller) row.id }
    | .error _ => { s with keys := touched s caller }
  | .request caller _ => { s with keys := touched s caller }

/-- Whatever a request that shows a key is let in for, the user of the key is active, and the
user's role grants it. -/
def NoEscalation (s : KeyState) : Prop :=
  ∀ caller required result id name, serve s caller required = .ok result →
    result.authMethod = .apiKey id name →
    ∃ u, result.user = some u ∧ u.active = true ∧
      ∀ p ∈ required, Administration.roleHasPermission u.role p = true

/-- A key is made or made anew within its user's role, and what is written about users leaves
every live key within the role of an active user. -/
def Contained [PasswordLibrary] (s : KeyState) : Event → Prop
  | .createApiKey caller data token =>
    ∀ row ∈ (createApiKey s caller data token).toOption,
      Live s.admin.now row → WithinRole s.admin.accounts row
  | .regenerateApiKey caller keyId token =>
    ∀ rows ∈ (regenerateApiKey s caller keyId token).toOption,
      Live s.admin.now rows.2 → WithinRole s.admin.accounts rows.2
  | .admin (.proceed k) =>
    ∀ row ∈ s.keys.rows, Live s.admin.now row →
      WithinRole (Administration.proceed s.admin (s.admin.threads k)).2 row
  | .admin (.begin ..) | .admin (.elapse _) | .deleteApiKey .. | .request .. => True

/-- Every key has a user, shows the hash of some key text, and is the only one to do so. -/
structure KeysOk (st : Accounts) (keys : Table ApiKey) : Prop where
  owned : ∀ row ∈ keys, ∃ u, st.users.get? row.userId = some u
  shown : ∀ row ∈ keys, ∃ key, key ≠ "" ∧ HashLibrary.sha256 key = row.keyHash
  unique : ∀ row ∈ keys, ∀ row' ∈ keys, row.keyHash = row'.keyHash → row = row'

section Keys

variable {st : Accounts} {keys : Table ApiKey} {row : ApiKey} {id : ℕ} {f : ApiKey → ApiKey}

theorem KeysOk.update (h : KeysOk st keys) (hf : Harmless f) : KeysOk st (keys.update id f) := by
  have hold : ∀ row ∈ keys.update id f, ∃ row₀ ∈ keys, row₀.id = row.id ∧
      row.userId = row₀.userId ∧ row.keyHash = row₀.keyHash := by
    intro row hrow
    rcases Table.mem_update.mp hrow with ⟨hrow, _⟩ | ⟨row₀, hrow₀, rfl⟩
    · exact ⟨row, hrow, rfl, rfl, rfl⟩
    · exact ⟨row₀, Table.mem_of_get? hrow₀, Table.key_of_get? hrow₀, hf.userId row₀,
        hf.keyHash row₀⟩
  refine ⟨fun row hrow => ?_, fun row hrow => ?_, fun row hrow row' hrow' heq => ?_⟩
  · obtain ⟨row₀, hrow₀, _, huser, _⟩ := hold row hrow
    rw [huser]
    exact h.owned row₀ hrow₀
  · obtain ⟨row₀, hrow₀, _, _, hhash⟩ := hold row hrow
    rw [hhash]
    exact h.shown row₀ hrow₀
  · obtain ⟨row₀, hrow₀, hid, _, hhash⟩ := hold row hrow
    obtain ⟨row₀', hrow₀', hid', _, hhash'⟩ := hold row' hrow'
    have hsame := h.unique row₀ hrow₀ row₀' hrow₀' (hhash.symm.trans (heq.trans hhash'))
    exact Table.eq_of_key_eq hrow hrow' (hid.symm.trans ((congrArg ApiKey.id hsame).trans hid'))

theorem KeysOk.insert (h : KeysOk st keys) (howned : ∃ u, st.users.get? row.userId = some u)
    (hshown : ∃ key, key ≠ "" ∧ HashLibrary.sha256 key = row.keyHash)
    (hfresh : ∀ row' ∈ keys, row'.keyHash ≠ row.keyHash) : KeysOk st (keys.insert row) := by
  refine ⟨fun r hr => ?_, fun r hr => ?_, fun r hr r' hr' heq => ?_⟩
  · rcases Table.mem_insert.mp hr with hr | rfl
    · exact h.owned r hr
    · exact howned
  · rcases Table.mem_insert.mp hr with hr | rfl
    · exact h.shown r hr
    · exact hshown
  · rcases Table.mem_insert.mp hr with hr | rfl <;> rcases Table.mem_insert.mp hr' with hr' | rfl
    · exact h.unique r hr r' hr' heq
    · exact absurd heq (hfresh r hr)
    · exact absurd heq.symm (hfresh r' hr')
    · rfl

theorem mem_of_shownKey {key : String} (h : AuthManager.shownKey keys key = some row) :
    row ∈ keys ∧ row.keyHash = HashLibrary.sha256 key ∧ row.isActive = true := by
  have htest := Table.holds_of_first h
  rw [Bool.and_eq_true, decide_eq_true_eq] at htest
  exact ⟨Table.mem_of_first h, htest⟩

theorem KeysOk.shownKey_eq (h : KeysOk st keys) {key : String} (hrow : row ∈ keys)
    (hactive : row.isActive = true) (hkey : HashLibrary.sha256 key = row.keyHash) :
    AuthManager.shownKey keys key = some row := by
  have htest : (row.keyHash = HashLibrary.sha256 key && row.isActive) = true := by
    simp [hkey, hactive]
  obtain ⟨row', hrow'⟩ : ∃ row', AuthManager.shownKey keys key = some row' :=
    Option.isSome_iff_exists.mp (List.find?_isSome.mpr ⟨row, hrow, htest⟩)
  obtain ⟨hmem, hhash, _⟩ := mem_of_shownKey hrow'
  rw [hrow', h.unique row' hmem row hrow (hhash.trans hkey)]

end Keys

section Requests

variable {s : KeyState} {caller : Caller} {required : List String} {result : AuthResult}

theorem row_of_apiKey {id : ℕ} {name : String} (h : authenticated s caller = some result)
    (hmethod : result.authMethod = .apiKey id name) :
    ∃ row ∈ s.keys, Live s.admin.now row ∧ result.userId = row.userId ∧
      result.user = s.admin.accounts.users.get? row.userId ∧
      result.permissions = row.permissions := by
  unfold authenticated AuthManager.authenticateRequest at h
  cases hkey : (caller.apiKey.filter (· ≠ "")).bind
      (AuthManager.verifyApiKey s.admin.accounts s.keys s.admin.now) with
  | none =>
    rw [hkey] at h
    obtain ⟨_, u, _, _, _, _, _, hresult, _⟩ :=
      verifySession_eq_some.mp (Prod.ext h rfl)
    rw [hresult] at hmethod
    cases hmethod
  | some found =>
    rw [hkey] at h
    cases h
    obtain ⟨key, _, hverify⟩ := Option.bind_eq_some_iff.mp hkey
    obtain ⟨row, hshown, hexpired, hresult, _⟩ := verifyApiKey_eq_some.mp hverify
    obtain ⟨hmem, _, hactive⟩ := mem_of_shownKey hshown
    exact ⟨row, hmem, ⟨hactive, hexpired⟩, by rw [hresult], by rw [hresult], by rw [hresult]⟩

theorem authenticated_of_live (h : KeysOk s.admin.accounts s.keys) {row : ApiKey}
    (hrow : row ∈ s.keys) (hlive : Live s.admin.now row) :
    ∃ caller, authenticated s caller =
      some ⟨row.userId, s.admin.accounts.users.get? row.userId, .apiKey row.id row.name,
        row.permissions⟩ := by
  obtain ⟨key, hne, hkey⟩ := h.shown row hrow
  refine ⟨{ apiKey := some key }, ?_⟩
  have hverify : AuthManager.verifyApiKey s.admin.accounts s.keys s.admin.now key =
      some (⟨row.userId, s.admin.accounts.users.get? row.userId, .apiKey row.id row.name,
        row.permissions⟩, s.keys.update row.id fun r => { r with lastUsedAt := some s.admin.now }) :=
    verifyApiKey_eq_some.mpr ⟨row, h.shownKey_eq hrow hlive.1 hkey, hlive.2, rfl, rfl⟩
  unfold authenticated AuthManager.authenticateRequest
  rw [Option.filter_some, if_pos (decide_eq_true hne), Option.bind_some, hverify]

theorem noEscalation_iff (h : KeysOk s.admin.accounts s.keys) :
    NoEscalation s ↔ AllWithin s.admin.accounts s.admin.now s.keys := by
  constructor
  · intro hno row hrow hlive
    obtain ⟨caller, hauth⟩ := authenticated_of_live h hrow hlive
    have hserve : ∀ required : List String,
        (∀ p ∈ required, Administration.hasPermission p row.permissions = true) →
        ∃ u, s.admin.accounts.users.get? row.userId = some u ∧ u.active = true ∧
          ∀ p ∈ required, Administration.roleHasPermission u.role p = true :=
      fun required hrequired => hno caller required _ _ _ (authorize_eq_ok.mpr ⟨hauth, hrequired⟩) rfl
    obtain ⟨u, hu, hactive, _⟩ := hserve [] (by simp)
    refine ⟨u, hu, hactive, grants_iff.mpr fun p hp => ?_⟩
    obtain ⟨u', hu', _, hrole⟩ := hserve [p] (by simpa using hp)
    obtain rfl := Option.some.inj (hu.symm.trans hu')
    exact hrole p List.mem_cons_self
  · intro hall caller required result id name hserve hmethod
    obtain ⟨hauth, hrequired⟩ := authorize_eq_ok.mp hserve
    obtain ⟨row, hrow, hlive, _, huser, hpermissions⟩ := row_of_apiKey hauth hmethod
    obtain ⟨u, hu, hactive, hgrants⟩ := hall row hrow hlive
    refine ⟨u, huser.trans hu, hactive, fun p hp => grants_iff.mp hgrants p ?_⟩
    rw [← hpermissions]
    exact hrequired p hp

end Requests

section Routes

variable {s : KeyState} {caller : Caller} {token : String}

theorem KeysOk.mono {st st' : Accounts} {keys : Table ApiKey} (h : KeysOk st keys)
    (husers : ∀ id u, st.users.get? id = some u → ∃ u', st'.users.get? id = some u') :
    KeysOk st' keys := by
  refine ⟨fun row hrow => ?_, h.shown, h.unique⟩
  obtain ⟨u, hu⟩ := h.owned row hrow
  exact husers _ u hu

theorem touched_cases (s : KeyState) (caller : Caller) : touched s caller = s.keys ∨
    ∃ id, touched s caller =
      s.keys.update id fun row => { row with lastUsedAt := some s.admin.now } := by
  unfold touched AuthManager.authenticateRequest
  cases hkey : (caller.apiKey.filter (· ≠ "")).bind
      (AuthManager.verifyApiKey s.admin.accounts s.keys s.admin.now) with
  | none => exact .inl rfl
  | some found =>
    obtain ⟨key, _, hverify⟩ := Option.bind_eq_some_iff.mp hkey
    obtain ⟨row, _, _, _, hkeys⟩ := verifyApiKey_eq_some.mp hverify
    exact .inr ⟨row.id, hkeys⟩

theorem KeysOk.touched (h : KeysOk s.admin.accounts s.keys) (caller : Caller) :
    KeysOk s.admin.accounts (touched s caller) := by
  rcases touched_cases s caller with heq | ⟨id, heq⟩
  · rw [heq]
    exact h
  · rw [heq]
    exact h.update (harmless_used _)

theorem AllWithin.touched (h : AllWithin s.admin.accounts s.admin.now s.keys) (caller : Caller) :
    AllWithin s.admin.accounts s.admin.now (touched s caller) := by
  rcases touched_cases s caller with heq | ⟨id, heq⟩
  · rw [heq]
    exact h
  · rw [heq]
    exact h.update (harmless_used _)

theorem keyHash_of_touched {row : ApiKey} (h : row ∈ touched s caller) :
    ∃ row₀ ∈ s.keys, row₀.keyHash = row.keyHash := by
  rcases touched_cases s caller with heq | ⟨id, heq⟩
  · rw [heq] at h
    exact ⟨row, h, rfl⟩
  · rw [heq] at h
    rcases Table.mem_update.mp h with ⟨h, _⟩ | ⟨row₀, hrow₀, rfl⟩
    · exact ⟨row, h, rfl⟩
    · exact ⟨row₀, Table.mem_of_get? hrow₀, rfl⟩

theorem exists_touched (caller : Caller) {row : ApiKey} (h : row ∈ s.keys) :
    ∃ row' ∈ touched s caller, row'.id = row.id := by
  rcases touched_cases s caller with heq | ⟨id, heq⟩
  · rw [heq]
    exact ⟨row, h, rfl⟩
  · rw [heq]
    by_cases hid : row.id = id
    · have hrow : s.keys.get? id = some row := Table.get?_eq_some_iff.mpr ⟨h, hid⟩
      exact ⟨_, Table.mem_update.mpr (.inr ⟨row, hrow, rfl⟩), hid.symm⟩
    · exact ⟨row, Table.mem_update.mpr (.inl ⟨h, hid⟩), rfl⟩

theorem exists_user_of_authenticated (h : KeysOk s.admin.accounts s.keys) {result : AuthResult}
    (hauth : authenticated s caller = some result) :
    ∃ u, s.admin.accounts.users.get? result.userId = some u := by
  cases hmethod : result.authMethod with
  | apiKey id name =>
    obtain ⟨row, hrow, _, huser, _⟩ := row_of_apiKey hauth hmethod
    rw [huser]
    exact h.owned row hrow
  | session =>
    unfold authenticated AuthManager.authenticateRequest at hauth
    cases hkey : (caller.apiKey.filter (· ≠ "")).bind
        (AuthManager.verifyApiKey s.admin.accounts s.keys s.admin.now) with
    | some found =>
      rw [hkey] at hauth
      cases hauth
      obtain ⟨key, _, hverify⟩ := Option.bind_eq_some_iff.mp hkey
      obtain ⟨row, _, _, hresult, _⟩ := verifyApiKey_eq_some.mp hverify
      rw [hresult] at hmethod
      cases hmethod
    | none =>
      rw [hkey] at hauth
      obtain ⟨id, u, _, hu, _, _, _, hresult, _⟩ := verifySession_eq_some.mp (Prod.ext hauth rfl)
      have hid : u.id = id := Table.key_of_get? hu
      rw [hresult]
      exact ⟨u, hid ▸ hu⟩

theorem newRow_eq_some {keys : Table ApiKey} {now : Time} {userId : ℕ} {name : String}
    {permissions : List String} {expiresDays : ℤ} {row : ApiKey}
    (h : newRow keys now userId name permissions expiresDays token = some row) :
    row.userId = userId ∧ row.keyHash = HashLibrary.sha256 ("ucm_ak_" ++ token) ∧
      ∀ row' ∈ keys, row'.keyHash ≠ row.keyHash := by
  simp only [newRow, Option.bind_eq_bind, Option.bind_eq_some_iff, Option.guard_eq_some',
    Option.pure_def, Option.some.injEq] at h
  obtain ⟨_, _, _, hfree, rfl⟩ := h
  refine ⟨rfl, rfl, fun row' hrow' => ?_⟩
  simpa using List.find?_eq_none.mp hfree row' hrow'

theorem KeysOk.insert_newRow (h : KeysOk s.admin.accounts s.keys) {userId : ℕ} {name : String}
    {permissions : List String} {expiresDays : ℤ} {row : ApiKey}
    (howned : ∃ u, s.admin.accounts.users.get? userId = some u)
    (hrow : newRow s.keys s.admin.now userId name permissions expiresDays token = some row) :
    KeysOk s.admin.accounts ((ApiKeys.touched s caller).insert row) := by
  obtain ⟨huser, hhash, hfree⟩ := newRow_eq_some hrow
  refine (h.touched caller).insert (huser ▸ howned) ⟨_, ?_, hhash.symm⟩ fun row' hrow' => ?_
  · intro hempty
    have hlist := congrArg String.toList hempty
    rw [String.toList_append] at hlist
    exact absurd (List.append_eq_nil_iff.mp hlist).1 (by decide)
  · obtain ⟨row₀, hrow₀, hsame⟩ := keyHash_of_touched hrow'
    rw [← hsame]
    exact hfree row₀ hrow₀

theorem createApiKey_eq_ok {data : Option NewKey} {row : ApiKey}
    (h : createApiKey s caller data token = .ok row) :
    ∃ g name permissions expiresDays, authenticated s caller = some g ∧
      newRow s.keys s.admin.now g.userId name permissions expiresDays token = some row := by
  simp only [createApiKey, bind_eq_ok, orThrow_eq_ok, ensure_eq_ok] at h
  obtain ⟨g, hg, data, _, _, _, h⟩ := h
  obtain ⟨hauth, _⟩ := authorize_eq_ok.mp hg
  cases hpermissions : data.permissions with
  | array elements =>
    rw [hpermissions] at h
    simp only [bind_eq_ok, orThrow_eq_ok, ensure_eq_ok] at h
    obtain ⟨permissions, _, _, _, hrow⟩ := h
    exact ⟨g, data.name, permissions, data.expiresDays, hauth, hrow⟩
  | null | bool | number | text | object =>
    rw [hpermissions] at h
    cases h

theorem regenerateApiKey_eq_ok {keyId : ℕ} {oldKey row : ApiKey}
    (h : regenerateApiKey s caller keyId token = .ok (oldKey, row)) :
    oldKey ∈ s.keys ∧ ∃ g name permissions expiresDays, authenticated s caller = some g ∧
      newRow s.keys s.admin.now g.userId name permissions expiresDays token = some row := by
  simp only [regenerateApiKey, bind_eq_ok, orThrow_eq_ok, pure_eq_ok, Prod.mk.injEq] at h
  obtain ⟨g, hg, oldKey', hold, row', hrow, rfl, rfl⟩ := h
  have hmem := Table.mem_of_get? (Option.filter_eq_some_iff.mp hold).1
  exact ⟨hmem, g, _, _, _, (authorize_eq_ok.mp hg).1, hrow⟩

end Routes

section Steps

variable [PasswordLibrary] {s : KeyState}

theorem keysOk_step (h : KeysOk s.admin.accounts s.keys) (e : Event) :
    KeysOk (step s e).admin.accounts (step s e).keys := by
  cases e with
  | admin e =>
    cases e with
    | begin k r => exact h
    | proceed k => exact h.mono fun id u hu => get?_proceed hu _
    | elapse seconds => exact h
  | createApiKey caller data token =>
    simp only [step]
    split
    · next row hrow =>
      obtain ⟨g, _, _, _, hauth, hnew⟩ := createApiKey_eq_ok hrow
      exact h.insert_newRow (exists_user_of_authenticated h hauth) hnew
    · exact h.touched caller
  | regenerateApiKey caller keyId token =>
    simp only [step]
    split
    · next oldKey row hrow =>
      obtain ⟨_, g, _, _, _, hauth, hnew⟩ := regenerateApiKey_eq_ok hrow
      exact (h.insert_newRow (exists_user_of_authenticated h hauth) hnew).update harmless_revoked
    · exact h.touched caller
  | deleteApiKey caller keyId =>
    simp only [step]
    split
    · exact (h.touched caller).update harmless_revoked
    · exact h.touched caller
  | request caller required => exact h.touched caller

theorem allWithin_step_iff (h : AllWithin s.admin.accounts s.admin.now s.keys) (e : Event) :
    AllWithin (step s e).admin.accounts (step s e).admin.now (step s e).keys ↔ Contained s e := by
  cases e with
  | admin e =>
    cases e with
    | begin k r => exact iff_of_true h trivial
    | proceed k => exact Iff.rfl
    | elapse seconds =>
      refine iff_of_true (fun row hrow hlive => h row hrow ⟨hlive.1, ?_⟩) trivial
      exact not_expired_before (Int.le.intro seconds rfl) hlive.2
  | createApiKey caller data token =>
    cases hrow : createApiKey s caller data token with
    | error e =>
      simp only [step, Contained, hrow]
      exact iff_of_true (h.touched caller) (by simp [Except.toOption])
    | ok row =>
      simp only [step, Contained, hrow]
      rw [(h.touched caller).insert_iff]
      simp [Except.toOption]
  | regenerateApiKey caller keyId token =>
    cases hrows : regenerateApiKey s caller keyId token with
    | error e =>
      simp only [step, Contained, hrows]
      exact iff_of_true (h.touched caller) (by simp [Except.toOption])
    | ok rows =>
      obtain ⟨oldKey, row⟩ := rows
      obtain ⟨hmem, _⟩ := regenerateApiKey_eq_ok hrows
      obtain ⟨row', hrow', hid⟩ := exists_touched caller hmem
      have hne : (touched s caller).nextKey ≠ oldKey.id :=
        hid ▸ (Table.key_lt_nextKey hrow').ne'
      simp only [step, Contained, hrows]
      rw [(h.touched caller).revoke_insert_iff hne]
      simp [Except.toOption]
  | deleteApiKey caller keyId =>
    refine iff_of_true ?_ trivial
    simp only [step]
    split
    · exact (h.touched caller).update harmless_revoked
    · exact h.touched caller
  | request caller required => exact iff_of_true (h.touched caller) trivial

end Steps

/-- From any state without keys, in every state that a run reaches no request gets beyond its
user's role, exactly if each step of the run is contained. -/
theorem noEscalation_run_iff [PasswordLibrary] (admin : Administration.State) (maxKeys : ℕ)
    (es : List Event) :
    (∀ pre, pre <+: es → NoEscalation (run step ⟨admin, ∅, maxKeys⟩ pre)) ↔
      Meets step Contained ⟨admin, ∅, maxKeys⟩ es := by
  have hok : KeysOk admin.accounts ∅ :=
    ⟨fun row h => absurd h (Table.not_mem_empty row), fun row h => absurd h (Table.not_mem_empty row),
      fun row h => absurd h (Table.not_mem_empty row)⟩
  have hwithin : AllWithin admin.accounts admin.now ∅ :=
    fun row h => absurd h (Table.not_mem_empty row)
  refine forall_prefix_iff_meets (P := NoEscalation)
    (I := fun s => KeysOk s.admin.accounts s.keys) (fun s e h hno => ?_)
    (fun s e h _ _ => keysOk_step h e) es hok ((noEscalation_iff hok).mpr hwithin)
  rw [noEscalation_iff (keysOk_step h e)]
  exact allWithin_step_iff ((noEscalation_iff h).mp hno) e

end ApiKeys

namespace ApiKeys

section Sample

def viewer : User :=
  { username := "eve", email := "eve@example.org", passwordHash := "", role := "viewer" }

def viewerState : KeyState :=
  { admin := { accounts := { users := (∅ : Table User).insert viewer } } }

def viewerCaller : Caller := { session := { userId := some 1 } }

def wildcardKey : NewKey := { name := "automation", permissions := .array [.text "*"] }

def keyCaller : Caller := { apiKey := some "ucm_ak_t" }

/-- A viewer makes a key with the wildcard, and a request that shows it is let in to administer
the system. -/
theorem wildcard_key_escalates :
    let _ := spelledHash
    let _ := Administration.plainPasswords
    ¬NoEscalation (run step viewerState [.createApiKey viewerCaller (some wildcardKey) "t"]) := by
  intro _ _ h
  have hserved : ∃ result ∈ (serve (step viewerState
      (.createApiKey viewerCaller (some wildcardKey) "t")) keyCaller ["admin:system"]).toOption,
      result.authMethod = .apiKey 1 "automation" ∧ result.user = some { viewer with id := 1 } := by
    decide +kernel
  obtain ⟨result, hresult, hmethod, huser⟩ := hserved
  obtain ⟨u, hu, _, hrole⟩ :=
    h keyCaller _ result _ _ (toOption_eq_some.mp hresult) hmethod
  obtain rfl := Option.some.inj (huser.symm.trans hu)
  revert hrole
  decide +kernel

end Sample

end ApiKeys

end CaManager
