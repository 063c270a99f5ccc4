import CaManager.Accounts.Administration
import CaManager.Library.Machines

/-!
# Administrators who can sign in

There should always be an active administrator, and one with a usable certificate whenever
certificates are required. The routes check less than that, and check it before they commit.
What a commit must not do for the rule to survive is stated for the state it is about to
write into.
-/

namespace CaManager

open Library Sso

namespace Administration

def IsAdmin (u : User) : Prop := u.role = "admin" ∧ u.active = true

instance (u : User) : Decidable (IsAdmin u) := inferInstanceAs (Decidable (_ ∧ _))

def Usable (now : Time) (c : AuthCertificate) : Prop :=
  c.enabled = true ∧ ∀ validUntil, c.validUntil = some validUntil → now ≤ validUntil

def AdminCertificate (st : Accounts) (now : Time) (c : AuthCertificate) : Prop :=
  c ∈ st.authCertificates ∧ Usable now c ∧ ∃ u ∈ st.users, u.id = c.userId ∧ IsAdmin u

def MtlsRequired (settings : String → Option String) : Prop :=
  settings "mtls_enabled" = some "true" ∧ settings "mtls_required" = some "true"

structure Safe (st : Accounts) (now : Time) : Prop where
  admin : ∃ u ∈ st.users, IsAdmin u
  certificate : MtlsRequired st.settings → ∃ c, AdminCertificate st now c

def Demotes (st : Accounts) (loaded changed u : User) : Prop :=
  st.users.get? loaded.id = some u ∧ IsAdmin u ∧ rejects st loaded changed = false ∧
    ¬IsAdmin (changedColumns loaded changed u)

/-- What a write must leave alone: it demotes an administrator only if there is another, with a
certificate where one is required; it requires certificates only if an administrator has one;
and where they are required it deletes one only if an administrator has another. -/
def Write.Spares (st : Accounts) (now : Time) : Write → Prop
  | .insertUser _ => True
  | .updateUser loaded changed => ∀ u, Demotes st loaded changed u →
    (∃ v ∈ st.users, v.id ≠ u.id ∧ IsAdmin v) ∧
      (MtlsRequired st.settings → ∃ c, AdminCertificate st now c ∧ c.userId ≠ u.id)
  | .settings changes => MtlsRequired (fun key => (changes key).or (st.settings key)) →
    ∃ c, AdminCertificate st now c
  | .deleteCertificate id => MtlsRequired st.settings → ∃ c, AdminCertificate st now c ∧ c.id ≠ id

/-- A step that leaves an administrator who can sign in: no commit does what it must not, and
the last certificate that is needed does not expire. -/
def Spares (s : State) : Event → Prop
  | .begin _ _ => True
  | .proceed k =>
    match s.threads k with
    | .committing w _ _ => w.Spares s.accounts s.now
    | _ => True
  | .elapse seconds => MtlsRequired s.accounts.settings →
    ∃ c, AdminCertificate s.accounts (s.now + seconds) c

section Writes

variable {st : Accounts} {now : Time}

theorem mem_commit_updateUser {loaded changed v : User} (hne : v.id ≠ loaded.id) :
    v ∈ (Write.commit st (.updateUser loaded changed)).users ↔ v ∈ st.users := by
  unfold Write.commit
  dsimp only
  split_ifs
  · exact Iff.rfl
  · unfold Accounts.setUser
    rw [Table.mem_update]
    constructor
    · rintro (⟨hv, -⟩ | ⟨u, hu, rfl⟩)
      · exact hv
      · exact absurd rfl hne
    · intro hv
      exact .inl ⟨hv, hne⟩

theorem mem_commit_updateUser_self {loaded changed v : User} (hid : v.id = loaded.id) :
    v ∈ (Write.commit st (.updateUser loaded changed)).users ↔
      ∃ u, st.users.get? loaded.id = some u ∧
        v = if rejects st loaded changed then u
          else { changedColumns loaded changed u with id := loaded.id } := by
  unfold Write.commit
  dsimp only
  split_ifs
  · constructor
    · intro hv
      exact ⟨v, Table.get?_eq_some_iff.mpr ⟨hv, hid⟩, rfl⟩
    · rintro ⟨u, hu, rfl⟩
      exact Table.mem_of_get? hu
  · unfold Accounts.setUser
    rw [Table.mem_update]
    constructor
    · rintro (⟨-, hne⟩ | h)
      · exact absurd hid hne
      · exact h
    · intro h
      exact .inr h

@[simp] theorem authCertificates_commit_updateUser {loaded changed : User} :
    (Write.commit st (.updateUser loaded changed)).authCertificates = st.authCertificates := by
  unfold Write.commit
  dsimp only
  split_ifs
  · rfl
  · rfl

@[simp] theorem settings_commit_updateUser (st : Accounts) (loaded changed : User) :
    (Write.commit st (.updateUser loaded changed)).settings = st.settings := by
  unfold Write.commit
  dsimp only
  split_ifs
  · rfl
  · rfl

theorem exists_admin_of_not_demotes {loaded changed u : User}
    (hnot : ¬Demotes st loaded changed u) (hu : u ∈ st.users) (hadmin : IsAdmin u) :
    ∃ v ∈ (Write.commit st (.updateUser loaded changed)).users, v.id = u.id ∧ IsAdmin v := by
  by_cases hid : u.id = loaded.id
  · have hget : st.users.get? loaded.id = some u := Table.get?_eq_some_iff.mpr ⟨hu, hid⟩
    cases hrejects : rejects st loaded changed with
    | true =>
      refine ⟨u, (mem_commit_updateUser_self hid).mpr ⟨u, hget, ?_⟩, rfl, hadmin⟩
      rw [if_pos hrejects]
    | false =>
      have hstays : IsAdmin (changedColumns loaded changed u) := by
        by_contra hlost
        exact hnot ⟨hget, hadmin, hrejects, hlost⟩
      let v : User := { changedColumns loaded changed u with id := loaded.id }
      have hvid : v.id = loaded.id := rfl
      have hv : v ∈ (Write.commit st (.updateUser loaded changed)).users := by
        refine (mem_commit_updateUser_self hvid).mpr ⟨u, hget, ?_⟩
        rw [hrejects, if_neg Bool.false_ne_true]
      exact ⟨v, hv, hid.symm, hstays⟩
  · exact ⟨u, (mem_commit_updateUser hid).mpr hu, rfl, hadmin⟩

theorem admin_of_demotes {loaded changed u v : User} (hdemotes : Demotes st loaded changed u)
    (hv : v ∈ (Write.commit st (.updateUser loaded changed)).users) (hadmin : IsAdmin v) :
    v ∈ st.users ∧ v.id ≠ u.id := by
  obtain ⟨hget, -, haccepts, hlost⟩ := hdemotes
  have hid : u.id = loaded.id := Table.key_of_get? hget
  have hne : v.id ≠ loaded.id := by
    intro hvid
    obtain ⟨u', hu', rfl⟩ := (mem_commit_updateUser_self hvid).mp hv
    rw [hget, Option.some.injEq] at hu'
    subst hu'
    rw [haccepts, if_neg Bool.false_ne_true] at hadmin
    exact hlost hadmin
  exact ⟨(mem_commit_updateUser hne).mp hv, fun h => hne (h.trans hid)⟩

theorem mem_commit_insertUser {u v : User} (hv : v ∈ st.users) :
    v ∈ (Write.commit st (.insertUser u)).users := by
  unfold Write.commit
  dsimp only
  cases hadd : st.addUser u with
  | none => exact hv
  | some st' =>
    obtain ⟨-, rfl⟩ := Accounts.addUser_eq_some hadd
    exact Table.mem_insert.mpr (.inl hv)

theorem commit_insertUser_kept (st : Accounts) (u : User) :
    (Write.commit st (.insertUser u)).authCertificates = st.authCertificates ∧
      (Write.commit st (.insertUser u)).settings = st.settings := by
  unfold Write.commit
  dsimp only
  cases hadd : st.addUser u with
  | none => exact ⟨rfl, rfl⟩
  | some st' =>
    obtain ⟨-, rfl⟩ := Accounts.addUser_eq_some hadd
    exact ⟨rfl, rfl⟩

theorem safe_insertUser {u : User} (h : Safe st now) :
    Safe (Write.commit st (.insertUser u)) now := by
  obtain ⟨hcertificates, hsettings⟩ := commit_insertUser_kept st u
  constructor
  · obtain ⟨v, hv, hadmin⟩ := h.admin
    exact ⟨v, mem_commit_insertUser hv, hadmin⟩
  · intro hrequired
    rw [hsettings] at hrequired
    obtain ⟨c, hc, husable, v, hv, hid, hadmin⟩ := h.certificate hrequired
    exact ⟨c, hcertificates ▸ hc, husable, v, mem_commit_insertUser hv, hid, hadmin⟩

theorem safe_updateUser_iff {loaded changed : User} (h : Safe st now) :
    Safe (Write.commit st (.updateUser loaded changed)) now ↔
      (Write.updateUser loaded changed).Spares st now := by
  constructor
  · intro hafter u hdemotes
    have hu : u ∈ st.users := Table.mem_of_get? hdemotes.1
    constructor
    · obtain ⟨v, hv, hadmin⟩ := hafter.admin
      obtain ⟨hv', hne⟩ := admin_of_demotes hdemotes hv hadmin
      exact ⟨v, hv', hne, hadmin⟩
    · intro hrequired
      have hsettings := settings_commit_updateUser st loaded changed
      rw [← hsettings] at hrequired
      obtain ⟨c, hc, husable, v, hv, hid, hadmin⟩ := hafter.certificate hrequired
      rw [authCertificates_commit_updateUser] at hc
      obtain ⟨hv', hne⟩ := admin_of_demotes hdemotes hv hadmin
      exact ⟨c, ⟨hc, husable, v, hv', hid, hadmin⟩, hid ▸ hne⟩
  · intro hspares
    constructor
    · obtain ⟨u, hu, hadmin⟩ := h.admin
      by_cases hdemotes : Demotes st loaded changed u
      · obtain ⟨⟨v, hv, hne, hadmin'⟩, -⟩ := hspares u hdemotes
        have hid : u.id = loaded.id := Table.key_of_get? hdemotes.1
        exact ⟨v, (mem_commit_updateUser (hid ▸ hne)).mpr hv, hadmin'⟩
      · obtain ⟨v, hv, -, hadmin'⟩ := exists_admin_of_not_demotes hdemotes hu hadmin
        exact ⟨v, hv, hadmin'⟩
    · intro hrequired
      rw [settings_commit_updateUser] at hrequired
      obtain ⟨c, hc, husable, u, hu, hid, hadmin⟩ := h.certificate hrequired
      by_cases hdemotes : Demotes st loaded changed u
      · obtain ⟨-, hcertificate⟩ := hspares u hdemotes
        obtain ⟨c', ⟨hc', husable', v, hv, hvid, hadmin'⟩, hne⟩ := hcertificate hrequired
        have huid : u.id = loaded.id := Table.key_of_get? hdemotes.1
        have hvne : v.id ≠ loaded.id := by
          rw [hvid, ← huid]
          exact hne
        refine ⟨c', ?_, husable', v, (mem_commit_updateUser hvne).mpr hv, hvid, hadmin'⟩
        rwa [authCertificates_commit_updateUser]
      · obtain ⟨v, hv, hvid, hadmin'⟩ := exists_admin_of_not_demotes hdemotes hu hadmin
        refine ⟨c, ?_, husable, v, hv, hvid.trans hid, hadmin'⟩
        rwa [authCertificates_commit_updateUser]

theorem safe_settings_iff {changes : String → Option String} (h : Safe st now) :
    Safe (Write.commit st (.settings changes)) now ↔ (Write.settings changes).Spares st now :=
  ⟨fun hafter => hafter.certificate, fun hspares => ⟨h.admin, hspares⟩⟩

theorem safe_deleteCertificate_iff {id : ℕ} (h : Safe st now) :
    Safe (Write.commit st (.deleteCertificate id)) now ↔
      (Write.deleteCertificate id).Spares st now := by
  constructor
  · intro hafter hrequired
    obtain ⟨c, hc, husable, hadmin⟩ := hafter.certificate hrequired
    obtain ⟨hc', hne⟩ := Table.mem_delete.mp hc
    exact ⟨c, ⟨hc', husable, hadmin⟩, hne⟩
  · intro hspares
    refine ⟨h.admin, fun hrequired => ?_⟩
    obtain ⟨c, ⟨hc, husable, hadmin⟩, hne⟩ := hspares hrequired
    exact ⟨c, Table.mem_delete.mpr ⟨hc, hne⟩, husable, hadmin⟩

theorem safe_commit_iff {w : Write} (h : Safe st now) :
    Safe (w.commit st) now ↔ w.Spares st now := by
  cases w with
  | insertUser u => exact iff_of_true (safe_insertUser h) trivial
  | updateUser loaded changed => exact safe_updateUser_iff h
  | settings changes => exact safe_settings_iff h
  | deleteCertificate id => exact safe_deleteCertificate_iff h

end Writes

section Runs

variable [PasswordLibrary]

theorem safe_step_iff {s : State} {e : Event} (h : Safe s.accounts s.now) :
    Safe (step s e).accounts (step s e).now ↔ Spares s e := by
  cases e with
  | begin k r => exact iff_of_true h trivial
  | proceed k =>
    unfold step Spares
    dsimp only
    cases hthread : s.threads k with
    | idle => exact iff_of_true h trivial
    | checking actor ids =>
      cases ids with
      | nil => exact iff_of_true h trivial
      | cons id ids => exact iff_of_true h trivial
    | committing w actor ids => exact safe_commit_iff h
  | elapse seconds => exact ⟨fun hafter => hafter.certificate, fun hspares => ⟨h.admin, hspares⟩⟩

def AlwaysSafe (s : State) (es : List Event) : Prop :=
  Safe s.accounts s.now ∧
    Meets step (fun s e => Safe (step s e).accounts (step s e).now) s es

end Runs

section Guards

variable {s : State} {g : User} {userId : ℕ} {w : Write}

end Guards

@[reducible] def plainPasswords : PasswordLibrary where
  validatePassword _ _ := none
  generatePasswordHash password := password

def oneAdministrator : State where
  accounts :=
    { users := (∅ : Table User).insert
        { username := "root", email := "root@ca", passwordHash := "", role := "admin" } }

end Administration

end CaManager
