import CaManager.Mtls.UserCertificates

/-!
# Who exports whose private key

An export takes the key from the first stored certificate whose serial number is, as text, the
one of the enrolment. A user is entitled to the key of a certificate that was made for or
assigned to the user. Users without a role over others export no other keys as long as no
enrolment has the serial number of a key that its user is not entitled to.
-/

namespace CaManager

open Library

namespace Mtls

/-- A user who exists and has neither of the roles that manage certificates. -/
def Unprivileged (st : Accounts) (userId : ℕ) : Prop :=
  ∃ u, st.users.get? userId = some u ∧ u.role ≠ "admin" ∧ u.role ≠ "operator"

def Reaches (st : Store) (serial : String) (row : Certificate) : Prop :=
  st.certificateBySerial serial = some row ∧ HoldsKey row

/-- The state, and which users are entitled to the keys of which rows. -/
structure Keyring where
  state : MtlsState
  entitled : ℕ → ℕ → Prop

theorem get?_of_requireAuth {st : Accounts} {c : Credential} {permission : Option String}
    {user : User} (hauth : Administration.requireAuth st c permission = .ok user) :
    st.users.get? user.id = some user := by
  simp only [Administration.requireAuth, bind_eq_ok, orThrow_eq_ok] at hauth
  obtain ⟨⟨u, permissions⟩, hu, hauth⟩ := hauth
  have hsame : u = user := by
    split at hauth
    next =>
      simp only [bind_eq_ok, pure_eq_ok] at hauth
      obtain ⟨_, _, hauth⟩ := hauth
      exact hauth
    next => exact pure_eq_ok.mp hauth
  have hget : ∃ id, st.users.get? id = some u := by
    cases c with
    | session userId =>
      obtain ⟨v, hv, heq⟩ := Option.map_eq_some_iff.mp hu
      cases heq
      exact ⟨userId, (Option.filter_eq_some_iff.mp hv).1⟩
    | apiKey userId permissions' =>
      obtain ⟨v, hv, heq⟩ := Option.map_eq_some_iff.mp hu
      cases heq
      exact ⟨userId, hv⟩
  obtain ⟨id, hid⟩ := hget
  rw [← hsame, show u.id = id from Table.key_of_get? hid]
  exact hid

theorem plain_of_requireAuth {st : Accounts} {c : Credential} {permission : Option String}
    {user : User} (hauth : Administration.requireAuth st c permission = .ok user)
    (hplain : Unprivileged st user.id) : user.role ≠ "admin" ∧ user.role ≠ "operator" := by
  obtain ⟨u, hu, hroles⟩ := hplain
  cases hu.symm.trans (get?_of_requireAuth hauth)
  exact hroles

theorem addAuthCertificate_eq_some {st st' : Accounts} {a : AuthCertificate}
    (hadd : st.addAuthCertificate a = some st') :
    st.enrolledAs a.certSerial = none ∧
      st' = { st with authCertificates := st.authCertificates.insert a } := by
  unfold Accounts.addAuthCertificate at hadd
  split_ifs at hadd with hfound
  rw [Option.not_isSome_iff_eq_none] at hfound
  exact ⟨hfound, (Option.some.inj hadd).symm⟩

/-- After a row was added, a serial number finds the row that it found before, or the new one
if it found none. -/
theorem certificateBySerial_addCertificate {st st' : Store} {row found : Certificate}
    {serial : String} (hadd : st.addCertificate row = .ok st')
    (hfound : st'.certificateBySerial serial = some found) :
    st.certificateBySerial serial = some found ∨
      st.certificateBySerial serial = none ∧
        found = { row with id := st.certificates.nextKey } ∧ row.serialNumber = some serial := by
  obtain ⟨-, rfl⟩ := CertificateService.addCertificate_eq_ok.mp hadd
  unfold Store.certificateBySerial at *
  rw [Table.first_insert] at hfound
  rcases Option.or_eq_some_iff.mp hfound with hold | ⟨hnone, hnew⟩
  · exact .inl hold
  · split_ifs at hnew with hserial
    cases hnew
    exact .inr ⟨hnone, rfl, by simpa using hserial⟩

section Runs

variable [X509Library] [DigestLibrary]

/-- A request that succeeds in making a certificate, or in assigning one, entitles to it. -/
def Grants (s : MtlsState) (c : Credential) (e : Enrolment) (certId userId : ℕ) : Prop :=
  ∃ user store a, Administration.requireAuth s.accounts c e.permission = .ok user ∧
    plan s user e = .ok (store, a) ∧ a.userId = userId ∧
    match e with
    | .create _ _ => certId = s.store.certificates.nextKey
    | .assign id _ _ => certId = id
    | _ => False

def enrolStep (h : Keyring) (request : Credential × Enrolment) : Keyring where
  state := enrol h.state request.1 request.2
  entitled certId userId :=
    h.entitled certId userId ∨ Grants h.state request.1 request.2 certId userId

/-- Whatever key an unprivileged user is handed out, the user is entitled to. -/
structure Guarded (h : Keyring) : Prop where
  exports : ∀ {c user certId format password includeKey includeChain e k},
    Administration.requireAuth h.state.accounts c (some "read:user_certificates") = .ok user →
    exportUserCertificate h.state user certId format password includeKey includeChain = .ok e →
    e.key = some (.text k) → Unprivileged h.state.accounts user.id → h.entitled e.certId user.id
  downloads : ∀ {c user certId format password e k},
    Administration.requireAuth h.state.accounts c none = .ok user →
    downloadMtlsCertificate h.state user certId format password = .ok e →
    e.key = some (.text k) → Unprivileged h.state.accounts user.id → h.entitled e.certId user.id

/-- Whatever key the enrolment of an unprivileged user reaches, the user is entitled to. -/
def Proper (h : Keyring) : Prop :=
  ∀ a ∈ h.state.accounts.authCertificates, ∀ row, Reaches h.state.store a.certSerial row →
    Unprivileged h.state.accounts a.userId → h.entitled row.id a.userId

/-- The serial number of a new enrolment is not that of a stored key that its user is not
entitled to, and a certificate that is made does not have the serial number that somebody
else enrolled before. -/
def Fresh (h : Keyring) (request : Credential × Enrolment) : Prop :=
  ∀ user store a,
    Administration.requireAuth h.state.accounts request.1 request.2.permission = .ok user →
    plan h.state user request.2 = .ok (store, a) →
    (h.state.accounts.enrolledAs a.certSerial = none →
      ∀ row, Reaches h.state.store a.certSerial row → Unprivileged h.state.accounts a.userId →
        h.entitled row.id a.userId ∨ Grants h.state request.1 request.2 row.id a.userId) ∧
    ∀ data d, request.2 = .create data d →
      ∀ b ∈ h.state.accounts.authCertificates, b.certSerial = a.certSerial →
        h.state.store.certificateBySerial b.certSerial = none →
        Unprivileged h.state.accounts b.userId → b.userId = user.id

variable {h : Keyring}

omit [X509Library] [DigestLibrary] in
theorem Proper.guarded (hproper : Proper h) : Guarded h where
  exports := by
    intro c user certId format password includeKey includeChain e k hauth hexport hkey hplain
    obtain ⟨a, row, ha, hauditor, hsees, hrow, hid, hholds⟩ :=
      key_of_exportUserCertificate hexport hkey
    have howner : a.userId = user.id := by
      obtain ⟨hadmin, hoperator⟩ := plain_of_requireAuth hauth hplain
      rcases hsees with hsees | howner
      · simp [seesAll, hadmin, hoperator, hauditor] at hsees
      · exact howner
    rw [hid, ← howner]
    exact hproper a (Table.mem_of_get? ha) row ⟨hrow, hholds⟩ (howner ▸ hplain)
  downloads := by
    intro c user certId format password e k hauth hdownload hkey hplain
    obtain ⟨a, row, ha, howner, hrow, hid, hholds⟩ := key_of_downloadMtlsCertificate hdownload hkey
    have howner : a.userId = user.id := howner.resolve_right (plain_of_requireAuth hauth hplain).1
    rw [hid, ← howner]
    exact hproper a (Table.mem_of_get? ha) row ⟨hrow, hholds⟩ (howner ▸ hplain)

/-- A serial number reaches the key that it reached before, or that of the certificate that was
made under it. -/
theorem reaches_of_plan {s : MtlsState} {user : User} {e : Enrolment} {store : Store}
    {a : AuthCertificate} {serial : String} {row : Certificate}
    (hplan : plan s user e = .ok (store, a)) (hrow : Reaches store serial row) :
    Reaches s.store serial row ∨ (∃ data d, e = .create data d) ∧
      row.id = s.store.certificates.nextKey ∧ serial = a.certSerial ∧ a.userId = user.id ∧
        s.store.certificateBySerial serial = none := by
  obtain ⟨hfound, hholds⟩ := hrow
  rcases plan_cases hplan with ⟨data, d, rfl, hcreate⟩ | rfl | ⟨added, hprv, _, hadd⟩
  · obtain ⟨r, made, hstore, hmade, rfl⟩ := createMtlsCertificate_eq_ok hcreate
    obtain ⟨ca, _, _, x, key, _, _, _, _, hadd⟩ :=
      CertificateService.createCertificate_eq_ok hstore
    rcases certificateBySerial_addCertificate hadd hfound with hold | ⟨hnone, rfl, hserial⟩
    · exact .inl ⟨hold, hholds⟩
    · obtain ⟨-, rfl⟩ := CertificateService.addCertificate_eq_ok.mp hadd
      have hmade' : made = { CertificateService.createdRow s.store r x key d with
          id := s.store.certificates.nextKey } :=
        Option.some.inj (hmade.symm.trans Table.get?_insert_nextKey)
      refine .inr ⟨⟨data, d, rfl⟩, rfl, ?_, rfl, hnone⟩
      rw [hmade']
      exact (Option.some.inj hserial).symm
  · exact .inl ⟨hfound, hholds⟩
  · rcases certificateBySerial_addCertificate hadd hfound with hold | ⟨_, rfl, _⟩
    · exact .inl ⟨hold, hholds⟩
    · obtain ⟨-, k, hk⟩ := hholds
      rw [show ({ added with id := s.store.certificates.nextKey } : Certificate).prv = none
        from hprv] at hk
      cases hk

theorem Proper.enrolStep (hproper : Proper h) {request : Credential × Enrolment}
    (hfresh : Fresh h request) : Proper (enrolStep h request) := by
  obtain ⟨c, e⟩ := request
  have hkept : ∀ b ∈ h.state.accounts.authCertificates, ∀ row,
      Reaches h.state.store b.certSerial row → Unprivileged h.state.accounts b.userId →
      h.entitled row.id b.userId ∨ Grants h.state c e row.id b.userId :=
    fun b hb row hrow hplain => .inl (hproper b hb row hrow hplain)
  unfold Proper
  simp only [Mtls.enrolStep, Mtls.enrol]
  split
  next => exact hkept
  next user huser =>
    split
    next => exact hkept
    next store a hplan =>
      obtain ⟨hnew, hmade⟩ := hfresh user store a huser hplan
      have hgrants : ∀ data d, e = .create data d → a.userId = user.id →
          Grants h.state c e h.state.store.certificates.nextKey user.id := by
        rintro data d rfl howner
        exact ⟨user, store, a, huser, hplan, howner, rfl⟩
      have hold : ∀ b ∈ h.state.accounts.authCertificates, ∀ row,
          Reaches store b.certSerial row → Unprivileged h.state.accounts b.userId →
          h.entitled row.id b.userId ∨ Grants h.state c e row.id b.userId := by
        intro b hb row hrow hplain
        rcases reaches_of_plan hplan hrow with hrow |
          ⟨⟨data, d, he⟩, hid, hserial, howner, hnone⟩
        · exact hkept b hb row hrow hplain
        · rw [hid, hmade data d he b hb hserial hnone hplain]
          exact .inr (hgrants data d he howner)
      cases hadd : h.state.accounts.addAuthCertificate a with
      | none => exact hold
      | some accounts =>
        obtain ⟨hunenrolled, rfl⟩ := addAuthCertificate_eq_some hadd
        intro b hb row hrow hplain
        rcases Table.mem_insert.mp hb with hb | rfl
        · exact hold b hb row hrow hplain
        · rcases reaches_of_plan hplan hrow with hrow | ⟨⟨data, d, he⟩, hid, _, howner, _⟩
          · exact hnew hunenrolled row hrow hplain
          · have huserId : ({ a with id := h.state.accounts.authCertificates.nextKey } :
                AuthCertificate).userId = user.id := howner
            rw [hid, withKey_authCertificate, huserId]
            exact .inr (hgrants data d he howner)

/-- In every run of enrolments that meets the condition, no unprivileged user is handed out a
key that was neither made for nor assigned to the user. -/
theorem private_keys_guarded {requests : List (Credential × Enrolment)} (hstart : Proper h)
    (hfresh : Meets Mtls.enrolStep Fresh h requests) :
    Guarded (run Mtls.enrolStep h requests) :=
  (run_invariant (fun _ _ hproper hfresh => hproper.enrolStep hfresh) hstart hfresh).guarded

end Runs

def oneViewer : Keyring where
  state :=
    { store := sampleStore
      accounts :=
        { users := (∅ : Table User).insert
            { username := "eve", email := "eve@ca", passwordHash := "", role := "viewer" } }
      now := 0 }
  entitled _ _ := False

/-- A certificate that a user had made, and its key. -/
theorem private_keys_guarded_made :
    let _ := sampleLibrary
    let _ := sampleDigests
    Guarded (run Mtls.enrolStep oneViewer
      [(.session 1, .create {} (sampleDraw 26 "cert1" 0))]) := by
  intro _ _
  refine private_keys_guarded (fun a ha => by cases ha) ⟨?_, trivial⟩
  refine fun user store a _ _ => ⟨fun _ row hrow => ?_, fun data d _ b hb => by cases hb⟩
  cases hrow.1

def withServer [X509Library] : Keyring :=
  { oneViewer with
    state := { oneViewer.state with
      store := sampleStore.apply
        (.create { descr := "server", caref := "root", subject := sampleName "server" }
          (sampleDraw 26 "server" 0)) } }

/-- A certificate that anybody can make, under the serial number of the server's. -/
def selfMade : X509 :=
  { sampleCaCert with
    serial := 26, subject := sampleName "anything", issuer := sampleName "anything"
    publicKey := ⟨.rsa 2048, 7⟩, signedBy := ⟨.rsa 2048, 7⟩ }

def forged [X509Library] [DigestLibrary] : Keyring :=
  run Mtls.enrolStep withServer [(.session 1, .importPem (some ⟨selfMade, []⟩) "" none "mine")]

/-- The key of the server's certificate is exported to the viewer. -/
theorem server_key_exported :
    let _ := sampleLibrary
    let _ := sampleDigests
    Proper withServer ∧ ¬Guarded forged := by
  intro _ _
  have hexport : ∃ user ∈ (Administration.requireAuth forged.state.accounts (.session 1)
        (some "read:user_certificates")).toOption,
      user.role = "viewer" ∧
        ∃ e ∈ (exportUserCertificate forged.state user 1 "pem" "" true false).toOption,
          e.key = some (.text ⟨⟨.rsa 2048, 26⟩⟩) := by
    decide +kernel
  obtain ⟨user, huser, hrole, e, he, hkey⟩ := hexport
  refine ⟨(fun a ha => by cases ha), fun hguarded => ?_⟩
  have hauth := toOption_eq_some.mp huser
  have hplain : Unprivileged forged.state.accounts user.id :=
    ⟨user, get?_of_requireAuth hauth, by simp [hrole], by simp [hrole]⟩
  rcases hguarded.exports hauth (toOption_eq_some.mp he) hkey hplain with hfalse | hgrants
  · exact hfalse
  · obtain ⟨_, _, _, _, _, _, hnone⟩ := hgrants
    exact hnone

end Mtls

end CaManager
