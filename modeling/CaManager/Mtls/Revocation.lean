import CaManager.Mtls.UserCertificates

/-!
# Revoked certificates at sign-in

A revoked certificate should sign nobody in, but what is revoked is a stored row, and what
signs in is an enrolment. A history keeps every certificate that was ever stored as revoked.
None of them signs in as long as nothing is revoked that still finds an enabled enrolment, and
nothing is enrolled that one of them finds.
-/

namespace CaManager

open Library

namespace Mtls

def RevokedIn (st : Store) (x : X509) : Prop :=
  ∃ c ∈ st.certificates, c.revoked = true ∧ c.x509 = .ok x

section Lookup

variable [DigestLibrary]

/-- The certificate is the one presented, or the one that the headers are about. -/
def Shows (x : X509) : Presented → Prop
  | .native y => y = x
  | .proxied y => y = x
  | .headers _ _ serial fingerprint _ => serial = some (upperHexText x.serial) ∧
    ∀ f ∈ fingerprint, f ≠ "" → f = DigestLibrary.fingerprint x

def entry (st : Accounts) (x : X509) : Option AuthCertificate :=
  findEnrolment st (upperHexText x.serial) (some (DigestLibrary.fingerprint x))

def MayEnter (st : Accounts) (userId : ℕ) : Prop :=
  ∃ u, st.users.get? userId = some u ∧ u.active = true

def Closed (st : Accounts) (x : X509) : Prop :=
  ∀ a, entry st x = some a → a.enabled = true → ¬MayEnter st a.userId

variable {st : Accounts} {x : X509} {a : AuthCertificate}

theorem entry_of_findEnrolment [X509Library] {p : Presented} {serial : String}
    (hshows : Shows x p) (hserial : p.info.serial = some serial)
    (h : findEnrolment st serial p.info.fingerprint = some a) : entry st x = some a := by
  cases p with
  | native y =>
    cases hshows
    cases hserial
    exact h
  | proxied y =>
    cases hshows
    cases hserial
    exact h
  | headers subjectDn issuerDn serial' fingerprint commonName =>
    obtain ⟨htext, hprint⟩ := hshows
    cases hserial.symm.trans htext
    unfold entry findEnrolment at *
    rcases Option.or_eq_some_iff.mp h with hfound | ⟨hnone, hfound⟩
    · rw [hfound, Option.some_or]
    · obtain ⟨f, hf, hfirst⟩ := Option.bind_eq_some_iff.mp hfound
      obtain ⟨hf, hne⟩ := Option.filter_eq_some_iff.mp hf
      cases hprint f hf (by simpa using hne)
      have hkept : (some (DigestLibrary.fingerprint x)).filter (· ≠ "") =
          some (DigestLibrary.fingerprint x) := Option.filter_eq_some_iff.mpr ⟨rfl, hne⟩
      rw [hnone, Option.none_or, hkept]
      exact hfirst

omit [DigestLibrary] in
theorem authenticateCertificate_eq_ok {s s' : MtlsState} {info : CertInfo} {u : User}
    (h : authenticateCertificate s info = .ok (u, a, s')) :
    ∃ serial, info.serial = some serial ∧
      findEnrolment s.accounts serial info.fingerprint = some a ∧ a.enabled = true ∧
      s.accounts.users.get? a.userId = some u ∧ u.active = true ∧
      s' = { s with accounts := { s.accounts with
        authCertificates := s.accounts.authCertificates.update a.id fun a =>
          { a with lastUsedAt := some s.now } } } := by
  simp only [authenticateCertificate, bind_eq_ok, ensure_eq_ok, orThrow_eq_ok, pure_eq_ok,
    exists_const, Prod.mk.injEq] at h
  obtain ⟨serial, hserial, a', hfind, henabled, _, _, u', huser, hactive, rfl, rfl, rfl⟩ := h
  exact ⟨serial, (Option.filter_eq_some_iff.mp hserial).1, hfind, henabled, huser, hactive, rfl⟩

theorem rejected_of_closed [X509Library] {s : MtlsState} {p : Presented}
    (hclosed : Closed s.accounts x) (hshows : Shows x p) :
    ∃ message, authenticateCertificate s p.info = .error message := by
  cases h : authenticateCertificate s p.info with
  | error message => exact ⟨message, rfl⟩
  | ok result =>
    obtain ⟨u, a, s'⟩ := result
    obtain ⟨serial, hserial, hfind, henabled, huser, hactive, -⟩ :=
      authenticateCertificate_eq_ok h
    have hentry := entry_of_findEnrolment hshows hserial hfind
    exact absurd ⟨u, huser, hactive⟩ (hclosed a hentry henabled)

/-- A change of an enrolment that keeps its serial number and its fingerprint changes what is
found only in that row. -/
theorem entry_update {f : AuthCertificate → AuthCertificate} {id : ℕ}
    (hf : ∀ a, (f a).certSerial = a.certSerial ∧ (f a).certFingerprint = a.certFingerprint) :
    entry { st with authCertificates := st.authCertificates.update id f } x =
      (entry st x).map fun a => if a.id = id then { f a with id } else a := by
  unfold entry findEnrolment
  rw [Option.map_or, List.map_findSome?, Option.map_bind]
  congr 1
  · refine congrArg (fun g => List.findSome? g _) (funext fun serial => ?_)
    exact Table.first_update fun a => by rw [withKey_authCertificate, (hf a).1]
  · refine congrArg _ (funext fun print => ?_)
    exact Table.first_update fun a => by rw [withKey_authCertificate, (hf a).2]

theorem closed_update {f : AuthCertificate → AuthCertificate} {id : ℕ}
    (hf : ∀ a, (f a).certSerial = a.certSerial ∧ (f a).certFingerprint = a.certFingerprint)
    (huser : ∀ a, (f a).userId = a.userId)
    (hclosed : ∀ a, entry st x = some a → (if a.id = id then (f a).enabled else a.enabled) = true →
      ¬MayEnter st a.userId) :
    Closed { st with authCertificates := st.authCertificates.update id f } x := by
  intro b hb henabled
  rw [entry_update hf, Option.map_eq_some_iff] at hb
  obtain ⟨a, ha, rfl⟩ := hb
  have hclosed := hclosed a ha
  split_ifs at henabled hclosed ⊢ with hid
  · rw [show ({ f a with id } : AuthCertificate).userId = a.userId from huser a]
    exact hclosed henabled
  · exact hclosed henabled

end Lookup

section Stores

variable {st st' : Store} {x : X509}

theorem revokedIn_of_addCertificate {row : Certificate} (hrow : row.revoked = false)
    (hadd : st.addCertificate row = .ok st') (h : RevokedIn st' x) : RevokedIn st x := by
  obtain ⟨-, rfl⟩ := CertificateService.addCertificate_eq_ok.mp hadd
  obtain ⟨c, hc, hrevoked, hx⟩ := h
  rcases Table.mem_insert.mp hc with hc | rfl
  · exact ⟨c, hc, hrevoked, hx⟩
  · exact absurd (hrow.symm.trans hrevoked) Bool.false_ne_true

theorem revokedIn_setCertificate {certId : ℕ} {f : Certificate → Certificate}
    (h : RevokedIn (st.setCertificate certId f) x) :
    RevokedIn st x ∨ ∃ c, st.certificates.get? certId = some c ∧ (f c).revoked = true ∧
      (f c).x509 = .ok x := by
  obtain ⟨c, hc, hrevoked, hx⟩ := h
  rcases Table.mem_update.mp hc with ⟨hc, -⟩ | ⟨c₀, hget, rfl⟩
  · exact .inl ⟨c, hc, hrevoked, hx⟩
  · exact .inr ⟨c₀, hget, hrevoked, hx⟩

theorem revokedIn_of_revokeCertificate {certId : ℕ} {reason username : String} {now : Time}
    (hrevoke : CertificateService.revokeCertificate st certId reason username now = .ok st')
    (h : RevokedIn st' x) :
    RevokedIn st x ∨ ∃ c, st.certificates.get? certId = some c ∧ c.x509 = .ok x := by
  obtain ⟨_, _, _, hst'⟩ := CertificateService.revokeCertificate_eq_ok hrevoke
  have hset : RevokedIn (st.setCertificate certId (CertificateService.revokedRow reason now)) x := by
    rcases hst' with rfl | ⟨_, _, _, hcrl⟩
    · exact h
    · obtain ⟨_, _, _, _, _, _, rfl⟩ := CRLService.generateCrl_eq_ok hcrl
      exact h
  rcases revokedIn_setCertificate hset with hold | ⟨c, hc, _, hx⟩
  · exact .inl hold
  · exact .inr ⟨c, hc, hx⟩

def SparesEnrolled [DigestLibrary] (accounts : Accounts) (st : Store) : RowEvent → Prop
  | .revoke certId _ => ∀ row x, st.certificates.get? certId = some row → row.x509 = .ok x →
    Closed accounts x
  | .sign certId caref serial => ∀ row ca caCert key x,
    st.certificates.get? certId = some row → row.revoked = true →
    (st.cas.first fun c => c.refid = caref) = some ca → ca.certificate = .ok caCert →
    ca.privateKey = .ok key → TrustStoreService.Issues caCert key serial x → Closed accounts x
  | _ => True

theorem closed_commitRules [X509Library] [DigestLibrary] (accounts : Accounts) :
    CommitRules (SparesEnrolled accounts) fun st => ∀ x, RevokedIn st x → Closed accounts x where
  countSerial _ h := h
  insert h hrow hadd := fun x hx => h x (revokedIn_of_addCertificate hrow.unrevoked hadd hx)
  sign h hC hget _ hca hcert hkey hissues := by
    intro x hx
    rcases revokedIn_setCertificate hx with hx | ⟨c, hc, hrevoked, hx⟩
    · exact h x hx
    · cases hx
      exact hC c _ _ _ _ hc hrevoked hca hcert hkey hissues
  revoke now h hC hget _ := by
    intro x hx
    rcases revokedIn_setCertificate hx with hx | ⟨c, hc, _, hx⟩
    · exact h x hx
    · exact hC c x hc hx
  unhold h _ hget _ _ := by
    intro x hx
    rcases revokedIn_setCertificate hx with hx | ⟨c, _, hrevoked, _⟩
    · exact h x hx
    · cases hrevoked
  renew keyPem h _ _ _ := by
    intro x hx
    rcases revokedIn_setCertificate hx with hx | ⟨c, _, hrevoked, _⟩
    · exact h x hx
    · cases hrevoked
  delete h _ := by
    rintro x ⟨c, hc, hrevoked, hx⟩
    exact h x ⟨c, (Table.mem_delete.mp hc).1, hrevoked, hx⟩
  list h hcrl := by
    obtain ⟨_, _, _, _, _, _, rfl⟩ := CRLService.generateCrl_eq_ok hcrl
    exact h

theorem revokedIn_of_plan [X509Library] [DigestLibrary] {s : MtlsState} {user : User}
    {e : Enrolment} {a : AuthCertificate} (hplan : plan s user e = .ok (st', a))
    (h : RevokedIn st' x) : RevokedIn s.store x := by
  rcases plan_cases hplan with ⟨data, d, rfl, hcreate⟩ | rfl | ⟨row, _, hrow, hadd⟩
  · obtain ⟨_, _, hcreate, _⟩ := createMtlsCertificate_eq_ok hcreate
    obtain ⟨ca, _, _, _, _, _, _, _, _, hadd⟩ :=
      CertificateService.createCertificate_eq_ok hcreate
    -- counting a serial number changes no row of the certificates
    have hcounted : RevokedIn (s.store.countSerial ca) x := revokedIn_of_addCertificate rfl hadd h
    exact hcounted
  · exact h
  · exact revokedIn_of_addCertificate hrow hadd h

end Stores

/-- What has become of the certificates: the state, and which were ever stored as revoked. -/
structure History where
  state : MtlsState
  revoked : X509 → Prop

def History.begin (s : MtlsState) : History := ⟨s, RevokedIn s.store⟩

def liftsHold : Op → Bool
  | .unhold _ => true
  | _ => false

/-- An operation on the stored certificates that takes no revocation back, an enrolment, a
revocation through an enrolment, a login, or the passing of time. -/
inductive Event
  | store (op : Op) (kept : liftsHold op = false)
  | enrol (c : Credential) (e : Enrolment)
  | revokeUser (c : Credential) (certId : ℕ) (reason : String)
  | login (p : Presented)
  | elapse (seconds : ℕ)

section Runs

variable [X509Library] [DigestLibrary]

def serve (s : MtlsState) : Event → MtlsState
  | .store op _ => { s with store := s.store.apply op }
  | .enrol c e => enrol s c e
  | .revokeUser c certId reason =>
    match Administration.requireAuth s.accounts c (some "write:user_certificates") with
    | .ok user => (revokeUserCertificate s user certId reason).2
    | .error _ => s
  | .login p =>
    match authenticateCertificate s p.info with
    | .ok (_, _, s') => s'
    | .error _ => s
  | .elapse seconds => { s with now := s.now + seconds }

def step (h : History) (e : Event) : History :=
  let state := serve h.state e
  ⟨state, fun x => h.revoked x ∨ RevokedIn state.store x⟩

/-- Every certificate that was ever revoked is rejected, however it is presented. -/
def Rejects (h : History) : Prop :=
  ∀ x, h.revoked x → ∀ p, Shows x p →
    ∃ message, authenticateCertificate h.state p.info = .error message

/-- What is revoked does not still sign somebody in, through another enrolment than the one it
is revoked through, and what is enrolled is not what a revoked certificate finds. -/
def Condition (h : History) : Event → Prop
  | .store op _ => Admits (SparesEnrolled h.state.accounts) h.state.store op
  | .enrol c e => ∀ user store a accounts,
    Administration.requireAuth h.state.accounts c e.permission = .ok user →
    plan h.state user e = .ok (store, a) → h.state.accounts.addAuthCertificate a = some accounts →
    ∀ x, h.revoked x → Closed accounts x
  | .revokeUser c certId _ => ∀ user a row x,
    Administration.requireAuth h.state.accounts c (some "write:user_certificates") = .ok user →
    h.state.accounts.authCertificates.get? certId = some a →
    h.state.store.certificateBySerial a.certSerial = some row → row.x509 = .ok x →
    Closed h.state.accounts x ∨ entry h.state.accounts x = some a
  | _ => True

/-- Every revoked certificate is counted as such, and closed. -/
structure Kept (h : History) : Prop where
  counted : ∀ x, RevokedIn h.state.store x → h.revoked x
  closed : ∀ x, h.revoked x → Closed h.state.accounts x

variable {h : History}

theorem Kept.rejects (hkept : Kept h) : Rejects h :=
  fun x hx _ hshows => rejected_of_closed (hkept.closed x hx) hshows

theorem Kept.step_of_closed {e : Event}
    (hold : ∀ x, h.revoked x → Closed (serve h.state e).accounts x)
    (hnew : ∀ x, RevokedIn (serve h.state e).store x → Closed (serve h.state e).accounts x) :
    Kept (step h e) where
  counted _ hx := .inr hx
  closed x hx := hx.elim (hold x) (hnew x)

omit [X509Library] in
theorem Kept.revokeUser (hkept : Kept h) {user : User} {certId : ℕ} {reason : String}
    (hspares : ∀ a row x, h.state.accounts.authCertificates.get? certId = some a →
      h.state.store.certificateBySerial a.certSerial = some row → row.x509 = .ok x →
      Closed h.state.accounts x ∨ entry h.state.accounts x = some a) :
    let s := (revokeUserCertificate h.state user certId reason).2
    ∀ x, h.revoked x ∨ RevokedIn s.store x → Closed s.accounts x := by
  intro s x hx
  rcases revokeUserCertificate_cases h.state user certId reason with
    heq | ⟨a, row, store, ha, hrow, hrevoke, heq⟩
  · have hs : s = h.state := heq
    rw [hs] at hx ⊢
    exact hkept.closed x (hx.elim id (hkept.counted x))
  · change s = _ at heq
    rw [heq] at hx ⊢
    have hcloses : Closed h.state.accounts x ∨ entry h.state.accounts x = some a := by
      rcases hx with hx | hx
      · exact .inl (hkept.closed x hx)
      · rcases revokedIn_of_revokeCertificate hrevoke hx with hold | ⟨c, hc, hx⟩
        · exact .inl (hkept.closed x (hkept.counted x hold))
        · have hsame : h.state.store.certificates.get? row.id = some row :=
            Table.get?_eq_some_iff.mpr ⟨Table.mem_of_first hrow, rfl⟩
          cases hc.symm.trans hsame
          exact hspares a row x ha hrow hx
    refine closed_update (fun _ => ⟨rfl, rfl⟩) (fun _ => rfl) fun b hb henabled => ?_
    -- the enrolment that was disabled lets nobody in, the others are as they were
    split_ifs at henabled with hid
    rcases hcloses with hclosed | hentry
    · exact hclosed b hb henabled
    · cases hb.symm.trans hentry
      exact absurd rfl hid

theorem Kept.enrol (hkept : Kept h) {c : Credential} {e : Enrolment}
    (hcond : Condition h (.enrol c e)) : Kept (step h (.enrol c e)) := by
  have hnone : Kept ⟨h.state, fun x => h.revoked x ∨ RevokedIn h.state.store x⟩ :=
    ⟨fun _ hx => .inr hx, fun x hx => hkept.closed x (hx.elim id (hkept.counted x))⟩
  simp only [Mtls.step, serve, Mtls.enrol]
  split
  next => exact hnone
  next user huser =>
    split
    next => exact hnone
    next store a hplan =>
      have hclosed : ∀ x, h.revoked x →
          Closed ((h.state.accounts.addAuthCertificate a).getD h.state.accounts) x := by
        intro x hx
        cases hadd : h.state.accounts.addAuthCertificate a with
        | none => exact hkept.closed x hx
        | some accounts => exact hcond user store a accounts huser hplan hadd x hx
      refine ⟨fun _ hx => .inr hx, fun x hx => hclosed x ?_⟩
      exact hx.elim id fun hx => hkept.counted x (revokedIn_of_plan hplan hx)

theorem Kept.login (hkept : Kept h) (p : Presented) : Kept (step h (.login p)) := by
  simp only [Mtls.step, serve]
  split
  next u a s' hok =>
    obtain ⟨_, _, _, _, _, _, rfl⟩ := authenticateCertificate_eq_ok hok
    refine ⟨fun _ hx => .inr hx, fun x hx => ?_⟩
    have hclosed := hkept.closed x (hx.elim id (hkept.counted x))
    refine closed_update (fun _ => ⟨rfl, rfl⟩) (fun _ => rfl) fun b hb henabled => ?_
    rw [ite_self] at henabled
    exact hclosed b hb henabled
  next => exact ⟨fun _ hx => .inr hx, fun x hx => hkept.closed x (hx.elim id (hkept.counted x))⟩

theorem Kept.step (hkept : Kept h) {e : Event} (hcond : Condition h e) : Kept (step h e) := by
  cases e with
  | store op kept =>
    refine Kept.step_of_closed hkept.closed ?_
    exact (closed_commitRules h.state.accounts).step op
      (fun x hx => hkept.closed x (hkept.counted x hx)) hcond
  | enrol c e => exact hkept.enrol hcond
  | revokeUser c certId reason =>
    cases huser : Administration.requireAuth h.state.accounts c
      (some "write:user_certificates") with
    | error refusal =>
      simp only [Mtls.step, serve, huser]
      exact ⟨fun _ hx => .inr hx, fun x hx => hkept.closed x (hx.elim id (hkept.counted x))⟩
    | ok user =>
      simp only [Mtls.step, serve, huser]
      exact ⟨fun _ hx => .inr hx, hkept.revokeUser fun a row x => hcond user a row x huser⟩
  | login p => exact hkept.login p
  | elapse seconds =>
    exact Kept.step_of_closed hkept.closed fun x hx => hkept.closed x (hkept.counted x hx)

/-- No certificate that was revoked in a run ever signs in after it, if none did at first and
every step meets the condition. -/
theorem revoked_certificates_rejected {s : MtlsState} {events : List Event}
    (hstart : ∀ x, RevokedIn s.store x → Closed s.accounts x)
    (hcond : Meets step Condition (.begin s) events) :
    Rejects (run step (.begin s) events) := by
  have hkept : Kept (.begin s) := ⟨fun _ hx => hx, hstart⟩
  exact (run_invariant (fun _ _ hkept hcond => hkept.step hcond) hkept hcond).rejects

end Runs

def sampleState : MtlsState where
  store := sampleStore
  accounts :=
    { users := (∅ : Table User).insert
        { username := "ann", email := "ann@ca", passwordHash := "", role := "operator" } }
  now := 0

def sampleEnrolment : Event := .enrol (.session 1) (.create {} (sampleDraw 26 "cert1" 0))

def sampleHistory [X509Library] [DigestLibrary] : History :=
  step (.begin sampleState) sampleEnrolment

/-- A certificate that is revoked through its only enrolment signs nobody in. -/
theorem revoked_certificates_rejected_sample :
    let _ := sampleLibrary
    let _ := sampleDigests
    Rejects (run step (.begin sampleState)
      [sampleEnrolment, .revokeUser (.session 1) 1 "keyCompromise"]) := by
  intro _ _
  have hentry : ∀ a ∈ sampleHistory.state.accounts.authCertificates.get? 1,
      ∀ row ∈ sampleHistory.state.store.certificateBySerial a.certSerial,
        ∀ pem ∈ row.crt.bind Encoded.decoded,
          entry sampleHistory.state.accounts pem.leaf = some a := by
    decide +kernel
  refine revoked_certificates_rejected (by rintro x ⟨c, hc, _⟩; cases hc) ⟨?_, ?_, trivial⟩
  · rintro _ _ _ _ _ _ _ x ⟨c, hc, _⟩
    cases hc
  · intro user a row x _ ha hrow hx
    unfold Certificate.x509 at hx
    split at hx
    next pem hpem =>
      cases hx
      exact .inr (hentry a ha row hrow pem hpem)
    next => cases hx

/-- Revoking the certificate through the certificate route leaves its enrolment enabled. -/
theorem revoked_certificate_signs_in :
    let _ := sampleLibrary
    let _ := sampleDigests
    let s := run step (.begin sampleState)
      [sampleEnrolment, .store (.apiRevoke 1 "keyCompromise" "root" 0) rfl]
    (∀ x, RevokedIn sampleState.store x → Closed sampleState.accounts x) ∧ ¬Rejects s := by
  intro _ _ s
  have haccepted : ∃ c ∈ s.state.store.certificates.rows, c.revoked = true ∧
      ∃ pem ∈ c.crt.bind Encoded.decoded,
        (authenticateCertificate s.state (Presented.native pem.leaf).info).toOption.isSome := by
    decide +kernel
  obtain ⟨c, hc, hrevoked, pem, hpem, hsome⟩ := haccepted
  constructor
  · rintro x ⟨c, hc, _⟩
    cases hc
  · intro hrejects
    have hx : c.x509 = .ok pem.leaf := by
      unfold Certificate.x509
      rw [hpem]
    obtain ⟨message, herror⟩ :=
      hrejects pem.leaf (.inr ⟨c, hc, hrevoked, hx⟩) (.native pem.leaf) rfl
    rw [herror] at hsome
    cases hsome

end Mtls

end CaManager
