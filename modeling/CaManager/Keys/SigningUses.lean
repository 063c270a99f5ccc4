import CaManager.Keys.KeyEncryption
import CaManager.Store.Routes

/-!
# Signing after encryption

For each operation that signs with an authority's key: what it gives once all keys are
encrypted, against what it gave before. The operations that decrypt agree always. Signing a
request, and creating and renewing through the routes, load the key column as it is; they agree
exactly where they do not get as far as using a key.
-/

namespace CaManager

open Library

namespace KeyTransparency

def settled {α : Type} (st : Store) (result : Except PyError (α × Store)) :
    Except PyError α × Store :=
  match result with
  | .ok (a, st') => (.ok a, st')
  | .error e => (.error e, st)

/-- Two results are the same, and the stores are up to the encryption of keys. -/
def Agrees {α : Type} (key : ℕ) (a b : α × Store) : Prop :=
  a.1 = b.1 ∧ a.2.encryptedUnder key = b.2.encryptedUnder key

section Agreement

variable {α : Type} {key : ℕ} {st : Store}

theorem agrees_of_eq {a b : α × Store} (h : a = (b.1, b.2.encryptedUnder key)) :
    Agrees key a b := by
  subst h
  exact ⟨rfl, encryptedUnder_encryptedUnder key b.2⟩

theorem agrees_unchanged (key : ℕ) (st : Store) (a : α) :
    Agrees key (a, st.encryptedUnder key) (a, st) :=
  agrees_of_eq rfl

theorem settled_map (key : ℕ) (st : Store) (result : Except PyError (α × Store)) :
    settled (st.encryptedUnder key) ((fun p => (p.1, p.2.encryptedUnder key)) <$> result) =
      ((settled st result).1, (settled st result).2.encryptedUnder key) := by
  cases result with
  | ok p => rfl
  | error e => rfl

theorem agrees_settled {f : Store → Except PyError (α × Store)}
    (h : f (st.encryptedUnder key) = (fun p => (p.1, p.2.encryptedUnder key)) <$> f st) :
    Agrees key (settled (st.encryptedUnder key) (f (st.encryptedUnder key)))
      (settled st (f st)) := by
  rw [h]
  exact agrees_of_eq (settled_map key st (f st))

end Agreement

section Lists

variable {st : Store} {key : ℕ}

theorem revokedRows_encryptedUnder (key : ℕ) (st : Store) (ca : CA) :
    CRLService.revokedRows (st.encryptedUnder key) (ca.encryptKey (some key)) =
      (CRLService.revokedRows st ca).map (Certificate.encryptKey (some key)) :=
  selectCertificates_encryptedUnder fun _ => rfl

theorem revokedEntries_encryptKey (now : Time) (cs : List Certificate) :
    CRLService.revokedEntries now (cs.map (Certificate.encryptKey (some key))) =
      CRLService.revokedEntries now cs := by
  induction cs with
  | nil => rfl
  | cons c cs ih =>
    have hserial : CRLService.listedSerial (c.encryptKey (some key)) = CRLService.listedSerial c :=
      rfl
    have hentry : ∀ serial, CRLService.revokedEntry now (c.encryptKey (some key)) serial =
        CRLService.revokedEntry now c serial := fun _ => rfl
    simp only [List.map_cons, CRLService.revokedEntries, hserial, hentry, ih]

theorem buildCrl_encryptedUnder (h : st.Unencrypted) (key : ℕ) {ca : CA} (hca : ca ∈ st.cas)
    (validityDays : ℤ) (now : Time) :
    CRLService.buildCrl (st.encryptedUnder key) (ca.encryptKey (some key)) validityDays now =
      CRLService.buildCrl st ca validityDays now := by
  unfold CRLService.buildCrl
  rw [CA.certificate_encryptKey, h.decryptedPrivateKey key hca, revokedRows_encryptedUnder,
    revokedEntries_encryptKey]
  rfl

theorem generateCrl_encryptedUnder (h : st.Unencrypted) (caId : ℕ) (validityDays : ℤ)
    (username : String) (now : Time) :
    CRLService.generateCrl (st.encryptedUnder key) caId validityDays username now =
      (fun p => (p.1, p.2.encryptedUnder key)) <$>
        CRLService.generateCrl st caId validityDays username now := by
  unfold CRLService.generateCrl
  rw [getCa_encryptedUnder]
  cases hca : st.cas.get? caId with
  | none => rfl
  | some ca =>
    have hbuild := buildCrl_encryptedUnder h key (Table.mem_of_get? hca)
    simp only [Option.map_some, orThrow_some, ok_bind, CA.hasPrivateKey_encryptKey, hbuild,
      revokedRows_encryptedUnder, List.length_map]
    refine bind_eq_map_bind fun _ _ => ?_
    exact bind_eq_map_bind fun crl _ => rfl

theorem generateDeltaCrl_encryptedUnder (h : st.Unencrypted) (caId : ℕ) (validityHours : ℤ)
    (username : String) (now : Time) :
    CRLService.generateDeltaCrl (st.encryptedUnder key) caId validityHours username now =
      (fun p => (p.1, p.2.encryptedUnder key)) <$>
        CRLService.generateDeltaCrl st caId validityHours username now := by
  unfold CRLService.generateDeltaCrl
  rw [getCa_encryptedUnder]
  cases hca : st.cas.get? caId with
  | none => rfl
  | some ca =>
    have hkey := h.decryptedPrivateKey key (Table.mem_of_get? hca)
    have hrows : ∀ base, CRLService.revokedSince (st.encryptedUnder key)
        (ca.encryptKey (some key)) base =
          (CRLService.revokedSince st ca base).map (Certificate.encryptKey (some key)) := by
      intro base
      unfold CRLService.revokedSince
      rw [revokedRows_encryptedUnder, List.filter_map]
      rfl
    simp only [Option.map_some, orThrow_some, ok_bind, CA.hasPrivateKey_encryptKey, hrows,
      CA.certificate_encryptKey, hkey, revokedEntries_encryptKey, List.length_map]
    -- the guards and the base list are those of the row, which only the key column changed
    refine bind_eq_map_bind fun _ _ => ?_
    refine bind_eq_map_bind fun _ _ => ?_
    refine bind_eq_map_bind fun _ _ => ?_
    refine bind_eq_map_bind fun _ _ => ?_
    refine bind_eq_map_bind fun base _ => ?_
    refine bind_eq_map_bind fun caCert _ => ?_
    refine bind_eq_map_bind fun caPrivateKey _ => ?_
    exact bind_eq_map_bind fun entries _ => rfl

end Lists

section Certificates

variable [X509Library] {st : Store} {key : ℕ}

theorem createdRow_encryptedUnder (h : st.Unencrypted) (r : CertificateService.CreateRequest)
    (x : X509) (k : KeyPem) (d : Draw) :
    CertificateService.createdRow (st.encryptedUnder key) r x k d =
      (CertificateService.createdRow st r x k d).encryptKey (some key) := by
  unfold CertificateService.createdRow Certificate.encryptKey
  rw [keyEncryptionKey_encryptedUnder, h.disabled]
  split_ifs
  · rfl
  · rfl

theorem createCertificate_encryptedUnder (h : st.Unencrypted)
    (r : CertificateService.CreateRequest) (d : Draw) :
    CertificateService.createCertificate (st.encryptedUnder key) r d =
      Store.encryptedUnder key <$> CertificateService.createCertificate st r d := by
  unfold CertificateService.createCertificate
  rw [firstCa_encryptedUnder fun _ => rfl]
  cases hca : st.cas.first fun c => c.refid = r.caref with
  | none => rfl
  | some ca =>
    have hkey := h.decryptedPrivateKey key (Table.mem_of_first hca)
    simp only [Option.map_some, orThrow_some, ok_bind, CA.prv_encryptKey,
      KeyEncryption.isSome_encryptColumn, CA.certificate_encryptKey, hkey]
    refine bind_eq_map_bind fun _ _ => ?_
    refine bind_eq_map_bind fun caCert _ => ?_
    refine bind_eq_map_bind fun caPrivateKey _ => ?_
    refine bind_eq_map_bind fun p _ => ?_
    rw [← countSerial_encryptedUnder, createdRow_encryptedUnder h, addCertificate_encryptedUnder]

end Certificates

/-- The state as a request to sign meets it: the row can be signed, and the key of the authority
can be loaded as it is stored. -/
def SignsRequest (st : Store) (certId : ℕ) (caref : String) : Prop :=
  ∃ row ca caCert key, st.certificates.get? certId = some row ∧ row.csr ≠ none ∧ row.crt = none ∧
    (st.cas.first fun c => c.refid = caref) = some ca ∧ ca.certificate = .ok caCert ∧
    ca.privateKey = .ok key

section Requests

variable {st : Store} {key certId : ℕ} {caref certType : String}
  {validityDays : ℤ} {serial : RandomSerial} {now : Time}

theorem raises_signCsr (csr : Csr) (caCert : X509) (caPrivateKey : PublicKey) :
    Raises (· ≠ .unloadable "private key")
      (TrustStoreService.signCsr csr caCert caPrivateKey validityDays certType serial now) := by
  have hadd : ∀ (b : CertificateBuilder) (value : ExtensionValue) (critical : Bool),
      Raises (· ≠ .unloadable "private key") (b.addExtension value critical) := by
    intro b value critical
    unfold CertificateBuilder.addExtension
    split_ifs
    · exact raises_error (by simp)
    · exact raises_ok _
  unfold TrustStoreService.signCsr
  refine (raises_ensure (by simp)).bind fun _ _ => ?_
  refine Raises.bind ?_ fun requested _ => ?_
  · unfold Csr.extensions readExtensions
    split
    next => exact raises_error (by simp)
    next => exact raises_ok _
  refine (raises_foldlM (fun b (e : Extension) => hadd b e.value e.critical) _ _).bind fun b _ => ?_
  refine Raises.bind ?_ fun b _ => ?_
  · unfold TrustStoreService.addBasicConstraints
    split_ifs
    · exact raises_ok b
    · exact hadd _ _ _
    · exact hadd _ _ _
  refine Raises.bind ?_ fun b _ => ?_
  · unfold TrustStoreService.addKeyUsage
    split_ifs
    · exact raises_ok b
    · exact hadd _ _ _
    · exact hadd _ _ _
    · exact raises_ok b
  refine Raises.bind ?_ fun b _ => ?_
  · unfold TrustStoreService.addExtendedKeyUsage
    split_ifs
    · exact raises_ok b
    · exact hadd _ _ _
    · exact hadd _ _ _
    · exact hadd _ _ _
    · exact raises_ok b
  unfold CertificateBuilder.sign
  refine Raises.bind ?_ fun serial _ => ?_
  · unfold checkSerial
    split_ifs
    · exact raises_error (by simp)
    · exact raises_error (by simp)
    · exact raises_ok _
  dsimp only
  split_ifs
  · exact raises_error (by simp)
  · exact raises_ok _

variable [X509Library]

theorem signCsr_encryptedUnder_of_signs (h : SignsRequest st certId caref) :
    CertificateService.signCsr (st.encryptedUnder key) certId caref certType validityDays serial
      now = .error (.unloadable "private key") := by
  obtain ⟨row, ca, caCert, caKey, hrow, hcsr, hcrt, hca, hcert, hkey⟩ := h
  obtain ⟨csrText, hcsr⟩ := Option.ne_none_iff_exists'.mp hcsr
  have hcsr' : (row.encryptKey (some key)).csr = some csrText := hcsr
  have hprv : ca.prv.isSome = true := by
    unfold CA.privateKey at hkey
    cases hprv : ca.prv with
    | none => simp [hprv] at hkey
    | some e => rfl
  unfold CertificateService.signCsr
  rw [getCertificate_encryptedUnder, firstCa_encryptedUnder fun _ => rfl, hrow, hca]
  simp [hcsr', hcrt, hprv, hcert]

theorem raises_signCsr_of_signs (h : SignsRequest st certId caref) :
    Raises (· ≠ .unloadable "private key")
      (CertificateService.signCsr st certId caref certType validityDays serial now) := by
  obtain ⟨row, ca, caCert, caKey, hrow, hcsr, hcrt, hca, hcert, hkey⟩ := h
  unfold CertificateService.signCsr
  simp only [hrow, hca, hcert, hkey, orThrow_some, ok_bind]
  refine Raises.bind (raises_orThrow (by simp)) fun csrText _ => ?_
  refine (raises_ensure (by simp)).bind fun _ _ => ?_
  refine (raises_ensure (by simp)).bind fun _ _ => ?_
  refine Raises.bind (raises_orThrow (by simp)) fun csr _ => ?_
  exact (raises_signCsr csr caCert caKey).bind fun x _ => raises_ok _

theorem signCsr_encryptedUnder_of_not_signs (h : ¬SignsRequest st certId caref) :
    CertificateService.signCsr (st.encryptedUnder key) certId caref certType validityDays serial
        now =
      (fun p => (p.1, p.2.encryptedUnder key)) <$>
        CertificateService.signCsr st certId caref certType validityDays serial now := by
  unfold CertificateService.signCsr
  rw [getCertificate_encryptedUnder, firstCa_encryptedUnder fun _ => rfl]
  cases hrow : st.certificates.get? certId with
  | none => rfl
  | some row =>
    simp only [Option.map_some, orThrow_some, ok_bind]
    refine bind_eq_map_bind fun csrText hcsr => ?_
    refine bind_eq_map_bind fun _ hcrt => ?_
    cases hca : st.cas.first fun c => c.refid = caref with
    | none => rfl
    | some ca =>
      simp only [Option.map_some, orThrow_some, ok_bind, CA.prv_encryptKey,
        KeyEncryption.isSome_encryptColumn, CA.certificate_encryptKey, CA.privateKey_encryptKey]
      refine bind_eq_map_bind fun _ _ => ?_
      refine bind_eq_map_bind fun caCert hcert => ?_
      have hcsr' : row.csr = some csrText := orThrow_eq_ok.mp hcsr
      have hunloadable := CA.privateKey_eq_error fun k hkey =>
        h ⟨row, ca, caCert, k, hrow, by simp [hcsr'], ensure_eq_ok.mp hcrt, hca, hcert, hkey⟩
      rw [hunloadable]
      rfl

theorem agrees_signCsr_iff (st : Store) :
    Agrees key
      (settled (st.encryptedUnder key) (CertificateService.signCsr (st.encryptedUnder key) certId
        caref certType validityDays serial now))
      (settled st (CertificateService.signCsr st certId caref certType validityDays serial now)) ↔
      ¬SignsRequest st certId caref := by
  constructor
  · rintro ⟨hresult, _⟩ hsigns
    rw [signCsr_encryptedUnder_of_signs hsigns] at hresult
    have hraises : Raises (· ≠ .unloadable "private key")
        (CertificateService.signCsr st certId caref certType validityDays serial now) :=
      raises_signCsr_of_signs hsigns
    cases hsign : CertificateService.signCsr st certId caref certType validityDays serial now with
    | ok p =>
      rw [hsign] at hresult
      cases hresult
    | error e =>
      rw [hsign] at hresult
      exact hraises e hsign (Except.error.inj hresult).symm
  · intro hsigns
    exact agrees_settled (f := fun s => CertificateService.signCsr s certId caref certType
      validityDays serial now) (signCsr_encryptedUnder_of_not_signs hsigns)

end Requests

/-- The state as the create route meets it: the key of the authority can be loaded as it is
stored, and nothing stands in the way of the certificate. -/
def CreatesCertificate (st : Store) (body : Routes.CreateBody) (d : Draw) : Prop :=
  Routes.weakKey body.keyKind = false ∧ 0 < d.serial.value ∧ 0 ≤ body.validityDays ∧
    (st.certificates.first fun c => c.refid = d.refid) = none ∧
    ∃ ca caCert key, st.cas.get? body.caId = some ca ∧ ca.certificate = .ok caCert ∧
      ca.privateKey = .ok key

/-- A row that can be renewed: its certificate, and the certificate and key of the authority, can
be loaded as they are stored. -/
def RenewsRow (row : Certificate) (ca : CA) (d : Draw) : Prop :=
  0 < d.serial.value ∧
    ∃ x caCert key, row.x509 = .ok x ∧ readExtensions x.extensions = .ok x.extensions ∧
      ca.certificate = .ok caCert ∧ ca.privateKey = .ok key

def RenewsCertificate (st : Store) (certId : ℕ) (d : Draw) : Prop :=
  ∃ row ca, st.certificates.get? certId = some row ∧ Routes.issuingCa st row = some ca ∧
    RenewsRow row ca d

def RenewsLinked (st : Store) (request : ℕ × Draw) : Prop :=
  ∃ row ca, st.certificates.get? request.1 = some row ∧
    (st.cas.first fun c => some c.refid = row.caref) = some ca ∧ RenewsRow row ca request.2

section Routes

variable {st : Store} {key : ℕ}

theorem prv_ne_none_of_privateKey {ca : CA} {k : PublicKey} (h : ca.privateKey = .ok k) :
    ca.prv ≠ none := by
  intro hprv
  simp [CA.privateKey, hprv] at h

theorem crt_ne_none_of_x509 {row : Certificate} {x : X509} (h : row.x509 = .ok x) :
    row.crt ≠ none := by
  intro hcrt
  simp [Certificate.x509, hcrt] at h

theorem days_nonneg {n : ℤ} : 0 ≤ days n ↔ 0 ≤ n := by
  unfold days
  omega

theorem renewedValidity_pos (x : X509) : 0 < Routes.renewedValidity x := by
  unfold Routes.renewedValidity
  dsimp only
  split_ifs with h
  · exact h
  · decide

section Create

variable [X509Library]

theorem tryCreate_encryptKey (key : ℕ) (ca : CA) (body : Routes.CreateBody) (d : Draw)
    (s : Store) :
    ∃ e, Routes.tryCreate s (ca.encryptKey (some key)) body d = .error e := by
  unfold Routes.tryCreate
  cases hcert : ca.certificate with
  | error e => exact ⟨e, by simp [hcert]⟩
  | ok caCert => exact ⟨_, by simp [hcert]; rfl⟩

theorem exists_tryCreate_iff (st : Store) (ca : CA) (body : Routes.CreateBody) (d : Draw) :
    (∃ st', Routes.tryCreate st ca body d = .ok st') ↔
      0 < d.serial.value ∧ 0 ≤ body.validityDays ∧
        (st.certificates.first fun c => c.refid = d.refid) = none ∧
        ∃ caCert k, ca.certificate = .ok caCert ∧ ca.privateKey = .ok k := by
  constructor
  · rintro ⟨st', hmade⟩
    simp only [Routes.tryCreate, bind_eq_ok] at hmade
    obtain ⟨caCert, hcert, caKey, hkey, x, hsign, hadd⟩ := hmade
    obtain ⟨hpos, _, hbounds⟩ := CertificateBuilder.exists_sign_iff.mp ⟨x, hsign⟩
    have hfree := (CertificateService.addCertificate_eq_ok.mp hadd).1
    have hdays : 0 ≤ days body.validityDays := by simpa using hbounds
    exact ⟨by simpa using hpos, days_nonneg.mp hdays, hfree, caCert, caKey, hcert, hkey⟩
  · rintro ⟨hpos, hdays, hfree, caCert, caKey, hcert, hkey⟩
    unfold Routes.tryCreate
    rw [hcert, hkey]
    have hbounds : d.now ≤ d.now + days body.validityDays :=
      le_add_of_nonneg_right (days_nonneg.mpr hdays)
    refine exists_bind_eq_ok ⟨caCert, rfl⟩ fun _ _ => exists_bind_eq_ok ⟨caKey, rfl⟩ fun _ _ => ?_
    refine exists_bind_eq_ok ?_ fun x _ => ?_
    · exact CertificateBuilder.exists_sign_of_draw rfl hpos hbounds
    · exact ⟨_, CertificateService.addCertificate_eq_ok.mpr ⟨hfree, rfl⟩⟩

theorem agrees_apiCreate_iff (st : Store) (body : Routes.CreateBody) (d : Draw) :
    Agrees key (Routes.createCertificate (st.encryptedUnder key) body d)
      (Routes.createCertificate st body d) ↔ ¬CreatesCertificate st body d := by
  unfold Routes.createCertificate CreatesCertificate
  rw [getCa_encryptedUnder]
  cases hca : st.cas.get? body.caId with
  | none => simp [agrees_unchanged]
  | some ca =>
    have hmade := exists_tryCreate_iff st ca body d
    obtain ⟨e, he⟩ := tryCreate_encryptKey key ca body d (st.encryptedUnder key)
    simp only [Option.map_some, CA.prv_encryptKey, KeyEncryption.encryptColumn_eq_none, he,
      Option.some.injEq]
    split_ifs with hprv hweak
    · refine iff_of_true (agrees_unchanged key st _) ?_
      rintro ⟨_, _, _, _, _, caCert, k, rfl, _, hkey⟩
      exact prv_ne_none_of_privateKey hkey hprv
    · refine iff_of_true (agrees_unchanged key st _) ?_
      rintro ⟨hstrong, _⟩
      rw [hweak] at hstrong
      cases hstrong
    · cases hcreate : Routes.tryCreate st ca body d with
      | ok st' =>
        obtain ⟨hpos, hdays, hfree, caCert, k, hcert, hkey⟩ := hmade.mp ⟨st', hcreate⟩
        refine iff_of_false (fun h => ?_) fun h => ?_
        · simp [Agrees] at h
        · exact h ⟨Bool.eq_false_of_not_eq_true hweak, hpos, hdays, hfree, ca, caCert, k, rfl, hcert, hkey⟩
      | error e =>
        refine iff_of_true (agrees_unchanged key st _) ?_
        rintro ⟨_, hpos, hdays, hfree, _, caCert, k, rfl, hcert, hkey⟩
        obtain ⟨st', hst'⟩ := hmade.mpr ⟨hpos, hdays, hfree, caCert, k, hcert, hkey⟩
        rw [hcreate] at hst'
        cases hst'

end Create

section Renew

theorem tryRenew_encryptKey (key : ℕ) (row : Certificate) (ca : CA) (d : Draw) (s : Store) :
    ∃ e, Routes.tryRenew s (row.encryptKey (some key)) (ca.encryptKey (some key)) d = .error e := by
  have hx509 : (row.encryptKey (some key)).x509 = row.x509 := rfl
  unfold Routes.tryRenew
  rw [hx509]
  cases hx : row.x509 with
  | error e => exact ⟨e, rfl⟩
  | ok x =>
    cases hcert : ca.certificate with
    | error e => exact ⟨e, by simp [hcert]⟩
    | ok caCert => exact ⟨_, by simp [hcert]; rfl⟩

theorem exists_tryRenew_iff (st : Store) (row : Certificate) (ca : CA) (d : Draw) :
    (∃ st', Routes.tryRenew st row ca d = .ok st') ↔ RenewsRow row ca d := by
  constructor
  · rintro ⟨st', hmade⟩
    simp only [Routes.tryRenew, bind_eq_ok] at hmade
    obtain ⟨x, hx, caCert, hcert, caKey, hkey, requested, hrequested, y, hsign, _⟩ := hmade
    obtain ⟨hpos, _, _⟩ := CertificateBuilder.exists_sign_iff.mp ⟨y, hsign⟩
    cases readExtensions_eq_ok hrequested
    exact ⟨by simpa using hpos, x, caCert, caKey, hx, hrequested, hcert, hkey⟩
  · rintro ⟨hpos, x, caCert, caKey, hx, hrequested, hcert, hkey⟩
    unfold Routes.tryRenew
    rw [hx, hcert, hkey]
    have hbounds : d.now ≤ d.now + days (Routes.renewedValidity x) :=
      le_add_of_nonneg_right (days_nonneg.mpr (renewedValidity_pos x).le)
    refine exists_bind_eq_ok ⟨x, rfl⟩ fun _ hx' => ?_
    cases hx'
    refine exists_bind_eq_ok ⟨caCert, rfl⟩ fun _ _ => exists_bind_eq_ok ⟨caKey, rfl⟩ fun _ _ => ?_
    refine exists_bind_eq_ok ⟨_, hrequested⟩ fun _ _ => exists_bind_eq_ok ?_ fun y _ => ⟨_, rfl⟩
    exact CertificateBuilder.exists_sign_of_draw rfl hpos hbounds

theorem issuingCa_encryptedUnder (key : ℕ) (st : Store) (row : Certificate) :
    Routes.issuingCa (st.encryptedUnder key) (row.encryptKey (some key)) =
      (Routes.issuingCa st row).map (CA.encryptKey (some key)) := by
  have hissuer : (row.encryptKey (some key)).issuer = row.issuer := rfl
  unfold Routes.issuingCa
  rw [Certificate.caref_encryptKey, hissuer, firstCa_encryptedUnder fun _ => rfl]
  cases st.cas.first fun c => some c.refid = row.caref with
  | some ca => rfl
  | none =>
    cases CertificateService.nonEmpty row.issuer with
    | none => rfl
    | some issuer =>
      dsimp only [Option.map_none]
      rw [firstCa_encryptedUnder fun _ => rfl, firstCa_encryptedUnder fun _ => rfl]
      cases st.cas.first fun c => c.subject = some issuer with
      | some ca => rfl
      | none => rfl

theorem agrees_renew_iff (st : Store) (certId : ℕ) (d : Draw) :
    Agrees key (Routes.renewCertificate (st.encryptedUnder key) certId d)
      (Routes.renewCertificate st certId d) ↔ ¬RenewsCertificate st certId d := by
  unfold Routes.renewCertificate RenewsCertificate
  rw [getCertificate_encryptedUnder]
  cases hrow : st.certificates.get? certId with
  | none => simp [agrees_unchanged]
  | some row =>
    simp only [Option.map_some, Certificate.crt_encryptKey, issuingCa_encryptedUnder,
      Option.some.injEq]
    split_ifs with hnone
    · refine iff_of_true (agrees_unchanged key st _) ?_
      rintro ⟨_, ca, rfl, _, _, x, _, _, hx, _⟩
      exact crt_ne_none_of_x509 hx hnone
    · cases hca : Routes.issuingCa st row with
      | none =>
        refine iff_of_true (agrees_unchanged key st _) ?_
        rintro ⟨_, ca, rfl, hca', _⟩
        rw [hca] at hca'
        cases hca'
      | some ca =>
        obtain ⟨e, he⟩ := tryRenew_encryptKey key row ca d (st.encryptedUnder key)
        have hmade := exists_tryRenew_iff st row ca d
        simp only [Option.map_some, CA.prv_encryptKey, KeyEncryption.encryptColumn_eq_none, he]
        split_ifs with hprv
        · refine iff_of_true (agrees_unchanged key st _) ?_
          rintro ⟨_, ca', rfl, hca', _, _, _, k, _, _, _, hkey⟩
          rw [hca, Option.some.injEq] at hca'
          exact prv_ne_none_of_privateKey hkey (hca' ▸ hprv)
        · cases hrenew : Routes.tryRenew st row ca d with
          | ok st' =>
            refine iff_of_false (fun h => ?_) fun h => ?_
            · simp [Agrees] at h
            · exact h ⟨row, ca, rfl, hca, hmade.mp ⟨st', hrenew⟩⟩
          | error e =>
            refine iff_of_true (agrees_unchanged key st _) ?_
            rintro ⟨_, ca', rfl, hca', hrenews⟩
            rw [hca, Option.some.injEq] at hca'
            obtain ⟨st', hst'⟩ := hmade.mpr (hca' ▸ hrenews)
            rw [hrenew] at hst'
            cases hst'

end Renew

section BulkRenew

variable {request : ℕ × Draw}

theorem bulkRenewNote_of_renews (h : RenewsLinked st request) :
    Routes.bulkRenewNote st request = none := by
  obtain ⟨row, ca, hrow, hca, hrenews⟩ := h
  obtain ⟨st', hst'⟩ := (exists_tryRenew_iff st row ca request.2).mpr hrenews
  obtain ⟨_, x, _, k, hx, _, _, hkey⟩ := hrenews
  simp [Routes.bulkRenewNote, hrow, crt_ne_none_of_x509 hx, hca, prv_ne_none_of_privateKey hkey,
    hst']

theorem bulkRenewOne_of_not_renews (h : ¬RenewsLinked st request) :
    Routes.bulkRenewOne st request = st ∧ Routes.bulkRenewNote st request ≠ none := by
  unfold Routes.bulkRenewOne Routes.bulkRenewNote
  cases hrow : st.certificates.get? request.1 with
  | none => simp
  | some row =>
    dsimp only
    split_ifs with hcrt
    · simp
    · cases hca : st.cas.first fun c => some c.refid = row.caref with
      | none => simp
      | some ca =>
        dsimp only
        split_ifs with hprv
        · simp
        · cases hrenew : Routes.tryRenew st row ca request.2 with
          | ok st' =>
            have hrenews := (exists_tryRenew_iff st row ca request.2).mp ⟨st', hrenew⟩
            exact absurd ⟨row, ca, hrow, hca, hrenews⟩ h
          | error e => simp

theorem not_renewsLinked_encryptedUnder (key : ℕ) (st : Store) (request : ℕ × Draw) :
    ¬RenewsLinked (st.encryptedUnder key) request := by
  rintro ⟨row, ca, _, hca, _, _, _, k, _, _, _, hkey⟩
  rw [firstCa_encryptedUnder fun _ => rfl, Option.map_eq_some_iff] at hca
  obtain ⟨ca₀, _, rfl⟩ := hca
  rw [CA.privateKey_encryptKey] at hkey
  cases hkey

theorem bulkRenewNote_encryptedUnder (key : ℕ) (h : ¬RenewsLinked st request) :
    Routes.bulkRenewNote (st.encryptedUnder key) request = Routes.bulkRenewNote st request := by
  unfold Routes.bulkRenewNote
  rw [getCertificate_encryptedUnder]
  cases hrow : st.certificates.get? request.1 with
  | none => rfl
  | some row =>
    have hfirst : (st.encryptedUnder key).cas.first
        (fun c => some c.refid = (row.encryptKey (some key)).caref) =
        (st.cas.first fun c => some c.refid = row.caref).map (CA.encryptKey (some key)) :=
      firstCa_encryptedUnder fun _ => rfl
    simp only [Option.map_some, Certificate.crt_encryptKey, hfirst]
    split_ifs
    · rfl
    · cases hca : st.cas.first fun c => some c.refid = row.caref with
      | none => rfl
      | some ca =>
        obtain ⟨e, he⟩ := tryRenew_encryptKey key row ca request.2 (st.encryptedUnder key)
        simp only [Option.map_some, CA.prv_encryptKey, KeyEncryption.encryptColumn_eq_none, he]
        split_ifs
        · rfl
        · cases hrenew : Routes.tryRenew st row ca request.2 with
          | ok st' =>
            have hrenews := (exists_tryRenew_iff st row ca request.2).mp ⟨st', hrenew⟩
            exact absurd ⟨row, ca, hrow, hca, hrenews⟩ h
          | error e => rfl

theorem bulkRenew_encryptedUnder (key : ℕ) (st : Store) (requests : List (ℕ × Draw)) :
    Routes.bulkRenewCertificates (st.encryptedUnder key) requests = st.encryptedUnder key := by
  induction requests with
  | nil => rfl
  | cons request requests ih =>
    have hone := bulkRenewOne_of_not_renews (not_renewsLinked_encryptedUnder key st request)
    unfold Routes.bulkRenewCertificates
    rw [List.foldl_cons, hone.1]
    exact ih

theorem bulkRenewNotes_encryptedUnder_iff (key : ℕ) (st : Store) (requests : List (ℕ × Draw)) :
    Routes.bulkRenewNotes (st.encryptedUnder key) requests = Routes.bulkRenewNotes st requests ↔
      ∀ request ∈ requests, ¬RenewsLinked st request := by
  induction requests with
  | nil => simp [Routes.bulkRenewNotes]
  | cons request requests ih =>
    have hnot := bulkRenewOne_of_not_renews (not_renewsLinked_encryptedUnder key st request)
    rw [List.forall_mem_cons]
    by_cases hrenews : RenewsLinked st request
    · refine iff_of_false (fun h => ?_) fun h => h.1 hrenews
      have hnote := congrArg Prod.snd (List.cons.inj h).1
      rw [bulkRenewNote_of_renews hrenews] at hnote
      exact hnot.2 hnote
    · have hone := bulkRenewOne_of_not_renews hrenews
      simp only [Routes.bulkRenewNotes, hnot.1, hone.1, bulkRenewNote_encryptedUnder key hrenews,
        List.cons.injEq, true_and]
      exact ih.trans ⟨fun h => ⟨hrenews, h⟩, fun h => h.2⟩

theorem agrees_bulkRenew_iff (st : Store) (requests : List (ℕ × Draw)) :
    Agrees key
      (Routes.bulkRenewNotes (st.encryptedUnder key) requests,
        Routes.bulkRenewCertificates (st.encryptedUnder key) requests)
      (Routes.bulkRenewNotes st requests, Routes.bulkRenewCertificates st requests) ↔
      ∀ request ∈ requests, ¬RenewsLinked st request := by
  refine ⟨fun h => (bulkRenewNotes_encryptedUnder_iff key st requests).mp h.1, fun h => ?_⟩
  have hsame : Routes.bulkRenewCertificates st requests = st := by
    induction requests with
    | nil => rfl
    | cons request requests ih =>
      rw [List.forall_mem_cons] at h
      unfold Routes.bulkRenewCertificates
      rw [List.foldl_cons, (bulkRenewOne_of_not_renews h.1).1]
      exact ih h.2
  refine ⟨(bulkRenewNotes_encryptedUnder_iff key st requests).mpr h, ?_⟩
  simp only [bulkRenew_encryptedUnder, hsame, encryptedUnder_encryptedUnder]

end BulkRenew

end Routes

end KeyTransparency

end CaManager
