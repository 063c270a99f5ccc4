import CaManager.Backup.Restored
import CaManager.Store.Imports
import CaManager.Store.Operations

/-!
# Which keys are encrypted

Once encryption is configured, a store is covered when every stored key is sealed. Creating
authorities and certificates through the services and restoring keep it so, and so do creating
and renewing through the routes, which cannot read a sealed key and fail. Importing a key or
making a request with one does not.
-/

namespace CaManager

open Library

namespace KeyCoverage

/-- Encryption is configured, and every key is sealed. -/
structure Covered (st : Store) : Prop where
  enabled : ∃ key, st.keyEncryptionKey = some key
  cas : ∀ c ∈ st.cas, ∀ e ∈ c.prv, e.isSealed = true
  certificates : ∀ c ∈ st.certificates, ∀ e ∈ c.prv, e.isSealed = true

section Commits

variable {st st' : Store}

theorem Covered.addCa {row : CA} (h : Covered st) (hrow : ∀ e ∈ row.prv, e.isSealed = true)
    (hadd : st.addCa row = .ok st') : Covered st' := by
  obtain ⟨-, rfl⟩ := Store.addCa_eq_ok hadd
  refine ⟨h.enabled, fun c hc => ?_, h.certificates⟩
  rcases Table.mem_insert.mp hc with hc | rfl
  · exact h.cas c hc
  · exact hrow

theorem Covered.setCa {id : ℕ} {f : CA → CA} (h : Covered st)
    (hf : ∀ c ∈ st.cas, ∀ e ∈ (f c).prv, e.isSealed = true) : Covered (st.setCa id f) := by
  refine ⟨h.enabled, fun c hc => ?_, h.certificates⟩
  rcases Table.mem_update.mp hc with ⟨hc, _⟩ | ⟨c₀, hget, rfl⟩
  · exact h.cas c hc
  · exact hf c₀ (Table.mem_of_get? hget)

theorem Covered.countSerial (h : Covered st) (ca : CA) : Covered (st.countSerial ca) :=
  h.setCa fun c hc => h.cas c hc

theorem Covered.addCertificate {row : Certificate} (h : Covered st)
    (hrow : ∀ e ∈ row.prv, e.isSealed = true) (hadd : st.addCertificate row = .ok st') :
    Covered st' := by
  obtain ⟨-, rfl⟩ := CertificateService.addCertificate_eq_ok.mp hadd
  refine ⟨h.enabled, h.cas, fun c hc => ?_⟩
  rcases Table.mem_insert.mp hc with hc | rfl
  · exact h.certificates c hc
  · exact hrow

theorem Covered.setCertificate {id : ℕ} {f : Certificate → Certificate} (h : Covered st)
    (hf : ∀ c ∈ st.certificates, ∀ e ∈ (f c).prv, e.isSealed = true) :
    Covered (st.setCertificate id f) := by
  refine ⟨h.enabled, h.cas, fun c hc => ?_⟩
  rcases Table.mem_update.mp hc with ⟨hc, _⟩ | ⟨c₀, hget, rfl⟩
  · exact h.certificates c hc
  · exact hf c₀ (Table.mem_of_get? hget)

theorem Covered.delete (h : Covered st) (id : ℕ) :
    Covered { st with certificates := st.certificates.delete id } :=
  ⟨h.enabled, h.cas, fun c hc => h.certificates c (Table.mem_delete.mp hc).1⟩

theorem Covered.sealed_encrypt (h : Covered st) (key : KeyPem) :
    ((Encoded.base64 key).encrypt st.keyEncryptionKey).isSealed = true := by
  obtain ⟨k, hk⟩ := h.enabled
  rw [hk, Encoded.isSealed_encrypt]

theorem Covered.privateKey_ne_ok (h : Covered st) {ca : CA} {key : PublicKey} (hca : ca ∈ st.cas) :
    ca.privateKey ≠ .ok key := by
  unfold CA.privateKey
  cases hprv : ca.prv with
  | none => simp
  | some e =>
    have hsealed := h.cas ca hca e hprv
    simp [Encoded.decoded_of_isSealed hsealed]

theorem Covered.revokeCertificate (h : Covered st) {certId : ℕ} {reason username : String}
    {now : Time}
    (hok : CertificateService.revokeCertificate st certId reason username now = .ok st') :
    Covered st' := by
  obtain ⟨_, _, _, hst'⟩ := CertificateService.revokeCertificate_eq_ok hok
  have hset : Covered (st.setCertificate certId (CertificateService.revokedRow reason now)) :=
    h.setCertificate fun c hc => h.certificates c hc
  rcases hst' with rfl | ⟨_, _, _, hcrl⟩
  · exact hset
  · obtain ⟨_, _, _, _, _, _, rfl⟩ := CRLService.generateCrl_eq_ok hcrl
    exact ⟨hset.enabled, hset.cas, hset.certificates⟩

theorem Covered.tryRenew_ne_ok (h : Covered st) {row : Certificate} {ca : CA} {d : Draw}
    (hca : ca ∈ st.cas) : Routes.tryRenew st row ca d ≠ .ok st' := by
  intro hok
  obtain ⟨_, key, _, _, _, hkey, _⟩ := Routes.tryRenew_eq_ok hok
  exact h.privateKey_ne_ok hca hkey

end Commits

def FreeCa (st : Store) (refid : String) : Prop :=
  (st.cas.first fun c => c.refid = refid) = none

def FreeCertificate (st : Store) (refid : String) : Prop :=
  (st.certificates.first fun c => c.refid = refid) = none

/-- No object of a bundle that is not skipped brings a key. -/
structure KeepsOutBundle (st : Store) (b : Bundle) (options : ImportOptions)
    (caRefids certRefids csrRefids : ℕ → String) : Prop where
  cas : options.importCas = true →
    LoopMeets
      (fun (p : SmartImporter.Progress) entry => SmartImporter.matchedKey b entry.1 ≠ none →
        (options.skipDuplicates = true ∧ SmartImporter.duplicateCa p.store entry.1 ≠ none) ∨
          ¬FreeCa p.store entry.2)
      (SmartImporter.importCa b options) { store := st } (SmartImporter.caEntries b caRefids)
  certificates : options.importCerts = true → ∀ st',
    SmartImporter.importCas st b options caRefids = .ok st' →
    LoopMeets
      (fun (s : Store) entry => SmartImporter.matchedKey b entry.1 ≠ none →
        (options.skipDuplicates = true ∧
          (s.certificates.first fun c => c.serialNumber = some entry.1.serialNumber) ≠ none) ∨
          ¬FreeCertificate s entry.2)
      (SmartImporter.importCertificate b options) st'
      (SmartImporter.certificateEntries b certRefids)
  csrs : options.importCsrs = true → ∀ entry ∈ SmartImporter.withRefids b.csrs csrRefids,
    SmartImporter.matchedCsrKey b entry.1 = none

section Imports

variable {st : Store}

theorem Covered.importAnswer (h : Covered st) {invalid : String}
    {result : Except PyError (Response × Store)}
    (hok : ∀ answer, result = .ok answer → Covered answer.2) :
    Covered (Routes.importAnswer st invalid result).2 := by
  unfold Routes.importAnswer
  split
  next answer => exact hok answer rfl
  next => exact h
  next => exact h

theorem Covered.importBundleCa {b : Bundle} {options : ImportOptions}
    {p p' : SmartImporter.Progress} {entry : ParsedObject CertPem × String} (h : Covered p.store)
    (hkeeps : SmartImporter.matchedKey b entry.1 ≠ none →
      (options.skipDuplicates = true ∧ SmartImporter.duplicateCa p.store entry.1 ≠ none) ∨
        ¬FreeCa p.store entry.2)
    (hok : SmartImporter.importCa b options p entry = .ok p') : Covered p'.store := by
  obtain ⟨o, refid⟩ := entry
  unfold SmartImporter.importCa at hok
  dsimp only at hok
  split at hok
  next existing _ =>
    cases hok
    exact h
  next hnone =>
    simp only [bind_eq_ok, pure_eq_ok] at hok
    obtain ⟨store, hadd, rfl⟩ := hok
    have hkey : SmartImporter.matchedKey b o = none := by
      by_contra hsome
      rcases hkeeps hsome with ⟨hskip, hduplicate⟩ | hfree
      · obtain ⟨existing, hexisting⟩ := Option.ne_none_iff_exists'.mp hduplicate
        simp [hexisting, hskip] at hnone
      · exact hfree (Store.addCa_eq_ok hadd).1
    refine h.addCa (fun e he => ?_) hadd
    simp [SmartImporter.caRow, newCa, hkey] at he

theorem Covered.importBundleCertificate {b : Bundle} {options : ImportOptions} {st' : Store}
    {entry : ParsedObject CertPem × String} (h : Covered st)
    (hkeeps : SmartImporter.matchedKey b entry.1 ≠ none →
      (options.skipDuplicates = true ∧
        (st.certificates.first fun c => c.serialNumber = some entry.1.serialNumber) ≠ none) ∨
        ¬FreeCertificate st entry.2)
    (hok : SmartImporter.importCertificate b options st entry = .ok st') : Covered st' := by
  obtain ⟨o, refid⟩ := entry
  unfold SmartImporter.importCertificate at hok
  dsimp only at hok hkeeps
  split_ifs at hok with hskipped
  · cases hok
    exact h
  · have hkey : SmartImporter.matchedKey b o = none := by
      by_contra hsome
      rcases hkeeps hsome with ⟨hskip, hduplicate⟩ | hfree
      · exact hskipped (by simp [hskip, Option.isSome_iff_ne_none, hduplicate])
      · exact hfree (CertificateService.addCertificate_eq_ok.mp hok).1
    refine h.addCertificate (fun e he => ?_) hok
    simp [SmartImporter.certificateRow, hkey] at he

theorem Covered.restoredKey_sealed (h : Covered st) {key : Option KeyPem} {e : Encoded KeyPem}
    (he : e ∈ BackupService.restoredKey st key) : e.isSealed = true := by
  obtain ⟨k, _, rfl⟩ := Option.map_eq_some_iff.mp he
  exact h.sealed_encrypt k

theorem Covered.restoreCa (h : Covered st) {entry : BackupService.CaEntry} {st' : Store}
    (hok : BackupService.restoreCa st entry = .ok st') : Covered st' := by
  simp only [BackupService.restoreCa, bind_eq_ok] at hok
  obtain ⟨refid, _, key, _, descr, _, pem, _, hok⟩ := hok
  split at hok
  next row _ =>
    cases hok
    exact h.setCa fun c _ e he => h.restoredKey_sealed he
  next => exact h.addCa (fun e he => h.restoredKey_sealed he) hok

theorem Covered.restoreCertificate (h : Covered st) {entry : BackupService.CertificateEntry}
    {st' : Store} (hok : BackupService.restoreCertificate st entry = .ok st') : Covered st' := by
  simp only [BackupService.restoreCertificate, bind_eq_ok] at hok
  obtain ⟨refid, _, key, _, descr, _, hok⟩ := hok
  split at hok
  next row _ =>
    cases hok
    exact h.setCertificate fun c _ e he => h.restoredKey_sealed he
  next => exact h.addCertificate (fun e he => h.restoredKey_sealed he) hok

theorem Covered.execute (h : Covered st) {b : Bundle} {options : ImportOptions}
    {caRefids certRefids csrRefids : ℕ → String} {st' : Store}
    (hkeeps : KeepsOutBundle st b options caRefids certRefids csrRefids)
    (hok : SmartImporter.execute st b options caRefids certRefids csrRefids = .ok st') :
    Covered st' := by
  simp only [SmartImporter.execute, bind_eq_ok] at hok
  obtain ⟨st₁, hcas, st₂, hcertificates, hcsrs⟩ := hok
  have h₁ : Covered st₁ := by
    unfold SmartImporter.importCas at hcas
    split_ifs at hcas with hasked
    · obtain ⟨p, hp, rfl⟩ := map_eq_ok.mp hcas
      exact (hkeeps.cas hasked).invariant (I := fun p => Covered p.store)
        (fun _ _ _ hp hc hstep => hp.importBundleCa hc hstep) h hp
    · exact Except.ok.inj hcas ▸ h
  have h₂ : Covered st₂ := by
    unfold SmartImporter.importCertificates at hcertificates
    split_ifs at hcertificates with hasked
    · exact (hkeeps.certificates hasked st₁ hcas).invariant
        (fun _ _ _ hs hc hstep => hs.importBundleCertificate hc hstep) h₁ hcertificates
    · exact Except.ok.inj hcertificates ▸ h₁
  unfold SmartImporter.importCsrs at hcsrs
  split_ifs at hcsrs with hasked
  · refine (loopMeets_of_forall (fun entry hentry _ => hkeeps.csrs hasked entry hentry)
      st₂).invariant (C := fun _ entry => SmartImporter.matchedCsrKey b entry.1 = none)
      (fun s entry s' hs hkey hadd => ?_) h₂ hcsrs
    refine hs.addCertificate (fun e he => ?_) hadd
    simp [SmartImporter.csrRow, hkey] at he
  · exact Except.ok.inj hcsrs ▸ h₂

theorem Covered.restoreCertificates (h : Covered st) {cas : List BackupService.CaEntry}
    {certificates : List BackupService.CertificateEntry} {st' : Store}
    (hok : BackupService.restoreCertificates st cas certificates = .ok st') : Covered st' := by
  simp only [BackupService.restoreCertificates, bind_eq_ok] at hok
  obtain ⟨st₁, hcas, hcertificates⟩ := hok
  have h₁ : Covered st₁ := foldlM_invariant (fun _ _ _ hs hstep => hs.restoreCa hstep) h hcas
  exact foldlM_invariant (fun _ _ _ hs hstep => hs.restoreCertificate hstep) h₁ hcertificates

end Imports

inductive Event
  | createCa (r : CAService.CreateRequest) (d : Draw)
  | importCa (descr : String) (pem : CertPem) (key : Option KeyPem) (username refid : String)
  | uploadCa (u : Upload) (refid : String)
  | store (op : Op)
  | uploadCertificate (u : Upload) (refid : String)
  | smartImport (b : Bundle) (options : ImportOptions) (caRefids certRefids csrRefids : ℕ → String)
  | restore (cas : List BackupService.CaEntry) (certificates : List BackupService.CertificateEntry)

section Runs

variable [X509Library] [KeyIdLibrary]

def serve (st : Store) : Event → Store
  | .createCa r d => committed st (CAService.createInternalCa st r d)
  | .importCa descr pem key username refid =>
    committed st (CAService.importCa st descr pem key username refid)
  | .uploadCa u refid => (Routes.importCa st u refid).2
  | .store op => st.apply op
  | .uploadCertificate u refid => (Routes.importCertificate st u refid).2
  | .smartImport b options caRefids certRefids csrRefids =>
    committed st (SmartImporter.execute st b options caRefids certRefids csrRefids)
  | .restore cas certificates =>
    committed st (BackupService.restoreCertificates st cas certificates)

def KeepsOutCa (st : Store) (u : Upload) (parsed : ParsedFile) (refid : String) : Prop :=
  u.key parsed ≠ none →
    match Routes.findExistingCa st parsed.x509 with
    | some _ => u.updateExisting = false
    | none => ¬FreeCa st refid

def KeepsOutCertificate (st : Store) (u : Upload) (parsed : ParsedFile) (refid : String) : Prop :=
  u.key parsed ≠ none →
    match Routes.findExistingCertificate st parsed.x509 with
    | some _ => u.updateExisting = false
    | none => ¬FreeCertificate st refid

/-- The operation stores no key that comes with what it imports, and makes no request with a
new key. -/
def Condition (st : Store) : Event → Prop
  | .importCa _ pem key _ refid =>
    key ≠ none → isCaCertificate pem.leaf = .ok true → ¬FreeCa st refid
  | .uploadCa u refid => ∀ parsed, u.parsed = .ok parsed → KeepsOutCa st u parsed refid
  | .store (.generateCsr _ _ keyType _ _ _ d) =>
    TrustStoreService.keyTypes.lookup keyType ≠ none → ¬FreeCertificate st d.refid
  | .store (.importCertificate _ x keyPem _ _ _ refid) =>
    keyPem ≠ none → readExtensions x.extensions = .ok x.extensions → ¬FreeCertificate st refid
  | .uploadCertificate u refid => ∀ parsed, u.parsed = .ok parsed →
    (isCaCertificate parsed.x509 = .ok true → KeepsOutCa st u parsed refid) ∧
      (isCaCertificate parsed.x509 = .ok false → KeepsOutCertificate st u parsed refid)
  | .smartImport b options caRefids certRefids csrRefids =>
    KeepsOutBundle st b options caRefids certRefids csrRefids
  | _ => True

variable {st : Store}

theorem Covered.createInternalCa (h : Covered st) {r : CAService.CreateRequest} {d : Draw}
    {st' : Store} (hok : CAService.createInternalCa st r d = .ok st') : Covered st' := by
  simp only [CAService.createInternalCa, bind_eq_ok] at hok
  obtain ⟨privateKey, _, hok⟩ := hok
  have hrow : ∀ x, ∀ e ∈ (CAService.createdCa st r x privateKey d).prv, e.isSealed = true := by
    intro x e he
    cases he
    exact h.sealed_encrypt _
  split at hok
  next =>
    simp only [bind_eq_ok] at hok
    obtain ⟨x, _, hadd⟩ := hok
    exact h.addCa (hrow x) hadd
  next =>
    simp only [bind_eq_ok] at hok
    obtain ⟨parent, _, _, _, x, _, hadd⟩ := hok
    exact (h.countSerial parent).addCa (hrow x) hadd

omit [KeyIdLibrary] in
theorem Covered.importCa (h : Covered st) {descr username refid : String} {pem : CertPem}
    {key : Option KeyPem} {st' : Store}
    (hcond : Condition st (.importCa descr pem key username refid))
    (hok : CAService.importCa st descr pem key username refid = .ok st') : Covered st' := by
  simp only [CAService.importCa, bind_eq_ok] at hok
  obtain ⟨extensions, hextensions, hok⟩ := hok
  split at hok
  next => cases hok
  next e he =>
    simp only [bind_eq_ok, ensure_eq_ok, exists_const] at hok
    obtain ⟨hca, hadd⟩ := hok
    have his : isCaCertificate pem.leaf = .ok true := by
      simp [isCaCertificate, hextensions, he, hca, pure_eq_ok]
    have hkey : key = none := by
      by_contra hsome
      exact hcond hsome his (Store.addCa_eq_ok hadd).1
    refine h.addCa (fun e he => ?_) hadd
    simp [CAService.importedCa, newCa, hkey] at he

omit [KeyIdLibrary] in
theorem Covered.createCertificate (h : Covered st) {r : CertificateService.CreateRequest}
    {d : Draw} {st' : Store} (hok : CertificateService.createCertificate st r d = .ok st') :
    Covered st' := by
  obtain ⟨ca, _, _, x, key, _, _, _, _, hadd⟩ := CertificateService.createCertificate_eq_ok hok
  refine (h.countSerial ca).addCertificate (fun e he => ?_) hadd
  unfold CertificateService.createdRow at he
  dsimp only at he
  split_ifs at he with hstored
  · cases he
    exact h.sealed_encrypt key
  · cases he

omit [KeyIdLibrary] in
theorem not_generateCsr {descr keyType username : String} {subject : Name}
    {sanDns sanIp : List String} {d : Draw} {st' : Store}
    (hcond : Condition st (.store (.generateCsr descr subject keyType sanDns sanIp username d))) :
    CertificateService.generateCsr st descr subject keyType sanDns sanIp username d ≠ .ok st' := by
  intro hok
  simp only [CertificateService.generateCsr, TrustStoreService.generateCsr,
    TrustStoreService.generatePrivateKey, bind_eq_ok] at hok
  obtain ⟨_, ⟨key, hkey, _⟩, hadd⟩ := hok
  have hknown : TrustStoreService.keyTypes.lookup keyType ≠ none := by
    intro hnone
    rw [hnone] at hkey
    cases hkey
  exact hcond hknown (CertificateService.addCertificate_eq_ok.mp hadd).1

omit [KeyIdLibrary] in
theorem Covered.importCertificate (h : Covered st) {descr username refid : String} {x : X509}
    {keyPem : Option KeyPem} {chain : List X509} {source : Option String} {st' : Store}
    (hcond : Condition st (.store
      (.importCertificate descr x keyPem chain username source refid)))
    (hok : CertificateService.importCertificate st descr x keyPem chain username source refid =
      .ok st') : Covered st' := by
  simp only [CertificateService.importCertificate, bind_eq_ok] at hok
  obtain ⟨extensions, hextensions, hadd⟩ := hok
  have hkey : keyPem = none := by
    by_contra hsome
    refine hcond hsome ?_ (CertificateService.addCertificate_eq_ok.mp hadd).1
    exact hextensions.trans (congrArg Except.ok (readExtensions_eq_ok hextensions))
  refine h.addCertificate (fun e he => ?_) hadd
  simp [CertificateService.importedRow, hkey] at he

omit [KeyIdLibrary] in
/-- The operations on certificates keep a store covered, unless they store a request, or an
imported certificate, with its key. -/
theorem Covered.apply (h : Covered st) {op : Op} (hcond : Condition st (.store op)) :
    Covered (st.apply op) := by
  cases op with
  | create r d => exact holds_of_committed h fun st' hok => h.createCertificate hok
  | generateCsr descr subject keyType sanDns sanIp username d =>
    exact holds_of_committed h fun st' hok => absurd hok (not_generateCsr hcond)
  | signCsr certId caref certType validityDays serial now =>
    refine holds_of_committed h fun st' hok => ?_
    obtain ⟨⟨x, st''⟩, hsign, rfl⟩ := map_eq_ok.mp hok
    obtain ⟨_, ca, _, _, _, _, hca, _, hkey, _⟩ := CertificateService.signCsr_eq_ok hsign
    exact absurd hkey (h.privateKey_ne_ok (Table.mem_of_first hca))
  | importCertificate descr x keyPem chain username source refid =>
    exact holds_of_committed h fun st' hok => h.importCertificate hcond hok
  | apiCreate body d =>
    refine holds_of_eq_or h (Routes.createCertificate_cases st body d) ?_
    rintro ⟨ca, _, _, _, _, hca, _, hkey, _⟩
    exact absurd hkey (h.privateKey_ne_ok (Table.mem_of_get? hca))
  | revoke certId reason username now =>
    exact holds_of_committed h fun st' hok => h.revokeCertificate hok
  | apiRevoke certId reason username now =>
    exact holds_of_eq_or h (Routes.revokeCertificate_cases st certId reason username now)
      fun hok => h.revokeCertificate hok
  | bulkRevoke ids reason username now =>
    refine run_invariant (C := fun _ _ => True) (fun s certId hs _ => ?_) h
      (meets_of_forall _ (fun _ _ => trivial) _ _)
    exact holds_of_eq_or hs (Routes.bulkRevokeOne_cases reason username now s certId)
      fun hok => hs.revokeCertificate hok
  | unhold certId =>
    refine holds_of_eq_or h (Routes.unholdCertificate_cases st certId) ?_
    rintro ⟨row, _, _, _, heq⟩
    simp only [Store.apply, heq]
    exact h.setCertificate fun c hc => h.certificates c hc
  | renew certId d =>
    refine holds_of_eq_or h (Routes.renewCertificate_cases st certId d) ?_
    rintro ⟨row, ca, _, hca, hok⟩
    exact absurd hok (h.tryRenew_ne_ok hca)
  | bulkRenew requests =>
    refine run_invariant (C := fun _ _ => True) (fun s request hs _ => ?_) h
      (meets_of_forall _ (fun _ _ => trivial) _ _)
    refine holds_of_eq_or hs (Routes.bulkRenewOne_cases s request) ?_
    rintro ⟨row, ca, _, hca, hok⟩
    exact absurd hok (hs.tryRenew_ne_ok hca)
  | delete certId =>
    simp only [Store.apply, CertificateService.deleteCertificate]
    split
    next => exact h.delete certId
    next => exact h
  | apiDelete certId =>
    refine holds_of_eq_or h (Routes.deleteCertificate_cases st certId) fun heq => ?_
    simp only [Store.apply, heq]
    exact h.delete certId
  | bulkDelete ids =>
    refine run_invariant (C := fun _ _ => True) (fun s certId hs _ => ?_) h
      (meets_of_forall _ (fun _ _ => trivial) _ _)
    refine holds_of_eq_or hs (Routes.bulkDeleteOne_cases s certId) fun heq => ?_
    rw [heq]
    exact hs.delete certId
  | generateCrl caId validityDays username now =>
    refine holds_of_committed h fun st' hok => ?_
    obtain ⟨⟨m, st''⟩, hcrl, rfl⟩ := map_eq_ok.mp hok
    obtain ⟨_, _, _, _, _, _, rfl⟩ := CRLService.generateCrl_eq_ok hcrl
    exact ⟨h.enabled, h.cas, h.certificates⟩

theorem Covered.storeCa (h : Covered st) {u : Upload} {parsed : ParsedFile}
    {fallback : Except PyError String} {update : CA → CA} {what imported refid : String}
    {answer : Response × Store} (hkeeps : KeepsOutCa st u parsed refid)
    (hupdate : ∀ row, (update row).prv = ((u.key parsed).map Encoded.base64).or row.prv)
    (hok : Routes.storeCa st u parsed fallback update what imported refid = .ok answer) :
    Covered answer.2 := by
  unfold KeepsOutCa at hkeeps
  unfold Routes.storeCa at hok
  cases hfound : Routes.findExistingCa st parsed.x509 with
  | some row =>
    simp only [hfound] at hkeeps hok
    split_ifs at hok with hkept
    · cases hok
      exact h
    · cases hok
      have hkey : u.key parsed = none := by
        by_contra hsome
        exact hkept (hkeeps hsome)
      refine h.setCa fun c hc e he => h.cas c hc e ?_
      rw [hupdate, hkey] at he
      simpa using he
  | none =>
    simp only [hfound, bind_eq_ok, pure_eq_ok] at hkeeps hok
    obtain ⟨descr, _, st', hadd, rfl⟩ := hok
    have hkey : u.key parsed = none := by
      by_contra hsome
      exact hkeeps hsome (Store.addCa_eq_ok hadd).1
    refine h.addCa (fun e he => ?_) hadd
    simp [Routes.uploadedCa, newCa, hkey] at he

theorem Covered.storeCertificate (h : Covered st) {u : Upload} {parsed : ParsedFile}
    {refid : String} {answer : Response × Store} (hkeeps : KeepsOutCertificate st u parsed refid)
    (hok : Routes.storeCertificate st u parsed refid = .ok answer) : Covered answer.2 := by
  unfold KeepsOutCertificate at hkeeps
  unfold Routes.storeCertificate at hok
  cases hfound : Routes.findExistingCertificate st parsed.x509 with
  | some row =>
    simp only [hfound] at hkeeps hok
    split_ifs at hok with hkept
    · cases hok
      exact h
    · cases hok
      have hkey : u.key parsed = none := by
        by_contra hsome
        exact hkept (hkeeps hsome)
      refine h.setCertificate fun c hc e he => h.certificates c hc e ?_
      simpa [Routes.updatedCertificate, hkey] using he
  | none =>
    simp only [hfound, bind_eq_ok, pure_eq_ok] at hkeeps hok
    obtain ⟨descr, _, st', hadd, rfl⟩ := hok
    have hkey : u.key parsed = none := by
      by_contra hsome
      exact hkeeps hsome (CertificateService.addCertificate_eq_ok.mp hadd).1
    refine h.addCertificate (fun e he => ?_) hadd
    simp [Routes.uploadedCertificate, hkey] at he

theorem Covered.uploadCa (h : Covered st) {u : Upload} {refid : String}
    (hcond : Condition st (.uploadCa u refid)) : Covered (Routes.importCa st u refid).2 := by
  refine h.importAnswer fun answer hok => ?_
  rw [bind_eq_ok] at hok
  obtain ⟨parsed, hparsed, hok⟩ := hok
  exact h.storeCa (hcond parsed hparsed) (fun _ => rfl) hok

theorem Covered.uploadCertificate (h : Covered st) {u : Upload} {refid : String}
    (hcond : Condition st (.uploadCertificate u refid)) :
    Covered (Routes.importCertificate st u refid).2 := by
  refine h.importAnswer fun answer hok => ?_
  simp only [bind_eq_ok] at hok
  obtain ⟨parsed, hparsed, isCa, hisCa, hok⟩ := hok
  obtain ⟨hca, hcertificate⟩ := hcond parsed hparsed
  split_ifs at hok with his
  · rw [his] at hisCa
    exact h.storeCa (hca hisCa) (fun _ => rfl) hok
  · rw [Bool.eq_false_of_not_eq_true his] at hisCa
    exact h.storeCertificate (hcertificate hisCa) hok

theorem Covered.serve (h : Covered st) {e : Event} (hcond : Condition st e) :
    Covered (serve st e) := by
  cases e with
  | createCa r d => exact holds_of_committed h fun st' hok => h.createInternalCa hok
  | importCa descr pem key username refid =>
    exact holds_of_committed h fun st' hok => h.importCa hcond hok
  | uploadCa u refid => exact h.uploadCa hcond
  | store op => exact h.apply hcond
  | uploadCertificate u refid => exact h.uploadCertificate hcond
  | smartImport b options caRefids certRefids csrRefids =>
    exact holds_of_committed h fun st' hok => h.execute hcond hok
  | restore cas certificates =>
    exact holds_of_committed h fun st' hok => h.restoreCertificates hok

end Runs

end KeyCoverage

/-- From a covered store, every run that stores no key that comes with an import, and makes no
request with a new key, ends in a covered store. -/
theorem KeyCoverage.keys_covered [X509Library] [KeyIdLibrary] {st : Store}
    {events : List KeyCoverage.Event} (h : KeyCoverage.Covered st)
    (hevents : Meets KeyCoverage.serve KeyCoverage.Condition st events) :
    KeyCoverage.Covered (run KeyCoverage.serve st events) :=
  run_invariant (fun _ _ hs hcond => hs.serve hcond) h hevents

namespace KeyCoverage

section Samples

@[reducible] def sampleKeyIds : KeyIdLibrary where
  keyIdText key := hexText key.id

def sealedStore : Store :=
  { sampleStore with
    cas := (∅ : Table CA).insert
      { sampleCa with prv := some ((Encoded.base64 ⟨sampleKey⟩).encrypt (some 7)) }
    keyEncryptionKey := some 7 }

theorem covered_sealedStore : Covered sealedStore where
  enabled := ⟨7, rfl⟩
  cas := by decide
  certificates := by decide

/-- An authority under the sample authority, a certificate from it, and an import without a
key. -/
def keylessImports : List Event :=
  [.createCa { descr := "Sub", subject := sampleName "Sub", caref := some "root" }
      (sampleDraw 17 "sub" 100),
    .store (.create { descr := "www", caref := "sub", subject := sampleName "www" }
      (sampleDraw 18 "www" 200)),
    .importCa "Root again" ⟨sampleCaCert, []⟩ none "admin" "again"]

theorem keys_covered_keylessImports :
    let _ := sampleLibrary
    let _ := sampleKeyIds
    Covered (run serve sealedStore keylessImports) := by
  intro _ _
  refine keys_covered covered_sealedStore ⟨trivial, trivial, fun h => ?_, trivial⟩
  exact absurd rfl h

def requestMade : List Event :=
  [.store (.generateCsr "www" (sampleName "www") "2048" [] [] "admin"
    (sampleDraw 18 "www" 200))]

/-- The key of the request is stored as it is. -/
theorem request_key_not_sealed :
    let _ := sampleLibrary
    let _ := sampleKeyIds
    Covered sealedStore ∧
      ∃ c ∈ (run serve sealedStore requestMade).certificates, ∃ e ∈ c.prv, e.isSealed = false := by
  intro _ _
  exact ⟨covered_sealedStore, by decide +kernel⟩

end Samples

end KeyCoverage

end CaManager
