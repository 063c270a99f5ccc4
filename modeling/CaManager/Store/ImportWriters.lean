import CaManager.Store.Imports
import CaManager.Store.RowWriters

/-!
# Importing rows

New authorities, and what is imported: through the services, from a file over an existing row or
as a new one, and from a bundle. For each of these it is settled when it leaves every row about the
certificate that it holds.
-/

namespace CaManager

open Library

namespace RowConsistency

section Authorities

variable {unset : Prop} {h : History} {st' : Store} {cas : Table CA}

theorem describesSerial_none {serial : ℤ} : DescribesSerial unset none serial ↔ unset := by
  simp [DescribesSerial]

theorem fits_iff {key : Option KeyPem} {x : X509} :
    Fits key x ↔ ∀ e ∈ key.map Encoded.base64, e.content.publicKey = x.publicKey := by
  constructor
  · intro hfits e he
    obtain ⟨k, hk, rfl⟩ := Option.map_eq_some_iff.mp he
    exact hfits k hk
  · intro hall k hk
    exact hall (.base64 k) (Option.map_eq_some_iff.mpr ⟨k, hk, rfl⟩)

theorem importAnswer_error (st : Store) (invalid : String) (e : PyError) :
    (Routes.importAnswer st invalid (.error e)).2 = st := by
  cases e <;> rfl

/-- The certificate that replaces an authority's agrees with the columns that stay: the serial
number, the link, and the key if none came along. What was linked to the authority was signed with
the new certificate's key. -/
structure ReplacesCa (unset : Prop) (st : Store) (row : CA) (key : Option KeyPem) (x : X509) :
    Prop where
  serialNumber : DescribesSerial unset row.serialNumber x.serial
  caref : ∀ r ∈ linked row.caref,
    r = row.refid ∧ x.signedBy = x.publicKey ∨ r ≠ row.refid ∧ SignedBy st.cas r x
  prv : ∀ e ∈ (key.map Encoded.base64).or row.prv, e.content.publicKey = x.publicKey
  cas : ∀ c ∈ st.cas, c.id ≠ row.id → ∀ r ∈ linked c.caref, r = row.refid →
    c.held.signedBy = x.publicKey
  certificates : ∀ c ∈ st.certificates, ∀ y ∈ c.held, ∀ r ∈ linked c.caref, r = row.refid →
    y.signedBy = x.publicKey

variable [X509Library]

def unnumbered (caref : Option String) (prv : Option (Encoded KeyPem)) (x : X509) : Columns where
  subject := some (X509Library.rfc4514String x.subject)
  issuer := some (X509Library.rfc4514String x.issuer)
  serialNumber := none
  validFrom := some x.notBefore
  validTo := some x.notAfter
  caref := caref
  prv := prv

theorem describe_unnumbered {caref : Option String} {prv : Option (Encoded KeyPem)} {x : X509} :
    (unnumbered caref prv x).Describe unset cas x ↔
      unset ∧ (∀ r ∈ linked caref, SignedBy cas r x) ∧
        ∀ e ∈ prv, e.content.publicKey = x.publicKey := by
  constructor
  · intro hdescribed
    exact ⟨describesSerial_none.mp hdescribed.serialNumber, hdescribed.caref, hdescribed.prv⟩
  · rintro ⟨hunset, hcaref, hprv⟩
    exact ⟨describesName_text _, describesName_text _, describesSerial_none.mpr hunset, rfl, rfl,
      hcaref, hprv⟩

theorem describe_imported (caref : Option String) (key : Option KeyPem) {x : X509} :
    (unnumbered caref (key.map Encoded.base64) x).Describe unset cas x ↔
      unset ∧ (∀ r ∈ linked caref, SignedBy cas r x) ∧ Fits key x := by
  rw [describe_unnumbered, fits_iff]

theorem writes_replaceCa {row : CA} {u : Upload} {parsed : ParsedFile} {update : CA → CA}
    (hold : Consistent unset h.store h.revokedFor) (hdistinct : h.store.DistinctRefids)
    (hrow : Routes.findExistingCa h.store parsed.x509 = some row)
    (hupdate : ofCa (update row) = ofCa (Routes.updatedCa u parsed row) ∧
      (update row).refid = row.refid ∧ (update row).held = parsed.x509) :
    Writes unset h (h.store.setCa row.id update)
      (ReplacesCa unset h.store row (u.key parsed) parsed.x509) := by
  have hmem := Table.mem_of_first hrow
  have hget : h.store.cas.get? row.id = some row := Table.get?_eq_some_iff.mpr ⟨hmem, rfl⟩
  have hsubject : row.subject = some (X509Library.rfc4514String parsed.x509.subject) := by
    simpa using Table.holds_of_first hrow
  obtain ⟨hcolumns, hrefid, hheld⟩ := hupdate
  refine ⟨keepsFlags_of_eq rfl, (consistent_setCa hold hdistinct hget hrefid).trans ?_⟩
  have hlink : ∀ r, SignedBy (h.store.cas.update row.id update) r parsed.x509 ↔
      r = row.refid ∧ parsed.x509.signedBy = parsed.x509.publicKey ∨
        r ≠ row.refid ∧ SignedBy h.store.cas r parsed.x509 := by
    intro r
    rw [signedBy_replace hdistinct hget hrefid, hheld]
  rw [hcolumns, hheld]
  constructor
  · rintro ⟨hdescribed, hcas, hcertificates⟩
    exact ⟨hdescribed.serialNumber, fun r hr => (hlink r).mp (hdescribed.caref r hr),
      hdescribed.prv, hcas, hcertificates⟩
  · rintro ⟨hserial, hcaref, hprv, hcas, hcertificates⟩
    exact ⟨⟨.inl hsubject, describesName_text _, hserial, rfl, rfl,
      fun r hr => (hlink r).mpr (hcaref r hr), hprv⟩, hcas, hcertificates⟩

theorem writes_importCa {descr username refid : String} {pem : CertPem} {key : Option KeyPem}
    (hold : Consistent unset h.store h.revokedFor)
    (hok : CAService.importCa h.store descr pem key username refid = .ok st') :
    Writes unset h st' (unset ∧ Fits key pem.leaf) := by
  simp only [CAService.importCa, bind_eq_ok] at hok
  obtain ⟨extensions, _, hok⟩ := hok
  split at hok
  next => cases hok
  next e he =>
    simp only [bind_eq_ok, ensure_eq_ok, exists_const] at hok
    refine writes_addCa hold hok.2 ((describe_imported none key).trans
      (and_congr_right fun _ => ?_))
    exact and_iff_right fun r hr => by cases hr

variable [KeyIdLibrary]

theorem writes_createCa {r : CAService.CreateRequest} {d : Draw}
    (hold : Consistent unset h.store h.revokedFor)
    (hok : CAService.createInternalCa h.store r d = .ok st') : Writes unset h st' unset := by
  simp only [CAService.createInternalCa, bind_eq_ok] at hok
  obtain ⟨privateKey, _, hok⟩ := hok
  have hprv : ∀ x : X509, x.publicKey = privateKey →
      ∀ e ∈ (some ((Encoded.base64 (⟨privateKey⟩ : KeyPem)).encrypt h.store.keyEncryptionKey)),
        e.content.publicKey = x.publicKey := by
    intro x hx e he
    cases he
    rw [Encoded.content_encrypt, hx]
    rfl
  split at hok
  next hnone =>
    simp only [bind_eq_ok] at hok
    obtain ⟨x, hx, hadd⟩ := hok
    obtain ⟨hkey, _⟩ := TrustStoreService.createCaCertificate_spec hx
    refine writes_addCa hold hadd (describe_unnumbered (x := x).trans ?_)
    refine ⟨And.left, fun hunset => ⟨hunset, fun r' hr' => ?_, hprv x hkey⟩⟩
    cases hnone.symm.trans hr'
  next caref hsome =>
    simp only [bind_eq_ok, CAService.parentSigner] at hok
    obtain ⟨parent, hparent, ⟨name, key⟩, ⟨cert, _, _, _, key', hkey', hsigner⟩, x, hx, hadd⟩ := hok
    cases hsigner
    have hfound := orThrow_eq_ok.mp hparent
    have hrefid : parent.refid = caref := by simpa using Table.holds_of_first hfound
    obtain ⟨hkey, hsigned⟩ := TrustStoreService.createCaCertificate_spec hx
    have hlink : SignedBy st'.cas caref x := by
      obtain ⟨_, rfl⟩ := Store.addCa_eq_ok hadd
      refine SignedBy.insert ?_ _
      rw [signedBy_countSerial, ← hrefid]
      exact signedBy_of_key hold (Table.mem_of_first hfound) (CA.prv_of_decryptedPrivateKey hkey')
        hsigned
    have hcounted := writes_addCa (h := ⟨h.store.countSerial parent, h.revokedFor⟩)
      ((consistent_countSerial parent).mpr hold) hadd (describe_unnumbered (x := x))
    refine ⟨hcounted.flags, hcounted.consistent.trans ?_⟩
    refine ⟨And.left, fun hunset => ⟨hunset, fun r' hr' => ?_, hprv x hkey⟩⟩
    cases hsome.symm.trans hr'
    exact hlink

/-- What an authority from a file has to meet: over an existing row, or as a new one. -/
def StoresCa (unset : Prop) (st : Store) (u : Upload) (parsed : ParsedFile)
    (fallback : Except PyError String) (refid : String) : Prop :=
  match Routes.findExistingCa st parsed.x509 with
  | some row => u.updateExisting = true → ReplacesCa unset st row (u.key parsed) parsed.x509
  | none =>
    Succeeds (do
      let descr ← Routes.newName u parsed.x509 fallback
      st.addCa (Routes.uploadedCa u parsed descr refid)) →
    unset ∧ Fits (u.key parsed) parsed.x509

theorem writes_storeCa {u : Upload} {parsed : ParsedFile} {fallback : Except PyError String}
    {update : CA → CA} {invalid what imported refid : String}
    (hold : Consistent unset h.store h.revokedFor) (hdistinct : h.store.DistinctRefids)
    (hupdate : ∀ row, ofCa (update row) = ofCa (Routes.updatedCa u parsed row) ∧
      (update row).refid = row.refid ∧ (update row).held = parsed.x509) :
    Writes unset h (Routes.importAnswer h.store invalid
        (Routes.storeCa h.store u parsed fallback update what imported refid)).2
      (StoresCa unset h.store u parsed fallback refid) := by
  unfold Routes.storeCa StoresCa
  cases hrow : Routes.findExistingCa h.store parsed.x509 with
  | some row =>
    simp only
    split_ifs with hkeep
    · exact writes_self hold fun hreplace => absurd (hkeep.symm.trans hreplace) Bool.false_ne_true
    · have hreplaced := writes_replaceCa hold hdistinct hrow (hupdate row)
      refine ⟨hreplaced.flags, hreplaced.consistent.trans ?_⟩
      exact ⟨fun hC _ => hC, fun hC => hC (Bool.eq_true_of_not_eq_false hkeep)⟩
  | none =>
    simp only
    cases Routes.newName u parsed.x509 fallback with
    | error e =>
      rw [error_bind, error_bind, importAnswer_error]
      exact writes_self hold fun hsucceeds => by cases hsucceeds.choose_spec
    | ok descr =>
      rw [ok_bind, ok_bind]
      cases hadd : h.store.addCa (Routes.uploadedCa u parsed descr refid) with
      | error e =>
        rw [error_bind, importAnswer_error]
        exact writes_self hold fun hsucceeds => by cases hsucceeds.choose_spec
      | ok st' =>
        change Writes unset h st' _
        refine writes_addCa hold hadd
          ((describe_imported none (u.key parsed)).trans ?_)
        constructor
        · exact fun ⟨hunset, _, hfits⟩ _ => ⟨hunset, hfits⟩
        · intro hC
          obtain ⟨hunset, hfits⟩ := hC ⟨st', rfl⟩
          exact ⟨hunset, (fun r hr => by cases hr), hfits⟩

theorem writes_uploadCa (u : Upload) (refid : String)
    (hold : Consistent unset h.store h.revokedFor) (hdistinct : h.store.DistinctRefids) :
    Writes unset h (Routes.importCa h.store u refid).2
      (∀ parsed, u.parsed = .ok parsed →
        StoresCa unset h.store u parsed (.ok (u.filename.getD "pasted.pem")) refid) := by
  unfold Routes.importCa
  cases hparsed : u.parsed with
  | error e =>
    rw [error_bind, importAnswer_error]
    exact writes_self hold fun _ hnone => by cases hnone
  | ok parsed =>
    rw [ok_bind]
    have hstored : Writes unset h (Routes.importAnswer h.store "Invalid CA data"
        (Routes.storeCa h.store u parsed (.ok (u.filename.getD "pasted.pem"))
          (Routes.updatedCa u parsed) "CA" "imported successfully" refid)).2
        (StoresCa unset h.store u parsed (.ok (u.filename.getD "pasted.pem")) refid) :=
      writes_storeCa hold hdistinct fun _ => ⟨rfl, rfl, rfl⟩
    refine ⟨hstored.flags, hstored.consistent.trans ?_⟩
    exact ⟨fun hC parsed' hparsed' => by cases hparsed'; exact hC, fun hC => hC parsed rfl⟩

end Authorities

section Certificates

variable [X509Library] {unset : Prop} {h : History}

theorem writes_importCertificate {descr username refid : String} {x : X509} {keyPem : Option KeyPem}
    {chain : List X509} {source : Option String} {st' : Store}
    (hold : Consistent unset h.store h.revokedFor)
    (hok : CertificateService.importCertificate h.store descr x keyPem chain username source refid =
      .ok st') : Writes unset h st' (Fits keyPem x) := by
  refine writes_addCertificate hold rfl ?_ (CertificateService.importCertificate_eq_ok hok)
  rw [rowConsistent_iff_describe (x := x) rfl (fun hr => absurd hr Bool.false_ne_true), fits_iff]
  constructor
  · intro hdescribed
    exact hdescribed.prv
  · intro hprv
    exact ⟨describesName_text _, describesName_text _, .inl rfl, rfl, rfl,
      (fun r hr => by cases hr), hprv⟩

/-- The certificate that replaces a row's agrees with the columns that stay: the serial number, the
link if no authority was asked for, the key if none came along, and the revoked flag. -/
structure ReplacesCertificate (unset : Prop) (h : History) (row : Certificate)
    (asked : Option CA) (key : Option KeyPem) (x : X509) : Prop where
  serialNumber : DescribesSerial unset row.serialNumber x.serial
  caref : ∀ r ∈ linked ((asked.map CA.refid).or row.caref), SignedBy h.store.cas r x
  prv : ∀ e ∈ (key.map Encoded.base64).or row.prv, e.content.publicKey = x.publicKey
  revoked : row.revoked = true → h.revokedFor row.id = some x

def askedCa (st : Store) (u : Upload) : Option CA := (u.caId.filter (· ≠ 0)).bind st.cas.get?

variable [KeyIdLibrary]

/-- What a certificate from a file has to meet: over an existing row, or as a new one. -/
def StoresCertificate (unset : Prop) (h : History) (u : Upload) (parsed : ParsedFile)
    (refid : String) : Prop :=
  match Routes.findExistingCertificate h.store parsed.x509 with
  | some row =>
    u.updateExisting = true →
      ReplacesCertificate unset h row (askedCa h.store u) (u.key parsed) parsed.x509
  | none =>
    Succeeds (do
      let descr ← Routes.newName u parsed.x509 (Routes.uploadedFilename u)
      h.store.addCertificate (Routes.uploadedCertificate h.store u parsed descr refid)) →
    unset ∧ (∀ r ∈ linked ((Routes.linkedCa h.store u parsed.x509).map CA.refid),
      SignedBy h.store.cas r parsed.x509) ∧ Fits (u.key parsed) parsed.x509

theorem writes_replaceCertificate {row : Certificate} {u : Upload} {parsed : ParsedFile}
    (hold : Consistent unset h.store h.revokedFor)
    (hrow : Routes.findExistingCertificate h.store parsed.x509 = some row) :
    Writes unset h (h.store.setCertificate row.id (Routes.updatedCertificate h.store u parsed))
      (ReplacesCertificate unset h row (askedCa h.store u) (u.key parsed) parsed.x509) := by
  have hget := get?_id (Table.mem_of_first hrow)
  have hnames : row.subject = some (X509Library.rfc4514String parsed.x509.subject) ∧
      row.issuer = some (X509Library.rfc4514String parsed.x509.issuer) := by
    simpa using Table.holds_of_first hrow
  refine writes_setCertificate hold hget id ?_
  constructor
  · intro hconsistent
    have hdescribed := hconsistent.signed parsed.x509 rfl
    exact ⟨hdescribed.serialNumber, hdescribed.caref, hdescribed.prv, hconsistent.revoked⟩
  · rintro ⟨hserial, hcaref, hprv, hrevoked⟩
    have hdescribed : (ofCertificate (Routes.updatedCertificate h.store u parsed row)).Describe unset
        h.store.cas parsed.x509 :=
      ⟨.inl hnames.1, .inl hnames.2, hserial, rfl, rfl, hcaref, hprv⟩
    exact (rowConsistent_iff_describe (c := Routes.updatedCertificate h.store u parsed row) rfl
      hrevoked).mpr hdescribed

theorem writes_storeCertificate {u : Upload} {parsed : ParsedFile} {invalid refid : String}
    (hold : Consistent unset h.store h.revokedFor) :
    Writes unset h (Routes.importAnswer h.store invalid
        (Routes.storeCertificate h.store u parsed refid)).2
      (StoresCertificate unset h u parsed refid) := by
  unfold Routes.storeCertificate StoresCertificate
  cases hrow : Routes.findExistingCertificate h.store parsed.x509 with
  | some row =>
    simp only
    split_ifs with hkeep
    · exact writes_self hold fun hreplace => absurd (hkeep.symm.trans hreplace) Bool.false_ne_true
    · have hreplaced := writes_replaceCertificate (u := u) hold hrow
      refine ⟨hreplaced.flags, hreplaced.consistent.trans ?_⟩
      exact ⟨fun hC _ => hC, fun hC => hC (Bool.eq_true_of_not_eq_false hkeep)⟩
  | none =>
    simp only
    cases Routes.newName u parsed.x509 (Routes.uploadedFilename u) with
    | error e =>
      rw [error_bind, error_bind, importAnswer_error]
      exact writes_self hold fun hsucceeds => by cases hsucceeds.choose_spec
    | ok descr =>
      rw [ok_bind, ok_bind]
      cases hadd : h.store.addCertificate
          (Routes.uploadedCertificate h.store u parsed descr refid) with
      | error e =>
        rw [error_bind, importAnswer_error]
        exact writes_self hold fun hsucceeds => by cases hsucceeds.choose_spec
      | ok st' =>
        change Writes unset h st' _
        refine writes_addCertificate hold rfl ?_ hadd
        rw [rowConsistent_iff_describe (x := parsed.x509) rfl
          (fun hr => absurd hr Bool.false_ne_true)]
        refine (describe_imported ((Routes.linkedCa h.store u parsed.x509).map CA.refid)
          (u.key parsed)).trans ?_
        exact ⟨fun hC _ => hC, fun hC => hC ⟨st', rfl⟩⟩

/-- What an uploaded certificate has to meet: as an authority if it says that it is one's. -/
def StoresUpload (unset : Prop) (h : History) (u : Upload) (refid : String) : Prop :=
  ∀ parsed, u.parsed = .ok parsed → ∀ isCa, isCaCertificate parsed.x509 = .ok isCa →
    if isCa then StoresCa unset h.store u parsed (Routes.uploadedFilename u) refid
    else StoresCertificate unset h u parsed refid

theorem writes_uploadCertificate (u : Upload) (refid : String)
    (hold : Consistent unset h.store h.revokedFor) (hdistinct : h.store.DistinctRefids) :
    Writes unset h (Routes.importCertificate h.store u refid).2 (StoresUpload unset h u refid) := by
  unfold Routes.importCertificate StoresUpload
  cases hparsed : u.parsed with
  | error e =>
    rw [error_bind, importAnswer_error]
    exact writes_self hold fun _ hnone => by cases hnone
  | ok parsed =>
    rw [ok_bind]
    simp only [Except.ok.injEq, forall_eq']
    cases isCaCertificate parsed.x509 with
    | error e =>
      rw [error_bind, importAnswer_error]
      exact writes_self hold fun _ hnone => by cases hnone
    | ok isCa =>
      rw [ok_bind]
      simp only [Except.ok.injEq, forall_eq']
      cases isCa with
      | true => exact writes_storeCa hold hdistinct fun _ => ⟨rfl, rfl, rfl⟩
      | false => exact writes_storeCertificate hold

end Certificates

section Bundles

variable {st st' : Store}

def Named (st : Store) : Prop :=
  ∀ c ∈ st.certificates, ∀ _x ∈ c.held, ∀ r ∈ linked c.caref, ∃ ca ∈ st.cas, ca.refid = r

theorem signedBy_insert_iff {cas : Table CA} {row : CA} {r : String} {x : X509}
    (hne : row.refid ≠ r) : SignedBy (cas.insert row) r x ↔ SignedBy cas r x := by
  constructor
  · rintro ⟨ca, hca, hrefid, hkey⟩
    rcases Table.mem_insert.mp hca with hca | rfl
    · exact ⟨ca, hca, hrefid, hkey⟩
    · exact absurd hrefid hne
  · exact fun hsigned => hsigned.insert row

theorem refid_ne_of_addCa {row : CA} (hadd : st.addCa row = .ok st') {r : String}
    (hknown : ∃ ca ∈ st.cas, ca.refid = r) : row.refid ≠ r := by
  obtain ⟨hnone, _⟩ := Store.addCa_eq_ok hadd
  obtain ⟨ca, hca, rfl⟩ := hknown
  intro hsame
  exact List.find?_eq_none.mp hnone ca hca (decide_eq_true hsame.symm)

theorem Named.addCa {row : CA} (h : Named st) (hadd : st.addCa row = .ok st') : Named st' := by
  obtain ⟨_, rfl⟩ := Store.addCa_eq_ok hadd
  intro c hc x hx r hr
  obtain ⟨ca, hca, hrefid⟩ := h c hc x hx r hr
  exact ⟨ca, Table.mem_insert.mpr (.inl hca), hrefid⟩

theorem addCa_of_importCa {p p' : SmartImporter.Progress} {b : Bundle} {options : ImportOptions}
    {entry : ParsedObject CertPem × String}
    (hok : SmartImporter.importCa b options p entry = .ok p') :
    p'.store = p.store ∨ ∃ row, p.store.addCa row = .ok p'.store := by
  obtain ⟨o, refid⟩ := entry
  unfold SmartImporter.importCa at hok
  dsimp only at hok
  split at hok
  next =>
    cases hok
    exact .inl rfl
  next =>
    simp only [bind_eq_ok, pure_eq_ok] at hok
    obtain ⟨store, hadd, rfl⟩ := hok
    exact .inr ⟨_, hadd⟩

theorem mem_of_mem_withRefids {α : Type} {objects : List α} {refids : ℕ → String}
    {entry : α × String} (h : entry ∈ SmartImporter.withRefids objects refids) : entry.1 ∈ objects := by
  obtain ⟨⟨o, i⟩, hmem, rfl⟩ := List.mem_map.mp h
  exact List.fst_mem_of_mem_zipIdx hmem

def skipped (options : ImportOptions) (st : Store) (o : ParsedObject CertPem) : Bool :=
  options.skipDuplicates &&
    (st.certificates.first fun c => c.serialNumber = some o.serialNumber).isSome

theorem keepsFlags_execute {b : Bundle} {options : ImportOptions}
    {caRefids certRefids csrRefids : ℕ → String}
    (hok : SmartImporter.execute st b options caRefids certRefids csrRefids = .ok st') : KeepsFlags st st' := by
  simp only [SmartImporter.execute, bind_eq_ok] at hok
  obtain ⟨st₁, hcas, st₂, hcertificates, hcsrs⟩ := hok
  have h₁ : KeepsFlags st st₁ := by
    unfold SmartImporter.importCas at hcas
    split_ifs at hcas
    · obtain ⟨p, hp, rfl⟩ := map_eq_ok.mp hcas
      refine foldlM_invariant (I := fun p => KeepsFlags st p.store) (fun p entry p' hkeep hstep => ?_)
        (keepsFlags_of_eq rfl) hp
      rcases addCa_of_importCa hstep with hsame | ⟨row, hadd⟩
      · exact hsame ▸ hkeep
      · obtain ⟨_, heq⟩ := Store.addCa_eq_ok hadd
        refine hkeep.trans (keepsFlags_of_eq ?_)
        rw [heq]
    · cases hcas
      exact keepsFlags_of_eq rfl
  have h₂ : KeepsFlags st₁ st₂ := by
    unfold SmartImporter.importCertificates at hcertificates
    split_ifs at hcertificates
    · refine foldlM_invariant (I := KeepsFlags st₁) (fun s entry s' hkeep hstep => ?_)
        (keepsFlags_of_eq rfl) hcertificates
      obtain ⟨o, refid⟩ := entry
      change (if skipped options s o = true then _ else _) = _ at hstep
      split_ifs at hstep
      · cases hstep
        exact hkeep
      · exact hkeep.trans (keepsFlags_addCertificate rfl hstep)
    · cases hcertificates
      exact keepsFlags_of_eq rfl
  have h₃ : KeepsFlags st₂ st' := by
    unfold SmartImporter.importCsrs at hcsrs
    split_ifs at hcsrs
    · exact foldlM_invariant (I := KeepsFlags st₂)
        (fun _ _ _ hkeep hstep => hkeep.trans (keepsFlags_addCertificate rfl hstep))
        (keepsFlags_of_eq rfl) hcsrs
    · cases hcsrs
      exact keepsFlags_of_eq rfl
  exact (h₁.trans h₂).trans h₃

variable [X509Library] {unset : Prop} {revokedFor : ℕ → Option X509}

theorem named_of_consistent (h : Consistent unset st revokedFor) : Named st := by
  intro c hc x hx r hr
  obtain ⟨ca, hca, hrefid, _⟩ := ((h.certificates c hc).signed x hx).caref r hr
  exact ⟨ca, hca, hrefid⟩

theorem consistent_of_addCa {row : CA} (hrooted : IssuerGraph.Rooted st.links) (hnamed : Named st)
    (hadd : st.addCa row = .ok st') (h' : Consistent unset st' revokedFor) :
    Consistent unset st revokedFor := by
  have hback : ∀ r x, (∃ ca ∈ st.cas, ca.refid = r) → SignedBy st'.cas r x → SignedBy st.cas r x := by
    intro r x hknown
    have hne := refid_ne_of_addCa hadd hknown
    obtain ⟨_, rfl⟩ := Store.addCa_eq_ok hadd
    exact (signedBy_insert_iff hne).mp
  have hcas : ∀ ca ∈ st.cas, ca ∈ st'.cas := by
    obtain ⟨_, rfl⟩ := Store.addCa_eq_ok hadd
    exact fun ca hca => Table.mem_insert.mpr (.inl hca)
  have hcertificates : st'.certificates = st.certificates := by
    obtain ⟨_, rfl⟩ := Store.addCa_eq_ok hadd
    rfl
  refine ⟨fun ca hca => ?_, fun c hc => ?_⟩
  · refine (h'.cas ca (hcas ca hca)).congr fun r hr => hback r _ ?_
    have hlink : (ca.refid, ca.caref) ∈ st.links := List.mem_map.mpr ⟨ca, hca, rfl⟩
    exact IssuerGraph.mem_links_refids.mp (hrooted.named _ hlink r hr)
  · have hrow := h'.certificates c (hcertificates ▸ hc)
    exact hrow.congr fun x hx r hr => hback r x (hnamed c hc x hx r hr)

theorem consistent_of_addCertificate {row : Certificate} (hadd : st.addCertificate row = .ok st')
    (h' : Consistent unset st' revokedFor) : Consistent unset st revokedFor := by
  obtain ⟨_, rfl⟩ := CertificateService.addCertificate_eq_ok.mp hadd
  exact ⟨h'.cas, fun c hc => h'.certificates c (Table.mem_insert.mpr (.inl hc))⟩

section Objects

open SmartImporter

variable [KeyIdLibrary] {c : Contents} {options : ImportOptions}

def CaLinked (options : ImportOptions) (p : Progress) (entry : ParsedObject CertPem × String) :
    Prop :=
  ((duplicateCa p.store entry.1).filter fun _ => options.skipDuplicates) = none →
    ∀ r ∈ linked (parentRefid p entry.1), SignedBy p.store.cas r entry.1.raw.leaf

theorem describe_object {cas : Table CA} {o : ParsedObject CertPem} (caref : Option String)
    (ho : o ∈ (Contents.bundle c).certificates) :
    Columns.Describe unset cas ⟨some o.subject, some o.issuer, some o.serialNumber, o.notBefore,
        o.notAfter, caref, (matchedKey (Contents.bundle c) o).map Encoded.base64⟩ o.raw.leaf ↔
      ∀ r ∈ linked caref, SignedBy cas r o.raw.leaf := by
  obtain ⟨hsubject, hissuer, hserial, hbefore, hafter⟩ := described_of_mem ho
  constructor
  · intro hdescribed
    exact hdescribed.caref
  · intro hcaref
    have hfits : Fits (matchedKey (Contents.bundle c) o) o.raw.leaf :=
      fun k hk => matchedKey_fits hk
    exact ⟨.inl (congrArg some hsubject), .inl (congrArg some hissuer),
      .inl (congrArg some hserial), hbefore, hafter, hcaref, fits_iff.mp hfits⟩

theorem consistent_importCa {p p' : Progress} {entry : ParsedObject CertPem × String}
    (hknown : IssuerGraph.Known st p) (ho : entry.1 ∈ (Contents.bundle c).certificates)
    (hold : Consistent unset p.store revokedFor)
    (hok : importCa (Contents.bundle c) options p entry = .ok p') :
    Consistent unset p'.store revokedFor ↔ CaLinked options p entry := by
  obtain ⟨o, refid⟩ := entry
  unfold importCa at hok
  unfold CaLinked
  dsimp only at hok ho ⊢
  split at hok
  next existing hexisting =>
    cases hok
    refine iff_of_true hold fun hnone => ?_
    cases hnone.symm.trans hexisting
  next hnone =>
    simp only [bind_eq_ok, pure_eq_ok] at hok
    obtain ⟨store, hadd, rfl⟩ := hok
    refine (consistent_addCa hold hadd).trans ((describe_object (parentRefid p o) ho).trans ?_)
    have hlink : ∀ r ∈ linked (parentRefid p o), SignedBy store.cas r o.raw.leaf ↔
        SignedBy p.store.cas r o.raw.leaf := by
      intro r hr
      have hne := refid_ne_of_addCa hadd (hknown.parentRefid (linked_eq_some.mp hr).1)
      obtain ⟨_, rfl⟩ := Store.addCa_eq_ok hadd
      exact signedBy_insert_iff hne
    constructor
    · exact fun hsigned _ r hr => (hlink r hr).mp (hsigned r hr)
    · exact fun hsigned r hr => (hlink r hr).mpr (hsigned hnone r hr)

theorem consistent_importCas {refids : ℕ → String} (hrooted : IssuerGraph.Rooted st.links)
    (hold : Consistent unset st revokedFor)
    (hok : importCas st (Contents.bundle c) options refids = .ok st') :
    Consistent unset st' revokedFor ↔
      (options.importCas = true → LoopMeets (CaLinked options) (importCa (Contents.bundle c) options)
        { store := st } (caEntries (Contents.bundle c) refids)) := by
  unfold importCas at hok
  split_ifs at hok with himport
  · obtain ⟨p, hp, rfl⟩ := map_eq_ok.mp hok
    have hloop := loopMeets_iff (C := CaLinked options)
      (I := fun p => IssuerGraph.Known st p ∧ Named p.store)
      (P := fun p => Consistent unset p.store revokedFor) ?_ ?_ ?_
      ⟨?_, named_of_consistent hold⟩ hp
    · rw [hloop, and_iff_right hold]
      exact ⟨fun hC _ => hC, fun hC => hC himport⟩
    · rintro p entry p' ⟨hknown, hnamed⟩ hstep
      refine ⟨hknown.importCa hstep, ?_⟩
      rcases addCa_of_importCa hstep with hsame | ⟨row, hadd⟩
      · rw [hsame]
        exact hnamed
      · exact hnamed.addCa hadd
    · rintro p entry hentry p' ⟨hknown, _⟩ hconsistent hstep
      refine consistent_importCa hknown ?_ hconsistent hstep
      have hmem := mem_of_mem_withRefids hentry
      exact (List.mem_filter.mp (List.mem_mergeSort.mp hmem)).1
    · rintro p entry p' ⟨hknown, hnamed⟩ hstep hconsistent
      rcases addCa_of_importCa hstep with hsame | ⟨row, hadd⟩
      · exact hsame ▸ hconsistent
      · exact consistent_of_addCa (hknown.grows.rooted hrooted) hnamed hadd hconsistent
    · exact ⟨IssuerGraph.Grows.refl _, fun _ h => absurd h List.not_mem_nil,
        fun _ h => absurd h List.not_mem_nil⟩
  · cases hok
    exact iff_of_true hold fun h => absurd h himport

def CertificateLinked (b : Bundle) (options : ImportOptions) (st : Store)
    (entry : ParsedObject CertPem × String) : Prop :=
  skipped options st entry.1 = false →
    ∀ r ∈ linked (certificateRow b st entry.1 options.username entry.2).caref,
      SignedBy st.cas r entry.1.raw.leaf

theorem consistent_importCertificate {entry : ParsedObject CertPem × String}
    (ho : entry.1 ∈ (Contents.bundle c).certificates) (hold : Consistent unset st revokedFor)
    (hok : importCertificate (Contents.bundle c) options st entry = .ok st') :
    Consistent unset st' revokedFor ↔ CertificateLinked (Contents.bundle c) options st entry := by
  obtain ⟨o, refid⟩ := entry
  change (if skipped options st o = true then _ else _) = _ at hok
  unfold CertificateLinked
  split_ifs at hok with hskipped
  · cases hok
    exact iff_of_true hold fun hnot => by cases hskipped.symm.trans hnot
  · rw [consistent_addCertificate hold rfl hok,
      rowConsistent_iff_describe (x := o.raw.leaf) rfl (fun hr => absurd hr Bool.false_ne_true)]
    refine (describe_object (certificateRow (Contents.bundle c) st o options.username
      refid).caref ho).trans ?_
    exact ⟨fun hC _ => hC, fun hC => hC (Bool.eq_false_of_not_eq_true hskipped)⟩

theorem consistent_importCertificates {refids : ℕ → String}
    (hok : importCertificates st (Contents.bundle c) options refids = .ok st') :
    Consistent unset st' revokedFor ↔ Consistent unset st revokedFor ∧
      (options.importCerts = true → LoopMeets (CertificateLinked (Contents.bundle c) options)
        (importCertificate (Contents.bundle c) options) st
        (certificateEntries (Contents.bundle c) refids)) := by
  unfold importCertificates at hok
  split_ifs at hok with himport
  · have hloop := loopMeets_iff (C := CertificateLinked (Contents.bundle c) options)
      (I := fun _ => True) (P := fun s => Consistent unset s revokedFor)
      (fun _ _ _ _ _ => trivial) ?_ ?_ trivial hok
    · rw [hloop]
      exact and_congr_right fun _ => ⟨fun hC _ => hC, fun hC => hC himport⟩
    · intro s entry hentry s' _ hconsistent hstep
      refine consistent_importCertificate ?_ hconsistent hstep
      exact (List.mem_filter.mp (mem_of_mem_withRefids hentry)).1
    · rintro s ⟨o, refid⟩ s' _ hstep hconsistent
      change (if skipped options s o = true then _ else _) = _ at hstep
      split_ifs at hstep
      · cases hstep
        exact hconsistent
      · exact consistent_of_addCertificate hstep hconsistent
  · cases hok
    exact (and_iff_left fun h => absurd h himport).symm

theorem consistent_importCsrs {refids : ℕ → String}
    (hok : importCsrs st (Contents.bundle c) options refids = .ok st') :
    Consistent unset st' revokedFor ↔ Consistent unset st revokedFor := by
  unfold importCsrs at hok
  split_ifs at hok
  · have hloop := loopMeets_iff (C := fun _ _ => True) (I := fun _ => True)
      (P := fun s => Consistent unset s revokedFor)
      (fun _ _ _ _ _ => trivial) ?_ ?_ trivial hok
    · rw [hloop]
      exact and_iff_left (loopMeets_of_forall (fun _ _ _ => trivial) st)
    · rintro s ⟨o, refid⟩ _ s' _ hconsistent hstep
      refine (consistent_addCertificate hconsistent rfl hstep).trans (iff_true_intro ?_)
      rw [rowConsistent_iff_request rfl (fun hr => absurd hr Bool.false_ne_true)]
      intro csr hcsr e he
      cases hcsr
      obtain ⟨key, hkey, rfl⟩ := Option.map_eq_some_iff.mp he
      exact matchedCsrKey_fits hkey
    · exact fun s entry s' _ hstep hconsistent => consistent_of_addCertificate hstep hconsistent
  · cases hok
    exact Iff.rfl

def LinksSigned (st : Store) (b : Bundle) (options : ImportOptions)
    (caRefids certRefids : ℕ → String) : Prop :=
  (options.importCas = true →
    LoopMeets (CaLinked options) (importCa b options) { store := st } (caEntries b caRefids)) ∧
  ∀ st₁, importCas st b options caRefids = .ok st₁ → options.importCerts = true →
    LoopMeets (CertificateLinked b options) (importCertificate b options) st₁
      (certificateEntries b certRefids)

theorem consistent_execute {caRefids certRefids csrRefids : ℕ → String}
    (hrooted : IssuerGraph.Rooted st.links) (hold : Consistent unset st revokedFor)
    (hok : execute st (Contents.bundle c) options caRefids certRefids csrRefids = .ok st') :
    Consistent unset st' revokedFor ↔
      LinksSigned st (Contents.bundle c) options caRefids certRefids := by
  simp only [execute, bind_eq_ok] at hok
  obtain ⟨st₁, hcas, st₂, hcertificates, hcsrs⟩ := hok
  have hfirst := consistent_importCas hrooted hold hcas
  rw [consistent_importCsrs hcsrs, consistent_importCertificates hcertificates, hfirst]
  refine and_congr_right fun _ => ⟨fun hC st₁' hcas' => ?_, fun hC => hC st₁ hcas⟩
  cases hcas.symm.trans hcas'
  exact hC

theorem writes_smartImport {h : History} {caRefids certRefids csrRefids : ℕ → String}
    (hrooted : IssuerGraph.Rooted h.store.links) (hold : Consistent unset h.store h.revokedFor)
    (hok : execute h.store (Contents.bundle c) options caRefids certRefids csrRefids = .ok st') :
    Writes unset h st'
      (LinksSigned h.store (Contents.bundle c) options caRefids certRefids) :=
  ⟨keepsFlags_execute hok, consistent_execute hrooted hold hok⟩

end Objects

end Bundles

end RowConsistency

end CaManager
