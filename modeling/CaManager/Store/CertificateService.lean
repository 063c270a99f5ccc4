import CaManager.Store.Crl
import CaManager.TrustStore

/-!
# The certificate service

Creating, signing, importing, revoking and deleting stored certificates through the service
layer. Each function returns the store as it is after its last commit. The files written
beside the database, the audit rows and the notifications are left out; they come after the
commit and change none of these tables. Serial numbers are written in decimal here.
-/

namespace CaManager

open Library

def Store.addCertificate (st : Store) (row : Certificate) : Except PyError Store :=
  if (st.certificates.first fun c => c.refid = row.refid).isSome then
    .error (.integrityError "certificates.refid")
  else .ok { st with certificates := st.certificates.insert row }

def Store.setCertificate (st : Store) (id : ℕ) (f : Certificate → Certificate) : Store :=
  { st with certificates := st.certificates.update id f }

/-- `ca.serial = (ca.serial or 0) + 1` -/
def Store.countSerial (st : Store) (ca : CA) : Store :=
  { st with cas := st.cas.update ca.id fun c => { c with serial := some (c.serial.getD 0 + 1) } }

namespace CertificateService

/-- What a caller asks `create_certificate` for, after the template's defaults. -/
structure CreateRequest where
  descr : String
  caref : String
  subject : Name
  certType : String := "server_cert"
  keyType : String := "2048"
  validityDays : ℤ := 397
  san : TrustStoreService.SanLists := {}
  ocspUri : Option String := none
  privateKeyLocation : String := "stored"
  templateId : Option ℕ := none
  username : String := "system"
  deriving Repr, DecidableEq

def clampValidity (caCert : X509) (validityDays : ℤ) (now : Time) : ℤ :=
  if caCert.notAfter < now + days validityDays then max 1 ((caCert.notAfter - now) / days 1)
  else validityDays

def storedNames (names : List String) : Option (List String) :=
  if names.isEmpty then none else some names

/-- The row `create_certificate` stores. -/
def createdRow [X509Library] (st : Store) (r : CreateRequest) (x : X509) (key : KeyPem)
    (d : Draw) : Certificate :=
  { refid := d.refid, descr := r.descr, caref := some r.caref
    crt := some (.base64 ⟨x, []⟩)
    prv := if r.privateKeyLocation = "stored" then
      some ((Encoded.base64 key).encrypt st.keyEncryptionKey) else none
    certType := some r.certType
    subject := some (X509Library.rfc4514String x.subject)
    issuer := some (X509Library.rfc4514String x.issuer)
    serialNumber := some (decimalText x.serial)
    validFrom := some x.notBefore, validTo := some x.notAfter
    sanDns := storedNames r.san.dns, sanIp := storedNames r.san.ip
    sanEmail := storedNames r.san.email, sanUri := storedNames r.san.uri
    ocspUri := r.ocspUri, privateKeyLocation := some r.privateKeyLocation
    templateId := r.templateId, revoked := false
    importedFrom := some "generated", createdBy := some r.username }

def createCertificate [X509Library] (st : Store) (r : CreateRequest) (d : Draw) :
    Except PyError Store := do
  let ca ← orThrow (st.cas.first fun c => c.refid = r.caref)
    (.valueError s!"CA not found: {r.caref}")
  ensure (ca.prv.isSome = true) (.valueError "CA has no private key - cannot sign certificates")
  let caCert ← ca.certificate
  let caPrivateKey ← ca.decryptedPrivateKey st.keyEncryptionKey
  let cdpUrl := if ca.cdpEnabled then CRLService.cdpUrlOf ca else none
  let ocspUrl := if ca.ocspEnabled then ca.ocspUrl else none
  let (x, key) ← TrustStoreService.createCertificate r.subject caCert caPrivateKey r.certType
    (clampValidity caCert r.validityDays d.now) r.keyType r.san ocspUrl cdpUrl d
  (st.countSerial ca).addCertificate (createdRow st r x key d)

def generateCsr [X509Library] (st : Store) (descr : String) (subject : Name)
    (keyType : String) (sanDns sanIp : List String) (username : String) (d : Draw) : Except PyError Store := do
  let (csr, key) ← TrustStoreService.generateCsr subject keyType sanDns sanIp d.keyId
  st.addCertificate
    { refid := d.refid, descr
      csr := some (.base64 csr), prv := some (.base64 key)
      subject := some (X509Library.rfc4514String csr.subject)
      importedFrom := some "csr_generated", createdBy := some username }

def commonNameInText (subject : String) : Option String :=
  ((subject.splitOn ",").map fun part => (part.trimAscii).toString).findSome? fun part =>
    if part.toUpper.startsWith "CN=" then some (part.drop 3).toString else none

def subjectText [X509Library] (x : X509) : String :=
  if x.subject.isEmpty then "" else X509Library.rfc4514String x.subject

def nonEmpty (text : Option String) : Option String :=
  text.filter (· ≠ "")

def signedCommonName [X509Library] (row : Certificate) (x : X509) (sanDns : List String) :
    Option String :=
  (nonEmpty (commonNameInText (subjectText x))).or
    ((nonEmpty sanDns.head?).or (nonEmpty (some row.descr)))

def signedRow [X509Library] (row : Certificate) (caref certType : String) (x : X509) :
    Certificate :=
  let names := alternativeNames x.extensions
  let sanDns := names.filterMap GeneralName.dnsName?
  { row with
    caref := some caref, crt := some (.base64 ⟨x, []⟩), certType := some certType
    subject := nonEmpty (some (subjectText x))
    subjectCn := signedCommonName row x sanDns
    issuer := some (X509Library.rfc4514String x.issuer)
    serialNumber := some (decimalText x.serial)
    validFrom := some x.notBefore, validTo := some x.notAfter
    sanDns := (storedNames sanDns).or row.sanDns
    sanIp := (storedNames (names.filterMap GeneralName.ipAddress?)).or row.sanIp
    sanEmail := (storedNames (names.filterMap GeneralName.rfc822Name?)).or row.sanEmail }

/-- Sign the request of a row. Whether the row is revoked is neither asked nor changed. -/
def signCsr [X509Library] (st : Store) (certId : ℕ) (caref certType : String)
    (validityDays : ℤ) (serial : RandomSerial) (now : Time) : Except PyError (X509 × Store) := do
  let row ← orThrow (st.certificates.get? certId) (.valueError "Certificate not found")
  let csrText ← orThrow row.csr (.valueError "Certificate has no CSR")
  ensure (row.crt = none) (.valueError "Certificate already signed")
  let ca ← orThrow (st.cas.first fun c => c.refid = caref)
    (.valueError s!"CA not found: {caref}")
  ensure (ca.prv.isSome = true) (.valueError "CA has no private key")
  let caCert ← ca.certificate
  let caPrivateKey ← ca.privateKey
  let csr ← orThrow (csrText.decoded.or csrText.asText) (.unloadable "request")
  let x ← TrustStoreService.signCsr csr caCert caPrivateKey validityDays certType serial now
  return (x, (st.setCertificate certId fun c => signedRow c caref certType x).countSerial ca)

def keyAlgoText : KeyKind → String
  | .rsa bits => s!"RSA {bits}"
  | .ec curve => s!"EC {curve}"
  | .other => "Unknown"

/-- The row `import_certificate` stores. It is linked to no authority. -/
def importedRow [X509Library] (descr : String) (x : X509) (keyPem : Option KeyPem)
    (chain : List X509) (username : String) (source : Option String) (refid : String) : Certificate :=
  let names := alternativeNames x.extensions
  { refid, descr
    crt := some (.base64 ⟨x, chain⟩)
    prv := keyPem.map Encoded.base64
    subject := some (X509Library.rfc4514String x.subject)
    subjectCn := (Name.commonNames x.subject).head?
    issuer := some (X509Library.rfc4514String x.issuer)
    serialNumber := some (decimalText x.serial)
    validFrom := some x.notBefore, validTo := some x.notAfter
    keyAlgo := some (keyAlgoText x.publicKey.kind)
    sanDns := storedNames (names.filterMap GeneralName.dnsName?)
    sanIp := storedNames (names.filterMap GeneralName.ipAddress?)
    sanEmail := storedNames (names.filterMap GeneralName.rfc822Name?)
    sanUri := storedNames (names.filterMap GeneralName.uri?)
    importedFrom := some (source.getD "manual"), source := some (source.getD "manual")
    createdBy := some username }

def importCertificate [X509Library] (st : Store) (descr : String) (x : X509)
    (keyPem : Option KeyPem) (chain : List X509) (username : String) (source : Option String)
    (refid : String) : Except PyError Store := do
  let _ ← readExtensions x.extensions
  st.addCertificate (importedRow descr x keyPem chain username source refid)

/-- The list that revoking makes when the authority distributes lists. Failures are logged. -/
def autoGenerateCrl (st : Store) (ca : CA) (username : String) (now : Time) : Store :=
  if ca.cdpEnabled then
    match CRLService.generateCrl st ca.id CRLService.defaultValidityDays username now with
    | .ok (_, st') => st'
    | .error _ => st
  else st

/-- Drop the cached responses for a row, by its attribute `serial`. Failures are logged. -/
def invalidateOcsp (st : Store) (ca : CA) (row : Certificate) : Store :=
  if ca.ocspEnabled then
    match row.getAttribute "serial" with
    | .ok serial =>
      { st with ocspResponses := st.ocspResponses.deleteWhere fun r =>
          r.caId = ca.id && some r.certSerial = serial }
    | .error _ => st
  else st

def revokedRow (reason : String) (now : Time) (row : Certificate) : Certificate :=
  { row with revoked := true, revokedAt := some now, revokeReason := some reason }

def revokeCertificate (st : Store) (certId : ℕ) (reason username : String) (now : Time) :
    Except PyError Store := do
  let row ← orThrow (st.certificates.get? certId) (.valueError "Certificate not found")
  ensure (row.revoked = false) (.valueError "Certificate already revoked")
  let st := st.setCertificate certId (revokedRow reason now)
  match st.cas.first fun c => some c.refid = row.caref with
  | some ca => return invalidateOcsp (autoGenerateCrl st ca username now) ca row
  | none => return st

/-- Delete a row; `false` when there is none. -/
def deleteCertificate (st : Store) (certId : ℕ) : Bool × Store :=
  match st.certificates.get? certId with
  | some _ => (true, { st with certificates := st.certificates.delete certId })
  | none => (false, st)

section Effects

variable {st st' : Store}

theorem addCertificate_eq_ok {row : Certificate} :
    st.addCertificate row = .ok st' ↔
      (st.certificates.first fun c => c.refid = row.refid) = none ∧
        st' = { st with certificates := st.certificates.insert row } := by
  unfold Store.addCertificate
  split_ifs with h
  · simp only [false_iff, not_and]
    intro hnone
    simp [hnone] at h
  · simp only [Except.ok.injEq]
    rw [Option.not_isSome_iff_eq_none] at h
    exact ⟨fun heq => ⟨h, heq.symm⟩, fun heq => heq.2.symm⟩

theorem createCertificate_eq_ok [X509Library] {r : CreateRequest} {d : Draw}
    (h : createCertificate st r d = .ok st') :
    ∃ ca caCert caPrivateKey x key,
      (st.cas.first fun c => c.refid = r.caref) = some ca ∧ ca.certificate = .ok caCert ∧
      ca.decryptedPrivateKey st.keyEncryptionKey = .ok caPrivateKey ∧
      TrustStoreService.Issues caCert caPrivateKey d.serial x ∧
      (st.countSerial ca).addCertificate (createdRow st r x key d) = .ok st' := by
  simp only [createCertificate, bind_eq_ok, orThrow_eq_ok, ensure_eq_ok] at h
  obtain ⟨ca, hca, _, _, caCert, hcert, caPrivateKey, hkey, ⟨x, key⟩, hx, hadd⟩ := h
  exact ⟨ca, caCert, caPrivateKey, x, key, hca, hcert, hkey,
    TrustStoreService.createCertificate_issues hx, hadd⟩

theorem generateCsr_eq_ok [X509Library] {descr keyType username : String} {subject : Name}
    {sanDns sanIp : List String} {d : Draw}
    (h : generateCsr st descr subject keyType sanDns sanIp username d = .ok st') :
    ∃ row, row.caref = none ∧ row.crt = none ∧ row.revoked = false ∧
      st.addCertificate row = .ok st' := by
  simp only [generateCsr, bind_eq_ok] at h
  obtain ⟨⟨csr, key⟩, _, hadd⟩ := h
  exact ⟨_, rfl, rfl, rfl, hadd⟩

theorem signCsr_eq_ok [X509Library] {certId : ℕ} {caref certType : String} {validityDays : ℤ}
    {serial : RandomSerial} {now : Time} {x : X509}
    (h : signCsr st certId caref certType validityDays serial now = .ok (x, st')) :
    ∃ row ca caCert caPrivateKey,
      st.certificates.get? certId = some row ∧ row.crt = none ∧
      (st.cas.first fun c => c.refid = caref) = some ca ∧ ca.certificate = .ok caCert ∧
      ca.privateKey = .ok caPrivateKey ∧
      TrustStoreService.Issues caCert caPrivateKey serial x ∧
      st' = (st.setCertificate certId fun c => signedRow c caref certType x).countSerial ca := by
  simp only [signCsr, bind_eq_ok, orThrow_eq_ok, ensure_eq_ok, pure_eq_ok, Prod.mk.injEq] at h
  obtain ⟨row, hrow, _, _, _, hcrt, ca, hca, _, _, caCert, hcert, caPrivateKey, hkey, csr, _,
    x', hx, rfl, rfl⟩ := h
  exact ⟨row, ca, caCert, caPrivateKey, hrow, hcrt, hca, hcert, hkey,
    TrustStoreService.signCsr_issues hx, rfl⟩

theorem request_of_signCsr [X509Library] {certId : ℕ} {caref certType : String}
    {validityDays : ℤ} {serial : RandomSerial} {now : Time} {x : X509} {row : Certificate}
    {csr : Csr} (hrow : st.certificates.get? certId = some row) (hcsr : row.csr = some (.base64 csr))
    (h : signCsr st certId caref certType validityDays serial now = .ok (x, st')) :
    ∃ caCert caPrivateKey,
      TrustStoreService.signCsr csr caCert caPrivateKey validityDays certType serial now = .ok x := by
  simp only [signCsr, hrow, bind_eq_ok, orThrow_eq_ok, Option.some.injEq, pure_eq_ok,
    Prod.mk.injEq] at h
  obtain ⟨_, rfl, csrText, htext, _, _, ca, _, _, _, caCert, _, caPrivateKey, _, csr', hdecoded,
    x', hx, rfl, _⟩ := h
  cases hcsr.symm.trans htext
  cases hdecoded
  exact ⟨caCert, caPrivateKey, hx⟩

theorem importCertificate_eq_ok [X509Library] {descr username refid : String} {x : X509}
    {keyPem : Option KeyPem} {chain : List X509} {source : Option String}
    (h : importCertificate st descr x keyPem chain username source refid = .ok st') :
    st.addCertificate (importedRow descr x keyPem chain username source refid) = .ok st' := by
  simp only [importCertificate, bind_eq_ok] at h
  obtain ⟨_, _, hadd⟩ := h
  exact hadd

@[simp] theorem invalidateOcsp_eq (ca : CA) (row : Certificate) :
    invalidateOcsp st ca row = st := by
  unfold invalidateOcsp
  split_ifs
  · rfl
  · rfl

theorem autoGenerateCrl_cases (st : Store) (ca : CA) (username : String) (now : Time) :
    autoGenerateCrl st ca username now = st ∨
      ∃ m, CRLService.generateCrl st ca.id CRLService.defaultValidityDays username now =
        .ok (m, autoGenerateCrl st ca username now) := by
  unfold autoGenerateCrl
  split_ifs
  · split
    next m st' hm => exact .inr ⟨m, hm⟩
    next => exact .inl rfl
  · exact .inl rfl

theorem revokeCertificate_eq_ok {certId : ℕ} {reason username : String} {now : Time}
    (h : revokeCertificate st certId reason username now = .ok st') :
    ∃ row, st.certificates.get? certId = some row ∧ row.revoked = false ∧
      (st' = st.setCertificate certId (revokedRow reason now) ∨
        ∃ (ca : CA) (m : CrlMetadata), some ca.refid = row.caref ∧
          CRLService.generateCrl (st.setCertificate certId (revokedRow reason now)) ca.id
            CRLService.defaultValidityDays username now = .ok (m, st')) := by
  simp only [revokeCertificate, bind_eq_ok, orThrow_eq_ok, ensure_eq_ok] at h
  obtain ⟨row, hrow, _, hrevoked, h⟩ := h
  refine ⟨row, hrow, hrevoked, ?_⟩
  split at h
  next ca hca =>
    rw [pure_eq_ok, invalidateOcsp_eq] at h
    have hlink : some ca.refid = row.caref := by
      simpa using Table.holds_of_first hca
    rcases autoGenerateCrl_cases (st.setCertificate certId (revokedRow reason now)) ca username now
      with heq | ⟨m, hm⟩
    · exact .inl (h.symm.trans heq)
    · exact .inr ⟨ca, m, hlink, h ▸ hm⟩
  next =>
    rw [pure_eq_ok] at h
    exact .inl h.symm

end Effects

end CertificateService

end CaManager
