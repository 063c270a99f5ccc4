import CaManager.Store.CertificateService

/-!
# The certificate routes

What the HTTP routes do to the store: creating a certificate for an authority, revoking,
removing a hold, renewing in place, deleting, and the bulk forms of these. A route answers
with a status and a message, and an exception before its commit leaves the store as it was.
Serial numbers are written in hexadecimal here.
-/

namespace CaManager

open Library

structure Response where
  status : ℕ
  message : String
  deriving Repr, DecidableEq

/-- The methods of `AuditService` that the routes can call. -/
def auditMethods : List String :=
  ["log_action", "verify_integrity", "log_certificate", "log_ca", "log_csr", "log_user",
   "log_auth", "log_acme", "log_scep", "log_system", "get_logs", "get_log_by_id",
   "get_actions_list", "get_stats", "cleanup_old_logs", "export_logs"]

/-- Looking up a method of `AuditService`. -/
def auditMethod (name : String) : Except PyError Unit :=
  ensure (name ∈ auditMethods) (.attributeError "AuditService" name)

namespace Routes

/-- The body of a create request: the subject and the alternative names are those built from
its fields, and the key kind is the one its type, size and curve select. -/
structure CreateBody where
  caId : ℕ
  descr : String
  subject : Name
  names : List GeneralName
  sanDns : List String := []
  sanIp : List String := []
  sanEmail : List String := []
  certType : String := "server"
  keyKind : KeyKind := .rsa 2048
  validityDays : ℤ := 365
  createdBy : Option String := none
  deriving Repr, DecidableEq

/-- Key usage and extended usage by certificate type; unknown types are servers. -/
def certProfile (certType : String) : KeyUsage × List ExtendedUsage :=
  match certType with
  | "client" => (⟨true, false, false, false, false, false, false, false, false⟩, [.clientAuth])
  | "combined" => (TrustStoreService.serverUsage, [.serverAuth, .clientAuth])
  | "code_signing" =>
    (⟨true, false, false, false, false, false, false, false, false⟩, [.codeSigning])
  | "email" => (TrustStoreService.clientUsage, [.emailProtection])
  | _ => (TrustStoreService.serverUsage, [.serverAuth])

def weakKey : KeyKind → Bool
  | .rsa bits => bits < 2048
  | _ => false

/-- The row `create_certificate` stores. -/
def createdRow [X509Library] (ca : CA) (body : CreateBody) (x : X509) (key : KeyPem)
    (d : Draw) : Certificate :=
  { refid := d.refid, descr := body.descr, caref := some ca.refid
    crt := some (.base64 ⟨x, []⟩), prv := some (.base64 key)
    certType := some body.certType
    subject := some (X509Library.rfc4514String x.subject)
    issuer := some (X509Library.rfc4514String x.issuer)
    serialNumber := some (hexText x.serial)
    validFrom := some x.notBefore, validTo := some x.notAfter
    sanDns := some body.sanDns, sanIp := some body.sanIp, sanEmail := some body.sanEmail
    createdBy := body.createdBy }

/-- The part of `create_certificate` whose exceptions roll back. -/
def tryCreate [X509Library] (st : Store) (ca : CA) (body : CreateBody) (d : Draw) :
    Except PyError Store := do
  let caCert ← ca.certificate
  let caKey ← ca.privateKey
  let newKey : PublicKey := ⟨body.keyKind, d.keyId⟩
  let (usage, extendedUsages) := certProfile body.certType
  let builder : CertificateBuilder :=
    { subject := body.subject, issuer := caCert.subject, publicKey := newKey
      serial := d.serial.value
      notBefore := d.now, notAfter := d.now + days body.validityDays
      extensions :=
        [⟨.basicConstraints false none, true⟩, ⟨.keyUsage usage, true⟩,
         ⟨.extendedKeyUsage extendedUsages, false⟩] ++
        TrustStoreService.sanExtension body.names ++
        [⟨.subjectKeyIdentifier newKey, false⟩, ⟨.authorityKeyIdentifier caKey, false⟩] }
  let x ← builder.sign caKey
  st.addCertificate (createdRow ca body x ⟨newKey⟩ d)

def createCertificate [X509Library] (st : Store) (body : CreateBody) (d : Draw) :
    Response × Store :=
  match st.cas.get? body.caId with
  | none => (⟨404, "CA not found"⟩, st)
  | some ca =>
    if ca.prv = none then (⟨400, "CA private key not available"⟩, st)
    else if weakKey body.keyKind then (⟨400, "RSA key size must be at least 2048 bits"⟩, st)
    else
      match tryCreate st ca body d with
      | .ok st' => (⟨201, "Certificate created successfully"⟩, st')
      | .error _ => (⟨500, "Failed to create certificate"⟩, st)

def revokeCertificate (st : Store) (certId : ℕ) (reason username : String) (now : Time) :
    Response × Store :=
  match st.certificates.get? certId with
  | none => (⟨404, "Certificate not found"⟩, st)
  | some row =>
    if row.revoked then (⟨400, "Certificate already revoked"⟩, st)
    else
      match CertificateService.revokeCertificate st certId reason username now with
      | .ok st' => (⟨200, "Certificate revoked successfully"⟩, st')
      | .error (.valueError _) => (⟨400, "Validation failed"⟩, st)
      | .error _ => (⟨500, "Failed to revoke certificate"⟩, st)

/-- `hold_reasons` -/
def holdReasons : List String := ["certificate_hold", "certificateHold"]

def clearedRow (row : Certificate) : Certificate :=
  { row with revoked := false, revokedAt := none, revokeReason := none }

def onHold (row : Certificate) : Bool :=
  match row.revokeReason with
  | some reason => reason ∈ holdReasons
  | none => false

def unholdCertificate (st : Store) (certId : ℕ) : Response × Store :=
  match st.certificates.get? certId with
  | none => (⟨404, "Certificate not found"⟩, st)
  | some row =>
    if row.revoked = false then (⟨400, "Certificate is not revoked"⟩, st)
    else if onHold row = false then
      (⟨400, "Only certificates with reason \"certificateHold\" can be unheld"⟩, st)
    else
      let st := st.setCertificate certId clearedRow
      -- the audit call follows the commit; the new list and the cache come after it
      match auditMethod "log" with
      | .error _ => (⟨500, "Failed to remove certificate hold"⟩, st)
      | .ok _ => (⟨200, "Certificate hold removed successfully"⟩, st)

/-- The part of the text after the first `CN=`, up to the next comma. -/
def textCommonName (name : String) : Option String :=
  match name.splitOn "CN=" with
  | _ :: rest :: _ => some ((rest.splitOn ",").headD "")
  | _ => none

/-- The authority of a row: by its link, else by its issuer text, else by the common names. -/
def issuingCa (st : Store) (row : Certificate) : Option CA :=
  match st.cas.first fun c => some c.refid = row.caref with
  | some ca => some ca
  | none =>
    match CertificateService.nonEmpty row.issuer with
    | none => none
    | some issuer =>
      match st.cas.first fun c => c.subject = some issuer with
      | some ca => some ca
      | none => st.cas.first fun c =>
          match CertificateService.nonEmpty ((c.subject.bind textCommonName)),
              CertificateService.nonEmpty (textCommonName issuer) with
          | some caCn, some issuerCn => caCn = issuerCn
          | _, _ => false

def renewedKeyKind : KeyKind → KeyKind
  | .rsa bits => .rsa bits
  | .ec curve => .ec curve
  | .other => .rsa 2048

/-- The whole days between the validity bounds of the old certificate, or a year. -/
def renewedValidity (x : X509) : ℤ :=
  let duration := (x.notAfter - x.notBefore) / days 1
  if 0 < duration then duration else 365

/-- What renewing writes into the row: certificate, key, serial number and validity are
replaced, and the revocation is cleared. -/
def renewedRow (x : X509) (key : KeyPem) (row : Certificate) : Certificate :=
  { clearedRow row with
    crt := some (.base64 ⟨x, []⟩), prv := some (.base64 key)
    serialNumber := some (hexText x.serial)
    validFrom := some x.notBefore, validTo := some x.notAfter }

def copiedExtensions (requested : List Extension) : List Extension :=
  requested.filter fun e => e.oid ≠ "2.5.29.35" && e.oid ≠ "2.5.29.14"

/-- The part of `renew_certificate` whose exceptions roll back. -/
def tryRenew (st : Store) (row : Certificate) (ca : CA) (d : Draw) : Except PyError Store := do
  let original ← row.x509
  let caCert ← ca.certificate
  let caKey ← ca.privateKey
  let newKey : PublicKey := ⟨renewedKeyKind original.publicKey.kind, d.keyId⟩
  let requested ← readExtensions original.extensions
  let builder : CertificateBuilder :=
    { subject := original.subject, issuer := caCert.subject, publicKey := newKey
      serial := d.serial.value
      notBefore := d.now, notAfter := d.now + days (renewedValidity original)
      extensions := copiedExtensions requested ++
        [⟨.subjectKeyIdentifier newKey, false⟩, ⟨.authorityKeyIdentifier caKey, false⟩] }
  let x ← builder.sign caKey
  return st.setCertificate row.id (renewedRow x ⟨newKey⟩)

def renewCertificate (st : Store) (certId : ℕ) (d : Draw) : Response × Store :=
  match st.certificates.get? certId with
  | none => (⟨404, "Certificate not found"⟩, st)
  | some row =>
    if row.crt = none then (⟨400, "Certificate data not available"⟩, st)
    else
      match issuingCa st row with
      | none =>
        (⟨404, "Issuing CA not found. " ++
          "The CA that signed this certificate is not in the system."⟩, st)
      | some ca =>
        if ca.prv = none then
          (⟨400, "CA private key not available. Cannot renew without CA private key."⟩, st)
        else
          match tryRenew st row ca d with
          | .ok st' => (⟨200, "Certificate renewed successfully"⟩, st')
          | .error _ => (⟨500, "Failed to renew certificate"⟩, st)

def deleteCertificate (st : Store) (certId : ℕ) : Response × Store :=
  match st.certificates.get? certId with
  | none => (⟨404, "Certificate not found"⟩, st)
  | some _ => (⟨204, ""⟩, { st with certificates := st.certificates.delete certId })

def bulkRevokeOne (reason username : String) (now : Time) (st : Store) (certId : ℕ) : Store :=
  match st.certificates.get? certId with
  | none => st
  | some row =>
    if row.revoked then st
    else
      match CertificateService.revokeCertificate st certId reason username now with
      | .ok st' => st'
      | .error _ => st

/-- One identifier of a bulk renewal. Only the link to the authority is followed. -/
def bulkRenewOne (st : Store) (request : ℕ × Draw) : Store :=
  match st.certificates.get? request.1 with
  | none => st
  | some row =>
    if row.crt = none then st
    else
      match st.cas.first fun c => some c.refid = row.caref with
      | none => st
      | some ca =>
        if ca.prv = none then st
        else
          match tryRenew st row ca request.2 with
          | .ok st' => st'
          | .error _ => st

/-- What the answer to a bulk renewal says about one identifier: the error, if there is one. -/
def bulkRenewNote (st : Store) (request : ℕ × Draw) : Option String :=
  match st.certificates.get? request.1 with
  | none => some "Not found"
  | some row =>
    if row.crt = none then some "No certificate data"
    else
      match st.cas.first fun c => some c.refid = row.caref with
      | none => some "Issuing CA not found or no private key"
      | some ca =>
        if ca.prv = none then some "Issuing CA not found or no private key"
        else
          match tryRenew st row ca request.2 with
          | .ok _ => none
          | .error _ => some "Renewal failed"

def bulkDeleteOne (st : Store) (certId : ℕ) : Store :=
  match st.certificates.get? certId with
  | none => st
  | some _ => { st with certificates := st.certificates.delete certId }

/-- The bulk routes go through their identifiers one by one, each in its own transaction. -/
def bulkRevokeCertificates (st : Store) (ids : List ℕ) (reason username : String)
    (now : Time) : Store :=
  ids.foldl (bulkRevokeOne reason username now) st

def bulkRenewCertificates (st : Store) (requests : List (ℕ × Draw)) : Store :=
  requests.foldl bulkRenewOne st

/-- The answer to a bulk renewal: a note for each identifier, in the store it meets. -/
def bulkRenewNotes (st : Store) : List (ℕ × Draw) → List (ℕ × Option String)
  | [] => []
  | request :: requests =>
    (request.1, bulkRenewNote st request) :: bulkRenewNotes (bulkRenewOne st request) requests

def bulkDeleteCertificates (st : Store) (ids : List ℕ) : Store :=
  ids.foldl bulkDeleteOne st

section Effects

variable {st : Store}

theorem createCertificate_cases [X509Library] (st : Store) (body : CreateBody) (d : Draw) :
    (createCertificate st body d).2 = st ∨
      ∃ ca caCert caKey x key,
        st.cas.get? body.caId = some ca ∧ ca.certificate = .ok caCert ∧
        ca.privateKey = .ok caKey ∧ TrustStoreService.Issues caCert caKey d.serial x ∧
        st.addCertificate (createdRow ca body x key d) =
          .ok (createCertificate st body d).2 := by
  unfold createCertificate
  split
  next => exact .inl rfl
  next ca hca =>
    split_ifs
    · exact .inl rfl
    · exact .inl rfl
    · split
      next st' hst' =>
        simp only [tryCreate, bind_eq_ok] at hst'
        obtain ⟨caCert, hcert, caKey, hkey, x, hsign, hadd⟩ := hst'
        exact .inr ⟨ca, caCert, caKey, x, _, hca, hcert, hkey,
          TrustStoreService.issues_of_sign rfl rfl hsign, hadd⟩
      next => exact .inl rfl

theorem revokeCertificate_cases (st : Store) (certId : ℕ) (reason username : String)
    (now : Time) :
    (revokeCertificate st certId reason username now).2 = st ∨
      CertificateService.revokeCertificate st certId reason username now =
        .ok (revokeCertificate st certId reason username now).2 := by
  unfold revokeCertificate
  split
  next => exact .inl rfl
  next row hrow =>
    split_ifs
    · exact .inl rfl
    · split
      next st' hst' => exact .inr hst'
      next => exact .inl rfl
      next => exact .inl rfl

theorem bulkRevokeOne_cases (reason username : String) (now : Time) (st : Store)
    (certId : ℕ) :
    bulkRevokeOne reason username now st certId = st ∨
      CertificateService.revokeCertificate st certId reason username now =
        .ok (bulkRevokeOne reason username now st certId) := by
  unfold bulkRevokeOne
  split
  next => exact .inl rfl
  next row hrow =>
    split_ifs
    · exact .inl rfl
    · split
      next st' hst' => exact .inr hst'
      next => exact .inl rfl

theorem unholdCertificate_cases (st : Store) (certId : ℕ) :
    (unholdCertificate st certId).2 = st ∨
      ∃ row, st.certificates.get? certId = some row ∧ row.revoked = true ∧ onHold row = true ∧
        unholdCertificate st certId =
          (⟨500, "Failed to remove certificate hold"⟩, st.setCertificate certId clearedRow) := by
  unfold unholdCertificate
  split
  next => exact .inl rfl
  next row hrow =>
    split_ifs with hrevoked hhold
    · exact .inl rfl
    · exact .inl rfl
    · exact .inr ⟨row, hrow, by simpa using hrevoked, by simpa using hhold, rfl⟩

theorem tryRenew_eq_ok {row : Certificate} {ca : CA} {d : Draw} {st' : Store}
    (h : tryRenew st row ca d = .ok st') :
    ∃ caCert caKey x key, ca.certificate = .ok caCert ∧ ca.privateKey = .ok caKey ∧
      TrustStoreService.Issues caCert caKey d.serial x ∧
      st' = st.setCertificate row.id (renewedRow x key) := by
  simp only [tryRenew, bind_eq_ok, pure_eq_ok] at h
  obtain ⟨original, _, caCert, hcert, caKey, hkey, _, _, x, hsign, rfl⟩ := h
  exact ⟨caCert, caKey, x, _, hcert, hkey, TrustStoreService.issues_of_sign rfl rfl hsign, rfl⟩

theorem mem_of_issuingCa {row : Certificate} {ca : CA} (h : issuingCa st row = some ca) :
    ca ∈ st.cas := by
  unfold issuingCa at h
  split at h
  next ca' hlinked =>
    cases h
    exact Table.mem_of_first hlinked
  next =>
    split at h
    next => cases h
    next =>
      split at h
      next ca' hsubject =>
        cases h
        exact Table.mem_of_first hsubject
      next => exact Table.mem_of_first h

theorem renewCertificate_cases (st : Store) (certId : ℕ) (d : Draw) :
    (renewCertificate st certId d).2 = st ∨
      ∃ row ca, st.certificates.get? certId = some row ∧ ca ∈ st.cas ∧
        tryRenew st row ca d = .ok (renewCertificate st certId d).2 := by
  unfold renewCertificate
  split
  next => exact .inl rfl
  next row hrow =>
    split_ifs
    · exact .inl rfl
    · split
      next => exact .inl rfl
      next ca hca =>
        split_ifs
        · exact .inl rfl
        · split
          next st' hst' => exact .inr ⟨row, ca, hrow, mem_of_issuingCa hca, hst'⟩
          next => exact .inl rfl

theorem bulkRenewOne_cases (st : Store) (request : ℕ × Draw) :
    bulkRenewOne st request = st ∨
      ∃ row ca, st.certificates.get? request.1 = some row ∧ ca ∈ st.cas ∧
        tryRenew st row ca request.2 = .ok (bulkRenewOne st request) := by
  unfold bulkRenewOne
  split
  next => exact .inl rfl
  next row hrow =>
    split_ifs
    · exact .inl rfl
    · split
      next => exact .inl rfl
      next ca hca =>
        split_ifs
        · exact .inl rfl
        · split
          next st' hst' => exact .inr ⟨row, ca, hrow, Table.mem_of_first hca, hst'⟩
          next => exact .inl rfl

theorem deleteCertificate_cases (st : Store) (certId : ℕ) :
    (deleteCertificate st certId).2 = st ∨
      (deleteCertificate st certId).2 =
        { st with certificates := st.certificates.delete certId } := by
  unfold deleteCertificate
  split
  next => exact .inl rfl
  next => exact .inr rfl

theorem bulkDeleteOne_cases (st : Store) (certId : ℕ) :
    bulkDeleteOne st certId = st ∨
      bulkDeleteOne st certId = { st with certificates := st.certificates.delete certId } := by
  unfold bulkDeleteOne
  split
  next => exact .inl rfl
  next => exact .inr rfl

end Effects

end Routes

end CaManager
