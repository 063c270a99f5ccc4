import CaManager.Accounts.Administration
import CaManager.Store.Operations

/-!
# Enrolled client certificates

A client certificate signs its user in once it is enrolled. The routes that enrol write a row
beside the stored certificates, joined to them by the text of the serial number alone: in
decimal for certificates that the program made or was given, in upper-case hexadecimal for
those presented on a connection. Authentication looks for any of these texts, and for the
fingerprint.
-/

namespace CaManager

open Library

/-- The SHA-256 digest of a certificate, in upper-case hexadecimal. -/
class DigestLibrary where
  fingerprint : X509 → String

/-- `format(serial, 'X')` -/
def upperHexText (serial : ℤ) : String := String.ofList ((writeInt 16 serial).map Char.toUpper)

theorem upperHexText_ne_empty (serial : ℤ) : upperHexText serial ≠ "" := by
  intro h
  have hchars := congrArg String.toList h
  rw [upperHexText, String.toList_ofList] at hchars
  exact writeInt_ne_nil serial (List.map_eq_nil_iff.mp hchars)

def takeText (n : ℕ) (s : String) : String := String.ofList (s.toList.take n)

structure CertInfo where
  subjectDn : String
  issuerDn : Option String
  serial : Option String
  fingerprint : Option String
  commonName : Option String
  validFrom : Option Time
  validUntil : Option Time
  deriving Repr, DecidableEq

/-- The stored certificates, the accounts, and the time. -/
structure MtlsState where
  store : Store
  accounts : Accounts
  now : Time

namespace Accounts

def addAuthCertificate (st : Accounts) (a : AuthCertificate) : Option Accounts :=
  if (st.authCertificates.first fun b => b.certSerial = a.certSerial).isSome then none
  else some { st with authCertificates := st.authCertificates.insert a }

def enrolledAs (st : Accounts) (serial : String) : Option AuthCertificate :=
  st.authCertificates.first fun a => a.certSerial = serial

end Accounts

/-- `Certificate.query.filter(Certificate.serial_number == …).first()` -/
def Store.certificateBySerial (st : Store) (serial : String) : Option Certificate :=
  st.certificates.first fun c => c.serialNumber = some serial

namespace Mtls

/-- A client certificate as it reaches the program: on the connection itself, as PEM in a
header of the proxy, or only as headers about it. -/
inductive Presented
  | native (x : X509)
  | proxied (x : X509)
  | headers (subjectDn : String) (issuerDn serial fingerprint commonName : Option String)
  deriving DecidableEq

/-- `extract_from_flask_native`, `extract_certificate_info`, and what headers alone say. -/
def Presented.info [X509Library] [DigestLibrary] : Presented → CertInfo
  | native x =>
    { subjectDn := X509Library.rfc4514String x.subject
      issuerDn := some (X509Library.rfc4514String x.issuer)
      serial := some (upperHexText x.serial), fingerprint := some (DigestLibrary.fingerprint x)
      commonName := (Name.commonNames x.subject).getLast?
      validFrom := some x.notBefore, validUntil := some x.notAfter }
  | proxied x =>
    { subjectDn := X509Library.rfc4514String x.subject
      issuerDn := some (X509Library.rfc4514String x.issuer)
      serial := some (upperHexText x.serial), fingerprint := some (DigestLibrary.fingerprint x)
      commonName := (Name.commonNames x.subject).head?
      validFrom := some x.notBefore, validUntil := some x.notAfter }
  | headers subjectDn issuerDn serial fingerprint commonName =>
    { subjectDn, issuerDn, serial, fingerprint, commonName
      validFrom := none, validUntil := none }

def isHexDigit (c : Char) : Bool := c ∈ "0123456789ABCDEFabcdef".toList

/-- The text of the serial number in the other base, whichever it was written in. -/
def convertedSerials (serial : String) : List String :=
  (if serial.toList.all isHexDigit then
      ((readInt 16 serial.toList).map decimalText).toList else []) ++
    ((readInt 10 serial.toList).map upperHexText).toList

/-- The enrolment that a presented certificate finds: by its serial number as it is, then
converted, and then by its fingerprint. -/
def findEnrolment (st : Accounts) (serial : String) (fingerprint : Option String) :
    Option AuthCertificate :=
  ((serial :: convertedSerials serial).findSome? st.enrolledAs).or
    ((fingerprint.filter (· ≠ "")).bind fun f =>
      st.authCertificates.first fun a => a.certFingerprint = some f)

/-- `MTLSAuthService.authenticate_certificate`. Whether a stored certificate is revoked is not
asked. -/
def authenticateCertificate (s : MtlsState) (info : CertInfo) :
    Except String (User × AuthCertificate × MtlsState) := do
  let serial ← orThrow (info.serial.filter (· ≠ "")) "Certificate serial number not found"
  let a ← orThrow (findEnrolment s.accounts serial info.fingerprint) "Certificate not enrolled"
  ensure (a.enabled = true) "Certificate is disabled"
  ensure (∀ validUntil ∈ info.validUntil, s.now ≤ validUntil) "Certificate has expired"
  ensure (∀ validFrom ∈ info.validFrom, validFrom ≤ s.now) "Certificate is not yet valid"
  let user ← orThrow (s.accounts.users.get? a.userId) "User not found"
  ensure (user.active = true) "User account is disabled"
  let authCertificates :=
    s.accounts.authCertificates.update a.id fun a => { a with lastUsedAt := some s.now }
  return (user, a, { s with accounts := { s.accounts with authCertificates } })

/-- Which authority a new client certificate is to come from, and what it is called. -/
structure NewCertificate where
  caId : Option ℕ := none
  caRefid : Option String := none
  validityDays : ℤ := 365
  name : Option String := none
  organization : String := "UCM Users"
  deriving Repr, DecidableEq

/-- A request to enrol. Certificates that could not be read are `none`. -/
inductive Enrolment
  | create (data : NewCertificate) (d : Draw)
  | presented (p : Option Presented) (name : Option String)
  | importPem (pem : Option CertPem) (name : String) (userId : Option ℕ) (refid : String)
  | assign (certId : ℕ) (userId : Option ℕ) (name : Option String)
  | importFor (userId : ℕ) (pem : Option CertPem) (name : String) (refid : String)
  deriving DecidableEq

/-- The letters, digits and marks that an organization may have, at most 64 of them. -/
def validOrganization (org : String) : Bool :=
  0 < org.length && org.length ≤ 64 &&
    org.toList.all fun c => c.isAlpha || c.isDigit || isBlank c || c = '-' || c = '.'

section Routes

variable [X509Library]

def issuingCa (s : MtlsState) (data : NewCertificate) : Option CA :=
  ((data.caId.bind s.store.cas.get?).or
    (data.caRefid.bind fun refid => s.store.cas.first fun c => c.refid = refid)).or
  (((s.accounts.settings "mtls_trusted_ca_id").bind fun refid =>
    s.store.cas.first fun c => c.refid = refid).or (s.store.cas.first fun _ => true))

def organizationOid : String := "2.5.4.10"

def organizationalUnitOid : String := "2.5.4.11"

/-- What `create_mtls_certificate` asks the certificate service for. -/
def mtlsRequest (user : User) (ca : CA) (data : NewCertificate) :
    CertificateService.CreateRequest :=
  { descr := data.name.getD (user.username ++ " mTLS"), caref := ca.refid
    subject :=
      [⟨organizationOid, data.organization⟩, ⟨organizationalUnitOid, "mTLS Clients"⟩,
       ⟨commonNameOid, user.username ++ "@mtls"⟩]
    certType := "usr_cert", validityDays := min (max data.validityDays 1) 3650
    username := user.username }

def createdEnrolment (user : User) (name : String) (row : Certificate) : AuthCertificate :=
  { userId := user.id, certSerial := row.serialNumber.getD "", certSubject := row.subject.getD ""
    certIssuer := some (row.issuer.getD ""), certFingerprint := some "", name := some name
    validFrom := row.validFrom, validUntil := row.validTo }

/-- `create_mtls_certificate` up to the enrolment: the certificate is stored by then. -/
def createMtlsCertificate (s : MtlsState) (user : User) (data : NewCertificate) (d : Draw) :
    Except Refusal (Store × AuthCertificate) := do
  let ca ← orThrow (issuingCa s data) ⟨400, "No CA available"⟩
  ensure (validOrganization data.organization = true) ⟨400, "Invalid organization name"⟩
  let r := mtlsRequest user ca data
  match CertificateService.createCertificate s.store r d with
  | .error _ => throw ⟨500, "Failed to create certificate"⟩
  | .ok store =>
    let row ← orThrow (store.certificates.get? s.store.certificates.nextKey)
      ⟨500, "Failed to create certificate"⟩
    return (store, createdEnrolment user r.descr row)

/-- `enroll_presented_certificate` -/
def enrollPresented [DigestLibrary] (s : MtlsState) (user : User) (p : Option Presented)
    (name : Option String) : Except Refusal (Store × AuthCertificate) := do
  let p ← orThrow p ⟨400, "No client certificate detected in this request"⟩
  let info := p.info
  ensure (∀ validUntil ∈ info.validUntil, s.now ≤ validUntil)
    ⟨400, "Cannot enroll expired certificate"⟩
  ensure (∀ validFrom ∈ info.validFrom, validFrom ≤ s.now)
    ⟨400, "Cannot enroll certificate that is not yet valid"⟩
  let serial ← orThrow info.serial ⟨500, "Internal server error"⟩
  ensure (s.accounts.enrolledAs serial = none) ⟨409, "This certificate is already enrolled"⟩
  return (s.store,
    { userId := user.id, certSerial := serial, certSubject := info.subjectDn
      certIssuer := info.issuerDn, certFingerprint := info.fingerprint
      name := some (((name.filter (· ≠ "")).or (info.commonName.filter (· ≠ ""))).getD
        ("Certificate " ++ takeText 8 serial))
      validFrom := info.validFrom, validUntil := info.validUntil })

def pemEnrolment [DigestLibrary] (userId : ℕ) (x : X509) (serial name : String) :
    AuthCertificate :=
  { userId, certSerial := serial, certSubject := X509Library.rfc4514String x.subject
    certIssuer := some (X509Library.rfc4514String x.issuer)
    certFingerprint := some (DigestLibrary.fingerprint x), certPem := some x, name := some name
    validFrom := some x.notBefore, validUntil := some x.notAfter }

/-- The name given, or else the common name, or else one made of the serial number. -/
def importedName (x : X509) (name : String) : String :=
  if name ≠ "" then name
  else
    let cn := (Name.commonNames x.subject).head?.getD ""
    if cn ≠ "" then cn else "Imported " ++ takeText 8 (decimalText x.serial)

def importedCertificate (s : MtlsState) (pem : CertPem) (name : String) (user : User)
    (refid : String) : Certificate :=
  let issuer := X509Library.rfc4514String pem.leaf.issuer
  { refid, descr := name
    caref := (s.store.cas.first fun c => c.subject = some issuer).map CA.refid
    crt := some (.base64 pem), certType := some "usr_cert"
    subject := some (X509Library.rfc4514String pem.leaf.subject)
    subjectCn := some ((Name.commonNames pem.leaf.subject).head?.getD "")
    issuer := some issuer, serialNumber := some (decimalText pem.leaf.serial)
    validFrom := some pem.leaf.notBefore, validTo := some pem.leaf.notAfter
    createdBy := some user.username }

/-- The store with a row for the certificate: the one that has its serial number, or a new
one. -/
def storeImported (s : MtlsState) (pem : CertPem) (name : String) (user : User)
    (refid : String) : Except Refusal Store :=
  match s.store.certificateBySerial (decimalText pem.leaf.serial) with
  | some _ => .ok s.store
  | none =>
    match s.store.addCertificate (importedCertificate s pem name user refid) with
    | .ok store => .ok store
    | .error _ => .error ⟨500, "Internal server error"⟩

/-- `enroll_import_certificate`. Only an administrator imports for another user. -/
def enrollImport [DigestLibrary] (s : MtlsState) (user : User) (pem : Option CertPem)
    (name : String) (userId : Option ℕ) (refid : String) :
    Except Refusal (Store × AuthCertificate) := do
  let pem ← orThrow pem ⟨400, "Invalid PEM certificate data"⟩
  let serial := decimalText pem.leaf.serial
  ensure (s.now ≤ pem.leaf.notAfter) ⟨400, "Cannot enroll expired certificate"⟩
  match s.accounts.enrolledAs serial with
  | some a =>
    throw (if a.userId = user.id then
      ⟨409, "This certificate is already enrolled to your account"⟩
      else ⟨409, "This certificate is already enrolled to another user"⟩)
  | none => pure ()
  let target :=
    if user.role = "admin" then (userId.bind s.accounts.users.get?).getD user else user
  let name := importedName pem.leaf name
  let store ← storeImported s pem name target refid
  return (store, pemEnrolment target.id pem.leaf serial name)

/-- `create_user_mtls_certificate` in its import mode. -/
def importForUser [DigestLibrary] (s : MtlsState) (userId : ℕ) (pem : Option CertPem)
    (name refid : String) : Except Refusal (Store × AuthCertificate) := do
  let target ← orThrow (s.accounts.users.get? userId) ⟨404, "User not found"⟩
  let pem ← orThrow pem ⟨400, "Invalid PEM certificate data"⟩
  let serial := decimalText pem.leaf.serial
  ensure (s.accounts.enrolledAs serial = none) ⟨409, "This certificate is already enrolled"⟩
  let name := importedName pem.leaf name
  let store ← storeImported s pem name target refid
  return (store, pemEnrolment userId pem.leaf serial name)

/-- Whose account an assigned certificate goes to: a user's own, unless an administrator names
another. Others than operators may only take what they made themselves. -/
def assignee (s : MtlsState) (user : User) (c : Certificate) (userId : Option ℕ) :
    Except Refusal User :=
  match userId with
  | some id =>
    if user.role = "admin" then orThrow (s.accounts.users.get? id) ⟨404, "Target user not found"⟩
    else own
  | none => own
where
  own : Except Refusal User := do
    ensure (user.role = "admin" ∨ user.role = "operator" ∨ c.createdBy = some user.username)
      ⟨403, "Not authorized to assign this certificate"⟩
    return user

/-- `assign_certificate` -/
def assignCertificate [DigestLibrary] (s : MtlsState) (user : User) (certId : ℕ)
    (userId : Option ℕ) (name : Option String) : Except Refusal (Store × AuthCertificate) := do
  let c ← orThrow (s.store.certificates.get? certId) ⟨404, "Certificate not found"⟩
  ensure (c.certType = some "usr_cert")
    ⟨400, "Only user certificates can be assigned for mTLS"⟩
  let target ← assignee s user c userId
  let serial ← orThrow c.serialNumber ⟨500, "Internal server error"⟩
  match s.accounts.enrolledAs serial with
  | some a =>
    throw (if a.userId = target.id then
      ⟨409, "This certificate is already assigned to this account"⟩
      else ⟨409, "This certificate is already assigned to another user"⟩)
  | none => pure ()
  match c.x509 with
  | .error _ => throw ⟨500, "Failed to parse certificate"⟩
  | .ok x =>
    let name := (name.filter (· ≠ "")).or ((some c.descr).filter (· ≠ ""))
    let name := name.or (c.subjectCn.filter (· ≠ ""))
    return (s.store, pemEnrolment target.id x serial
      (name.getD ("Certificate " ++ takeText 8 serial)))

def plan [DigestLibrary] (s : MtlsState) (user : User) :
    Enrolment → Except Refusal (Store × AuthCertificate)
  | .create data d => createMtlsCertificate s user data d
  | .presented p name => enrollPresented s user p name
  | .importPem pem name userId refid => enrollImport s user pem name userId refid
  | .assign certId userId name => assignCertificate s user certId userId name
  | .importFor userId pem name refid => importForUser s userId pem name refid

def Enrolment.permission : Enrolment → Option String
  | .importFor _ _ _ _ => some "admin:users"
  | _ => none

/-- A request to enrol. A certificate that was made stays when its enrolment fails. -/
def enrol [DigestLibrary] (s : MtlsState) (c : Credential) (e : Enrolment) : MtlsState :=
  match Administration.requireAuth s.accounts c e.permission with
  | .error _ => s
  | .ok user =>
    match plan s user e with
    | .error _ => s
    | .ok (store, a) =>
      { s with store, accounts := (s.accounts.addAuthCertificate a).getD s.accounts }

section Effects

variable {s : MtlsState} {user : User} {e : Enrolment} {st' : Store} {a : AuthCertificate}

theorem storeImported_cases {pem : CertPem} {name refid : String} {target : User}
    (h : storeImported s pem name target refid = .ok st') :
    st' = s.store ∨ ∃ row, row.prv = none ∧ row.revoked = false ∧
      s.store.addCertificate row = .ok st' := by
  unfold storeImported at h
  split at h
  next => exact .inl (Except.ok.inj h).symm
  next =>
    split at h
    next store hadd =>
      cases h
      exact .inr ⟨_, rfl, rfl, hadd⟩
    next => cases h

theorem createMtlsCertificate_eq_ok {data : NewCertificate} {d : Draw}
    (h : createMtlsCertificate s user data d = .ok (st', a)) :
    ∃ r row, CertificateService.createCertificate s.store r d = .ok st' ∧
      st'.certificates.get? s.store.certificates.nextKey = some row ∧
      a = createdEnrolment user r.descr row := by
  simp only [createMtlsCertificate, bind_eq_ok, orThrow_eq_ok] at h
  obtain ⟨ca, _, _, _, h⟩ := h
  split at h
  next => cases h
  next store hcreate =>
    simp only [bind_eq_ok, orThrow_eq_ok, pure_eq_ok, Prod.mk.injEq] at h
    obtain ⟨row, hrow, rfl, rfl⟩ := h
    exact ⟨_, row, hcreate, hrow, rfl⟩

theorem enrollImport_eq_ok [DigestLibrary] {pem : Option CertPem} {name refid : String}
    {userId : Option ℕ} (h : enrollImport s user pem name userId refid = .ok (st', a)) :
    ∃ p name target, storeImported s p name target refid = .ok st' ∧
      a = pemEnrolment target.id p.leaf (decimalText p.leaf.serial) name := by
  simp only [enrollImport, bind_eq_ok] at h
  obtain ⟨p, _, _, _, h⟩ := h
  split at h
  next => cases h
  next =>
    simp only [bind_eq_ok, pure_eq_ok, Prod.mk.injEq] at h
    obtain ⟨store, hstore, rfl, rfl⟩ := h
    exact ⟨p, _, _, hstore, rfl⟩

theorem importForUser_eq_ok [DigestLibrary] {pem : Option CertPem} {name refid : String}
    {userId : ℕ} (h : importForUser s userId pem name refid = .ok (st', a)) :
    ∃ p name target, storeImported s p name target refid = .ok st' ∧
      a = pemEnrolment userId p.leaf (decimalText p.leaf.serial) name := by
  simp only [importForUser, bind_eq_ok, pure_eq_ok, Prod.mk.injEq] at h
  obtain ⟨target, _, p, _, _, _, store, hstore, rfl, rfl⟩ := h
  exact ⟨p, _, target, hstore, rfl⟩

theorem assignCertificate_eq_ok [DigestLibrary] {certId : ℕ} {userId : Option ℕ}
    {name : Option String} (h : assignCertificate s user certId userId name = .ok (st', a)) :
    st' = s.store ∧ ∃ c target x name serial, s.store.certificates.get? certId = some c ∧
      assignee s user c userId = .ok target ∧ c.serialNumber = some serial ∧
      a = pemEnrolment target.id x serial name := by
  simp only [assignCertificate, bind_eq_ok, orThrow_eq_ok] at h
  obtain ⟨c, hc, _, _, target, htarget, serial, hserial, h⟩ := h
  split at h
  next => cases h
  next =>
    split at h
    next => cases h
    next x _ =>
      cases h
      exact ⟨rfl, c, target, x, _, serial, hc, htarget, hserial, rfl⟩

theorem enrollPresented_eq_ok [DigestLibrary] {p : Option Presented} {name : Option String}
    (h : enrollPresented s user p name = .ok (st', a)) : st' = s.store ∧ a.userId = user.id := by
  simp only [enrollPresented, bind_eq_ok, pure_eq_ok, Prod.mk.injEq] at h
  obtain ⟨_, _, _, _, _, _, _, _, _, _, rfl, rfl⟩ := h
  exact ⟨rfl, rfl⟩

theorem plan_cases [DigestLibrary] (h : plan s user e = .ok (st', a)) :
    (∃ data d, e = .create data d ∧ createMtlsCertificate s user data d = .ok (st', a)) ∨
      st' = s.store ∨ ∃ row, row.prv = none ∧ row.revoked = false ∧
        s.store.addCertificate row = .ok st' := by
  cases e with
  | create data d => exact .inl ⟨data, d, rfl, h⟩
  | presented p name => exact .inr (.inl (enrollPresented_eq_ok h).1)
  | importPem pem name userId refid =>
    obtain ⟨p, name, target, hstore, _⟩ := enrollImport_eq_ok h
    exact .inr (storeImported_cases hstore)
  | assign certId userId name => exact .inr (.inl (assignCertificate_eq_ok h).1)
  | importFor userId pem name refid =>
    obtain ⟨p, name, target, hstore, _⟩ := importForUser_eq_ok h
    exact .inr (storeImported_cases hstore)

end Effects

end Routes

@[reducible] def sampleDigests : DigestLibrary := ⟨fun x => upperHexText x.serial⟩

end Mtls

end CaManager
