import CaManager.Store.Imports

/-!
# Signing requests

The routes that store a signing request of somebody else's, and the two that attach a private key
to a row that has none. A key for a certificate is compared with the certificate; a key for a
request is stored as it comes.
-/

namespace CaManager

open Library

/-- What the body of a request brings: nothing, a file that is refused, or the text of a signing
request with what parsing it gives. -/
inductive CsrText
  | missing
  | refused
  | text (parsed : Except PyError Csr)

/-- An upload of a signing request, and the name asked for. -/
structure CsrUpload where
  pem : CsrText
  name : String := ""
  username : String := "system"

/-- What reading the key of a request body gives. A key that was read can be written in the
traditional format or not. -/
inductive UploadedKey
  | missing
  | undecodable
  | notAKey
  | locked
  | unloadable
  | loaded (key : KeyPem) (traditional : Bool)
  deriving DecidableEq

namespace Routes

section Requests

def lastAttribute (n : Name) (oid : String) : Option String :=
  ((n.filter fun a => a.oid = oid).map NameAttribute.value).getLast?

/-- The subject column of `upload_csr`, which has a format of its own. -/
def uploadedSubject (n : Name) : String :=
  let part (label oid : String) :=
    (CertificateService.nonEmpty (lastAttribute n oid)).map fun value => label ++ value
  let parts := [part "CN=" commonNameOid, part "O=" "2.5.4.10", part "OU=" "2.5.4.11"].filterMap id
  if parts.isEmpty then "Unknown" else ", ".intercalate parts

/-- `name or cn or fallback` -/
def requestName (u : CsrUpload) (csr : Csr) (fallback : String) : String :=
  ((CertificateService.nonEmpty (some u.name)).or
    (CertificateService.nonEmpty (lastAttribute csr.subject commonNameOid))).getD fallback

/-- The row `upload_csr` stores. -/
def uploadedCsr (u : CsrUpload) (csr : Csr) (refid : String) : Certificate :=
  { refid, descr := requestName u csr "Uploaded CSR", subject := some (uploadedSubject csr.subject)
    csr := some (.base64 csr), source := some "upload", createdBy := some u.username }

/-- `upload_csr`, whose body is JSON and brings no file. -/
def uploadCsr (st : Store) (u : CsrUpload) (refid : String) : Response × Store :=
  match u.pem with
  | .text parsed =>
    match parsed >>= fun csr => st.addCertificate (uploadedCsr u csr refid) with
    | .ok st' => (⟨201, "CSR uploaded successfully"⟩, st')
    | .error _ => (⟨500, "Failed to upload CSR"⟩, st)
  | _ => (⟨400, "PEM content required"⟩, st)

theorem uploadCsr_cases (st : Store) (u : CsrUpload) (refid : String) :
    (uploadCsr st u refid).2 = st ∨
      ∃ csr, st.addCertificate (uploadedCsr u csr refid) = .ok (uploadCsr st u refid).2 := by
  unfold uploadCsr
  split
  next parsed _ =>
    split
    next st' hst' =>
      obtain ⟨csr, _, hadd⟩ := bind_eq_ok.mp hst'
      exact .inr ⟨csr, hadd⟩
    next => exact .inl rfl
  next => exact .inl rfl

variable [X509Library]

/-- The row `import_csr` stores. -/
def importedCsr (u : CsrUpload) (csr : Csr) (names : List GeneralName) (refid : String) :
    Certificate :=
  { refid, descr := requestName u csr "Imported CSR"
    subject := some (X509Library.rfc4514String csr.subject), csr := some (.base64 csr)
    sanDns := CertificateService.storedNames (names.filterMap GeneralName.dnsName?)
    sanIp := CertificateService.storedNames (names.filterMap GeneralName.ipAddress?)
    sanEmail := CertificateService.storedNames (names.filterMap GeneralName.rfc822Name?)
    createdBy := some "import" }

/-- The part of `import_csr` whose exceptions roll back. -/
def tryImportCsr (st : Store) (u : CsrUpload) (parsed : Except PyError Csr) (refid : String) :
    Except PyError (String × Store) := do
  let csr ← parsed
  let extensions ← csr.extensions
  let row := importedCsr u csr (alternativeNames extensions) refid
  let st ← st.addCertificate row
  return (row.descr, st)

def importCsr (st : Store) (u : CsrUpload) (refid : String) : Response × Store :=
  match u.pem with
  | .missing => (⟨400, "No file or PEM content provided"⟩, st)
  | .refused => (⟨400, "Invalid file upload"⟩, st)
  | .text parsed =>
    match tryImportCsr st u parsed refid with
    | .ok (descr, st') => (⟨201, quoted "CSR" descr "imported successfully"⟩, st')
    | .error _ => (⟨500, "Import failed"⟩, st)

theorem importCsr_cases (st : Store) (u : CsrUpload) (refid : String) :
    (importCsr st u refid).2 = st ∨
      ∃ csr names, st.addCertificate (importedCsr u csr names refid) =
        .ok (importCsr st u refid).2 := by
  unfold importCsr
  split
  next => exact .inl rfl
  next => exact .inl rfl
  next parsed _ =>
    split
    next descr st' hst' =>
      simp only [tryImportCsr, bind_eq_ok, pure_eq_ok, Prod.mk.injEq] at hst'
      obtain ⟨csr, _, extensions, _, st'', hadd, _, rfl⟩ := hst'
      exact .inr ⟨csr, _, hadd⟩
    next => exact .inl rfl

end Requests

section Keys

def UploadedKey.read : UploadedKey → Except Response (KeyPem × Bool)
  | .missing => .error ⟨400, "Private key is required"⟩
  | .undecodable => .error ⟨400, "Invalid key format - must be PEM or base64-encoded PEM"⟩
  | .notAKey => .error ⟨400, "Invalid private key format"⟩
  | .locked => .error ⟨400, "Private key is encrypted - please provide passphrase"⟩
  | .unloadable => .error ⟨400, "Invalid private key format"⟩
  | .loaded key traditional => .ok (key, traditional)

def keyedRow (st : Store) (key : KeyPem) (row : Certificate) : Certificate :=
  { row with prv := some ((Encoded.base64 key).encrypt st.keyEncryptionKey) }

def storeKey (st : Store) (certId : ℕ) (key : KeyPem) (traditional : Bool) : Response × Store :=
  if traditional then
    (⟨200, "Private key uploaded successfully"⟩, st.setCertificate certId (keyedRow st key))
  else (⟨500, "Failed to upload private key"⟩, st)

/-- The comparison of a key with the certificate of a row, if the row holds one. -/
def verifyKey (row : Certificate) (key : KeyPem) : Except Response Unit :=
  match row.crt with
  | none => .ok ()
  | some _ =>
    match row.x509 with
    | .error _ => .error ⟨400, "Failed to verify key matches certificate"⟩
    | .ok x =>
      ensure (x.publicKey = key.publicKey)
        ⟨400, "Private key does not match certificate public key"⟩

/-- `upload_private_key` of the certificate routes. -/
def uploadPrivateKey (st : Store) (certId : ℕ) (u : UploadedKey) : Response × Store :=
  match st.certificates.get? certId with
  | none => (⟨404, "Certificate not found"⟩, st)
  | some row =>
    if row.prv.isSome then (⟨400, "Certificate already has a private key"⟩, st)
    else
      match UploadedKey.read u with
      | .error answer => (answer, st)
      | .ok (key, traditional) =>
        match verifyKey row key with
        | .error answer => (answer, st)
        | .ok _ => storeKey st certId key traditional

/-- `upload_csr_private_key` of the request routes. The request is not looked at. -/
def uploadCsrPrivateKey (st : Store) (csrId : ℕ) (u : UploadedKey) : Response × Store :=
  match st.certificates.get? csrId with
  | none => (⟨404, "CSR not found"⟩, st)
  | some row =>
    if row.csr.isNone || row.crt.isSome then (⟨400, "Not a pending CSR"⟩, st)
    else if row.prv.isSome then (⟨400, "CSR already has a private key"⟩, st)
    else
      match UploadedKey.read u with
      | .error answer => (answer, st)
      | .ok (key, traditional) => storeKey st csrId key traditional

variable {st : Store}

theorem verifyKey_eq_ok {row : Certificate} {key : KeyPem} (h : verifyKey row key = .ok ()) :
    row.crt = none ∨ ∃ x, row.x509 = .ok x ∧ x.publicKey = key.publicKey := by
  unfold verifyKey at h
  split at h
  next hnone => exact .inl hnone
  next =>
    split at h
    · cases h
    next x hx => exact .inr ⟨x, hx, ensure_eq_ok.mp h⟩

theorem storeKey_cases (st : Store) (certId : ℕ) (key : KeyPem) (traditional : Bool) :
    traditional = false ∧ (storeKey st certId key traditional).2 = st ∨
      traditional = true ∧
        (storeKey st certId key traditional).2 = st.setCertificate certId (keyedRow st key) := by
  cases traditional with
  | false => exact .inl ⟨rfl, rfl⟩
  | true => exact .inr ⟨rfl, rfl⟩

theorem uploadPrivateKey_cases (st : Store) (certId : ℕ) (u : UploadedKey) :
    (uploadPrivateKey st certId u).2 = st ∨
      ∃ row key, st.certificates.get? certId = some row ∧ row.prv = none ∧ u = .loaded key true ∧
        (row.crt = none ∨ ∃ x, row.x509 = .ok x ∧ x.publicKey = key.publicKey) ∧
        (uploadPrivateKey st certId u).2 = st.setCertificate certId (keyedRow st key) := by
  unfold uploadPrivateKey
  split
  next => exact .inl rfl
  next row hrow =>
    split_ifs with hprv
    · exact .inl rfl
    · cases u with
      | loaded key traditional =>
        simp only [UploadedKey.read]
        split
        next => exact .inl rfl
        next hverify =>
          rcases storeKey_cases st certId key traditional with ⟨_, heq⟩ | ⟨rfl, heq⟩
          · exact .inl heq
          · exact .inr ⟨row, key, hrow, Option.not_isSome_iff_eq_none.mp hprv, rfl,
              verifyKey_eq_ok hverify, heq⟩
      | _ => exact .inl rfl

theorem uploadCsrPrivateKey_cases (st : Store) (csrId : ℕ) (u : UploadedKey) :
    (uploadCsrPrivateKey st csrId u).2 = st ∨
      ∃ row key, st.certificates.get? csrId = some row ∧ row.prv = none ∧ row.crt = none ∧
        u = .loaded key true ∧
        (uploadCsrPrivateKey st csrId u).2 = st.setCertificate csrId (keyedRow st key) := by
  unfold uploadCsrPrivateKey
  split
  next => exact .inl rfl
  next row hrow =>
    split_ifs with hpending hprv
    · exact .inl rfl
    · exact .inl rfl
    · cases u with
      | loaded key traditional =>
        simp only [Bool.or_eq_true, not_or, Option.not_isSome_iff_eq_none] at hpending
        rcases storeKey_cases st csrId key traditional with ⟨_, heq⟩ | ⟨rfl, heq⟩
        · exact .inl heq
        · exact .inr ⟨row, key, hrow, Option.not_isSome_iff_eq_none.mp hprv, hpending.2, rfl, heq⟩
      | _ => exact .inl rfl

end Keys

end Routes

end CaManager
