import CaManager.Store.Routes

/-!
# Authorities

Creating an authority with a new key, and importing one with or without its key. A new key is
encrypted when encryption is configured; an imported one is stored as it comes.
-/

namespace CaManager

open Library

/-- The key identifier of a public key, in hexadecimal. -/
class KeyIdLibrary where
  keyIdText : PublicKey → String

def Store.addCa (st : Store) (row : CA) : Except PyError Store :=
  if (st.cas.first fun c => c.refid = row.refid).isSome then
    .error (.integrityError "certificate_authorities.refid")
  else .ok { st with cas := st.cas.insert row }

theorem Store.addCa_eq_ok {st st' : Store} {row : CA} (hadd : st.addCa row = .ok st') :
    (st.cas.first fun c => c.refid = row.refid) = none ∧
      st' = { st with cas := st.cas.insert row } := by
  unfold Store.addCa at hadd
  split_ifs at hadd with hfound
  rw [Option.not_isSome_iff_eq_none] at hfound
  exact ⟨hfound, (Except.ok.inj hadd).symm⟩

def Store.setCa (st : Store) (id : ℕ) (f : CA → CA) : Store :=
  { st with cas := st.cas.update id f }

def newCa (refid descr : String) (crt : Encoded CertPem) (prv : Option (Encoded KeyPem)) : CA :=
  { id := 0, refid, descr, crt, prv, serial := some 0, subject := none, cdpEnabled := false
    cdpUrl := none, deltaCrlEnabled := false, ocspEnabled := false, ocspUrl := none
    hsmKeyId := none }

section Identifiers

variable [KeyIdLibrary]

/-- The subject key identifier; whatever goes wrong in reading it, there is none. -/
def subjectKeyId (x : X509) : Option String :=
  match readExtensions x.extensions with
  | .error _ => none
  | .ok extensions =>
    match extensionForOid extensions "2.5.29.14" with
    | some ⟨.subjectKeyIdentifier key, _⟩ => some (KeyIdLibrary.keyIdText key)
    | _ => none

def authorityKeyId (x : X509) : Option String :=
  match readExtensions x.extensions with
  | .error _ => none
  | .ok extensions =>
    match extensionForOid extensions "2.5.29.35" with
    | some ⟨.authorityKeyIdentifier key, _⟩ => some (KeyIdLibrary.keyIdText key)
    | _ => none

end Identifiers

namespace CAService

/-- What a caller asks `create_internal_ca` for. -/
structure CreateRequest where
  descr : String
  subject : Name
  keyType : String := "2048"
  validityDays : ℤ := 825
  caref : Option String := none
  ocspUri : Option String := none
  username : String := "system"
  deriving Repr, DecidableEq

/-- The parent's subject and unsealed key, for an authority that has a parent. -/
def parentSigner (st : Store) (parent : CA) : Except PyError (Name × PublicKey) := do
  let cert ← parent.certificate
  ensure (parent.prv.isSome = true) (.valueError "Parent CA has no private key")
  let key ← parent.decryptedPrivateKey st.keyEncryptionKey
  return (cert.subject, key)

/-- The row `create_internal_ca` stores. -/
def createdCa [X509Library] [KeyIdLibrary] (st : Store) (r : CreateRequest) (x : X509)
    (key : PublicKey) (d : Draw) : CA :=
  { newCa d.refid r.descr (.base64 ⟨x, []⟩)
      (some ((Encoded.base64 ⟨key⟩).encrypt st.keyEncryptionKey)) with
    caref := r.caref, subject := some (X509Library.rfc4514String x.subject)
    issuer := some (X509Library.rfc4514String x.issuer), ski := subjectKeyId x
    validFrom := some x.notBefore, validTo := some x.notAfter
    importedFrom := some "generated", createdBy := some r.username }

def createInternalCa [X509Library] [KeyIdLibrary] (st : Store) (r : CreateRequest) (d : Draw) :
    Except PyError Store := do
  let privateKey ← TrustStoreService.generatePrivateKey r.keyType d.keyId
  match r.caref.filter (· ≠ "") with
  | none =>
    let x ← TrustStoreService.createCaCertificate r.subject privateKey none r.validityDays
      (r.ocspUri.filter (· ≠ "")) d.serial d.now
    st.addCa (createdCa st r x privateKey d)
  | some caref =>
    let parent ← orThrow (st.cas.first fun c => c.refid = caref)
      (.valueError s!"Parent CA not found: {caref}")
    let signer ← parentSigner st parent
    let x ← TrustStoreService.createCaCertificate r.subject privateKey (some signer)
      r.validityDays (r.ocspUri.filter (· ≠ "")) d.serial d.now
    (st.countSerial parent).addCa (createdCa st r x privateKey d)

/-- The row `import_ca` stores. -/
def importedCa [X509Library] (descr : String) (pem : CertPem) (key : Option KeyPem)
    (username refid : String) : CA :=
  { newCa refid descr (.base64 pem) (key.map Encoded.base64) with
    subject := some (X509Library.rfc4514String pem.leaf.subject)
    issuer := some (X509Library.rfc4514String pem.leaf.issuer)
    validFrom := some pem.leaf.notBefore, validTo := some pem.leaf.notAfter
    importedFrom := some "manual", createdBy := some username }

def saysCa : ExtensionValue → Bool
  | .basicConstraints ca _ => ca
  | _ => false

def importCa [X509Library] (st : Store) (descr : String) (pem : CertPem) (key : Option KeyPem)
    (username refid : String) : Except PyError Store := do
  let extensions ← readExtensions pem.leaf.extensions
  match extensionForOid extensions "2.5.29.19" with
  | none => throw (.valueError "Certificate has no BasicConstraints extension")
  | some e =>
    ensure (saysCa e.value = true) (.valueError "Certificate is not a CA certificate")
    st.addCa (importedCa descr pem key username refid)

end CAService

end CaManager
