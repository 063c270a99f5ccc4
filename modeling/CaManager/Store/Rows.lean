import CaManager.Library.Climbing
import CaManager.Library.Encoding
import CaManager.Library.Numerals
import CaManager.Library.Tables
import CaManager.X509

/-!
# The rows of the certificate store

The tables that issuing, revoking, revocation lists and status responses work on, with the
columns those operations read or write. Certificate, request and key columns are text that
holds PEM, PEM in base64, or a sealed key; `Encoded` says which. Serial numbers of stored
certificates are text.
-/

namespace CaManager

open Library

/-- PEM text of one or more certificates. Loading it gives the first. -/
structure CertPem where
  leaf : X509
  chain : List X509 := []
  deriving Repr, DecidableEq

structure KeyPem where
  publicKey : PublicKey
  deriving Repr, DecidableEq

structure CA where
  id : ℕ
  refid : String
  descr : String
  crt : Encoded CertPem
  prv : Option (Encoded KeyPem)
  serial : Option ℕ
  subject : Option String
  cdpEnabled : Bool
  cdpUrl : Option String
  deltaCrlEnabled : Bool
  ocspEnabled : Bool
  ocspUrl : Option String
  hsmKeyId : Option ℕ
  caref : Option String := none
  issuer : Option String := none
  serialNumber : Option String := none
  ski : Option String := none
  validFrom : Option Time := none
  validTo : Option Time := none
  importedFrom : Option String := none
  createdBy : Option String := none
  deltaCrlInterval : Option ℤ := some 4
  deriving Repr, DecidableEq

structure Certificate where
  id : ℕ := 0
  refid : String
  descr : String
  caref : Option String := none
  crt : Option (Encoded CertPem) := none
  csr : Option (Encoded Csr) := none
  prv : Option (Encoded KeyPem) := none
  certType : Option String := none
  subject : Option String := none
  subjectCn : Option String := none
  issuer : Option String := none
  serialNumber : Option String := none
  aki : Option String := none
  ski : Option String := none
  validFrom : Option Time := none
  validTo : Option Time := none
  keyAlgo : Option String := none
  sanDns : Option (List String) := none
  sanIp : Option (List String) := none
  sanEmail : Option (List String) := none
  sanUri : Option (List String) := none
  ocspUri : Option String := none
  privateKeyLocation : Option String := some "stored"
  revoked : Bool := false
  revokedAt : Option Time := none
  revokeReason : Option String := none
  importedFrom : Option String := none
  createdBy : Option String := none
  source : Option String := some "manual"
  templateId : Option ℕ := none
  deriving Repr, DecidableEq

/-- A stored revocation list. The PEM and DER columns hold the same list. -/
structure CrlMetadata where
  id : ℕ := 0
  caId : ℕ
  crlNumber : ℕ
  thisUpdate : Time
  nextUpdate : Time
  crl : Crl
  revokedCount : ℕ
  generatedBy : String
  isDelta : Bool
  baseCrlNumber : Option ℕ
  createdAt : Time := thisUpdate
  deriving Repr, DecidableEq

inductive CertStatus
  | good
  | revoked
  | unknown
  deriving Repr, DecidableEq

inductive OcspFailure
  | malformedRequest
  | internalError
  | unauthorized
  deriving Repr, DecidableEq

inductive OcspDer
  | unsuccessful (failure : OcspFailure)
  | successful (status : CertStatus) (serial : ℤ) (issuer : Name) (thisUpdate nextUpdate : Time)
      (revocationTime : Option Time) (revocationReason : Option ReasonFlag)
      (nonce : Option String) (signedBy : PublicKey)
  deriving Repr, DecidableEq

structure OcspResponse where
  id : ℕ := 0
  caId : ℕ
  certSerial : String
  responseDer : OcspDer
  status : String
  thisUpdate : Time
  nextUpdate : Time
  revocationTime : Option Time
  revocationReason : Option ReasonFlag
  deriving Repr, DecidableEq

instance : Keyed CA := ⟨CA.id, fun k c => { c with id := k }, fun _ _ => rfl, fun _ => rfl⟩

instance : Keyed Certificate :=
  ⟨Certificate.id, fun k c => { c with id := k }, fun _ _ => rfl, fun _ => rfl⟩

instance : Keyed CrlMetadata :=
  ⟨CrlMetadata.id, fun k c => { c with id := k }, fun _ _ => rfl, fun _ => rfl⟩

instance : Keyed OcspResponse :=
  ⟨OcspResponse.id, fun k c => { c with id := k }, fun _ _ => rfl, fun _ => rfl⟩

/-- The tables, with the key that seals private keys at rest if one is configured. -/
structure Store where
  cas : Table CA
  certificates : Table Certificate
  crls : Table CrlMetadata
  ocspResponses : Table OcspResponse
  keyEncryptionKey : Option ℕ
  deriving DecidableEq

@[simp] theorem key_certificate (c : Certificate) : Keyed.key c = c.id := rfl

@[simp] theorem key_ca (c : CA) : Keyed.key c = c.id := rfl

@[simp] theorem withKey_ca (k : ℕ) (c : CA) : Keyed.withKey k c = { c with id := k } := rfl

@[simp] theorem withKey_certificate (k : ℕ) (c : Certificate) :
    Keyed.withKey k c = { c with id := k } := rfl

namespace CA

/-- The certificate in the `crt` column, which holds base64 of PEM. -/
def certificate (ca : CA) : Except PyError X509 :=
  match ca.crt.decoded with
  | some pem => .ok pem.leaf
  | none => .error (.unloadable "certificate")

def hasPrivateKey (ca : CA) : Bool :=
  ca.prv.isSome || ca.hsmKeyId.isSome

def privateKey (ca : CA) : Except PyError PublicKey :=
  match ca.prv.bind Encoded.decoded with
  | some pem => .ok pem.publicKey
  | none => .error (.unloadable "private key")

def decryptedPrivateKey (keyEncryptionKey : Option ℕ) (ca : CA) : Except PyError PublicKey :=
  match ca.prv.bind (Encoded.decrypt keyEncryptionKey) with
  | some e =>
    match e.decoded with
    | some pem => .ok pem.publicKey
    | none => .error (.unloadable "private key")
  | none => .error (.valueError "Encryption key not configured")

end CA

namespace Certificate

/-- The certificate in the `crt` column, which holds base64 of PEM. -/
def x509 (c : Certificate) : Except PyError X509 :=
  match c.crt.bind Encoded.decoded with
  | some pem => .ok pem.leaf
  | none => .error (.unloadable "certificate")

/-- The text columns that a query or an attribute access can name, by attribute name. -/
def textColumn : String → Option (Certificate → Option String)
  | "refid" => some fun c => some c.refid
  | "descr" => some fun c => some c.descr
  | "caref" => some Certificate.caref
  | "cert_type" => some Certificate.certType
  | "subject" => some Certificate.subject
  | "subject_cn" => some Certificate.subjectCn
  | "issuer" => some Certificate.issuer
  | "serial_number" => some Certificate.serialNumber
  | "aki" => some Certificate.aki
  | "ski" => some Certificate.ski
  | "key_algo" => some Certificate.keyAlgo
  | "ocsp_uri" => some Certificate.ocspUri
  | "private_key_location" => some Certificate.privateKeyLocation
  | "revoke_reason" => some Certificate.revokeReason
  | "imported_from" => some Certificate.importedFrom
  | "created_by" => some Certificate.createdBy
  | "source" => some Certificate.source
  | _ => none

def getAttribute (c : Certificate) (name : String) : Except PyError (Option String) :=
  match textColumn name with
  | some column => .ok (column c)
  | none => .error (.attributeError "Certificate" name)

end Certificate

/-- The rows whose named column has a value. A name without a column is refused. -/
def Store.filterBy (st : Store) (name value : String) : Except PyError (List Certificate) :=
  match Certificate.textColumn name with
  | some column => .ok (st.certificates.select fun c => column c = some value)
  | none => .error (.invalidRequest "Certificate" name)

/-- `format(serial, 'x')` -/
def hexText (serial : ℤ) : String := String.ofList (writeInt 16 serial)

/-- `str(serial)` -/
def decimalText (serial : ℤ) : String := String.ofList (writeInt 10 serial)

theorem readInt_decimalText (serial : ℤ) : readInt 10 (decimalText serial).toList = some serial := by
  rw [decimalText, String.toList_ofList, readInt_writeInt (by decide) (by decide)]

theorem decimalText_injective : Function.Injective decimalText := by
  intro serial serial' h
  have hread := readInt_decimalText serial
  rw [h, readInt_decimalText] at hread
  exact (Option.some.inj hread).symm

theorem hexText_eq_decimalText {serial : ℤ} (h : serial.natAbs < 10) :
    hexText serial = decimalText serial := by
  rw [hexText, decimalText, writeInt_eq_of_natAbs_lt (by omega) h]

end CaManager

/-!
# The parents of authorities

An authority refers to its parent by the parent's reference. The reference may be missing, or name
no authority.
-/

namespace CaManager

open Library

namespace Store

def caByRef (st : Store) (refid : String) : Option CA := st.cas.first fun ca => ca.refid = refid

def issuerOf (st : Store) (caref : Option String) : Option CA :=
  (caref.filter (· ≠ "")).bind st.caByRef

def parentCa (st : Store) (ca : CA) : Option CA := st.issuerOf ca.caref

section Parents

variable {st : Store} {ca : CA} {caref : Option String}

theorem refid_of_caByRef {refid : String} (h : st.caByRef refid = some ca) : ca.refid = refid := by
  have hrefid := Table.holds_of_first h
  simpa using hrefid

theorem mem_of_issuerOf (h : st.issuerOf caref = some ca) : ca ∈ st.cas.rows := by
  obtain ⟨refid, _, hca⟩ := Option.bind_eq_some_iff.mp h
  exact Table.mem_of_first hca

theorem caByRef_of_issuerOf (h : st.issuerOf caref = some ca) : st.caByRef ca.refid = some ca := by
  obtain ⟨refid, _, hca⟩ := Option.bind_eq_some_iff.mp h
  rwa [refid_of_caByRef hca]

end Parents

end Store

end CaManager
