import Mathlib.Algebra.Order.Ring.Int
import Mathlib.Data.List.Basic

/-!
# X.509 objects

The certificates, signing requests and revocation lists that the program builds and reads
through its X.509 library. Objects are modelled by their parsed contents: a signature is the
public key it verifies under, and reading an object that was written gives the object back.
What the library refuses to build is refused here with the same exceptions. The text form of
a name is the library's own and stays a parameter.
-/

namespace CaManager

/-- Exceptions that reach the program, with the text they carry where the program wrote it. -/
inductive PyError
  | valueError (message : String)
  | attributeError (object name : String)
  | keyError (key : String)
  | invalidRequest (entity name : String)
  | integrityError (column : String)
  | duplicateExtension (oid : String)
  | unloadable (what : String)
  deriving Repr, DecidableEq

/-- `str(e)` -/
def PyError.text : PyError → String
  | valueError message => message
  | attributeError object name => s!"'{object}' object has no attribute '{name}'"
  | keyError key => s!"'{key}'"
  | invalidRequest entity name => s!"Entity namespace for {entity} has no property {name}"
  | integrityError column => s!"UNIQUE constraint failed: {column}"
  | duplicateExtension oid => s!"Duplicate {oid} extension found"
  | unloadable what => s!"Unable to load {what}"

abbrev Time := ℤ

/-- The seconds of a `timedelta(days=…)`. -/
def days (n : ℤ) : ℤ := n * 86400

inductive KeyKind
  | rsa (bits : ℕ)
  | ec (curve : String)
  | other
  deriving Repr, DecidableEq

/-- A public key. Its private half is the key that can sign under it. -/
structure PublicKey where
  kind : KeyKind
  id : ℕ
  deriving Repr, DecidableEq

structure NameAttribute where
  oid : String
  value : String
  deriving Repr, DecidableEq

abbrev Name := List NameAttribute

def commonNameOid : String := "2.5.4.3"

def Name.commonNames (n : Name) : List String :=
  (n.filter fun a => a.oid = commonNameOid).map NameAttribute.value

inductive HashAlgorithm
  | sha1
  | sha256
  | other
  deriving Repr, DecidableEq

/-- What the X.509 library gives beyond the contents of an object: the text of a name, and
the digest of its encoding. -/
class X509Library where
  rfc4514String : Name → String
  nameDigest : HashAlgorithm → Name → String

inductive GeneralName
  | dns (value : String)
  | ip (value : String)
  | email (value : String)
  | uri (value : String)
  | other (kind value : String)
  deriving Repr, DecidableEq

namespace GeneralName

def dnsName? : GeneralName → Option String
  | dns v => some v
  | _ => none

def ipAddress? : GeneralName → Option String
  | ip v => some v
  | _ => none

def rfc822Name? : GeneralName → Option String
  | email v => some v
  | _ => none

def uri? : GeneralName → Option String
  | uri v => some v
  | _ => none

end GeneralName

structure KeyUsage where
  digitalSignature : Bool
  keyEncipherment : Bool
  contentCommitment : Bool
  dataEncipherment : Bool
  keyAgreement : Bool
  keyCertSign : Bool
  crlSign : Bool
  encipherOnly : Bool
  decipherOnly : Bool
  deriving Repr, DecidableEq

inductive ExtendedUsage
  | serverAuth
  | clientAuth
  | codeSigning
  | emailProtection
  | other (oid : String)
  deriving Repr, DecidableEq

inductive ExtensionValue
  | basicConstraints (ca : Bool) (pathLength : Option ℕ)
  | keyUsage (usage : KeyUsage)
  | extendedKeyUsage (usages : List ExtendedUsage)
  | subjectAlternativeName (names : List GeneralName)
  | subjectKeyIdentifier (key : PublicKey)
  | authorityKeyIdentifier (key : PublicKey)
  | ocspAccess (url : String)
  | crlDistributionPoint (url : String)
  | other (oid value : String)
  deriving Repr, DecidableEq

def ExtensionValue.oid : ExtensionValue → String
  | basicConstraints _ _ => "2.5.29.19"
  | keyUsage _ => "2.5.29.15"
  | extendedKeyUsage _ => "2.5.29.37"
  | subjectAlternativeName _ => "2.5.29.17"
  | subjectKeyIdentifier _ => "2.5.29.14"
  | authorityKeyIdentifier _ => "2.5.29.35"
  | ocspAccess _ => "1.3.6.1.5.5.7.1.1"
  | crlDistributionPoint _ => "2.5.29.31"
  | other oid _ => oid

structure Extension where
  value : ExtensionValue
  critical : Bool
  deriving Repr, DecidableEq

def Extension.oid (e : Extension) : String := e.value.oid

def extensionForOid (es : List Extension) (oid : String) : Option Extension :=
  es.find? fun e => e.oid = oid

def alternativeNames (es : List Extension) : List GeneralName :=
  es.flatMap fun e => match e.value with
    | .subjectAlternativeName names => names
    | _ => []

structure X509 where
  serial : ℤ
  subject : Name
  issuer : Name
  publicKey : PublicKey
  /-- The key under which the signature verifies. -/
  signedBy : PublicKey
  notBefore : Time
  notAfter : Time
  extensions : List Extension
  deriving Repr, DecidableEq

/-- A certificate signing request, with the extensions in the order they were encoded. -/
structure Csr where
  subject : Name
  publicKey : PublicKey
  isSignatureValid : Bool
  encodedExtensions : List Extension
  deriving Repr, DecidableEq

def readExtensions (encoded : List Extension) : Except PyError (List Extension) :=
  match encoded.find? fun e => 1 < encoded.countP (·.oid = e.oid) with
  | some e => .error (.duplicateExtension e.oid)
  | none => .ok encoded

theorem readExtensions_eq_ok {encoded extensions : List Extension}
    (h : readExtensions encoded = .ok extensions) : extensions = encoded := by
  unfold readExtensions at h
  split at h
  next => cases h
  next => exact (Except.ok.inj h).symm

def Csr.extensions (csr : Csr) : Except PyError (List Extension) :=
  readExtensions csr.encodedExtensions

def maxSerialBits : ℕ := 159

/-- A draw of `random_serial_number`. -/
structure RandomSerial where
  value : ℕ
  bounded : value < 2 ^ maxSerialBits
  deriving Repr, DecidableEq

def checkSerial (serial : ℤ) : Except PyError ℤ :=
  if serial ≤ 0 then .error (.valueError "The serial number should be positive.")
  else if 2 ^ maxSerialBits ≤ serial then
    .error (.valueError "The serial number should not be more than 159 bits.")
  else .ok serial

/-- What a certificate builder has collected when it signs. -/
structure CertificateBuilder where
  subject : Name
  issuer : Name
  publicKey : PublicKey
  serial : ℤ
  notBefore : Time
  notAfter : Time
  extensions : List Extension := []
  deriving Repr, DecidableEq

namespace CertificateBuilder

/-- Adding an extension whose object identifier is already there is refused. -/
def addExtension (b : CertificateBuilder) (value : ExtensionValue) (critical : Bool) :
    Except PyError CertificateBuilder :=
  if (extensionForOid b.extensions value.oid).isSome then
    .error (.valueError "This extension has already been set.")
  else .ok { b with extensions := b.extensions ++ [⟨value, critical⟩] }

def sign (b : CertificateBuilder) (key : PublicKey) : Except PyError X509 := do
  let serial ← checkSerial b.serial
  if b.notAfter < b.notBefore then
    throw (.valueError "The not valid after date must be after the not valid before date.")
  return { serial, subject := b.subject, issuer := b.issuer, publicKey := b.publicKey,
           signedBy := key, notBefore := b.notBefore, notAfter := b.notAfter,
           extensions := b.extensions }

end CertificateBuilder

inductive ReasonFlag
  | unspecified
  | keyCompromise
  | caCompromise
  | affiliationChanged
  | superseded
  | cessationOfOperation
  | certificateHold
  | removeFromCrl
  | privilegeWithdrawn
  | aaCompromise
  deriving Repr, DecidableEq

structure RevokedEntry where
  serial : ℤ
  revocationDate : Time
  reason : Option ReasonFlag
  deriving Repr, DecidableEq

structure Crl where
  issuer : Name
  lastUpdate : Time
  nextUpdate : Time
  entries : List RevokedEntry
  crlNumber : ℕ
  authorityKey : Option PublicKey
  freshest : Option String
  signedBy : PublicKey
  /-- The number of the full list that a delta list continues. -/
  deltaBase : Option ℕ := none
  deriving Repr, DecidableEq

def Crl.serials (c : Crl) : List ℤ :=
  c.entries.map RevokedEntry.serial

section Builders

theorem checkSerial_eq_ok_iff {serial s : ℤ} :
    checkSerial serial = .ok s ↔ s = serial ∧ 0 < serial ∧ serial < 2 ^ maxSerialBits := by
  unfold checkSerial
  split_ifs with hneg hbig
  · simp only [false_iff, not_and]
    omega
  · simp only [false_iff, not_and]
    omega
  · simp only [Except.ok.injEq]
    exact ⟨fun h => ⟨h.symm, by omega, by omega⟩, fun h => h.1.symm⟩

theorem CertificateBuilder.sign_spec {b : CertificateBuilder} {key : PublicKey} {x : X509}
    (h : b.sign key = .ok x) :
    x.serial = b.serial ∧ 0 < x.serial ∧ x.serial < 2 ^ maxSerialBits ∧ x.issuer = b.issuer ∧
      x.subject = b.subject ∧ x.signedBy = key ∧ x.extensions = b.extensions := by
  unfold sign at h
  cases hserial : checkSerial b.serial with
  | error e => rw [hserial] at h; cases h
  | ok s =>
    rw [hserial] at h
    obtain ⟨rfl, hpos, hlt⟩ := checkSerial_eq_ok_iff.mp hserial
    change (if b.notAfter < b.notBefore then _ else _) = _ at h
    split_ifs at h
    · cases h
    · cases h
      exact ⟨rfl, hpos, hlt, rfl, rfl, rfl, rfl⟩

theorem CertificateBuilder.publicKey_of_sign {b : CertificateBuilder} {key : PublicKey} {x : X509}
    (h : b.sign key = .ok x) : x.publicKey = b.publicKey := by
  unfold sign at h
  cases hserial : checkSerial b.serial with
  | error e => rw [hserial] at h; cases h
  | ok s =>
    rw [hserial] at h
    change (if b.notAfter < b.notBefore then _ else _) = _ at h
    split_ifs at h
    · cases h
    · cases h
      rfl

theorem CertificateBuilder.exists_sign_iff {b : CertificateBuilder} {key : PublicKey} :
    (∃ x, b.sign key = .ok x) ↔
      0 < b.serial ∧ b.serial < 2 ^ maxSerialBits ∧ b.notBefore ≤ b.notAfter := by
  unfold sign
  cases hserial : checkSerial b.serial with
  | error e =>
    refine iff_of_false (fun h => ?_) fun h => ?_
    · obtain ⟨x, hx⟩ := h
      cases hx
    · rw [checkSerial_eq_ok_iff.mpr ⟨rfl, h.1, h.2.1⟩] at hserial
      cases hserial
  | ok s =>
    obtain ⟨rfl, hpos, hlt⟩ := checkSerial_eq_ok_iff.mp hserial
    change (∃ x, (if b.notAfter < b.notBefore then _ else _) = Except.ok x) ↔ _
    split_ifs with hbounds
    · refine iff_of_false (fun h => ?_) fun h => absurd h.2.2 (not_le.mpr hbounds)
      obtain ⟨x, hx⟩ := h
      cases hx
    · exact iff_of_true ⟨_, rfl⟩ ⟨hpos, hlt, not_lt.mp hbounds⟩

theorem CertificateBuilder.exists_sign_of_draw {b : CertificateBuilder} {key : PublicKey}
    {serial : RandomSerial} (hserial : b.serial = serial.value) (hpos : 0 < serial.value)
    (hbounds : b.notBefore ≤ b.notAfter) : ∃ x, b.sign key = .ok x := by
  have hlt : ((serial.value : ℕ) : ℤ) < 2 ^ maxSerialBits := by
    exact_mod_cast serial.bounded
  exact exists_sign_iff.mpr ⟨hserial ▸ Int.natCast_pos.mpr hpos, hserial ▸ hlt, hbounds⟩

theorem CertificateBuilder.addExtension_spec {b b' : CertificateBuilder} {value : ExtensionValue}
    {critical : Bool} (h : b.addExtension value critical = .ok b') :
    b' = { b with extensions := b.extensions ++ [⟨value, critical⟩] } := by
  unfold addExtension at h
  split_ifs at h
  cases h
  rfl

end Builders

end CaManager
