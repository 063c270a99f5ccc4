import CaManager.Store.Authorities
import CaManager.Store.Routes

/-!
# Exports

Handing out stored certificates and authorities, with their keys and with the authorities above
them. The routes decrypt a key before they decode it; the certificate service decodes the column
as it is. The loop that climbs to the root ends only if the parents are no circle; an export
whose loop does not end gives no answer at all.
-/

namespace CaManager

open Library

/-- One part of a PEM file, as the decoded column. -/
inductive PemPart
  | certificate (bytes : Encoded.Bytes CertPem)
  | key (bytes : Encoded.Bytes KeyPem)
  deriving Repr, DecidableEq

inductive ExportFile
  | pem (parts : List PemPart)
  | der (x : X509)
  | key (bytes : Encoded.Bytes KeyPem)
  | encryptedKey (key : KeyPem) (password : String)
  | pkcs12 (name : String) (key : KeyPem) (x : X509) (chain : List X509) (password : String)
  | pkcs7 (certificates : List (Encoded.Bytes CertPem))
  deriving Repr, DecidableEq

/-- `load_pem_x509_certificate` -/
def loadCertificate (bytes : Encoded.Bytes CertPem) : Except PyError X509 :=
  orThrow (bytes.load.map CertPem.leaf) (.unloadable "certificate")

/-- `load_pem_private_key` -/
def loadKey (bytes : Encoded.Bytes KeyPem) : Except PyError KeyPem :=
  orThrow bytes.load (.unloadable "private key")

section Chains

variable {ε α β γ : Type}

def Store.authorityOf (st : Store) (caref : Option String) : Option CA :=
  (caref.filter (· ≠ "")).bind fun refid => st.cas.first fun c => c.refid = refid

def climb (st : Store) (visit : CA → Except ε α) : ℕ → Option CA → Option (Except ε (List α))
  | _, none => some (.ok [])
  | 0, some _ => none
  | n + 1, some ca =>
    match visit ca with
    | .error e => some (.error e)
    | .ok a => (climb st visit n (st.authorityOf ca.caref)).map ((a :: ·) <$> ·)

/-- Visit the authorities from a reference upwards. A climb past more authorities than there are
never ends. -/
def chainOf (st : Store) (visit : CA → Except ε α) (caref : Option String) :
    Option (Except ε (List α)) :=
  climb st visit st.cas.rows.length (st.authorityOf caref)

def askedChain (st : Store) (includeChain : Bool) (visit : CA → Except ε α)
    (caref : Option String) : Option (Except ε (List α)) :=
  if includeChain then chainOf st visit caref else some (.ok [])

def withChain (before : Except ε α) (chain : Option (Except ε β)) (f : α → β → γ) :
    Option (Except ε γ) :=
  match before with
  | .error e => some (.error e)
  | .ok a => chain.map (f a <$> ·)

def certificateBytes (ca : CA) : Except ε (Encoded.Bytes CertPem) := .ok ca.crt.bytes

end Chains

/-- `get_ca_chain`: the certificates of an authority and of those above it. -/
def CAService.getCaChain (st : Store) (caId : ℕ) :
    Option (Except PyError (List (Encoded.Bytes CertPem))) :=
  climb st certificateBytes st.cas.rows.length (st.cas.get? caId)

def decryptedKey (st : Store) (prv : Encoded KeyPem) : Except PyError (Encoded.Bytes KeyPem) :=
  match prv.decrypt st.keyEncryptionKey with
  | some e => .ok e.bytes
  | none => .error (.valueError "Encryption key not configured")

def givenPassword (password : Option String) : Option String :=
  password.filter (· ≠ "")

/-- `export_pkcs12` -/
def TrustStoreService.exportPkcs12 (certPem : Encoded.Bytes CertPem) (keyPem : Encoded.Bytes KeyPem)
    (password name : String) : Except PyError ExportFile := do
  let x ← loadCertificate certPem
  let key ← loadKey keyPem
  return .pkcs12 name key x [] password

namespace CertificateService

/-- The PKCS12 file of a stored certificate; the key column is decoded as it is. -/
def pkcs12Of (c : Certificate) (crt : Encoded CertPem) (password : Option String) :
    Except PyError ExportFile := do
  let password ← orThrow (givenPassword password)
    (.valueError "Password required for PKCS#12 export")
  let prv ← orThrow c.prv (.valueError "Certificate has no private key")
  TrustStoreService.exportPkcs12 crt.bytes prv.bytes password c.descr

def exportCertificate (st : Store) (certId : ℕ) (format : String) (password : Option String) :
    Except PyError ExportFile := do
  let c ← orThrow (st.certificates.get? certId) (.valueError "Certificate not found")
  let crt ← orThrow c.crt (.valueError "Certificate not yet signed")
  if format = "pem" then .ok (.pem [.certificate crt.bytes])
  else if format = "der" then ExportFile.der <$> loadCertificate crt.bytes
  else if format = "pkcs12" then pkcs12Of c crt password
  else .error (.valueError s!"Unsupported format: {format}")

/-- The key that goes into a PEM file, if it is asked for and there is one. -/
def keyPart (includeKey : Bool) (c : Certificate) : List PemPart :=
  ((c.prv.filter fun _ => includeKey).map fun prv => PemPart.key prv.bytes).toList

def exportCertificateWithOptions (st : Store) (certId : ℕ) (format : String)
    (includeKey includeChain : Bool) (password : Option String) :
    Option (Except PyError ExportFile) :=
  match st.certificates.get? certId with
  | none => some (.error (.valueError "Certificate not found"))
  | some c =>
    match c.crt with
    | none => some (.error (.valueError "Certificate not yet signed"))
    | some crt =>
      if format = "pkcs12" then some (pkcs12Of c crt password)
      else if format = "der" then some (ExportFile.der <$> loadCertificate crt.bytes)
      else if format = "pem" then
        withChain (.ok (keyPart includeKey c))
          (askedChain st includeChain certificateBytes c.caref) fun key chain =>
          .pem (.certificate crt.bytes :: key ++ chain.map PemPart.certificate)
      else some (.error (.valueError s!"Unsupported format: {format}"))

end CertificateService

namespace Routes

/-- The parameters of an export; the format is in lower case. -/
structure ExportQuery where
  format : String := "pem"
  includeKey : Bool := false
  includeChain : Bool := false
  password : Option String := none
  deriving Repr, DecidableEq

/-- What an export reads of the row, and how the two routes differ. -/
structure Exportable where
  noun : String
  name : String
  crt : Encoded CertPem
  prv : Option (Encoded KeyPem)
  caref : Option String
  pfxWithChain : Bool
  deriving Repr, DecidableEq

def givesKey (q : ExportQuery) : Prop :=
  q.includeKey = true ∨ q.format ∈ ["pkcs12", "pfx", "key"]

instance (q : ExportQuery) : Decidable (givesKey q) := inferInstanceAs (Decidable (_ ∨ _))

def exportFailed : Response := ⟨500, "Export failed"⟩

def orFailed {α : Type} (result : Except PyError α) : Except Response α :=
  result.mapError fun _ => exportFailed

def exportKey (st : Store) (e : Exportable) (q : ExportQuery) : Except Response ExportFile := do
  let prv ← orThrow e.prv ⟨400, e.noun ++ " has no private key"⟩
  let bytes ← orFailed (decryptedKey st prv)
  match givenPassword q.password with
  | none => return .key bytes
  | some password => (ExportFile.encryptedKey · password) <$> orFailed (loadKey bytes)

def exportedKeyPart (st : Store) (e : Exportable) (q : ExportQuery) :
    Except Response (List PemPart) :=
  match e.prv.filter fun _ => q.includeKey with
  | none => .ok []
  | some prv => (fun bytes => [PemPart.key bytes]) <$> orFailed (decryptedKey st prv)

def pkcs12Parts (st : Store) (e : Exportable) (q : ExportQuery) (what : String) :
    Except Response (X509 × KeyPem × String) := do
  let password ← orThrow (givenPassword q.password) ⟨400, s!"Password required for {what} export"⟩
  let prv ← orThrow e.prv ⟨400, e.noun ++ " has no private key for " ++ what ++ " export"⟩
  let x ← orFailed (loadCertificate e.crt.bytes)
  let bytes ← orFailed (decryptedKey st prv)
  let key ← orFailed (loadKey bytes)
  return (x, key, password)

def exportPkcs12 (st : Store) (e : Exportable) (q : ExportQuery) (what : String)
    (withAuthorities : Bool) : Option (Except Response ExportFile) :=
  withChain (pkcs12Parts st e q what)
    (askedChain st withAuthorities (fun ca => orFailed (loadCertificate ca.crt.bytes)) e.caref)
    fun parts chain => .pkcs12 e.name parts.2.1 parts.1 chain parts.2.2

def exportRow (st : Store) (e : Exportable) (q : ExportQuery) :
    Option (Except Response ExportFile) :=
  if q.format = "key" then some (exportKey st e q)
  else if q.format = "pem" then
    withChain (exportedKeyPart st e q) (askedChain st q.includeChain certificateBytes e.caref)
      fun key chain => .pem (.certificate e.crt.bytes :: key ++ chain.map PemPart.certificate)
  else if q.format = "der" then
    some (ExportFile.der <$> orFailed (loadCertificate e.crt.bytes))
  else if q.format = "pkcs12" then exportPkcs12 st e q "PKCS12" true
  else if q.format = "pkcs7" ∨ q.format = "p7b" then
    withChain (.ok ()) (askedChain st q.includeChain certificateBytes e.caref) fun _ chain =>
      .pkcs7 (e.crt.bytes :: chain)
  else if q.format = "pfx" then exportPkcs12 st e q "PFX" e.pfxWithChain
  else some (.error ⟨400, s!"Unsupported format: {q.format}"⟩)

/-- `certificate.descr or certificate.refid` -/
def exportName (descr refid : String) : String := if descr = "" then refid else descr

/-- `export_certificate` of the certificate routes. -/
def exportCertificate (st : Store) (certId : ℕ) (q : ExportQuery) (mayWrite : Bool) :
    Option (Except Response ExportFile) :=
  match st.certificates.get? certId with
  | none => some (.error ⟨404, "Certificate not found"⟩)
  | some c =>
    match c.crt with
    | none => some (.error ⟨400, "Certificate data not available"⟩)
    | some crt =>
      if givesKey q ∧ mayWrite = false then
        some (.error ⟨403, "Private key export requires write:certificates permission"⟩)
      else
        exportRow st
          { noun := "Certificate", name := exportName c.descr c.refid, crt, prv := c.prv
            caref := c.caref, pfxWithChain := true } q

/-- `export_ca`. Its PFX file has no chain, its PKCS12 file has. -/
def exportCa (st : Store) (caId : ℕ) (q : ExportQuery) (mayWrite : Bool) :
    Option (Except Response ExportFile) :=
  match st.cas.get? caId with
  | none => some (.error ⟨404, "CA not found"⟩)
  | some ca =>
    if givesKey q ∧ mayWrite = false then
      some (.error ⟨403, "Private key export requires write:cas permission"⟩)
    else
      exportRow st
        { noun := "CA", name := exportName ca.descr ca.refid, crt := ca.crt, prv := ca.prv
          caref := ca.caref, pfxWithChain := false } q

end Routes

end CaManager
