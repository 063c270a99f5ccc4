import CaManager.Accounts.Authentication
import CaManager.Mtls.UserCertificates
import CaManager.Store.Crl
import CaManager.Store.Exports

/-!
# Handing out stored rows

The routes that show, export or download certificates, authorities and requests, with what each
needs to be granted. An answer is given by what it is made of: what else a page shows is computed
from the columns that it contains.
-/

namespace CaManager

open Library

/-- What `to_dict` has of a certificate. The common name, the status, thumbprints and the like are
computed from it. -/
structure CertificateDict where
  id : ℕ
  refid : String
  descr : String
  caref : Option String
  certType : Option String
  subject : Option String
  issuer : Option String
  serialNumber : Option String
  aki : Option String
  ski : Option String
  validFrom : Option Time
  validTo : Option Time
  revoked : Bool
  revokedAt : Option Time
  revokeReason : Option String
  importedFrom : Option String
  createdBy : Option String
  source : Option String
  hasPrivateKey : Bool
  privateKeyLocation : Option String
  sanDns : Option (List String)
  sanIp : Option (List String)
  sanEmail : Option (List String)
  sanUri : Option (List String)
  ocspUri : Option String
  keyAlgo : Option String
  pem : Option (Encoded.Bytes CertPem)
  columns : Option (Option (Encoded CertPem) × Option (Encoded Csr) × Option (Encoded KeyPem))
  deriving Repr, DecidableEq

/-- `to_dict` of a certificate. No route asks for the private columns. -/
def Certificate.toDict (c : Certificate) (includePrivate : Bool) : CertificateDict :=
  { id := c.id, refid := c.refid, descr := c.descr, caref := c.caref, certType := c.certType
    subject := c.subject, issuer := c.issuer, serialNumber := c.serialNumber, aki := c.aki
    ski := c.ski, validFrom := c.validFrom, validTo := c.validTo, revoked := c.revoked
    revokedAt := c.revokedAt, revokeReason := c.revokeReason, importedFrom := c.importedFrom
    createdBy := c.createdBy, source := c.source, hasPrivateKey := c.prv.isSome
    privateKeyLocation := c.privateKeyLocation, sanDns := c.sanDns, sanIp := c.sanIp
    sanEmail := c.sanEmail, sanUri := c.sanUri, ocspUri := c.ocspUri, keyAlgo := c.keyAlgo
    pem := c.crt.map Encoded.bytes
    columns := if includePrivate then some (c.crt, c.csr, c.prv) else none }

/-- What `to_dict` has of an authority. -/
structure CaDict where
  id : ℕ
  refid : String
  descr : String
  serial : Option ℕ
  caref : Option String
  parentId : Option ℕ
  ski : Option String
  subject : Option String
  issuer : Option String
  validFrom : Option Time
  validTo : Option Time
  importedFrom : Option String
  createdBy : Option String
  hasPrivateKey : Bool
  certs : ℕ
  cdpEnabled : Bool
  cdpUrl : Option String
  deltaCrlEnabled : Bool
  deltaCrlInterval : Option ℤ
  ocspEnabled : Bool
  ocspUrl : Option String
  pem : Encoded.Bytes CertPem
  columns : Option (Encoded CertPem × Option (Encoded KeyPem))
  deriving Repr, DecidableEq

/-- `to_dict` of an authority. -/
def CA.toDict (st : Store) (ca : CA) (includePrivate : Bool) : CaDict :=
  { id := ca.id, refid := ca.refid, descr := ca.descr, serial := ca.serial, caref := ca.caref
    parentId := (st.authorityOf ca.caref).map CA.id, ski := ca.ski, subject := ca.subject
    issuer := ca.issuer, validFrom := ca.validFrom, validTo := ca.validTo
    importedFrom := ca.importedFrom, createdBy := ca.createdBy, hasPrivateKey := ca.hasPrivateKey
    certs := (st.certificates.select fun c => c.caref = some ca.refid).length
    cdpEnabled := ca.cdpEnabled, cdpUrl := ca.cdpUrl, deltaCrlEnabled := ca.deltaCrlEnabled
    deltaCrlInterval := ca.deltaCrlInterval, ocspEnabled := ca.ocspEnabled, ocspUrl := ca.ocspUrl
    pem := ca.crt.bytes
    columns := if includePrivate then some (ca.crt, ca.prv) else none }

namespace Handouts

structure Site where
  state : MtlsState
  databaseFile : Bool

inductive Request
  | certificate (certId : ℕ)
  | exportCertificate (certId : ℕ) (q : Routes.ExportQuery)
  | exportAllCertificates (format : String)
  | bulkExportCertificates (ids : List ℕ) (format : String)
  | ca (caId : ℕ)
  | exportCa (caId : ℕ) (q : Routes.ExportQuery)
  | exportAllCas (format : String)
  | bulkExportCas (ids : List ℕ) (format : String)
  | csr (csrId : ℕ)
  | exportCsr (csrId : ℕ)
  | userCertificate (certId : ℕ)
  | exportUserCertificate (certId : ℕ) (format password : String) (includeKey includeChain : Bool)
  | downloadMtlsCertificate (certId : ℕ) (format password : String)
  | exportDb
  | getCrl (caId : ℕ)
  deriving Repr, DecidableEq

namespace Request

def permissions : Request → List String
  | certificate _ | exportCertificate .. | exportAllCertificates _ | bulkExportCertificates .. =>
    ["read:certificates"]
  | ca _ | exportCa .. | exportAllCas _ | bulkExportCas .. => ["read:cas"]
  | csr _ | exportCsr _ => ["read:csrs"]
  | userCertificate _ | exportUserCertificate .. => ["read:user_certificates"]
  | exportDb => ["admin:system"]
  | downloadMtlsCertificate .. | getCrl _ => []

end Request

/-- What an answer is made of. An export that climbs in a circle never answers. -/
inductive Answer
  | refused (status : ℕ) (message : String)
  | never
  | certificate (data : CertificateDict) (authorities : List CaDict)
  | ca (data : CaDict) (certificates : List CertificateDict) (crl : Option CrlMetadata)
  | csr (data : CertificateDict) (pem : Encoded.Bytes Csr)
  | csrFile (pem : Encoded.Bytes Csr)
  | userCertificate (enrolment : AuthCertificate) (data : Option CertificateDict)
      (owner : Option String)
  | file (file : ExportFile)
  | bundle (pkcs7 : Bool) (certificates : List (Encoded.Bytes CertPem))
  | exported (file : Mtls.Exported)
  | dump (store : Store) (accounts : Accounts)
  | crl (crl : Crl)

namespace Answer

def ofExport : Option (Except Response ExportFile) → Answer
  | none => never
  | some (.error r) => refused r.status r.message
  | some (.ok f) => file f

def ofExported : Except Refusal Mtls.Exported → Answer
  | .error r => refused r.status r.message
  | .ok e => exported e

end Answer

def bundleOf (certificates : List (Encoded CertPem)) (format missing unsupported : String) :
    Answer :=
  if certificates = [] then .refused 404 missing
  else if format = "pem" then .bundle false (certificates.map Encoded.bytes)
  else if format = "pkcs7" ∨ format = "p7b" then .bundle true (certificates.map Encoded.bytes)
  else .refused 400 unsupported

def onlyPemAndP7b : String :=
  "Bulk export only supports PEM and P7B formats. Use individual export for DER/PKCS12/PFX"

section Routes

variable (st : Store)

def getCertificate (certId : ℕ) : Answer :=
  match st.certificates.get? certId with
  | none => .refused 404 "Certificate not found"
  | some c => .certificate (c.toDict false) (st.cas.rows.map fun ca => ca.toDict st false)

def getCa (caId : ℕ) : Answer :=
  match st.cas.get? caId with
  | none => .refused 404 "CA not found"
  | some ca =>
    .ca (ca.toDict st false) (st.certificates.rows.map fun c => c.toDict false)
      (CRLService.latestBase st caId)

def getCsr (csrId : ℕ) : Answer :=
  match st.certificates.get? csrId with
  | none => .refused 404 "CSR not found"
  | some c =>
    match c.csr with
    | none => .refused 404 "CSR not found"
    | some csr => .csr (c.toDict false) csr.bytes

def exportCsr (csrId : ℕ) : Answer :=
  match (st.certificates.get? csrId).bind Certificate.csr with
  | none => .refused 404 "CSR not found"
  | some csr => .csrFile csr.bytes

def exportAllCertificates (format : String) : Answer :=
  bundleOf (st.certificates.rows.filterMap Certificate.crt) format "No certificates to export"
    onlyPemAndP7b

def bulkExportCertificates (ids : List ℕ) (format : String) : Answer :=
  if ids = [] then .refused 400 "ids array required"
  else
    bundleOf ((st.certificates.select fun c => ids.contains c.id).filterMap Certificate.crt) format
      "No certificates found" "Supported formats: pem, p7b"

def exportAllCas (format : String) : Answer :=
  bundleOf (st.cas.rows.map CA.crt) format "No CAs to export" onlyPemAndP7b

def bulkExportCas (ids : List ℕ) (format : String) : Answer :=
  if ids = [] then .refused 400 "ids array required"
  else
    bundleOf ((st.cas.select fun ca => ids.contains ca.id).map CA.crt) format "No CAs found"
      "Supported formats: pem, p7b"

def getCrl (caId : ℕ) (now : Time) : Answer :=
  match st.cas.get? caId with
  | none => .refused 404 ""
  | some ca =>
    match CRLService.latestBase st caId with
    | some m => .crl m.crl
    | none =>
      if ca.hasPrivateKey && ca.cdpEnabled then
        match CRLService.generateCrl st caId CRLService.defaultValidityDays "system" now with
        | .ok (m, _) => .crl m.crl
        | .error _ => .refused 404 ""
      else .refused 404 ""

end Routes

/-- `get_user_certificate` -/
def getUserCertificate (s : MtlsState) (user : User) (certId : ℕ) : Answer :=
  match s.accounts.authCertificates.get? certId with
  | none => .refused 404 "Certificate not found"
  | some a =>
    if Mtls.seesAll user || a.userId = user.id then
      .userCertificate a ((s.store.certificateBySerial a.certSerial).map fun c => c.toDict false)
        ((s.accounts.users.get? a.userId).map User.username)
    else .refused 404 "Certificate not found"

def withUser (user : Option User) (serve : User → Answer) : Answer :=
  match user with
  | some user => serve user
  | none => .refused 500 "Internal server error"

def serve (site : Site) (result : AuthResult) : Request → Answer
  | .certificate certId => getCertificate site.state.store certId
  | .exportCertificate certId q =>
    .ofExport (Routes.exportCertificate site.state.store certId q
      (Administration.hasPermission "write:certificates" result.permissions))
  | .exportAllCertificates format => exportAllCertificates site.state.store format
  | .bulkExportCertificates ids format => bulkExportCertificates site.state.store ids format
  | .ca caId => getCa site.state.store caId
  | .exportCa caId q =>
    .ofExport (Routes.exportCa site.state.store caId q
      (Administration.hasPermission "write:cas" result.permissions))
  | .exportAllCas format => exportAllCas site.state.store format
  | .bulkExportCas ids format => bulkExportCas site.state.store ids format
  | .csr csrId => getCsr site.state.store csrId
  | .exportCsr csrId => exportCsr site.state.store csrId
  | .userCertificate certId => withUser result.user fun user =>
    getUserCertificate site.state user certId
  | .exportUserCertificate certId format password includeKey includeChain =>
    withUser result.user fun user => .ofExported
      (Mtls.exportUserCertificate site.state user certId format password includeKey includeChain)
  | .downloadMtlsCertificate certId format password =>
    withUser result.user fun user => .ofExported
      (Mtls.downloadMtlsCertificate site.state user certId format password)
  | .exportDb =>
    if site.databaseFile then .dump site.state.store site.state.accounts
    else .refused 400 "Database not found"
  | .getCrl caId => getCrl site.state.store caId site.state.now

def answer (result : AuthResult) (r : Request) (site : Site) : Answer :=
  match AuthManager.authorize r.permissions (some result) with
  | .error e => .refused e.status e.message
  | .ok result => serve site result r

end Handouts

end CaManager
