import CaManager.Library.Batches
import CaManager.Store.Routes

/-!
# Single and bulk routes

Revoking, renewing and deleting certificates, deleting authorities, and signing and deleting
requests: the routes for one identifier, and the loops of the bulk routes beside them. A commit may
raise. A session whose commit has raised answers nothing before it is rolled back, and not every
loop does that. The files of the certificates belong to what the routes change. Audit rows and
notifications are left out.
-/

namespace CaManager

open Library

class FileNaming where
  slugifyCn : String → String

inductive Directory
  | certs
  | keys
  deriving Repr, DecidableEq

abbrev FilePath := Directory × String

instance : LawfulBEq FilePath := inferInstance

/-- The files of the certificates. What is in one of them is the certificate that was written, or
something else. A locked file is neither written nor removed. -/
structure Disk where
  files : List (FilePath × Option X509) := []
  locked : List FilePath := []
  deriving DecidableEq

namespace Disk

def exists? (d : Disk) (path : FilePath) : Bool :=
  d.files.any fun f => f.1 = path

def write (d : Disk) (path : FilePath) (x : X509) : Disk :=
  { d with files := (path, some x) :: d.files.filter fun f => f.1 ≠ path }

def unlink (d : Disk) (path : FilePath) : Disk :=
  { d with files := d.files.filter fun f => f.1 ≠ path }

/-- Remove files in their order as far as they are there. The first one that is locked raises. -/
def unlinkAll (d : Disk) : List FilePath → Bool × Disk
  | [] => (true, d)
  | path :: paths =>
    if d.exists? path then
      if path ∈ d.locked then (false, d) else (d.unlink path).unlinkAll paths
    else d.unlinkAll paths

end Disk

namespace FileNames

/-- `_get_cn` -/
def getCn (subject : Option String) : String :=
  (((subject.getD "").splitOn ",").map fun part => (part.trimAscii).toString).findSome? (fun part =>
    if part.toUpper.startsWith "CN=" then some ((part.drop 3).trimAscii).toString else none)
    |>.getD ""

variable [FileNaming]

def certFilename (refid cn ext : String) : String :=
  let shortId := if refid = "" then "norefid" else (refid.take 8).toString
  FileNaming.slugifyCn cn ++ "-" ++ shortId ++ "." ++ ext

/-- `_get_cn(certificate.subject) or certificate.descr or ''` -/
def commonName (row : Certificate) : String :=
  if getCn row.subject = "" then row.descr else getCn row.subject

def certCertPath (row : Certificate) : FilePath :=
  (.certs, certFilename row.refid (commonName row) "crt")

def certCsrPath (row : Certificate) : FilePath :=
  (.certs, certFilename row.refid (commonName row) "csr")

def certKeyPath (row : Certificate) : FilePath :=
  (.keys, "cert_" ++ certFilename row.refid (commonName row) "key")

def ofCertificate (row : Certificate) : List FilePath :=
  [(.certs, row.refid ++ ".crt"), (.certs, row.refid ++ ".csr"),
    (.keys, "cert_" ++ row.refid ++ ".key"), certCertPath row, certCsrPath row, certKeyPath row]

end FileNames

/-- `ApprovalRequest` as far as it names a certificate. -/
structure ApprovalReference where
  id : ℕ := 0
  certificateId : Option ℕ
  deriving Repr, DecidableEq

structure Office where
  store : Store
  approvals : List ApprovalReference := []
  disk : Disk := {}
  deriving DecidableEq

/-- One identifier of a request, with what is drawn and what time it is when its turn comes, and
whether the commit goes through. -/
structure Attempt where
  id : ℕ
  draw : Draw
  commits : Bool := true

namespace SingleRoutes

def commitOr (o o' : Office) (a : Attempt) (done failed : Response) : Response × Office :=
  if a.commits then (done, o') else (failed, o)

def revokeCertificate (reason username : String) (o : Office) (a : Attempt) : Response × Office :=
  let (r, st) := Routes.revokeCertificate o.store a.id reason username a.draw.now
  if r.status = 200 then
    commitOr o { o with store := st } a r ⟨500, "Failed to revoke certificate"⟩
  else (r, o)

def renewCertificate (o : Office) (a : Attempt) : Response × Office :=
  let (r, st) := Routes.renewCertificate o.store a.id a.draw
  if r.status = 200 then
    commitOr o { o with store := st } a r ⟨500, "Failed to renew certificate"⟩
  else (r, o)

def withoutCertificate (o : Office) (certId : ℕ) : Office :=
  { o with
    store := { o.store with certificates := o.store.certificates.delete certId }
    approvals := o.approvals.filter fun r => r.certificateId ≠ some certId }

def deleteCertificate (o : Office) (a : Attempt) : Response × Office :=
  match o.store.certificates.get? a.id with
  | none => (⟨404, "Certificate not found"⟩, o)
  | some _ =>
    commitOr o (withoutCertificate o a.id) a ⟨204, ""⟩ ⟨500, "Failed to delete certificate"⟩

def childCas (st : Store) (ca : CA) : ℕ :=
  (st.cas.select fun c => c.caref = some ca.refid).length

def issuedCerts (st : Store) (ca : CA) : ℕ :=
  (st.certificates.select fun c => c.caref = some ca.refid).length

def withoutCa (st : Store) (caId : ℕ) : Store :=
  { st with
    cas := st.cas.delete caId
    crls := st.crls.deleteWhere fun m => m.caId = caId
    ocspResponses := st.ocspResponses.deleteWhere fun r => r.caId = caId }

def deleteCa (o : Office) (a : Attempt) : Response × Office :=
  match o.store.cas.get? a.id with
  | none => (⟨404, "CA not found"⟩, o)
  | some ca =>
    let children := childCas o.store ca
    let issued := issuedCerts o.store ca
    if 0 < children then
      (⟨409, s!"Cannot delete CA: {children} intermediate CA(s) depend on it. Delete them first."⟩, o)
    else if 0 < issued then
      (⟨409, s!"Cannot delete CA: {issued} certificate(s) were issued by it. " ++
        "Revoke and delete them first."⟩, o)
    else
      commitOr o { o with store := withoutCa o.store a.id } a ⟨204, ""⟩
        ⟨500, "Failed to delete CA"⟩

def signingCa (st : Store) (caId : ℕ) : Option CA :=
  (st.cas.get? caId).filter fun ca => ca.prv.isSome

variable [X509Library] [FileNaming]

def writeSigned (o : Office) (certId : ℕ) (x : X509) : Bool × Office :=
  match o.store.certificates.get? certId with
  | none => (false, o)
  | some row =>
    let path := FileNames.certCertPath row
    if path ∈ o.disk.locked then (false, o) else (true, { o with disk := o.disk.write path x })

/-- `CertificateService.sign_csr` with its commit and its file: whether it returns, the state that
it leaves, and whether the session can go on. -/
def serviceSign (caref certType : String) (validityDays : ℤ) (o : Office) (a : Attempt) :
    (Bool × Office) × Bool :=
  match CertificateService.signCsr o.store a.id caref certType validityDays a.draw.serial
      a.draw.now with
  | .error _ => ((false, o), true)
  | .ok (x, st) =>
    if a.commits then (writeSigned { o with store := st } a.id x, true) else ((false, o), false)

def signCsr (caId : ℕ) (certType : String) (validityDays : ℤ) (o : Office) (a : Attempt) :
    Response × Office :=
  match o.store.certificates.get? a.id with
  | none => (⟨404, "CSR not found"⟩, o)
  | some row =>
    if row.csr = none then (⟨400, "No CSR data found"⟩, o)
    else if row.crt.isSome then (⟨400, "CSR already signed"⟩, o)
    else if caId = 0 then (⟨400, "CA ID required"⟩, o)
    else
      match o.store.cas.get? caId with
      | none => (⟨404, "CA not found"⟩, o)
      | some ca =>
        if ca.prv = none then (⟨400, "CA is not valid for signing"⟩, o)
        else
          match (serviceSign ca.refid certType validityDays o a).1 with
          | (true, o') => (⟨200, "CSR signed successfully"⟩, o')
          | (false, o') => (⟨500, "Failed to sign CSR"⟩, o')

/-- `CertificateService.delete_certificate`: none if there is no row, else as for signing. The files
are removed before the commit. -/
def serviceDelete (o : Office) (a : Attempt) : Option ((Bool × Office) × Bool) :=
  match o.store.certificates.get? a.id with
  | none => none
  | some row =>
    match o.disk.unlinkAll (FileNames.ofCertificate row) with
    | (false, disk) => some ((false, { o with disk }), true)
    | (true, disk) =>
      if a.commits then
        some ((true, { o with
          store := { o.store with certificates := o.store.certificates.delete a.id }, disk }), true)
      else some ((false, { o with disk }), false)

def deleteCsr (o : Office) (a : Attempt) : Response × Office :=
  match serviceDelete o a with
  | none => (⟨404, "CSR not found"⟩, o)
  | some ((true, o'), _) => (⟨204, ""⟩, o')
  | some ((false, o'), _) => (⟨500, "Failed to get CSR details"⟩, o')

end SingleRoutes

namespace BulkRoutes

open SingleRoutes

/-- A round of a loop: the error that is reported, if there is one, the state after it, and whether
the session answers in the next round. -/
structure Round where
  error : Option String
  office : Office
  answers : Bool := true

def rolledBack (o o' : Office) (a : Attempt) (error : String) : Round :=
  if a.commits then ⟨none, o', true⟩ else ⟨some error, o, true⟩

def revokeRound (reason username : String) (o : Office) (a : Attempt) : Round :=
  match o.store.certificates.get? a.id with
  | none => ⟨some "Not found", o, true⟩
  | some row =>
    if row.revoked then ⟨some "Already revoked", o, true⟩
    else
      match CertificateService.revokeCertificate o.store a.id reason username a.draw.now with
      | .error _ => ⟨some "Revocation failed", o, true⟩
      | .ok st =>
        -- a commit that raises is not rolled back
        if a.commits then ⟨none, { o with store := st }, true⟩
        else ⟨some "Revocation failed", o, false⟩

def renewRound (o : Office) (a : Attempt) : Round :=
  match Routes.bulkRenewNote o.store (a.id, a.draw) with
  | some error => ⟨some error, o, true⟩
  | none =>
    rolledBack o { o with store := Routes.bulkRenewOne o.store (a.id, a.draw) } a "Renewal failed"

def deleteRound (o : Office) (a : Attempt) : Round :=
  match o.store.certificates.get? a.id with
  | none => ⟨some "Not found", o, true⟩
  | some _ => rolledBack o (withoutCertificate o a.id) a "Deletion failed"

def deleteCaRound (o : Office) (a : Attempt) : Round :=
  match o.store.cas.get? a.id with
  | none => ⟨some "Not found", o, true⟩
  | some ca =>
    let children := childCas o.store ca
    let issued := issuedCerts o.store ca
    if 0 < children then ⟨some s!"{children} intermediate CA(s) depend on it", o, true⟩
    else if 0 < issued then ⟨some s!"{issued} certificate(s) issued by it", o, true⟩
    else rolledBack o { o with store := withoutCa o.store a.id } a "Deletion failed"

variable [X509Library] [FileNaming]

def signRound (caref : String) (validityDays : ℤ) (o : Office) (a : Attempt) : Round :=
  match o.store.certificates.get? a.id with
  | none => ⟨some "Not found", o, true⟩
  | some row =>
    if row.csr = none then ⟨some "No CSR data", o, true⟩
    else if row.crt.isSome then ⟨some "Already signed", o, true⟩
    else
      match serviceSign caref "server_cert" validityDays o a with
      | ((true, o'), answers) => ⟨none, o', answers⟩
      | ((false, o'), answers) => ⟨some "Signing failed", o', answers⟩

def deleteCsrRound (o : Office) (a : Attempt) : Round :=
  match serviceDelete o a with
  | none => ⟨some "Not found", o, true⟩
  | some ((true, o'), answers) => ⟨none, o', answers⟩
  | some ((false, o'), answers) => ⟨some "Deletion failed", o', answers⟩

def Round.visit (r : Round) : (Bool × Office) × Bool :=
  ((r.error.isNone, r.office), r.answers)

end BulkRoutes

inductive BulkRequest
  | revoke (reason username : String) (attempts : List Attempt)
  | renew (attempts : List Attempt)
  | deleteCertificates (attempts : List Attempt)
  | deleteCas (attempts : List Attempt)
  | signCsrs (caId : ℕ) (validityDays : ℤ) (attempts : List Attempt)
  | deleteCsrs (attempts : List Attempt)

namespace BulkRequest

open SingleRoutes BulkRoutes

variable [X509Library] [FileNaming]

/-- Which identifiers the bulk route reports as successes, and what it leaves after each. -/
def serve (o : Office) : BulkRequest → List (Bool × Office)
  | revoke reason username as => batch (fun o a => (revokeRound reason username o a).visit) o as
  | renew as => batch (fun o a => (renewRound o a).visit) o as
  | deleteCertificates as => batch (fun o a => (deleteRound o a).visit) o as
  | deleteCas as => batch (fun o a => (deleteCaRound o a).visit) o as
  | signCsrs caId validityDays as =>
    if caId = 0 then as.map fun _ => (false, o)
    else
      match signingCa o.store caId with
      | none => as.map fun _ => (false, o)
      | some ca => batch (fun o a => (signRound ca.refid validityDays o a).visit) o as
  | deleteCsrs as => batch (fun o a => (deleteCsrRound o a).visit) o as

def succeeded (answer : Response × Office) : Bool × Office :=
  (answer.1.status < 400, answer.2)

def single : BulkRequest → Office → Attempt → Bool × Office
  | revoke reason username _, o, a =>
    succeeded (SingleRoutes.revokeCertificate reason username o a)
  | renew _, o, a => succeeded (SingleRoutes.renewCertificate o a)
  | deleteCertificates _, o, a => succeeded (SingleRoutes.deleteCertificate o a)
  | deleteCas _, o, a => succeeded (deleteCa o a)
  | signCsrs caId validityDays _, o, a =>
    succeeded (SingleRoutes.signCsr caId "server_cert" validityDays o a)
  | deleteCsrs _, o, a => succeeded (deleteCsr o a)

def attempts : BulkRequest → List Attempt
  | revoke _ _ as | renew as | deleteCertificates as | deleteCas as | signCsrs _ _ as
  | deleteCsrs as => as

end BulkRequest

end CaManager
