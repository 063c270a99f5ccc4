import CaManager.Library.Machines
import CaManager.Store.Operations

/-!
# Requests to sign and to delete, side by side

Signing reads the row of a signing request, calls the signer, and commits. Deleting reads the row
and commits. Requests that are served at the same time take these steps in any order, and what a
request has read of a row is not read again. A commit changes the row as it is by then; it fails
when there is none. The files, the audit rows and the answers are left out.
-/

namespace CaManager

open Library

namespace CertificateService

/-- What `sign_csr` checks of the row it has read, and the request in it. -/
def pendingRequest (row : Option Certificate) : Except PyError (Encoded Csr) := do
  let row ← orThrow row (.valueError "Certificate not found")
  let csrText ← orThrow row.csr (.valueError "Certificate has no CSR")
  ensure (row.crt = none) (.valueError "Certificate already signed")
  return csrText

def signRequest [X509Library] (st : Store) (csrText : Encoded Csr) (caref certType : String)
    (validityDays : ℤ) (serial : RandomSerial) (now : Time) : Except PyError (X509 × CA) := do
  let ca ← orThrow (st.cas.first fun c => c.refid = caref)
    (.valueError s!"CA not found: {caref}")
  ensure (ca.prv.isSome = true) (.valueError "CA has no private key")
  let caCert ← ca.certificate
  let caPrivateKey ← ca.privateKey
  let csr ← orThrow (csrText.decoded.or csrText.asText) (.unloadable "request")
  let x ← TrustStoreService.signCsr csr caCert caPrivateKey validityDays certType serial now
  return (x, ca)

/-- What the commit of `sign_csr` writes. The serial counts from that of the authority as it was
read. -/
def commitSigned [X509Library] (st : Store) (certId : ℕ) (caref certType : String) (x : X509)
    (ca : CA) : Store :=
  { st.setCertificate certId fun c => signedRow c caref certType x with
    cas := st.cas.update ca.id fun c => { c with serial := some (ca.serial.getD 0 + 1) } }

end CertificateService

namespace Signing

open CertificateService

/-- A request to the routes: its identifiers, and for signing the authority, the kind of the
certificate and its validity. Signing in bulk asks for server certificates. -/
inductive Request
  | signCsr (csrId caId : ℕ) (certType : String) (validityDays : ℤ)
  | bulkSignCsrs (ids : List ℕ) (caId : ℕ) (validityDays : ℤ)
  | deleteCsr (csrId : ℕ)
  | bulkDeleteCsrs (ids : List ℕ)
  deriving Repr, DecidableEq

/-- What a request does to each of its identifiers. The routes look up the authority by its
identifier, signing in bulk only once. -/
inductive Task
  | sign (caId : ℕ) (certType : String) (validityDays : ℤ)
  | bulkSign (caref : String) (validityDays : ℤ)
  | delete
  deriving Repr, DecidableEq

/-- How far a request has come with the first of its identifiers. -/
inductive Phase
  | idle
  /-- The row was read, and is a request that is not signed. -/
  | read (certId : ℕ) (csrText : Encoded Csr) (caref certType : String) (validityDays : ℤ)
  /-- The signer has returned. -/
  | signed (certId : ℕ) (caref certType : String) (x : X509) (ca : CA)
  /-- The row to delete was read. -/
  | found (certId : ℕ)

structure Worker where
  task : Task
  todo : List ℕ
  phase : Phase := .idle
  /-- The row that the loop of signing in bulk read last, until a commit of its session. -/
  cached : Option (ℕ × Certificate) := none

/-- A certificate that the key of an authority has signed for a row, and the request that it was
signed by. -/
structure Issue where
  worker : ℕ
  certId : ℕ
  cert : X509
  deriving Repr, DecidableEq

structure State where
  store : Store
  workers : List Worker := []
  issued : List Issue := []

namespace Worker

def next (w : Worker) : Worker :=
  { w with todo := w.todo.tail, phase := .idle }

def broken (w : Worker) : Worker :=
  { w with todo := [], phase := .idle, cached := none }

def finished (w : Worker) : Bool :=
  match w.phase with
  | .idle => w.todo.isEmpty
  | _ => false

def row (w : Worker) (st : Store) (certId : ℕ) : Option Certificate :=
  match w.cached with
  | some (certId', row) => if certId' = certId then some row else st.certificates.get? certId
  | none => st.certificates.get? certId

end Worker

def signingCa (st : Store) (caId : ℕ) : Option CA :=
  (st.cas.get? caId).filter fun ca => ca.prv.isSome

def Request.worker (st : Store) : Request → Worker
  | .signCsr csrId caId certType validityDays =>
    { task := .sign caId certType validityDays, todo := [csrId] }
  | .bulkSignCsrs ids caId validityDays =>
    match signingCa st caId with
    | none => { task := .bulkSign "" validityDays, todo := [] }
    | some ca => { task := .bulkSign ca.refid validityDays, todo := ids }
  | .deleteCsr csrId => { task := .delete, todo := [csrId] }
  | .bulkDeleteCsrs ids => { task := .delete, todo := ids }

def Worker.read (w : Worker) (st : Store) (certId : ℕ) : Worker :=
  match w.task with
  | .sign caId certType validityDays =>
    match pendingRequest (w.row st certId), signingCa st caId with
    | .ok csrText, some ca => { w with phase := .read certId csrText ca.refid certType validityDays }
    | _, _ => w.next
  | .bulkSign caref validityDays =>
    let cached := (w.row st certId).map fun row => (certId, row)
    match pendingRequest (w.row st certId) with
    | .ok csrText =>
      { w with phase := .read certId csrText caref "server_cert" validityDays, cached }
    | .error _ => { w.next with cached }
  | .delete =>
    match st.certificates.get? certId with
    | none => w.next
    | some _ => { w with phase := .found certId }

inductive Event
  | arrive (request : Request)
  /-- The next step of a request: the serial number and the time are those of a signature, and a
  commit may raise. -/
  | proceed (worker : ℕ) (serial : RandomSerial) (now : Time) (raises : Bool)

variable [X509Library]

def State.proceed (s : State) (i : ℕ) (w : Worker) (serial : RandomSerial) (now : Time)
    (raises : Bool) : State :=
  match w.phase with
  | .idle =>
    match w.todo with
    | [] => s
    | certId :: _ => { s with workers := s.workers.set i (w.read s.store certId) }
  | .read certId csrText caref certType validityDays =>
    match signRequest s.store csrText caref certType validityDays serial now with
    | .error _ => { s with workers := s.workers.set i w.next }
    | .ok (x, ca) =>
      { s with
        workers := s.workers.set i { w with phase := .signed certId caref certType x ca }
        issued := ⟨i, certId, x⟩ :: s.issued }
  | .signed certId caref certType x ca =>
    -- updating a row that is not there raises as well
    if raises = true ∨ s.store.certificates.get? certId = none then
      { s with workers := s.workers.set i w.broken }
    else
      { s with
        store := commitSigned s.store certId caref certType x ca
        workers := s.workers.set i { w.next with cached := none } }
  | .found certId =>
    if raises then { s with workers := s.workers.set i w.next }
    else
      { s with
        store := { s.store with certificates := s.store.certificates.delete certId }
        workers := s.workers.set i w.next }

def step (s : State) : Event → State
  | .arrive request => { s with workers := s.workers ++ [request.worker s.store] }
  | .proceed i serial now raises =>
    match s.workers[i]? with
    | none => s
    | some w => s.proceed i w serial now raises

end Signing

end CaManager
