import CaManager.Library.HashChains
import CaManager.Library.Tables
import CaManager.Library.Texts

/-!
# The audit log

Rows of the audit log, the service that appends and verifies them, the two clean-ups, and the
other services that add rows of their own. A row that the service appends bears a hash over
nine of its columns and the hash of the row before it. Verification walks the rows in the
order of their keys and starts afresh after a row without a hash.
-/

namespace CaManager

open Library

/-- A naive `datetime`. -/
structure DateTime where
  year : ℕ
  month : ℕ
  day : ℕ
  hour : ℕ := 0
  minute : ℕ := 0
  second : ℕ := 0
  microsecond : ℕ := 0
  deriving Repr, DecidableEq

namespace DateTime

def fields (t : DateTime) : List ℕ :=
  [t.year, t.month, t.day, t.hour, t.minute, t.second, t.microsecond]

def before (t u : DateTime) : Bool := decide (t.fields < u.fields)

def padded (width n : ℕ) : String := String.ofList (List.leftpad width '0' (Nat.toDigits 10 n))

/-- `str(datetime)` -/
def text (t : DateTime) : String :=
  padded 4 t.year ++ "-" ++ padded 2 t.month ++ "-" ++ padded 2 t.day ++ " " ++
    padded 2 t.hour ++ ":" ++ padded 2 t.minute ++ ":" ++ padded 2 t.second ++
    if t.microsecond = 0 then "" else "." ++ padded 6 t.microsecond

end DateTime

structure AuditLog where
  id : ℕ := 0
  timestamp : Option DateTime
  username : Option String := none
  action : String
  resourceType : Option String := none
  resourceId : Option String := none
  resourceName : Option String := none
  details : Option String := none
  ipAddress : Option String := none
  userAgent : Option String := none
  success : Option Bool := some true
  prevHash : Option String := none
  entryHash : Option String := none
  deriving Repr, DecidableEq

instance : Keyed AuditLog where
  key := AuditLog.id
  withKey k r := { r with id := k }
  key_withKey _ _ := rfl
  withKey_key _ := rfl

def orNone (o : Option String) : String := o.getD "None"

def boolText : Option Bool → String
  | none => "None"
  | some true => "True"
  | some false => "False"

def truthyText (o : Option String) : Option String := o.filter (· ≠ "")

namespace AuditLog

def idText (id : ℕ) : String := String.ofList (Nat.toDigits 10 id)

/-- The columns under the hash after the key. Name, address and agent are not among them. -/
def contentText (row : AuditLog) : String :=
  orNone (row.timestamp.map DateTime.text) ++ "|" ++ orNone row.username ++ "|" ++ row.action ++
    "|" ++ orNone row.resourceType ++ "|" ++ orNone row.resourceId ++ "|" ++
    orNone row.details ++ "|" ++ boolText row.success

def hashedText (row : AuditLog) : String := idText row.id ++ "|" ++ row.contentText

def computeHash [HashLibrary] (row : AuditLog) (prevHash : Option String) : String :=
  HashLibrary.sha256 (row.hashedText ++ "|" ++ prevHash.getD "")

end AuditLog

/-- `'0' * 64` -/
def zeroHash : String := String.ofList (List.replicate 64 '0')

def numberText (n : ℤ) : String := String.ofList (writeInt 10 n)

/-- A key that a caller passes as a number or as a text. -/
inductive ResourceId
  | number (n : ℤ)
  | text (s : String)
  deriving Repr, DecidableEq

/-- `str(resource_id) if resource_id else None` -/
def ResourceId.column : ResourceId → Option String
  | number n => if n = 0 then none else some (numberText n)
  | text s => truthyText (some s)

structure Request where
  forwardedFor : Option String := none
  remoteAddr : Option String := none
  userAgent : Option String := none
  deriving Repr, DecidableEq

def Request.ipAddress (request : Request) : Option String :=
  (request.forwardedFor.or request.remoteAddr).map fun address =>
    if ',' ∈ address.toList then stripSpaces ((splitText ',' address).headD "") else address

def Request.agent (request : Request) : String :=
  String.ofList ((request.userAgent.getD "").toList.take 500)

/-- What a caller passes to be logged. A dictionary given as name or details arrives as its
JSON text. -/
structure AuditCall where
  action : String
  resourceType : Option String := none
  resourceId : Option ResourceId := none
  resourceName : Option String := none
  details : Option String := none
  success : Bool := true
  username : Option String := none
  deriving Repr, DecidableEq

structure IntegrityError where
  id : ℕ
  error : String
  expected : String
  actual : String
  deriving Repr, DecidableEq

structure IntegrityReport where
  valid : Bool
  checked : ℕ
  errors : List IntegrityError
  deriving Repr, DecidableEq

namespace AuditService

variable [HashLibrary]

def newRow (call : AuditCall) (currentUser : Option String) (request : Option Request)
    (now : DateTime) : AuditLog :=
  { timestamp := some now
    username := some ((truthyText (call.username.or currentUser)).getD "anonymous")
    action := call.action
    resourceType := call.resourceType
    resourceId := call.resourceId.bind ResourceId.column
    resourceName := truthyText call.resourceName
    details := truthyText call.details
    ipAddress := request.bind Request.ipAddress
    userAgent := request.map Request.agent
    success := some call.success }

def previousHash (log : Table AuditLog) (id : ℕ) : String :=
  let prevLog := (log.select fun row => row.id < id).getLast?
  ((prevLog.bind fun row => truthyText row.entryHash)).getD zeroHash

def chained (row : AuditLog) (prevHash : String) : AuditLog :=
  { row with prevHash := some prevHash, entryHash := some (row.computeHash (some prevHash)) }

def logAction (log : Table AuditLog) (call : AuditCall) (currentUser : Option String)
    (request : Option Request) (now : DateTime) : Table AuditLog :=
  let auditLog := { newRow call currentUser request now with id := log.nextKey }
  log.insert (chained auditLog (previousHash log auditLog.id))

def checkLogs : String → List AuditLog → List IntegrityError
  | _, [] => []
  | prevHash, row :: rows =>
    match truthyText row.entryHash with
    | none => checkLogs zeroHash rows
    | some entryHash =>
      let computed := row.computeHash row.prevHash
      ((truthyText row.prevHash).toList.filter (· ≠ prevHash)).map
          (fun actual => ⟨row.id, "prev_hash mismatch", prevHash, actual⟩) ++
        (if computed ≠ entryHash then
          [⟨row.id, "entry_hash mismatch (tampered)", computed, entryHash⟩] else []) ++
        checkLogs entryHash rows

def inRange (startId endId : Option ℤ) (row : AuditLog) : Bool :=
  (startId.filter (· ≠ 0)).all (fun n => n ≤ (row.id : ℤ)) &&
    (endId.filter (· ≠ 0)).all fun n => (row.id : ℤ) ≤ n

def verifyIntegrity (log : Table AuditLog) (startId endId : Option ℤ := none) : IntegrityReport :=
  match log.select (inRange startId endId) with
  | [] => ⟨true, 0, []⟩
  | rows =>
    let errors := checkLogs zeroHash rows
    ⟨errors.length = 0, rows.length, errors⟩

end AuditService

section Cleanups

def AuditLog.olderThan (cutoff : DateTime) (row : AuditLog) : Bool :=
  row.timestamp.any fun t => t.before cutoff

/-- A bulk deletion through the object mapper, which refuses a query with a limit. -/
def bulkDelete (log : Table AuditLog) (p : AuditLog → Bool) (limit : Option ℕ) :
    Except String (ℕ × Table AuditLog) :=
  match limit with
  | none => .ok ((log.select p).length, log.deleteWhere p)
  | some _ =>
    .error "Can't call Query.update() or Query.delete() when limit() has been called"

def AuditService.cleanupOldLogs (log : Table AuditLog) (cutoff : DateTime) :
    Except String (ℕ × Table AuditLog) :=
  bulkDelete log (AuditLog.olderThan cutoff) none

structure CleanupResult where
  deleted : ℕ
  message : String
  error : Option String := none
  deriving Repr, DecidableEq

namespace RetentionPolicy

def batchSize : ℕ := 1000

def deleteBatches (cutoff : DateTime) :
    ℕ → Table AuditLog → ℕ → Except String (ℕ × Table AuditLog)
  | 0, log, total => .ok (total, log)
  | fuel + 1, log, total => do
    let (deleted, log) ← bulkDelete log (AuditLog.olderThan cutoff) (some batchSize)
    if deleted < batchSize then .ok (total + deleted, log)
    else deleteBatches cutoff fuel log (total + deleted)

def cleanupAuditLogs (log : Table AuditLog) (cutoff : DateTime) : CleanupResult × Table AuditLog :=
  if (log.select (AuditLog.olderThan cutoff)).length = 0 then
    (⟨0, "No logs older than retention period", none⟩, log)
  else
    match deleteBatches cutoff (log.rows.length + 1) log 0 with
    | .ok (deleted, log) => (⟨deleted, s!"Successfully deleted {deleted} old audit logs", none⟩, log)
    | .error e => (⟨0, "Failed to clean up audit logs", some e⟩, log)

@[simp] theorem cleanupAuditLogs_snd (log : Table AuditLog) (cutoff : DateTime) :
    (cleanupAuditLogs log cutoff).2 = log := by
  unfold cleanupAuditLogs
  split_ifs <;> rfl

end RetentionPolicy

end Cleanups

inductive OtherWriter
  | smartImport (action : String) (resourceId : ℤ) (resourceName username : String)
  | autoRenewed (newCertId : Option ℤ) (commonName : Option String) (certId : ℤ)
  | crlToggled (caId : ℤ) (caDescr username : String) (enabled : Bool)
      (remoteAddr : Option String)
  | estIssued (subject username : String) (remoteAddr : Option String)
  | estRenewed (subject : String) (remoteAddr : Option String)
  deriving Repr, DecidableEq

namespace OtherWriter

def row (now : DateTime) : OtherWriter → AuditLog
  | smartImport action resourceId resourceName username =>
    { timestamp := some now, username := some username, action
      resourceType := some (if occursIn "csr" action || occursIn "certificate" action then
        "certificate" else "ca")
      resourceId := some (numberText resourceId), resourceName := some resourceName }
  | autoRenewed newCertId commonName certId =>
    { timestamp := some now, action := "certificate.auto_renewed"
      resourceType := some "certificate", resourceId := newCertId.map numberText
      resourceName := commonName
      details := some ("Auto-renewed cert " ++ numberText certId ++ ", new cert " ++
        (newCertId.map numberText).getD "unknown") }
  | crlToggled caId caDescr username enabled remoteAddr =>
    { timestamp := some now, username := some username, action := "crl_auto_regen_toggle"
      resourceType := some "ca", resourceId := some (numberText caId)
      resourceName := some caDescr
      details := some ((if enabled then "Enabled" else "Disabled") ++
        " automatic CRL regeneration")
      ipAddress := remoteAddr }
  | estIssued subject username remoteAddr =>
    { timestamp := some now, username := some username, action := "certificate.issued"
      resourceType := some "certificate", resourceName := some subject
      details := some ("EST enrollment from " ++ orNone remoteAddr) }
  | estRenewed subject remoteAddr =>
    { timestamp := some now, username := some "mtls-client", action := "certificate.renewed"
      resourceType := some "certificate", resourceName := some subject
      details := some ("EST re-enrollment via mTLS from " ++ orNone remoteAddr) }

theorem entryHash_row (now : DateTime) (w : OtherWriter) : (w.row now).entryHash = none := by
  cases w <;> rfl

end OtherWriter

namespace Audit

/-- What happens to the log: a logged action, a row of another service, a clean-up, or a
verification, which only reads. A clean-up is given by its cutoff. -/
inductive Event
  | logAction (call : AuditCall) (currentUser : Option String) (request : Option Request)
      (now : DateTime)
  | write (writer : OtherWriter) (now : DateTime)
  | cleanupOldLogs (cutoff : DateTime)
  | cleanupAuditLogs (cutoff : DateTime)
  | verify (startId endId : Option ℤ)
  deriving Repr, DecidableEq

variable [HashLibrary]

def step (log : Table AuditLog) : Event → Table AuditLog
  | .logAction call currentUser request now =>
    AuditService.logAction log call currentUser request now
  | .write writer now => log.insert (writer.row now)
  | .cleanupOldLogs cutoff =>
    match AuditService.cleanupOldLogs log cutoff with
    | .ok (_, log) => log
    | .error _ => log
  | .cleanupAuditLogs cutoff => (RetentionPolicy.cleanupAuditLogs log cutoff).2
  | .verify .. => log

end Audit

end CaManager
