import CaManager.Keys.MasterKey
import CaManager.Library.Tables

/-!
# Switching the encryption of keys on and off

A switch goes through the authorities and then the certificates, converts each key by itself, and
commits what could be converted. The key file is written before or removed after that, and the
loaded key is read again. Each request is a thread, which other requests may interrupt between any
two accesses to the database, the file or the loaded key, and each access may fail.
-/

namespace CaManager

open Library Base64

namespace Switching

open MasterKey

/-- A row of an authority or a certificate, as far as its key goes. -/
structure KeyRow where
  id : ℕ := 0
  refid : String
  prv : Option String := none
  deriving Repr, DecidableEq

instance : Keyed KeyRow where
  key := KeyRow.id
  withKey id r := { r with id }
  key_withKey _ _ := rfl
  withKey_key _ := rfl

inductive KeyTable
  | cas
  | certificates
  deriving Repr, DecidableEq

/-- The two tables, the key file, the environment variable and the loaded key. -/
structure Site where
  cas : Table KeyRow
  certificates : Table KeyRow
  file : Option String := none
  env : Option String := none
  loaded : KeyEncryption := {}
  deriving DecidableEq

namespace Site

def table (s : Site) : KeyTable → Table KeyRow
  | .cas => s.cas
  | .certificates => s.certificates

def setTable (s : Site) (rows : Table KeyRow) : KeyTable → Site
  | .cas => { s with cas := rows }
  | .certificates => { s with certificates := rows }

end Site

/-- The rows that a loop has changed and not committed yet, and what it has counted. -/
structure Progress where
  updates : List (ℕ × String) := []
  converted : ℕ := 0
  skipped : ℕ := 0
  errors : List String := []
  deriving Repr, DecidableEq

/-- What the loops run for. A switch remembers the key file that it found. -/
inductive Job
  | enable (before : Option String)
  | disable (before : Option String)
  | encryptAll (dryRun : Bool)
  deriving Repr, DecidableEq

namespace Job

def before : Job → Option (Option String)
  | enable before => some before
  | disable before => some before
  | encryptAll _ => none

def selects (prv : String) : Job → Bool
  | disable _ => isEncrypted prv
  | _ => !isEncrypted prv

def Reached (prv : String) : Job → Prop
  | enable _ => Sealed prv
  | disable _ => Open prv
  | encryptAll _ => True

variable [FernetLibrary]

def convert (k : KeyEncryption) (draw : ℕ) (prv : String) : Job → Except String String
  | disable _ => k.decrypt prv
  | encryptAll true => .ok prv
  | _ => .ok (k.encrypt draw prv)

end Job

section Loops

variable [FernetLibrary]

def convertRow (k : KeyEncryption) (draws : ℕ → ℕ) (job : Job) (table : String) (p : Progress)
    (row : KeyRow) : Progress :=
  match row.prv with
  | none => p
  | some prv =>
    if job.selects prv then
      match job.convert k (draws row.id) prv with
      | .ok text =>
        { p with
          updates := if text = prv then p.updates else p.updates ++ [(row.id, text)]
          converted := p.converted + 1 }
      | .error e => { p with errors := p.errors ++ [s!"{table} {row.refid}: {e}"] }
    else { p with skipped := p.skipped + 1 }

def convertRows (k : KeyEncryption) (draws : ℕ → ℕ) (job : Job) (table : String)
    (rows : Table KeyRow) (p : Progress) : Progress :=
  rows.rows.foldl (convertRow k draws job table) p

end Loops

def writeUpdates (rows : Table KeyRow) (updates : List (ℕ × String)) : Table KeyRow :=
  updates.foldl (fun rows u => rows.update u.1 fun r => { r with prv := some u.2 }) rows

inductive Place
  | new (refid : String)
  | row (id : ℕ)
  deriving Repr, DecidableEq

def storeKey (rows : Table KeyRow) (prv : Option String) : Place → Table KeyRow
  | .new refid => rows.insert { refid, prv }
  | .row id => rows.update id fun r => { r with prv }

structure Answer where
  job : Job
  status : ℕ
  message : String
  progress : Progress := {}
  deriving Repr, DecidableEq

namespace Job

def raised (permission : Bool) : Job → Answer
  | enable before =>
    if permission then
      { job := enable before, status := 403
        message := "Permission denied: cannot write to /etc/ucm/master.key. " ++
          "Ensure the UCM process has write access to /etc/ucm/." }
    else { job := enable before, status := 500, message := "Failed to enable encryption" }
  | disable before =>
    { job := disable before, status := 500, message := "Failed to disable encryption" }
  | encryptAll dryRun => { job := encryptAll dryRun, status := 500, message := "Encryption failed" }

def succeeded (p : Progress) : Job → Answer
  | enable before =>
    { job := enable before, status := 200
      message := s!"Encryption enabled. {p.converted} keys encrypted.", progress := p }
  | disable before =>
    { job := disable before, status := 200
      message := s!"Encryption disabled. {p.converted} keys decrypted.", progress := p }
  | encryptAll true =>
    { job := encryptAll true, status := 200, progress := p
      message :=
        s!"[DRY RUN] Would encrypt {p.converted} keys, {p.skipped} already encrypted" }
  | encryptAll false =>
    { job := encryptAll false, status := 200, progress := p
      message := s!"Encrypted {p.converted} keys, skipped {p.skipped} (already encrypted)" }

theorem status_raised (job : Job) (permission : Bool) : (job.raised permission).status ≠ 200 := by
  cases job with
  | enable before => cases permission <;> simp [raised]
  | disable before => simp [raised]
  | encryptAll dryRun => simp [raised]

@[simp] theorem job_raised (job : Job) (permission : Bool) : (job.raised permission).job = job := by
  cases job with
  | enable before => cases permission <;> rfl
  | disable before => rfl
  | encryptAll dryRun => rfl

@[simp] theorem job_succeeded (job : Job) (p : Progress) : (job.succeeded p).job = job := by
  cases job with
  | enable before => rfl
  | disable before => rfl
  | encryptAll dryRun => cases dryRun <;> rfl

theorem status_succeeded (job : Job) (p : Progress) : (job.succeeded p).status = 200 := by
  cases job with
  | enable before => rfl
  | disable before => rfl
  | encryptAll dryRun => cases dryRun <;> rfl

end Job

/-- Where a request is. A disabling that has committed remembers whether that changed a column. -/
inductive Thread
  | storing (table : KeyTable) (place : Place) (prv : Option String)
  | loading (before : Option String)
  | authorities (job : Job)
  | certificates (job : Job) (p : Progress)
  | committing (job : Job) (caUpdates : List (ℕ × String)) (p : Progress)
  | removing (before : Option String) (p : Progress) (wrote : Bool)
  | reloading (before : Option String) (p : Progress) (wrote : Bool)
  | answering (job : Job) (p : Progress)
  | finished
  deriving Repr, DecidableEq

/-- What a thread does at once: the site after it, where the thread is then, and its answer, with
whether the request has changed a column. -/
structure Transition where
  site : Site
  thread : Thread := .finished
  answer : Option Answer := none
  wrote : Bool := false

/-- How writing the key file ends. An exception may leave anything in its place. -/
inductive Written
  | done
  | raised (permission : Bool) (left : Option String)
  deriving Repr, DecidableEq

/-- A request. One that stores a key may encrypt it first; a switch draws a new key. -/
inductive Request
  | store (table : KeyTable) (place : Place) (prv : Option String) (encrypts : Bool) (draw : ℕ)
  | enable (key : String) (written : Written)
  | disable
  | encryptAll (dryRun : Bool)

structure World where
  fails : Bool := false
  permission : Bool := false
  unreadable : Bool := false
  stuck : Bool := false
  draws : ℕ → ℕ := fun _ => 0

def World.readFile (w : World) (file : Option String) : Option String :=
  if w.unreadable then none else file

section Steps

variable [FernetLibrary]

def Request.start (s : Site) : Request → Transition
  | .store table place prv encrypts draw =>
    { site := s
      thread := .storing table place (if encrypts then prv.map (s.loaded.encrypt draw) else prv) }
  | .enable key written =>
    if s.loaded.isEnabled then
      { site := s, answer := some ⟨.enable s.file, 400, "Encryption is already enabled", {}⟩ }
    else
      match written with
      | .done => { site := { s with file := some (key ++ "\n") }, thread := .loading s.file }
      | .raised permission left =>
        { site := { s with file := left }
          answer := some ((Job.enable s.file).raised permission) }
  | .disable =>
    if s.loaded.isEnabled then { site := s, thread := .authorities (.disable s.file) }
    else { site := s, answer := some ⟨.disable s.file, 400, "Encryption is not enabled", {}⟩ }
  | .encryptAll dryRun => { site := s, thread := .authorities (.encryptAll dryRun) }

def afterLoops (s : Site) (p : Progress) (wrote : Bool) : Job → Transition
  | .disable before =>
    if p.errors = [] then { site := s, thread := .removing before p wrote, wrote }
    else
      { site := s, wrote
        answer := some
          { job := .disable before, status := 500
            message := "Failed to decrypt some keys: " ++ ", ".intercalate (p.errors.take 3) ++
              ". Encryption NOT disabled to prevent data loss." } }
  | job => { site := s, thread := .answering job p, wrote }

def Thread.proceed (w : World) (s : Site) : Thread → Transition
  | .storing table place prv =>
    { site := if w.fails then s else s.setTable (storeKey (s.table table) prv place) table }
  | .loading before =>
    if w.fails then
      { site := { s with loaded := {} }
        answer := some ((Job.enable before).raised w.permission) }
    else
      let loaded := KeyEncryption.reload (w.readFile s.file) s.env
      if loaded.isEnabled then
        { site := { s with loaded }, thread := .authorities (.enable before) }
      else if w.stuck then
        { site := { s with loaded }, answer := some ((Job.enable before).raised w.permission) }
      else
        { site := { s with loaded, file := none }
          answer := some ⟨.enable before, 500,
            "Failed to initialize encryption after key generation", {}⟩ }
  | .authorities job =>
    if s.loaded.isEnabled = false then
      afterLoops s { errors := ["Encryption not enabled"] } false job
    else if w.fails then { site := s, answer := some (job.raised false) }
    else
      { site := s
        thread := .certificates job (convertRows s.loaded w.draws job "CA" s.cas {}) }
  | .certificates job p =>
    if w.fails then { site := s, answer := some (job.raised false) }
    else
      let p' := convertRows s.loaded w.draws job "Certificate" s.certificates
        { p with updates := [] }
      if job = .encryptAll true then { site := s, thread := .answering job p' }
      else { site := s, thread := .committing job p.updates p' }
  | .committing job caUpdates p =>
    if w.fails then { site := s, answer := some (job.raised false) }
    else
      let s' := { s with
        cas := writeUpdates s.cas caUpdates
        certificates := writeUpdates s.certificates p.updates }
      afterLoops s' p (decide (s' ≠ s)) job
  | .removing before p wrote =>
    if w.fails then { site := s, answer := some ((Job.disable before).raised false), wrote }
    else { site := { s with file := none }, thread := .reloading before p wrote, wrote }
  | .reloading before p wrote =>
    if w.fails then
      { site := { s with loaded := {} }, wrote
        answer := some ((Job.disable before).raised false) }
    else
      let loaded := KeyEncryption.reload (w.readFile s.file) s.env
      { site := { s with loaded }, thread := .answering (.disable before) p, wrote }
  | .answering job p => { site := s, answer := some (job.succeeded p) }
  | .finished => { site := s }

end Steps

structure Server where
  site : Site
  threads : List Thread := []

inductive Event
  | start (r : Request)
  | proceed (i : ℕ) (w : World)

namespace Server

variable [FernetLibrary]

def transition (s : Server) : Event → Transition
  | .start r => r.start s.site
  | .proceed i w => (s.threads[i]?.getD .finished).proceed w s.site

def step (s : Server) (e : Event) : Server where
  site := (s.transition e).site
  threads :=
    match e with
    | .start _ => s.threads ++ [(s.transition e).thread]
    | .proceed i _ => s.threads.set i (s.transition e).thread

end Server

/-- What switching promises at each step: the key file is removed only when no stored value is
encrypted under it, an error leaves the columns and the file as they were, and a success leaves
all keys encrypted or all readable. -/
structure Safe [FernetLibrary] (s : Site) (t : Transition) : Prop where
  removed : ∀ key ∈ s.file, t.site.file = none → ∀ k, ∀ r ∈ s.table k, ∀ prv ∈ r.prv,
    ¬EncryptedUnder (stripSpaces key) prv
  failed : ∀ a ∈ t.answer, a.status ≠ 200 → ∀ before ∈ a.job.before,
    t.site.file = before ∧ t.wrote = false
  succeeded : ∀ a ∈ t.answer, a.status = 200 → ∀ k, ∀ r ∈ t.site.table k, ∀ prv ∈ r.prv,
    a.job.Reached prv

end Switching

end CaManager
