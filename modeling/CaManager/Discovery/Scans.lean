import CaManager.Library.Machines
import CaManager.Library.Permits
import CaManager.Library.Tables
import CaManager.X509

/-!
# Discovery scans

A scan is asked for by an administrator, or by the scheduler for a profile that is due. It takes
one of a few permits, its run is recorded, and a thread probes the targets and writes what it
found, and after that when the profile is due again. The thread releases the permit however it
ends. What is probed, and what was found, is left out.
-/

namespace CaManager

open Library

/-- `ScanProfile` -/
structure ScanProfile where
  id : ℕ := 0
  name : String
  targets : List String
  scheduleEnabled : Bool := false
  scheduleIntervalMinutes : ℤ := 1440
  lastScanAt : Option Time := none
  nextScanAt : Option Time := none
  deriving Repr, DecidableEq

instance : Keyed ScanProfile where
  key := ScanProfile.id
  withKey k p := { p with id := k }
  key_withKey _ _ := rfl
  withKey_key _ := rfl

namespace ScanProfile

def interval (p : ScanProfile) : ℤ := 60 * p.scheduleIntervalMinutes

def isDue (p : ScanProfile) (now : Time) : Bool :=
  p.scheduleEnabled && p.nextScanAt.any (· ≤ now)

/-- What a scan that began at `now` writes when it has come to its end. -/
def scanned (p : ScanProfile) (now : Time) : ScanProfile :=
  { p with
    lastScanAt := some now
    nextScanAt := if p.scheduleEnabled then some (now + p.interval) else p.nextScanAt }

end ScanProfile

inductive ScanTrigger
  | manual
  | scheduled
  deriving Repr, DecidableEq

inductive ScanStatus
  | running
  | completed
  | failed
  deriving Repr, DecidableEq

/-- `ScanRun` -/
structure ScanRun where
  id : ℕ := 0
  scanProfileId : Option ℕ
  startedAt : Time
  completedAt : Option Time := none
  status : ScanStatus := .running
  triggeredBy : ScanTrigger
  deriving Repr, DecidableEq

instance : Keyed ScanRun where
  key := ScanRun.id
  withKey k r := { r with id := k }
  key_withKey _ _ := rfl
  withKey_key _ := rfl

namespace Discovery

def maxConcurrentScans : ℕ := 3

inductive Stage
  /-- `_prepare_and_launch_scan` builds the list of jobs. -/
  | preparing
  /-- The run is recorded, and its thread comes next. -/
  | recorded (runId : ℕ)
  /-- The thread has started. -/
  | launched (runId : ℕ)
  /-- The targets are being probed, since `now`. -/
  | probing (runId : ℕ) (now : Time)
  /-- The run is complete, and the profile comes next. -/
  | completed (runId : ℕ) (now : Time)
  /-- The profile has been written, and the notifications come next. -/
  | settled (runId : ℕ)
  deriving Repr, DecidableEq

/-- A scan that holds a permit; the ticket numbers the permits as they are acquired. -/
structure Scan where
  ticket : ℕ
  profileId : Option ℕ
  triggeredBy : ScanTrigger
  stage : Stage
  deriving Repr, DecidableEq

/-- A scan is in progress from the record of its run to the release of its permit. -/
def Scan.inProgress (x : Scan) : Bool :=
  match x.stage with
  | .preparing => false
  | _ => true

/-- The profile that the scheduler is starting a scan of, as long as no run is recorded. -/
def Scan.preparedFor (x : Scan) : Option ℕ :=
  match x.triggeredBy, x.stage with
  | .scheduled, .preparing => x.profileId
  | _, _ => none

def Scan.occupiesScheduler (x : Scan) : Bool :=
  match x.triggeredBy, x.stage with
  | .scheduled, .preparing => true
  | .scheduled, .recorded _ => true
  | _, _ => false

/-- What has happened; the program keeps none of it. -/
structure History where
  acquired : ℕ := 0
  released : List ℕ := []
  /-- Profiles whose next scan has not been set since the scheduler last started one. -/
  unsettled : List ℕ := []
  /-- Profiles that the last wake-up found due and not unsettled. -/
  fresh : List ℕ := []
  deriving Repr, DecidableEq

structure State where
  clock : Time
  profiles : Table ScanProfile
  runs : Table ScanRun := ∅
  /-- The value of `_scan_semaphore`. -/
  permits : ℕ := maxConcurrentScans
  scans : List Scan := []
  /-- The profiles that are left of the loop of the scheduler. -/
  due : List ℕ := []
  history : History := {}
  deriving DecidableEq

namespace State

def setStage (s : State) (ticket : ℕ) (stage : Stage) : State :=
  { s with scans := s.scans.map fun x => if x.ticket = ticket then { x with stage } else x }

/-- `_scan_semaphore.release()` -/
def release (s : State) (ticket : ℕ) : State :=
  { s with
    permits := s.permits + 1
    scans := s.scans.filter fun x => x.ticket ≠ ticket
    history := { s.history with released := ticket :: s.history.released } }

/-- `start_scan` up to the permit, which it does not wait for. -/
def startScan (s : State) (profileId : Option ℕ) (triggeredBy : ScanTrigger) : State :=
  if s.permits = 0 then s
  else
    { s with
      permits := s.permits - 1
      scans := s.scans ++ [⟨s.history.acquired, profileId, triggeredBy, .preparing⟩]
      history := { s.history with acquired := s.history.acquired + 1 } }

def record (s : State) (x : Scan) : State :=
  let s' := s.setStage x.ticket (.recorded s.runs.nextKey)
  { s' with
    runs := s.runs.insert
      { scanProfileId := x.profileId, startedAt := s.clock, triggeredBy := x.triggeredBy }
    history := { s.history with
      unsettled := match x.triggeredBy with
        | .scheduled => x.profileId.toList ++ s.history.unsettled
        | .manual => s.history.unsettled } }

/-- Write the profile of a scan that began at `now`, if there is a `profile_id`. -/
def settle (s : State) (x : Scan) (runId : ℕ) (now : Time) : State :=
  let s' := s.setStage x.ticket (.settled runId)
  match x.profileId.filter (· ≠ 0) with
  | none => s'
  | some p =>
    { s' with
      profiles := s.profiles.update p fun profile => profile.scanned now
      history := { s.history with unsettled := s.history.unsettled.filter (· ≠ p) } }

def complete (s : State) (x : Scan) (runId : ℕ) (now : Time) : State :=
  let s' := s.setStage x.ticket (.completed runId now)
  { s' with
    runs := s.runs.update runId fun r =>
      { r with completedAt := some s.clock, status := .completed } }

/-- `_fail_run` -/
def failRun (s : State) (runId : ℕ) : State :=
  { s with
    runs := s.runs.update runId fun r =>
      { r with status := .failed, completedAt := some s.clock } }

/-- The next step of a scan: of `_prepare_and_launch_scan`, and of `_do_scan` once its thread has
started. -/
def advance (s : State) (x : Scan) : State :=
  match x.stage with
  | .preparing => s.record x
  | .recorded runId => s.setStage x.ticket (.launched runId)
  | .launched runId =>
    match s.runs.get? runId with
    | none => s.release x.ticket
    | some _ => s.setStage x.ticket (.probing runId s.clock)
  | .probing runId now => s.complete x runId now
  | .completed runId now => s.settle x runId now
  | .settled _ => s.release x.ticket

/-- A scan raises an exception. The run is marked if its thread has started, unless that raises as
well. -/
def fail (s : State) (x : Scan) (marks : Bool) : State :=
  match x.stage with
  | .preparing | .recorded _ => s.release x.ticket
  | .launched runId | .probing runId _ | .completed runId _ | .settled runId =>
    if marks then (s.failRun runId).release x.ticket else s.release x.ticket

def schedulerBusy (s : State) : Bool :=
  !s.due.isEmpty || s.scans.any Scan.occupiesScheduler

def dueProfiles (s : State) : List ℕ :=
  (s.profiles.select fun p => p.isDue s.clock).map ScanProfile.id

/-- `DiscoverySchedulerTask.execute` as far as the query for what is due. -/
def wakeUp (s : State) : State :=
  if s.schedulerBusy then s
  else
    { s with
      due := s.dueProfiles
      history := { s.history with
        fresh := s.dueProfiles.filter fun p => p ∉ s.history.unsettled } }

def scheduleNext (s : State) : State :=
  if s.scans.any Scan.occupiesScheduler then s
  else
    match s.due with
    | [] => s
    | p :: due =>
      let s' := { s with due }
      match s.profiles.get? p with
      | none => s'
      | some profile =>
        match profile.targets with
        | [] => s'
        | _ :: _ => s'.startScan (some p) .scheduled

/-- `scan_profile` -/
def scanProfile (s : State) (profileId : ℕ) : State :=
  match s.profiles.get? profileId with
  | none => s
  | some _ => s.startScan (some profileId) .manual

def scan? (s : State) (ticket : ℕ) : Option Scan :=
  s.scans.find? fun x => x.ticket = ticket

end State

inductive Event
  | tick (elapsed : ℕ)
  | wakeUp
  | scheduleNext
  | scanProfile (profileId : ℕ)
  /-- `ad_hoc_scan` -/
  | adHocScan
  | advance (ticket : ℕ)
  | fail (ticket : ℕ) (marks : Bool)
  deriving Repr, DecidableEq

def step (s : State) : Event → State
  | .tick elapsed => { s with clock := s.clock + elapsed }
  | .wakeUp => s.wakeUp
  | .scheduleNext => s.scheduleNext
  | .scanProfile profileId => s.scanProfile profileId
  | .adHocScan => s.startScan none .manual
  | .advance ticket =>
    match s.scan? ticket with
    | none => s
    | some x => s.advance x
  | .fail ticket marks =>
    match s.scan? ticket with
    | none => s
    | some x => s.fail x marks

end Discovery

end CaManager
