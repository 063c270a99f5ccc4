import CaManager.Library.Dictionaries
import CaManager.Library.Machines
import Mathlib.Algebra.Order.Ring.Int
import Mathlib.Logic.Function.Basic

/-!
# The task scheduler

One thread lists the tasks that are due, runs them one after the other, and sleeps. Calls from
other threads register, enable and disable tasks, and run a task at once. The lock is held while
tasks are looked up or listed, and never while one runs. Task objects are shared: the registry, the
list that is being worked off and the calls hold references to them. Instants are in microseconds.
-/

namespace CaManager

open Library

namespace Scheduler

def seconds (n : ℤ) : ℤ := n * 1000000

structure ScheduledTask where
  name : String
  /-- The seconds between executions. -/
  interval : ℤ
  enabled : Bool := true
  lastRun : Option ℤ := none
  nextRun : Option ℤ := none
  runCount : ℕ := 0
  lastError : Option String := none
  lastDuration : ℤ := 0
  createdAt : ℤ
  deriving Repr, DecidableEq

namespace ScheduledTask

def shouldRun (t : ScheduledTask) (now : ℤ) : Bool :=
  if t.enabled = false then false
  else
    match t.lastRun with
    | none => decide (seconds 30 ≤ now - t.createdAt)
    | some last => decide (seconds t.interval ≤ now - last)

/-- What `_run_task` writes once the function of the task has returned or raised an exception. -/
def finished (t : ScheduledTask) (outcome : Except String Unit) (startedAt now : ℤ) :
    ScheduledTask :=
  match outcome with
  | .ok _ =>
    { t with
      lastDuration := now - startedAt
      lastError := none
      runCount := t.runCount + 1
      lastRun := some now
      nextRun := some (now + seconds t.interval) }
  | .error e =>
    { t with
      lastDuration := now - startedAt
      lastError := some e
      lastRun := some now }

variable (t : ScheduledTask) (outcome : Except String Unit) (startedAt now : ℤ)

@[simp] theorem name_finished : (t.finished outcome startedAt now).name = t.name := by
  cases outcome <;> rfl

@[simp] theorem interval_finished : (t.finished outcome startedAt now).interval = t.interval := by
  cases outcome <;> rfl

@[simp] theorem lastRun_finished : (t.finished outcome startedAt now).lastRun = some now := by
  cases outcome <;> rfl

end ScheduledTask

/-- Where the thread of the scheduler is in `_scheduler_loop`. It makes its list twice; the first
list is never read. -/
inductive Phase
  | asleep (wakesAt : ℤ)
  /-- The tasks that are still to be looked at, and those that were found due; under the lock. -/
  | collecting (rest due : List ℕ)
  | executing (due : List ℕ)
  | running (task : ℕ) (startedAt : ℤ) (due : List ℕ)
  deriving Repr, DecidableEq

namespace Phase

def holdsLock : Phase → Bool
  | collecting _ _ => true
  | _ => false

def task : Phase → Option ℕ
  | running r _ _ => some r
  | _ => none

def due : Phase → List ℕ
  | asleep _ => []
  | collecting _ due => due
  | executing due => due
  | running _ _ due => due

def left : Phase → List ℕ
  | collecting rest due => due ++ rest
  | p => p.due

end Phase

inductive Trigger
  | loop
  | call
  deriving Repr, DecidableEq

structure Start where
  task : ℕ
  name : String
  interval : ℤ
  trigger : Trigger
  instant : ℤ
  /-- The task had been disabled or unregistered, and not been enabled or registered since. -/
  stopped : Bool
  deriving Repr, DecidableEq

/-- What has happened; the program keeps none of it. -/
structure History where
  /-- The last start comes first. -/
  starts : List Start := []
  /-- The names that were disabled or unregistered, and not enabled or registered since. -/
  stopped : List String := []
  deriving Repr, DecidableEq

structure State where
  clock : ℤ
  wakeInterval : ℤ
  /-- The task objects, by reference. -/
  heap : ℕ → ScheduledTask
  /-- The reference of the next object. -/
  next : ℕ := 0
  /-- The registry. -/
  tasks : List (String × ℕ) := []
  phase : Phase
  /-- Calls of `run_task_now` that have looked their task up. -/
  called : List ℕ := []
  /-- Calls of `run_task_now` that are running their task, and since when. -/
  manual : List (ℕ × ℤ) := []
  history : History := {}

namespace State

def registerTask (s : State) (name : String) (interval : ℤ) (enabled : Bool) : State :=
  { s with
    heap := Function.update s.heap s.next { name, interval, enabled, createdAt := s.clock }
    next := s.next + 1
    tasks := setEntry name s.next s.tasks
    history := { s.history with stopped := s.history.stopped.filter (· ≠ name) } }

def unregisterTask (s : State) (name : String) : Bool × State :=
  match s.tasks.lookup name with
  | none => (false, s)
  | some _ =>
    (true, { s with
      tasks := s.tasks.filter fun entry => entry.1 ≠ name
      history := { s.history with stopped := name :: s.history.stopped } })

def setEnabled (s : State) (r : ℕ) (enabled : Bool) : State :=
  { s with heap := Function.update s.heap r { s.heap r with enabled } }

def enableTask (s : State) (name : String) : Bool × State :=
  match s.tasks.lookup name with
  | none => (false, s)
  | some r =>
    (true, { s.setEnabled r true with
      history := { s.history with stopped := s.history.stopped.filter (· ≠ name) } })

def disableTask (s : State) (name : String) : Bool × State :=
  match s.tasks.lookup name with
  | none => (false, s)
  | some r =>
    (true, { s.setEnabled r false with
      history := { s.history with stopped := name :: s.history.stopped } })

/-- `run_task_now` up to the release of the lock. -/
def runTaskNow (s : State) (name : String) : State :=
  match s.tasks.lookup name with
  | none => s
  | some r => { s with called := s.called ++ [r] }

/-- What is kept of a start of `_run_task`. -/
def start (s : State) (r : ℕ) (trigger : Trigger) : Start :=
  ⟨r, (s.heap r).name, (s.heap r).interval, trigger, s.clock,
    decide ((s.heap r).name ∈ s.history.stopped)⟩

def note (s : State) (x : Start) : State :=
  { s with history := { s.history with starts := x :: s.history.starts } }

/-- The end of `_run_task`. No exception of a task leaves it. -/
def finish (s : State) (r : ℕ) (startedAt : ℤ) (outcome : Except String Unit) : State :=
  { s with heap := Function.update s.heap r ((s.heap r).finished outcome startedAt s.clock) }

/-- The next step of `_scheduler_loop`, which waits as long as a task runs. -/
def loop (s : State) : State :=
  match s.phase with
  | .asleep wakesAt =>
    if wakesAt ≤ s.clock then { s with phase := .collecting (s.tasks.map Prod.snd) [] } else s
  | .collecting (r :: rest) due =>
    { s with
      phase := .collecting rest (if (s.heap r).shouldRun s.clock then due ++ [r] else due) }
  | .collecting [] due => { s with phase := .executing due }
  | .executing (r :: due) => { s.note (s.start r .loop) with phase := .running r s.clock due }
  | .executing [] => { s with phase := .asleep (s.clock + seconds s.wakeInterval) }
  | .running _ _ _ => s

def taskEnds (s : State) (outcome : Except String Unit) : State :=
  match s.phase with
  | .running r startedAt due => { s.finish r startedAt outcome with phase := .executing due }
  | _ => s

def callStarts (s : State) (k : ℕ) : State :=
  match s.called[k]? with
  | none => s
  | some r =>
    { s.note (s.start r .call) with
      called := s.called.eraseIdx k
      manual := s.manual ++ [(r, s.clock)] }

def callEnds (s : State) (k : ℕ) (outcome : Except String Unit) : State :=
  match s.manual[k]? with
  | none => s
  | some (r, startedAt) =>
    { s.finish r startedAt outcome with manual := s.manual.eraseIdx k }

end State

inductive Event
  | tick (elapsed : ℕ)
  | loop
  | taskEnds (outcome : Except String Unit)
  | registerTask (name : String) (interval : ℤ) (enabled : Bool)
  | unregisterTask (name : String)
  | enableTask (name : String)
  | disableTask (name : String)
  | runTaskNow (name : String)
  | callStarts (k : ℕ)
  | callEnds (k : ℕ) (outcome : Except String Unit)

def State.locking (s : State) (f : State → State) : State :=
  if s.phase.holdsLock then s else f s

def step (s : State) : Event → State
  | .tick elapsed => { s with clock := s.clock + elapsed }
  | .loop => s.loop
  | .taskEnds outcome => s.taskEnds outcome
  | .registerTask name interval enabled =>
    s.locking fun s => s.registerTask name interval enabled
  | .unregisterTask name => s.locking fun s => (s.unregisterTask name).2
  | .enableTask name => s.locking fun s => (s.enableTask name).2
  | .disableTask name => s.locking fun s => (s.disableTask name).2
  | .runTaskNow name => s.locking fun s => s.runTaskNow name
  | .callStarts k => s.callStarts k
  | .callEnds k outcome => s.callEnds k outcome

def State.initial (clock wakeInterval : ℤ) : State where
  clock
  wakeInterval
  heap _ := { name := "", interval := 0, createdAt := clock }
  phase := .asleep clock

namespace State

variable {s : State}

def refs (s : State) : List ℕ :=
  s.tasks.map Prod.snd ++ (s.phase.task.toList ++ s.phase.left) ++ s.called ++
    s.manual.map Prod.fst ++ s.history.starts.map Start.task

def executing (s : State) : List ℕ :=
  s.phase.task.toList ++ s.manual.map Prod.fst

def executingNames (s : State) : List String :=
  s.executing.map fun r => (s.heap r).name

def loopStarts (s : State) : List Start :=
  s.history.starts.filter fun x => x.trigger = .loop

end State

end Scheduler

end CaManager
