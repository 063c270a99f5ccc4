import CaManager.Library.Machines
import CaManager.Library.Texts
import Mathlib.Data.List.Nodup

/-!
# The migration runner

A migration is a file with an upgrade function or with a script of statements. Pending migrations
are run in the order of their file names, and a migration that was run is recorded by its name.
What a statement changes is in effect for good once it is committed; which statements fail, and
how, is an argument. The ordinary interface of the database opens a transaction before a statement
that changes data and before no other, and a script commits first and then each of its statements.
-/

namespace CaManager

open Library

namespace MigrationRunner

structure SqlError where
  isIntegrityError : Bool
  text : String
  deriving Repr, DecidableEq

def SqlError.saysExists (e : SqlError) : Bool :=
  occursIn "already exists" (lower e.text) || occursIn "duplicate" (lower e.text)

/-- A statement changes data or the schema; some do nothing where their effect is there already. -/
structure Statement where
  changesData : Bool
  ifMissing : Bool
  deriving Repr, DecidableEq

/-- What an upgrade function does with its connection. -/
inductive Action
  | execute (s : Statement)
  | executescript (ss : List Statement)
  | commit
  deriving Repr, DecidableEq

def Action.statements : Action → List Statement
  | execute s => [s]
  | executescript ss => ss
  | commit => []

/-- The connection that an upgrade function works on: the runner's, or one of its own. -/
inductive Channel
  | conn
  | own
  deriving Repr, DecidableEq

/-- How an upgrade function is called, by the names of its parameters. Without any it works on the
session of the application, and a parameter that is not named for a connection is a path. -/
def channelOf : List String → Channel
  | [] => .own
  | [first] => if occursIn "conn" (lower first) then .conn else .own
  | _ => .conn

/-- What a file defines: an upgrade function, with its parameters, and a script. -/
structure Module where
  upgrade : Option (List String × List Action) := none
  migrationSql : Option (List Statement) := none
  deriving Repr, DecidableEq

/-- What is run of a file: the function, else the script, if it has either. -/
def Module.body (m : Module) : Option (Channel × List Action) :=
  match m.upgrade, m.migrationSql with
  | some (parameters, actions), _ => some (channelOf parameters, actions)
  | none, some ss => some (.conn, [.executescript ss])
  | none, none => none

structure MigrationFile where
  stem : String
  module : Option Module
  deriving Repr, DecidableEq

namespace MigrationFile

def name (f : MigrationFile) : String := f.stem ++ ".py"

def body (f : MigrationFile) : Option (Channel × List Action) := f.module.bind Module.body

def actions (f : MigrationFile) : List Action := (f.body.map Prod.snd).getD []

def statements (f : MigrationFile) : List Statement := f.actions.flatMap Action.statements

end MigrationFile

structure Directory where
  files : List MigrationFile
  nodup : (files.map MigrationFile.stem).Nodup

/-- The migrations in the order of their names. Names with a line in front are passed over. -/
def Directory.migrations (dir : Directory) : List MigrationFile :=
  (dir.files.mergeSort fun f g => f.name ≤ g.name).filter fun f => !startsWith f.name "_"

def getPendingMigrations (dir : Directory) (applied : List String) : List MigrationFile :=
  dir.migrations.filter fun f => f.stem ∉ applied

/-- A statement of a migration, by the name of the migration and its number there. -/
abbrev Effect := String × ℕ

/-- The statements that are in effect, and those of the transaction that is open. -/
structure Connection where
  durable : List Effect
  pending : List Effect := []
  inTransaction : Bool := false
  deriving Repr, DecidableEq

namespace Connection

def commit (c : Connection) : Connection := ⟨c.durable ++ c.pending, [], false⟩

def begin (c : Connection) : Connection := { c with inTransaction := true }

def add (c : Connection) (s : Statement) (x : Effect) : Connection :=
  if s.ifMissing ∧ x ∈ c.durable ++ c.pending then c
  else if c.inTransaction then { c with pending := c.pending ++ [x] }
  else { c with durable := c.durable ++ [x] }

end Connection

/-- How far a migration has come: the number of its next statement, and what was raised. -/
structure Progress where
  conn : Connection
  number : ℕ := 0
  error : Option SqlError := none
  deriving Repr, DecidableEq

section Execution

variable (stem : String) (fails : ℕ → Option SqlError)

def execute (p : Progress) (s : Statement) : Progress :=
  match p.error, fails p.number with
  | some _, _ => p
  | none, some e => { p with error := some e }
  | none, none => { p with conn := p.conn.add s (stem, p.number), number := p.number + 1 }

def Progress.opened (p : Progress) (s : Statement) : Progress :=
  if p.error = none ∧ s.changesData then { p with conn := p.conn.begin } else p

def Progress.commit (p : Progress) : Progress :=
  if p.error = none then { p with conn := p.conn.commit } else p

def perform (p : Progress) : Action → Progress
  | .execute s => execute stem fails (p.opened s) s
  | .executescript ss => ss.foldl (execute stem fails) p.commit
  | .commit => p.commit

def performAll (durable : List Effect) (actions : List Action) : Progress :=
  actions.foldl (perform stem fails) ⟨⟨durable, [], false⟩, 0, none⟩

end Execution

/-- The tables: the names that are recorded, and the statements in effect in the order in which
they took effect. Beside them stand the migrations that were called, each with the names that were
recorded then. -/
structure Database where
  recorded : List String
  effects : List Effect
  calls : List (String × List String) := []
  deriving Repr, DecidableEq

/-- One call of the runner: what fails in it, and whether it only pretends. -/
structure Attempt where
  fails : String → ℕ → Option SqlError
  dryRun : Bool := false

def record (db : Database) (stem : String) : Database :=
  { db with recorded := db.recorded ++ [stem] }

/-- A migration that came to its end is recorded, and what it left in the transaction of the
runner is committed with the record. -/
def finish (db : Database) (f : MigrationFile) (channel : Channel) (p : Progress) : Database :=
  if f.stem ∈ db.recorded then { db with effects := p.conn.durable }
  else
    match channel with
    | .conn => record { db with effects := p.conn.commit.durable } f.stem
    | .own => record { db with effects := p.conn.durable } f.stem

def recover (db : Database) (f : MigrationFile) (e : SqlError) (p : Progress) : Bool × Database :=
  let db := { db with effects := p.conn.durable }
  if e.isIntegrityError then (true, db)
  else if e.saysExists then (true, if f.stem ∈ db.recorded then db else record db f.stem)
  else (false, db)

/-- Run one migration. There is no answer where the file cannot be loaded, and then the runner
does not go on either. -/
def runMigration (a : Attempt) (db : Database) (f : MigrationFile) : Option Bool × Database :=
  match f.module with
  | none => (none, db)
  | some m =>
    if a.dryRun then (some true, db)
    else
      match m.body with
      | none => (some false, db)
      | some (channel, actions) =>
        let p := performAll f.stem (a.fails f.stem) db.effects actions
        let db := { db with calls := db.calls ++ [(f.stem, db.recorded)] }
        match p.error with
        | none => (some true, finish db f channel p)
        | some e => ((recover db f e p).1, (recover db f e p).2)

def runPending (a : Attempt) (db : Database) : List MigrationFile → Database
  | [] => db
  | f :: fs =>
    match runMigration a db f with
    | (some true, db) => runPending a db fs
    | (_, db) => db

def runAllMigrations (dir : Directory) (db : Database) (a : Attempt) : Database :=
  runPending a db (getPendingMigrations dir db.recorded)

end MigrationRunner

end CaManager

/-!
# Runs of the migrations

What a failed migration leaves in the database depends on where its transactions begin and end. A
record of it is made where it came to its end, and in some cases where it did not. The conditions
below say of every call of a migration that the record and the statements in effect agree after it.
-/

namespace CaManager

open Library

namespace MigrationRunner

section Execution

variable {stem : String} {fails : ℕ → Option SqlError} {p p₀ : Progress} {s : Statement}
  {ss rest : List Statement}

/-- The statements up to the next one are in effect or in the open transaction, in their order. -/
structure Whole (stem : String) (p : Progress) : Prop where
  statements : p.conn.durable ++ p.conn.pending = (List.range p.number).map fun i => (stem, i)
  idle : p.conn.inTransaction = false → p.conn.pending = []

theorem Whole.next_notMem (h : Whole stem p) :
    (stem, p.number) ∉ p.conn.durable ++ p.conn.pending := by
  rw [h.statements]
  simp

theorem Whole.execute (h : Whole stem p) : Whole stem (execute stem fails p s) := by
  unfold MigrationRunner.execute
  split
  · exact h
  · exact ⟨h.statements, h.idle⟩
  · have hadd : p.conn.add s (stem, p.number) =
        if p.conn.inTransaction then { p.conn with pending := p.conn.pending ++ [(stem, p.number)] }
        else { p.conn with durable := p.conn.durable ++ [(stem, p.number)] } :=
      if_neg fun hdone => h.next_notMem hdone.2
    constructor
    · rw [hadd, List.range_succ, List.map_append, ← h.statements]
      split_ifs with hopen
      · simp
      · simp [h.idle (by simpa using hopen)]
    · rw [hadd]
      split_ifs with hopen
      · intro hidle
        exact absurd hopen (by simp [show p.conn.inTransaction = false from hidle])
      · exact h.idle

theorem Whole.opened (h : Whole stem p) : Whole stem (p.opened s) := by
  unfold Progress.opened
  split_ifs
  · exact ⟨h.statements, nofun⟩
  · exact h

theorem Whole.commit (h : Whole stem p) : Whole stem p.commit := by
  unfold Progress.commit
  split_ifs
  · constructor
    · simpa [Connection.commit] using h.statements
    · exact fun _ => rfl
  · exact h

/-- The next statement is the first of the rest, or one of them has failed. -/
def Aligned (fails : ℕ → Option SqlError) (ss rest : List Statement) (p : Progress) : Prop :=
  match p.error with
  | none => ∃ done, ss = done ++ rest ∧ done.length = p.number
  | some e => p.number < ss.length ∧ fails p.number = some e

def doneAnew (old : List Effect) (ss : List Statement) (x : Effect) : Bool :=
  !(old.any (· = x) && (ss[x.2]?).any Statement.ifMissing)

theorem doneAnew_eq_true_iff {old : List Effect} {x : Effect} :
    doneAnew old ss x = true ↔ (x ∈ old → (ss[x.2]?).any Statement.ifMissing = false) := by
  unfold doneAnew
  rw [Bool.not_eq_true', Bool.and_eq_false_iff, List.any_eq_false]
  constructor
  · rintro (hold | hif) hx
    · exact absurd (decide_eq_true rfl) (hold x hx)
    · exact hif
  · intro h
    by_cases hx : x ∈ old
    · exact .inr (h hx)
    · exact .inl fun y hy hxy => hx (of_decide_eq_true hxy ▸ hy)

/-- The same statements were executed where some of them were in effect before. -/
structure SameConnection (old : List Effect) (ss : List Statement) (c c₀ : Connection) : Prop where
  durable : c.durable = old ++ c₀.durable.filter (doneAnew old ss)
  pending : c.pending = c₀.pending.filter (doneAnew old ss)
  inTransaction : c.inTransaction = c₀.inTransaction

structure Follows (old : List Effect) (ss : List Statement) (p p₀ : Progress) : Prop where
  number : p.number = p₀.number
  error : p.error = p₀.error
  conn : SameConnection old ss p.conn p₀.conn

variable {old : List Effect}

theorem Aligned.opened (h : Aligned fails ss rest p) : Aligned fails ss rest (p.opened s) := by
  unfold Progress.opened
  split_ifs
  · exact h
  · exact h

theorem Aligned.commit (h : Aligned fails ss rest p) : Aligned fails ss rest p.commit := by
  unfold Progress.commit
  split_ifs
  · exact h
  · exact h

theorem Aligned.execute (h : Aligned fails ss (s :: rest) p) :
    Aligned fails ss rest (execute stem fails p s) := by
  unfold Aligned MigrationRunner.execute at *
  cases herror : p.error with
  | some e => simpa [herror] using h
  | none =>
    rw [herror] at h
    obtain ⟨done, hss, hlength⟩ := h
    cases hfails : fails p.number with
    | some e =>
      refine ⟨?_, hfails⟩
      rw [hss, ← hlength, List.length_append, List.length_cons]
      omega
    | none =>
      refine ⟨done ++ [s], ?_, ?_⟩
      · rw [hss, List.append_assoc]
        rfl
      · rw [List.length_append, hlength]
        rfl

theorem SameConnection.add {c c₀ : Connection} {x : Effect} (h : SameConnection old ss c c₀)
    (hnew : x ∉ c₀.durable ++ c₀.pending) (hs : ss[x.2]? = some s) :
    SameConnection old ss (c.add s x) (c₀.add s x) := by
  have hadd₀ : c₀.add s x = if c₀.inTransaction then { c₀ with pending := c₀.pending ++ [x] }
      else { c₀ with durable := c₀.durable ++ [x] } :=
    if_neg fun hdone => hnew hdone.2
  have hmem : x ∈ c.durable ++ c.pending ↔ x ∈ old := by
    rw [List.mem_append, not_or] at hnew
    rw [h.durable, h.pending]
    simp [hnew]
  have hanew : doneAnew old ss x = true ↔ ¬(s.ifMissing = true ∧ x ∈ old) := by
    rw [doneAnew_eq_true_iff, hs, Option.any_some, ← Bool.not_eq_true]
    exact ⟨fun h hboth => h hboth.2 hboth.1, fun h hx hif => h ⟨hif, hx⟩⟩
  unfold Connection.add at hadd₀ ⊢
  rw [hadd₀]
  by_cases hskip : s.ifMissing = true ∧ x ∈ old
  · have hfalse : doneAnew old ss x = false := by
      rw [← Bool.not_eq_true, hanew]
      exact not_not_intro hskip
    rw [if_pos ⟨hskip.1, hmem.mpr hskip.2⟩]
    split_ifs
    · exact ⟨h.durable, by simp [List.filter_append, hfalse, h.pending], h.inTransaction⟩
    · exact ⟨by simp [List.filter_append, hfalse, h.durable], h.pending, h.inTransaction⟩
  · have htrue : doneAnew old ss x = true := hanew.mpr hskip
    rw [if_neg fun hdone => hskip ⟨hdone.1, hmem.mp hdone.2⟩, h.inTransaction]
    split_ifs
    · exact ⟨h.durable, by simp [List.filter_append, htrue, h.pending], rfl⟩
    · exact ⟨by simp [List.filter_append, htrue, h.durable], h.pending, rfl⟩

theorem Follows.opened (h : Follows old ss p p₀) : Follows old ss (p.opened s) (p₀.opened s) := by
  unfold Progress.opened
  rw [h.error]
  split_ifs
  · exact ⟨h.number, rfl, h.conn.durable, h.conn.pending, rfl⟩
  · exact h

theorem Follows.commit (h : Follows old ss p p₀) : Follows old ss p.commit p₀.commit := by
  unfold Progress.commit
  rw [h.error]
  split_ifs
  · refine ⟨h.number, rfl, ?_, rfl, rfl⟩
    simp only [Connection.commit]
    rw [h.conn.durable, h.conn.pending, List.filter_append, List.append_assoc]
  · exact h

theorem Follows.execute (h : Follows old ss p p₀) (hwhole : Whole stem p₀)
    (haligned : Aligned fails ss (s :: rest) p₀) :
    Follows old ss (execute stem fails p s) (execute stem fails p₀ s) := by
  unfold MigrationRunner.execute
  rw [h.error, h.number]
  cases herror : p₀.error with
  | some e => exact h
  | none =>
    cases hfails : fails p₀.number with
    | some e => exact ⟨rfl, rfl, h.conn⟩
    | none =>
      have hs : ss[p₀.number]? = some s := by
        unfold Aligned at haligned
        rw [herror] at haligned
        obtain ⟨done, hss, hlength⟩ := haligned
        rw [hss, ← hlength]
        simp
      exact ⟨rfl, rfl, h.conn.add hwhole.next_notMem hs⟩

/-- What is known of a migration that is executed on a database where some of its statements were
in effect, and on one where none was. -/
structure Twin (stem : String) (fails : ℕ → Option SqlError) (old : List Effect)
    (ss rest : List Statement) (p p₀ : Progress) : Prop where
  whole : Whole stem p₀
  aligned : Aligned fails ss rest p₀
  follows : Follows old ss p p₀

theorem Twin.foldl_execute {now : List Statement}
    (h : Twin stem fails old ss (now ++ rest) p p₀) :
    Twin stem fails old ss rest (now.foldl (MigrationRunner.execute stem fails) p)
      (now.foldl (MigrationRunner.execute stem fails) p₀) := by
  induction now generalizing p p₀ with
  | nil => exact h
  | cons s now ih =>
    exact ih ⟨h.whole.execute, h.aligned.execute, h.follows.execute h.whole h.aligned⟩

theorem Twin.perform {a : Action} (h : Twin stem fails old ss (a.statements ++ rest) p p₀) :
    Twin stem fails old ss rest (perform stem fails p a) (perform stem fails p₀ a) := by
  cases a with
  | execute s =>
    have hopened : Twin stem fails old ss ([s] ++ rest) (p.opened s) (p₀.opened s) :=
      ⟨h.whole.opened, h.aligned.opened, h.follows.opened⟩
    exact hopened.foldl_execute
  | executescript now =>
    have hcommit : Twin stem fails old ss (now ++ rest) p.commit p₀.commit :=
      ⟨h.whole.commit, h.aligned.commit, h.follows.commit⟩
    exact hcommit.foldl_execute
  | commit => exact ⟨h.whole.commit, h.aligned.commit, h.follows.commit⟩

theorem twin_performAll (actions : List Action) :
    Twin stem fails old (actions.flatMap Action.statements) []
      (performAll stem fails old actions) (performAll stem fails [] actions) := by
  have hfold : ∀ ss p p₀, Twin stem fails old ss (actions.flatMap Action.statements) p p₀ →
      Twin stem fails old ss [] (actions.foldl (perform stem fails) p)
        (actions.foldl (perform stem fails) p₀) := by
    induction actions with
    | nil => exact fun _ _ _ h => h
    | cons a actions ih =>
      intro ss p p₀ h
      rw [List.flatMap_cons] at h
      exact ih ss _ _ h.perform
  refine hfold _ _ _ ⟨⟨rfl, fun _ => rfl⟩, ⟨[], rfl, rfl⟩, rfl, rfl, ?_, rfl, rfl⟩
  simp

end Execution

section Calls

variable {a : Attempt} {db : Database} {f : MigrationFile} {dir : Directory}

def trial (a : Attempt) (f : MigrationFile) : Progress :=
  performAll f.stem (a.fails f.stem) [] f.actions

/-- What a call of a migration leaves in the database. The transaction of the runner is committed
if the migration comes to its end. -/
def staying (a : Attempt) (f : MigrationFile) : List Effect :=
  if f.body.map Prod.fst = some .conn ∧ (trial a f).error = none then
    (trial a f).conn.durable ++ (trial a f).conn.pending
  else (trial a f).conn.durable

def records (a : Attempt) (f : MigrationFile) : Bool :=
  match (trial a f).error with
  | none => true
  | some e => !e.isIntegrityError && e.saysExists

def goesOn (a : Attempt) (f : MigrationFile) : Bool :=
  match (trial a f).error with
  | none => true
  | some e => e.isIntegrityError || e.saysExists

def called (a : Attempt) (db : Database) (f : MigrationFile) : Database where
  recorded := if records a f then db.recorded ++ [f.stem] else db.recorded
  effects := db.effects ++ (staying a f).filter (doneAnew db.effects f.statements)
  calls := db.calls ++ [(f.stem, db.recorded)]

/-- Every migration is recorded if and only if all of its statements are in effect, no statement
took effect twice, and no migration was called before an earlier one was recorded. -/
structure Consistent (dir : Directory) (db : Database) : Prop where
  complete : ∀ f ∈ dir.migrations, f.statements ≠ [] →
    (f.stem ∈ db.recorded ↔ ∀ i < f.statements.length, (f.stem, i) ∈ db.effects)
  once : db.effects.Nodup
  ordered : ∀ call ∈ db.calls, ∀ f g, [f, g].Sublist dir.migrations → g.stem = call.1 →
    f.stem ∈ call.2

/-- The last statement of a migration that is not recorded is not in effect. -/
def Partial (dir : Directory) (db : Database) : Prop :=
  ∀ f ∈ dir.migrations, f.stem ∉ db.recorded → ∀ i, (f.stem, i) ∈ db.effects →
    i + 1 < f.statements.length

/-- A call of a migration commits all of its statements if it comes to its end; no statement fails
as if it had been executed; and none that was in effect before is committed again, unless it does
nothing then. -/
structure Careful (a : Attempt) (db : Database) (f : MigrationFile) : Prop where
  commits : (trial a f).error = none → f.body.map Prod.fst = some .conn ∨
    (trial a f).conn.pending = []
  honest : ∀ e, (trial a f).error = some e → e.isIntegrityError = false → e.saysExists = false
  anew : ∀ x ∈ staying a f, x ∈ db.effects → ∃ s, f.statements[x.2]? = some s ∧ s.ifMissing = true

theorem runMigration_of_body {channel : Channel} {actions : List Action}
    (hbody : f.body = some (channel, actions)) (hdry : a.dryRun = false)
    (hnew : f.stem ∉ db.recorded) : runMigration a db f = (some (goesOn a f), called a db f) := by
  obtain ⟨m, hmodule, hm⟩ := Option.bind_eq_some_iff.mp hbody
  have hactions : f.actions = actions := by rw [MigrationFile.actions, hbody]; rfl
  have htwin : Twin f.stem (a.fails f.stem) db.effects f.statements []
      (performAll f.stem (a.fails f.stem) db.effects actions) (trial a f) := by
    rw [trial, hactions, MigrationFile.statements, hactions]
    exact twin_performAll actions
  have herror := htwin.follows.error
  have hdurable := htwin.follows.conn.durable
  have hpending := htwin.follows.conn.pending
  have hchannel : f.body.map Prod.fst = some channel := by rw [hbody]; rfl
  unfold runMigration
  rw [hmodule]
  dsimp only
  rw [if_neg (by simp [hdry]), hm]
  dsimp only
  rw [herror]
  unfold goesOn called records staying
  cases htrial : (trial a f).error with
  | none =>
    simp only [finish, if_neg hnew, record, hchannel, Option.some.injEq, and_true]
    cases channel with
    | conn =>
      simp only [Connection.commit, hdurable, hpending, if_true, List.filter_append,
        List.append_assoc]
    | own =>
      simp only [hdurable, reduceCtorEq, if_false]
      rfl
  | some e =>
    simp only [recover, if_neg hnew, record, hdurable, reduceCtorEq, and_false, if_false]
    by_cases hintegrity : e.isIntegrityError = true
    · simp [hintegrity]
    · by_cases hexists : e.saysExists = true
      · simp [hintegrity, hexists]
      · simp [hintegrity, hexists]

theorem runMigration_of_not_body (hbody : f.body = none) (hdry : a.dryRun = false) :
    (runMigration a db f).2 = db ∧ (runMigration a db f).1 ≠ some true := by
  unfold runMigration
  cases hmodule : f.module with
  | none => exact ⟨rfl, nofun⟩
  | some m =>
    have hm : m.body = none := by
      rw [MigrationFile.body, hmodule] at hbody
      exact hbody
    simp [hdry, hm]

theorem runMigration_of_dryRun (hdry : a.dryRun = true) : (runMigration a db f).2 = db := by
  unfold runMigration
  cases f.module with
  | none => rfl
  | some m => simp [hdry]

section Trial

theorem twin_trial (a : Attempt) (f : MigrationFile) :
    Twin f.stem (a.fails f.stem) [] f.statements [] (trial a f) (trial a f) :=
  twin_performAll f.actions

theorem whole_trial (a : Attempt) (f : MigrationFile) : Whole f.stem (trial a f) :=
  (twin_trial a f).whole

theorem number_trial (a : Attempt) (f : MigrationFile) :
    match (trial a f).error with
    | none => (trial a f).number = f.statements.length
    | some _ => (trial a f).number < f.statements.length := by
  have haligned := (twin_trial a f).aligned
  unfold Aligned at haligned
  cases herror : (trial a f).error with
  | none =>
    rw [herror] at haligned
    obtain ⟨done, hdone, hlength⟩ := haligned
    rw [List.append_nil] at hdone
    rw [hdone]
    exact hlength.symm
  | some e =>
    rw [herror] at haligned
    exact haligned.1

theorem nodup_trial (a : Attempt) (f : MigrationFile) :
    ((trial a f).conn.durable ++ (trial a f).conn.pending).Nodup := by
  rw [(whole_trial a f).statements]
  exact List.Nodup.map (fun i j h => (Prod.mk.inj h).2) List.nodup_range

theorem staying_sublist (a : Attempt) (f : MigrationFile) :
    (staying a f).Sublist ((trial a f).conn.durable ++ (trial a f).conn.pending) := by
  unfold staying
  split_ifs
  · exact List.Sublist.refl _
  · exact List.sublist_append_left _ _

theorem mem_trial {x : Effect} :
    x ∈ (trial a f).conn.durable ++ (trial a f).conn.pending ↔
      x.1 = f.stem ∧ x.2 < (trial a f).number := by
  rw [(whole_trial a f).statements, List.mem_map]
  constructor
  · rintro ⟨i, hi, rfl⟩
    exact ⟨rfl, List.mem_range.mp hi⟩
  · intro h
    exact ⟨x.2, List.mem_range.mpr h.2, Prod.ext h.1.symm rfl⟩

theorem of_mem_staying {x : Effect} (hx : x ∈ staying a f) :
    x.1 = f.stem ∧ x.2 < (trial a f).number :=
  mem_trial.mp ((staying_sublist a f).subset hx)

theorem mem_effects_called {x : Effect} :
    x ∈ (called a db f).effects ↔ x ∈ db.effects ∨ x ∈ staying a f := by
  simp only [called, List.mem_append, List.mem_filter]
  constructor
  · exact Or.imp_right And.left
  · intro h
    by_cases hx : x ∈ db.effects
    · exact .inl hx
    · refine .inr ⟨h.resolve_left hx, ?_⟩
      exact doneAnew_eq_true_iff.mpr fun hold => absurd hold hx

theorem last_mem_staying_iff {n : ℕ} (hn : f.statements.length = n + 1) :
    (f.stem, n) ∈ staying a f ↔ (trial a f).error = none ∧
      (f.body.map Prod.fst = some .conn ∨ (trial a f).conn.pending = []) := by
  have hnumber := number_trial a f
  constructor
  · intro hmem
    have hlt := (of_mem_staying hmem).2
    cases herror : (trial a f).error with
    | some e =>
      rw [herror] at hnumber
      dsimp only at hnumber hlt
      omega
    | none =>
      refine ⟨rfl, ?_⟩
      by_cases hchannel : f.body.map Prod.fst = some .conn
      · exact .inl hchannel
      · right
        unfold staying at hmem
        rw [if_neg fun h => hchannel h.1] at hmem
        rw [herror] at hnumber
        dsimp only at hnumber
        -- the last statement is behind all others
        by_contra hpending
        have hall := (whole_trial a f).statements
        rw [hnumber, hn, List.range_succ, List.map_append] at hall
        have hlast : ((trial a f).conn.pending).getLast hpending = (f.stem, n) := by
          have hconcat : (trial a f).conn.durable ++ (trial a f).conn.pending ≠ [] := by simp [hpending]
          rw [← List.getLast_append_of_ne_nil hconcat hpending]
          simp [hall]
        have hdisjoint := (List.nodup_append.mp (nodup_trial a f)).2.2
        exact hdisjoint _ hmem _ (List.getLast_mem hpending) hlast.symm
  · rintro ⟨herror, hcommits⟩
    rw [herror] at hnumber
    dsimp only at hnumber
    have hmem : (f.stem, n) ∈ (trial a f).conn.durable ++ (trial a f).conn.pending :=
      mem_trial.mpr ⟨rfl, by dsimp only; omega⟩
    unfold staying
    by_cases hchannel : f.body.map Prod.fst = some .conn
    · rw [if_pos ⟨hchannel, herror⟩]
      exact hmem
    · rw [if_neg fun h => hchannel h.1]
      rwa [hcommits.resolve_left hchannel, List.append_nil] at hmem

end Trial

section Directories

theorem nodup_migrations (dir : Directory) : (dir.migrations.map MigrationFile.stem).Nodup := by
  have hperm := (List.mergeSort_perm dir.files fun f g => f.name ≤ g.name).map MigrationFile.stem
  exact (hperm.nodup_iff.mpr dir.nodup).sublist (List.filter_sublist.map _)

theorem eq_of_stem_eq {g : MigrationFile} (hf : f ∈ dir.migrations) (hg : g ∈ dir.migrations)
    (h : f.stem = g.stem) : f = g :=
  List.inj_on_of_nodup_map (nodup_migrations dir) hf hg h

theorem not_sublist_swap {g : MigrationFile} (h : [f, g].Sublist dir.migrations) :
    ¬[g, f].Sublist dir.migrations := by
  have hnodup : dir.migrations.Nodup := List.Nodup.of_map _ (nodup_migrations dir)
  have hpairs : ∀ l : List MigrationFile, l.Nodup → [f, g].Sublist l → ¬[g, f].Sublist l := by
    intro l
    induction l with
    | nil => exact fun _ h => absurd h (by simp)
    | cons x l ih =>
      intro hl hfg hgf
      rw [List.nodup_cons] at hl
      cases hfg with
      | cons _ hfg =>
        cases hgf with
        | cons _ hgf => exact ih hl.2 hfg hgf
        | cons_cons _ hgf => exact hl.1 (hfg.subset (by simp))
      | cons_cons _ hfg =>
        cases hgf with
        | cons _ hgf => exact hl.1 (hgf.subset (by simp))
        | cons_cons _ hgf => exact hl.1 (hfg.subset (by simp))
  exact hpairs _ hnodup h

end Directories

section Consistency

theorem mem_recorded_called {stem : String} :
    stem ∈ (called a db f).recorded ↔ stem ∈ db.recorded ∨ records a f = true ∧ stem = f.stem := by
  unfold called
  dsimp only
  split_ifs with hrecords
  · simp [hrecords]
  · simp [hrecords]

theorem mem_effects_called_of_ne {stem : String} {i : ℕ} (h : stem ≠ f.stem) :
    (stem, i) ∈ (called a db f).effects ↔ (stem, i) ∈ db.effects := by
  rw [mem_effects_called]
  exact or_iff_left fun hx => h (of_mem_staying hx).1

theorem Partial.called (h : Partial dir db) (hf : f ∈ dir.migrations) :
    Partial dir (called a db f) := by
  intro g hg hnew i hi
  rw [mem_recorded_called, not_or, not_and] at hnew
  rcases mem_effects_called.mp hi with hi | hi
  · exact h g hg hnew.1 i hi
  · obtain ⟨hstem, hlt⟩ := of_mem_staying hi
    obtain rfl : g = f := eq_of_stem_eq hg hf hstem
    have herror : (trial a g).error ≠ none := by
      intro herror
      refine hnew.2 ?_ rfl
      rw [records, herror]
    have hnumber := number_trial a g
    obtain ⟨e, he⟩ := Option.ne_none_iff_exists'.mp herror
    rw [he] at hnumber
    dsimp only at hnumber hlt
    omega

theorem complete_called_iff (hstarted : Partial dir db) (hf : f ∈ dir.migrations)
    (hnew : f.stem ∉ db.recorded) (hstatements : f.statements ≠ []) :
    (f.stem ∈ (called a db f).recorded ↔
        ∀ i < f.statements.length, (f.stem, i) ∈ (called a db f).effects) ↔
      ((trial a f).error = none → f.body.map Prod.fst = some .conn ∨
        (trial a f).conn.pending = []) ∧
      ∀ e, (trial a f).error = some e → e.isIntegrityError = false → e.saysExists = false := by
  obtain ⟨n, hn⟩ : ∃ n, f.statements.length = n + 1 :=
    Nat.exists_eq_succ_of_ne_zero fun h => hstatements (List.length_eq_zero_iff.mp h)
  have hnumber := number_trial a f
  have hrecorded : f.stem ∈ (called a db f).recorded ↔ records a f = true := by
    rw [mem_recorded_called, or_iff_right hnew, and_iff_left rfl]
  have heffects : (∀ i < f.statements.length, (f.stem, i) ∈ (called a db f).effects) ↔
      (f.stem, n) ∈ staying a f := by
    constructor
    · intro hall
      have hlast := mem_effects_called.mp (hall n (by omega))
      refine hlast.resolve_left fun hold => ?_
      have hlt := hstarted f hf hnew n hold
      omega
    · intro hlast i hi
      have hcommits := (last_mem_staying_iff hn).mp hlast
      rw [hcommits.1] at hnumber
      dsimp only at hnumber
      refine mem_effects_called.mpr (.inr ?_)
      have hmem : (f.stem, i) ∈ (trial a f).conn.durable ++ (trial a f).conn.pending :=
        mem_trial.mpr ⟨rfl, by dsimp only; omega⟩
      unfold staying
      by_cases hchannel : f.body.map Prod.fst = some .conn
      · rw [if_pos ⟨hchannel, hcommits.1⟩]
        exact hmem
      · rw [if_neg fun h => hchannel h.1]
        rwa [hcommits.2.resolve_left hchannel, List.append_nil] at hmem
  rw [hrecorded, heffects, last_mem_staying_iff hn]
  unfold records
  cases herror : (trial a f).error with
  | none => simp
  | some e => simp

theorem nodup_called_iff (hnodup : db.effects.Nodup) :
    (called a db f).effects.Nodup ↔
      ∀ x ∈ staying a f, x ∈ db.effects → ∃ s, f.statements[x.2]? = some s ∧ s.ifMissing = true := by
  have hstaying : (staying a f).Nodup := (nodup_trial a f).sublist (staying_sublist a f)
  have hanew : ∀ x, x ∈ db.effects → (doneAnew db.effects f.statements x = false ↔
      ∃ s, f.statements[x.2]? = some s ∧ s.ifMissing = true) := by
    intro x hx
    rw [← Bool.not_eq_true, doneAnew_eq_true_iff, ← Bool.not_eq_true]
    simp [hx, Option.any_eq_true]
  unfold called
  rw [List.nodup_append]
  constructor
  · intro h x hx hold
    rw [← hanew x hold, ← Bool.not_eq_true]
    exact fun htrue => h.2.2 x hold x (List.mem_filter.mpr ⟨hx, htrue⟩) rfl
  · intro h
    refine ⟨hnodup, hstaying.filter _, ?_⟩
    intro x hx y hy hxy
    subst hxy
    rw [List.mem_filter] at hy
    have hfalse := (hanew x hx).mpr (h x hy.1 hx)
    rw [hfalse] at hy
    cases hy.2

theorem consistent_called_iff (hstarted : Partial dir db) (h : Consistent dir db)
    (hf : f ∈ dir.migrations) (hnew : f.stem ∉ db.recorded)
    (hearlier : ∀ g, [g, f].Sublist dir.migrations → g.stem ∈ db.recorded) :
    Consistent dir (called a db f) ↔ Careful a db f := by
  constructor
  · intro hcalled
    by_cases hstatements : f.statements = []
    · have hnumber := number_trial a f
      have hempty := (whole_trial a f).statements
      cases herror : (trial a f).error with
      | some e =>
        rw [herror, hstatements] at hnumber
        exact absurd hnumber (Nat.not_lt_zero _)
      | none =>
        rw [herror, hstatements] at hnumber
        rw [hnumber] at hempty
        have hpending : (trial a f).conn.pending = [] :=
          (List.append_eq_nil_iff.mp hempty).2
        refine ⟨fun _ => .inr hpending, fun e he => ?_, (nodup_called_iff h.once).mp hcalled.once⟩
        rw [herror] at he
        cases he
    · obtain ⟨hcommits, hhonest⟩ := (complete_called_iff hstarted hf hnew hstatements).mp
        (hcalled.complete f hf hstatements)
      exact ⟨hcommits, hhonest, (nodup_called_iff h.once).mp hcalled.once⟩
  · intro hcareful
    constructor
    · intro g hg hstatements
      by_cases hsame : g = f
      · subst hsame
        exact (complete_called_iff hstarted hg hnew hstatements).mpr
          ⟨hcareful.commits, hcareful.honest⟩
      · have hne : g.stem ≠ f.stem := fun heq => hsame (eq_of_stem_eq hg hf heq)
        rw [mem_recorded_called, or_iff_left fun hrecords => hne hrecords.2]
        simp only [mem_effects_called_of_ne hne]
        exact h.complete g hg hstatements
    · exact (nodup_called_iff h.once).mpr hcareful.anew
    · intro call hcall g g' hbefore hstem
      rcases List.mem_append.mp hcall with hold | hlast
      · exact h.ordered call hold g g' hbefore hstem
      · rw [List.mem_singleton] at hlast
        subst hlast
        have hg' : g' ∈ dir.migrations := hbefore.subset (by simp)
        rw [eq_of_stem_eq hg' hf hstem] at hbefore
        exact hearlier g hbefore

theorem consistent_of_called (hf : f ∈ dir.migrations) (hnew : f.stem ∉ db.recorded)
    (hstarted : Partial dir db) (h : Consistent dir (called a db f)) : Consistent dir db where
  complete g hg hstatements := by
    by_cases hsame : g = f
    · subst hsame
      obtain ⟨n, hn⟩ : ∃ n, g.statements.length = n + 1 :=
        Nat.exists_eq_succ_of_ne_zero fun h => hstatements (List.length_eq_zero_iff.mp h)
      refine iff_of_false hnew fun hall => ?_
      have hlt := hstarted g hg hnew n (hall n (by omega))
      omega
    · have hne : g.stem ≠ f.stem := fun heq => hsame (eq_of_stem_eq hg hf heq)
      have hcomplete := h.complete g hg hstatements
      rw [mem_recorded_called, or_iff_left fun hrecords => hne hrecords.2] at hcomplete
      simpa only [mem_effects_called_of_ne hne] using hcomplete
  once := h.once.sublist (List.sublist_append_left _ _)
  ordered call hcall := h.ordered call (List.mem_append_left _ hcall)

end Consistency

section Loops

variable {fs : List MigrationFile}

/-- Did a statement violate a constraint? The runner then takes the migration for applied. -/
def stops (a : Attempt) (f : MigrationFile) : Prop :=
  ∃ e, (trial a f).error = some e ∧ e.isIntegrityError = true

/-- Every call of a run is careful, and after a violated constraint nothing is left to call. -/
def CarefulRun (a : Attempt) (db : Database) : List MigrationFile → Prop
  | [] => True
  | f :: fs =>
    (f.body.isSome = true →
      Careful a db f ∧ (stops a f → ∀ g ∈ fs.head?, g.body = none)) ∧
    match runMigration a db f with
    | (some true, db) => CarefulRun a db fs
    | _ => True

theorem goesOn_eq_true : goesOn a f = true ↔ records a f = true ∨ stops a f := by
  unfold goesOn records stops
  cases (trial a f).error with
  | none => simp
  | some e => cases hintegrity : e.isIntegrityError <;> simp [hintegrity]

theorem not_stops_of_records (h : records a f = true) : ¬stops a f := by
  rintro ⟨e, he, hintegrity⟩
  rw [records, he] at h
  simp [hintegrity] at h

theorem runPending_cons_of_body (hdry : a.dryRun = false) (hbody : f.body.isSome = true)
    (hnew : f.stem ∉ db.recorded) : runPending a db (f :: fs) =
      if goesOn a f then runPending a (called a db f) fs else called a db f := by
  obtain ⟨⟨channel, actions⟩, hbody⟩ := Option.isSome_iff_exists.mp hbody
  rw [runPending, runMigration_of_body hbody hdry hnew]
  cases goesOn a f <;> rfl

theorem carefulRun_cons_of_body (hdry : a.dryRun = false) (hbody : f.body.isSome = true)
    (hnew : f.stem ∉ db.recorded) : CarefulRun a db (f :: fs) ↔
      (Careful a db f ∧ (stops a f → ∀ g ∈ fs.head?, g.body = none)) ∧
        (goesOn a f = true → CarefulRun a (called a db f) fs) := by
  obtain ⟨⟨channel, actions⟩, hsome⟩ := Option.isSome_iff_exists.mp hbody
  rw [CarefulRun, runMigration_of_body hsome hdry hnew]
  cases goesOn a f <;> simp [hbody]

theorem runPending_cons_of_not_body (hdry : a.dryRun = false) (hbody : f.body = none) :
    runPending a db (f :: fs) = db ∧ CarefulRun a db (f :: fs) := by
  have hkept : (runMigration a db f).2 = db ∧ (runMigration a db f).1 ≠ some true :=
    runMigration_of_not_body hbody hdry
  obtain ⟨hdb, hstop⟩ := hkept
  rw [runPending, CarefulRun]
  rcases hrun : runMigration a db f with ⟨answer, db'⟩
  rw [hrun] at hdb hstop
  rw [hbody]
  match answer, hstop with
  | none, _ => exact ⟨hdb, by simp⟩
  | some false, _ => exact ⟨hdb, by simp⟩
  | some true, hstop => exact absurd rfl hstop

theorem runPending_of_dryRun (hdry : a.dryRun = true) : runPending a db fs = db := by
  induction fs with
  | nil => rfl
  | cons f fs ih =>
    have hdb : (runMigration a db f).2 = db := runMigration_of_dryRun hdry
    rw [runPending]
    rcases hrun : runMigration a db f with ⟨answer, db'⟩
    rw [hrun] at hdb
    subst hdb
    match answer with
    | none => rfl
    | some false => rfl
    | some true => exact ih

/-- The migrations that a loop has still to run; none of them is recorded. -/
structure Remaining (dir : Directory) (db : Database) (fs : List MigrationFile) : Prop where
  sublist : fs.Sublist dir.migrations
  new : ∀ f ∈ fs, f.stem ∉ db.recorded

theorem Remaining.mem (h : Remaining dir db (f :: fs)) : f ∈ dir.migrations :=
  h.sublist.subset List.mem_cons_self

theorem Remaining.called (h : Remaining dir db (f :: fs)) : Remaining dir (called a db f) fs := by
  refine ⟨(List.sublist_cons_self f fs).trans h.sublist, fun g hg hrecorded => ?_⟩
  rcases mem_recorded_called.mp hrecorded with hold | ⟨-, hstem⟩
  · exact h.new g (List.mem_cons_of_mem f hg) hold
  · have hg' : g ∈ dir.migrations := h.sublist.subset (List.mem_cons_of_mem f hg)
    obtain rfl : g = f := eq_of_stem_eq hg' h.mem hstem
    have hnodup : (g :: fs).Nodup := (List.Nodup.of_map _ (nodup_migrations dir)).sublist h.sublist
    exact (List.nodup_cons.mp hnodup).1 hg

theorem partial_runPending (h : Remaining dir db fs) (hstarted : Partial dir db)
    (hdry : a.dryRun = false) : Partial dir (runPending a db fs) := by
  induction fs generalizing db with
  | nil => exact hstarted
  | cons f fs ih =>
    cases hbody : f.body with
    | none =>
      rw [(runPending_cons_of_not_body hdry hbody).1]
      exact hstarted
    | some body =>
      rw [runPending_cons_of_body hdry (by rw [hbody]; rfl) (h.new f List.mem_cons_self)]
      split_ifs
      · exact ih h.called (hstarted.called h.mem)
      · exact hstarted.called h.mem

theorem consistent_of_runPending (h : Remaining dir db fs) (hstarted : Partial dir db)
    (hdry : a.dryRun = false) (hrun : Consistent dir (runPending a db fs)) :
    Consistent dir db := by
  induction fs generalizing db with
  | nil => exact hrun
  | cons f fs ih =>
    have hnew : f.stem ∉ db.recorded := h.new f List.mem_cons_self
    cases hbody : f.body with
    | none =>
      rw [(runPending_cons_of_not_body hdry hbody).1] at hrun
      exact hrun
    | some body =>
      rw [runPending_cons_of_body hdry (by rw [hbody]; rfl) hnew] at hrun
      split_ifs at hrun
      · exact consistent_of_called h.mem hnew hstarted
          (ih h.called (hstarted.called h.mem) hrun)
      · exact consistent_of_called h.mem hnew hstarted hrun

theorem consistent_after_stops_iff (h : Remaining dir db (f :: fs)) (hstarted : Partial dir db)
    (hdry : a.dryRun = false) (hrecords : records a f = false) :
    Consistent dir (runPending a (called a db f) fs) ↔
      Consistent dir (called a db f) ∧ (∀ g ∈ fs.head?, g.body = none) ∧
        CarefulRun a (called a db f) fs := by
  cases fs with
  | nil => exact (and_iff_left ⟨nofun, trivial⟩).symm
  | cons g fs =>
    cases hbody : g.body with
    | none =>
      have hkept : runPending a (called a db f) (g :: fs) = called a db f ∧
          CarefulRun a (called a db f) (g :: fs) := runPending_cons_of_not_body hdry hbody
      obtain ⟨hrun, hcareful⟩ := hkept
      rw [hrun]
      refine (and_iff_left ⟨?_, hcareful⟩).symm
      intro g' hg'
      cases hg'
      exact hbody
    | some body =>
      refine iff_of_false (fun hrun => ?_) fun hall => ?_
      · have hrest : Remaining dir (called a db f) (g :: fs) := h.called
        have hnew := hrest.new g List.mem_cons_self
        rw [runPending_cons_of_body hdry (by rw [hbody]; rfl) hnew] at hrun
        have hcalled : Consistent dir (called a (called a db f) g) := by
          split_ifs at hrun
          · exact consistent_of_runPending hrest.called
              ((hstarted.called h.mem).called hrest.mem) hdry hrun
          · exact hrun
        have hbefore : [f, g].Sublist dir.migrations :=
          List.Sublist.trans (by simp) h.sublist
        have hlast : (g.stem, (called a db f).recorded) ∈ (called a (called a db f) g).calls :=
          List.mem_append_right _ List.mem_cons_self
        have hrecorded := hcalled.ordered _ hlast f g hbefore rfl
        rcases mem_recorded_called.mp hrecorded with hold | ⟨htrue, -⟩
        · exact h.new f List.mem_cons_self hold
        · rw [hrecords] at htrue
          cases htrue
      · have hnone := hall.2.1 g rfl
        rw [hbody] at hnone
        cases hnone

theorem consistent_runPending_iff (h : Remaining dir db fs) (hstarted : Partial dir db)
    (hdry : a.dryRun = false)
    (hearlier : ∀ f ∈ fs, ∀ g, [g, f].Sublist dir.migrations → g.stem ∈ db.recorded ∨ g ∈ fs)
    (hconsistent : Consistent dir db) :
    Consistent dir (runPending a db fs) ↔ CarefulRun a db fs := by
  induction fs generalizing db with
  | nil => exact iff_of_true hconsistent trivial
  | cons f fs ih =>
    have hnew : f.stem ∉ db.recorded := h.new f List.mem_cons_self
    cases hbody : f.body with
    | none =>
      have hkept : runPending a db (f :: fs) = db ∧ CarefulRun a db (f :: fs) :=
        runPending_cons_of_not_body hdry hbody
      obtain ⟨hrun, hcareful⟩ := hkept
      rw [hrun]
      exact iff_of_true hconsistent hcareful
    | some body =>
      have hsome : f.body.isSome = true := by rw [hbody]; rfl
      have hfirst : ∀ g, [g, f].Sublist dir.migrations → g.stem ∈ db.recorded := by
        intro g hbefore
        refine (hearlier f List.mem_cons_self g hbefore).resolve_right fun hg => ?_
        rcases List.mem_cons.mp hg with rfl | hg
        · exact not_sublist_swap hbefore hbefore
        · have hafter : [f, g].Sublist dir.migrations :=
            ((List.singleton_sublist.mpr hg).cons_cons f).trans h.sublist
          exact not_sublist_swap hafter hbefore
      have hcalled : Consistent dir (called a db f) ↔ Careful a db f :=
        consistent_called_iff hstarted hconsistent h.mem hnew hfirst
      rw [runPending_cons_of_body hdry hsome hnew, carefulRun_cons_of_body hdry hsome hnew, ← hcalled]
      cases hgoes : goesOn a f with
      | false =>
        have hstops : ¬stops a f := fun hstops =>
          Bool.false_ne_true (hgoes.symm.trans (goesOn_eq_true.mpr (.inr hstops)))
        simp [hstops]
      | true =>
        cases hrecords : records a f with
        | true =>
          have hrest : Remaining dir (called a db f) fs := h.called
          have hstarted' : Partial dir (called a db f) := hstarted.called h.mem
          have hearlier' : ∀ f' ∈ fs, ∀ g, [g, f'].Sublist dir.migrations →
              g.stem ∈ (called a db f).recorded ∨ g ∈ fs := by
            intro f' hf' g hbefore
            rw [mem_recorded_called]
            rcases hearlier f' (List.mem_cons_of_mem f hf') g hbefore with hold | hg
            · exact .inl (.inl hold)
            · rcases List.mem_cons.mp hg with rfl | hg
              · exact .inl (.inr ⟨hrecords, rfl⟩)
              · exact .inr hg
          have hstops : ¬stops a f := not_stops_of_records hrecords
          simp only [if_true, hstops, false_implies, and_true, true_implies]
          constructor
          · intro hrun
            have hfirst := consistent_of_runPending hrest hstarted' hdry hrun
            exact ⟨hfirst, (ih hrest hstarted' hearlier' hfirst).mp hrun⟩
          · intro hall
            exact (ih hrest hstarted' hearlier' hall.1).mpr hall.2
        | false =>
          have hstops : stops a f :=
            (goesOn_eq_true.mp hgoes).resolve_left (by simp [hrecords])
          simp only [if_true, hstops, true_implies, and_assoc]
          exact consistent_after_stops_iff h hstarted hdry hrecords

end Loops

end Calls

def migrated (dir : Directory) (recorded : List String) : Database where
  recorded := recorded
  effects := (dir.migrations.filter fun f => f.stem ∈ recorded).flatMap fun f =>
    (List.range f.statements.length).map fun i => (f.stem, i)

def CarefulStart (dir : Directory) (db : Database) (a : Attempt) : Prop :=
  a.dryRun = false → CarefulRun a db (getPendingMigrations dir db.recorded)

section Starts

variable {dir : Directory} {db : Database} {a : Attempt}

theorem mem_effects_migrated {recorded : List String} {x : Effect} :
    x ∈ (migrated dir recorded).effects ↔ ∃ f ∈ dir.migrations, f.stem ∈ recorded ∧
      x.1 = f.stem ∧ x.2 < f.statements.length := by
  simp only [migrated, List.mem_flatMap, List.mem_filter, decide_eq_true_eq, List.mem_map,
    List.mem_range]
  constructor
  · rintro ⟨f, ⟨hf, hrecorded⟩, i, hi, rfl⟩
    exact ⟨f, hf, hrecorded, rfl, hi⟩
  · rintro ⟨f, hf, hrecorded, hstem, hi⟩
    exact ⟨f, ⟨hf, hrecorded⟩, x.2, hi, Prod.ext hstem.symm rfl⟩

theorem consistent_migrated (dir : Directory) (recorded : List String) :
    Consistent dir (migrated dir recorded) where
  complete f hf hstatements := by
    constructor
    · intro hrecorded i hi
      exact mem_effects_migrated.mpr ⟨f, hf, hrecorded, rfl, hi⟩
    · intro hall
      have hpos : 0 < f.statements.length := List.length_pos_of_ne_nil hstatements
      obtain ⟨g, hg, hrecorded, hstem, -⟩ := mem_effects_migrated.mp (hall 0 hpos)
      have hstem : f.stem = g.stem := hstem
      exact hstem ▸ hrecorded
  once := by
    have hnodup := (nodup_migrations dir).sublist
      ((List.filter_sublist (p := fun f => f.stem ∈ recorded)).map MigrationFile.stem)
    refine List.nodup_flatMap.mpr ⟨?_, ?_⟩
    · intro f _
      exact List.Nodup.map (fun i j h => (Prod.mk.inj h).2) List.nodup_range
    · refine (List.pairwise_map.mp hnodup).imp fun {f g} hne => ?_
      intro x hf hg
      obtain ⟨i, -, rfl⟩ := List.mem_map.mp hf
      obtain ⟨j, -, hj⟩ := List.mem_map.mp hg
      exact hne (Prod.mk.inj hj).1.symm
  ordered := nofun

theorem partial_migrated (dir : Directory) (recorded : List String) :
    Partial dir (migrated dir recorded) := by
  intro f _ hnew i hi
  obtain ⟨g, -, hrecorded, hstem, -⟩ := mem_effects_migrated.mp hi
  have hstem : f.stem = g.stem := hstem
  exact absurd (hstem ▸ hrecorded) hnew

theorem remaining_pending (dir : Directory) (db : Database) :
    Remaining dir db (getPendingMigrations dir db.recorded) :=
  ⟨List.filter_sublist, fun _ hf => of_decide_eq_true (List.mem_filter.mp hf).2⟩

theorem consistent_runAll_iff (hstarted : Partial dir db) (h : Consistent dir db) :
    Consistent dir (runAllMigrations dir db a) ↔ CarefulStart dir db a := by
  unfold runAllMigrations CarefulStart
  cases hdry : a.dryRun with
  | true =>
    rw [runPending_of_dryRun hdry]
    exact iff_of_true h nofun
  | false =>
    rw [consistent_runPending_iff (remaining_pending dir db) hstarted hdry ?_ h]
    · exact ⟨fun h _ => h, fun h => h rfl⟩
    · intro f _ g hbefore
      by_cases hg : g.stem ∈ db.recorded
      · exact .inl hg
      · have hmem : g ∈ dir.migrations := hbefore.subset List.mem_cons_self
        exact .inr (List.mem_filter.mpr ⟨hmem, decide_eq_true hg⟩)

theorem partial_runAll (hstarted : Partial dir db) : Partial dir (runAllMigrations dir db a) := by
  unfold runAllMigrations
  cases hdry : a.dryRun with
  | true =>
    rw [runPending_of_dryRun hdry]
    exact hstarted
  | false => exact partial_runPending (remaining_pending dir db) hstarted hdry

end Starts

/-- A script that makes a table, counts something up, adds a column and fills it. -/
def script : MigrationFile where
  stem := "005_user_nick"
  module := some ⟨none, some [⟨false, true⟩, ⟨true, false⟩, ⟨false, false⟩, ⟨true, false⟩]⟩

def scripts : Directory := ⟨[script], by decide⟩

def failsAt (number : ℕ) (text : String) : Attempt where
  fails _ i := if i = number then some ⟨false, text⟩ else none

theorem migrations_scripts : scripts.migrations = [script] := by
  simp only [Directory.migrations, scripts, List.mergeSort_singleton]
  decide

end MigrationRunner

end CaManager
