import CaManager.Deletions.Requests
import CaManager.Library.Machines

/-!
# Runs of creations, issuances and deletions

Requests arrive, are checked against the rows as they are then, and commit later in any order; in
between, duplicates of authorities are merged. What is required of a run is that no row names a row
that is gone, and that a deletion of an authority with child authorities or certificates is refused
until it commits. A run has this exactly if each commit meets its condition: a deletion takes away
nothing that a row names which stays, except where the mapper sets the column to null, and no
authority that has children or certificates by then; and a write makes rows name what is still
there.
-/

namespace CaManager

open Library Database

namespace Deletions

namespace Work

/-- The deletion that a work amounts to when it is committed. The mapper cannot read again what is
no longer there. -/
def deletion? (db : Rows) : Work → Option (Deletion TableName Link)
  | .delete i dependents => some (sessionDelete i dependents)
  | .deleteReloaded table id => (db.get? table id).map fun r => sessionDelete r.toIdentity []
  | .write _ => none

def commit (db : Rows) : Work → Option Rows
  | .write w => db.transact w.statements
  | w => (w.deletion? db).bind fun d => db.transact d.statements

def Careful (db : Rows) (gone : List (Identity TableName)) : Work → Prop
  | .write w => w.Finds db gone
  | w => ∀ d, w.deletion? db = some d → d.Spares db ∧
    ∀ r ∈ db.rows, d.Removes r → r.table = .certificateAuthorities → Childless db r.toIdentity

end Work

/-- The rows, those that are gone, and what the requests that were not refused have still to
write. -/
structure State where
  db : Rows
  gone : List (Identity TableName) := []
  inFlight : List Work := []

inductive Event
  | arrive (request : Request)
  | commit (i : ℕ)
  | merge (keeperId duplicateId : ℕ)

namespace State

def Intact (s : State) : Prop := s.db.Intact s.gone

instance (s : State) : Decidable s.Intact :=
  inferInstanceAs (Decidable (s.db.Intact s.gone))

def change (s : State) : Option Rows → State
  | none => s
  | some db => { s with db, gone := s.gone ++ removed s.db db }

end State

/-- The authorities that a change of the rows takes away have neither children nor
certificates. -/
def Unused (db db' : Rows) : Prop :=
  ∀ r ∈ db.rows, r.table = .certificateAuthorities → r.toIdentity ∉ db'.identities →
    Childless db r.toIdentity

instance (db db' : Rows) : Decidable (Unused db db') :=
  inferInstanceAs (Decidable (∀ r ∈ db.rows, r.table = .certificateAuthorities → _))

def step (s : State) : Event → State
  | .arrive request =>
    match accepted s.db request with
    | none => s
    | some w => { s with inFlight := s.inFlight ++ [w] }
  | .commit i =>
    match s.inFlight[i]? with
    | none => s
    | some w => { s.change (w.commit s.db) with inFlight := s.inFlight.eraseIdx i }
  | .merge keeperId duplicateId =>
    s.change ((mergeDuplicate s.db keeperId duplicateId).bind fun d => s.db.transact d.statements)

/-- An authority that a request deletes has neither child authorities nor certificates by then. -/
def Refuses (s : State) : Event → Prop
  | .commit i => Unused s.db (step s (.commit i)).db
  | _ => True

instance (s : State) : DecidablePred (Refuses s)
  | .commit i => inferInstanceAs (Decidable (Unused s.db (step s (.commit i)).db))
  | .arrive _ | .merge _ _ => inferInstanceAs (Decidable True)

/-- The condition on a step, of which only those transactions that go through are asked
anything. -/
def Careful (s : State) : Event → Prop
  | .arrive _ => True
  | .commit i => ∀ w, s.inFlight[i]? = some w → (w.commit s.db).isSome → w.Careful s.db s.gone
  | .merge keeperId duplicateId => ∀ d, mergeDuplicate s.db keeperId duplicateId = some d →
    (s.db.transact d.statements).isSome → d.Spares s.db

section Steps

variable {s : State}

theorem deletion?_moved {db : Rows} {w : Work} {d : Deletion TableName Link}
    (h : w.deletion? db = some d) : d.moved = [] := by
  cases w with
  | delete i dependents => rw [← Option.some.inj h]; rfl
  | deleteReloaded table id =>
    obtain ⟨r, -, rfl⟩ := Option.map_eq_some_iff.mp h
    rfl
  | write w => cases h

theorem deletion_iff {db db' : Rows} {gone : List (Identity TableName)}
    {d : Deletion TableName Link} (hdb : db.Intact gone) (hmoved : d.moved = [])
    (h : db.transact d.statements = some db') :
    db'.Intact (gone ++ removed db db') ∧ Unused db db' ↔
      d.Spares db ∧ ∀ r ∈ db.rows, d.Removes r → r.table = .certificateAuthorities →
        Childless db r.toIdentity := by
  obtain rfl := d.eq_apply_of_transact h
  refine and_congr (Deletion.intact_apply_iff hdb ?_) ?_
  · rw [hmoved]
    intro l hl
    cases hl
  · refine forall₂_congr fun r hr => ?_
    rw [Deletion.notMem_identities_apply hr]
    exact forall_comm

theorem commit_iff {db db' : Rows} {gone : List (Identity TableName)} {w : Work}
    (hdb : db.Intact gone) (h : w.commit db = some db') :
    db'.Intact (gone ++ removed db db') ∧ Unused db db' ↔ w.Careful db gone := by
  have hdeletes : (w.deletion? db).bind (fun d => db.transact d.statements) = some db' →
      (db'.Intact (gone ++ removed db db') ∧ Unused db db' ↔
        ∀ d, w.deletion? db = some d → d.Spares db ∧
          ∀ r ∈ db.rows, d.Removes r → r.table = .certificateAuthorities →
            Childless db r.toIdentity) := by
    intro h
    obtain ⟨d, hd, hdb'⟩ := Option.bind_eq_some_iff.mp h
    rw [deletion_iff hdb (deletion?_moved hd) hdb', hd]
    simp
  cases w with
  | delete i dependents => exact hdeletes h
  | deleteReloaded table id => exact hdeletes h
  | write w =>
    have hwrite : db.transact w.statements = some db' := h
    have hstays := (Write.grows_of_transact hwrite).1.stays
    refine Iff.trans ?_ (Write.intact_iff hdb hwrite)
    refine and_iff_left ?_
    intro r hr _ hgone
    exact absurd (hstays _ (List.mem_map_of_mem hr)) hgone

theorem mergeDuplicate_moved {db : Rows} {keeperId duplicateId : ℕ}
    {d : Deletion TableName Link} (h : mergeDuplicate db keeperId duplicateId = some d) :
    ∀ l ∈ d.moved.map Prod.snd, (d.apply db).Resolves l := by
  simp only [mergeDuplicate, Option.bind_eq_bind, Option.bind_eq_some_iff] at h
  obtain ⟨keeper, hkeeper, duplicate, -, newRef, hnew, oldRef, -, _, hguard, hd⟩ := h
  have hd := Option.some.inj hd
  have hne : keeperId ≠ duplicateId := by
    by_contra heq
    rw [guard, if_neg (not_not.mpr heq)] at hguard
    cases hguard
  have hmem : keeper ∈ db.rows := List.mem_of_find?_eq_some hkeeper
  have hrow : keeper.table = .certificateAuthorities ∧ keeper.number = keeperId := by
    simpa using List.find?_some hkeeper
  have hstays : keeper.toIdentity ∈ (d.apply db).identities := by
    refine Deletion.mem_identities_apply.mpr ⟨keeper, hmem, ?_, rfl⟩
    rw [← hd]
    rintro (⟨-, hnumber⟩ | ⟨l, hl, -⟩)
    · exact hne (hrow.2.symm.trans hnumber)
    · cases hl
  intro l hl
  refine ⟨keeper.toIdentity, hstays, ?_⟩
  rw [← hd] at hl
  rcases List.mem_cons.mp hl with rfl | hl
  · exact ⟨hrow.1.symm, hnew⟩
  · rw [List.mem_singleton.mp hl]
    exact ⟨hrow.1.symm, hnew⟩

theorem unused_self (db : Rows) : Unused db db := by
  intro r hr _ hgone
  exact absurd (List.mem_map_of_mem hr) hgone

theorem step_commit {i : ℕ} {w : Work} (hw : s.inFlight[i]? = some w) :
    step s (.commit i) =
      { s.change (w.commit s.db) with inFlight := s.inFlight.eraseIdx i } := by
  dsimp only [step]
  rw [hw]

theorem step_iff (hs : s.Intact) (e : Event) :
    (step s e).Intact ∧ Refuses s e ↔ Careful s e := by
  cases e with
  | arrive request =>
    refine iff_of_true ⟨?_, trivial⟩ trivial
    dsimp only [step]
    cases accepted s.db request with
    | none => exact hs
    | some w => exact hs
  | commit i =>
    unfold Refuses Careful
    dsimp only
    cases hw : s.inFlight[i]? with
    | none =>
      have hstep : step s (.commit i) = s := by
        dsimp only [step]
        rw [hw]
      rw [hstep]
      refine iff_of_true ⟨hs, unused_self s.db⟩ ?_
      intro w h
      cases h
    | some w =>
      rw [step_commit hw]
      cases hcommit : w.commit s.db with
      | none =>
        refine iff_of_true ⟨hs, unused_self s.db⟩ ?_
        intro w' h hsome
        rw [← Option.some.inj h, hcommit] at hsome
        cases hsome
      | some db =>
        refine (commit_iff hs hcommit).trans ?_
        constructor
        · intro hcareful w' h _
          exact Option.some.inj h ▸ hcareful
        · intro hcareful
          exact hcareful w rfl (by rw [hcommit]; rfl)
  | merge keeperId duplicateId =>
    unfold Refuses Careful
    rw [and_iff_left trivial]
    dsimp only [step]
    cases hmerge : mergeDuplicate s.db keeperId duplicateId with
    | none =>
      refine iff_of_true hs ?_
      intro d h
      cases h
    | some d =>
      dsimp only [Option.bind_some]
      cases hdb : s.db.transact d.statements with
      | none =>
        refine iff_of_true hs ?_
        intro d' h hsome
        rw [← Option.some.inj h, hdb] at hsome
        cases hsome
      | some db =>
        have heq := d.eq_apply_of_transact hdb
        rw [heq] at hdb ⊢
        refine (Deletion.intact_apply_iff hs (mergeDuplicate_moved hmerge)).trans ?_
        constructor
        · intro hspares d' h _
          exact Option.some.inj h ▸ hspares
        · intro hcareful
          exact hcareful d rfl (by rw [hdb]; rfl)

/-- In a run no row ever names a row that is gone, and authorities that are in use are not deleted,
exactly if every step meets its condition. -/
theorem deletions_sound_iff (db : Rows) (es : List Event) :
    (∀ pre, pre <+: es → (run step { db } pre).Intact) ∧ Meets step Refuses { db } es ↔
      Meets step Careful { db } es := by
  have hstart : State.Intact { db } := intact_nil db
  rw [forall_prefix_iff_meets_next, and_iff_right hstart, ← meets_and]
  refine meets_iff_of_invariant (I := State.Intact) (fun s e hs => step_iff hs e) ?_ hstart
  exact fun s e hs hcareful => ((step_iff hs e).mpr hcareful).1

end Steps

section Sample

def inTurn (requests : List Request) : List Event :=
  requests.flatMap fun request => [.arrive request, .commit 0]

def domainRun : List Event :=
  inTurn [.createInternalCa "ca" none, .createLocalDomain "lan" 1, .deleteCa 1]

def templateRun : List Event :=
  inTurn [.createInternalCa "ca" none, .createTemplate "web" false,
    .createCertificate "leaf" "ca" (some 1), .deleteTemplate 1]

def accountRun : List Event :=
  inTurn [.newAccount "account", .createOrder "account" "order" [("authz", [])],
    .deleteAcmeAccount 1]

/-- A certificate is issued between the check and the commit of the deletion. -/
def overtakenRun : List Event :=
  inTurn [.createInternalCa "ca" none] ++
    [.arrive (.deleteCa 1), .arrive (.apiCreate "leaf" 1), .commit 1, .commit 0]

/-- A certificate is issued after the deletion by a request that came before it. -/
def lateRun : List Event :=
  inTurn [.createInternalCa "ca" none] ++
    [.arrive (.deleteCa 1), .arrive (.apiCreate "leaf" 1), .commit 0, .commit 0]

theorem deleted_still_named :
    ¬(run step { db := empty } domainRun).Intact ∧ ¬(run step { db := empty } templateRun).Intact ∧
      ¬(run step { db := empty } accountRun).Intact ∧ ¬(run step { db := empty } lateRun).Intact ∧
        ¬Meets step Refuses { db := empty } overtakenRun := by
  decide

end Sample

end Deletions

end CaManager
