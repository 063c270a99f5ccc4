import CaManager.Library.LinkedRows

/-!
# Transactions on rows that name rows

A transaction is a list of statements that all take effect or none. There are two kinds of
transactions here: writes, which touch rows, change the links of one and insert others, and
deletions. For each there is what the database is afterwards, and when an intact database is intact
afterwards.
-/

namespace CaManager.Library

namespace Database

inductive Statement (T L : Type*)
  | insert (row : NewRow T L)
  | update (table : T) (number : ℕ) (replaced : L → Bool) (links : List L)
  | deleteWhere (l : L)
  | setNull (l : L)
  | redirect (l l' : L)
  | delete (table : T) (number : ℕ)

section Shapes

variable {T L : Type*} (db : Database T L)

theorem relink_links : (db.relink fun r => r.links) = db :=
  ext_rows (List.map_id' db.rows)

theorem keep_true : (db.keep fun _ => true) = db :=
  ext_rows (List.filter_true db.rows)

theorem keep_keep (p q : Record T L → Bool) :
    (db.keep p).keep q = db.keep fun r => p r && q r := by
  refine ext_rows ?_
  change (db.rows.filter p).filter q = _
  rw [List.filter_filter]
  exact List.filter_congr fun r _ => Bool.and_comm _ _

theorem relink_relink (f g : List L → List L) :
    ((db.relink fun r => f r.links).relink fun r => g r.links) =
      db.relink fun r => g (f r.links) :=
  ext_rows List.map_map

theorem keep_relink {p : Record T L → Bool} {f : List L → List L}
    (hp : ∀ r : Record T L, p { r with links := f r.links } = p r) :
    (db.relink fun r => f r.links).keep p = (db.keep p).relink fun r => f r.links := by
  refine ext_rows ?_
  change (db.rows.map _).filter p = (db.rows.filter p).map _
  rw [List.filter_map]
  exact congrArg _ (List.filter_congr fun r _ => hp r)

end Shapes

section Execution

variable {T L : Type*} [DecidableEq T] [DecidableEq L] [Linking T L]

def has (db : Database T L) (table : T) (number : ℕ) : Bool :=
  db.rows.any fun r => r.table = table ∧ r.number = number

/-- A statement fails where a name is taken, where the row to be updated is no longer there, and
where a required link would become null. -/
def execute (db : Database T L) : Statement T L → Option (Database T L)
  | .insert row => db.insert? row
  | .update table number replaced links =>
    if db.has table number then
      some (db.relink fun r =>
        if r.table = table ∧ r.number = number then
          (r.links.filter fun l => !replaced l) ++ links
        else r.links)
    else none
  | .deleteWhere l => some (db.keep fun r => l ∉ r.links)
  | .setNull l =>
    if Linking.required l = true ∧ 0 < db.count l then none
    else some (db.relink fun r => r.links.filter fun l' => l' ≠ l)
  | .redirect l l' => some (db.relink fun r => r.links.map fun k => if k = l then l' else k)
  | .delete table number => some (db.keep fun r => ¬(r.table = table ∧ r.number = number))

def transact (db : Database T L) (statements : List (Statement T L)) : Option (Database T L) :=
  statements.foldlM execute db

@[simp] theorem transact_nil (db : Database T L) : db.transact [] = some db := rfl

theorem transact_cons (db : Database T L) (s : Statement T L) (ss : List (Statement T L)) :
    db.transact (s :: ss) = (db.execute s).bind fun db' => db'.transact ss := rfl

theorem transact_append (db : Database T L) (ss ss' : List (Statement T L)) :
    db.transact (ss ++ ss') = (db.transact ss).bind fun db' => db'.transact ss' :=
  List.foldlM_append

def touch (row : T × ℕ) : Statement T L := .update row.1 row.2 (fun _ => false) []

theorem transact_touch {db db' : Database T L} {touched : List (T × ℕ)}
    (h : db.transact (touched.map touch) = some db') : db' = db := by
  induction touched with
  | nil => exact (Option.some.inj h).symm
  | cons row touched ih =>
    rw [List.map_cons, transact_cons, Option.bind_eq_some_iff] at h
    obtain ⟨db₁, hrow, hrest⟩ := h
    have heq : db₁ = db := by
      simp only [execute, touch, Bool.not_false, List.filter_true, List.append_nil, ite_self,
        relink_links] at hrow
      split_ifs at hrow
      exact (Option.some.inj hrow).symm
    rw [heq] at hrest
    exact ih hrest

end Execution

section Growth

variable {T L : Type*} {db db' : Database T L} {gone : List (Identity T)} {links : List L}

/-- Rows and links are added: no row goes, and the only new links are these. -/
structure Grows (links : List L) (db db' : Database T L) : Prop where
  stays : ∀ i ∈ db.identities, i ∈ db'.identities
  known : ∀ r ∈ db'.rows, ∀ l ∈ r.links, l ∈ links ∨ ∃ r₀ ∈ db.rows, l ∈ r₀.links
  added : ∀ l ∈ links, ∃ r ∈ db'.rows, l ∈ r.links

theorem Grows.refl (db : Database T L) : Grows [] db db where
  stays _ hi := hi
  known r hr _ hl := .inr ⟨r, hr, hl⟩
  added _ hl := absurd hl List.not_mem_nil

theorem Grows.removed_eq_nil [DecidableEq T] (h : Grows links db db') : removed db db' = [] := by
  rw [removed, List.filter_eq_nil_iff]
  intro i hi
  simpa using h.stays i hi

theorem Grows.intact_iff [Linking T L] (h : Grows links db db') (hdb : db.Intact gone) :
    db'.Intact gone ↔ ∀ l ∈ links, ∀ i ∈ gone, Names l i → db'.Resolves l := by
  constructor
  · intro hdb' l hl i hi hnames
    obtain ⟨r, hr, hlr⟩ := h.added l hl
    exact hdb' r hr l hlr i hi hnames
  · intro hlinks r hr l hl i hi hnames
    rcases h.known r hr l hl with hnew | ⟨r₀, hr₀, hl₀⟩
    · exact hlinks l hnew i hi hnames
    · obtain ⟨j, hj, hlj⟩ := hdb r₀ hr₀ l hl₀ i hi hnames
      exact ⟨j, h.stays j hj, hlj⟩

end Growth

section Insertion

variable {T L : Type*} [DecidableEq T]

def freshIdentities : Database T L → List (NewRow T L) → List (Identity T)
  | _, [] => []
  | db, row :: rows =>
    match db.insert? row with
    | none => []
    | some db' => db.freshIdentity row :: freshIdentities db' rows

variable {db db' : Database T L} {rows : List (NewRow T L)}

theorem freshIdentities_congr (h : db'.identities = db.identities) (rows : List (NewRow T L)) :
    db'.freshIdentities rows = db.freshIdentities rows := by
  induction rows generalizing db db' with
  | nil => rfl
  | cons row rows ih =>
    have hfresh := freshIdentity_congr h row
    have hnone : db'.insert? row = none ↔ db.insert? row = none := by
      rw [insert?_eq_none_iff, insert?_eq_none_iff, h]
    unfold freshIdentities
    cases hins : db.insert? row with
    | none => rw [hnone.mpr hins]
    | some db₁ =>
      cases hins' : db'.insert? row with
      | none => exact absurd ((hnone.mp hins').symm.trans hins) (Option.some_ne_none db₁).symm
      | some db₁' =>
        have hids : db₁'.identities = db₁.identities := by
          rw [identities_of_insert? hins, identities_of_insert? hins', h, hfresh]
        dsimp only
        rw [hfresh, ih hids]

variable [DecidableEq L] [Linking T L]

theorem identities_of_transact_insert (h : db.transact (rows.map .insert) = some db') :
    db'.identities = db.identities ++ db.freshIdentities rows := by
  induction rows generalizing db with
  | nil =>
    rw [← Option.some.inj h]
    exact (List.append_nil _).symm
  | cons row rows ih =>
    rw [List.map_cons, transact_cons, Option.bind_eq_some_iff] at h
    obtain ⟨db₁, hrow, hrest⟩ := h
    have hins : db.insert? row = some db₁ := hrow
    rw [ih hrest, identities_of_insert? hins, freshIdentities, hins, List.append_assoc]
    rfl

theorem rows_of_transact_insert (h : db.transact (rows.map .insert) = some db') :
    ∃ new, db'.rows = db.rows ++ new ∧
      new.flatMap Record.links = rows.flatMap NewRow.links := by
  induction rows generalizing db with
  | nil =>
    rw [← Option.some.inj h]
    exact ⟨[], (List.append_nil _).symm, rfl⟩
  | cons row rows ih =>
    rw [List.map_cons, transact_cons, Option.bind_eq_some_iff] at h
    obtain ⟨db₁, hrow, hrest⟩ := h
    obtain ⟨new, hnew, hlinks⟩ := ih hrest
    refine ⟨⟨db.freshIdentity row, row.links, row.isProtected⟩ :: new, ?_, ?_⟩
    · rw [hnew, rows_of_insert? hrow, List.append_assoc]
      rfl
    · rw [List.flatMap_cons, List.flatMap_cons, hlinks]

theorem Grows.insert {db₁ : Database T L} {links : List L} (hgrows : Grows links db db₁)
    (h : db₁.transact (rows.map .insert) = some db') :
    Grows (links ++ rows.flatMap NewRow.links) db db' := by
  obtain ⟨new, hnew, hlinks⟩ := rows_of_transact_insert h
  constructor
  · intro i hi
    rw [identities_of_transact_insert h]
    exact List.mem_append_left _ (hgrows.stays i hi)
  · intro r hr l hl
    rw [hnew] at hr
    rcases List.mem_append.mp hr with hr | hr
    · exact (hgrows.known r hr l hl).imp_left (List.mem_append_left _)
    · rw [← hlinks]
      exact .inl (List.mem_append_right _ (List.mem_flatMap.mpr ⟨r, hr, hl⟩))
  · intro l hl
    rw [hnew]
    rcases List.mem_append.mp hl with hl | hl
    · obtain ⟨r, hr, hlr⟩ := hgrows.added l hl
      exact ⟨r, List.mem_append_left _ hr, hlr⟩
    · rw [← hlinks] at hl
      obtain ⟨r, hr, hlr⟩ := List.mem_flatMap.mp hl
      exact ⟨r, List.mem_append_right _ hr, hlr⟩

end Insertion

section Assignment

variable {T L : Type*} [DecidableEq T] [DecidableEq L] [Linking T L] {db db' : Database T L}
  {table : T} {number : ℕ} {replaced : L → Bool} {links : List L}

theorem execute_update (h : db.execute (.update table number replaced links) = some db') :
    db'.identities = db.identities ∧ Grows links db db' := by
  simp only [execute] at h
  split_ifs at h with hhas
  obtain rfl := Option.some.inj h
  have hids := identities_relink db fun r : Record T L =>
    if r.table = table ∧ r.number = number then (r.links.filter fun l => !replaced l) ++ links
    else r.links
  refine ⟨hids, ⟨fun i hi => hids ▸ hi, ?_, ?_⟩⟩
  · intro r hr l hl
    obtain ⟨r₀, hr₀, rfl⟩ := List.mem_map.mp hr
    dsimp only at hl
    split_ifs at hl
    · rcases List.mem_append.mp hl with hold | hnew
      · exact .inr ⟨r₀, hr₀, (List.mem_filter.mp hold).1⟩
      · exact .inl hnew
    · exact .inr ⟨r₀, hr₀, hl⟩
  · intro l hl
    obtain ⟨r, hr, hthere⟩ := List.any_eq_true.mp hhas
    refine ⟨_, List.mem_map_of_mem hr, ?_⟩
    dsimp only
    rw [if_pos (of_decide_eq_true hthere)]
    exact List.mem_append_right _ hl

end Assignment

end Database

/-- New links for a row in place of some of its links. -/
structure Assignment (T L : Type*) where
  table : T
  number : ℕ
  replaced : L → Bool
  links : List L

/-- What a transaction that writes does: it touches rows, changes the links of a row, and inserts
rows. -/
structure Write (T L : Type*) where
  touched : List (T × ℕ) := []
  assigned : Option (Assignment T L) := none
  rows : List (NewRow T L) := []

namespace Write

open Database

section Effect

variable {T L : Type*} [DecidableEq T] [DecidableEq L]

def links (w : Write T L) : List L :=
  w.assigned.elim [] Assignment.links ++ w.rows.flatMap NewRow.links

def statements (w : Write T L) : List (Statement T L) :=
  w.touched.map touch ++
    w.assigned.toList.map (fun a => .update a.table a.number a.replaced a.links) ++
      w.rows.map .insert

variable [Linking T L] {w : Write T L} {db db' : Database T L} {gone : List (Identity T)}

/-- What the write makes rows name is there, or comes with it, unless it was never there. -/
def Finds (w : Write T L) (db : Database T L) (gone : List (Identity T)) : Prop :=
  ∀ l ∈ w.links, ∀ i ∈ gone, Names l i →
    db.Resolves l ∨ ∃ j ∈ db.freshIdentities w.rows, Names l j

theorem transact_assigned {assigned : Option (Assignment T L)}
    (h : db.transact (assigned.toList.map
      fun a => .update a.table a.number a.replaced a.links) = some db') :
    db'.identities = db.identities ∧ Grows (assigned.elim [] Assignment.links) db db' := by
  cases assigned with
  | none =>
    rw [← Option.some.inj h]
    exact ⟨rfl, .refl db⟩
  | some a =>
    have hupdate : (db.execute (.update a.table a.number a.replaced a.links)).bind some =
      some db' := h
    rw [Option.bind_fun_some] at hupdate
    exact execute_update hupdate

theorem grows_of_transact (h : db.transact w.statements = some db') :
    Grows w.links db db' ∧ db'.identities = db.identities ++ db.freshIdentities w.rows := by
  unfold statements at h
  rw [transact_append, Option.bind_eq_some_iff] at h
  obtain ⟨db₁, hassigned, hinsert⟩ := h
  rw [transact_append, Option.bind_eq_some_iff] at hassigned
  obtain ⟨db₀, htouch, hassigned⟩ := hassigned
  rw [transact_touch htouch] at hassigned
  obtain ⟨hids, hgrows⟩ := transact_assigned hassigned
  refine ⟨hgrows.insert hinsert, ?_⟩
  rw [identities_of_transact_insert hinsert, freshIdentities_congr hids, hids]

theorem intact_iff (hdb : db.Intact gone) (h : db.transact w.statements = some db') :
    db'.Intact (gone ++ removed db db') ↔ w.Finds db gone := by
  obtain ⟨hgrows, hids⟩ := grows_of_transact h
  have hresolves : ∀ l : L, db'.Resolves l ↔
      db.Resolves l ∨ ∃ j ∈ db.freshIdentities w.rows, Names l j := by
    intro l
    unfold Resolves
    rw [hids]
    simp only [List.mem_append, or_and_right, exists_or]
  rw [hgrows.removed_eq_nil, List.append_nil, hgrows.intact_iff hdb]
  unfold Finds
  simp only [hresolves]

end Effect

end Write

/-- What a transaction that deletes a row does: it deletes the rows that hold one of the dependent
links, sets the cleared links to null, moves links, and deletes the row of a number. -/
structure Deletion (T L : Type*) where
  table : T
  number : ℕ
  dependents : List L := []
  cleared : List L := []
  moved : List (L × L) := []

namespace Deletion

open Database

section Effect

variable {T L : Type*} [DecidableEq L]

def replace (moved : List (L × L)) (l : L) : L :=
  moved.foldl (fun l m => if l = m.1 then m.2 else l) l

theorem replace_cases (moved : List (L × L)) (l : L) :
    replace moved l ∈ moved.map Prod.snd ∨ replace moved l = l ∧ l ∉ moved.map Prod.fst := by
  induction moved generalizing l with
  | nil => exact .inr ⟨rfl, List.not_mem_nil⟩
  | cons m moved ih =>
    change replace moved (if l = m.1 then m.2 else l) ∈ _ ∨
      replace moved (if l = m.1 then m.2 else l) = l ∧ _
    rw [List.map_cons, List.map_cons, List.mem_cons, List.mem_cons]
    by_cases hl : l = m.1
    · rw [if_pos hl]
      rcases ih m.2 with hrest | ⟨hsame, -⟩
      · exact .inl (.inr hrest)
      · exact .inl (.inl hsame)
    · rw [if_neg hl]
      rcases ih l with hrest | ⟨hsame, hnot⟩
      · exact .inl (.inr hrest)
      · exact .inr ⟨hsame, not_or.mpr ⟨hl, hnot⟩⟩

theorem replace_mem {moved : List (L × L)} {l : L} (h : l ∈ moved.map Prod.fst) :
    replace moved l ∈ moved.map Prod.snd :=
  (replace_cases moved l).resolve_right fun hcase => hcase.2 h

theorem replace_of_notMem {moved : List (L × L)} {l : L} (h : l ∉ moved.map Prod.fst) :
    replace moved l = l := by
  induction moved with
  | nil => rfl
  | cons m moved ih =>
    rw [List.map_cons, List.mem_cons, not_or] at h
    change replace moved (if l = m.1 then m.2 else l) = l
    rw [if_neg h.1, ih h.2]

variable [DecidableEq T] (d : Deletion T L)

def statements : List (Statement T L) :=
  d.dependents.map .deleteWhere ++ d.cleared.map .setNull ++
    d.moved.map (fun m => .redirect m.1 m.2) ++ [.delete d.table d.number]

def Removes (r : Record T L) : Prop :=
  r.table = d.table ∧ r.number = d.number ∨ ∃ l ∈ d.dependents, l ∈ r.links

instance : DecidablePred d.Removes := fun _ => inferInstanceAs (Decidable (_ ∨ _))

def rewrite (links : List L) : List L :=
  (links.filter fun l => l ∉ d.cleared).map (replace d.moved)

def apply (db : Database T L) : Database T L :=
  (db.keep fun r => ¬d.Removes r).relink fun r => d.rewrite r.links

variable {d} in
theorem mem_identities_apply {db : Database T L} {i : Identity T} :
    i ∈ (d.apply db).identities ↔ ∃ r ∈ db.rows, ¬d.Removes r ∧ r.toIdentity = i := by
  unfold apply
  rw [identities_relink]
  simp [identities, keep, and_assoc]

variable {d} in
theorem mem_removed_apply {db : Database T L} {i : Identity T} :
    i ∈ removed db (d.apply db) ↔ ∃ r ∈ db.rows, d.Removes r ∧ r.toIdentity = i := by
  rw [mem_removed, mem_identities_apply]
  constructor
  · rintro ⟨hi, hnot⟩
    obtain ⟨r, hr, rfl⟩ := List.mem_map.mp hi
    refine ⟨r, hr, ?_, rfl⟩
    by_contra hstays
    exact hnot ⟨r, hr, hstays, rfl⟩
  · rintro ⟨r, hr, hgoes, rfl⟩
    refine ⟨List.mem_map_of_mem hr, ?_⟩
    rintro ⟨r', hr', hstays, heq⟩
    exact hstays (eq_of_toIdentity_eq hr' hr heq ▸ hgoes)

variable {d} in
theorem notMem_identities_apply {db : Database T L} {r : Record T L} (hr : r ∈ db.rows) :
    r.toIdentity ∉ (d.apply db).identities ↔ d.Removes r := by
  have hremoved : r.toIdentity ∈ removed db (d.apply db) ↔ _ := mem_removed
  rw [mem_removed_apply] at hremoved
  constructor
  · intro hnot
    obtain ⟨r', hr', hgoes, heq⟩ := hremoved.mpr ⟨List.mem_map_of_mem hr, hnot⟩
    exact eq_of_toIdentity_eq hr' hr heq ▸ hgoes
  · intro hgoes
    exact (hremoved.mp ⟨r, hr, hgoes, rfl⟩).2

variable [Linking T L] {db db' : Database T L}

theorem transact_deleteWhere (ls : List L) :
    db.transact (ls.map .deleteWhere) = some (db.keep fun r => ∀ l ∈ ls, l ∉ r.links) := by
  induction ls generalizing db with
  | nil => simp [keep_true]
  | cons l ls ih =>
    rw [List.map_cons, transact_cons]
    change (db.keep _).transact _ = _
    rw [ih, keep_keep]
    simp

theorem transact_setNull {ls : List L} (h : db.transact (ls.map .setNull) = some db') :
    db' = db.relink fun r => r.links.filter fun l => l ∉ ls := by
  induction ls generalizing db with
  | nil =>
    rw [← Option.some.inj h]
    simp [relink_links]
  | cons l ls ih =>
    rw [List.map_cons, transact_cons, Option.bind_eq_some_iff] at h
    obtain ⟨db₁, hset, hrest⟩ := h
    simp only [execute] at hset
    split_ifs at hset
    rw [ih hrest, ← Option.some.inj hset, relink_relink]
    simp only [List.filter_filter, List.mem_cons, not_or, Bool.decide_and, Bool.and_comm]

theorem transact_redirect (moved : List (L × L)) :
    db.transact (moved.map fun m => .redirect m.1 m.2) =
      some (db.relink fun r => r.links.map (replace moved)) := by
  induction moved generalizing db with
  | nil =>
    change some db = some (db.relink fun r => r.links.map fun l => l)
    simp only [List.map_id', relink_links]
  | cons m moved ih =>
    rw [List.map_cons, transact_cons]
    change (db.relink _).transact _ = _
    rw [ih, relink_relink]
    simp only [List.map_map]
    rfl

theorem eq_apply_of_transact (h : db.transact d.statements = some db') : db' = d.apply db := by
  unfold statements at h
  rw [transact_append, Option.bind_eq_some_iff] at h
  obtain ⟨db₃, hmoved, hdelete⟩ := h
  rw [transact_append, Option.bind_eq_some_iff] at hmoved
  obtain ⟨db₂, hcleared, hmoved⟩ := hmoved
  rw [transact_append, transact_deleteWhere, Option.bind_some] at hcleared
  rw [transact_redirect, transact_setNull hcleared, relink_relink] at hmoved
  rw [← Option.some.inj hmoved] at hdelete
  have hkeep := keep_relink (db.keep fun r => decide (∀ l ∈ d.dependents, l ∉ r.links))
    (p := fun r => decide (¬(r.table = d.table ∧ r.number = d.number))) (f := d.rewrite)
    fun _ => rfl
  rw [← Option.some.inj hdelete]
  refine hkeep.trans ?_
  rw [keep_keep]
  unfold apply Removes
  congr 2
  funext r
  simp only [not_or, not_exists, not_and, Bool.decide_and, Bool.and_comm]

/-- Whatever names a row that goes, in a row that stays, is set to null or moved. -/
def Spares (db : Database T L) : Prop :=
  ∀ r ∈ db.rows, d.Removes r → ∀ row ∈ db.rows, ¬d.Removes row → ∀ l ∈ row.links,
    Names l r.toIdentity → l ∈ d.cleared ∨ l ∈ d.moved.map Prod.fst

variable {d} {gone : List (Identity T)}

/-- A deletion leaves an intact database intact exactly if it spares what stays, where the links
that it moves are moved to rows that stay. -/
theorem intact_apply_iff (hdb : db.Intact gone)
    (hmoved : ∀ l ∈ d.moved.map Prod.snd, (d.apply db).Resolves l) :
    (d.apply db).Intact (gone ++ removed db (d.apply db)) ↔ d.Spares db := by
  constructor
  · intro hafter r hr hgoes row hrow hstays l hl hnames
    by_contra hkept
    obtain ⟨hcleared, hunmoved⟩ := not_or.mp hkept
    have hlink : l ∈ d.rewrite row.links := by
      refine List.mem_map.mpr ⟨l, ?_, replace_of_notMem hunmoved⟩
      exact List.mem_filter.mpr ⟨hl, decide_eq_true hcleared⟩
    have hrow' : { row with links := d.rewrite row.links } ∈ (d.apply db).rows :=
      List.mem_map_of_mem (List.mem_filter.mpr ⟨hrow, decide_eq_true hstays⟩)
    have hgone : r.toIdentity ∈ gone ++ removed db (d.apply db) :=
      List.mem_append_right _ (mem_removed_apply.mpr ⟨r, hr, hgoes, rfl⟩)
    obtain ⟨i, hi, hli⟩ := hafter _ hrow' l hlink _ hgone hnames
    obtain ⟨r', hr', hstays', rfl⟩ := mem_identities_apply.mp hi
    have hsame : r'.toIdentity = r.toIdentity :=
      eq_of_names (List.mem_map_of_mem hr') (List.mem_map_of_mem hr) hli hnames
    exact hstays' (eq_of_toIdentity_eq hr' hr hsame ▸ hgoes)
  · intro hspares row' hrow' l' hl' i hi hnames
    obtain ⟨row, hrow, rfl⟩ := List.mem_map.mp hrow'
    obtain ⟨hrow, hstays⟩ := List.mem_filter.mp hrow
    have hstays : ¬d.Removes row := of_decide_eq_true hstays
    obtain ⟨l, hl, rfl⟩ := List.mem_map.mp hl'
    obtain ⟨hl, hcleared⟩ := List.mem_filter.mp hl
    have hcleared : l ∉ d.cleared := of_decide_eq_true hcleared
    by_cases hmove : l ∈ d.moved.map Prod.fst
    · exact hmoved _ (replace_mem hmove)
    · rw [replace_of_notMem hmove] at hnames ⊢
      have hspared : ∀ r ∈ db.rows, d.Removes r → ¬Names l r.toIdentity := by
        intro r hr hgoes hlr
        exact not_or.mpr ⟨hcleared, hmove⟩ (hspares r hr hgoes row hrow hstays l hl hlr)
      rcases List.mem_append.mp hi with hold | hnew
      · obtain ⟨j, hj, hlj⟩ := hdb row hrow l hl i hold hnames
        obtain ⟨r, hr, rfl⟩ := List.mem_map.mp hj
        refine ⟨r.toIdentity, mem_identities_apply.mpr ⟨r, hr, ?_, rfl⟩, hlj⟩
        exact fun hgoes => hspared r hr hgoes hlj
      · obtain ⟨r, hr, hgoes, rfl⟩ := mem_removed_apply.mp hnew
        exact absurd hnames (hspared r hr hgoes)

end Effect

end Deletion

end CaManager.Library
