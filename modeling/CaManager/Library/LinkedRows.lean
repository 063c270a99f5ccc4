import CaManager.Library.Tables
import Mathlib.Data.List.Pairwise

/-!
# Rows that name rows

A database whose foreign keys nobody enforces. A row has a table, a number that no other row of
the table has, perhaps a name that no other row of the table has, and links: what its referring
columns hold. A link names a row of one table, by its number or by its name. A new row gets the
number after the largest one in use, so the number of a deleted row can come back.

Transactions insert rows, change the links of a row, or delete. A deletion removes the row of a
number together with the rows that hold certain links, sets other links to null and may move links
from one row to another one. Beside the database stand the rows that are gone. It is intact if a
link that names one of them names a row that is there. The rules say when each kind of transaction
leaves an intact database intact.
-/

namespace CaManager.Library

inductive Address
  | number (n : ℕ)
  | name (s : String)
  deriving Repr, DecidableEq

structure Identity (T : Type*) where
  table : T
  number : ℕ
  name : Option String
  deriving Repr, DecidableEq

/-- A row may be marked as one that the program does not delete. -/
structure Record (T L : Type*) extends Identity T where
  links : List L
  isProtected : Bool := false
  deriving Repr, DecidableEq

/-- Links with the table and the row that they name; a required link is in a column that cannot be
null. -/
class Linking (T : outParam (Type*)) (L : Type*) where
  target : L → T
  address : L → Address
  required : L → Bool

structure NewRow (T L : Type*) where
  table : T
  name : Option String := none
  links : List L := []
  isProtected : Bool := false

section Names

variable {T L : Type*} [Linking T L]

open Linking

def Address.Fits (i : Identity T) : Address → Prop
  | .number n => i.number = n
  | .name s => i.name = some s

instance (i : Identity T) : DecidablePred (Address.Fits i)
  | .number n => inferInstanceAs (Decidable (i.number = n))
  | .name s => inferInstanceAs (Decidable (i.name = some s))

def Names (l : L) (i : Identity T) : Prop :=
  target l = i.table ∧ (address l).Fits i

instance [DecidableEq T] (l : L) (i : Identity T) : Decidable (Names l i) :=
  inferInstanceAs (Decidable (_ ∧ _))

def Apart (i j : Identity T) : Prop :=
  i.table = j.table → i.number ≠ j.number ∧ (i.name.isSome → i.name ≠ j.name)

instance [DecidableEq T] (i j : Identity T) : Decidable (Apart i j) :=
  inferInstanceAs (Decidable (_ → _))

theorem Apart.symm {i j : Identity T} (h : Apart i j) : Apart j i := by
  intro htable
  have hij := h htable.symm
  refine ⟨Ne.symm hij.1, ?_⟩
  intro hsome heq
  exact hij.2 (heq ▸ hsome) heq.symm

instance : Std.Symm (Apart (T := T)) := ⟨fun _ _ h => h.symm⟩

theorem Apart.not_names {l : L} {i j : Identity T} (h : Apart i j) (hi : Names l i) :
    ¬Names l j := by
  intro hj
  have hij := h (hi.1.symm.trans hj.1)
  have hi₂ := hi.2
  have hj₂ := hj.2
  cases haddress : address l with
  | number n =>
    rw [haddress] at hi₂ hj₂
    exact hij.1 (Eq.trans hi₂ (Eq.symm hj₂))
  | name s =>
    rw [haddress] at hi₂ hj₂
    have hname : i.name = some s := hi₂
    exact hij.2 (by rw [hname]; rfl) (hname.trans (Eq.symm hj₂))

theorem Apart.ne {i j : Identity T} (h : Apart i j) : i ≠ j := by
  intro heq
  exact (h (congrArg Identity.table heq)).1 (congrArg Identity.number heq)

end Names

structure Database (T L : Type*) where
  rows : List (Record T L)
  distinct : rows.Pairwise fun r r' => Apart r.toIdentity r'.toIdentity

namespace Database

variable {T L : Type*}

def empty : Database T L := ⟨[], List.Pairwise.nil⟩

def identities (db : Database T L) : List (Identity T) := db.rows.map Record.toIdentity

theorem identities_apart (db : Database T L) : db.identities.Pairwise Apart :=
  List.pairwise_map.mpr db.distinct

theorem eq_of_toIdentity_eq {db : Database T L} {r r' : Record T L} (hr : r ∈ db.rows)
    (hr' : r' ∈ db.rows) (h : r.toIdentity = r'.toIdentity) : r = r' := by
  by_contra hne
  have hsymm : Std.Symm fun s s' : Record T L => Apart s.toIdentity s'.toIdentity :=
    ⟨fun _ _ h => h.symm⟩
  have hapart : Apart r.toIdentity r'.toIdentity := db.distinct.forall hr hr' hne
  exact hapart.ne h

section Find

variable [DecidableEq T] (db : Database T L)

def get? (table : T) (number : ℕ) : Option (Record T L) :=
  db.rows.find? fun r => r.table = table ∧ r.number = number

def ofName (table : T) (name : String) : Option (Record T L) :=
  db.rows.find? fun r => r.table = table ∧ r.name = some name

def nextNumber (table : T) : ℕ :=
  ((db.identities.filter fun i => i.table = table).map Identity.number).foldr max 0 + 1

end Find

def count [DecidableEq L] (db : Database T L) (l : L) : ℕ :=
  (db.rows.filter fun r => l ∈ r.links).length

def keep (db : Database T L) (p : Record T L → Bool) : Database T L where
  rows := db.rows.filter p
  distinct := db.distinct.filter p

def relink (db : Database T L) (f : Record T L → List L) : Database T L where
  rows := db.rows.map fun r => { r with links := f r }
  distinct := List.pairwise_map.mpr db.distinct

@[simp] theorem identities_relink (db : Database T L) (f : Record T L → List L) :
    (db.relink f).identities = db.identities := by
  simp [identities, relink]

theorem ext_rows {db db' : Database T L} (h : db.rows = db'.rows) : db = db' := by
  cases db; cases db'; cases h; rfl

instance [DecidableEq T] [DecidableEq L] : DecidableEq (Database T L) := fun db db' =>
  decidable_of_iff (db.rows = db'.rows) ⟨ext_rows, fun h => h ▸ rfl⟩

section Insert

variable [DecidableEq T]

theorem lt_nextNumber {db : Database T L} {i : Identity T} (hi : i ∈ db.identities) :
    i.number < db.nextNumber i.table := by
  apply Nat.lt_succ_of_le
  apply le_foldr_max
  apply List.mem_map_of_mem
  exact List.mem_filter.mpr ⟨hi, decide_eq_true rfl⟩

def freshIdentity (db : Database T L) (row : NewRow T L) : Identity T :=
  ⟨row.table, db.nextNumber row.table, row.name⟩

def Takes (row : NewRow T L) (i : Identity T) : Prop :=
  i.table = row.table ∧ i.name.isSome ∧ i.name = row.name

instance (row : NewRow T L) : DecidablePred (Takes row) := fun _ =>
  inferInstanceAs (Decidable (_ ∧ _))

def insert? (db : Database T L) (row : NewRow T L) : Option (Database T L) :=
  if h : ∃ i ∈ db.identities, Takes row i then none
  else some
    { rows := db.rows ++ [⟨db.freshIdentity row, row.links, row.isProtected⟩]
      distinct := by
        rw [List.pairwise_append]
        refine ⟨db.distinct, List.pairwise_singleton _ _, ?_⟩
        intro r hr r' hr' htable
        rw [List.mem_singleton.mp hr'] at htable ⊢
        have hmem : r.toIdentity ∈ db.identities := List.mem_map_of_mem hr
        constructor
        · have hlt := lt_nextNumber hmem
          rw [htable] at hlt
          exact Nat.ne_of_lt hlt
        · exact fun hsome heq => h ⟨r.toIdentity, hmem, htable, hsome, heq⟩ }

theorem rows_of_insert? {db db' : Database T L} {row : NewRow T L}
    (h : db.insert? row = some db') :
    db'.rows = db.rows ++ [⟨db.freshIdentity row, row.links, row.isProtected⟩] := by
  unfold insert? at h
  split_ifs at h
  cases h
  rfl

theorem insert?_eq_none_iff {db : Database T L} {row : NewRow T L} :
    db.insert? row = none ↔ ∃ i ∈ db.identities, Takes row i := by
  unfold insert?
  by_cases h : ∃ i ∈ db.identities, Takes row i
  · rw [dif_pos h]
    exact iff_of_true rfl h
  · rw [dif_neg h]
    exact iff_of_false (Option.some_ne_none _) h

theorem identities_of_insert? {db db' : Database T L} {row : NewRow T L}
    (h : db.insert? row = some db') :
    db'.identities = db.identities ++ [db.freshIdentity row] := by
  unfold identities
  rw [rows_of_insert? h, List.map_append, List.map_singleton]

theorem freshIdentity_congr {db db' : Database T L} (h : db'.identities = db.identities)
    (row : NewRow T L) : db'.freshIdentity row = db.freshIdentity row := by
  unfold freshIdentity nextNumber
  rw [h]

end Insert

def removed [DecidableEq T] (db db' : Database T L) : List (Identity T) :=
  db.identities.filter fun i => i ∉ db'.identities

theorem mem_removed [DecidableEq T] {db db' : Database T L} {i : Identity T} :
    i ∈ removed db db' ↔ i ∈ db.identities ∧ i ∉ db'.identities := by
  simp [removed]

variable [Linking T L]

def Resolves (db : Database T L) (l : L) : Prop :=
  ∃ i ∈ db.identities, Names l i

instance [DecidableEq T] (db : Database T L) (l : L) : Decidable (db.Resolves l) :=
  inferInstanceAs (Decidable (∃ i ∈ db.identities, Names l i))

theorem eq_of_names {db : Database T L} {l : L} {i j : Identity T} (hi : i ∈ db.identities)
    (hj : j ∈ db.identities) (hli : Names l i) (hlj : Names l j) : i = j := by
  by_contra hne
  have hapart : Apart i j :=
    db.identities_apart.forall hi hj hne
  exact hapart.not_names hli hlj

def Intact (db : Database T L) (gone : List (Identity T)) : Prop :=
  ∀ r ∈ db.rows, ∀ l ∈ r.links, ∀ i ∈ gone, Names l i → db.Resolves l

instance [DecidableEq T] (db : Database T L) (gone : List (Identity T)) :
    Decidable (db.Intact gone) :=
  inferInstanceAs (Decidable (∀ r ∈ db.rows, ∀ l ∈ r.links, ∀ i ∈ gone, _))

theorem intact_nil (db : Database T L) : db.Intact [] := by
  intro r _ l _ i hi
  cases hi

end Database

end CaManager.Library
