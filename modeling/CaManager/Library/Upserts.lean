import CaManager.Library.Registry
import CaManager.Library.Tables

/-!
# Rows taken over by name

Entries from elsewhere are taken into a table one after the other: where there is a row of the
name it is changed, otherwise there is a new row. Rows keep their keys and their names; new rows
get the next keys, in the order in which their names first occur. What a key stands for afterwards
is therefore known beforehand.
-/

namespace CaManager.Library

open Keyed

class NamedRow (Row : Type*) extends Keyed Row, Named Row where
  name_withKey : ∀ k r, name (withKey k r) = name r

open Named NamedRow

attribute [simp] NamedRow.name_withKey

/-- How an entry is taken over: what it changes in a row of its name, and the row it makes where
there is none. -/
structure Merge (Row Entry : Type*) [NamedRow Row] where
  entryName : Entry → String
  change : Entry → Row → Row
  create : Entry → Row
  name_change : ∀ e r, name (change e r) = name r
  name_create : ∀ e, name (create e) = entryName e

namespace Table

variable {Row : Type*} [NamedRow Row]

def ofName (t : Table Row) (n : String) : Option Row := t.first fun r => name r = n

def nameAt (t : Table Row) (k : ℕ) : Option String := (t.get? k).map name

def names (t : Table Row) : List String := t.rows.map name

theorem nextKey_insert (t : Table Row) (r : Row) : (t.insert r).nextKey = t.nextKey + 1 := by
  have hfold : ∀ (ks : List ℕ) (m : ℕ), ks.foldr max 0 ≤ m → (ks ++ [m]).foldr max 0 = m := by
    intro ks m h
    induction ks with
    | nil => simp
    | cons k ks ih =>
      rw [List.foldr_cons] at h
      rw [List.cons_append, List.foldr_cons, ih (by omega)]
      omega
  have hrows : (t.insert r).rows.map key = t.rows.map key ++ [t.nextKey] := by
    unfold insert
    rw [List.map_append, List.map_singleton, key_withKey]
  have hle : (t.rows.map key).foldr max 0 ≤ t.nextKey := Nat.le_succ _
  change ((t.insert r).rows.map key).foldr max 0 + 1 = _
  rw [hrows, hfold _ _ hle]

theorem nextKey_update (t : Table Row) (k : ℕ) (f : Row → Row) :
    (t.update k f).nextKey = t.nextKey := by
  have hkeys : (t.update k f).rows.map key = t.rows.map key := by
    unfold update
    rw [List.map_map]
    refine List.map_congr_left fun r _ => ?_
    rcases eq_or_ne (key r) k with h | h
    · simp [h]
    · simp [h]
  rw [nextKey, hkeys, nextKey]

theorem ofName_eq_none_iff {t : Table Row} {n : String} : t.ofName n = none ↔ n ∉ t.names := by
  simp [ofName, first, names, List.find?_eq_none]

theorem mem_names_of_ofName {t : Table Row} {n : String} {r : Row} (h : t.ofName n = some r) :
    n ∈ t.names := by
  by_contra hnot
  rw [ofName_eq_none_iff.mpr hnot] at h
  cases h

theorem nameAt_of_ofName {t : Table Row} {n : String} {r : Row} (h : t.ofName n = some r) :
    t.nameAt (key r) = some n := by
  have hget : t.get? (key r) = some r := get?_eq_some_iff.mpr ⟨mem_of_first h, rfl⟩
  have hholds := holds_of_first h
  rw [nameAt, hget, Option.map_some, of_decide_eq_true hholds]

theorem name_of_ofName {t : Table Row} {n : String} {r : Row} (h : t.ofName n = some r) :
    name r = n := by
  have hholds := holds_of_first h
  exact of_decide_eq_true hholds

end Table

namespace Merge

variable {Row Entry : Type*} [NamedRow Row] (m : Merge Row Entry)

def merge (t : Table Row) (e : Entry) : Table Row :=
  match t.ofName (m.entryName e) with
  | some r => t.update (key r) (m.change e)
  | none => t.insert (m.create e)

def mergeAll (t : Table Row) (es : List Entry) : Table Row := es.foldl m.merge t

variable {m} in
theorem merge_of_some {t : Table Row} {e : Entry} {r : Row}
    (hr : t.ofName (m.entryName e) = some r) : m.merge t e = t.update (key r) (m.change e) := by
  unfold merge
  rw [hr]

variable {m} in
theorem merge_of_none {t : Table Row} {e : Entry} (hr : t.ofName (m.entryName e) = none) :
    m.merge t e = t.insert (m.create e) := by
  unfold merge
  rw [hr]

/-- The names of entries that are not known before, in the order in which they first occur. -/
def newNames : List String → List Entry → List String
  | _, [] => []
  | known, e :: es =>
    if m.entryName e ∈ known then newNames known es
    else m.entryName e :: newNames (known ++ [m.entryName e]) es

/-- What a key will stand for once the entries are taken over: the name it stands for now, or the
new name whose turn it is when the key is given out. -/
def arrives (t : Table Row) (es : List Entry) (k : ℕ) : Option String :=
  match t.nameAt k with
  | some n => some n
  | none => if t.nextKey ≤ k then (m.newNames t.names es)[k - t.nextKey]? else none

section Steps

variable {m} {t : Table Row} {e : Entry}

theorem names_update (k : ℕ) : (t.update k (m.change e)).names = t.names := by
  unfold Table.names Table.update
  rw [List.map_map]
  refine List.map_congr_left fun r _ => ?_
  by_cases h : key r = k
  · simp [h, m.name_change]
  · simp [h]

theorem nameAt_update (k k' : ℕ) : (t.update k (m.change e)).nameAt k' = t.nameAt k' := by
  unfold Table.nameAt
  rw [Table.get?_update, Option.map_map]
  congr 1
  funext r
  by_cases h : key r = k
  · simp [h, m.name_change]
  · simp [h]

theorem names_insert : (t.insert (m.create e)).names = t.names ++ [m.entryName e] := by
  simp [Table.names, Table.insert, m.name_create]

theorem nameAt_insert (k : ℕ) :
    (t.insert (m.create e)).nameAt k =
      if k = t.nextKey then some (m.entryName e) else t.nameAt k := by
  unfold Table.nameAt
  rw [Table.get?_insert]
  split
  · simp [m.name_create]
  · rfl

theorem nameAt_eq_none_of_nextKey_le {k : ℕ} (h : t.nextKey ≤ k) : t.nameAt k = none := by
  rw [Table.nameAt, Option.map_eq_none_iff, Table.get?_eq_none_iff]
  intro r hr hkey
  have := Table.key_lt_nextKey hr
  omega

theorem arrives_merge (es : List Entry) (k : ℕ) :
    m.arrives (m.merge t e) es k = m.arrives t (e :: es) k := by
  unfold merge
  split
  next r hr =>
    have hknown : m.entryName e ∈ t.names := by
      by_contra hnot
      rw [Table.ofName_eq_none_iff.mpr hnot] at hr
      cases hr
    unfold arrives
    rw [nameAt_update, Table.nextKey_update, names_update, newNames, if_pos hknown]
  next hr =>
    have hnew : m.entryName e ∉ t.names := Table.ofName_eq_none_iff.mp hr
    unfold arrives
    rw [nameAt_insert, Table.nextKey_insert, names_insert, newNames, if_neg hnew]
    rcases Nat.lt_trichotomy k t.nextKey with hlt | rfl | hgt
    · have hne : k ≠ t.nextKey := by omega
      have hnot : ¬t.nextKey + 1 ≤ k := by omega
      have hnot' : ¬t.nextKey ≤ k := by omega
      rw [if_neg hne, if_neg hnot, if_neg hnot']
    · rw [if_pos rfl, nameAt_eq_none_of_nextKey_le (Nat.le_refl _), if_pos (Nat.le_refl _), Nat.sub_self]
      rfl
    · have hne : k ≠ t.nextKey := by omega
      have hle : t.nextKey + 1 ≤ k := by omega
      have hindex : k - t.nextKey = (k - (t.nextKey + 1)) + 1 := by omega
      rw [if_neg hne, nameAt_eq_none_of_nextKey_le (by omega), if_pos hle, if_pos (by omega),
        hindex, List.getElem?_cons_succ]

end Steps

theorem nameAt_mergeAll (t : Table Row) (es : List Entry) (k : ℕ) :
    (m.mergeAll t es).nameAt k = m.arrives t es k := by
  induction es generalizing t with
  | nil =>
    rw [arrives]
    cases h : t.nameAt k with
    | some n => exact h
    | none =>
      simp only [newNames, List.getElem?_nil, ite_self]
      exact h
  | cons e es ih =>
    rw [mergeAll, List.foldl_cons, ← mergeAll, ih, arrives_merge]

variable {m} in
theorem nameAt_mergeAll_of_nameAt {t : Table Row} {k : ℕ} {n : String} (h : t.nameAt k = some n)
    (es : List Entry) : (m.mergeAll t es).nameAt k = some n := by
  rw [nameAt_mergeAll, arrives, h]

section Lookups

variable {m} {t : Table Row}

theorem ofName_merge_of_ne {e : Entry} {n : String} (h : m.entryName e ≠ n) :
    (m.merge t e).ofName n = t.ofName n := by
  unfold merge
  split
  next r hr =>
    have hname := Table.name_of_ofName hr
    unfold Table.ofName
    rw [Table.first_update fun r' => by rw [name_withKey, m.name_change]]
    cases hfirst : t.first fun r => name r = n with
    | none => rfl
    | some r' =>
      have hname' := Table.name_of_ofName hfirst
      have hkey : key r' ≠ key r := by
        intro hkey
        have hsame := Table.eq_of_key_eq (Table.mem_of_first hfirst) (Table.mem_of_first hr) hkey
        rw [hsame, hname] at hname'
        exact h hname'
      rw [Option.map_some, if_neg hkey]
  next hr =>
    unfold Table.ofName
    rw [Table.first_insert, name_withKey, m.name_create, decide_eq_false h, if_neg Bool.false_ne_true,
      Option.or_none]

theorem ofName_merge_of_some {e : Entry} {r : Row} (hr : t.ofName (m.entryName e) = some r) :
    (m.merge t e).ofName (m.entryName e) = some (withKey (key r) (m.change e r)) := by
  rw [merge_of_some hr]
  unfold Table.ofName at hr ⊢
  rw [Table.first_update fun r' => by rw [name_withKey, m.name_change], hr, Option.map_some,
    if_pos rfl]

theorem ofName_merge_of_none {e : Entry} (hr : t.ofName (m.entryName e) = none) :
    (m.merge t e).ofName (m.entryName e) = some (withKey t.nextKey (m.create e)) := by
  rw [merge_of_none hr]
  unfold Table.ofName at hr ⊢
  rw [Table.first_insert, hr, Option.none_or, name_withKey, m.name_create, decide_eq_true rfl,
    if_pos rfl]

theorem ofName_merge_self (e : Entry) :
    ∃ k, (m.merge t e).ofName (m.entryName e) = some (withKey k
      (match t.ofName (m.entryName e) with
        | some r => m.change e r
        | none => m.create e)) := by
  cases hr : t.ofName (m.entryName e) with
  | some r => exact ⟨key r, ofName_merge_of_some hr⟩
  | none => exact ⟨t.nextKey, ofName_merge_of_none hr⟩

theorem ofName_mergeAll_of_notMem {es : List Entry} {n : String}
    (h : n ∉ es.map m.entryName) : (m.mergeAll t es).ofName n = t.ofName n := by
  induction es generalizing t with
  | nil => rfl
  | cons e es ih =>
    rw [List.map_cons, List.mem_cons, not_or] at h
    rw [mergeAll, List.foldl_cons, ← mergeAll, ih h.2, ofName_merge_of_ne (Ne.symm h.1)]

theorem ofName_mergeAll {es : List Entry} (hnodup : (es.map m.entryName).Nodup) {e : Entry}
    (he : e ∈ es) :
    ∃ k, (m.mergeAll t es).ofName (m.entryName e) = some (withKey k
      (match t.ofName (m.entryName e) with
        | some r => m.change e r
        | none => m.create e)) := by
  induction es generalizing t with
  | nil => cases he
  | cons e' es ih =>
    rw [List.map_cons, List.nodup_cons] at hnodup
    rw [mergeAll, List.foldl_cons, ← mergeAll]
    rcases List.mem_cons.mp he with rfl | he
    · rw [ofName_mergeAll_of_notMem hnodup.1]
      exact ofName_merge_self e
    · have hne : m.entryName e' ≠ m.entryName e := by
        intro heq
        exact hnodup.1 (heq ▸ List.mem_map_of_mem he)
      obtain ⟨k, hk⟩ := ih (t := m.merge t e') hnodup.2 he
      rw [ofName_merge_of_ne hne] at hk
      exact ⟨k, hk⟩

end Lookups

section Columns

variable {m} {t : Table Row} {es : List Entry} {e : Entry} {r : Row}

def LastOfName (m : Merge Row Entry) (es : List Entry) (e : Entry) : Prop :=
  ∃ pre post, es = pre ++ e :: post ∧ ∀ e' ∈ post, m.entryName e' ≠ m.entryName e

/-- What an entry gives for a column is what its row has there. -/
structure Carries {β : Type*} (m : Merge Row Entry) (column : Row → β) (given : Entry → β) :
    Prop where
  column_withKey : ∀ k r, column (withKey k r) = column r
  column_change : ∀ e r, column (m.change e r) = given e
  column_create : ∀ e, column (m.create e) = given e

theorem exists_lastOfName {n : String} (h : n ∈ es.map m.entryName) :
    ∃ e, m.LastOfName es e ∧ m.entryName e = n := by
  induction es with
  | nil => cases h
  | cons e es ih =>
    by_cases hlater : n ∈ es.map m.entryName
    · obtain ⟨e', ⟨pre, post, rfl, hpost⟩, hname⟩ := ih hlater
      exact ⟨e', ⟨e :: pre, post, rfl, hpost⟩, hname⟩
    · have hname : n = m.entryName e := (List.mem_cons.mp h).resolve_right hlater
      refine ⟨e, ⟨[], es, rfl, fun e' he' heq => hlater ?_⟩, hname.symm⟩
      rw [hname, ← heq]
      exact List.mem_map_of_mem he'

theorem mergeAll_append (es es' : List Entry) :
    m.mergeAll t (es ++ es') = m.mergeAll (m.mergeAll t es) es' :=
  List.foldl_append

theorem ofName_of_lastOfName {β : Type*} {column : Row → β} {given : Entry → β}
    (hm : m.Carries column given) (h : m.LastOfName es e) :
    ∃ r, (m.mergeAll t es).ofName (m.entryName e) = some r ∧ column r = given e := by
  obtain ⟨pre, post, rfl, hpost⟩ := h
  have hnot : m.entryName e ∉ post.map m.entryName := by
    intro hmem
    obtain ⟨e', he', heq⟩ := List.mem_map.mp hmem
    exact hpost e' he' heq
  have hsplit : m.mergeAll t (pre ++ e :: post) =
      m.mergeAll (m.merge (m.mergeAll t pre) e) post := mergeAll_append pre (e :: post)
  obtain ⟨k, hk⟩ := m.ofName_merge_self (t := m.mergeAll t pre) e
  refine ⟨_, by rw [hsplit, ofName_mergeAll_of_notMem hnot, hk], ?_⟩
  rw [hm.column_withKey]
  split
  next r _ => exact hm.column_change e r
  next => exact hm.column_create e

theorem ofName_or_mem_merge (h : r ∈ m.merge t e) : (m.merge t e).ofName (name r) = some r ∨
    r ∈ t ∧ t.ofName (name r) ≠ some r := by
  have hold : r ∈ t → (t.ofName (name r) = some r → m.entryName e ≠ name r) →
      (m.merge t e).ofName (name r) = some r ∨ r ∈ t ∧ t.ofName (name r) ≠ some r := by
    intro hmem hne
    by_cases hfirst : t.ofName (name r) = some r
    · exact .inl ((ofName_merge_of_ne (hne hfirst)).trans hfirst)
    · exact .inr ⟨hmem, hfirst⟩
  cases hr : t.ofName (m.entryName e) with
  | some r₀ =>
    have hself := ofName_merge_of_some hr
    rw [merge_of_some hr] at h
    obtain ⟨hmem, hkey⟩ | ⟨r₁, hr₁, rfl⟩ := Table.mem_update.mp h
    · refine hold hmem fun hfirst hname => hkey ?_
      rw [← hname, hr, Option.some.injEq] at hfirst
      rw [hfirst]
    · have hsame : r₁ = r₀ :=
        Table.eq_of_key_eq (Table.mem_of_get? hr₁) (Table.mem_of_first hr) (Table.key_of_get? hr₁)
      rw [hsame, name_withKey, m.name_change, Table.name_of_ofName hr]
      exact .inl hself
  | none =>
    have hself := ofName_merge_of_none hr
    rw [merge_of_none hr] at h
    obtain hmem | rfl := Table.mem_insert.mp h
    · refine hold hmem fun hfirst hname => ?_
      rw [← hname, hr] at hfirst
      cases hfirst
    · rw [name_withKey, m.name_create]
      exact .inl hself

theorem ofName_or_mem (h : r ∈ m.mergeAll t es) :
    (m.mergeAll t es).ofName (name r) = some r ∨ r ∈ t ∧ t.ofName (name r) ≠ some r := by
  induction es generalizing t with
  | nil =>
    by_cases hfirst : t.ofName (name r) = some r
    · exact .inl hfirst
    · exact .inr ⟨h, hfirst⟩
  | cons e es ih =>
    obtain hfirst | ⟨hmem, hnot⟩ := ih (t := m.merge t e) h
    · exact .inl hfirst
    · obtain hfirst | hbefore := ofName_or_mem_merge hmem
      · exact absurd hfirst hnot
      · exact .inr hbefore

theorem column_mergeAll {β : Type*} {column : Row → β} {given : Entry → β}
    (hm : m.Carries column given) (h : r ∈ m.mergeAll t es) :
    (∃ r₀ ∈ t, column r₀ = column r) ∨ ∃ e, m.LastOfName es e ∧ given e = column r := by
  obtain hfirst | ⟨hmem, _⟩ := ofName_or_mem h
  · by_cases hname : name r ∈ es.map m.entryName
    · obtain ⟨e, hlast, heq⟩ := exists_lastOfName hname
      obtain ⟨r', hr', hcolumn⟩ := ofName_of_lastOfName (t := t) hm hlast
      rw [heq, hfirst, Option.some.injEq] at hr'
      exact .inr ⟨e, hlast, hr' ▸ hcolumn.symm⟩
    · rw [ofName_mergeAll_of_notMem hname] at hfirst
      exact .inl ⟨r, Table.mem_of_first hfirst, rfl⟩
  · exact .inl ⟨r, hmem, rfl⟩

end Columns

theorem nodup_names_merge {t : Table Row} (h : t.names.Nodup) (e : Entry) :
    (m.merge t e).names.Nodup := by
  unfold merge
  split
  next r hr => rwa [names_update]
  next hr =>
    rw [names_insert, List.nodup_append]
    refine ⟨h, List.nodup_singleton _, ?_⟩
    intro n hn n' hn' heq
    rw [List.mem_singleton.mp hn'] at heq
    exact Table.ofName_eq_none_iff.mp hr (heq ▸ hn)

theorem nodup_names_mergeAll {t : Table Row} (h : t.names.Nodup) (es : List Entry) :
    (m.mergeAll t es).names.Nodup := by
  induction es generalizing t with
  | nil => exact h
  | cons e es ih => exact ih (m.nodup_names_merge h e)

end Merge

/-- An entry that is itself a row, but for its key: what it changes in a row of its name. -/
structure Takeover (Row : Type*) [NamedRow Row] where
  change : Row → Row → Row
  name_change : ∀ e r, name (change e r) = name r

def Takeover.toMerge {Row : Type*} [NamedRow Row] (m : Takeover Row) : Merge Row Row where
  entryName := name
  change := m.change
  create := id
  name_change := m.name_change
  name_create _ := rfl

theorem Takeover.ofName_mergeAll {Row : Type*} [NamedRow Row] (m : Takeover Row)
    (targets : Table Row) {owners : Table Row} (hnodup : owners.names.Nodup) {r : Row}
    (hr : r ∈ owners) :
    ∃ k, (m.toMerge.mergeAll targets (owners.rows.map (withKey 0))).ofName (name r) =
      some (withKey k
        (match targets.ofName (name r) with
          | some r' => m.change (withKey 0 r) r'
          | none => withKey 0 r)) := by
  have hsame : (owners.rows.map (withKey 0)).map m.toMerge.entryName = owners.names := by
    rw [List.map_map]
    exact List.map_congr_left fun r _ => name_withKey 0 r
  have hentry : m.toMerge.entryName (withKey 0 r) = name r := name_withKey 0 r
  rw [← hentry]
  exact Merge.ofName_mergeAll (hsame ▸ hnodup) (List.mem_map_of_mem hr)

/-- A table in which no two rows have the same name. -/
structure UniqueTable (Row : Type*) [NamedRow Row] extends Table Row where
  nodup : toTable.names.Nodup

namespace UniqueTable

variable {Row Entry : Type*} [NamedRow Row]

def mergeAll (t : UniqueTable Row) (m : Merge Row Entry) (es : List Entry) : UniqueTable Row where
  toTable := m.mergeAll t.toTable es
  nodup := m.nodup_names_mergeAll t.nodup es

end UniqueTable

section References

variable {Row Ref : Type*} [NamedRow Row] [NamedRow Ref]

/-- A column with a key of another table: taking an entry over sets it, or leaves it. -/
structure Reference (m : Takeover Row) where
  column : Row → Option ℕ
  written : Bool
  column_withKey : ∀ k r, column (withKey k r) = column r
  column_change : ∀ e r, column (m.change e r) = if written then column e else column r

variable {m : Takeover Row}

/-- The key that stands in the column once the row is taken over into a table. -/
def Reference.standing (c : Reference m) (r : Row) (targets : Table Row) : Option ℕ :=
  match targets.ofName (name r) with
  | some r' => if c.written then c.column r else c.column r'
  | none => c.column r

/-- What a row refers to in one place, the row of its name refers to by name in the other. -/
def Reference.Kept (c : Reference m) (owners owners' : Table Row) (refs refs' : Table Ref) : Prop :=
  ∀ r ∈ owners, ∀ n, (c.column r).bind refs.nameAt = some n →
    ∃ r', owners'.ofName (name r) = some r' ∧ (c.column r').bind refs'.nameAt = some n

/-- What a row refers to arrives under the key that will stand in its column. -/
def Reference.Lands (c : Reference m) (owners targets : Table Row) (refs : Table Ref)
    (arrives : ℕ → Option String) : Prop :=
  ∀ r ∈ owners, ∀ n, (c.column r).bind refs.nameAt = some n →
    (c.standing r targets).bind arrives = some n

theorem Reference.kept_iff (c : Reference m) {owners targets : Table Row}
    {refs refs' : Table Ref} (hnodup : owners.names.Nodup) :
    c.Kept owners (m.toMerge.mergeAll targets (owners.rows.map (withKey 0))) refs refs' ↔
      c.Lands owners targets refs refs'.nameAt := by
  have hrow : ∀ r ∈ owners, ∃ r',
      (m.toMerge.mergeAll targets (owners.rows.map (withKey 0))).ofName (name r) = some r' ∧
        c.column r' = c.standing r targets := by
    intro r hr
    obtain ⟨k, hk⟩ := m.ofName_mergeAll targets hnodup hr
    refine ⟨_, hk, ?_⟩
    rw [c.column_withKey, standing]
    cases targets.ofName (name r) with
    | some r' =>
      dsimp only
      rw [c.column_change, c.column_withKey]
    | none => exact c.column_withKey 0 r
  refine forall_congr' fun r => forall_congr' fun hr => forall_congr' fun n =>
    forall_congr' fun _ => ?_
  obtain ⟨r', hr', hcolumn⟩ := hrow r hr
  rw [← hcolumn]
  constructor
  · rintro ⟨r'', hr'', hrefers⟩
    rwa [Option.some.inj (hr'.symm.trans hr'')]
  · intro hrefers
    exact ⟨r', hr', hrefers⟩

end References

end CaManager.Library
