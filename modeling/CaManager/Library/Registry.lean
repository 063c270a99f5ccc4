import Mathlib.Data.List.Basic
import Mathlib.Data.List.Nodup

/-!
# Registries of named rows

A registry holds rows in the order of their insertion. Every row has a name that no other
row of the registry has, as a table with a unique text column keeps it; an insertion that
would break this is refused. Rows are changed in place and keep their names.
-/

namespace CaManager.Library

class Named (Row : Type*) where
  name : Row → String

open Named

structure Registry (Row : Type*) [Named Row] where
  rows : List Row
  unique : (rows.map name).Nodup

namespace Registry

variable {Row : Type*} [Named Row]

instance : Membership Row (Registry Row) := ⟨fun t r => r ∈ t.rows⟩

instance : EmptyCollection (Registry Row) := ⟨⟨[], List.nodup_nil⟩⟩

@[simp] theorem not_mem_empty (r : Row) : r ∉ (∅ : Registry Row) := List.not_mem_nil

theorem mem_def {t : Registry Row} {r : Row} : r ∈ t ↔ r ∈ t.rows := Iff.rfl

def find? (t : Registry Row) (n : String) : Option Row :=
  t.rows.find? fun r => name r = n

def first (t : Registry Row) (p : Row → Bool) : Option Row :=
  t.rows.find? p

def select (t : Registry Row) (p : Row → Bool) : List Row :=
  t.rows.filter p

def insert? (t : Registry Row) (r : Row) : Option (Registry Row) :=
  if h : ∃ r' ∈ t.rows, name r' = name r then none
  else some
    { rows := t.rows ++ [r]
      unique := by
        have hfresh : name r ∉ t.rows.map name := fun hr => h (List.mem_map.mp hr)
        rw [List.map_append, List.nodup_append]
        refine ⟨t.unique, by simp, ?_⟩
        intro n hn m hm
        rw [List.map_singleton, List.mem_singleton] at hm
        exact fun heq => hfresh (hm ▸ heq ▸ hn) }

def modify (t : Registry Row) (n : String) (f : Row → Row) (hf : ∀ r, name (f r) = name r) :
    Registry Row where
  rows := t.rows.map fun r => if name r = n then f r else r
  unique := by
    have hnames : (t.rows.map fun r => if name r = n then f r else r).map name =
        t.rows.map name := by
      rw [List.map_map]
      refine List.map_congr_left fun r _ => ?_
      rw [Function.comp_apply, apply_ite name, hf, ite_self]
    exact hnames ▸ t.unique

def deleteWhere (t : Registry Row) (p : Row → Bool) : Registry Row where
  rows := t.rows.filter fun r => !p r
  unique := t.unique.sublist (List.filter_sublist.map name)

section Lookup

variable {t t' : Registry Row} {n : String} {r r' : Row}

theorem eq_of_name_eq (hr : r ∈ t) (hr' : r' ∈ t) (h : name r = name r') : r = r' :=
  List.inj_on_of_nodup_map t.unique hr hr' h

theorem find?_eq_some_iff : t.find? n = some r ↔ r ∈ t ∧ name r = n := by
  constructor
  · intro h
    exact ⟨List.mem_of_find?_eq_some h, by simpa using List.find?_some h⟩
  · intro ⟨hr, hn⟩
    have hsome : (t.find? n).isSome := List.find?_isSome.mpr ⟨r, hr, by simpa using hn⟩
    obtain ⟨r', hr'⟩ := Option.isSome_iff_exists.mp hsome
    have hmem : r' ∈ t := List.mem_of_find?_eq_some hr'
    have hname : name r' = n := by simpa using List.find?_some hr'
    rw [hr', eq_of_name_eq hmem hr (hname.trans hn.symm)]

theorem find?_eq_none_iff : t.find? n = none ↔ ∀ r ∈ t, name r ≠ n := by
  simp [find?, mem_def]

theorem mem_of_find? (h : t.find? n = some r) : r ∈ t := (find?_eq_some_iff.mp h).1

theorem name_of_find? (h : t.find? n = some r) : name r = n := (find?_eq_some_iff.mp h).2

theorem find?_of_mem (h : r ∈ t) : t.find? (name r) = some r := find?_eq_some_iff.mpr ⟨h, rfl⟩

theorem mem_of_first {p : Row → Bool} (h : t.first p = some r) : r ∈ t :=
  List.mem_of_find?_eq_some h

theorem mem_select {p : Row → Bool} : r ∈ t.select p ↔ r ∈ t ∧ p r = true :=
  List.mem_filter

theorem insert?_eq_some_iff :
    t.insert? r = some t' ↔ t.find? (name r) = none ∧ t'.rows = t.rows ++ [r] := by
  have hnone : t.find? (name r) = none ↔ ¬∃ r' ∈ t.rows, name r' = name r := by
    rw [find?_eq_none_iff]
    exact ⟨fun h ⟨r', hr', hn⟩ => h r' hr' hn, fun h r' hr' hn => h ⟨r', hr', hn⟩⟩
  unfold insert?
  split_ifs with h
  · simp [hnone, h]
  · obtain ⟨rows', unique'⟩ := t'
    rw [hnone, Option.some.injEq, Registry.mk.injEq]
    exact ⟨fun heq => ⟨h, heq.symm⟩, fun heq => heq.2.symm⟩

theorem mem_insert (h : t.insert? r = some t') : r' ∈ t' ↔ r' ∈ t ∨ r' = r := by
  simp [mem_def, (insert?_eq_some_iff.mp h).2]

theorem find?_insert (h : t.insert? r = some t') (m : String) :
    t'.find? m = if m = name r then some r else t.find? m := by
  obtain ⟨hfresh, -⟩ := insert?_eq_some_iff.mp h
  split_ifs with hm
  · exact find?_eq_some_iff.mpr ⟨(mem_insert h).mpr (.inr rfl), hm.symm⟩
  · ext r'
    rw [find?_eq_some_iff, find?_eq_some_iff, mem_insert h]
    constructor
    · intro ⟨hr', hn⟩
      rcases hr' with hr' | rfl
      · exact ⟨hr', hn⟩
      · exact absurd hn.symm hm
    · exact fun ⟨hr', hn⟩ => ⟨.inl hr', hn⟩

theorem find?_insert_self (h : t.insert? r = some t') : t'.find? (name r) = some r :=
  (find?_insert h (name r)).trans (if_pos rfl)

theorem find?_insert_fresh (h : t.insert? r = some t') : t.find? (name r) = none :=
  (insert?_eq_some_iff.mp h).1

theorem find?_insert_of_some (h : t.insert? r = some t') {m : String}
    (hm : t.find? m = some r') : t'.find? m = some r' :=
  find?_eq_some_iff.mpr ⟨(mem_insert h).mpr (.inl (mem_of_find? hm)), name_of_find? hm⟩

theorem mem_deleteWhere {p : Row → Bool} : r ∈ t.deleteWhere p ↔ r ∈ t ∧ p r = false := by
  simp [mem_def, deleteWhere]

theorem mem_modify (f : Row → Row) (hf : ∀ r, name (f r) = name r) :
    r' ∈ t.modify n f hf ↔ ∃ r ∈ t, r' = if name r = n then f r else r := by
  simp [mem_def, modify, eq_comm]

theorem find?_modify (f : Row → Row) (hf : ∀ r, name (f r) = name r) (m : String) :
    (t.modify n f hf).find? m = if m = n then (t.find? m).map f else t.find? m := by
  ext r'
  rw [find?_eq_some_iff, mem_modify]
  by_cases hm : m = n
  · rw [if_pos hm, Option.map_eq_some_iff]
    constructor
    · intro ⟨⟨r, hr, heq⟩, hname⟩
      have hrn : name r = n := by
        by_contra hne
        rw [if_neg hne] at heq
        exact hne (heq ▸ hname.trans hm)
      rw [if_pos hrn] at heq
      exact ⟨r, find?_eq_some_iff.mpr ⟨hr, hrn.trans hm.symm⟩, heq.symm⟩
    · intro ⟨r, hfind, heq⟩
      have hrn : name r = n := (name_of_find? hfind).trans hm
      refine ⟨⟨r, mem_of_find? hfind, by rw [if_pos hrn, heq]⟩, ?_⟩
      rw [← heq, hf, name_of_find? hfind]
  · rw [if_neg hm, find?_eq_some_iff]
    constructor
    · intro ⟨⟨r, hr, heq⟩, hname⟩
      have hrn : name r ≠ n := by
        intro hrn
        rw [if_pos hrn] at heq
        exact hm (hname.symm.trans (heq ▸ (hf r).trans hrn))
      rw [if_neg hrn] at heq
      exact ⟨heq ▸ hr, hname⟩
    · intro ⟨hr, hname⟩
      exact ⟨⟨r', hr, by rw [if_neg fun h => hm (hname.symm.trans h)]⟩, hname⟩

theorem find?_modify_eq (f : Row → Row) (hf : ∀ r, name (f r) = name r) (h : t.find? n = some r)
    (m : String) : (t.modify n f hf).find? m = if m = n then some (f r) else t.find? m := by
  rw [find?_modify]
  split_ifs with hm
  · rw [hm, h, Option.map_some]
  · rfl

theorem find?_modify_of_ne (f : Row → Row) (hf : ∀ r, name (f r) = name r) {m : String}
    (hm : m ≠ n) : (t.modify n f hf).find? m = t.find? m := by
  rw [find?_modify, if_neg hm]

theorem find?_modify_of_some (f : Row → Row) (hf : ∀ r, name (f r) = name r)
    (h : t.find? n = some r) : (t.modify n f hf).find? n = some (f r) := by
  rw [find?_modify, if_pos rfl, h, Option.map_some]

theorem exists_find?_ne_iff {f : Row → Row} {P : String → Prop}
    (h : ∀ m, t'.find? m = if m = n then (t.find? m).map f else t.find? m) :
    (∃ m, t.find? m ≠ t'.find? m ∧ P m) ↔ ∃ r, t.find? n = some r ∧ f r ≠ r ∧ P n := by
  constructor
  · intro ⟨m, hne, hm⟩
    rw [h] at hne
    split_ifs at hne with heq
    · subst heq
      cases hr : t.find? m with
      | none =>
        rw [hr] at hne
        exact absurd rfl hne
      | some r =>
        rw [hr, Option.map_some] at hne
        exact ⟨r, rfl, fun hf => hne (congrArg some hf.symm), hm⟩
    · exact absurd rfl hne
  · intro ⟨r, hr, hne, hn⟩
    refine ⟨n, ?_, hn⟩
    rw [h, if_pos rfl, hr, Option.map_some]
    exact fun heq => hne (Option.some.inj heq).symm

theorem exists_find?_ne_iff_of_some {P : String → Prop} (hr : t.find? n = some r)
    (h : ∀ m, t'.find? m = if m = n then some r' else t.find? m) :
    (∃ m, t.find? m ≠ t'.find? m ∧ P m) ↔ r' ≠ r ∧ P n := by
  have h' : ∀ m, t'.find? m = if m = n then (t.find? m).map fun _ => r' else t.find? m := by
    intro m
    rw [h]
    split_ifs with hm
    · rw [hm, hr, Option.map_some]
    · rfl
  rw [exists_find?_ne_iff h']
  simp [hr]

end Lookup

end Registry

end CaManager.Library
