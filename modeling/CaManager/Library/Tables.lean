import Mathlib.Data.List.Basic
import Mathlib.Data.List.Nodup
import Mathlib.Order.Basic

/-!
# Tables with a numeric primary key

A table is a list of rows in increasing order of their primary key, which the structure
itself records. A new row gets the key after the largest one in use, as a row-id table
gives it. The operations are those of a program that works through an object mapper: look a
row up by key or by its first match, insert, change one row in place, and delete.
-/

namespace CaManager.Library

theorem le_foldr_max {ks : List ℕ} {k : ℕ} (hk : k ∈ ks) : k ≤ ks.foldr max 0 := by
  induction ks with
  | nil => cases hk
  | cons k' ks ih =>
    rcases List.mem_cons.mp hk with rfl | hk
    · exact Nat.le_max_left _ _
    · exact Nat.le_trans (ih hk) (Nat.le_max_right _ _)

/-- A row type with a primary key that the table assigns. -/
class Keyed (Row : Type*) where
  key : Row → ℕ
  withKey : ℕ → Row → Row
  key_withKey : ∀ k r, key (withKey k r) = k
  withKey_key : ∀ r, withKey (key r) r = r

open Keyed

attribute [simp] Keyed.key_withKey Keyed.withKey_key

structure Table (Row : Type*) [Keyed Row] where
  rows : List Row
  sorted : (rows.map key).Pairwise (· < ·)

namespace Table

variable {Row : Type*} [Keyed Row]

instance [DecidableEq Row] : DecidableEq (Table Row) := fun t u =>
  decidable_of_iff (t.rows = u.rows) ⟨fun h => by cases t; cases u; cases h; rfl, fun h => h ▸ rfl⟩

theorem ext_rows {t u : Table Row} (h : t.rows = u.rows) : t = u := by
  cases t; cases u; cases h; rfl

instance : Membership Row (Table Row) := ⟨fun t r => r ∈ t.rows⟩

instance [DecidableEq Row] (r : Row) (t : Table Row) : Decidable (r ∈ t) :=
  inferInstanceAs (Decidable (r ∈ t.rows))

theorem mem_def {t : Table Row} {r : Row} : r ∈ t ↔ r ∈ t.rows := Iff.rfl

def empty : Table Row := ⟨[], List.Pairwise.nil⟩

instance : EmptyCollection (Table Row) := ⟨empty⟩

@[simp] theorem not_mem_empty (r : Row) : r ∉ (∅ : Table Row) := List.not_mem_nil

def get? (t : Table Row) (k : ℕ) : Option Row :=
  t.rows.find? fun r => key r = k

def first (t : Table Row) (p : Row → Bool) : Option Row :=
  t.rows.find? p

def select (t : Table Row) (p : Row → Bool) : List Row :=
  t.rows.filter p

def nextKey (t : Table Row) : ℕ :=
  (t.rows.map key).foldr max 0 + 1

theorem key_lt_nextKey {t : Table Row} {r : Row} (h : r ∈ t) : key r < t.nextKey :=
  Nat.lt_succ_of_le (le_foldr_max (List.mem_map_of_mem h))

def insert (t : Table Row) (r : Row) : Table Row where
  rows := t.rows ++ [withKey t.nextKey r]
  sorted := by
    rw [List.map_append, List.pairwise_append]
    refine ⟨t.sorted, by simp, ?_⟩
    intro k hk k' hk'
    obtain ⟨r', hr', rfl⟩ := List.mem_map.mp hk
    simp only [List.map_cons, List.map_nil, key_withKey, List.mem_singleton] at hk'
    exact hk' ▸ key_lt_nextKey hr'

def update (t : Table Row) (k : ℕ) (f : Row → Row) : Table Row where
  rows := t.rows.map fun r => if key r = k then withKey k (f r) else r
  sorted := by
    have hkeys : (t.rows.map fun r => if key r = k then withKey k (f r) else r).map key =
        t.rows.map key := by
      rw [List.map_map]
      refine List.map_congr_left fun r _ => ?_
      rcases eq_or_ne (key r) k with h | h
      · simp [h]
      · simp [h]
    exact hkeys ▸ t.sorted

def deleteWhere (t : Table Row) (p : Row → Bool) : Table Row where
  rows := t.rows.filter fun r => !p r
  sorted := t.sorted.sublist (List.filter_sublist.map key)

def delete (t : Table Row) (k : ℕ) : Table Row :=
  t.deleteWhere fun r => key r = k

section Lookup

variable {t : Table Row} {k : ℕ} {r r' : Row}

theorem eq_of_key_eq (hr : r ∈ t) (hr' : r' ∈ t) (h : key r = key r') : r = r' := by
  have hnodup : (t.rows.map key).Nodup := t.sorted.imp fun hlt => Nat.ne_of_lt hlt
  exact List.inj_on_of_nodup_map hnodup hr hr' h

theorem get?_eq_some_iff : t.get? k = some r ↔ r ∈ t ∧ key r = k := by
  constructor
  · intro h
    exact ⟨List.mem_of_find?_eq_some h, by simpa using List.find?_some h⟩
  · rintro ⟨hr, hk⟩
    obtain ⟨r', hr'⟩ : ∃ r', t.get? k = some r' := by
      rw [← Option.isSome_iff_exists]
      exact List.find?_isSome.mpr ⟨r, hr, by simpa using hk⟩
    have hmem := List.mem_of_find?_eq_some hr'
    have hkey : key r' = k := by simpa using List.find?_some hr'
    rw [hr', eq_of_key_eq hmem hr (hkey.trans hk.symm)]

theorem get?_eq_none_iff : t.get? k = none ↔ ∀ r ∈ t, key r ≠ k := by
  simp [get?, mem_def]

theorem mem_of_get? (h : t.get? k = some r) : r ∈ t := (get?_eq_some_iff.mp h).1

theorem key_of_get? (h : t.get? k = some r) : key r = k := (get?_eq_some_iff.mp h).2

theorem mem_of_first {p : Row → Bool} (h : t.first p = some r) : r ∈ t :=
  List.mem_of_find?_eq_some h

theorem holds_of_first {p : Row → Bool} (h : t.first p = some r) : p r = true :=
  List.find?_some h

theorem mem_select {p : Row → Bool} : r ∈ t.select p ↔ r ∈ t ∧ p r = true :=
  List.mem_filter

theorem mem_insert : r' ∈ t.insert r ↔ r' ∈ t ∨ r' = withKey t.nextKey r := by
  simp [mem_def, insert]

theorem mem_update {f : Row → Row} :
    r ∈ t.update k f ↔
      (r ∈ t ∧ key r ≠ k) ∨ ∃ r₀, t.get? k = some r₀ ∧ r = withKey k (f r₀) := by
  simp only [mem_def, update, List.mem_map]
  constructor
  · rintro ⟨r₀, hr₀, rfl⟩
    by_cases hk : key r₀ = k
    · exact .inr ⟨r₀, get?_eq_some_iff.mpr ⟨hr₀, hk⟩, by rw [if_pos hk]⟩
    · exact .inl ⟨by rw [if_neg hk]; exact hr₀, by rw [if_neg hk]; exact hk⟩
  · rintro (⟨hr, hk⟩ | ⟨r₀, hr₀, rfl⟩)
    · exact ⟨r, hr, by rw [if_neg hk]⟩
    · exact ⟨r₀, mem_of_get? hr₀, by rw [if_pos (key_of_get? hr₀)]⟩

theorem mem_deleteWhere {p : Row → Bool} : r ∈ t.deleteWhere p ↔ r ∈ t ∧ p r = false := by
  simp [mem_def, deleteWhere]

theorem mem_delete : r ∈ t.delete k ↔ r ∈ t ∧ key r ≠ k := by
  simp [delete, mem_deleteWhere]

end Lookup

section Frames

variable {t : Table Row} {k k' : ℕ} {r r' : Row}

theorem get?_insert_of_get? (h : t.get? k = some r') : (t.insert r).get? k = some r' :=
  get?_eq_some_iff.mpr ⟨mem_insert.mpr (.inl (mem_of_get? h)), key_of_get? h⟩

@[simp] theorem get?_insert_nextKey :
    (t.insert r).get? t.nextKey = some (withKey t.nextKey r) :=
  get?_eq_some_iff.mpr ⟨mem_insert.mpr (.inr rfl), key_withKey _ _⟩

theorem get?_update_self {f : Row → Row} (h : t.get? k = some r) :
    (t.update k f).get? k = some (withKey k (f r)) :=
  get?_eq_some_iff.mpr ⟨mem_update.mpr (.inr ⟨r, h, rfl⟩), key_withKey _ _⟩

theorem get?_update_of_ne {f : Row → Row} (hk : k ≠ k') :
    (t.update k f).get? k' = t.get? k' := by
  ext r'
  rw [get?_eq_some_iff, get?_eq_some_iff, mem_update]
  constructor
  · rintro ⟨⟨hr, _⟩ | ⟨r₀, _, rfl⟩, hkey⟩
    · exact ⟨hr, hkey⟩
    · exact absurd (key_withKey k (f r₀) ▸ hkey) hk
  · rintro ⟨hr, hkey⟩
    exact ⟨.inl ⟨hr, fun h => hk (h ▸ hkey)⟩, hkey⟩

theorem get?_update {f : Row → Row} :
    (t.update k f).get? k' = (t.get? k').map fun r => if key r = k then withKey k (f r) else r := by
  have hkeys : ∀ r, key (if key r = k then withKey k (f r) else r) = key r := by
    intro r
    split_ifs with hk
    · rw [key_withKey, hk]
    · rfl
  unfold get? update
  rw [List.find?_map]
  simp only [Function.comp_def, hkeys]

theorem get?_insert : (t.insert r).get? k =
    if k = t.nextKey then some (withKey t.nextKey r) else t.get? k := by
  split_ifs with hk
  · rw [hk, get?_insert_nextKey]
  · ext r'
    rw [get?_eq_some_iff, get?_eq_some_iff, mem_insert]
    constructor
    · rintro ⟨hr' | rfl, hkey⟩
      · exact ⟨hr', hkey⟩
      · exact absurd ((key_withKey _ _).symm.trans hkey).symm hk
    · exact fun ⟨hr', hkey⟩ => ⟨.inl hr', hkey⟩

theorem get?_delete_of_ne (hk : k ≠ k') : (t.delete k).get? k' = t.get? k' := by
  ext r'
  rw [get?_eq_some_iff, get?_eq_some_iff, mem_delete]
  constructor
  · rintro ⟨⟨hr, _⟩, hkey⟩
    exact ⟨hr, hkey⟩
  · rintro ⟨hr, hkey⟩
    exact ⟨⟨hr, fun h => hk (h ▸ hkey)⟩, hkey⟩

theorem update_of_fixed {f : Row → Row} (hf : ∀ r, f r = r) : t.update k f = t := by
  refine ext_rows ?_
  change t.rows.map _ = t.rows
  conv_rhs => rw [← List.map_id t.rows]
  refine List.map_congr_left fun r _ => ?_
  split_ifs with hk
  · rw [hf, ← hk, withKey_key, id]
  · rfl

theorem first_update {p : Row → Bool} {f : Row → Row} (hp : ∀ r, p (withKey k (f r)) = p r) :
    (t.update k f).first p =
      (t.first p).map fun r => if key r = k then withKey k (f r) else r := by
  have hsame : (p ∘ fun r => if key r = k then withKey k (f r) else r) = p := by
    funext r
    rw [Function.comp_apply, apply_ite p, hp, ite_self]
  unfold first update
  rw [List.find?_map, hsame]

theorem first_insert {p : Row → Bool} :
    (t.insert r).first p =
      (t.first p).or (if p (withKey t.nextKey r) then some (withKey t.nextKey r) else none) := by
  unfold first insert
  rw [List.find?_append, List.find?_singleton]

theorem select_insert {p : Row → Bool} :
    (t.insert r).select p =
      t.select p ++ if p (withKey t.nextKey r) then [withKey t.nextKey r] else [] := by
  unfold select insert
  rw [List.filter_append, List.filter_singleton]
  cases p (withKey t.nextKey r) <;> rfl

theorem map_select_update {α : Type*} {p : Row → Bool} {f : Row → Row} {g : Row → α}
    (hp : ∀ r, p (withKey k (f r)) = p r) (hg : ∀ r, g (withKey k (f r)) = g r) :
    ((t.update k f).select p).map g = (t.select p).map g := by
  have hsame : (p ∘ fun r => if key r = k then withKey k (f r) else r) = p := by
    funext r
    rw [Function.comp_apply, apply_ite p, hp, ite_self]
  unfold select update
  rw [List.filter_map, hsame, List.map_map]
  refine List.map_congr_left fun r _ => ?_
  rw [Function.comp_apply, apply_ite g, hg, ite_self]

theorem exists_of_mem_foldl_update {rs : List Row} {g : Row → Row → Row}
    (hnodup : (rs.map key).Nodup)
    (h : r' ∈ rs.foldl (fun t a => t.update (key a) (g a)) t) :
    ∃ r ∈ t, (key r ∉ rs.map key ∧ r' = r) ∨
      ∃ a ∈ rs, key a = key r ∧ r' = withKey (key r) (g a r) := by
  induction rs generalizing t with
  | nil => exact ⟨r', h, .inl ⟨List.not_mem_nil, rfl⟩⟩
  | cons a rs ih =>
    rw [List.map_cons, List.nodup_cons] at hnodup
    obtain ⟨r₁, hr₁, hcases⟩ := ih hnodup.2 h
    rcases mem_update.mp hr₁ with ⟨hr, hne⟩ | ⟨r, hr, rfl⟩
    · refine ⟨r₁, hr, ?_⟩
      rcases hcases with ⟨hnot, heq⟩ | ⟨b, hb, hkey, heq⟩
      · refine .inl ⟨?_, heq⟩
        rw [List.map_cons, List.mem_cons, not_or]
        exact ⟨hne, hnot⟩
      · exact .inr ⟨b, List.mem_cons_of_mem a hb, hkey, heq⟩
    · have hkey := key_of_get? hr
      refine ⟨r, mem_of_get? hr, .inr ⟨a, List.mem_cons_self, hkey.symm, ?_⟩⟩
      rw [key_withKey] at hcases
      rcases hcases with ⟨-, heq⟩ | ⟨b, hb, hb', -⟩
      · rw [heq, hkey]
      · exact absurd (List.mem_map.mpr ⟨b, hb, hb'⟩) hnodup.1

@[simp] theorem get?_delete_self : (t.delete k).get? k = none :=
  get?_eq_none_iff.mpr fun _ hr => (mem_delete.mp hr).2

end Frames

section Maps

variable {t : Table Row} {k : ℕ} {r : Row} {f : Row → Row}

theorem key_of_commutes (hf : ∀ k r, f (withKey k r) = withKey k (f r)) (r : Row) :
    key (f r) = key r := by
  have h := hf (key r) r
  rw [withKey_key] at h
  rw [h, key_withKey]

def map (t : Table Row) (f : Row → Row) (hf : ∀ k r, f (withKey k r) = withKey k (f r)) :
    Table Row where
  rows := t.rows.map f
  sorted := by
    have hkeys : (t.rows.map f).map key = t.rows.map key := by
      rw [List.map_map]
      exact List.map_congr_left fun r _ => key_of_commutes hf r
    exact hkeys ▸ t.sorted

variable (hf : ∀ k r, f (withKey k r) = withKey k (f r))

theorem mem_map : r ∈ t.map f hf ↔ ∃ r' ∈ t, f r' = r :=
  List.mem_map

theorem first_map {p q : Row → Bool} (hp : ∀ r, p (f r) = q r) :
    (t.map f hf).first p = (t.first q).map f := by
  have hsame : p ∘ f = q := funext hp
  unfold first map
  rw [List.find?_map, hsame]

theorem get?_map : (t.map f hf).get? k = (t.get? k).map f :=
  first_map hf fun r => by rw [key_of_commutes hf]

theorem select_map {p q : Row → Bool} (hp : ∀ r, p (f r) = q r) :
    (t.map f hf).select p = (t.select q).map f := by
  have hsame : p ∘ f = q := funext hp
  unfold select map
  rw [List.filter_map, hsame]

theorem nextKey_map : (t.map f hf).nextKey = t.nextKey := by
  have hkeys : key ∘ f = key := funext (key_of_commutes hf)
  unfold nextKey map
  rw [List.map_map, hkeys]

theorem map_insert : (t.insert r).map f hf = (t.map f hf).insert (f r) := by
  refine ext_rows ?_
  change (t.rows ++ [withKey t.nextKey r]).map f =
    t.rows.map f ++ [withKey (t.map f hf).nextKey (f r)]
  rw [List.map_append, List.map_singleton, hf, nextKey_map hf]

theorem map_update {g g' : Row → Row} (hg : ∀ r, f (g r) = g' (f r)) :
    (t.update k g).map f hf = (t.map f hf).update k g' := by
  refine ext_rows ?_
  change (t.rows.map _).map f = (t.rows.map f).map _
  rw [List.map_map, List.map_map]
  refine List.map_congr_left fun r _ => ?_
  simp only [Function.comp_apply, key_of_commutes hf]
  split_ifs
  · rw [hf, hg]
  · rfl

theorem map_idem (hidem : ∀ r, f (f r) = f r) : (t.map f hf).map f hf = t.map f hf := by
  refine ext_rows ?_
  change (t.rows.map f).map f = t.rows.map f
  rw [List.map_map]
  exact List.map_congr_left fun r _ => hidem r

end Maps

section Loops

variable {t : Table Row} {g : Row → Row → Row}

theorem rows_foldl_update {rows : List Row} (hrows : (rows.map key).Nodup) :
    (rows.foldl (fun u a => u.update (key a) (g a)) t).rows =
      t.rows.map fun r =>
        ((rows.find? fun a => key a = key r).map fun a => withKey (key r) (g a r)).getD r := by
  induction rows generalizing t with
  | nil => simp
  | cons a rows ih =>
    rw [List.map_cons, List.nodup_cons] at hrows
    rw [List.foldl_cons, ih hrows.2]
    change (t.rows.map _).map _ = _
    rw [List.map_map]
    refine List.map_congr_left fun r _ => ?_
    rw [Function.comp_apply]
    by_cases hr : key r = key a
    · -- the rest of the loop leaves the row alone
      have hrest : rows.find? (fun b => key b = key a) = none := by
        rw [List.find?_eq_none]
        intro b hb hkey
        exact hrows.1 (List.mem_map.mpr ⟨b, hb, of_decide_eq_true hkey⟩)
      rw [if_pos hr, key_withKey, hrest, List.find?_cons_of_pos (by simp [hr])]
      simp [hr]
    · rw [if_neg hr, List.find?_cons_of_neg (by simpa using fun h => hr h.symm)]

theorem rows_foldl_update_select {p : Row → Bool} :
    ((t.select p).foldl (fun u a => u.update (key a) (g a)) t).rows =
      t.rows.map fun r => if p r then withKey (key r) (g r r) else r := by
  have hnodup : ((t.select p).map key).Nodup :=
    (t.sorted.imp fun hlt => Nat.ne_of_lt hlt).sublist (List.filter_sublist.map key)
  rw [rows_foldl_update hnodup]
  refine List.map_congr_left fun r hr => ?_
  cases hp : p r with
  | true =>
    have hfound : (t.select p).find? (fun a => key a = key r) = some r := by
      obtain ⟨a, ha⟩ : ∃ a, (t.select p).find? (fun a => key a = key r) = some a := by
        rw [← Option.isSome_iff_exists, List.find?_isSome]
        exact ⟨r, mem_select.mpr ⟨hr, hp⟩, decide_eq_true rfl⟩
      have hmem := (mem_select.mp (List.mem_of_find?_eq_some ha)).1
      have hkey : key a = key r := by simpa using List.find?_some ha
      rw [ha, eq_of_key_eq hmem hr hkey]
    rw [hfound]
    rfl
  | false =>
    have hnone : (t.select p).find? (fun a => key a = key r) = none := by
      rw [List.find?_eq_none]
      intro a ha hkey
      obtain ⟨hmem, hpa⟩ := mem_select.mp ha
      rw [eq_of_key_eq hmem hr (of_decide_eq_true hkey), hp] at hpa
      cases hpa
    rw [hnone]
    rfl

end Loops

end Table

section Picking

variable {α : Type*} {f : Option α → α → Option α} {b : α}

theorem mem_or_eq_of_foldl (hstep : ∀ latest a, f latest a = some a ∨ f latest a = latest)
    (l : List α) (latest : Option α) (h : l.foldl f latest = some b) :
    b ∈ l ∨ latest = some b := by
  induction l generalizing latest with
  | nil => exact .inr h
  | cons a l ih =>
    rcases ih _ h with hl | hlatest
    · exact .inl (List.mem_cons_of_mem a hl)
    · rcases hstep latest a with heq | heq
      · exact .inl (Option.some.inj (heq.symm.trans hlatest) ▸ List.mem_cons_self)
      · exact .inr (heq.symm.trans hlatest)

theorem mem_of_foldl (hnone : ∀ a, f none a = some a)
    (hsome : ∀ l a, f (some l) a = some a ∨ f (some l) a = some l) {l : List α}
    (h : l.foldl f none = some b) : b ∈ l := by
  have hstep : ∀ latest a, f latest a = some a ∨ f latest a = latest
    | none, a => .inl (hnone a)
    | some l, a => hsome l a
  exact (mem_or_eq_of_foldl hstep l none h).resolve_right nofun

end Picking

end CaManager.Library
