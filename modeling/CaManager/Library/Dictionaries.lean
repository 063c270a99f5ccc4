import Mathlib.Data.List.Basic
import Mathlib.Data.List.Nodup

/-!
# Dictionaries

A dictionary is the list of its entries in the order in which their keys came in. Setting a key
that is there replaces its value in place. A dictionary that is filled from a list of entries has
every one of them exactly if entries with the same key are the same.
-/

namespace CaManager.Library

variable {κ α : Type*} [DecidableEq κ]

def setEntry (k : κ) (v : α) : List (κ × α) → List (κ × α)
  | [] => [(k, v)]
  | (k', v') :: d => if k' = k then (k, v) :: d else (k', v') :: setEntry k v d

def setEntries (d : List (κ × α)) (es : List (κ × α)) : List (κ × α) :=
  es.foldl (fun d e => setEntry e.1 e.2 d) d

section Lookup

variable {k k' : κ} {v : α} {d : List (κ × α)}

@[simp] theorem lookup_setEntry_self : (setEntry k v d).lookup k = some v := by
  induction d with
  | nil => simp [setEntry]
  | cons e d ih =>
    obtain ⟨k', v'⟩ := e
    by_cases hk : k' = k
    · simp [setEntry, hk]
    · have hne : (k == k') = false := by simpa using fun h => hk h.symm
      simp [setEntry, hk, List.lookup_cons, hne, ih]

theorem lookup_setEntry_of_ne (h : k ≠ k') : (setEntry k v d).lookup k' = d.lookup k' := by
  have hne : (k' == k) = false := by simpa using fun heq => h heq.symm
  induction d with
  | nil => simp [setEntry, List.lookup_cons, hne]
  | cons e d ih =>
    obtain ⟨k'', v''⟩ := e
    by_cases hk : k'' = k
    · simp [setEntry, hk, List.lookup_cons, hne]
    · simp only [setEntry, if_neg hk, List.lookup_cons, ih]

theorem keys_setEntry : (setEntry k v d).map Prod.fst =
    if k ∈ d.map Prod.fst then d.map Prod.fst else d.map Prod.fst ++ [k] := by
  induction d with
  | nil => simp [setEntry]
  | cons e d ih =>
    obtain ⟨k', v'⟩ := e
    by_cases hk : k' = k
    · simp [setEntry, hk]
    · have hk' : k ≠ k' := fun h => hk h.symm
      by_cases hmem : k ∈ d.map Prod.fst
      · simp only [setEntry, if_neg hk, List.map_cons, ih, List.mem_cons, hmem, or_true,
          if_true]
      · simp only [setEntry, if_neg hk, List.map_cons, ih, List.mem_cons, hk', hmem,
          or_self, if_false, List.cons_append]

theorem nodup_keys_setEntry (h : (d.map Prod.fst).Nodup) :
    ((setEntry k v d).map Prod.fst).Nodup := by
  rw [keys_setEntry]
  split_ifs with hmem
  · exact h
  · exact List.nodup_append.mpr ⟨h, List.nodup_singleton k, fun a ha b hb => by
      rintro rfl
      exact hmem (List.mem_singleton.mp hb ▸ ha)⟩

theorem mem_of_mem_setEntry {e : κ × α} (h : e ∈ setEntry k v d) : e = (k, v) ∨ e ∈ d := by
  induction d with
  | nil => exact .inl (List.mem_singleton.mp h)
  | cons e' d ih =>
    obtain ⟨k', w⟩ := e'
    unfold setEntry at h
    split_ifs at h with hk
    · exact (List.mem_cons.mp h).imp_right (List.mem_cons_of_mem _)
    · rcases List.mem_cons.mp h with rfl | hd
      · exact .inr List.mem_cons_self
      · exact (ih hd).imp_right (List.mem_cons_of_mem _)

theorem mem_values_setEntry {v' : α} (h : v' ∈ (setEntry k v d).map Prod.snd) :
    v' = v ∨ v' ∈ d.map Prod.snd := by
  obtain ⟨e, he, rfl⟩ := List.mem_map.mp h
  rcases mem_of_mem_setEntry he with rfl | hd
  · exact .inl rfl
  · exact .inr (List.mem_map_of_mem hd)

theorem nodup_values_setEntry (h : (d.map Prod.snd).Nodup) (hv : v ∉ d.map Prod.snd) :
    ((setEntry k v d).map Prod.snd).Nodup := by
  induction d with
  | nil => exact List.nodup_singleton v
  | cons e d ih =>
    obtain ⟨k', w⟩ := e
    rw [List.map_cons, List.nodup_cons] at h
    rw [List.map_cons, List.mem_cons, not_or] at hv
    unfold setEntry
    split_ifs with hk
    · exact List.nodup_cons.mpr ⟨hv.2, h.2⟩
    · refine List.nodup_cons.mpr ⟨fun hw => ?_, ih h.2 hv.2⟩
      rcases mem_values_setEntry hw with rfl | hd
      · exact hv.1 rfl
      · exact h.1 hd

end Lookup

section Filling

variable {d es : List (κ × α)} {k : κ} {v : α}

theorem nodup_keys_setEntries (h : (d.map Prod.fst).Nodup) :
    ((setEntries d es).map Prod.fst).Nodup := by
  induction es generalizing d with
  | nil => exact h
  | cons e es ih => exact ih (nodup_keys_setEntry h)

theorem lookup_setEntries_of_notMem (h : ∀ e ∈ es, e.1 ≠ k) :
    (setEntries d es).lookup k = d.lookup k := by
  induction es generalizing d with
  | nil => rfl
  | cons e es ih =>
    have hrest : ∀ e' ∈ es, e'.1 ≠ k := fun e' he' => h e' (List.mem_cons_of_mem e he')
    exact (ih hrest).trans (lookup_setEntry_of_ne (h e List.mem_cons_self))

theorem exists_of_lookup_setEntries (h : ∃ e ∈ es, e.1 = k) :
    ∃ e ∈ es, e.1 = k ∧ (setEntries d es).lookup k = some e.2 := by
  induction es generalizing d with
  | nil =>
    obtain ⟨e, he, _⟩ := h
    cases he
  | cons e es ih =>
    by_cases hrest : ∃ e' ∈ es, e'.1 = k
    · obtain ⟨e', he', hk, hlookup⟩ := ih hrest
      exact ⟨e', List.mem_cons_of_mem e he', hk, hlookup⟩
    · have hkey : e.1 = k := by
        obtain ⟨e', he', hk⟩ := h
        rcases List.mem_cons.mp he' with rfl | he'
        · exact hk
        · exact absurd ⟨e', he', hk⟩ hrest
      have hnone : ∀ e' ∈ es, e'.1 ≠ k := fun e' he' hk => hrest ⟨e', he', hk⟩
      refine ⟨e, List.mem_cons_self, hkey, ?_⟩
      have hlast := lookup_setEntries_of_notMem (d := setEntry e.1 e.2 d) hnone
      rw [← hkey] at hlast ⊢
      exact hlast.trans lookup_setEntry_self

theorem lookup_setEntries_iff :
    (∀ e ∈ es, (setEntries d es).lookup e.1 = some e.2) ↔
      ∀ e ∈ es, ∀ e' ∈ es, e.1 = e'.1 → e = e' := by
  constructor
  · intro h e he e' he' hkey
    have hvalue := (h e he).symm.trans (hkey ▸ h e' he')
    exact Prod.ext hkey (Option.some.inj hvalue)
  · intro h e he
    obtain ⟨e', he', hkey, hlookup⟩ := exists_of_lookup_setEntries (d := d) ⟨e, he, rfl⟩
    rw [hlookup, h e' he' e he hkey]

theorem mem_of_lookup (h : d.lookup k = some v) : (k, v) ∈ d := by
  induction d with
  | nil => cases h
  | cons e d ih =>
    obtain ⟨k', v'⟩ := e
    by_cases hk : k = k'
    · subst hk
      simp only [List.lookup_cons, beq_self_eq_true, Option.some.injEq] at h
      exact h ▸ List.mem_cons_self
    · have hne : (k == k') = false := by simpa using hk
      simp only [List.lookup_cons, hne] at h
      exact List.mem_cons_of_mem _ (ih h)

theorem lookup_of_mem (hnodup : (d.map Prod.fst).Nodup) (h : (k, v) ∈ d) :
    d.lookup k = some v := by
  induction d with
  | nil => cases h
  | cons e d ih =>
    obtain ⟨k', v'⟩ := e
    rw [List.map_cons, List.nodup_cons] at hnodup
    rcases List.mem_cons.mp h with heq | hd
    · cases heq
      simp
    · have hkey : k ∈ d.map Prod.fst := List.mem_map.mpr ⟨(k, v), hd, rfl⟩
      have hne : (k == k') = false := by
        simpa using fun heq : k = k' => hnodup.1 (heq ▸ hkey)
      simp only [List.lookup_cons, hne]
      exact ih hnodup.2 hd

end Filling

end CaManager.Library
