import CaManager.Library.Ancestry

/-!
# Climbing

From an element one climbs to its parent, and on from there. Whoever remembers where he has been
stops at the first element that comes again, and has then met each element once. Whoever counts
his steps stops after so many, or at an element that he looks for.
-/

namespace CaManager.Library

open Relation

section Climbing

variable {α : Type*} (f : α → Option α)

/-- One climbs from the first over these elements, each the parent of the one before, to what comes
next. -/
inductive Climb : Option α → List α → Option α → Prop
  | stay (o : Option α) : Climb o [] o
  | up {a : α} {l : List α} {o : Option α} (h : Climb (f a) l o) : Climb (some a) (a :: l) o

/-- A climb that ends with the last element, or because the next one was met before. -/
structure WholeClimb (seen : List α) (o : Option α) (l : List α) (next : Option α) : Prop where
  climb : Climb f o l next
  nodup : l.Nodup
  new : ∀ a ∈ l, a ∉ seen
  ends : ∀ a ∈ next, a ∈ seen ∨ a ∈ l

def climbUnseen [DecidableEq α] : ℕ → List α → Option α → Option (List α)
  | _, _, none => some []
  | 0, seen, some a => if a ∈ seen then some [] else none
  | n + 1, seen, some a =>
    if a ∈ seen then some [] else (climbUnseen n (a :: seen) (f a)).map (a :: ·)

/-- Climb to the first element with a property, over at most so many that are asked for it. -/
def climbTo (stop : α → Bool) : ℕ → α → Bool × List α
  | 0, a => (false, [a])
  | n + 1, a =>
    if stop a then (true, [a])
    else
      match f a with
      | none => (false, [a])
      | some b => ((climbTo stop n b).1, a :: (climbTo stop n b).2)

/-- A climb over these elements to the first with a property, to the last, or over so many. -/
structure BoundedClimb (stop : α → Bool) (n : ℕ) (o : Option α) (l : List α) (top : α)
    (next : Option α) : Prop where
  climb : Climb f o l next
  last : l.getLast? = some top
  before : ∀ a ∈ l.dropLast, stop a = false
  short : l.length ≤ n + 1
  ends : stop top = true ∧ l.length ≤ n ∨ next = none ∨ l.length = n + 1

variable {f} {n : ℕ} {seen l : List α} {a : α} {next : Option α}

theorem WholeClimb.of_none : WholeClimb f seen none [] none :=
  ⟨.stay none, List.nodup_nil, by simp, by simp⟩

theorem WholeClimb.of_mem (h : a ∈ seen) : WholeClimb f seen (some a) [] (some a) := by
  refine ⟨.stay _, List.nodup_nil, by simp, ?_⟩
  intro b hb
  cases hb
  exact .inl h

theorem WholeClimb.up (h : WholeClimb f (a :: seen) (f a) l next) (hnew : a ∉ seen) :
    WholeClimb f seen (some a) (a :: l) next := by
  have hnotMem : a ∉ l := fun hal => h.new a hal List.mem_cons_self
  refine ⟨.up h.climb, List.nodup_cons.mpr ⟨hnotMem, h.nodup⟩, ?_, ?_⟩
  · intro b hb
    rcases List.mem_cons.mp hb with rfl | hb
    · exact hnew
    · exact fun hbseen => h.new b hb (List.mem_cons_of_mem a hbseen)
  · intro b hb
    rcases h.ends b hb with hbseen | hbl
    · rcases List.mem_cons.mp hbseen with rfl | hbseen
      · exact .inr List.mem_cons_self
      · exact .inl hbseen
    · exact .inr (List.mem_cons_of_mem a hbl)

theorem Climb.reachable {o : Option α} (h : Climb f o l next) {b : α} (hb : f b = o) :
    ∀ a ∈ l, TransGen (fun a b => f a = some b) b a := by
  induction h generalizing b with
  | stay o =>
    intro a ha
    cases ha
  | @up a l o h ih =>
    intro c hc
    rcases List.mem_cons.mp hc with rfl | hc
    · exact .single hb
    · exact .head hb (ih rfl c hc)

theorem Climb.nodup {o : Option α} (h : Climb f o l next) (hf : Acyclic f) : l.Nodup := by
  induction h with
  | stay o => exact List.nodup_nil
  | @up a l o h ih => exact List.nodup_cons.mpr ⟨fun ha => hf a (h.reachable rfl a ha), ih⟩

theorem climbTo_spec (stop : α → Bool) (n : ℕ) (a : α) :
    ∃ top next, BoundedClimb f stop n (some a) (climbTo f stop n a).2 top next ∧
      ((climbTo f stop n a).1 = true ↔ stop top = true ∧ (climbTo f stop n a).2.length ≤ n) := by
  induction n generalizing a with
  | zero =>
    refine ⟨a, f a, ⟨.up (.stay _), rfl, by simp [climbTo], by simp [climbTo], ?_⟩, ?_⟩
    · exact .inr (.inr rfl)
    · simp [climbTo]
  | succ n ih =>
    rw [climbTo]
    by_cases hstop : stop a = true
    · rw [if_pos hstop]
      refine ⟨a, f a, ⟨.up (.stay _), rfl, by simp, by simp, ?_⟩, ?_⟩
      · exact .inl ⟨hstop, by simp⟩
      · simp [hstop]
    · rw [if_neg hstop]
      cases hparent : f a with
      | none =>
        refine ⟨a, none, ⟨.up (hparent ▸ .stay _), rfl, by simp, by simp, .inr (.inl rfl)⟩, ?_⟩
        simp [hstop]
      | some b =>
        obtain ⟨top, next, hclimb, hfound⟩ := ih b
        have hne : (climbTo f stop n b).2 ≠ [] := by
          intro hnil
          have hlast := hclimb.last
          rw [hnil] at hlast
          cases hlast
        refine ⟨top, next, ⟨.up (hparent ▸ hclimb.climb), ?_, ?_, ?_, ?_⟩, ?_⟩
        · rw [List.getLast?_cons_of_ne_nil hne]
          exact hclimb.last
        · intro c hc
          rw [List.dropLast_cons_of_ne_nil hne] at hc
          rcases List.mem_cons.mp hc with rfl | hc
          · simpa using hstop
          · exact hclimb.before c hc
        · have hshort := hclimb.short
          simp only [List.length_cons]
          omega
        · rw [List.length_cons, Nat.add_le_add_iff_right, Nat.add_right_cancel_iff]
          exact hclimb.ends
        · rw [hfound, List.length_cons, Nat.add_le_add_iff_right]

variable [DecidableEq α]

theorem climbUnseen_of_mem (h : a ∈ seen) : climbUnseen f n seen (some a) = some [] := by
  cases n with
  | zero => exact if_pos h
  | succ n => exact if_pos h

theorem climbUnseen_of_notMem (h : a ∉ seen) :
    climbUnseen f (n + 1) seen (some a) = (climbUnseen f n (a :: seen) (f a)).map (a :: ·) :=
  if_neg h

theorem climbUnseen_mono {m : ℕ} {o : Option α} (h : climbUnseen f n seen o = some l)
    (hm : n ≤ m) : climbUnseen f m seen o = some l := by
  induction n generalizing m seen o l with
  | zero =>
    cases o with
    | none => cases m <;> exact h
    | some a =>
      by_cases hmem : a ∈ seen
      · rw [climbUnseen_of_mem hmem] at h ⊢
        exact h
      · have hnone : climbUnseen f 0 seen (some a) = none := if_neg hmem
        rw [hnone] at h
        cases h
  | succ n ih =>
    cases o with
    | none => cases m <;> exact h
    | some a =>
      by_cases hmem : a ∈ seen
      · rw [climbUnseen_of_mem hmem] at h ⊢
        exact h
      · obtain ⟨m, rfl⟩ : ∃ k, m = k + 1 := ⟨m - 1, by omega⟩
        rw [climbUnseen_of_notMem hmem] at h ⊢
        obtain ⟨above, habove, rfl⟩ := Option.map_eq_some_iff.mp h
        rw [ih habove (by omega)]
        rfl

theorem exists_climbUnseen {rows : List α} (hrows : ∀ a b, f a = some b → b ∈ rows)
    {o : Option α} (ho : ∀ a ∈ o, a ∈ rows) (hnodup : seen.Nodup) (hseen : seen ⊆ rows)
    (hn : rows.length ≤ seen.length + n) :
    ∃ l next, climbUnseen f n seen o = some l ∧ WholeClimb f seen o l next := by
  induction n generalizing seen o with
  | zero =>
    cases o with
    | none => exact ⟨[], none, rfl, .of_none⟩
    | some a =>
      have hmem : a ∈ seen := by
        by_contra hnew
        have hlonger : (a :: seen).Nodup := List.nodup_cons.mpr ⟨hnew, hnodup⟩
        have hle := (hlonger.subperm (List.cons_subset.mpr ⟨ho a rfl, hseen⟩)).length_le
        rw [List.length_cons] at hle
        omega
      exact ⟨[], some a, climbUnseen_of_mem hmem, .of_mem hmem⟩
  | succ n ih =>
    cases o with
    | none => exact ⟨[], none, rfl, .of_none⟩
    | some a =>
      by_cases hmem : a ∈ seen
      · exact ⟨[], some a, climbUnseen_of_mem hmem, .of_mem hmem⟩
      · have hnodup' : (a :: seen).Nodup := List.nodup_cons.mpr ⟨hmem, hnodup⟩
        have hseen' : a :: seen ⊆ rows := List.cons_subset.mpr ⟨ho a rfl, hseen⟩
        have hn' : rows.length ≤ (a :: seen).length + n := by
          rw [List.length_cons]
          omega
        obtain ⟨l, next, hl, hclimb⟩ := ih (hrows a) hnodup' hseen' hn'
        refine ⟨a :: l, next, ?_, hclimb.up hmem⟩
        rw [climbUnseen_of_notMem hmem, hl]
        rfl

end Climbing

end CaManager.Library
