import Mathlib.Data.List.Basic

/-!
# Batches

An operation on one item at a time gives a report and the next state. A batch visits the items of a
list with an operation of its own, which may also give up: the items that are left are then
reported as failed and not visited. Below is what it takes for a batch to report and to leave the
same as the operation applied to the items in turn.
-/

namespace CaManager.Library

section Batches

variable {σ ι : Type*} (one : σ → ι → Bool × σ) (visit : σ → ι → (Bool × σ) × Bool)

/-- Apply an operation to the items in turn: what is reported of each, and the state after it. -/
def inTurn (s : σ) : List ι → List (Bool × σ)
  | [] => []
  | i :: is => one s i :: inTurn (one s i).2 is

def batch (s : σ) : List ι → List (Bool × σ)
  | [] => []
  | i :: is => (visit s i).1 ::
      if (visit s i).2 then batch (visit s i).1.2 is else is.map fun _ => (false, (visit s i).1.2)

/-- A condition on each item, the state that it meets, and the items after it. -/
def Throughout (C : σ → ι → List ι → Prop) (s : σ) : List ι → Prop
  | [] => True
  | i :: is => C s i is ∧ Throughout C (one s i).2 is

def Clean (s : σ) : List (Bool × σ) → Prop
  | [] => True
  | r :: rs => (r.1 = false → r.2 = s) ∧ Clean r.2 rs

variable {one visit}

theorem Throughout.of_forall {C : σ → ι → List ι → Prop} (h : ∀ s i is, C s i is) (s : σ)
    (is : List ι) : Throughout one C s is := by
  induction is generalizing s with
  | nil => trivial
  | cons i is ih => exact ⟨h s i is, ih _⟩

theorem throughout_congr {C D : σ → ι → List ι → Prop} {I : σ → Prop}
    (hkeep : ∀ s i, I s → I (one s i).2) (h : ∀ s i is, I s → (C s i is ↔ D s i is)) {s : σ}
    (hs : I s) (is : List ι) : Throughout one C s is ↔ Throughout one D s is := by
  induction is generalizing s with
  | nil => exact Iff.rfl
  | cons i is ih => exact and_congr (h s i is hs) (ih (hkeep s i hs))

theorem throughout_and {C D : σ → ι → List ι → Prop} (s : σ) (is : List ι) :
    Throughout one (fun s i is => C s i is ∧ D s i is) s is ↔
      Throughout one C s is ∧ Throughout one D s is := by
  induction is generalizing s with
  | nil => exact (and_self_iff).symm
  | cons i is ih =>
    unfold Throughout
    rw [ih, and_and_and_comm]

theorem failed_eq_inTurn_iff (s : σ) (is : List ι) :
    (is.map fun _ => (false, s)) = inTurn one s is ↔ ∀ i ∈ is, one s i = (false, s) := by
  induction is with
  | nil => simp [inTurn]
  | cons i is ih =>
    rw [List.map_cons, inTurn, List.cons.injEq, List.forall_mem_cons]
    constructor
    · rintro ⟨hi, hrest⟩
      rw [← hi] at hrest
      exact ⟨hi.symm, ih.mp hrest⟩
    · rintro ⟨hi, hrest⟩
      rw [hi]
      exact ⟨rfl, ih.mpr hrest⟩

/-- A batch whose visits are the operation, under an invariant that it keeps, agrees with it exactly
if, where it gives up, nothing would happen to the items that are left. -/
theorem batch_eq_inTurn_iff_of_same {I : σ → Prop} (hkeep : ∀ s i, I s → I (one s i).2)
    (h : ∀ s i, I s → (visit s i).1 = one s i) {s : σ} (hs : I s) (is : List ι) :
    batch visit s is = inTurn one s is ↔
      Throughout one (fun s i is => (visit s i).2 = false →
        ∀ j ∈ is, one (one s i).2 j = (false, (one s i).2)) s is := by
  induction is generalizing s with
  | nil => exact iff_of_true rfl trivial
  | cons i is ih =>
    rw [batch, inTurn, h s i hs, List.cons.injEq, and_iff_right rfl]
    unfold Throughout
    cases hgoes : (visit s i).2 with
    | true =>
      rw [if_pos rfl, ih (hkeep s i hs)]
      exact (and_iff_right nofun).symm
    | false =>
      rw [if_neg Bool.false_ne_true, failed_eq_inTurn_iff]
      refine ⟨fun hrest => ⟨fun _ => hrest, ?_⟩, fun hboth => hboth.1 rfl⟩
      clear ih hgoes
      generalize (one s i).2 = t at hrest
      induction is with
      | nil => trivial
      | cons j js ih =>
        obtain ⟨hj, hjs⟩ := List.forall_mem_cons.mp hrest
        unfold Throughout
        rw [hj]
        exact ⟨fun _ => hjs, ih hjs⟩

theorem batch_eq_inTurn_iff_of_goesOn (h : ∀ s i, (visit s i).2 = true) (s : σ) (is : List ι) :
    batch visit s is = inTurn one s is ↔
      Throughout one (fun s i _ => (visit s i).1 = one s i) s is := by
  induction is generalizing s with
  | nil => exact iff_of_true rfl trivial
  | cons i is ih =>
    rw [batch, inTurn, h, if_pos rfl, List.cons.injEq]
    unfold Throughout
    refine and_congr_right fun hsame => ?_
    rw [hsame, ih]

theorem clean_failed (s : σ) (is : List ι) : Clean s (is.map fun _ => (false, s)) := by
  induction is with
  | nil => trivial
  | cons i is ih => exact ⟨fun _ => rfl, ih⟩

theorem clean_inTurn_iff (s : σ) (is : List ι) :
    Clean s (inTurn one s is) ↔
      Throughout one (fun s i _ => (one s i).1 = false → (one s i).2 = s) s is := by
  induction is generalizing s with
  | nil => exact Iff.rfl
  | cons i is ih => exact and_congr_right fun _ => ih _

/-! ### What a batch leaves -/

def afterBatch (visit : σ → ι → (Bool × σ) × Bool) (s : σ) : List ι → σ
  | [] => s
  | i :: is =>
    if (visit s i).2 then afterBatch visit (visit s i).1.2 is else (visit s i).1.2

def Visited (visit : σ → ι → (Bool × σ) × Bool) (C : σ → ι → Prop) (s : σ) : List ι → Prop
  | [] => True
  | i :: is => C s i ∧ ((visit s i).2 = true → Visited visit C (visit s i).1.2 is)

theorem afterBatch_invariant {I : σ → Prop} (hkeep : ∀ s i, I s → I (visit s i).1.2) {s : σ}
    (hs : I s) (is : List ι) : I (afterBatch visit s is) := by
  induction is generalizing s with
  | nil => exact hs
  | cons i is ih =>
    rw [afterBatch]
    split
    · exact ih (hkeep s i hs)
    · exact hkeep s i hs

/-- A property that no visit restores is left exactly if each visit meets the condition that keeps
it, under an invariant. -/
theorem afterBatch_iff_visited {C : σ → ι → Prop} {I P : σ → Prop}
    (hkeep : ∀ s i, I s → I (visit s i).1.2)
    (hlost : ∀ s i, I s → P (visit s i).1.2 → P s)
    (hstep : ∀ s i, I s → P s → (P (visit s i).1.2 ↔ C s i)) {s : σ} (hI : I s) (hP : P s)
    (is : List ι) : P (afterBatch visit s is) ↔ Visited visit C s is := by
  have hback : ∀ (is : List ι) (s : σ), I s → P (afterBatch visit s is) → P s := by
    intro is
    induction is with
    | nil => exact fun _ _ h => h
    | cons i is ih =>
      intro s hI h
      apply hlost s i hI
      rw [afterBatch] at h
      split at h
      · exact ih _ (hkeep s i hI) h
      · exact h
  induction is generalizing s with
  | nil => exact iff_of_true hP trivial
  | cons i is ih =>
    rw [afterBatch, Visited, ← hstep s i hI hP]
    cases hgoes : (visit s i).2 with
    | true =>
      rw [if_pos rfl, forall_prop_of_true rfl]
      constructor
      · intro h
        have hnext := hback is _ (hkeep s i hI) h
        exact ⟨hnext, (ih (hkeep s i hI) hnext).mp h⟩
      · rintro ⟨hnext, hrest⟩
        exact (ih (hkeep s i hI) hnext).mpr hrest
    | false =>
      rw [if_neg Bool.false_ne_true, forall_prop_of_false Bool.false_ne_true, and_true]

end Batches

end CaManager.Library
