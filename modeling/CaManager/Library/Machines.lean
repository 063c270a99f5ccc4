import Mathlib.Data.List.Basic

/-!
# Deterministic machines and their runs

A machine is a step function on states that consumes one event at a time. An event that the
machine refuses leaves the state as it is, so every list of events is a run. `Meets C s es`
says that each event of the run satisfies the condition `C` in the state it arrives in. The
two rules below carry a fact about one step to every run: an invariant, and a reflexive and
transitive relation between the first state and the last.
-/

namespace CaManager.Library

section Machines

variable {σ ε : Type*} (step : σ → ε → σ)

def run (s : σ) (es : List ε) : σ :=
  es.foldl step s

@[simp] theorem run_nil (s : σ) : run step s [] = s := rfl

@[simp] theorem run_cons (s : σ) (e : ε) (es : List ε) :
    run step s (e :: es) = run step (step s e) es := rfl

theorem run_append (s : σ) (es es' : List ε) :
    run step s (es ++ es') = run step (run step s es) es' :=
  List.foldl_append

/-- Every event of the run satisfies the condition in the state it arrives in. -/
def Meets (C : σ → ε → Prop) (s : σ) : List ε → Prop
  | [] => True
  | e :: es => C s e ∧ Meets C (step s e) es

@[simp] theorem meets_nil (C : σ → ε → Prop) (s : σ) : Meets step C s [] ↔ True := Iff.rfl

@[simp] theorem meets_cons (C : σ → ε → Prop) (s : σ) (e : ε) (es : List ε) :
    Meets step C s (e :: es) ↔ C s e ∧ Meets step C (step s e) es := Iff.rfl

theorem meets_append (C : σ → ε → Prop) (s : σ) (es es' : List ε) :
    Meets step C s (es ++ es') ↔ Meets step C s es ∧ Meets step C (run step s es) es' := by
  induction es generalizing s with
  | nil => exact (and_iff_right trivial).symm
  | cons e es ih =>
    rw [List.cons_append, meets_cons, meets_cons, ih, and_assoc]
    rfl

theorem meets_of_forall {C : σ → ε → Prop} (h : ∀ s e, C s e) (s : σ) (es : List ε) :
    Meets step C s es := by
  induction es generalizing s with
  | nil => trivial
  | cons e es ih => exact ⟨h s e, ih (step s e)⟩

theorem Meets.imp {C D : σ → ε → Prop} (h : ∀ s e, C s e → D s e) {s : σ} {es : List ε}
    (hC : Meets step C s es) : Meets step D s es := by
  induction es generalizing s with
  | nil => trivial
  | cons e es ih => exact ⟨h s e hC.1, ih hC.2⟩

instance decidableMeets {C : σ → ε → Prop} [∀ s e, Decidable (C s e)] (s : σ) (es : List ε) :
    Decidable (Meets step C s es) :=
  match es with
  | [] => inferInstanceAs (Decidable True)
  | e :: es =>
    @instDecidableAnd (C s e) (Meets step C (step s e) es) _ (decidableMeets (step s e) es)

variable {step}

theorem run_invariant {C : σ → ε → Prop} {I : σ → Prop}
    (hstep : ∀ s e, I s → C s e → I (step s e)) {s : σ} {es : List ε}
    (hs : I s) (hes : Meets step C s es) : I (run step s es) := by
  induction es generalizing s with
  | nil => exact hs
  | cons e es ih => exact ih (hstep s e hs hes.1) hes.2

theorem Meets.imp_of_invariant {C D : σ → ε → Prop} {I : σ → Prop}
    (hstep : ∀ s e, I s → C s e → I (step s e)) (himp : ∀ s e, I s → C s e → D s e)
    {s : σ} {es : List ε} (hs : I s) (hes : Meets step C s es) : Meets step D s es := by
  induction es generalizing s with
  | nil => trivial
  | cons e es ih => exact ⟨himp s e hs hes.1, ih (hstep s e hs hes.1) hes.2⟩

/-- What each step has exactly if it meets the condition, a run has exactly if its steps meet
it, when such steps keep the invariant. -/
theorem meets_iff_of_invariant {C D : σ → ε → Prop} {I : σ → Prop}
    (hiff : ∀ s e, I s → (D s e ↔ C s e)) (hstep : ∀ s e, I s → C s e → I (step s e)) {s : σ}
    {es : List ε} (hs : I s) : Meets step D s es ↔ Meets step C s es := by
  induction es generalizing s with
  | nil => exact Iff.rfl
  | cons e es ih =>
    rw [meets_cons, meets_cons, hiff s e hs]
    exact and_congr_right fun hC => ih (hstep s e hs hC)

theorem alike_run {R : σ → σ → Prop} {f : ε → ε}
    (h : ∀ s s' e, R s s' → R (step s e) (step s' (f e))) {s s' : σ} (hs : R s s') (es : List ε) :
    R (run step s es) (run step s' (es.map f)) := by
  induction es generalizing s s' with
  | nil => exact hs
  | cons e es ih => exact ih (h s s' e hs)

theorem forall_prefix_iff_meets_next {P : σ → Prop} {s : σ} (es : List ε) :
    (∀ pre, pre <+: es → P (run step s pre)) ↔
      P s ∧ Meets step (fun s e => P (step s e)) s es := by
  induction es generalizing s with
  | nil =>
    rw [meets_nil, and_true]
    constructor
    · exact fun h => h [] List.nil_prefix
    · intro hP pre hpre
      rw [List.prefix_nil.mp hpre]
      exact hP
  | cons e es ih =>
    rw [meets_cons, ← ih]
    constructor
    · intro h
      refine ⟨h [] List.nil_prefix, ?_⟩
      exact fun pre hpre => h (e :: pre) (List.cons_prefix_cons.mpr ⟨rfl, hpre⟩)
    · intro h pre hpre
      cases pre with
      | nil => exact h.1
      | cons e' pre =>
        obtain ⟨rfl, htail⟩ := List.cons_prefix_cons.mp hpre
        exact h.2 pre htail

theorem meets_and {C D : σ → ε → Prop} {s : σ} {es : List ε} :
    Meets step (fun s e => C s e ∧ D s e) s es ↔ Meets step C s es ∧ Meets step D s es := by
  induction es generalizing s with
  | nil => simp
  | cons e es ih =>
    rw [meets_cons, meets_cons, meets_cons, ih]
    exact and_and_and_comm

/-- A property holds in every state of a run exactly if every step meets the condition, when a
step that meets it is what keeps the property, under an invariant that such steps keep. -/
theorem forall_prefix_iff_meets {C : σ → ε → Prop} {P I : σ → Prop}
    (hiff : ∀ s e, I s → P s → (P (step s e) ↔ C s e))
    (hkeep : ∀ s e, I s → P s → C s e → I (step s e)) {s : σ} (es : List ε) (hI : I s)
    (hP : P s) : (∀ pre, pre <+: es → P (run step s pre)) ↔ Meets step C s es := by
  rw [forall_prefix_iff_meets_next, and_iff_right hP]
  have hmeets : ∀ s e, I s ∧ P s → (P (step s e) ↔ C s e) := fun s e h => hiff s e h.1 h.2
  refine meets_iff_of_invariant hmeets ?_ ⟨hI, hP⟩
  exact fun s e h hC => ⟨hkeep s e h.1 h.2 hC, (hmeets s e h).mpr hC⟩

end Machines

end CaManager.Library
