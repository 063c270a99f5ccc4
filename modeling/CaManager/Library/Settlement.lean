import Mathlib.Data.List.Nodup
import Mathlib.Logic.Function.Basic

/-!
# Rows that are worked on once

Workers act on rows of a table that pass through phases: a row opens, becomes ready, is
claimed by a worker, and settles in a final phase. The book keeps the phase of every row, the
row that each worker has claimed, and the rows that something was issued for. If a worker
claims only ready rows that are not claimed, then nothing is issued twice for a row, and a
settled row stays as it is.
-/

namespace CaManager.Library

/-- The phases of a row. A ready or final row does not open into anything else. -/
structure Phases (σ : Type*) where
  ready : σ
  IsFinal : σ → Prop
  Opens : Option σ → Option σ → Prop
  opens_self : ∀ a, Opens a a
  not_final : ¬IsFinal ready
  of_ready : ∀ {a}, Opens (some ready) a → a = some ready
  of_final : ∀ {final a}, IsFinal final → Opens (some final) a → a = some final

structure Book (κ ι σ : Type*) where
  phase : κ → Option σ
  claims : ι → Option κ
  issued : List κ

namespace Book

variable {κ ι σ : Type*} {P : Phases σ}

def Moves (P : Phases σ) (a b : Option σ) : Prop :=
  P.Opens a b ∨ a = some P.ready ∧ ∃ final, b = some final ∧ P.IsFinal final

theorem Moves.of_final {final : σ} {a : Option σ} (hfinal : P.IsFinal final)
    (h : Moves P (some final) a) : a = some final := by
  rcases h with hopens | ⟨hready, _⟩
  · exact P.of_final hfinal hopens
  · exact absurd (Option.some.inj hready ▸ hfinal) P.not_final

/-- Claims are exclusive and of ready rows; what was issued belongs to a row that is claimed or
settled; nothing was issued twice. -/
structure Sound (P : Phases σ) (b : Book κ ι σ) : Prop where
  alone : ∀ i j k, b.claims i = some k → b.claims j = some k → i = j
  ready : ∀ i k, b.claims i = some k → b.phase k = some P.ready
  closed : ∀ k ∈ b.issued, (∃ i, b.claims i = some k) ∨
    ∃ final, b.phase k = some final ∧ P.IsFinal final
  once : b.issued.Nodup

variable {b b' : Book κ ι σ}

theorem Sound.not_mem_issued (hb : Sound P b) {k : κ} (hready : b.phase k = some P.ready)
    (hfree : ∀ j, b.claims j ≠ some k) : k ∉ b.issued := by
  intro hk
  rcases hb.closed k hk with ⟨j, hj⟩ | ⟨final, hphase, hfinal⟩
  · exact hfree j hj
  · have heq : P.ready = final := Option.some.inj (hready.symm.trans hphase)
    exact P.not_final (heq ▸ hfinal)

theorem Sound.opens {phase : κ → Option σ} (hb : Sound P b)
    (h : ∀ k, P.Opens (b.phase k) (phase k)) : Sound P { b with phase } := by
  refine ⟨hb.alone, ?_, ?_, hb.once⟩
  · intro i k hi
    have hopens := h k
    rw [hb.ready i k hi] at hopens
    exact P.of_ready hopens
  · intro k hk
    rcases hb.closed k hk with hclaim | ⟨final, hphase, hfinal⟩
    · exact .inl hclaim
    · have hopens := h k
      rw [hphase] at hopens
      exact .inr ⟨final, P.of_final hfinal hopens, hfinal⟩

variable [DecidableEq ι]

theorem claims_update {i j : ι} {k k' : κ}
    (h : Function.update b.claims i (some k) j = some k') :
    j = i ∧ k' = k ∨ b.claims j = some k' := by
  by_cases hj : j = i
  · subst hj
    rw [Function.update_self] at h
    exact .inl ⟨rfl, (Option.some.inj h).symm⟩
  · rw [Function.update_of_ne hj] at h
    exact .inr h

theorem Sound.claim {i : ι} {k : κ} {issues : Bool} (hb : Sound P b)
    (hready : b.phase k = some P.ready) (hfree : ∀ j, b.claims j ≠ some k)
    (hi : b.claims i = none) :
    Sound P { b with claims := Function.update b.claims i (some k)
                     issued := b.issued ++ if issues then [k] else [] } := by
  have hfresh := hb.not_mem_issued hready hfree
  refine ⟨?_, ?_, ?_, ?_⟩
  · intro j j' k' hj hj'
    rcases claims_update hj with ⟨hji, hk⟩ | hj <;> rcases claims_update hj' with ⟨hji', hk'⟩ | hj'
    · rw [hji, hji']
    · exact absurd (hk ▸ hj') (hfree j')
    · exact absurd (hk' ▸ hj) (hfree j)
    · exact hb.alone j j' k' hj hj'
  · intro j k' hj
    rcases claims_update hj with ⟨_, hk⟩ | hj
    · rw [hk]
      exact hready
    · exact hb.ready j k' hj
  · intro k' hk'
    rcases List.mem_append.mp hk' with hold | hnew
    · rcases hb.closed k' hold with ⟨j, hj⟩ | hfinal
      · have hji : j ≠ i := by
          intro hji
          rw [hji, hi] at hj
          cases hj
        exact .inl ⟨j, (Function.update_of_ne hji ..).trans hj⟩
      · exact .inr hfinal
    · have hk : k' = k := by
        split_ifs at hnew
        · exact List.mem_singleton.mp hnew
        · cases hnew
      subst hk
      exact .inl ⟨i, Function.update_self ..⟩
  · cases issues with
    | false => simpa using hb.once
    | true =>
      refine List.nodup_append.mpr ⟨hb.once, List.nodup_singleton k, ?_⟩
      intro x hx y hy heq
      rw [List.mem_singleton.mp hy] at heq
      exact hfresh (heq ▸ hx)

variable [DecidableEq κ]

theorem Sound.settle {i : ι} {k : κ} {final : σ} (hb : Sound P b) (hi : b.claims i = some k)
    (hfinal : P.IsFinal final) :
    Sound P { b with claims := Function.update b.claims i none
                     phase := Function.update b.phase k (some final) } := by
  have hclaims : ∀ j k', Function.update b.claims i none j = some k' →
      b.claims j = some k' ∧ k' ≠ k := by
    intro j k' h
    by_cases hj : j = i
    · rw [hj, Function.update_self] at h
      cases h
    · rw [Function.update_of_ne hj] at h
      exact ⟨h, fun hk => hj (hb.alone j i k' h (hk ▸ hi))⟩
  refine ⟨?_, ?_, ?_, hb.once⟩
  · intro j j' k' hj hj'
    exact hb.alone j j' k' (hclaims j k' hj).1 (hclaims j' k' hj').1
  · intro j k' hj
    obtain ⟨hj, hne⟩ := hclaims j k' hj
    exact (Function.update_of_ne hne ..).trans (hb.ready j k' hj)
  · intro k' hk'
    by_cases hk : k' = k
    · subst hk
      exact .inr ⟨final, Function.update_self .., hfinal⟩
    · rcases hb.closed k' hk' with ⟨j, hj⟩ | ⟨final', hphase, hfinal'⟩
      · have hji : j ≠ i := by
          intro hji
          rw [hji, hi] at hj
          exact hk (Option.some.inj hj).symm
        exact .inl ⟨j, (Function.update_of_ne hji ..).trans hj⟩
      · exact .inr ⟨final', (Function.update_of_ne hk ..).trans hphase, hfinal'⟩

/-- Rows open; a worker without a claim claims a ready row that is not claimed, and may issue
something for it; a worker with a claim settles its row. -/
inductive Step (P : Phases σ) (b : Book κ ι σ) : Book κ ι σ → Prop
  | opens (phase : κ → Option σ) (h : ∀ k, P.Opens (b.phase k) (phase k)) :
      Step P b { b with phase }
  | claim (i : ι) (k : κ) (issues : Bool) (hready : b.phase k = some P.ready)
      (hfree : ∀ j, b.claims j ≠ some k) (hi : b.claims i = none) :
      Step P b { b with claims := Function.update b.claims i (some k)
                        issued := b.issued ++ if issues then [k] else [] }
  | settle (i : ι) (k : κ) (final : σ) (hi : b.claims i = some k) (hfinal : P.IsFinal final) :
      Step P b { b with claims := Function.update b.claims i none
                        phase := Function.update b.phase k (some final) }

theorem Sound.step (hb : Sound P b) (h : Step P b b') : Sound P b' := by
  cases h with
  | opens phase hopens => exact hb.opens hopens
  | claim i k issues hready hfree hi => exact hb.claim hready hfree hi
  | settle i k final hi hfinal => exact hb.settle hi hfinal

theorem Sound.moves (hb : Sound P b) (h : Step P b b') (k : κ) :
    Moves P (b.phase k) (b'.phase k) := by
  cases h with
  | opens phase hopens => exact .inl (hopens k)
  | claim => exact .inl (P.opens_self _)
  | settle i k' final hi hfinal =>
    by_cases hk : k = k'
    · subst hk
      exact .inr ⟨hb.ready i k hi, final, Function.update_self .., hfinal⟩
    · refine .inl ?_
      dsimp only
      rw [Function.update_of_ne hk]
      exact P.opens_self _

end Book

end CaManager.Library
