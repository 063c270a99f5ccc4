import Mathlib.Logic.Basic

/-!
# Secrets in a state

The secrets of a state can be overwritten with anything. States that become the same are alike: they
differ in their secrets only. A view keeps the secrets of a state if it is the same in all states
that are alike.
-/

namespace CaManager.Library

/-- How the secrets of a state are overwritten. The last time counts. -/
structure Overwriting (σ κ : Type*) where
  erase : κ → σ → σ
  erase_erase : ∀ k k' s, erase k (erase k' s) = erase k s

namespace Overwriting

variable {σ κ α : Type*} (o : Overwriting σ κ)

def Alike (s s' : σ) : Prop := ∀ k, o.erase k s = o.erase k s'

def Keeps (view : σ → α) (s : σ) : Prop := ∀ s', o.Alike s s' → view s' = view s

theorem alike_erase (k : κ) (s : σ) : o.Alike s (o.erase k s) := fun k' =>
  (o.erase_erase k' k s).symm

variable {o} {view : σ → α}

theorem Keeps.erase {s : σ} (h : o.Keeps view s) (k : κ) : view (o.erase k s) = view s :=
  h _ (o.alike_erase k s)

/-- A view keeps the secrets exactly of the states in which overwriting them does not show, if it is
known of each state (`S`) whether it shows. -/
theorem keeps_iff [Nonempty κ] {S : σ → Prop} (hshows : ∀ k s, S (o.erase k s) ↔ S s)
    (hsame : ∀ k s, ¬S s → view (o.erase k s) = view s)
    (hother : ∀ s, S s → ∃ k k', view (o.erase k s) ≠ view (o.erase k' s)) (s : σ) :
    o.Keeps view s ↔ ¬S s := by
  constructor
  · intro hkeeps h
    obtain ⟨k, k', hne⟩ := hother s h
    exact hne ((hkeeps.erase k).trans (hkeeps.erase k').symm)
  · intro h s' halike
    obtain ⟨k⟩ := ‹Nonempty κ›
    have h' : ¬S s' := by rwa [← hshows k, ← halike k, hshows]
    rw [← hsame k s' h', ← halike k, hsame k s h]

end Overwriting

end CaManager.Library
