import Mathlib.Data.Int.Basic
import Mathlib.Data.Option.Basic

/-!
# Lockout counters

A counter of failures that locks for a period when the failures reach a limit, and starts
again once the lock has run out. Two counters agree from a time on when nobody who only asks
whether they are locked, and lets expired locks run out, can tell them apart.
-/

namespace CaManager.Library

structure Lockout where
  failures : ℕ := 0
  lockedUntil : Option ℤ := none
  deriving Repr, DecidableEq

namespace Lockout

variable (l m : Lockout) (now : ℤ)

def locked : Bool :=
  match l.lockedUntil with
  | some until' => now < until'
  | none => false

def expire : Lockout :=
  match l.lockedUntil with
  | some until' => if now < until' then l else {}
  | none => l

def fail (limit : ℕ) (period : ℤ) : Lockout :=
  if l.locked now then l
  else
    { failures := (l.expire now).failures + 1
      lockedUntil := if limit ≤ (l.expire now).failures + 1 then some (now + period) else none }

/-- Both are locked for as long, or neither is and both count the same failures. -/
def Agrees : Prop :=
  (l.expire now).lockedUntil = (m.expire now).lockedUntil ∧
    ((l.expire now).lockedUntil = none → (l.expire now).failures = (m.expire now).failures)

section Lemmas

variable {l m now}

theorem locked_iff : l.locked now = true ↔ ∃ until', l.lockedUntil = some until' ∧ now < until' := by
  unfold locked
  cases l.lockedUntil with
  | none => simp
  | some until' => simp

@[simp] theorem expire_of_locked (h : l.locked now = true) : l.expire now = l := by
  obtain ⟨until', huntil, hnow⟩ := locked_iff.mp h
  simp [expire, huntil, hnow]

theorem lockedUntil_expire_eq_none :
    (l.expire now).lockedUntil = none ↔ l.locked now = false := by
  unfold expire locked
  cases huntil : l.lockedUntil with
  | none => simp [huntil]
  | some until' =>
    by_cases hnow : now < until'
    · simp [hnow, huntil]
    · simp [hnow]

theorem expire_of_lockedUntil_eq_none (h : l.lockedUntil = none) : l.expire now = l := by
  simp [expire, h]

theorem expire_expire {later : ℤ} (hle : now ≤ later) :
    (l.expire now).expire later = l.expire later := by
  unfold expire
  cases huntil : l.lockedUntil with
  | none => simp [huntil]
  | some until' =>
    by_cases hnow : now < until'
    · simp [hnow, huntil]
    · have hlater : ¬later < until' := by omega
      simp [hnow, hlater]

theorem Agrees.refl : Agrees l l now := ⟨rfl, fun _ => rfl⟩

theorem agrees_of_expire_eq (h : l.expire now = m.expire now) : Agrees l m now :=
  ⟨congrArg lockedUntil h, fun _ => congrArg failures h⟩

namespace Agrees

theorem locked_eq (h : Agrees l m now) : l.locked now = m.locked now := by
  have hiff : l.locked now = false ↔ m.locked now = false := by
    rw [← lockedUntil_expire_eq_none, ← lockedUntil_expire_eq_none, h.1]
  cases hl : l.locked now with
  | false => exact (hiff.mp hl).symm
  | true =>
    cases hm : m.locked now with
    | false => exact absurd (hiff.mpr hm) (by simp [hl])
    | true => rfl

theorem expire_eq (h : Agrees l m now) (hl : l.locked now = false) :
    l.expire now = m.expire now := by
  have huntil := lockedUntil_expire_eq_none.mpr hl
  have hfailures := h.2 huntil
  have huntil' := h.1
  cases hle : l.expire now with
  | mk failures lockedUntil =>
    cases hme : m.expire now with
    | mk failures' lockedUntil' => simp_all

theorem mono {later : ℤ} (h : Agrees l m now) (hle : now ≤ later) : Agrees l m later := by
  cases hl : l.locked now with
  | false =>
    refine agrees_of_expire_eq ?_
    rw [← expire_expire hle, h.expire_eq hl, expire_expire hle]
  | true =>
    have hm : m.locked now = true := h.locked_eq ▸ hl
    have huntil : l.lockedUntil = m.lockedUntil := by
      have hsame := h.1
      rwa [expire_of_locked hl, expire_of_locked hm] at hsame
    obtain ⟨until', hlu, hnow⟩ := locked_iff.mp hl
    have hmu : m.lockedUntil = some until' := huntil ▸ hlu
    unfold Agrees expire
    rw [hlu, hmu]
    dsimp only
    split_ifs with hlater
    · exact ⟨huntil, fun hnone => absurd (hlu.symm.trans hnone) (Option.some_ne_none _)⟩
    · exact ⟨rfl, fun _ => rfl⟩

theorem expire_left (h : Agrees l m now) : Agrees (l.expire now) m now := by
  unfold Agrees
  rw [expire_expire (Int.le_refl now)]
  exact h

theorem fail (h : Agrees l m now) (limit : ℕ) (period : ℤ) :
    Agrees (l.fail now limit period) (m.fail now limit period) now := by
  cases hl : l.locked now with
  | true =>
    have hm : m.locked now = true := h.locked_eq ▸ hl
    simpa [Lockout.fail, hl, hm] using h
  | false =>
    have hm : m.locked now = false := h.locked_eq ▸ hl
    have hsame := h.expire_eq hl
    refine agrees_of_expire_eq ?_
    simp [Lockout.fail, hl, hm, hsame]

theorem of_locked {failures : ℕ} (h : Agrees l m now) (hl : l.locked now = true) :
    Agrees { l with failures } m now := by
  have hm : m.locked now = true := h.locked_eq ▸ hl
  have hl' : ({ l with failures } : Lockout).locked now = true := hl
  have hsame := h.1
  rw [expire_of_locked hl, expire_of_locked hm] at hsame
  unfold Agrees
  rw [expire_of_locked hl', expire_of_locked hm]
  obtain ⟨until', huntil, -⟩ := locked_iff.mp hl
  exact ⟨hsame, fun hnone => absurd (huntil.symm.trans hnone) (Option.some_ne_none _)⟩

end Agrees

end Lemmas

end Lockout

end CaManager.Library
