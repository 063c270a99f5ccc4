import Mathlib.Data.List.Nodup
import Mathlib.Data.List.Range

/-!
# Counted permits

A semaphore counts the permits that are free. Numbering the permits in the order in which they
are taken tells them apart: every one of them has been released once or is held once, and what
is free and what is held make up the limit.
-/

namespace CaManager.Library

structure Conserved (limit free taken : ℕ) (released held : List ℕ) : Prop where
  count : free + held.length = limit
  tickets : (released ++ held).Perm (List.range taken)

namespace Conserved

variable {limit free taken ticket : ℕ} {released held held' : List ℕ}

theorem initial : Conserved limit limit 0 [] [] :=
  ⟨rfl, List.Perm.refl _⟩

theorem length_le (h : Conserved limit free taken released held) : held.length ≤ limit := by
  have hcount := h.count
  omega

theorem nodup (h : Conserved limit free taken released held) : (released ++ held).Nodup :=
  h.tickets.nodup_iff.mpr List.nodup_range

theorem held_nodup (h : Conserved limit free taken released held) : held.Nodup :=
  h.nodup.of_append_right

theorem take (h : Conserved limit free taken released held) (hfree : 0 < free) :
    Conserved limit (free - 1) (taken + 1) released (held ++ [taken]) := by
  constructor
  · have hcount := h.count
    rw [List.length_append, List.length_singleton]
    omega
  · rw [← List.append_assoc, List.range_succ]
    exact h.tickets.append_right [taken]

theorem release (h : Conserved limit free taken released held) (hmem : ticket ∈ held) :
    Conserved limit (free + 1) taken (ticket :: released) (held.erase ticket) := by
  constructor
  · have hcount := h.count
    have hpos := List.length_pos_of_mem hmem
    rw [List.length_erase_of_mem hmem]
    omega
  · have hmove : (ticket :: released ++ held.erase ticket).Perm (released ++ held) :=
      List.perm_middle.symm.trans ((List.perm_cons_erase hmem).symm.append_left released)
    exact hmove.trans h.tickets

end Conserved

end CaManager.Library
