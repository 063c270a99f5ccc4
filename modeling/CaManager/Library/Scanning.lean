import CaManager.Library.Patterns
import Mathlib.Data.List.Nodup

/-!
# All the places of a pattern

A scan goes through a text from left to right. Where the pattern matches, its first way is noted
with the place and what it took, and the scan goes on behind it; elsewhere it goes on with the next
character. The patterns are ones that take at least one character.
-/

namespace CaManager.Library

namespace Pattern

/-- A match of a scan: its place in the text, what it took, and its groups. -/
structure Found where
  start : ℕ
  taken : List Char
  groups : List (List Char)
  deriving Repr, DecidableEq

/-- The matches from a place on. The second number counts the characters of the last match that
are still to be passed over. -/
def findAll (r : Pattern) (start : ℕ) : ℕ → List Char → List Found
  | _, [] => []
  | skip + 1, _ :: cs => findAll r (start + 1) skip cs
  | 0, c :: cs =>
    match (ways r (c :: cs)).head? with
    | none => findAll r (start + 1) 0 cs
    | some w =>
      let length := (c :: cs).length - w.rest.length
      ⟨start, (c :: cs).take length, w.groups⟩ :: findAll r (start + 1) (length - 1) cs

def Found.place (m : Found) : ℕ × List Char := (m.start, m.taken)

section Scan

variable {r s : Pattern} {start : ℕ} {u v cs : List Char}

theorem findAll_skip (r : Pattern) (start : ℕ) (u v : List Char) :
    findAll r start u.length (u ++ v) = findAll r (start + u.length) 0 v := by
  induction u generalizing start with
  | nil => rfl
  | cons c u ih =>
    rw [List.length_cons, List.cons_append, findAll, ih]
    congr 1
    omega

def NoMatch (r : Pattern) (u v : List Char) : Prop :=
  ∀ u', u' <:+ u → u' ≠ [] → ways r (u' ++ v) = []

theorem NoMatch.tail {c : Char} (h : NoMatch r (c :: u) v) : NoMatch r u v :=
  fun u' hsuffix => h u' (hsuffix.trans (List.suffix_cons c u))

theorem findAll_of_noMatch (start : ℕ) (h : NoMatch r u v) :
    findAll r start 0 (u ++ v) = findAll r (start + u.length) 0 v := by
  induction u generalizing start with
  | nil => rfl
  | cons c u ih =>
    have hhere : ways r (c :: (u ++ v)) = [] := h (c :: u) List.suffix_rfl (List.cons_ne_nil c u)
    rw [List.cons_append, findAll, hhere, List.head?_nil]
    dsimp only
    rw [ih (start + 1) h.tail, List.length_cons]
    congr 1
    omega

theorem findAll_of_head? {g : List (List Char)} (hu : u ≠ [])
    (h : (ways r (u ++ v)).head? = some ⟨g, v⟩) :
    findAll r start 0 (u ++ v) = ⟨start, u, g⟩ :: findAll r (start + u.length) 0 v := by
  cases u with
  | nil => exact absurd rfl hu
  | cons c u =>
    have hlength : (c :: (u ++ v)).length - v.length = u.length + 1 := by
      rw [List.length_cons, List.length_append]
      omega
    rw [List.cons_append] at h ⊢
    rw [findAll, h]
    dsimp only
    rw [hlength, Nat.add_sub_cancel, findAll_skip, List.take_succ_cons, List.take_left,
      List.length_cons]
    congr 2
    omega

theorem head?_ways_of_forall (hmatch : ∃ g, Matches r u g)
    (honly : ∀ l g rest, Matches r l g → u ++ v = l ++ rest → rest = v) :
    ∃ g, (ways r (u ++ v)).head? = some ⟨g, v⟩ := by
  obtain ⟨g, hg⟩ := hmatch
  have hmem : (⟨g, v⟩ : Way) ∈ ways r (u ++ v) := mem_ways.mpr ⟨u, rfl, hg⟩
  cases hways : ways r (u ++ v) with
  | nil =>
    rw [hways] at hmem
    cases hmem
  | cons w ws =>
    obtain ⟨l, hl, hm⟩ := mem_ways.mp (hways ▸ List.mem_cons_self : w ∈ ways r (u ++ v))
    refine ⟨w.groups, ?_⟩
    rw [List.head?_cons, ← honly l w.groups w.rest hm hl]

end Scan

section Words

variable {word l : List Char} {g : List (List Char)} {p : Char → Bool}

def exactly (word : List Char) : Pattern := literal (fun c d => c = d) word

theorem matches_exactly_iff : Matches (exactly word) l g ↔ l = word ∧ g = [] := by
  induction word generalizing l g with
  | nil =>
    constructor
    · intro h
      cases h
      exact ⟨rfl, rfl⟩
    · rintro ⟨rfl, rfl⟩
      exact .empty
  | cons c word ih =>
    constructor
    · intro h
      cases h with
      | seq hone hrest =>
        cases hone with
        | one hc =>
          obtain ⟨rfl, rfl⟩ := ih.mp hrest
          rw [of_decide_eq_true hc]
          exact ⟨rfl, rfl⟩
    · rintro ⟨rfl, rfl⟩
      exact .seq (l := [c]) (g := []) (.one (decide_eq_true rfl)) (ih.mpr ⟨rfl, rfl⟩)

theorem matches_seq_iff {r s : Pattern} : Matches (seq r s) l g ↔
    ∃ l₁ l₂ g₁ g₂, l = l₁ ++ l₂ ∧ g = g₁ ++ g₂ ∧ Matches r l₁ g₁ ∧ Matches s l₂ g₂ := by
  constructor
  · intro h
    cases h with
    | seq hr hs => exact ⟨_, _, _, _, rfl, rfl, hr, hs⟩
  · rintro ⟨l₁, l₂, g₁, g₂, rfl, rfl, hr, hs⟩
    exact .seq hr hs

theorem matches_seq_exactly_iff {r : Pattern} :
    Matches (seq (exactly word) r) l g ↔ ∃ l', l = word ++ l' ∧ Matches r l' g := by
  constructor
  · intro h
    cases h with
    | seq hword hrest =>
      obtain ⟨rfl, rfl⟩ := matches_exactly_iff.mp hword
      exact ⟨_, rfl, hrest⟩
  · rintro ⟨l', rfl, hrest⟩
    exact .seq (matches_exactly_iff.mpr ⟨rfl, rfl⟩) hrest

theorem matches_atLeastOne_iff :
    Matches (atLeastOne p) l g ↔ l ≠ [] ∧ (∀ c ∈ l, p c = true) ∧ g = [] := by
  constructor
  · intro h
    cases h with
    | seq hone hmany =>
      cases hone with
      | one hc =>
        cases hmany with
        | many hall => exact ⟨by simp, by simpa [hc] using hall, rfl⟩
  · rintro ⟨hne, hall, rfl⟩
    cases l with
    | nil => exact absurd rfl hne
    | cons c l =>
      have hrest : Matches (many p) l [] := .many fun d hd => hall d (List.mem_cons_of_mem c hd)
      exact .seq (l := [c]) (g := []) (.one (hall c List.mem_cons_self)) hrest

def takes (r : Pattern) (cs : List Char) : Bool := (ways r cs).any fun w => w.rest = []

theorem takes_iff {r : Pattern} {cs : List Char} : takes r cs = true ↔ ∃ g, Matches r cs g := by
  rw [takes, List.any_eq_true]
  constructor
  · rintro ⟨⟨g, rest⟩, hw, hrest⟩
    obtain ⟨l, rfl, hm⟩ := mem_ways.mp hw
    cases of_decide_eq_true hrest
    exact ⟨g, by rwa [List.append_nil]⟩
  · rintro ⟨g, hm⟩
    exact ⟨⟨g, []⟩, mem_ways.mpr ⟨cs, (List.append_nil cs).symm, hm⟩, rfl⟩

end Words

end Pattern

section Places

variable {α : Type*} {l l' : List α} {p q : α → Bool}

theorem perm_filter_append (h : ∀ a ∈ l, p a = true → q a = false) :
    (l.filter p ++ l.filter q).Perm (l.filter fun a => p a || q a) := by
  induction l with
  | nil => exact List.Perm.refl _
  | cons a l ih =>
    have hrest := ih fun b hb => h b (List.mem_cons_of_mem a hb)
    have hhere := h a List.mem_cons_self
    cases hp : p a with
    | true => simpa [List.filter_cons, hp, hhere hp] using hrest
    | false =>
      cases hq : q a with
      | true =>
        simp only [List.filter_cons, hp, hq, Bool.false_or, if_true, Bool.false_eq_true, if_false]
        exact List.perm_middle.trans (hrest.cons a)
      | false => simpa [List.filter_cons, hp, hq] using hrest

theorem mergeSort_eq_of_perm {key : α → ℕ} (hperm : l.Perm l')
    (hsorted : l'.Pairwise fun a b => key a < key b) :
    (l.mergeSort fun a b => key a ≤ key b) = l' := by
  have hmerged : (l.mergeSort fun a b => key a ≤ key b).Pairwise
      fun a b => decide (key a ≤ key b) = true := by
    apply List.pairwise_mergeSort
    · intro a b c hab hbc
      simp only [decide_eq_true_eq] at hab hbc ⊢
      omega
    · intro a b
      simp only [Bool.or_eq_true, decide_eq_true_eq]
      omega
  have hle : l'.Pairwise fun a b => decide (key a ≤ key b) = true :=
    hsorted.imp fun hlt => decide_eq_true (Nat.le_of_lt hlt)
  have hsame := (List.mergeSort_perm l fun a b => key a ≤ key b).trans hperm
  refine List.Perm.eq_of_pairwise (fun a b ha hb hab hba => ?_) hmerged hle hsame
  -- members with the same key are the same
  have heq : key a = key b := by
    simp only [decide_eq_true_eq] at hab hba
    omega
  have hnodup : (l'.map key).Nodup := List.pairwise_map.mpr (hsorted.imp Nat.ne_of_lt)
  exact List.inj_on_of_nodup_map hnodup (hsame.subset ha) hb heq

end Places

end CaManager.Library
