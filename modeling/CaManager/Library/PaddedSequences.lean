import Mathlib.Data.List.GetD
import Mathlib.Data.List.Lex
import Mathlib.Data.Prod.Lex
import Mathlib.Order.PiLex

/-!
# Sequences that zeros continue

A list of numbers begins a sequence that goes on with zeros, and sequences are compared at the
first place where they differ. A program that compares the lists instead, each with a mark of its
own behind the last number, compares a mark with a number where one list is longer. This file says
when the two orders agree.
-/

namespace CaManager.Library

/-- Two values are in the same order as two others. -/
structure SameOrder {α β : Type*} [LT α] [LT β] (a b : α) (x y : β) : Prop where
  lt_iff : a < b ↔ x < y
  gt_iff : b < a ↔ y < x

namespace SameOrder

variable {α β : Type*}

theorem symm [LT α] [LT β] {a b : α} {x y : β} (h : SameOrder a b x y) : SameOrder b a y x :=
  ⟨h.gt_iff, h.lt_iff⟩

theorem of_lt [Preorder α] [Preorder β] {a b : α} {x y : β} (h : a < b) (h' : x < y) :
    SameOrder a b x y :=
  ⟨iff_of_true h h', iff_of_false h.asymm h'.asymm⟩

variable [LinearOrder α] [LinearOrder β] {a b : α} {x y : β}

theorem eq_iff (h : SameOrder a b x y) : a = b ↔ x = y := by
  constructor
  · rintro rfl
    exact le_antisymm (not_lt.mp fun hgt => (h.gt_iff.mpr hgt).false)
      (not_lt.mp fun hlt => (h.lt_iff.mpr hlt).false)
  · rintro rfl
    exact le_antisymm (not_lt.mp fun hgt => (h.gt_iff.mp hgt).false)
      (not_lt.mp fun hlt => (h.lt_iff.mp hlt).false)

theorem of_imp (heq : x = y → a = b) (hlt : x < y → a < b) (hgt : y < x → b < a) :
    SameOrder a b x y := by
  rcases lt_trichotomy x y with hxy | hxy | hxy
  · exact of_lt (hlt hxy) hxy
  · rw [heq hxy, hxy]
    exact ⟨iff_of_false (lt_irrefl b) (lt_irrefl y), iff_of_false (lt_irrefl b) (lt_irrefl y)⟩
  · exact (of_lt (hgt hxy) hxy).symm

end SameOrder

section Padding

variable {α : Type*} [Zero α] {l m : List α} {a b : α}

def extended (l : List α) : Lex (ℕ → α) := toLex fun i => l.getD i 0

def padTo (n : ℕ) (l : List α) : List α := l ++ List.replicate (n - l.length) 0

theorem extended_padTo (n : ℕ) (l : List α) : extended (padTo n l) = extended l := by
  apply congrArg toLex
  funext i
  unfold padTo
  by_cases h : i < l.length
  · rw [List.getD_append _ _ _ _ h]
  · rw [List.getD_append_right _ _ _ _ (by omega), List.getD_eq_default l 0 (by omega)]
    by_cases hi : i - l.length < n - l.length
    · exact List.getD_replicate 0 hi
    · exact List.getD_eq_default _ _ (by simpa using hi)

theorem extended_eq_nil_iff : extended l = extended [] ↔ ∀ n ∈ l, n = 0 := by
  constructor
  · intro h n hn
    obtain ⟨i, hi, rfl⟩ := List.mem_iff_getElem.mp hn
    have hat : l.getD i 0 = 0 := congrFun (toLex.injective h) i
    rwa [List.getD_eq_getElem l 0 hi] at hat
  · intro h
    apply congrArg toLex
    funext i
    by_cases hi : i < l.length
    · rw [List.getD_eq_getElem l 0 hi, h _ (List.getElem_mem hi)]
      rfl
    · rw [List.getD_eq_default l 0 (by omega)]
      rfl

theorem extended_cons_inj : extended (a :: l) = extended (a :: m) ↔ extended l = extended m := by
  constructor
  · intro h
    apply congrArg toLex
    funext i
    exact congrFun (toLex.injective h) (i + 1)
  · intro h
    apply congrArg toLex
    funext i
    cases i with
    | zero => rfl
    | succ i => exact congrFun (toLex.injective h) i

variable [LinearOrder α]

theorem extended_cons_lt_cons :
    extended (a :: l) < extended (b :: m) ↔ a < b ∨ a = b ∧ extended l < extended m := by
  constructor
  · rintro ⟨i, hbefore, hat⟩
    cases i with
    | zero => exact .inl hat
    | succ i =>
      refine .inr ⟨hbefore 0 i.succ_pos, i, ?_, hat⟩
      intro j hj
      exact hbefore (j + 1) (by omega)
  · rintro (h | ⟨rfl, i, hbefore, hat⟩)
    · exact ⟨0, fun j hj => absurd hj j.not_lt_zero, h⟩
    · refine ⟨i + 1, ?_, hat⟩
      intro j hj
      cases j with
      | zero => rfl
      | succ j => exact hbefore j (by omega)

theorem extended_nil_lt (hl : ∀ n ∈ l, 0 ≤ n) (h : ¬∀ n ∈ l, n = 0) :
    extended [] < extended l := by
  induction l with
  | nil => exact absurd (fun n hn => absurd hn List.not_mem_nil) h
  | cons a l ih =>
    have hzero : extended ([] : List α) = extended [0] :=
      (extended_eq_nil_iff.mpr (by simp)).symm
    rw [hzero, extended_cons_lt_cons]
    rcases (hl a List.mem_cons_self).lt_or_eq with hpos | rfl
    · exact .inl hpos
    · refine .inr ⟨rfl, ih (fun n hn => hl n (List.mem_cons_of_mem _ hn)) ?_⟩
      intro hall
      exact h (List.forall_mem_cons.mpr ⟨rfl, hall⟩)

end Padding

section Marks

variable {α σ : Type*} [Zero α] [LinearOrder α] [LinearOrder σ] {l m : List α} {a o p : α}
  {s t : σ}

/-- A list is compared rightly with one that goes on after it: where only zeros follow, the marks
have to be the other way round, and else the mark must not exceed the next number. -/
def KeptBefore (o : α) (s t : σ) (rest : List α) : Prop :=
  ((∀ n ∈ rest, n = 0) → t < s) ∧ ((¬∀ n ∈ rest, n = 0) → ∀ c ∈ rest.head?, o ≤ c)

/-- Lists with marks behind them are compared as what the marks stand for. -/
structure MarksKept (l m : List α) (o p : α) (s t : σ) : Prop where
  equal : l = m → SameOrder o p s t
  longer : ∀ rest, rest ≠ [] → m = l ++ rest → KeptBefore o s t rest
  shorter : ∀ rest, rest ≠ [] → l = m ++ rest → KeptBefore p t s rest

theorem MarksKept.symm (h : MarksKept l m o p s t) : MarksKept m l p o t s where
  equal heq := (h.equal heq.symm).symm
  longer := h.shorter
  shorter := h.longer

theorem marksKept_cons_iff : MarksKept (a :: l) (a :: m) o p s t ↔ MarksKept l m o p s t := by
  constructor
  · intro h
    constructor
    case equal => exact fun heq => h.equal (heq ▸ rfl)
    case longer => exact fun rest hne heq => h.longer rest hne (heq ▸ rfl)
    case shorter => exact fun rest hne heq => h.shorter rest hne (heq ▸ rfl)
  · intro h
    constructor
    case equal => exact fun heq => h.equal (List.cons.inj heq).2
    case longer => exact fun rest hne heq => h.longer rest hne (List.cons.inj heq).2
    case shorter => exact fun rest hne heq => h.shorter rest hne (List.cons.inj heq).2

theorem marksKept_nil_iff (hm : m ≠ []) : MarksKept [] m o p s t ↔ KeptBefore o s t m := by
  constructor
  · exact fun h => h.longer m hm rfl
  · intro h
    constructor
    case equal => exact fun heq => absurd heq.symm hm
    case longer =>
      intro rest _ heq
      rw [List.nil_append] at heq
      exact heq ▸ h
    case shorter =>
      intro rest _ heq
      exact absurd (List.append_eq_nil_iff.mp heq.symm).1 hm

theorem pair_lt_pair_iff : toLex (extended l, s) < toLex (extended m, t) ↔
    extended l < extended m ∨ extended l = extended m ∧ s < t :=
  Prod.Lex.toLex_lt_toLex

theorem pair_lt_pair_self_iff : toLex (extended l, s) < toLex (extended l, t) ↔ s < t := by
  have hirrefl : ¬extended l < extended l := lt_irrefl (extended l)
  rw [pair_lt_pair_iff, or_iff_right hirrefl, and_iff_right rfl]

theorem sameOrder_cons_iff {x y : List α} :
    SameOrder (a :: x) (a :: y) (toLex (extended (a :: l), s)) (toLex (extended (a :: m), t)) ↔
      SameOrder x y (toLex (extended l, s)) (toLex (extended m, t)) := by
  have hlist (x y : List α) : a :: x < a :: y ↔ x < y := List.cons_lt_cons_self
  have hpair (l m : List α) (s t : σ) :
      toLex (extended (a :: l), s) < toLex (extended (a :: m), t) ↔
        toLex (extended l, s) < toLex (extended m, t) := by
    rw [pair_lt_pair_iff, pair_lt_pair_iff, extended_cons_lt_cons, extended_cons_inj]
    simp
  constructor
  · rintro ⟨hlt, hgt⟩
    rw [hlist, hpair] at hlt hgt
    exact ⟨hlt, hgt⟩
  · rintro ⟨hlt, hgt⟩
    rw [← hlist, ← hpair] at hlt hgt
    exact ⟨hlt, hgt⟩

theorem sameOrder_singleton_iff :
    SameOrder [o] [p] (toLex (extended l, s)) (toLex (extended l, t)) ↔ SameOrder o p s t := by
  have hlist (o p : α) : [o] < [p] ↔ o < p := by
    simp [List.cons_lt_cons_iff]
  constructor
  · rintro ⟨hlt, hgt⟩
    rw [hlist, pair_lt_pair_self_iff] at hlt hgt
    exact ⟨hlt, hgt⟩
  · rintro ⟨hlt, hgt⟩
    constructor
    case lt_iff => rw [hlist, pair_lt_pair_self_iff, hlt]
    case gt_iff => rw [hlist, pair_lt_pair_self_iff, hgt]

theorem sameOrder_nil_iff (ho : 0 < o) (hm : ∀ n ∈ m, 0 ≤ n) :
    SameOrder [o] (m ++ [p]) (toLex (extended ([] : List α), s)) (toLex (extended m, t)) ↔
      MarksKept [] m o p s t := by
  cases m with
  | nil =>
    rw [List.nil_append, sameOrder_singleton_iff]
    constructor
    · intro h
      constructor
      case equal => exact fun _ => h
      case longer => exact fun rest hne heq => absurd heq.symm hne
      case shorter => exact fun rest hne heq => absurd heq.symm hne
    · exact fun h => h.equal rfl
  | cons c m =>
    rw [marksKept_nil_iff (List.cons_ne_nil c m)]
    by_cases hzero : ∀ n ∈ c :: m, n = 0
    · -- the sequences are the same, and the mark comes after zero
      have hc : c < o := hzero c List.mem_cons_self ▸ ho
      have hlist : c :: m ++ [p] < [o] := List.cons_lt_cons_iff.mpr (.inl hc)
      have hpair : toLex (extended (c :: m), t) < toLex (extended ([] : List α), s) ↔ t < s := by
        rw [extended_eq_nil_iff.mpr hzero, pair_lt_pair_self_iff]
      constructor
      · exact fun h => ⟨fun _ => hpair.mp (h.gt_iff.mp hlist), fun hnot => absurd hzero hnot⟩
      · exact fun h => (SameOrder.of_lt hlist (hpair.mpr (h.1 hzero))).symm
    · have hpair : toLex (extended ([] : List α), s) < toLex (extended (c :: m), t) :=
        pair_lt_pair_iff.mpr (.inl (extended_nil_lt hm hzero))
      have hlist : [o] < c :: m ++ [p] ↔ o ≤ c := by
        have hmarked : [] < m ++ [p] := by cases m <;> exact List.nil_lt_cons _ _
        rw [List.cons_append, List.cons_lt_cons_iff, and_iff_left hmarked, le_iff_lt_or_eq]
      constructor
      · intro h
        refine ⟨fun hall => absurd hall hzero, fun _ d hd => ?_⟩
        rw [← Option.some.inj hd]
        exact hlist.mp (h.lt_iff.mpr hpair)
      · exact fun h => SameOrder.of_lt (hlist.mpr (h.2 hzero c rfl)) hpair

theorem sameOrder_of_lt {b : α} {x y : List α} (h : a < b) :
    SameOrder (a :: x) (b :: y) (toLex (extended (a :: l), s)) (toLex (extended (b :: m), t)) :=
  .of_lt (List.cons_lt_cons_iff.mpr (.inl h))
    (pair_lt_pair_iff.mpr (.inl (extended_cons_lt_cons.mpr (.inl h))))

theorem marksKept_of_ne {b : α} (h : a ≠ b) : MarksKept (a :: l) (b :: m) o p s t where
  equal heq := absurd (List.cons.inj heq).1 h
  longer _ _ heq := absurd (List.cons.inj heq).1.symm h
  shorter _ _ heq := absurd (List.cons.inj heq).1 h

/-- The lists with their marks are in the order of the sequences, and of the marks' meaning among
equal ones, exactly if the marks are kept. -/
theorem sameOrder_append_iff (ho : 0 < o) (hp : 0 < p) (hl : ∀ n ∈ l, 0 ≤ n)
    (hm : ∀ n ∈ m, 0 ≤ n) :
    SameOrder (l ++ [o]) (m ++ [p]) (toLex (extended l, s)) (toLex (extended m, t)) ↔
      MarksKept l m o p s t := by
  induction l generalizing m with
  | nil => exact sameOrder_nil_iff ho hm
  | cons a l ih =>
    cases m with
    | nil =>
      have hnil : SameOrder [p] (a :: l ++ [o]) _ _ ↔ MarksKept [] (a :: l) p o t s :=
        sameOrder_nil_iff hp hl
      exact ⟨fun h => (hnil.mp h.symm).symm, fun h => (hnil.mpr h.symm).symm⟩
    | cons b m =>
      rcases lt_trichotomy a b with hab | rfl | hab
      · exact iff_of_true (sameOrder_of_lt hab) (marksKept_of_ne hab.ne)
      · have hl' : ∀ n ∈ l, 0 ≤ n := (List.forall_mem_cons.mp hl).2
        have hm' : ∀ n ∈ m, 0 ≤ n := (List.forall_mem_cons.mp hm).2
        rw [marksKept_cons_iff, ← ih hl' hm']
        exact sameOrder_cons_iff
      · exact iff_of_true (sameOrder_of_lt hab).symm (marksKept_of_ne hab.ne')

end Marks

end CaManager.Library
