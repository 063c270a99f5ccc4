import Mathlib.Data.List.Nodup
import Mathlib.Data.List.Perm.Basic
import Mathlib.Data.List.Sort

/-!
# Pages of a sorted table

A query sorts the rows of a table and cuts one page out of them. Rows may be equal for the sort
order, and each query may arrange these as it likes. The pages together are the table, whatever the
arrangements are, exactly where no page begins among rows that are equal to the one before.
-/

namespace CaManager.Library

/-- An order to sort rows by, in which different rows may be equal. -/
structure SortOrder (α : Type*) where
  le : α → α → Bool
  trans : ∀ a b c, le a b → le b c → le a c
  total : ∀ a b, le a b || le b a

namespace SortOrder

variable {α κ : Type*}

def onKey [LinearOrder κ] (key : α → κ) : SortOrder α where
  le a b := key a ≤ key b
  trans a b c := by simpa using le_trans
  total a b := by simpa using le_total (key a) (key b)

def reverse (o : SortOrder α) : SortOrder α where
  le a b := o.le b a
  trans a b c h h' := o.trans c b a h' h
  total a b := o.total b a

def thenBy (o o' : SortOrder α) : SortOrder α where
  le a b := o.le a b && (!o.le b a || o'.le a b)
  trans a b c := by
    have h := o.trans a b c
    have hback := o.trans c a b
    have hback' := o.trans b c a
    have h' := o'.trans a b c
    grind
  total a b := by
    have h := o.total a b
    have h' := o'.total a b
    grind

def lt (o : SortOrder α) (a b : α) : Bool := !o.le b a

theorem le_refl (o : SortOrder α) (a : α) : o.le a a = true := by
  simpa using o.total a a

end SortOrder

section Pages

variable {α : Type*}

/-- A list of the rows that a query in this order may give. -/
structure Arranged (o : SortOrder α) (rows answer : List α) : Prop where
  perm : answer.Perm rows
  sorted : answer.Pairwise fun a b => o.le a b

def pageOf (perPage k : ℕ) (answer : List α) : List α := (answer.drop (k * perPage)).take perPage

def pageCount (perPage total : ℕ) : ℕ := (total + perPage - 1) / perPage

def CleanBreaks (o : SortOrder α) (perPage : ℕ) (rows : List α) : Prop :=
  ∀ k, k * perPage < rows.length → ∃ row ∈ rows, rows.countP (o.lt · row) = k * perPage

variable {o : SortOrder α} {rows answer answer' : List α} {perPage k i : ℕ}

theorem lt_pageCount_iff (h : 0 < perPage) {total : ℕ} :
    k < pageCount perPage total ↔ k * perPage < total := by
  rw [pageCount, Nat.lt_iff_add_one_le, Nat.le_div_iff_mul_le h, Nat.add_mul, Nat.one_mul]
  omega

theorem exists_arranged (o : SortOrder α) (rows : List α) : ∃ answer, Arranged o rows answer :=
  ⟨rows.mergeSort o.le, List.mergeSort_perm _ _, List.pairwise_mergeSort o.trans o.total _⟩

theorem Arranged.length_eq (h : Arranged o rows answer) : answer.length = rows.length :=
  h.perm.length_eq

theorem filter_lt_prefix (h : answer.Pairwise fun a b => o.le a b) (row : α) :
    answer.filter (o.lt · row) <+: answer := by
  induction answer with
  | nil => exact List.prefix_refl _
  | cons a answer ih =>
    obtain ⟨hfirst, hrest⟩ := List.pairwise_cons.mp h
    by_cases ha : o.lt a row = true
    · rw [List.filter_cons_of_pos (p := fun r => o.lt r row) ha]
      exact List.cons_prefix_cons.mpr ⟨rfl, ih hrest⟩
    · have hnone : (a :: answer).filter (o.lt · row) = [] := by
        have hle : o.le row a = true := by simpa [SortOrder.lt] using ha
        rw [List.filter_eq_nil_iff]
        intro b hb
        rcases List.mem_cons.mp hb with heq | hb'
        · rw [heq]
          exact ha
        · simpa [SortOrder.lt] using o.trans _ _ _ hle (hfirst b hb')
      rw [hnone]
      exact List.nil_prefix

theorem Arranged.take_perm (h : Arranged o rows answer) {row : α}
    (hcount : rows.countP (o.lt · row) = i) :
    (answer.take i).Perm (rows.filter (o.lt · row)) := by
  have hprefix := filter_lt_prefix h.sorted row
  have hperm := h.perm.filter (o.lt · row)
  have hlen : (answer.filter (o.lt · row)).length = i := by
    rw [hperm.length_eq, ← List.countP_eq_length_filter, hcount]
  have htake : answer.take i = answer.filter (o.lt · row) := by
    rw [← hlen]
    exact (List.prefix_iff_eq_take.mp hprefix).symm
  rw [htake]
  exact hperm

theorem take_perm_take (hbreaks : CleanBreaks o perPage rows) (h : Arranged o rows answer)
    (h' : Arranged o rows answer') (k : ℕ) :
    (answer.take (k * perPage)).Perm (answer'.take (k * perPage)) := by
  by_cases hk : k * perPage < rows.length
  · obtain ⟨row, _, hcount⟩ := hbreaks k hk
    exact (h.take_perm hcount).trans (h'.take_perm hcount).symm
  · rw [List.take_of_length_le (by rw [h.length_eq]; omega),
      List.take_of_length_le (by rw [h'.length_eq]; omega)]
    exact h.perm.trans h'.perm.symm

theorem take_succ_mul (k : ℕ) (answer : List α) :
    answer.take ((k + 1) * perPage) = answer.take (k * perPage) ++ pageOf perPage k answer := by
  rw [Nat.add_mul, Nat.one_mul, List.take_add]
  rfl

theorem pageOf_perm (hbreaks : CleanBreaks o perPage rows) (h : Arranged o rows answer)
    (h' : Arranged o rows answer') (k : ℕ) :
    (pageOf perPage k answer).Perm (pageOf perPage k answer') := by
  have hnext := take_perm_take hbreaks h h' (k + 1)
  have hbefore := take_perm_take hbreaks h h' k
  rw [take_succ_mul, take_succ_mul] at hnext
  exact (List.perm_append_left_iff _).mp ((hbefore.symm.append_right _).trans hnext)

theorem flatMap_pageOf (m : ℕ) (answer : List α) :
    (List.range m).flatMap (pageOf perPage · answer) = answer.take (m * perPage) := by
  induction m with
  | zero => simp
  | succ m ih =>
    rw [List.range_succ, List.flatMap_append, ih, List.flatMap_singleton, take_succ_mul]

theorem length_pageOf_of_lt (h : 0 < perPage) (hk : k + 1 < pageCount perPage answer.length) :
    (pageOf perPage k answer).length = perPage := by
  rw [lt_pageCount_iff h, Nat.add_mul, Nat.one_mul] at hk
  rw [pageOf, List.length_take, List.length_drop]
  omega

theorem mem_pageOf {a : α} {j : ℕ} (ha : answer[j]? = some a) (hj : k * perPage ≤ j)
    (hj' : j < k * perPage + perPage) : a ∈ pageOf perPage k answer := by
  apply List.mem_of_getElem? (i := j - k * perPage)
  rw [pageOf, List.getElem?_take_of_lt (by omega), List.getElem?_drop,
    Nat.add_sub_cancel' hj, ha]

theorem exists_countP_eq_zero (h : 0 < rows.length) :
    ∃ row ∈ rows, rows.countP (o.lt · row) = 0 := by
  obtain ⟨answer, hanswer⟩ := exists_arranged o rows
  match answer, hanswer with
  | [], hanswer => exact absurd hanswer.length_eq (by simpa using h.ne)
  | first :: answer, hanswer =>
    refine ⟨first, hanswer.perm.subset List.mem_cons_self, List.countP_eq_zero.mpr ?_⟩
    intro row hrow
    rcases List.mem_cons.mp (hanswer.perm.mem_iff.mpr hrow) with heq | hmem
    · rw [heq]
      simp [SortOrder.lt, o.le_refl]
    · simpa [SortOrder.lt] using (List.pairwise_cons.mp hanswer.sorted).1 row hmem

theorem countP_lt_of_lt {before after : List α} {a b : α}
    (h : (before ++ a :: b :: after).Pairwise fun a b => o.le a b) (hlt : o.lt a b = true) :
    (before ++ a :: b :: after).countP (o.lt · b) = before.length + 1 := by
  obtain ⟨_, hrest, hacross⟩ := List.pairwise_append.mp h
  obtain ⟨_, hrest'⟩ := List.pairwise_cons.mp hrest
  have hbefore : ∀ row ∈ before, o.lt row b = true := by
    intro row hrow
    have hle := hacross row hrow a List.mem_cons_self
    have htrans := o.trans b row a
    simp only [SortOrder.lt, Bool.not_eq_true'] at hlt ⊢
    grind
  have hafter : ∀ row ∈ b :: after, ¬ o.lt row b = true := by
    intro row hrow
    rcases List.mem_cons.mp hrow with heq | hmem
    · rw [heq]
      simp [SortOrder.lt, o.le_refl]
    · simpa [SortOrder.lt] using (List.pairwise_cons.mp hrest').1 row hmem
  rw [List.countP_append, List.countP_cons_of_pos (p := fun r => o.lt r b) hlt,
    List.countP_eq_length.mpr hbefore, List.countP_eq_zero.mpr hafter]

theorem pairwise_swap {before after : List α} {a b : α}
    (h : (before ++ a :: b :: after).Pairwise fun a b => o.le a b) (hle : o.le b a = true) :
    (before ++ b :: a :: after).Pairwise fun a b => o.le a b := by
  simp only [List.pairwise_append, List.pairwise_cons, List.mem_cons] at h ⊢
  grind

theorem exists_swapped (hi : 0 < i) (hlt : i < rows.length)
    (hnone : ∀ row ∈ rows, rows.countP (o.lt · row) ≠ i) :
    ∃ answer answer' a, Arranged o rows answer ∧ Arranged o rows answer' ∧
      answer[i - 1]? = some a ∧ answer'[i]? = some a := by
  obtain ⟨answer, hanswer⟩ := exists_arranged o rows
  have hlen := hanswer.length_eq
  obtain ⟨before, a, b, after, hsplit, hbefore⟩ :
      ∃ before a b after, answer = before ++ a :: b :: after ∧ before.length = i - 1 := by
    have hi' : i - 1 < answer.length := by omega
    have hlt' : i < answer.length := by omega
    refine ⟨answer.take (i - 1), answer[i - 1], answer[i], answer.drop (i + 1), ?_,
      by rw [List.length_take]; omega⟩
    have hnext : answer.drop i = answer[i] :: answer.drop (i + 1) :=
      List.drop_eq_getElem_cons hlt'
    have hfirst : answer.drop (i - 1) = answer[i - 1] :: answer.drop i := by
      rw [List.drop_eq_getElem_cons hi', Nat.sub_add_cancel hi]
    rw [← hnext, ← hfirst, List.take_append_drop]
  have hsorted := hanswer.sorted
  have hperm := hanswer.perm
  rw [hsplit] at hsorted hperm
  have htie : o.le b a = true := by
    by_contra hne
    have hcount := countP_lt_of_lt hsorted (by simpa [SortOrder.lt] using hne)
    rw [hperm.countP_eq] at hcount
    exact hnone b (hperm.subset (by simp)) (by omega)
  refine ⟨before ++ a :: b :: after, before ++ b :: a :: after, a, ⟨hperm, hsorted⟩,
    ⟨.trans (.append_left _ (.swap _ _ _)) hperm, pairwise_swap hsorted htie⟩, ?_, ?_⟩
  · rw [List.getElem?_append_right (by omega), hbefore, Nat.sub_self]
    rfl
  · rw [List.getElem?_append_right (by omega), show i - before.length = 1 by omega]
    rfl

theorem pages_perm_iff (h : 0 < perPage) (hnodup : rows.Nodup) :
    (∀ answers : ℕ → List α, (∀ k, Arranged o rows (answers k)) →
      ((List.range (pageCount perPage rows.length)).flatMap fun k =>
        pageOf perPage k (answers k)).Perm rows) ↔ CleanBreaks o perPage rows := by
  constructor
  · intro hall k hk
    by_contra hbreak
    have hnone : ∀ row ∈ rows, rows.countP (o.lt · row) ≠ k * perPage := by
      intro row hrow hcount
      exact hbreak ⟨row, hrow, hcount⟩
    have hpos : 0 < k := by
      by_contra hzero
      have hfront : ∃ row ∈ rows, rows.countP (o.lt · row) = 0 := exists_countP_eq_zero (by omega)
      obtain ⟨first, hfirst, hcount⟩ := hfront
      exact hnone first hfirst (by rw [hcount, Nat.eq_zero_of_not_pos hzero, Nat.zero_mul])
    have hi : 0 < k * perPage := Nat.mul_pos hpos h
    obtain ⟨answer, answer', a, hanswer, hanswer', ha, ha'⟩ := exists_swapped hi hk hnone
    have hpages := hall (fun j => if j < k then answer else answer') (by
      intro j
      split
      · exact hanswer
      · exact hanswer')
    have hdistinct := hpages.nodup_iff.mpr hnodup
    have hlast : k < pageCount perPage rows.length := (lt_pageCount_iff h).mpr hk
    have hapart := List.pairwise_iff_getElem.mp (List.nodup_flatMap.mp hdistinct).2 (k - 1) k
      (by rw [List.length_range]; omega) (by rw [List.length_range]; exact hlast) (by omega)
    simp only [Function.onFun, List.getElem_range, lt_irrefl, if_false] at hapart
    rw [if_pos (by omega)] at hapart
    have hbefore : (k - 1) * perPage + perPage = k * perPage := by
      rw [← Nat.succ_mul, Nat.succ_eq_add_one, Nat.sub_add_cancel hpos]
    exact hapart (mem_pageOf ha (by omega) (by omega)) (mem_pageOf ha' le_rfl (by omega))
  · intro hbreaks answers hanswers
    obtain ⟨answer, hanswer⟩ := exists_arranged o rows
    have hall : answer.length ≤ pageCount perPage rows.length * perPage := by
      have hover := (lt_pageCount_iff (k := pageCount perPage rows.length) h).mpr.mt (lt_irrefl _)
      rw [hanswer.length_eq]
      omega
    have hwhole : ((List.range (pageCount perPage rows.length)).flatMap
        (pageOf perPage · answer)).Perm rows := by
      rw [flatMap_pageOf, List.take_of_length_le hall]
      exact hanswer.perm
    refine .trans ?_ hwhole
    apply List.Perm.flatMap_left
    intro k _
    exact pageOf_perm hbreaks (hanswers k) hanswer k

end Pages

end CaManager.Library
