import CaManager.Library.Texts
import Mathlib.Data.List.Nodup

/-!
# Names in dotted labels

A name is made of labels with dots between them. Its parents are what is left when labels are taken
off in front, the longest first. Of rows that each stand for a name and for what is below it, the
longest match of a name is the one that is nearest above it, and a walk over the parents finds it.
-/

namespace CaManager.Library

def DotSuffix (above name : String) : Prop :=
  above = name ∨ ∃ front, name = front ++ "." ++ above

def dotted (labels : List String) : String := ".".intercalate labels

def withParents (labels : List String) : List String :=
  (labels.tails.filter (· ≠ [])).map dotted

section Suffixes

variable {above name label next : String} {labels : List String}

theorem DotSuffix.refl (name : String) : DotSuffix name name := .inl rfl

theorem DotSuffix.length_le (h : DotSuffix above name) : above.length ≤ name.length := by
  rcases h with rfl | ⟨front, rfl⟩
  · exact le_rfl
  · simp only [String.length_append]
    omega

theorem dotSuffix_append (hlabel : '.' ∉ label.toList) :
    DotSuffix above (label ++ "." ++ name) ↔
      above = label ++ "." ++ name ∨ DotSuffix above name := by
  constructor
  · rintro (rfl | ⟨front, hfront⟩)
    · exact .inl rfl
    · right
      have hchars : label.toList ++ '.' :: name.toList = front.toList ++ '.' :: above.toList := by
        simpa using congrArg String.toList hfront
      rcases List.append_eq_append_iff.mp hchars with ⟨rest, hrest, htail⟩ | ⟨rest, hrest, htail⟩
      · -- the label ends in front of the dot
        cases rest with
        | nil =>
          left
          exact String.toList_injective (List.cons.inj htail).2.symm
        | cons c rest =>
          right
          refine ⟨String.ofList rest, String.toList_injective ?_⟩
          have hname := (List.cons.inj htail).2
          simpa using hname
      · cases rest with
        | nil =>
          left
          exact String.toList_injective (List.cons.inj htail).2
        | cons c rest =>
          have hdot : '.' = c := (List.cons.inj htail).1
          exact absurd (by rw [hrest, hdot]; simp) hlabel
  · rintro (rfl | h | ⟨front, rfl⟩)
    · exact .refl _
    · exact .inr ⟨label, by rw [h]⟩
    · exact .inr ⟨label ++ "." ++ front, by simp only [String.append_assoc]⟩

theorem dotSuffix_of_notMem (hname : '.' ∉ name.toList) :
    DotSuffix above name ↔ above = name := by
  constructor
  · rintro (rfl | ⟨front, rfl⟩)
    · rfl
    · exact absurd (by simp) hname
  · rintro rfl
    exact .refl _

@[simp] theorem withParents_nil : withParents [] = [] := rfl

@[simp] theorem withParents_cons :
    withParents (label :: labels) = dotted (label :: labels) :: withParents labels := by
  simp [withParents]

theorem dotted_cons_cons : dotted (label :: next :: labels) =
    label ++ "." ++ dotted (next :: labels) := String.intercalate_cons_cons

@[simp] theorem dotted_singleton : dotted [label] = label := String.intercalate_singleton

theorem dotted_splitText (s : String) : dotted (splitText '.' s) = s := by
  apply String.toList_injective
  rw [dotted, String.toList_intercalate, splitText, List.map_map]
  have hjoin : ['.'].intercalate (s.toList.splitOn '.') = s.toList := List.intercalate_splitOn '.'
  simp [Function.comp_def, hjoin]

theorem mem_withParents (hne : labels ≠ []) (hlabels : ∀ label ∈ labels, '.' ∉ label.toList) :
    above ∈ withParents labels ↔ DotSuffix above (dotted labels) := by
  induction labels with
  | nil => exact absurd rfl hne
  | cons label labels ih =>
    obtain ⟨hlabel, hlabels⟩ := List.forall_mem_cons.mp hlabels
    cases labels with
    | nil =>
      rw [withParents_cons, withParents_nil, List.mem_singleton, dotted_singleton,
        dotSuffix_of_notMem hlabel]
    | cons next labels =>
      rw [withParents_cons, List.mem_cons, ih (List.cons_ne_nil _ _) hlabels, dotted_cons_cons,
        dotSuffix_append hlabel]

theorem pairwise_withParents (hlabels : ∀ label ∈ labels, '.' ∉ label.toList) :
    (withParents labels).Pairwise fun first later => later.length < first.length := by
  induction labels with
  | nil => exact List.Pairwise.nil
  | cons label labels ih =>
    obtain ⟨hlabel, hlabels⟩ := List.forall_mem_cons.mp hlabels
    rw [withParents_cons, List.pairwise_cons]
    refine ⟨?_, ih hlabels⟩
    intro above habove
    cases labels with
    | nil => exact absurd habove List.not_mem_nil
    | cons next labels =>
      have hle := ((mem_withParents (List.cons_ne_nil _ _) hlabels).mp habove).length_le
      rw [dotted_cons_cons]
      simp only [String.length_append]
      have hdot : ".".length = 1 := rfl
      omega

end Suffixes

section LongestMatch

variable {Row : Type*} {domainOf : Row → String} {rows : List Row} {row : Row} {name : String}
  {found : Option Row} {labels : List String}

/-- The row is at or above the name, and no other such row stands for a longer name. -/
structure LongestMatch (domainOf : Row → String) (rows : List Row) (name : String) (row : Row) :
    Prop where
  mem : row ∈ rows
  above : DotSuffix (domainOf row) name
  longest : ∀ row' ∈ rows, DotSuffix (domainOf row') name →
    (domainOf row').length ≤ (domainOf row).length

/-- What is found is the longest match, and nothing is found where no row matches. -/
structure Resolved (domainOf : Row → String) (rows : List Row) (name : String)
    (found : Option Row) : Prop where
  longest : ∀ row, found = some row → LongestMatch domainOf rows name row
  nothing : found = none → ∀ row ∈ rows, ¬ DotSuffix (domainOf row) name

def nearest (domainOf : Row → String) (rows : List Row) (labels : List String) : Option Row :=
  (withParents labels).findSome? fun name => rows.find? fun row => domainOf row = name

theorem resolved_nearest (hne : labels ≠ []) (hlabels : ∀ label ∈ labels, '.' ∉ label.toList) :
    Resolved domainOf rows (dotted labels) (nearest domainOf rows labels) := by
  constructor
  · intro row hfound
    obtain ⟨earlier, name, later, hsplit, hname, hearlier⟩ :=
      List.findSome?_eq_some_iff.mp hfound
    have hdomain : domainOf row = name := by simpa using List.find?_some hname
    have hmem : name ∈ withParents labels := by
      rw [hsplit]
      exact List.mem_append_right _ List.mem_cons_self
    refine ⟨List.mem_of_find?_eq_some hname, ?_, ?_⟩
    · rw [hdomain]
      exact (mem_withParents hne hlabels).mp hmem
    · intro row' hrow' habove
      have hmem' := (mem_withParents hne hlabels).mpr habove
      have hsorted := pairwise_withParents hlabels
      rw [hsplit] at hmem' hsorted
      rw [hdomain]
      rcases List.mem_append.mp hmem' with hin | hin
      · -- no row has a name that was tried before
        have hno := List.find?_eq_none.mp (hearlier _ hin) row' hrow'
        simp at hno
      · rcases List.mem_cons.mp hin with heq | hin
        · exact le_of_eq (congrArg String.length heq)
        · exact ((List.pairwise_cons.mp (List.pairwise_append.mp hsorted).2.1).1 _ hin).le
  · intro hfound row hrow habove
    have hnone := List.findSome?_eq_none_iff.mp hfound _ ((mem_withParents hne hlabels).mpr habove)
    have hno := List.find?_eq_none.mp hnone row hrow
    simp at hno

theorem Resolved.eq_none (h : Resolved domainOf rows name found)
    (hnone : ∀ row ∈ rows, ¬ DotSuffix (domainOf row) name) : found = none := by
  cases found with
  | none => rfl
  | some row => exact absurd (h.longest row rfl).above (hnone row (h.longest row rfl).mem)

theorem Resolved.append_iff {label : String} (hlabel : '.' ∉ label.toList)
    (h : Resolved domainOf rows name found) :
    Resolved domainOf rows (label ++ "." ++ name) found ↔
      ∀ row ∈ rows, domainOf row ≠ label ++ "." ++ name := by
  have hlonger : name.length < (label ++ "." ++ name).length := by
    have hdot : ".".length = 1 := rfl
    simp only [String.length_append]
    omega
  constructor
  · intro hbelow row hrow heq
    have habove : DotSuffix (domainOf row) (label ++ "." ++ name) := .inl heq
    cases found with
    | none => exact hbelow.nothing rfl row hrow habove
    | some found =>
      have hle := (hbelow.longest found rfl).longest row hrow habove
      have hle' := (h.longest found rfl).above.length_le
      rw [heq] at hle
      omega
  · intro hno
    constructor
    · intro found hfound
      have hlongest := h.longest found hfound
      refine ⟨hlongest.mem, (dotSuffix_append hlabel).mpr (.inr hlongest.above), ?_⟩
      intro row hrow habove
      rcases (dotSuffix_append hlabel).mp habove with heq | habove
      · exact absurd heq (hno row hrow)
      · exact hlongest.longest row hrow habove
    · intro hfound row hrow habove
      rcases (dotSuffix_append hlabel).mp habove with heq | habove
      · exact hno row hrow heq
      · exact h.nothing hfound row hrow habove

theorem nearest_of_mem (hunique : (rows.map domainOf).Nodup) (hrow : row ∈ rows)
    (hname : domainOf row = dotted labels) (hne : labels ≠ []) :
    nearest domainOf rows labels = some row := by
  obtain ⟨label, labels, rfl⟩ := List.exists_cons_of_ne_nil hne
  have hfind : (rows.find? fun row => domainOf row = dotted (label :: labels)) = some row := by
    cases hfound : rows.find? fun row => domainOf row = dotted (label :: labels) with
    | none =>
      have hno := List.find?_eq_none.mp hfound row hrow
      exact absurd hname (by simpa using hno)
    | some row' =>
      have hname' : domainOf row' = dotted (label :: labels) := by
        simpa using List.find?_some hfound
      have hmem := List.mem_of_find?_eq_some hfound
      rw [List.inj_on_of_nodup_map hunique hmem hrow (hname'.trans hname.symm)]
  rw [nearest, withParents_cons, List.findSome?_cons, hfind]

theorem map_nearest : (nearest domainOf rows labels).map domainOf =
    (withParents labels).find? fun name => name ∈ rows.map domainOf := by
  unfold nearest
  induction withParents labels with
  | nil => rfl
  | cons name names ih =>
    rw [List.findSome?_cons, List.find?_cons]
    cases hfound : rows.find? fun row => domainOf row = name with
    | none =>
      have hno : name ∉ rows.map domainOf := by
        rintro hmem
        obtain ⟨row, hrow, hname⟩ := List.mem_map.mp hmem
        exact absurd hname (by simpa using List.find?_eq_none.mp hfound row hrow)
      rw [decide_eq_false hno]
      exact ih
    | some row =>
      have hname : domainOf row = name := by simpa using List.find?_some hfound
      have hmem : name ∈ rows.map domainOf :=
        List.mem_map.mpr ⟨row, List.mem_of_find?_eq_some hfound, hname⟩
      rw [decide_eq_true hmem, Option.map_some, hname]

end LongestMatch

end CaManager.Library
