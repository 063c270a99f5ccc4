import CaManager.Library.Dictionaries
import CaManager.Library.Texts
import Mathlib.Data.List.Perm.Subperm

/-!
# Replacing texts within texts

Replacing a text means to cut another one at its occurrences and to join the parts with the new
text. A placeholder is a name in braces. Filling the placeholders of a template all at once is
compared with replacing them one after another: one replacement does what it should unless the
placeholder occurs where the template has none, be it in what was filled in before or where that
meets the text around it.
-/

namespace CaManager.Library

section Joining

variable {α : Type*} {sep old new : List α}

theorem intercalate_append {parts parts' : List (List α)} (h : parts ≠ []) (h' : parts' ≠ []) :
    sep.intercalate (parts ++ parts') = sep.intercalate parts ++ sep ++ sep.intercalate parts' := by
  induction parts with
  | nil => exact absurd rfl h
  | cons part parts ih =>
    match parts with
    | [] =>
      rw [List.singleton_append, List.intercalate_cons_of_ne_nil h', List.intercalate_singleton]
    | next :: parts =>
      rw [List.cons_append, List.cons_append, List.intercalate_cons_cons, ← List.cons_append,
        ih (by simp), List.intercalate_cons_cons]
      simp

theorem length_intercalate {parts : List (List α)} (h : parts ≠ []) :
    (sep.intercalate parts).length + sep.length =
      (parts.map List.length).sum + parts.length * sep.length := by
  induction parts with
  | nil => exact absurd rfl h
  | cons part parts ih =>
    match parts with
    | [] => simp
    | next :: parts =>
      have hih := ih (by simp)
      rw [List.intercalate_cons_cons, List.map_cons, List.sum_cons, List.length_cons, Nat.add_mul]
      simp only [List.length_append]
      omega

theorem intercalate_modifyHead (sep l : List α) {parts : List (List α)} (h : parts ≠ []) :
    sep.intercalate (parts.modifyHead (l ++ ·)) = l ++ sep.intercalate parts := by
  match parts with
  | [part] => simp
  | part :: next :: parts => simp [List.intercalate_cons_cons]

theorem intercalate_eq_intercalate_iff (hlen : new.length = old.length) {parts : List (List α)}
    (h : parts ≠ []) :
    new.intercalate parts = old.intercalate parts ↔ new = old ∨ parts.length = 1 := by
  match parts with
  | [part] => simp
  | part :: next :: parts =>
    rw [List.intercalate_cons_cons, List.intercalate_cons_cons, List.append_assoc,
      List.append_assoc, List.append_cancel_left_eq]
    constructor
    · intro heq
      exact .inl (List.append_inj_left heq hlen)
    · intro heither
      rcases heither with heq | hone
      · rw [heq]
      · simp at hone

end Joining

section Cutting

variable {old new cs : List Char}

/-- The parts between the occurrences of a text, found from the left. The number counts the
characters that are still to be passed over. -/
def cutChars (old : List Char) : ℕ → List Char → List (List Char)
  | _, [] => [[]]
  | skip + 1, _ :: cs => cutChars old skip cs
  | 0, c :: cs =>
    if old.isPrefixOf (c :: cs) then [] :: cutChars old (old.length - 1) cs
    else (cutChars old 0 cs).modifyHead ([c] ++ ·)

/-- How often a text occurs in another, counted from the left without overlaps. -/
def countChars (old cs : List Char) : ℕ := (cutChars old 0 cs).length - 1

theorem exists_cutChars (old : List Char) (skip : ℕ) (cs : List Char) :
    ∃ part parts, cutChars old skip cs = part :: parts := by
  induction cs generalizing skip with
  | nil => exact ⟨[], [], by cases skip <;> rfl⟩
  | cons c cs ih =>
    cases skip with
    | succ skip => exact ih skip
    | zero =>
      obtain ⟨part, parts, hparts⟩ := ih 0
      rw [cutChars]
      split
      · exact ⟨_, _, rfl⟩
      · exact ⟨c :: part, parts, by rw [hparts]; rfl⟩

theorem cutChars_ne_nil (skip : ℕ) (cs : List Char) : cutChars old skip cs ≠ [] := by
  obtain ⟨part, parts, hparts⟩ := exists_cutChars old skip cs
  simp [hparts]

theorem length_cutChars : (cutChars old 0 cs).length = countChars old cs + 1 := by
  obtain ⟨part, parts, hparts⟩ := exists_cutChars old 0 cs
  simp [countChars, hparts]

theorem cutChars_drop (skip : ℕ) (cs : List Char) :
    cutChars old skip cs = cutChars old 0 (cs.drop skip) := by
  induction cs generalizing skip with
  | nil => cases skip <;> rfl
  | cons c cs ih =>
    cases skip with
    | zero => rfl
    | succ skip => exact ih skip

theorem replaceChars_eq_intercalate (skip : ℕ) (cs : List Char) :
    replaceChars old new skip cs = new.intercalate (cutChars old skip cs) := by
  induction cs generalizing skip with
  | nil => cases skip <;> rfl
  | cons c cs ih =>
    cases skip with
    | succ skip => exact ih skip
    | zero =>
      obtain ⟨part, parts, hparts⟩ := exists_cutChars old (old.length - 1) cs
      rw [replaceChars, cutChars]
      split
      · rw [ih, hparts, List.intercalate_cons_cons]
        rfl
      · rw [ih, intercalate_modifyHead _ _ (cutChars_ne_nil 0 cs)]
        rfl

theorem cutChars_self_append (h : old ≠ []) (cs : List Char) :
    cutChars old 0 (old ++ cs) = [] :: cutChars old 0 cs := by
  match old, h with
  | c :: old, _ =>
    have hprefix : (c :: old).isPrefixOf (c :: (old ++ cs)) = true := by simp
    rw [List.cons_append, cutChars, if_pos hprefix, cutChars_drop]
    simp

theorem cutChars_cons_of_unmatched {c : Char} (h : ¬ old <+: c :: cs) :
    cutChars old 0 (c :: cs) = (cutChars old 0 cs).modifyHead ([c] ++ ·) := by
  rw [cutChars, if_neg (by simpa using h)]

theorem intercalate_cutChars (h : old ≠ []) (cs : List Char) :
    old.intercalate (cutChars old 0 cs) = cs := by
  induction hn : cs.length using Nat.strong_induction_on generalizing cs with
  | _ n ih =>
    match cs with
    | [] => rfl
    | c :: cs =>
      by_cases hprefix : old <+: c :: cs
      · obtain ⟨rest, hrest⟩ := hprefix
        obtain ⟨part, parts, hparts⟩ := exists_cutChars old 0 rest
        have hlen : rest.length < n := by
          have hpos := List.length_pos_iff.mpr h
          have hsum := congrArg List.length hrest
          rw [List.length_append] at hsum
          omega
        have hih := ih _ hlen rest rfl
        rw [← hrest, cutChars_self_append h, hparts, List.intercalate_cons_cons, ← hparts, hih]
        rfl
      · have hlen : cs.length < n := by
          rw [← hn, List.length_cons]
          omega
        rw [cutChars_cons_of_unmatched hprefix, intercalate_modifyHead _ _ (cutChars_ne_nil 0 cs),
          ih _ hlen cs rfl]
        rfl

def Borderless (old : List Char) : Prop :=
  ∀ border, border <+: old → border <:+ old → border = [] ∨ border = old

theorem cutChars_append (h : old ≠ []) (hborder : Borderless old) (before after : List Char) :
    cutChars old 0 (before ++ old ++ after) = cutChars old 0 before ++ cutChars old 0 after := by
  induction hn : before.length using Nat.strong_induction_on generalizing before with
  | _ n ih =>
    match before with
    | [] => exact cutChars_self_append h after
    | c :: before =>
      by_cases hprefix : old <+: c :: before
      · obtain ⟨rest, hrest⟩ := hprefix
        have hlen : rest.length < n := by
          have hpos := List.length_pos_iff.mpr h
          have hsum := congrArg List.length hrest
          rw [List.length_append] at hsum
          omega
        rw [← hrest, cutChars_self_append h, List.append_assoc, List.append_assoc,
          cutChars_self_append h, ← List.append_assoc, ih _ hlen rest rfl]
        rfl
      · have hnot : ¬ old <+: c :: (before ++ old ++ after) := by
          intro hlong
          have hstart : c :: before <+: old :=
            (List.prefix_or_prefix_of_prefix hlong ⟨old ++ after, by simp⟩).resolve_left hprefix
          obtain ⟨border, hsplit⟩ := hstart
          have hlen := congrArg List.length hsplit
          rw [List.length_append, List.length_cons] at hlen
          have hafter : border <+: old ++ after := by
            have hwhole : c :: before ++ border <+: c :: before ++ (old ++ after) := by
              rw [hsplit]
              simpa using hlong
            exact (List.prefix_append_right_inj _).mp hwhole
          have hbegin : border <+: old :=
            List.prefix_of_prefix_length_le hafter (List.prefix_append _ _) (by omega)
          rcases hborder border hbegin ⟨_, hsplit⟩ with hempty | hwhole
          · rw [hempty, List.append_nil] at hsplit
            exact hprefix (by rw [hsplit])
          · rw [hwhole] at hlen
            omega
        obtain ⟨part, parts, hparts⟩ := exists_cutChars old 0 before
        have hlen : before.length < n := by
          rw [← hn, List.length_cons]
          omega
        rw [List.cons_append, List.cons_append, cutChars_cons_of_unmatched hnot,
          cutChars_cons_of_unmatched hprefix, ih _ hlen before rfl, hparts]
        rfl

end Cutting

section Parts

variable {old new : List Char}

theorem flatMap_cutChars_ne_nil {parts : List (List Char)} (h : parts ≠ []) :
    parts.flatMap (cutChars old 0) ≠ [] := by
  match parts with
  | part :: parts => simp [cutChars_ne_nil]

theorem intercalate_flatMap_cutChars (h : old ≠ []) (parts : List (List Char)) :
    old.intercalate (parts.flatMap (cutChars old 0)) = old.intercalate parts := by
  induction parts with
  | nil => rfl
  | cons part parts ih =>
    match parts with
    | [] => simp [intercalate_cutChars h]
    | next :: parts =>
      rw [List.flatMap_cons, intercalate_append (cutChars_ne_nil 0 part)
        (flatMap_cutChars_ne_nil (by simp)), ih, intercalate_cutChars h, List.intercalate_cons_cons]

theorem cutChars_intercalate (h : old ≠ []) (hborder : Borderless old) {parts : List (List Char)}
    (hparts : parts ≠ []) :
    cutChars old 0 (old.intercalate parts) = parts.flatMap (cutChars old 0) := by
  induction parts with
  | nil => exact absurd rfl hparts
  | cons part parts ih =>
    match parts with
    | [] => simp
    | next :: parts =>
      rw [List.intercalate_cons_cons, cutChars_append h hborder, ih (by simp)]
      rfl

theorem cutChars_of_countChars_eq_zero (h : old ≠ []) {cs : List Char}
    (hcount : countChars old cs = 0) : cutChars old 0 cs = [cs] := by
  have hlen : (cutChars old 0 cs).length = countChars old cs + 1 := length_cutChars
  have hjoin := intercalate_cutChars h cs
  rw [hcount] at hlen
  obtain ⟨part, hpart⟩ := List.length_eq_one_iff.mp hlen
  rw [hpart, List.intercalate_singleton] at hjoin
  rw [hpart, hjoin]

theorem length_flatMap_cutChars (parts : List (List Char)) :
    (parts.flatMap (cutChars old 0)).length = (parts.map (countChars old)).sum + parts.length := by
  induction parts with
  | nil => rfl
  | cons part parts ih =>
    rw [List.flatMap_cons, List.length_append, ih, length_cutChars, List.map_cons, List.sum_cons,
      List.length_cons]
    omega

theorem eq_or_sum_eq_zero (h : old ≠ []) (hlen : new.length = old.length)
    {parts : List (List Char)}
    (heq : new.intercalate (parts.flatMap (cutChars old 0)) = new.intercalate parts) :
    new = old ∨ (parts.map (countChars old)).sum = 0 := by
  induction parts with
  | nil => exact .inr rfl
  | cons part parts ih =>
    have hcut : cutChars old 0 part ≠ [] := cutChars_ne_nil 0 part
    have hkept : new.intercalate (cutChars old 0 part) = part →
        new = old ∨ countChars old part = 0 := by
      intro hpart
      have hjoin : new.intercalate (cutChars old 0 part) =
          old.intercalate (cutChars old 0 part) := by
        rw [hpart, intercalate_cutChars h]
      rw [intercalate_eq_intercalate_iff hlen hcut, length_cutChars, Nat.add_eq_right] at hjoin
      exact hjoin
    match parts with
    | [] =>
      rw [List.flatMap_singleton, List.intercalate_singleton] at heq
      simpa using hkept heq
    | next :: parts =>
      have hsame : (new.intercalate (cutChars old 0 part)).length = part.length := by
        have hnew := @length_intercalate _ new _ hcut
        have hold := @length_intercalate _ old _ hcut
        rw [intercalate_cutChars h] at hold
        rw [hlen] at hnew
        omega
      rw [List.flatMap_cons, intercalate_append hcut (flatMap_cutChars_ne_nil (by simp)),
        List.intercalate_cons_cons, List.append_assoc, List.append_assoc] at heq
      obtain ⟨hpart, hrest⟩ := List.append_inj heq hsame
      rcases hkept hpart with hold | hzero
      · exact .inl hold
      · have hih := ih (List.append_cancel_left hrest)
        rw [List.map_cons, List.sum_cons, hzero, Nat.zero_add]
        exact hih

/-- Replacing a text in the parts as well gives what is joined by the new text only where the
text does not occur in the parts, or is replaced by itself. -/
theorem intercalate_flatMap_cutChars_iff (h : old ≠ []) {parts : List (List Char)}
    (hparts : parts ≠ []) :
    new.intercalate (parts.flatMap (cutChars old 0)) = new.intercalate parts ↔
      new = old ∨ (parts.map (countChars old)).sum = 0 := by
  have hcuts : parts.flatMap (cutChars old 0) ≠ [] := flatMap_cutChars_ne_nil hparts
  have hjoin := intercalate_flatMap_cutChars h parts
  constructor
  · intro heq
    by_cases hlen : new.length = old.length
    · exact eq_or_sum_eq_zero h hlen heq
    · right
      have hnew := @length_intercalate _ new _ hcuts
      have hnew' := @length_intercalate _ new _ hparts
      have hold := @length_intercalate _ old _ hcuts
      have hold' := @length_intercalate _ old _ hparts
      rw [heq, length_flatMap_cutChars, Nat.add_mul] at hnew
      rw [hjoin, length_flatMap_cutChars, Nat.add_mul] at hold
      have hproduct : (parts.map (countChars old)).sum * new.length =
          (parts.map (countChars old)).sum * old.length := by
        omega
      by_contra hne
      exact hlen (Nat.eq_of_mul_eq_mul_left (Nat.pos_of_ne_zero hne) hproduct)
  · intro heither
    rcases heither with heq | hzero
    · rw [heq, hjoin]
    · rw [List.sum_eq_zero_iff_forall_eq_nat] at hzero
      have hwhole : ∀ part ∈ parts, cutChars old 0 part = [part] := fun part hpart =>
        cutChars_of_countChars_eq_zero h (hzero _ (List.mem_map_of_mem hpart))
      rw [List.flatMap_congr hwhole, List.flatMap_singleton']

end Parts

section Placeholders

def placeholder (name : String) : List Char := '{' :: (name.toList ++ ['}'])

def Plain (name : List Char) : Prop := '{' ∉ name ∧ '}' ∉ name

/-- A template is made of characters and placeholders. -/
inductive Piece
  | char (c : Char)
  | hole (name : String)
  deriving Repr, DecidableEq

namespace Piece

def text : Piece → List Char
  | char c => [c]
  | hole name => placeholder name

def closing : List Piece → Option (List Char × List Piece)
  | char c :: ps =>
    if c = '}' then some ([], ps)
    else if c = '{' then none
    else (closing ps).map fun found => (c :: found.1, found.2)
  | _ => none

end Piece

open Piece

def pieces : List Char → List Piece
  | [] => []
  | c :: cs =>
    match if c = '{' then closing (pieces cs) else none with
    | some (name, rest) => hole (String.ofList name) :: rest
    | none => char c :: pieces cs

variable {name : List Char} {ps rest : List Piece} {cs : List Char}

theorem closing_eq_some_iff : closing ps = some (name, rest) ↔
    Plain name ∧ ps = name.map char ++ char '}' :: rest := by
  induction ps generalizing name with
  | nil => simp [closing]
  | cons p ps ih =>
    cases p with
    | hole _ => cases name <;> simp [closing]
    | char c =>
      rw [closing]
      split_ifs with hclose hopen
      · subst hclose
        cases name with
        | nil => simp [Plain, eq_comm]
        | cons d name =>
          have hne : ¬ (Plain (d :: name) ∧ d = '}') := by
            intro h
            exact h.1.2 (h.2 ▸ List.mem_cons_self)
          simp only [Option.some.injEq, Prod.mk.injEq, List.map_cons, List.cons_append,
            List.cons.injEq, char.injEq]
          grind
      · cases name with
        | nil => simp [hclose]
        | cons d name => simp [Plain, hopen]; grind
      · cases name with
        | nil => simp [hclose]
        | cons d name =>
          have hih := @ih name
          simp [Plain] at *
          grind

theorem pieces_cons_cases (c : Char) (cs : List Char) :
    pieces (c :: cs) = char c :: pieces cs ∨
      ∃ name rest, c = '{' ∧ closing (pieces cs) = some (name, rest) ∧
        pieces (c :: cs) = hole (String.ofList name) :: rest := by
  rw [pieces]
  by_cases hopen : c = '{'
  · rw [if_pos hopen]
    cases hclosing : closing (pieces cs) with
    | none => exact .inl rfl
    | some found => exact .inr ⟨found.1, found.2, hopen, rfl, rfl⟩
  · rw [if_neg hopen]
    exact .inl rfl

@[simp] theorem text_pieces (cs : List Char) : (pieces cs).flatMap text = cs := by
  induction cs with
  | nil => rfl
  | cons c cs ih =>
    rcases pieces_cons_cases c cs with heq | ⟨name, rest, hopen, hclosing, heq⟩
    · rw [heq, List.flatMap_cons, ih]
      rfl
    · rw [(closing_eq_some_iff.mp hclosing).2, List.flatMap_append, List.flatMap_map] at ih
      rw [heq, List.flatMap_cons, ← ih, hopen]
      simp [text, placeholder]

theorem plain_of_mem_pieces {name : String} (h : hole name ∈ pieces cs) : Plain name.toList := by
  induction cs with
  | nil => cases h
  | cons c cs ih =>
    rcases pieces_cons_cases c cs with heq | ⟨found, rest, _, hclosing, heq⟩
    · rw [heq, List.mem_cons] at h
      exact ih (h.resolve_left nofun)
    · rw [heq, List.mem_cons] at h
      rcases h with hfirst | hrest
      · cases hfirst
        rw [String.toList_ofList]
        exact (closing_eq_some_iff.mp hclosing).1
      · apply ih
        rw [(closing_eq_some_iff.mp hclosing).2]
        simp [hrest]

theorem placeholder_ne_nil (name : String) : placeholder name ≠ [] := List.cons_ne_nil _ _

theorem borderless_placeholder {name : String} (h : Plain name.toList) :
    Borderless (placeholder name) := by
  intro border hbegin hend
  match border with
  | [] => exact .inl rfl
  | c :: border =>
    right
    have hc : c = '{' := (List.cons_prefix_cons.mp hbegin).1
    rcases List.suffix_cons_iff.mp hend with hwhole | hinner
    · exact hwhole
    · have hmem : '{' ∈ name.toList ++ ['}'] := hinner.subset (by simp [hc])
      simp [h.1] at hmem

end Placeholders

section Filling

variable {vars : List (String × String)} {x v : String} {cs : List Char}

/-- A placeholder becomes the value of its name; without one it stays as it is. -/
def fill (vars : List (String × String)) : Piece → List Char
  | .char c => [c]
  | .hole name => (vars.lookup name).elim (placeholder name) String.toList

def simultaneous (vars : List (String × String)) (cs : List Char) : List Char :=
  (pieces cs).flatMap (fill vars)

def successive (vars : List (String × String)) (cs : List Char) : List Char :=
  vars.foldl (fun cs e => replaceChars (placeholder e.1) e.2.toList 0 cs) cs

def around (f : Piece → List Char) (name : String) : List Piece → List (List Char)
  | [] => [[]]
  | p :: ps =>
    if p = .hole name then [] :: around f name ps
    else (around f name ps).modifyHead (f p ++ ·)

theorem around_ne_nil (f : Piece → List Char) (name : String) (ps : List Piece) :
    around f name ps ≠ [] := by
  induction ps with
  | nil => simp [around]
  | cons p ps ih =>
    rw [around]
    split
    · simp
    · simpa using ih

theorem length_around (f : Piece → List Char) (name : String) (ps : List Piece) :
    (around f name ps).length = ps.count (.hole name) + 1 := by
  induction ps with
  | nil => rfl
  | cons p ps ih =>
    rw [around]
    split
    · rename_i heq
      rw [heq, List.length_cons, ih, List.count_cons_self]
    · rename_i hne
      rw [List.length_modifyHead, ih, List.count_cons_of_ne hne]

theorem intercalate_around (f : Piece → List Char) (name : String) (ps : List Piece) :
    (f (.hole name)).intercalate (around f name ps) = ps.flatMap f := by
  induction ps with
  | nil => rfl
  | cons p ps ih =>
    rw [around, List.flatMap_cons, ← ih]
    split
    · rename_i heq
      rw [List.intercalate_cons_of_ne_nil (around_ne_nil f name ps), heq]
      rfl
    · rw [intercalate_modifyHead _ _ (around_ne_nil f name ps)]

theorem around_congr {f g : Piece → List Char} (h : ∀ p, p ≠ .hole x → f p = g p)
    (ps : List Piece) : around f x ps = around g x ps := by
  induction ps with
  | nil => rfl
  | cons p ps ih =>
    rw [around, around, ih]
    split
    · rfl
    · rename_i hne
      rw [h p hne]

theorem fill_append_of_ne {p : Piece} (h : p ≠ .hole x) :
    fill (vars ++ [(x, v)]) p = fill vars p := by
  cases p with
  | char c => rfl
  | hole name =>
    have hne : name ≠ x := fun heq => h (by rw [heq])
    have hbeq : (name == x) = false := by simpa using hne
    rw [fill, fill, List.lookup_append]
    simp [hbeq]

theorem fill_append_self (h : x ∉ vars.map Prod.fst) :
    fill (vars ++ [(x, v)]) (.hole x) = v.toList := by
  have hnone : vars.lookup x = none := by
    rw [List.lookup_eq_none_iff]
    intro e he
    simpa using fun heq : x = e.1 => h (heq ▸ List.mem_map_of_mem he)
  rw [fill, List.lookup_append, hnone]
  simp

theorem fill_of_notMem (h : x ∉ vars.map Prod.fst) : fill vars (.hole x) = placeholder x := by
  have hnone : vars.lookup x = none := by
    rw [List.lookup_eq_none_iff]
    intro e he
    simpa using fun heq : x = e.1 => h (heq ▸ List.mem_map_of_mem he)
  rw [fill, hnone]
  rfl

theorem simultaneous_eq_intercalate (h : x ∉ vars.map Prod.fst) (cs : List Char) :
    simultaneous vars cs = (placeholder x).intercalate (around (fill vars) x (pieces cs)) := by
  rw [← fill_of_notMem h, intercalate_around]
  rfl

theorem simultaneous_append_eq_intercalate (h : x ∉ vars.map Prod.fst) (v : String)
    (cs : List Char) : simultaneous (vars ++ [(x, v)]) cs =
      v.toList.intercalate (around (fill vars) x (pieces cs)) := by
  rw [around_congr (g := fill (vars ++ [(x, v)])) (fun p hp => (fill_append_of_ne hp).symm),
    ← fill_append_self (v := v) h, intercalate_around]
  rfl

/-- The occurrences of a placeholder cut the filled template where the template has it, and within
what stands between. -/
theorem cutChars_simultaneous (h : x ∉ vars.map Prod.fst) (cs : List Char) :
    cutChars (placeholder x) 0 (simultaneous vars cs) =
      (around (fill vars) x (pieces cs)).flatMap (cutChars (placeholder x) 0) := by
  rw [simultaneous_eq_intercalate h]
  by_cases hx : Piece.hole x ∈ pieces cs
  · exact cutChars_intercalate (placeholder_ne_nil x)
      (borderless_placeholder (plain_of_mem_pieces hx)) (around_ne_nil _ _ _)
  · have hone := length_around (fill vars) x (pieces cs)
    rw [List.count_eq_zero_of_not_mem hx] at hone
    obtain ⟨part, hpart⟩ := List.length_eq_one_iff.mp hone
    rw [hpart, List.intercalate_singleton, List.flatMap_singleton]

/-- Where one more placeholder is replaced in a template whose other placeholders are filled, it is
filled as well only if it occurs where the template has it, or stands for itself. -/
theorem replaceChars_simultaneous_iff (h : x ∉ vars.map Prod.fst) (v : String) (cs : List Char) :
    replaceChars (placeholder x) v.toList 0 (simultaneous vars cs) =
        simultaneous (vars ++ [(x, v)]) cs ↔
      v.toList = placeholder x ∨
        countChars (placeholder x) (simultaneous vars cs) = (pieces cs).count (.hole x) := by
  have hcount : countChars (placeholder x) (simultaneous vars cs) =
      ((around (fill vars) x (pieces cs)).map (countChars (placeholder x))).sum +
        (pieces cs).count (.hole x) := by
    rw [countChars, cutChars_simultaneous h, length_flatMap_cutChars, length_around]
    rfl
  rw [replaceChars_eq_intercalate, cutChars_simultaneous h, simultaneous_append_eq_intercalate h,
    intercalate_flatMap_cutChars_iff (placeholder_ne_nil x) (around_ne_nil _ _ _), hcount,
    Nat.add_eq_right]

theorem simultaneous_perm {vars' : List (String × String)} (hperm : vars'.Perm vars)
    (hnodup : (vars.map Prod.fst).Nodup) (cs : List Char) :
    simultaneous vars' cs = simultaneous vars cs := by
  have hnodup' : (vars'.map Prod.fst).Nodup := (hperm.map Prod.fst).nodup_iff.mpr hnodup
  have hlookup : ∀ name, vars'.lookup name = vars.lookup name := by
    intro name
    apply Option.ext
    intro value
    constructor
    · intro hvalue
      exact lookup_of_mem hnodup (hperm.mem_iff.mp (mem_of_lookup hvalue))
    · intro hvalue
      exact lookup_of_mem hnodup' (hperm.mem_iff.mpr (mem_of_lookup hvalue))
  have hfill : fill vars' = fill vars := by
    funext p
    cases p with
    | char c => rfl
    | hole name => rw [fill, fill, hlookup]
  rw [simultaneous, simultaneous, hfill]

/-- However the template is filled, a further placeholder occurs only where the template has it. -/
def Undisturbed (vars : List (String × String)) (cs : List Char) : Prop :=
  ∀ e others, (e :: others).Subperm vars → e.2.toList = placeholder e.1 ∨
    countChars (placeholder e.1) (simultaneous others cs) = (pieces cs).count (.hole e.1)

theorem simultaneous_nil (cs : List Char) : simultaneous [] cs = cs := by
  have hfill : fill [] = Piece.text := by
    funext p
    cases p <;> rfl
  rw [simultaneous, hfill, text_pieces]

theorem successive_append (vars vars' : List (String × String)) (cs : List Char) :
    successive (vars ++ vars') cs = successive vars' (successive vars cs) :=
  List.foldl_append

theorem nodup_of_subperm {chosen : List (String × String)} (hchosen : chosen.Subperm vars)
    (hnodup : (vars.map Prod.fst).Nodup) : (chosen.map Prod.fst).Nodup := by
  obtain ⟨listed, hperm, hsub⟩ := hchosen
  exact (hperm.map Prod.fst).nodup_iff.mp ((hsub.map Prod.fst).nodup hnodup)

theorem notMem_of_nodup_append {e : String × String}
    (hnodup : ((vars ++ [e]).map Prod.fst).Nodup) : e.1 ∉ vars.map Prod.fst := by
  rw [List.map_append, List.nodup_append] at hnodup
  intro hmem
  exact hnodup.2.2 _ hmem _ (by simp) rfl

/-- Replacing in one variable after another fills the placeholders at once, for each selection of
the variables and in every order of them, exactly where nothing is disturbed. -/
theorem successive_eq_simultaneous_iff (hnodup : (vars.map Prod.fst).Nodup) :
    (∀ chosen : List (String × String), chosen.Subperm vars →
      successive chosen cs = simultaneous chosen cs) ↔ Undisturbed vars cs := by
  constructor
  · intro hall e others hchosen
    have happend : (others ++ [e]).Subperm vars :=
      (List.perm_append_singleton e others).subperm.trans hchosen
    have hothers := hall others ((List.sublist_append_left _ _).subperm.trans happend)
    have hstep := hall _ happend
    rw [successive_append, hothers] at hstep
    have hnew := notMem_of_nodup_append (nodup_of_subperm happend hnodup)
    exact (replaceChars_simultaneous_iff hnew _ _).mp hstep
  · intro hcond chosen
    induction chosen using List.reverseRecOn with
    | nil =>
      intro _
      exact (simultaneous_nil cs).symm
    | append_singleton chosen e ih =>
      intro hchosen
      have hfirst : (e :: chosen).Subperm vars :=
        (List.perm_append_singleton e chosen).symm.subperm.trans hchosen
      rw [successive_append, ih ((List.sublist_append_left _ _).subperm.trans hchosen)]
      have hnew := notMem_of_nodup_append (nodup_of_subperm hchosen hnodup)
      exact (replaceChars_simultaneous_iff hnew _ _).mpr (hcond e chosen hfirst)

end Filling

end CaManager.Library
