import CaManager.Library.Numerals
import Mathlib.Data.Bool.AllAny
import Mathlib.Data.List.DropRight
import Mathlib.Data.List.Infix

/-!
# Texts

The text operations of a scripting language that the models use, on the characters of a
text so that they evaluate.
-/

namespace CaManager.Library

def strip (s : String) : String := String.ofList (stripBlanks s.toList)

def isSpace (c : Char) : Bool :=
  isBlank c || (0x1c ≤ c.val && c.val ≤ 0x1f) || c.val = 0x85 || c.val = 0xa0 || c.val = 0x1680 ||
    (0x2000 ≤ c.val && c.val ≤ 0x200a) || c.val = 0x2028 || c.val = 0x2029 || c.val = 0x202f ||
    c.val = 0x205f || c.val = 0x3000

def stripSpaces (s : String) : String :=
  String.ofList (((s.toList.dropWhile isSpace).reverse.dropWhile isSpace).reverse)

/-- The text in capitals; one of the letters that a header can have becomes two. -/
def upper (s : String) : String :=
  String.ofList (s.toList.flatMap fun c => if c = 'ß' then ['S', 'S'] else [c.toUpper])

def lower (s : String) : String := String.ofList (s.toList.map Char.toLower)

/-- The parts between occurrences of a character; a text without it is its own only part. -/
def splitText (c : Char) (s : String) : List String := (s.toList.splitOn c).map String.ofList

def joinText (c : Char) (parts : List String) : String :=
  String.ofList ([c].intercalate (parts.map String.toList))

/-- Replace a text wherever it occurs, from the left. The number counts the characters that are
still to be passed over. -/
def replaceChars (old new : List Char) : ℕ → List Char → List Char
  | _, [] => []
  | skip + 1, _ :: cs => replaceChars old new skip cs
  | 0, c :: cs =>
    if old.isPrefixOf (c :: cs) then new ++ replaceChars old new (old.length - 1) cs
    else c :: replaceChars old new 0 cs

def replaceText (old new s : String) : String :=
  String.ofList (replaceChars old.toList new.toList 0 s.toList)

def startsWith (s t : String) : Bool := t.toList.isPrefixOf s.toList

def occursIn (s t : String) : Bool := decide (s.toList <:+: t.toList)

/-- A digest of texts, written in hexadecimal digits. -/
class HashLibrary where
  sha256 : String → String
  sha256_ne_empty : ∀ s, sha256 s ≠ ""
  hexadecimal : ∀ s, ∀ c ∈ (sha256 s).toList, '0' ≤ c ∧ c ≤ '9' ∨ 'a' ≤ c ∧ c ≤ 'f'

section Separators

variable {α : Type*} {a : α} {l l' rest rest' : List α}

theorem eq_of_append_cons (h : a ∉ l) (h' : a ∉ l') (heq : l ++ a :: rest = l' ++ a :: rest') :
    l = l' ∧ rest = rest' := by
  induction l generalizing l' with
  | nil =>
    cases l' with
    | nil => exact ⟨rfl, (List.cons.inj heq).2⟩
    | cons b l' =>
      have hhead : a = b := (List.cons.inj heq).1
      exact absurd (hhead ▸ List.mem_cons_self) h'
  | cons b l ih =>
    rw [List.mem_cons, not_or] at h
    cases l' with
    | nil => exact absurd (List.cons.inj heq).1.symm h.1
    | cons b' l' =>
      obtain ⟨hhead, htail⟩ := List.cons.inj heq
      obtain ⟨hl, hrest⟩ := ih h.2 (fun hmem => h' (List.mem_cons_of_mem b' hmem)) htail
      exact ⟨by rw [hhead, hl], hrest⟩

theorem eq_of_append_cons_last (h : a ∉ rest) (h' : a ∉ rest')
    (heq : l ++ a :: rest = l' ++ a :: rest') : l = l' ∧ rest = rest' := by
  have hrev : rest.reverse ++ a :: l.reverse = rest'.reverse ++ a :: l'.reverse := by
    simpa using congrArg List.reverse heq
  obtain ⟨hrest, hl⟩ := eq_of_append_cons (by simpa using h) (by simpa using h') hrev
  exact ⟨List.reverse_inj.mp hl, List.reverse_inj.mp hrest⟩

/-- A text with a separator behind it begins another exactly if it is what is in front of the last
separator there, or begins that. -/
theorem prefix_append_cons_iff (h : a ∉ rest) :
    l' ++ [a] <+: l ++ a :: rest ↔ l' = l ∨ l' ++ [a] <+: l := by
  have hfront : l ++ [a] <+: l ++ a :: rest := ⟨rest, by simp⟩
  constructor
  · intro hprefix
    rcases List.prefix_or_prefix_of_prefix hprefix hfront with hle | hle
    · rcases List.prefix_concat_iff.mp hle with heq | hle
      · exact .inl (List.append_cancel_right heq)
      · exact .inr hle
    · rcases List.prefix_concat_iff.mp hle with heq | hle
      · exact .inl (List.append_cancel_right heq.symm)
      · -- then the separator behind it would come after the last one
        obtain ⟨middle, rfl⟩ := hle
        have hmiddle : l ++ a :: (middle ++ [a]) <+: l ++ a :: rest := by simpa using hprefix
        have hrest := (List.cons_prefix_cons.mp ((List.prefix_append_right_inj l).mp hmiddle)).2
        exact absurd (hrest.subset (by simp)) h
  · rintro (rfl | hprefix)
    · exact hfront
    · exact hprefix.trans (List.prefix_append l _)

theorem eq_false_of_mem_splitOnP {p : α → Bool} {part : List α} (h : part ∈ l.splitOnP p) :
    ∀ b ∈ part, p b = false := by
  induction l generalizing part with
  | nil =>
    rw [List.mem_singleton.mp h]
    simp
  | cons b l ih =>
    rw [List.splitOnP_cons_eq_if_modifyHead] at h
    split_ifs at h with hb
    · rcases List.mem_cons.mp h with rfl | h
      · simp
      · exact ih h
    · obtain ⟨first, parts, hparts⟩ := List.exists_cons_of_ne_nil (List.splitOnP_ne_nil p l)
      rw [hparts] at h ih
      rcases List.mem_cons.mp h with rfl | h
      · exact List.forall_mem_cons.mpr ⟨by simpa using hb, ih List.mem_cons_self⟩
      · exact ih (List.mem_cons_of_mem first h)

theorem notMem_of_mem_splitOn [DecidableEq α] {part : List α} (h : part ∈ l.splitOn a) :
    a ∉ part := by
  rw [List.splitOn_eq_splitOnP] at h
  intro hmem
  simpa using eq_false_of_mem_splitOnP h a hmem

theorem notMem_of_mem_splitText {c : Char} {s part : String} (h : part ∈ splitText c s) :
    c ∉ part.toList := by
  obtain ⟨chars, hchars, rfl⟩ := List.mem_map.mp h
  rw [String.toList_ofList]
  exact notMem_of_mem_splitOn hchars

theorem splitText_append {c : Char} {s : String} (h : c ∉ s.toList) (t : String) :
    splitText c (s ++ String.singleton c ++ t) = s :: splitText c t := by
  have hchars : (s ++ String.singleton c ++ t).toList = s.toList ++ c :: t.toList := by simp
  rw [splitText, hchars, List.splitOn_append_cons_self_of_not_mem h, List.map_cons,
    String.ofList_toList]
  rfl

theorem splitText_of_notMem {c : Char} {s : String} (h : c ∉ s.toList) :
    splitText c s = [s] := by
  rw [splitText, List.splitOn_eq_singleton h, List.map_singleton, String.ofList_toList]

theorem toList_joinText_cons_cons {c : Char} {first second : String} {parts : List String} :
    (joinText c (first :: second :: parts)).toList =
      first.toList ++ c :: (joinText c (second :: parts)).toList := by
  simp [joinText, List.intercalate]

theorem notMem_joinText {c d : Char} {parts : List String} (hd : d ≠ c)
    (h : ∀ part ∈ parts, d ∉ part.toList) : d ∉ (joinText c parts).toList := by
  induction parts with
  | nil => simp [joinText]
  | cons first rest ih =>
    obtain ⟨hfirst, hrest⟩ := List.forall_mem_cons.mp h
    cases rest with
    | nil => simpa [joinText] using hfirst
    | cons second parts =>
      rw [toList_joinText_cons_cons, List.mem_append, List.mem_cons]
      rintro (hmem | rfl | hmem)
      · exact hfirst hmem
      · exact hd rfl
      · exact ih hrest hmem

theorem splitText_joinText {c : Char} {parts : List String} (hne : parts ≠ [])
    (h : ∀ part ∈ parts, c ∉ part.toList) : splitText c (joinText c parts) = parts := by
  have hparts : ∀ chars ∈ parts.map String.toList, c ∉ chars := by
    intro chars hchars
    obtain ⟨part, hpart, rfl⟩ := List.mem_map.mp hchars
    exact h part hpart
  rw [splitText, joinText, String.toList_ofList,
    List.splitOn_intercalate c hparts (by simpa using hne), List.map_map]
  simp [Function.comp_def]

theorem eq_of_splitText_eq {c : Char} {s first second third : String}
    (h : splitText c s = [first, second, third]) :
    s = first ++ String.singleton c ++ (second ++ String.singleton c ++ third) := by
  have hchars : s.toList.splitOn c = [first.toList, second.toList, third.toList] := by
    have hparts := congrArg (List.map String.toList) h
    simpa [splitText, Function.comp_def] using hparts
  have hjoin : [c].intercalate (s.toList.splitOn c) = s.toList := List.intercalate_splitOn c
  rw [hchars] at hjoin
  apply String.toList_injective
  rw [← hjoin]
  simp [List.intercalate]

theorem infix_append_cons_iff (h : a ∉ l) : l <:+: l' ++ a :: rest ↔ l <:+: l' ∨ l <:+: rest := by
  rw [List.infix_append_iff, List.infix_cons_iff]
  constructor
  · rintro (hleft | (hstart | hright) | ⟨front, back, rfl, hfront, hback⟩)
    · exact .inl hleft
    · cases l with
      | nil => exact .inl List.nil_infix
      | cons x l => exact absurd ((List.cons_prefix_cons.mp hstart).1 ▸ List.mem_cons_self) h
    · exact .inr hright
    · cases back with
      | nil => exact .inl (by simpa using hfront.isInfix)
      | cons x back =>
        refine absurd ?_ h
        rw [← (List.cons_prefix_cons.mp hback).1]
        exact List.mem_append_right _ List.mem_cons_self
  · intro hside
    rcases hside with hleft | hright
    · exact .inl hleft
    · exact .inr (.inl (.inr hright))

theorem infix_intercalate_iff (hne : l ≠ []) (h : a ∉ l) (parts : List (List α)) :
    l <:+: [a].intercalate parts ↔ ∃ part ∈ parts, l <:+: part := by
  induction parts with
  | nil => simp [hne]
  | cons part parts ih =>
    cases parts with
    | nil => simp
    | cons part' parts =>
      have hcons : [a].intercalate (part :: part' :: parts) =
          part ++ a :: [a].intercalate (part' :: parts) := by simp [List.intercalate]
      rw [hcons, infix_append_cons_iff h, ih]
      simp only [List.exists_mem_cons_iff]

end Separators

section Normalizing

variable {α : Type*}

theorem toLower_cases (c : Char) :
    c.toLower = c ∨
      c.val.toNat ≤ 90 ∧ 65 ≤ c.val.toNat ∧ c.toLower.val.toNat = c.val.toNat + 32 := by
  by_cases h : c.val ≥ 'A'.val ∧ c.val ≤ 'Z'.val
  · have hval : c.toLower.val = c.val + 32 := congrArg Char.val (dif_pos h)
    refine .inr ⟨h.2, h.1, ?_⟩
    rw [hval]
    grind [UInt32.toNat_add]
  · exact .inl (dif_neg h)

theorem isBlank_toLower (c : Char) : isBlank c.toLower = isBlank c := by
  have hblank : ∀ d : Char, 33 ≤ d.val.toNat → isBlank d = false := by
    intro d hd
    simp only [isBlank, Bool.or_eq_false_iff, decide_eq_false_iff_not]
    refine ⟨⟨⟨⟨⟨?_, ?_⟩, ?_⟩, ?_⟩, ?_⟩, ?_⟩ <;> rintro rfl <;> exact absurd hd (by decide)
  rcases toLower_cases c with h | ⟨_, hle, h⟩
  · rw [h]
  · rw [hblank c (by omega), hblank c.toLower (by omega)]

theorem lower_lower (s : String) : lower (lower s) = lower s := by
  have hidem : ∀ c : Char, c.toLower.toLower = c.toLower := by
    intro c
    rcases toLower_cases c.toLower with h | ⟨hle, hge, _⟩
    · exact h
    · rcases toLower_cases c with h | ⟨_, _, h⟩
      · rw [h, h]
      · omega
  simp [lower, Function.comp_def, hidem]

theorem stripBlanks_eq (cs : List Char) :
    stripBlanks cs = (cs.dropWhile isBlank).rdropWhile isBlank := rfl

theorem dropWhile_rdropWhile (p : α → Bool) (l : List α) :
    ((l.dropWhile p).rdropWhile p).dropWhile p = (l.dropWhile p).rdropWhile p := by
  rw [List.dropWhile_eq_self_iff]
  intro hne
  have hpre : (l.dropWhile p).rdropWhile p <+: l.dropWhile p := List.rdropWhile_prefix p _
  rw [hpre.getElem hne]
  exact List.dropWhile_get_zero_not p l (hne.trans_le hpre.length_le)

theorem stripBlanks_stripBlanks (cs : List Char) :
    stripBlanks (stripBlanks cs) = stripBlanks cs := by
  rw [stripBlanks_eq (stripBlanks cs), stripBlanks_eq cs, dropWhile_rdropWhile,
    List.rdropWhile_idempotent]

theorem strip_strip (s : String) : strip (strip s) = strip s := by
  rw [strip, strip, String.toList_ofList, stripBlanks_stripBlanks]

theorem strip_lower (s : String) : strip (lower s) = lower (strip s) := by
  have hblank : isBlank ∘ Char.toLower = isBlank := funext isBlank_toLower
  rw [strip, lower, lower, strip, String.toList_ofList, String.toList_ofList, stripBlanks,
    List.dropWhile_map, hblank, ← List.map_reverse, List.dropWhile_map, hblank, ← List.map_reverse]
  rfl

end Normalizing

section Digests

/-- A digest that spells the text out: each character becomes its number and a mark. -/
def spelledDigest (s : String) : String :=
  String.ofList ('f' :: s.toList.flatMap fun c => Nat.toDigits 10 c.toNat ++ ['a'])

@[reducible] def spelledHash : HashLibrary where
  sha256 := spelledDigest
  sha256_ne_empty s := by
    intro h
    have hlist := congrArg String.toList h
    simp [spelledDigest] at hlist
  hexadecimal s c hc := by
    rw [spelledDigest, String.toList_ofList, List.mem_cons, List.mem_flatMap] at hc
    rcases hc with rfl | ⟨c', _, hc⟩
    · exact .inr (by decide)
    · rcases List.mem_append.mp hc with hdigit | hmark
      · obtain ⟨d, hd, rfl⟩ := exists_digit_of_mem_toDigits (by decide) hdigit
        refine .inl ?_
        interval_cases d <;> decide
      · rw [List.mem_singleton.mp hmark]
        exact .inr (by decide)

theorem spelledDigest_injective : Function.Injective spelledDigest := by
  have hmark : ∀ c : Char, 'a' ∉ Nat.toDigits 10 c.toNat := fun c hmem =>
    ne_of_mem_toDigits (by decide) (by decide) 'a' (by decide) hmem rfl
  have hlists : ∀ cs cs' : List Char,
      (cs.flatMap fun c => Nat.toDigits 10 c.toNat ++ ['a']) =
        (cs'.flatMap fun c => Nat.toDigits 10 c.toNat ++ ['a']) → cs = cs' := by
    intro cs
    induction cs with
    | nil =>
      intro cs' h
      cases cs' with
      | nil => rfl
      | cons c' cs' => simp at h
    | cons c cs ih =>
      intro cs' h
      cases cs' with
      | nil => simp at h
      | cons c' cs' =>
        simp only [List.flatMap_cons, List.append_assoc, List.singleton_append] at h
        obtain ⟨hdigits, hrest⟩ := eq_of_append_cons (hmark c) (hmark c') h
        have hread := readUnsigned_toDigits (by decide : 1 < 10) (by decide) c.toNat
        rw [hdigits, readUnsigned_toDigits (by decide) (by decide)] at hread
        rw [ih cs' hrest, Char.toNat_inj.mp (Option.some.inj hread).symm]
  intro s s' h
  exact String.toList_injective (hlists _ _ (List.cons.inj (String.ofList_injective h)).2)

end Digests

end CaManager.Library
