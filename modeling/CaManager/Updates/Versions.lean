import CaManager.Library.PaddedSequences
import CaManager.Library.Texts
import Mathlib.Data.List.Forall2

/-!
# Versions

A version is a row of numbers, and a prerelease has a kind and a number of its own. It is read from
its text as one tuple: the numbers, filled up to three, and behind them a mark, which an offset
takes from the kind of the prerelease. Tuples of different lengths are compared as well.
-/

namespace CaManager

open Library

namespace Updates

def lstripV (s : String) : String := String.ofList (s.toList.dropWhile (· = 'v'))

def firstDigits (s : String) : List Char :=
  (s.toList.dropWhile fun c => !c.isDigit).takeWhile Char.isDigit

def prereleaseNum (prerelease : String) : ℤ := (readInt 10 (firstDigits prerelease)).getD 0

def prereleaseOrder (prerelease : String) : ℤ :=
  if startsWith prerelease "dev" then 50 + prereleaseNum prerelease
  else if startsWith prerelease "alpha" then 100 + prereleaseNum prerelease
  else if startsWith prerelease "beta" then 200 + prereleaseNum prerelease
  else if startsWith prerelease "rc" then 300 + prereleaseNum prerelease
  else 0

/-- `parse_version` -/
def parseVersion (versionStr : String) : List ℤ :=
  let parts := splitText '-' (lstripV versionStr)
  let numbers := ((splitText '.' (parts.headD "")).mapM fun x => readInt 10 x.toList).getD [0, 0, 0]
  let order := match parts[1]?.filter (· ≠ "") with
    | some prerelease => prereleaseOrder prerelease
    | none => 999
  padTo 3 numbers ++ [order]

/-- `compare_versions` -/
def compareVersions (v1 v2 : String) : ℤ :=
  if parseVersion v1 < parseVersion v2 then -1
  else if parseVersion v2 < parseVersion v1 then 1
  else 0

inductive PrereleaseKind
  | dev
  | alpha
  | beta
  | rc
  deriving Repr, DecidableEq

namespace PrereleaseKind

def label : PrereleaseKind → String
  | dev => "dev"
  | alpha => "alpha"
  | beta => "beta"
  | rc => "rc"

def index : PrereleaseKind → ℕ
  | dev => 0
  | alpha => 1
  | beta => 2
  | rc => 3

def offset : PrereleaseKind → ℤ
  | dev => 50
  | alpha => 100
  | beta => 200
  | rc => 300

end PrereleaseKind

/-- What a version says: its numbers, and of a prerelease the kind and the number. -/
structure Version where
  components : List ℕ
  prerelease : Option (PrereleaseKind × ℕ) := none
  components_ne : components ≠ [] := by decide
  deriving Repr, DecidableEq

namespace Version

def numbers (v : Version) : List ℤ := v.components.map Nat.cast

def padded (v : Version) : List ℤ := padTo 3 v.numbers

def stage (v : Version) : WithTop (ℕ ×ₗ ℕ) :=
  match v.prerelease with
  | some (kind, n) => (toLex (kind.index, n) : ℕ ×ₗ ℕ)
  | none => ⊤

/-- Versions are ordered by their numbers, where missing ones are zero, and then by stage. -/
def rank (v : Version) : Lex (ℕ → ℤ) ×ₗ WithTop (ℕ ×ₗ ℕ) := toLex (extended v.numbers, v.stage)

def mark (v : Version) : ℤ :=
  match v.prerelease with
  | some (kind, n) => kind.offset + n
  | none => 999

end Version

inductive Numeral : ℕ → List Char → Prop
  | digit {d : ℕ} (hd : d < 10) : Numeral d [Nat.digitChar d]
  | more {n d : ℕ} {cs : List Char} (h : Numeral n cs) (hd : d < 10) :
      Numeral (n * 10 + d) (cs ++ [Nat.digitChar d])

/-- The suffix of a prerelease. One without a number has the number zero. -/
inductive Suffix (kind : PrereleaseKind) : ℕ → List Char → Prop
  | plain : Suffix kind 0 kind.label.toList
  | numbered {n : ℕ} {cs : List Char} (h : Numeral n cs) : Suffix kind n (kind.label.toList ++ cs)

/-- The texts of a version: its numbers with dots between them, perhaps after the letter v, and the
suffix of a prerelease after a dash. -/
inductive Spells (text : String) (v : Version) : Prop
  | final {k : ℕ} {numerals : List String} (hfinal : v.prerelease = none)
      (hnumerals : List.Forall₂ (fun n s => Numeral n s.toList) v.components numerals)
      (htext : text.toList = List.replicate k 'v' ++ (joinText '.' numerals).toList)
  | prerelease {k n : ℕ} {kind : PrereleaseKind} {numerals : List String} {suffix : List Char}
      (hprerelease : v.prerelease = some (kind, n))
      (hnumerals : List.Forall₂ (fun n s => Numeral n s.toList) v.components numerals)
      (hsuffix : Suffix kind n suffix)
      (htext : text.toList =
        List.replicate k 'v' ++ ((joinText '.' numerals).toList ++ '-' :: suffix))

section Numerals

variable {n : ℕ} {cs : List Char} {c : Char}

theorem Numeral.digits (h : Numeral n cs) : ∀ c ∈ cs, ∃ d < 10, c = Nat.digitChar d := by
  induction h with
  | digit hd =>
    intro c hc
    exact ⟨_, hd, List.mem_singleton.mp hc⟩
  | more h hd ih =>
    intro c hc
    rcases List.mem_append.mp hc with hc | hc
    · exact ih c hc
    · exact ⟨_, hd, List.mem_singleton.mp hc⟩

theorem isDigit_digitChar {d : ℕ} (hd : d < 10) : (Nat.digitChar d).isDigit = true := by
  have hall : ∀ d < 10, (Nat.digitChar d).isDigit = true := by decide
  exact hall d hd

theorem Numeral.isDigit (h : Numeral n cs) : ∀ c ∈ cs, c.isDigit = true := by
  intro c hc
  obtain ⟨d, hd, rfl⟩ := h.digits c hc
  exact isDigit_digitChar hd

theorem Numeral.notMem (h : Numeral n cs) (hc : c.isDigit = false) : c ∉ cs := by
  intro hmem
  rw [h.isDigit c hmem] at hc
  cases hc

theorem Numeral.readUnsigned (h : Numeral n cs) : readUnsigned 10 cs = some n := by
  induction h with
  | @digit d hd =>
    have hvalue : digitValue 10 (Nat.digitChar d) = some d := digitValue_digitChar hd (by decide)
    simp [Library.readUnsigned, readTail, hvalue]
  | more h hd ih => exact readUnsigned_append ih (digitValue_digitChar hd (by decide))

theorem Numeral.readInt (h : Numeral n cs) : readInt 10 cs = some (n : ℤ) := by
  have hdigits : ∀ c ∈ cs, (digitValue 10 c).isSome := by
    intro c hc
    obtain ⟨d, hd, rfl⟩ := h.digits c hc
    rw [digitValue_digitChar hd (by decide)]
    rfl
  rw [readInt_of_digits hdigits, h.readUnsigned]
  rfl

theorem numeral_toDigits (n : ℕ) : Numeral n (Nat.toDigits 10 n) := by
  induction n using Nat.strong_induction_on with
  | _ n ih =>
    rcases Nat.lt_or_ge n 10 with h | h
    · rw [Nat.toDigits_of_lt_base h]
      exact .digit h
    · rw [Nat.toDigits_of_base_le (by decide) h]
      have hmore : Numeral (n / 10 * 10 + n % 10) _ :=
        (ih (n / 10) (by omega)).more (Nat.mod_lt n (by decide))
      rwa [Nat.div_add_mod'] at hmore

end Numerals

section Parsing

variable {text : String} {v : Version} {kind : PrereleaseKind} {n : ℕ} {suffix : List Char}
  {numerals : List String} {components : List ℕ}

theorem lstripV_of_toList {k : ℕ} {rest : List Char}
    (h : text.toList = List.replicate k 'v' ++ rest) (hrest : ∀ c ∈ rest.head?, c ≠ 'v') :
    lstripV text = String.ofList rest := by
  have hdrop : (List.replicate k 'v' ++ rest).dropWhile (· = 'v') = rest := by
    clear h
    induction k with
    | zero =>
      cases rest with
      | nil => rfl
      | cons c rest => exact List.dropWhile_cons_of_neg (by simpa using hrest c rfl)
    | succ k ih =>
      rw [List.replicate_succ, List.cons_append, List.dropWhile_cons_of_pos (by simp)]
      exact ih
  rw [lstripV, h, hdrop]

theorem notMem_numerals
    (h : List.Forall₂ (fun n s => Numeral n s.toList) components numerals) {c : Char}
    (hdigit : c.isDigit = false) (hdot : c ≠ '.') : c ∉ (joinText '.' numerals).toList := by
  apply notMem_joinText hdot
  intro part hpart
  induction h with
  | nil => cases hpart
  | cons hnumeral hrest ih =>
    rcases List.mem_cons.mp hpart with rfl | hpart
    · exact hnumeral.notMem hdigit
    · exact ih hpart

theorem splitText_numerals
    (h : List.Forall₂ (fun n s => Numeral n s.toList) components numerals)
    (hne : components ≠ []) : splitText '.' (joinText '.' numerals) = numerals := by
  apply splitText_joinText
  · rintro rfl
    cases h
    exact hne rfl
  · intro part hpart
    clear hne
    induction h with
    | nil => cases hpart
    | cons hnumeral hrest ih =>
      rcases List.mem_cons.mp hpart with rfl | hpart
      · exact hnumeral.notMem (by decide)
      · exact ih hpart

theorem mapM_readInt_numerals
    (h : List.Forall₂ (fun n s => Numeral n s.toList) components numerals) :
    numerals.mapM (fun x => readInt 10 x.toList) = some (components.map Nat.cast) := by
  induction h with
  | nil => rfl
  | cons hnumeral hrest ih =>
    rw [List.mapM_cons, hnumeral.readInt, ih]
    rfl

theorem Suffix.ne_nil (h : Suffix kind n suffix) : suffix ≠ [] := by
  have hlabel : kind.label.toList ≠ [] := by cases kind <;> decide
  cases h with
  | plain => exact hlabel
  | numbered h => exact List.append_ne_nil_of_left_ne_nil hlabel _

theorem Suffix.notMem_dash (h : Suffix kind n suffix) : '-' ∉ suffix := by
  have hlabel : '-' ∉ kind.label.toList := by cases kind <;> decide
  cases h with
  | plain => exact hlabel
  | numbered h =>
    rw [List.mem_append, not_or]
    exact ⟨hlabel, h.notMem (by decide)⟩

theorem Suffix.prereleaseNum (h : Suffix kind n suffix) :
    prereleaseNum (String.ofList suffix) = n := by
  have hlabel (cs : List Char) : (kind.label.toList ++ cs).dropWhile (fun c => !c.isDigit) =
      cs.dropWhile fun c => !c.isDigit := by
    cases kind <;> rfl
  unfold Updates.prereleaseNum firstDigits
  rw [String.toList_ofList]
  cases h with
  | plain =>
    have hplain := hlabel []
    rw [List.append_nil] at hplain
    rw [hplain]
    decide
  | @numbered n cs h =>
    have hdrop : cs.dropWhile (fun c => !c.isDigit) = cs := by
      cases cs with
      | nil => rfl
      | cons c cs =>
        exact List.dropWhile_cons_of_neg (by simp [h.isDigit c List.mem_cons_self])
    have htake : cs.takeWhile Char.isDigit = cs := List.takeWhile_eq_self_iff.mpr h.isDigit
    rw [hlabel, hdrop, htake, h.readInt]
    rfl

theorem Suffix.exists_digits (h : Suffix kind n suffix) :
    ∃ cs, suffix = kind.label.toList ++ cs := by
  cases h with
  | plain => exact ⟨[], (List.append_nil _).symm⟩
  | numbered h => exact ⟨_, rfl⟩

theorem Suffix.prereleaseOrder (h : Suffix kind n suffix) :
    prereleaseOrder (String.ofList suffix) = kind.offset + n := by
  unfold Updates.prereleaseOrder
  rw [h.prereleaseNum]
  obtain ⟨cs, rfl⟩ := h.exists_digits
  simp only [startsWith, String.toList_ofList]
  cases kind <;> rfl

theorem Spells.stripped (h : Spells text v) :
    ∃ numerals, List.Forall₂ (fun n s => Numeral n s.toList) v.components numerals ∧
      (v.prerelease = none ∧ lstripV text = joinText '.' numerals ∨
        ∃ kind n suffix, v.prerelease = some (kind, n) ∧ Suffix kind n suffix ∧
          lstripV text =
            joinText '.' numerals ++ String.singleton '-' ++ String.ofList suffix) := by
  cases h with
  | @final k numerals hfinal hnumerals htext =>
    refine ⟨numerals, hnumerals, .inl ⟨hfinal, ?_⟩⟩
    rw [lstripV_of_toList htext, String.ofList_toList]
    rintro c hc rfl
    exact notMem_numerals hnumerals (by decide) (by decide) (List.mem_of_mem_head? hc)
  | @prerelease k n kind numerals suffix hprerelease hnumerals hsuffix htext =>
    refine ⟨numerals, hnumerals, .inr ⟨kind, n, suffix, hprerelease, hsuffix, ?_⟩⟩
    rw [lstripV_of_toList htext]
    · apply String.toList_injective
      simp
    · rintro c hc rfl
      have hnotMem : 'v' ∉ (joinText '.' numerals).toList :=
        notMem_numerals hnumerals (by decide) (by decide)
      cases hchars : (joinText '.' numerals).toList with
      | nil =>
        rw [hchars] at hc
        cases hc
      | cons c cs =>
        rw [hchars] at hc hnotMem
        cases hc
        exact hnotMem List.mem_cons_self

theorem Spells.split (h : Spells text v) :
    ∃ numerals, List.Forall₂ (fun n s => Numeral n s.toList) v.components numerals ∧
      (v.prerelease = none ∧ splitText '-' (lstripV text) = [joinText '.' numerals] ∨
        ∃ kind n suffix, v.prerelease = some (kind, n) ∧ Suffix kind n suffix ∧
          splitText '-' (lstripV text) = [joinText '.' numerals, String.ofList suffix]) := by
  obtain ⟨numerals, hnumerals, hstripped⟩ := h.stripped
  have hdash : '-' ∉ (joinText '.' numerals).toList :=
    notMem_numerals hnumerals (by decide) (by decide)
  refine ⟨numerals, hnumerals, ?_⟩
  rcases hstripped with ⟨hfinal, htext⟩ | ⟨kind, n, suffix, hprerelease, hsuffix, htext⟩
  · refine .inl ⟨hfinal, ?_⟩
    rw [htext, splitText_of_notMem hdash]
  · refine .inr ⟨kind, n, suffix, hprerelease, hsuffix, ?_⟩
    rw [htext, splitText_append hdash, splitText_of_notMem (by simpa using hsuffix.notMem_dash)]

theorem lstripV_lstripV (text : String) : lstripV (lstripV text) = lstripV text := by
  unfold lstripV
  rw [String.toList_ofList, List.dropWhile_idempotent]

theorem parseVersion_lstripV (text : String) : parseVersion (lstripV text) = parseVersion text := by
  unfold parseVersion
  rw [lstripV_lstripV]

theorem parseVersion_of_spells (h : Spells text v) : parseVersion text = v.padded ++ [v.mark] := by
  unfold parseVersion
  obtain ⟨numerals, hnumerals, hsplit⟩ := h.split
  rcases hsplit with ⟨hfinal, hsplit⟩ | ⟨kind, n, suffix, hprerelease, hsuffix, hsplit⟩
  · rw [hsplit]
    dsimp only [List.headD_cons]
    rw [splitText_numerals hnumerals v.components_ne, mapM_readInt_numerals hnumerals]
    simp [Version.mark, hfinal, Version.padded, Version.numbers]
  · have hne : String.ofList suffix ≠ "" := by
      intro hempty
      have hnil := congrArg String.toList hempty
      rw [String.toList_ofList] at hnil
      exact hsuffix.ne_nil hnil
    rw [hsplit]
    dsimp only [List.headD_cons, List.getElem?_cons_succ, List.getElem?_cons_zero]
    rw [splitText_numerals hnumerals v.components_ne, mapM_readInt_numerals hnumerals,
      Option.filter_some, if_pos (decide_eq_true hne)]
    dsimp only
    rw [hsuffix.prereleaseOrder]
    simp [Version.mark, hprerelease, Version.padded, Version.numbers]

theorem Suffix.unique {kind' : PrereleaseKind} {n' : ℕ} (h : Suffix kind n suffix)
    (h' : Suffix kind' n' suffix) : kind = kind' ∧ n = n' := by
  constructor
  · obtain ⟨cs, hcs⟩ := h.exists_digits
    obtain ⟨cs', hcs'⟩ := h'.exists_digits
    rw [hcs] at hcs'
    have hhead := congrArg List.head? hcs'
    cases kind <;> cases kind' <;> first | rfl | cases hhead
  · have hnum := h.prereleaseNum
    rw [h'.prereleaseNum] at hnum
    exact_mod_cast hnum.symm

theorem Spells.unique {v' : Version} (h : Spells text v) (h' : Spells text v') : v = v' := by
  obtain ⟨numerals, hnumerals, hsplit⟩ := h.split
  obtain ⟨numerals', hnumerals', hsplit'⟩ := h'.split
  have hcomponents (hjoined : joinText '.' numerals = joinText '.' numerals') :
      v.components = v'.components := by
    have hsame : numerals = numerals' := by
      rw [← splitText_numerals hnumerals v.components_ne, hjoined,
        splitText_numerals hnumerals' v'.components_ne]
    have hread := mapM_readInt_numerals hnumerals
    rw [hsame, mapM_readInt_numerals hnumerals'] at hread
    exact (List.map_injective_iff.mpr Nat.cast_injective (Option.some.inj hread)).symm
  have heq (hjoined : joinText '.' numerals = joinText '.' numerals')
      (hprerelease : v.prerelease = v'.prerelease) : v = v' := by
    have hsame := hcomponents hjoined
    cases v
    cases v'
    cases hsame
    cases hprerelease
    rfl
  rcases hsplit with ⟨hfinal, hsplit⟩ | ⟨kind, n, suffix, hprerelease, hsuffix, hsplit⟩
  · rcases hsplit' with ⟨hfinal', hsplit'⟩ | ⟨kind', n', suffix', _, _, hsplit'⟩
    · rw [hsplit] at hsplit'
      exact heq (List.cons.inj hsplit').1 (hfinal.trans hfinal'.symm)
    · rw [hsplit] at hsplit'
      cases (List.cons.inj hsplit').2
  · rcases hsplit' with ⟨hfinal', hsplit'⟩ | ⟨kind', n', suffix', hprerelease', hsuffix', hsplit'⟩
    · rw [hsplit] at hsplit'
      cases (List.cons.inj hsplit').2
    · rw [hsplit] at hsplit'
      obtain ⟨hjoined, htail⟩ := List.cons.inj hsplit'
      have hchars := congrArg String.toList (List.cons.inj htail).1
      rw [String.toList_ofList, String.toList_ofList] at hchars
      obtain ⟨rfl, rfl⟩ := hsuffix.unique (hchars ▸ hsuffix')
      exact heq hjoined (hprerelease.trans hprerelease'.symm)

theorem exists_spells (v : Version) : ∃ text, Spells text v := by
  have hnumerals : List.Forall₂ (fun n s => Numeral n s.toList) v.components
      (v.components.map fun n => String.ofList (Nat.toDigits 10 n)) := by
    rw [List.forall₂_map_right_iff, List.forall₂_same]
    intro n _
    rw [String.toList_ofList]
    exact numeral_toDigits n
  cases hprerelease : v.prerelease with
  | none =>
    have htext := (List.nil_append (joinText '.'
      (v.components.map fun n => String.ofList (Nat.toDigits 10 n))).toList).symm
    exact ⟨_, .final (k := 0) hprerelease hnumerals htext⟩
  | some stage =>
    obtain ⟨kind, n⟩ := stage
    exact ⟨String.ofList _, .prerelease (k := 0) hprerelease hnumerals
      (.numbered (numeral_toDigits n)) String.toList_ofList⟩

end Parsing

end Updates

end CaManager
