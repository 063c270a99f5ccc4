import CaManager.Library.IpAddresses
import CaManager.Library.Patterns
import CaManager.Store.Routes
import Mathlib.Algebra.Order.BigOperators.Group.List

/-!
# Entries for alternative names

A request for a certificate can give its alternative names as a list of entries, each with or
without a type in front. The entries are joined, the text is split again, the types are taken off
and each part gets the type that it looks like. The type that an entry states is never read: what
is found is what the entries state only if each entry looks like what it states.
-/

namespace CaManager

open Library

inductive SanType
  | dns
  | ip
  | email
  | uri
  deriving Repr, DecidableEq

namespace SanEntries

/-- The name of a type with a text. An address is known by the text that it is read from. -/
def nameOfType : SanType → String → GeneralName
  | .dns, text => .dns text
  | .ip, text => .ip text
  | .email, text => .email text
  | .uri, text => .uri text

section Entries

def afterWord : List Char → List Char → Option (List Char)
  | [], cs => some cs
  | _ :: _, [] => none
  | c :: word, d :: cs => if Pattern.sameLetter c d then afterWord word cs else none

def sanPrefixes : List (List Char × SanType) :=
  [(['d', 'n', 's', ':'], .dns), (['i', 'p', ':'], .ip), (['e', 'm', 'a', 'i', 'l', ':'], .email),
    (['u', 'r', 'i', ':'], .uri)]

def typePrefix (cs : List Char) : Option (SanType × List Char) :=
  sanPrefixes.findSome? fun (word, type) =>
    (afterWord word cs).map fun rest => (type, rest.dropWhile isSpace)

/-- `entry_clean` -/
def entryClean (cs : List Char) : List Char :=
  match typePrefix cs with
  | some (_, rest) => rest
  | none => cs

def isSeparator (c : Char) : Bool := c = ',' || c = '\n' || c = ';'

def trimmed (cs : List Char) : List Char := (cs.dropWhile isSpace).rdropWhile isSpace

/-- `raw_sans` -/
def rawSans (cs : List Char) : List (List Char) :=
  ((cs.splitOnP isSeparator).map trimmed).filter (· ≠ [])

def detectedType (text : String) : SanType :=
  if (ipAddressOfText text).isSome then .ip
  else if '@' ∈ text.toList then .email
  else .dns

def entryName (cs : List Char) : Option GeneralName :=
  if entryClean cs = [] then none
  else
    let text := String.ofList (entryClean cs)
    some (nameOfType (detectedType text) text)

def parsedNames (cs : List Char) : List GeneralName := (rawSans cs).filterMap entryName

end Entries

section Parts

variable {cs x y : List Char} {c : Char}

theorem trimmed_trimmed (cs : List Char) : trimmed (trimmed cs) = trimmed cs := by
  rw [trimmed, trimmed, dropWhile_rdropWhile, List.rdropWhile_idempotent]

theorem trimmed_cons (hc : isSpace c = true) : trimmed (c :: cs) = trimmed cs := by
  rw [trimmed, List.dropWhile_cons_of_pos hc, trimmed]

theorem trimmed_concat (hc : isSpace c = true) : trimmed (cs ++ [c]) = trimmed cs := by
  unfold trimmed
  rw [List.dropWhile_append]
  cases hdrop : cs.dropWhile isSpace with
  | nil => simp [hc]
  | cons d ds =>
    simp only [List.isEmpty_cons, Bool.false_eq_true, if_false]
    exact List.rdropWhile_concat_pos _ _ _ hc

theorem rawSans_append_cons (hc : isSeparator c = true) :
    rawSans (x ++ c :: y) = rawSans x ++ rawSans y := by
  rw [rawSans, List.splitOnP_append_cons x y hc, List.map_append, List.filter_append, rawSans,
    rawSans]

theorem rawSans_of_forall (h : ∀ c ∈ cs, isSeparator c = false) :
    rawSans cs = [trimmed cs].filter (· ≠ []) := by
  rw [rawSans, List.splitOnP_eq_singleton h, List.map_singleton]

theorem rawSans_nil : rawSans [] = [] := rfl

theorem forall_or_exists_first (cs : List Char) :
    (∀ c ∈ cs, isSeparator c = false) ∨
      ∃ x c y, cs = x ++ c :: y ∧ isSeparator c = true ∧ ∀ d ∈ x, isSeparator d = false := by
  induction cs with
  | nil => exact .inl (by simp)
  | cons d ds ih =>
    cases hd : isSeparator d with
    | true => exact .inr ⟨[], d, ds, rfl, hd, by simp⟩
    | false =>
      rcases ih with hall | ⟨x, c, y, rfl, hc, hx⟩
      · exact .inl (List.forall_mem_cons.mpr ⟨hd, hall⟩)
      · exact .inr ⟨d :: x, c, y, rfl, hc, List.forall_mem_cons.mpr ⟨hd, hx⟩⟩

theorem forall_or_exists_last (cs : List Char) :
    (∀ c ∈ cs, isSeparator c = false) ∨
      ∃ x c y, cs = x ++ c :: y ∧ isSeparator c = true ∧ ∀ d ∈ y, isSeparator d = false := by
  induction cs with
  | nil => exact .inl (by simp)
  | cons d ds ih =>
    rcases ih with hall | ⟨x, c, y, rfl, hc, hy⟩
    · cases hd : isSeparator d with
      | true => exact .inr ⟨[], d, ds, rfl, hd, hall⟩
      | false => exact .inl (List.forall_mem_cons.mpr ⟨hd, hall⟩)
    · exact .inr ⟨d :: x, c, y, rfl, hc, hy⟩

theorem rawSans_cons (hc : isSpace c = true) : rawSans (c :: cs) = rawSans cs := by
  cases hsep : isSeparator c with
  | true => exact rawSans_append_cons (x := []) hsep
  | false =>
    rcases forall_or_exists_first cs with hall | ⟨x, d, y, rfl, hd, hx⟩
    · rw [rawSans_of_forall (List.forall_mem_cons.mpr ⟨hsep, hall⟩), rawSans_of_forall hall,
        trimmed_cons hc]
    · rw [← List.cons_append, rawSans_append_cons hd, rawSans_append_cons hd,
        rawSans_of_forall (List.forall_mem_cons.mpr ⟨hsep, hx⟩), rawSans_of_forall hx,
        trimmed_cons hc]

theorem rawSans_concat (hc : isSpace c = true) : rawSans (cs ++ [c]) = rawSans cs := by
  cases hsep : isSeparator c with
  | true => rw [rawSans_append_cons hsep, rawSans_nil, List.append_nil]
  | false =>
    have hone : ∀ l : List Char, (∀ d ∈ l, isSeparator d = false) →
        ∀ d ∈ l ++ [c], isSeparator d = false := by
      intro l hl d hd
      rcases List.mem_append.mp hd with hd | hd
      · exact hl d hd
      · rw [List.mem_singleton.mp hd, hsep]
    rcases forall_or_exists_last cs with hall | ⟨x, d, y, rfl, hd, hy⟩
    · rw [rawSans_of_forall (hone cs hall), rawSans_of_forall hall, trimmed_concat hc]
    · rw [List.append_assoc, List.cons_append, rawSans_append_cons hd, rawSans_append_cons hd,
        rawSans_of_forall (hone y hy), rawSans_of_forall hy, trimmed_concat hc]

theorem rawSans_append_spaces (h : ∀ c ∈ x, isSpace c = true) :
    rawSans (cs ++ x) = rawSans cs := by
  induction x generalizing cs with
  | nil => rw [List.append_nil]
  | cons c x ih =>
    obtain ⟨hc, hx⟩ := List.forall_mem_cons.mp h
    rw [List.append_cons, ih hx, rawSans_concat hc]

theorem rawSans_spaces_append (h : ∀ c ∈ x, isSpace c = true) :
    rawSans (x ++ cs) = rawSans cs := by
  induction x with
  | nil => rfl
  | cons c x ih =>
    obtain ⟨hc, hx⟩ := List.forall_mem_cons.mp h
    rw [List.cons_append, rawSans_cons hc, ih hx]

theorem rawSans_trimmed (cs : List Char) : rawSans (trimmed cs) = rawSans cs := by
  have hfront : rawSans (cs.dropWhile isSpace) = rawSans cs := by
    have hsplit := List.takeWhile_append_dropWhile (p := isSpace) (l := cs)
    rw [← rawSans_spaces_append fun c hc => List.mem_takeWhile_imp hc, hsplit]
  have hback := List.rdropWhile_append_rtakeWhile (p := isSpace) (l := cs.dropWhile isSpace)
  rw [← hfront, ← hback, rawSans_append_spaces fun c hc => List.mem_rtakeWhile_imp hc]
  rfl

theorem parsedNames_join (entries : List String) :
    parsedNames (",".intercalate entries).toList =
      entries.flatMap fun entry => parsedNames entry.toList := by
  induction entries with
  | nil => rfl
  | cons entry entries ih =>
    cases entries with
    | nil => simp
    | cons next entries =>
      have hchars : (",".intercalate (entry :: next :: entries)).toList =
          entry.toList ++ ',' :: (",".intercalate (next :: entries)).toList := by
        simp [String.intercalate_cons_cons]
      rw [hchars, parsedNames, rawSans_append_cons (by decide), List.filterMap_append,
        List.flatMap_cons, ← ih]
      rfl

end Parts

section Stated

def valueType (text : String) : SanType :=
  if (ipAddressOfText text).isSome then .ip
  else if occursIn "://" text then .uri
  else if '@' ∈ text.toList then .email
  else .dns

def statedType (entry : String) : SanType :=
  match typePrefix (trimmed entry.toList) with
  | some (type, _) => type
  | none => valueType (String.ofList (trimmed entry.toList))

def statedValue (entry : String) : List Char := entryClean (trimmed entry.toList)

def stated (entry : String) : GeneralName :=
  nameOfType (statedType entry) (String.ofList (statedValue entry))

/-- An entry is understood: it has a value without separators, which looks like the type that is
stated. The value begins with no further type where a line break stands between the two. -/
structure Understood (entry : String) : Prop where
  value : statedValue entry ≠ []
  whole : ∀ c ∈ statedValue entry, isSeparator c = false
  type : statedType entry = detectedType (String.ofList (statedValue entry))
  single : (∃ c ∈ trimmed entry.toList, isSeparator c = true) →
    typePrefix (statedValue entry) = none

variable {cs x rest word : List Char} {type type' : SanType} {text text' entry : String}

theorem nameOfType_inj (h : nameOfType type text = nameOfType type' text') :
    type = type' ∧ text = text' := by
  cases type <;> cases type' <;> simp_all [nameOfType]

theorem detectedType_ne_uri (text : String) : detectedType text ≠ .uri := by
  unfold detectedType
  split_ifs <;> exact SanType.noConfusion

theorem afterWord_append (h : afterWord word cs = some rest) (x : List Char) :
    afterWord word (cs ++ x) = some (rest ++ x) := by
  induction word generalizing cs with
  | nil =>
    cases h
    rfl
  | cons c word ih =>
    cases cs with
    | nil => cases h
    | cons d cs =>
      rw [afterWord] at h
      split_ifs at h with hsame
      rw [List.cons_append, afterWord, if_pos hsame, ih h]

theorem exists_of_afterWord (h : afterWord word cs = some rest) :
    ∃ front, cs = front ++ rest ∧ afterWord word front = some [] ∧
      ∀ d ∈ front, ∃ c ∈ word, Pattern.sameLetter c d = true := by
  induction word generalizing cs with
  | nil =>
    cases h
    exact ⟨[], rfl, rfl, by simp⟩
  | cons c word ih =>
    cases cs with
    | nil => cases h
    | cons d cs =>
      rw [afterWord] at h
      split_ifs at h with hsame
      obtain ⟨front, rfl, hfront, hletters⟩ := ih h
      refine ⟨d :: front, rfl, ?_, ?_⟩
      · rw [afterWord, if_pos hsame, hfront]
      · intro d' hd'
        rcases List.mem_cons.mp hd' with rfl | hd'
        · exact ⟨c, List.mem_cons_self, hsame⟩
        · obtain ⟨c', hc', hsame'⟩ := hletters d' hd'
          exact ⟨c', List.mem_cons_of_mem c hc', hsame'⟩

theorem plain_of_capital {d : Char} (h : 65 ≤ d.val.toNat ∧ d.val.toNat ≤ 90) :
    isSeparator d = false ∧ isSpace d = false := by
  have hcode : ∀ n ∈ List.range 26, isSeparator (Char.ofNat (65 + n)) = false ∧
      isSpace (Char.ofNat (65 + n)) = false := by
    decide
  have hd : Char.ofNat (65 + (d.val.toNat - 65)) = d := by
    rw [Nat.add_sub_cancel' h.1]
    exact Char.ofNat_toNat d
  rw [← hd]
  exact hcode _ (List.mem_range.mpr (by omega))

theorem plain_of_sameLetter {c d : Char}
    (hc : c ∈ ['d', 'n', 's', ':', 'i', 'p', 'e', 'm', 'a', 'l', 'u', 'r'])
    (h : Pattern.sameLetter c d = true) : isSeparator d = false ∧ isSpace d = false := by
  have hlist : ∀ c ∈ ['d', 'n', 's', ':', 'i', 'p', 'e', 'm', 'a', 'l', 'u', 'r'],
      isSeparator c = false ∧ isSpace c = false :=
    List.all_iff_forall_prop.mp (by decide)
  simp only [Pattern.sameLetter, Bool.or_eq_true, Bool.and_eq_true, decide_eq_true_eq] at h
  rcases h with (((rfl | hlower) | ⟨_, rfl | rfl⟩) | ⟨_, rfl⟩) | ⟨_, rfl⟩
  · exact hlist d hc
  · rcases toLower_cases d with hsame | ⟨hle, hge, _⟩
    · rw [hsame] at hlower
      exact hlist d (hlower ▸ hc)
    · exact plain_of_capital ⟨hge, hle⟩
  all_goals decide

theorem mem_of_mem_sanPrefixes {c : Char} (hword : (word, type) ∈ sanPrefixes) (hc : c ∈ word) :
    c ∈ ['d', 'n', 's', ':', 'i', 'p', 'e', 'm', 'a', 'l', 'u', 'r'] := by
  have hall : ∀ entry ∈ sanPrefixes,
      entry.1 ⊆ ['d', 'n', 's', ':', 'i', 'p', 'e', 'm', 'a', 'l', 'u', 'r'] := by
    decide
  exact hall _ hword hc

theorem exists_of_typePrefix (h : typePrefix cs = some (type, rest)) :
    ∃ front gap, cs = front ++ (gap ++ rest) ∧ typePrefix front = some (type, []) ∧
      (∀ d ∈ front, isSeparator d = false ∧ isSpace d = false) ∧
      ∀ d ∈ gap, isSpace d = true := by
  obtain ⟨earlier, ⟨word, type'⟩, later, hsplit, hword, hearlier⟩ :=
    List.findSome?_eq_some_iff.mp h
  obtain ⟨after, hafter, heq⟩ := Option.map_eq_some_iff.mp hword
  cases heq
  obtain ⟨front, rfl, hfront, hletters⟩ := exists_of_afterWord hafter
  refine ⟨front, after.takeWhile isSpace, ?_, ?_, ?_, fun d hd => List.mem_takeWhile_imp hd⟩
  · rw [List.takeWhile_append_dropWhile]
  · -- no earlier type is spelled there, or it would be in front of the whole entry
    refine List.findSome?_eq_some_iff.mpr ⟨earlier, (word, type), later, hsplit, ?_, ?_⟩
    · simp [hfront]
    · rintro ⟨word', type'⟩ hmem
      have hnone := Option.map_eq_none_iff.mp (hearlier _ hmem)
      cases hshort : afterWord word' front with
      | none => simp [hshort]
      | some rest =>
        rw [afterWord_append hshort after] at hnone
        cases hnone
  · intro d hd
    obtain ⟨c, hc, hsame⟩ := hletters d hd
    have hmem : (word, type) ∈ sanPrefixes := by
      rw [hsplit]
      exact List.mem_append_right _ List.mem_cons_self
    exact plain_of_sameLetter (mem_of_mem_sanPrefixes hmem hc) hsame

theorem dropWhile_entryClean (h : typePrefix cs = some (type, rest)) :
    rest.dropWhile isSpace = rest := by
  obtain ⟨word, -, hword⟩ := List.exists_of_findSome?_eq_some h
  obtain ⟨after, -, heq⟩ := Option.map_eq_some_iff.mp hword
  cases heq
  exact List.dropWhile_idempotent _ _

def sizeOfName : GeneralName → ℕ
  | .dns text | .ip text | .email text | .uri text => text.length
  | .other _ _ => 0

def valueNames (cs : List Char) : List GeneralName := (entryName cs).toList

theorem entryName_eq_some {name : GeneralName} : entryName cs = some name ↔
    entryClean cs ≠ [] ∧
      name = nameOfType (detectedType (String.ofList (entryClean cs)))
        (String.ofList (entryClean cs)) := by
  unfold entryName
  split_ifs with hempty
  · simp [hempty]
  · simp [hempty, eq_comm]

theorem forall_of_mem_rawSans {part : List Char} (h : part ∈ rawSans cs) :
    ∀ c ∈ part, isSeparator c = false := by
  obtain ⟨part', hpart', rfl⟩ := List.mem_map.mp (List.mem_filter.mp h).1
  intro c hc
  have hin : c ∈ part'.dropWhile isSpace := (List.rdropWhile_prefix isSpace _).subset hc
  exact eq_false_of_mem_splitOnP hpart' c ((List.dropWhile_suffix isSpace).subset hin)

theorem entryClean_suffix (cs : List Char) : entryClean cs <:+ cs := by
  unfold entryClean
  split
  · next type rest h =>
    obtain ⟨front, gap, rfl, -⟩ := exists_of_typePrefix h
    exact ⟨front ++ gap, by simp⟩
  · exact List.suffix_refl cs

theorem of_mem_parsedNames {name : GeneralName} (h : name ∈ parsedNames cs) :
    ∃ value, value ≠ [] ∧ (∀ c ∈ value, isSeparator c = false) ∧
      name = nameOfType (detectedType (String.ofList value)) (String.ofList value) := by
  obtain ⟨part, hpart, hname⟩ := List.mem_filterMap.mp h
  obtain ⟨hne, hname⟩ := entryName_eq_some.mp hname
  refine ⟨entryClean part, hne, ?_, hname⟩
  intro c hc
  exact forall_of_mem_rawSans hpart c ((entryClean_suffix part).subset hc)

theorem parsedNames_of_forall (h : ∀ c ∈ cs, isSeparator c = false) (htrim : trimmed cs = cs) :
    parsedNames cs = valueNames cs := by
  rw [parsedNames, rawSans_of_forall h, htrim, valueNames]
  by_cases hempty : cs = []
  · subst hempty
    rfl
  · rw [List.filter_cons_of_pos (by simpa using hempty), List.filter_nil, List.filterMap_cons]
    cases entryName cs with
    | none => rfl
    | some name => rfl

theorem trimmed_of_forall (h : ∀ c ∈ cs, isSpace c = false) : trimmed cs = cs := by
  have hfront : cs.dropWhile isSpace = cs := by
    rw [List.dropWhile_eq_self_iff]
    intro hne
    simp [h _ (List.getElem_mem hne)]
  rw [trimmed, hfront, List.rdropWhile_eq_self_iff]
  intro hne
  simp [h _ (List.getLast_mem hne)]

theorem trimmed_statedValue (entry : String) : trimmed (statedValue entry) = statedValue entry := by
  have hback : (trimmed entry.toList).rdropWhile isSpace = trimmed entry.toList :=
    List.rdropWhile_idempotent isSpace _
  unfold statedValue entryClean
  split
  · next type rest h =>
    obtain ⟨front, gap, hsplit, -⟩ := exists_of_typePrefix h
    rw [trimmed, dropWhile_entryClean h, List.rdropWhile_eq_self_iff]
    intro hne
    rw [hsplit, ← List.append_assoc, List.rdropWhile_eq_self_iff] at hback
    have hlast := hback (List.append_ne_nil_of_right_ne_nil _ hne)
    rwa [List.getLast_append_of_ne_nil _ hne] at hlast
  · exact trimmed_trimmed _

theorem parsedNames_front {front : List Char} (hfront : typePrefix front = some (type, []))
    (hplain : ∀ d ∈ front, isSeparator d = false ∧ isSpace d = false) : parsedNames front = [] := by
  rw [parsedNames_of_forall (fun d hd => (hplain d hd).1)
    (trimmed_of_forall fun d hd => (hplain d hd).2)]
  have hclean : entryClean front = [] := by rw [entryClean, hfront]
  simp [valueNames, entryName, hclean]

/-- An entry whose value has no separators is read as one part, or without its type where a line
break stands behind that. -/
theorem parsedNames_eq [Decidable (∃ c ∈ trimmed entry.toList, isSeparator c = true)]
    (h : ∀ c ∈ statedValue entry, isSeparator c = false) :
    parsedNames entry.toList =
      if ∃ c ∈ trimmed entry.toList, isSeparator c = true then valueNames (statedValue entry)
      else valueNames (trimmed entry.toList) := by
  have htrim : parsedNames entry.toList = parsedNames (trimmed entry.toList) := by
    rw [parsedNames, parsedNames, rawSans_trimmed]
  split_ifs with hsep
  · cases hprefix : typePrefix (trimmed entry.toList) with
    | none =>
      have hvalue : statedValue entry = trimmed entry.toList := by
        rw [statedValue, entryClean, hprefix]
      obtain ⟨c, hc, hcsep⟩ := hsep
      rw [hvalue] at h
      rw [h c hc] at hcsep
      cases hcsep
    | some found =>
      obtain ⟨type, rest⟩ := found
      have hvalue : statedValue entry = rest := by rw [statedValue, entryClean, hprefix]
      obtain ⟨front, gap, hsplit, hfront, hplain, hgap⟩ := exists_of_typePrefix hprefix
      rw [hvalue] at h
      rw [hsplit] at hsep
      -- the separator stands between the type and the value
      rcases forall_or_exists_last gap with hall | ⟨x, s, y, rfl, hs, hy⟩
      · obtain ⟨c, hc, hcsep⟩ := hsep
        have hnone : isSeparator c = false := by
          simp only [List.mem_append] at hc
          exact hc.elim (fun hc => (hplain c hc).1) fun hc => hc.elim (hall c) (h c)
        rw [hnone] at hcsep
        cases hcsep
      · have hx : ∀ c ∈ x, isSpace c = true := fun c hc => hgap c (List.mem_append_left _ hc)
        have hy' : ∀ c ∈ y, isSpace c = true := fun c hc =>
          hgap c (List.mem_append_right _ (List.mem_cons_of_mem s hc))
        have hparts : front ++ (x ++ s :: y ++ rest) = (front ++ x) ++ s :: (y ++ rest) := by simp
        rw [htrim, hsplit, hparts, parsedNames, rawSans_append_cons hs, rawSans_append_spaces hx,
          rawSans_spaces_append hy', List.filterMap_append]
        change parsedNames front ++ parsedNames rest = _
        rw [parsedNames_front hfront hplain, List.nil_append, hvalue,
          parsedNames_of_forall h (hvalue ▸ trimmed_statedValue entry)]
  · rw [htrim, parsedNames_of_forall ?_ (trimmed_trimmed _)]
    intro c hc
    cases hcsep : isSeparator c with
    | true => exact absurd ⟨c, hc, hcsep⟩ hsep
    | false => rfl

theorem valueNames_of_ne_nil (h : entryClean cs ≠ []) :
    valueNames cs = [nameOfType (detectedType (String.ofList (entryClean cs)))
      (String.ofList (entryClean cs))] := by
  rw [valueNames, entryName_eq_some.mpr ⟨h, rfl⟩]
  rfl

theorem Understood.parsedNames_eq (h : Understood entry) :
    parsedNames entry.toList = [stated entry] := by
  have hclean : entryClean (trimmed entry.toList) = statedValue entry := rfl
  rw [SanEntries.parsedNames_eq h.whole, stated, h.type]
  split_ifs with hsep
  · have hsame : entryClean (statedValue entry) = statedValue entry := by
      rw [entryClean, h.single hsep]
    have hne : entryClean (statedValue entry) ≠ [] := by rw [hsame]; exact h.value
    rw [valueNames_of_ne_nil hne, hsame]
  · rw [valueNames_of_ne_nil h.value, hclean]

def sizes (names : List GeneralName) : ℕ := (names.map sizeOfName).sum

theorem sizeOfName_nameOfType (type : SanType) (text : String) :
    sizeOfName (nameOfType type text) = text.length := by
  cases type <;> rfl

theorem sizes_valueNames_le (cs : List Char) : sizes (valueNames cs) ≤ cs.length := by
  rw [valueNames, entryName]
  split_ifs with hempty
  · exact Nat.zero_le _
  · simpa [sizes, sizeOfName_nameOfType] using (entryClean_suffix cs).length_le

theorem sizes_valueNames_lt (h : typePrefix cs ≠ none) : sizes (valueNames cs) < cs.length := by
  obtain ⟨⟨type, rest⟩, hprefix⟩ := Option.ne_none_iff_exists'.mp h
  obtain ⟨front, gap, rfl, hfront, -⟩ := exists_of_typePrefix hprefix
  have hclean : entryClean (front ++ (gap ++ rest)) = rest := by rw [entryClean, hprefix]
  have hpos : 0 < front.length := by
    rw [List.length_pos_iff]
    rintro rfl
    cases hfront
  have hle : sizes (valueNames (front ++ (gap ++ rest))) ≤ rest.length := by
    rw [valueNames, entryName, hclean]
    split_ifs with hempty
    · exact Nat.zero_le _
    · simp [sizes, sizeOfName_nameOfType]
  simp only [List.length_append]
  omega

theorem eq_of_sum_map_eq {α : Type} {f g : α → ℕ} {l : List α} (hle : ∀ a ∈ l, f a ≤ g a)
    (h : (l.map f).sum = (l.map g).sum) : ∀ a ∈ l, f a = g a := by
  induction l with
  | nil => simp
  | cons a l ih =>
    obtain ⟨ha, hl⟩ := List.forall_mem_cons.mp hle
    have hsum : (l.map f).sum ≤ (l.map g).sum := List.sum_le_sum hl
    simp only [List.map_cons, List.sum_cons] at h
    exact List.forall_mem_cons.mpr ⟨by omega, ih hl (by omega)⟩

theorem understood_of_perm {entries : List String}
    (h : (entries.flatMap fun entry => parsedNames entry.toList).Perm (entries.map stated)) :
    ∀ entry ∈ entries, Understood entry := by
  -- each stated name is found: the values are whole and of the types that they look like
  have hshape : ∀ entry ∈ entries, statedValue entry ≠ [] ∧
      (∀ c ∈ statedValue entry, isSeparator c = false) ∧
      statedType entry = detectedType (String.ofList (statedValue entry)) := by
    intro entry hentry
    have hmem := h.mem_iff.mpr (List.mem_map_of_mem hentry)
    obtain ⟨entry', -, hname⟩ := List.mem_flatMap.mp hmem
    obtain ⟨value, hne, hwhole, heq⟩ := of_mem_parsedNames hname
    obtain ⟨htype, htext⟩ := nameOfType_inj heq
    have hvalue : statedValue entry = value := String.ofList_injective htext
    rw [htype, hvalue]
    exact ⟨hne, hwhole, rfl⟩
  have hsize : ∀ entry, sizeOfName (stated entry) = (statedValue entry).length := by
    intro entry
    rw [stated, sizeOfName_nameOfType, String.length_ofList]
  -- no entry makes more text than it states
  have hle : ∀ entry ∈ entries,
      sizes (parsedNames entry.toList) ≤ sizeOfName (stated entry) := by
    intro entry hentry
    obtain ⟨hne, hwhole, htype⟩ := hshape entry hentry
    rw [parsedNames_eq hwhole, hsize]
    split_ifs with hsep
    · exact sizes_valueNames_le _
    · rw [valueNames_of_ne_nil hne]
      simp [sizes, sizeOfName_nameOfType, statedValue]
  have hsum : (entries.map fun entry => sizes (parsedNames entry.toList)).sum =
      (entries.map fun entry => sizeOfName (stated entry)).sum := by
    have hperm := (h.map sizeOfName).sum_eq
    rw [List.map_flatMap, List.flatMap_def, List.sum_flatten, List.map_map, List.map_map] at hperm
    exact hperm
  intro entry hentry
  obtain ⟨hne, hwhole, htype⟩ := hshape entry hentry
  refine ⟨hne, hwhole, htype, fun hsep => ?_⟩
  by_contra hprefix
  have heq := eq_of_sum_map_eq hle hsum entry hentry
  rw [parsedNames_eq hwhole, if_pos hsep, hsize] at heq
  exact absurd heq (sizes_valueNames_lt hprefix).ne

theorem flatMap_perm_iff {entries : List String} :
    (entries.flatMap fun entry => parsedNames entry.toList).Perm (entries.map stated) ↔
      ∀ entry ∈ entries, Understood entry := by
  constructor
  · exact understood_of_perm
  · intro h
    have heq : (entries.flatMap fun entry => parsedNames entry.toList) = entries.map stated := by
      induction entries with
      | nil => rfl
      | cons entry entries ih =>
        obtain ⟨hentry, hentries⟩ := List.forall_mem_cons.mp h
        rw [List.flatMap_cons, List.map_cons, hentry.parsedNames_eq, ih hentries]
        rfl
    rw [heq]

end Stated

end SanEntries

end CaManager
