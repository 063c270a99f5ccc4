import CaManager.Keys.DownloadOnly
import CaManager.Library.Dictionaries
import CaManager.Library.Rfc4514
import CaManager.Mtls.Extraction

/-!
# Fields of a subject

A subject is made of the fields of a request, stored as text, and its fields are read from that text
again: by the rows of certificates and authorities, for file names, and for the identity that a
proxy presents. The text escapes what the readers do not know of.
-/

namespace CaManager

open Library

class ScriptLibrary where
  isWord : Char → Bool

inductive DnField
  | c
  | st
  | l
  | o
  | ou
  | cn
  | email
  deriving Repr, DecidableEq

namespace DnField

/-- The name of the field where it is checked and looked up; of a mail address, its number. -/
def label : DnField → String
  | c => "C"
  | st => "ST"
  | l => "L"
  | o => "O"
  | ou => "OU"
  | cn => "CN"
  | email => "1.2.840.113549.1.9.1"

/-- `oid_map` -/
def oid : DnField → String
  | c => "2.5.4.6"
  | st => "2.5.4.8"
  | l => "2.5.4.7"
  | o => "2.5.4.10"
  | ou => "2.5.4.11"
  | cn => commonNameOid
  | email => "1.2.840.113549.1.9.1"

end DnField

section Validation

variable [ScriptLibrary]

/-- The characters `\w`. -/
def isWordChar (c : Char) : Bool := c.isAlphanum || c = '_' || ScriptLibrary.isWord c

/-- Some characters, each a letter, a digit, white space or among those given. -/
def wordsAnd (others : List Char) (cs : List Char) : Bool :=
  cs ≠ [] && cs.all fun c => isWordChar c || isSpace c || c ∈ others

/-- `DN_FIELD_PATTERNS`, of texts that end in no line break. -/
def dnFieldPattern : String → Option (List Char → Bool)
  | "CN" => some (wordsAnd ['-', '.', ',', '\u0027', '@', '(', ')', '*'])
  | "O" => some (wordsAnd ['-', '.', ',', '\u0027', '&'])
  | "OU" => some (wordsAnd ['-', '.', ',', '\u0027', '&'])
  | "C" => some fun cs => cs.length = 2 && cs.all Char.isUpper
  | "ST" => some (wordsAnd ['-', '.'])
  | "L" => some (wordsAnd ['-', '.'])
  | _ => none

/-- `dangerous_patterns` -/
def dangerousPatterns : List String :=
  [";", "|", "\u0060", "$", "\\n", "\\r", "\x00", "\n", "\r"]

def maxDnFieldLength : ℕ := 64

/-- `validate_dn_field`: the error, if there is one. -/
def validateDnField (fieldName value : String) : Option String :=
  if value = "" then none
  else
    let value := stripSpaces value
    if maxDnFieldLength < value.length then
      some (fieldName ++ " must be 64 characters or less")
    else if ((dnFieldPattern fieldName).map (· value.toList)) = some false then
      some ("Invalid characters in " ++ fieldName)
    else if dangerousPatterns.any (occursIn · value) then
      some ("Invalid character in " ++ fieldName)
    else none

end Validation

/-- The fields that a subject is made of: each at most once, none empty, and a common name. -/
structure SubjectFields where
  fields : List (DnField × String)
  distinct : (fields.map Prod.fst).Nodup
  given : ∀ f ∈ fields, f.2 ≠ ""
  named : DnField.cn ∈ fields.map Prod.fst

namespace SubjectFields

def value (s : SubjectFields) (f : DnField) : Option String := s.fields.lookup f

def name (s : SubjectFields) : Name := s.fields.map fun f => ⟨f.1.oid, f.2⟩

end SubjectFields

/-- The label of an attribute in the text of a name; others have their numbers. -/
def attributeLabel (oid : String) : String :=
  match oid with
  | "2.5.4.3" => "CN"
  | "2.5.4.7" => "L"
  | "2.5.4.8" => "ST"
  | "2.5.4.10" => "O"
  | "2.5.4.11" => "OU"
  | "2.5.4.6" => "C"
  | "2.5.4.9" => "STREET"
  | "0.9.2342.19200300.100.1.25" => "DC"
  | "0.9.2342.19200300.100.1.1" => "UID"
  | _ => oid

/-- The X.509 library writes names as RFC 4514 has them, the last attribute first. -/
def FormatsNames [X509Library] : Prop :=
  ∀ n : Name, X509Library.rfc4514String n =
    Rfc4514.text (n.reverse.map fun a => (attributeLabel a.oid, a.value))

section Reading

/-- `_DN_FIELD_ALIASES` -/
def dnFieldAliases : List (String × String) :=
  [("CN", "commonName"), ("O", "organizationName"), ("OU", "organizationalUnitName"),
    ("C", "countryName"), ("ST", "stateOrProvinceName"), ("L", "localityName")]

/-- The names that a field is looked for under, each with an equals sign in `prefixes`. -/
def dnNames (field : String) : List String :=
  field :: ((dnFieldAliases.lookup field).toList ++
    ((dnFieldAliases.find? fun entry => entry.2 = field).map Prod.fst).toList)

def readPart (names : List String) (part : String) : Option String :=
  (names.find? fun name => startsWith part (name ++ "=")).map fun name =>
    String.ofList (part.toList.drop (name ++ "=").length)

/-- `_extract_dn_field` -/
def extractDnField (dnString : Option String) (field : String) : String :=
  match dnString.filter (· ≠ "") with
  | none => ""
  | some dn =>
    (((splitText ',' dn).map stripSpaces).findSome? (readPart (dnNames field))).getD ""

def Certificate.dnField (c : Certificate) : DnField → String
  | .email =>
    if extractDnField c.subject "emailAddress" = "" then
      extractDnField c.subject "1.2.840.113549.1.9.1"
    else extractDnField c.subject "emailAddress"
  | f => extractDnField c.subject f.label

def CA.dnField (ca : CA) (f : DnField) : String := extractDnField ca.subject f.label

end Reading

section Parts

variable {label name rest : String} {names : List String} {f g : DnField}

theorem rdropWhile_append_cons {α : Type} {p : α → Bool} {l r : List α} {a : α} (ha : p a = false) :
    (l ++ a :: r).rdropWhile p = l ++ a :: r.rdropWhile p := by
  induction r using List.reverseRecOn with
  | nil =>
    rw [List.rdropWhile_nil]
    exact List.rdropWhile_concat_neg _ _ _ (by simp [ha])
  | append_singleton r b ih =>
    have hsplit : l ++ a :: (r ++ [b]) = (l ++ a :: r) ++ [b] := by simp
    rw [hsplit]
    by_cases hb : p b = true
    · rw [List.rdropWhile_concat_pos _ _ _ hb, List.rdropWhile_concat_pos _ _ _ hb, ih]
    · rw [List.rdropWhile_concat_neg _ _ _ hb, List.rdropWhile_concat_neg _ _ _ hb, hsplit]

def stripEnd (s : String) : String := String.ofList (s.toList.rdropWhile isSpace)

theorem stripSpaces_eq (s : String) :
    stripSpaces s = String.ofList ((s.toList.dropWhile isSpace).rdropWhile isSpace) := rfl

theorem plain_label (f : DnField) :
    (∀ c ∈ f.label.toList, isSpace c = false ∧ c ≠ '=' ∧ c ≠ ',' ∧ c ≠ '\\') ∧
      f.label.toList ≠ [] := by
  have hplain : ∀ c ∈ f.label.toList, isSpace c = false ∧ c ≠ '=' ∧ c ≠ ',' ∧ c ≠ '\\' :=
    List.all_iff_forall_prop.mp (by cases f <;> decide)
  exact ⟨hplain, by cases f <;> decide⟩

theorem stripSpaces_attribute (f : DnField) (value : String) :
    stripSpaces (f.label ++ "=" ++ value) = f.label ++ "=" ++ stripEnd value := by
  obtain ⟨hplain, hne⟩ := plain_label f
  obtain ⟨c, cs, hlabel⟩ := List.exists_cons_of_ne_nil hne
  have hc : isSpace c = false := (hplain c (hlabel ▸ List.mem_cons_self)).1
  have hchars : (f.label ++ "=" ++ value).toList = f.label.toList ++ '=' :: value.toList := by simp
  apply String.toList_injective
  rw [stripSpaces_eq, hchars, hlabel, List.cons_append, List.dropWhile_cons_of_neg (by simp [hc]),
    ← List.cons_append, rdropWhile_append_cons (by decide)]
  simp [stripEnd, hlabel]

theorem startsWith_attribute (hname : '=' ∉ name.toList) (hlabel : '=' ∉ label.toList) :
    startsWith (label ++ "=" ++ rest) (name ++ "=") = decide (name = label) := by
  rw [Bool.eq_iff_iff, decide_eq_true_iff, startsWith, List.isPrefixOf_iff_prefix]
  constructor
  · rintro ⟨after, hafter⟩
    have hchars : name.toList ++ '=' :: after = label.toList ++ '=' :: rest.toList := by
      simpa using hafter
    exact String.toList_injective (eq_of_append_cons hname hlabel hchars).1
  · rintro rfl
    exact ⟨rest.toList, by simp⟩

theorem readPart_attribute (hnames : ∀ name ∈ names, '=' ∉ name.toList)
    (hlabel : '=' ∉ label.toList) :
    readPart names (label ++ "=" ++ rest) = if label ∈ names then some rest else none := by
  unfold readPart
  induction names with
  | nil => rfl
  | cons name names ih =>
    obtain ⟨hname, hnames⟩ := List.forall_mem_cons.mp hnames
    rw [List.find?_cons, startsWith_attribute hname hlabel]
    by_cases heq : name = label
    · subst heq
      have hdrop : (name ++ "=" ++ rest).toList.drop (name ++ "=").length = rest.toList := by
        rw [String.toList_append, ← String.length_toList, List.drop_left]
      simp only [decide_true, Option.map_some, hdrop, String.ofList_toList, List.mem_cons_self,
        if_true]
    · rw [decide_eq_false heq]
      simp only [List.mem_cons, Ne.symm heq, false_or]
      exact ih hnames

end Parts

namespace SubjectFields

def attributes (s : SubjectFields) : List (String × String) :=
  s.fields.reverse.map fun f => (f.1.label, f.2)

section Stored

variable {s : SubjectFields} {f : DnField} {v : String} {α : Type}

theorem attributes_eq (s : SubjectFields) :
    (s.name.reverse.map fun a => (attributeLabel a.oid, a.value)) = s.attributes := by
  unfold name attributes
  rw [← List.map_reverse, List.map_map]
  refine List.map_congr_left fun f _ => ?_
  obtain ⟨field, v⟩ := f
  cases field <;> rfl

theorem attributes_ne_nil (s : SubjectFields) : s.attributes ≠ [] := by
  intro h
  have hnil : s.fields = [] := by simpa [attributes] using h
  have hnamed := s.named
  rw [hnil] at hnamed
  cases hnamed

theorem rdn_attribute (f : DnField) (v : String) :
    Rfc4514.rdn (f.label, v) = f.label ++ "=" ++ Rfc4514.escaped v := rfl

theorem parts_eq (h : ∀ f ∈ s.fields, ',' ∉ f.2.toList) :
    (splitText ',' (Rfc4514.text s.attributes)).map stripSpaces =
      s.fields.reverse.map fun f => f.1.label ++ "=" ++ stripEnd (Rfc4514.escaped f.2) := by
  rw [Rfc4514.splitText_text s.attributes_ne_nil, attributes, List.map_map, List.map_map]
  · exact List.map_congr_left fun f _ => stripSpaces_attribute f.1 _
  · intro a ha
    obtain ⟨f, hf, rfl⟩ := List.mem_map.mp ha
    exact ⟨fun hmem => ((plain_label f.1).1 _ hmem).2.2.1 rfl, h f (List.mem_reverse.mp hf)⟩

theorem text_ne_empty (s : SubjectFields) : Rfc4514.text s.attributes ≠ "" := by
  obtain ⟨a, attributes, heq⟩ := List.exists_cons_of_ne_nil s.attributes_ne_nil
  have hsign : '=' ∈ (Rfc4514.text s.attributes).toList := by
    rw [heq, Rfc4514.text, List.map_cons]
    cases attributes with
    | nil => simp [joinText, Rfc4514.rdn]
    | cons a' attributes =>
      rw [List.map_cons, toList_joinText_cons_cons]
      simp [Rfc4514.rdn]
  intro hempty
  rw [hempty] at hsign
  cases hsign

theorem findSome?_lookup (read : String → α) (f : DnField) (fields : List (DnField × String)) :
    (fields.findSome? fun g => if g.1 = f then some (read g.2) else none) =
      (fields.lookup f).map read := by
  induction fields with
  | nil => rfl
  | cons g fields ih =>
    rw [List.findSome?_cons, List.lookup_cons]
    by_cases hf : g.1 = f
    · simp [hf]
    · rw [if_neg hf, beq_false_of_ne (Ne.symm hf)]
      exact ih

theorem lookup_reverse (s : SubjectFields) (f : DnField) :
    s.fields.reverse.lookup f = s.value f := by
  have hnodup : (s.fields.reverse.map Prod.fst).Nodup := by
    rw [List.map_reverse, List.nodup_reverse]
    exact s.distinct
  ext v
  constructor
  · exact fun h => lookup_of_mem s.distinct (List.mem_reverse.mp (mem_of_lookup h))
  · exact fun h => lookup_of_mem hnodup (List.mem_reverse.mpr (mem_of_lookup h))

theorem findSome?_readPart {names : List String} (hnames : ∀ name ∈ names, '=' ∉ name.toList)
    (hone : ∀ g : DnField, g.label ∈ names ↔ g = f) (written : String → String) :
    ((s.fields.reverse.map fun g => g.1.label ++ "=" ++ written g.2).findSome? (readPart names)) =
      (s.value f).map written := by
  have hread : (readPart names ∘ fun g : DnField × String => g.1.label ++ "=" ++ written g.2) =
      fun g => if g.1 = f then some (written g.2) else none := by
    funext g
    have hlabel : '=' ∉ g.1.label.toList := fun hmem => ((plain_label g.1).1 _ hmem).2.1 rfl
    rw [Function.comp_apply, readPart_attribute hnames hlabel]
    simp only [hone]
  rw [List.findSome?_map, hread, findSome?_lookup, lookup_reverse]

theorem extractDnField_text (h : ∀ f ∈ s.fields, ',' ∉ f.2.toList) {field : String}
    (hnames : ∀ name ∈ dnNames field, '=' ∉ name.toList)
    (hone : ∀ g : DnField, g.label ∈ dnNames field ↔ g = f) :
    extractDnField (some (Rfc4514.text s.attributes)) field =
      ((s.value f).map fun v => stripEnd (Rfc4514.escaped v)).getD "" := by
  unfold extractDnField
  rw [Option.filter_some, if_pos (by simpa using s.text_ne_empty)]
  simp only
  rw [parts_eq h, findSome?_readPart hnames hone fun v => stripEnd (Rfc4514.escaped v)]

theorem extractDnField_none (h : ∀ f ∈ s.fields, ',' ∉ f.2.toList) {field : String}
    (hnames : ∀ name ∈ dnNames field, '=' ∉ name.toList)
    (hnone : ∀ g : DnField, g.label ∉ dnNames field) :
    extractDnField (some (Rfc4514.text s.attributes)) field = "" := by
  unfold extractDnField
  rw [Option.filter_some, if_pos (by simpa using s.text_ne_empty)]
  simp only
  rw [parts_eq h, List.findSome?_map, List.findSome?_eq_none_iff.mpr]
  · rfl
  · intro g _
    have hlabel : '=' ∉ g.1.label.toList := fun hmem => ((plain_label g.1).1 _ hmem).2.1 rfl
    rw [Function.comp_apply, readPart_attribute hnames hlabel, if_neg (hnone g.1)]

theorem comma_notMem_extractDnField (dn : Option String) (field : String) :
    ',' ∉ (extractDnField dn field).toList := by
  unfold extractDnField
  split
  · simp
  · next dn _ =>
    cases hfound : ((splitText ',' dn).map stripSpaces).findSome? (readPart (dnNames field)) with
    | none => simp
    | some out =>
      obtain ⟨part, hpart, hread⟩ := List.exists_of_findSome?_eq_some hfound
      obtain ⟨part, hsplit, rfl⟩ := List.mem_map.mp hpart
      obtain ⟨name, -, rfl⟩ := Option.map_eq_some_iff.mp hread
      intro hmem
      rw [Option.getD_some, String.toList_ofList] at hmem
      have hstrip := List.mem_of_mem_drop hmem
      rw [stripSpaces_eq, String.toList_ofList] at hstrip
      have hpart := (List.dropWhile_suffix isSpace).subset
        ((List.rdropWhile_prefix isSpace _).subset hstrip)
      exact notMem_of_mem_splitText hsplit hpart

theorem dnNames_label (f : DnField) : (∀ name ∈ dnNames f.label, '=' ∉ name.toList) ∧
    ∀ g : DnField, g.label ∈ dnNames f.label ↔ g = f := by
  constructor
  · cases f <;> decide
  · intro g
    cases f <;> cases g <;> decide

theorem dnField_of_subject (h : ∀ f ∈ s.fields, ',' ∉ f.2.toList) {c : Certificate}
    (hsubject : c.subject = some (Rfc4514.text s.attributes)) (f : DnField) :
    c.dnField f = ((s.value f).map fun v => stripEnd (Rfc4514.escaped v)).getD "" := by
  have hlabel := extractDnField_text h (dnNames_label f).1 (dnNames_label f).2
  have hnone : extractDnField c.subject "emailAddress" = "" := by
    rw [hsubject]
    exact extractDnField_none h (by decide) fun g => by cases g <;> decide
  rw [← hsubject] at hlabel
  cases f with
  | email =>
    rw [Certificate.dnField, if_pos hnone]
    exact hlabel
  | _ => exact hlabel

theorem caDnField_of_subject (h : ∀ f ∈ s.fields, ',' ∉ f.2.toList) {ca : CA}
    (hsubject : ca.subject = some (Rfc4514.text s.attributes)) (f : DnField) :
    ca.dnField f = ((s.value f).map fun v => stripEnd (Rfc4514.escaped v)).getD "" := by
  rw [CA.dnField, hsubject]
  exact extractDnField_text h (dnNames_label f).1 (dnNames_label f).2

theorem upper_append (s t : String) : upper (s ++ t) = upper s ++ upper t := by
  apply String.toList_injective
  simp [upper]

theorem upper_label (f : DnField) : upper f.label = f.label := by cases f <;> decide

theorem getCn_text (h : ∀ f ∈ s.fields, ',' ∉ f.2.toList) :
    DownloadOnly.getCn (some (Rfc4514.text s.attributes)) =
      ((s.value .cn).map fun v => stripSpaces (stripEnd (Rfc4514.escaped v))).getD "" := by
  have hread : ((fun part => if startsWith (upper part) "CN=" then
        some (stripSpaces (String.ofList (part.toList.drop 3))) else none) ∘
        fun g : DnField × String => g.1.label ++ "=" ++ stripEnd (Rfc4514.escaped g.2)) =
      fun g => if g.1 = .cn then some (stripSpaces (stripEnd (Rfc4514.escaped g.2))) else none := by
    funext g
    have hupper : upper (g.1.label ++ "=" ++ stripEnd (Rfc4514.escaped g.2)) =
        g.1.label ++ "=" ++ upper (stripEnd (Rfc4514.escaped g.2)) := by
      rw [upper_append, upper_append, upper_label]
      rfl
    have hlabel : '=' ∉ g.1.label.toList := fun hmem => ((plain_label g.1).1 _ hmem).2.1 rfl
    have hstarts := @startsWith_attribute g.1.label "CN" (upper (stripEnd (Rfc4514.escaped g.2)))
      (by decide) hlabel
    have hcn : ("CN" = g.1.label) ↔ g.1 = .cn := by cases g.1 <;> decide
    rw [Function.comp_apply, hupper]
    change (if startsWith _ ("CN" ++ "=") = true then _ else _) = _
    rw [hstarts]
    by_cases hfield : g.1 = .cn
    · rw [if_pos hfield, if_pos (decide_eq_true (hcn.mpr hfield)), hfield]
      simp [DnField.label]
    · rw [if_neg hfield, if_neg]
      simpa [hcn] using hfield
  unfold DownloadOnly.getCn
  rw [Option.filter_some, if_pos (by simpa using s.text_ne_empty)]
  simp only
  rw [parts_eq h, List.findSome?_map, hread,
    findSome?_lookup fun v => stripSpaces (stripEnd (Rfc4514.escaped v)), lookup_reverse]

end Stored

section Parsing

variable {s : SubjectFields}

theorem notMem_of_escaped_eq {v : String} {c : Char} (h : Rfc4514.escaped v = v)
    (hc : 1 < (Rfc4514.escapeChar c).length) : c ∉ v.toList := by
  have hwritten := congrArg String.toList h
  rw [Rfc4514.escaped, String.toList_ofList] at hwritten
  exact Rfc4514.notMem_of_escapeValue_eq hwritten hc

theorem splitUnescaped_append {x y : List Char} {b : Char} (hcomma : ',' ∉ x) (hslash : '\\' ∉ x)
    (hb : b ≠ '\\') :
    Mtls.splitUnescaped b (x ++ ',' :: y) = x :: Mtls.splitUnescaped ',' y := by
  induction x generalizing b with
  | nil => rw [List.nil_append, Mtls.splitUnescaped, if_pos ⟨rfl, hb⟩]
  | cons c x ih =>
    simp only [List.mem_cons, not_or] at hcomma hslash
    rw [List.cons_append, Mtls.splitUnescaped, if_neg (fun h => hcomma.1 h.1.symm),
      ih hcomma.2 hslash.2 (Ne.symm hslash.1)]
    rfl

theorem splitUnescaped_of_notMem {x : List Char} {b : Char} (hcomma : ',' ∉ x) :
    Mtls.splitUnescaped b x = [x] := by
  induction x generalizing b with
  | nil => rfl
  | cons c x ih =>
    simp only [List.mem_cons, not_or] at hcomma
    rw [Mtls.splitUnescaped, if_neg (fun h => hcomma.1 h.1.symm), ih hcomma.2]
    rfl

theorem splitUnescaped_joinText {parts : List String} (hne : parts ≠ [])
    (h : ∀ part ∈ parts, ',' ∉ part.toList ∧ '\\' ∉ part.toList) {b : Char} (hb : b ≠ '\\') :
    Mtls.splitUnescaped b (joinText ',' parts).toList = parts.map String.toList := by
  induction parts generalizing b with
  | nil => exact absurd rfl hne
  | cons part parts ih =>
    obtain ⟨⟨hcomma, hslash⟩, hparts⟩ := List.forall_mem_cons.mp h
    cases parts with
    | nil => simpa [joinText] using splitUnescaped_of_notMem hcomma
    | cons next parts =>
      rw [toList_joinText_cons_cons, splitUnescaped_append hcomma hslash hb,
        ih (List.cons_ne_nil _ _) hparts (by decide)]
      rfl

theorem replaceChars_of_notMem {c : Char} {old new cs : List Char} (h : c ∉ cs) :
    replaceChars (c :: old) new 0 cs = cs := by
  induction cs with
  | nil => rfl
  | cons d cs ih =>
    simp only [List.mem_cons, not_or] at h
    have hprefix : (c :: old).isPrefixOf (d :: cs) = false := by
      simp [List.isPrefixOf, h.1]
    rw [replaceChars, hprefix, if_neg Bool.false_ne_true, ih h.2]

theorem takeWhile_label {l r : List Char} (h : '=' ∉ l) :
    (l ++ '=' :: r).takeWhile (· ≠ '=') = l ∧ ((l ++ '=' :: r).dropWhile (· ≠ '=')).drop 1 = r := by
  have hall : ∀ c ∈ l, decide (c ≠ '=') = true := by
    intro c hc
    exact decide_eq_true fun heq => h (heq ▸ hc)
  rw [List.takeWhile_append_of_pos hall, List.dropWhile_append_of_pos hall]
  simp

def parsePart (part : String) : Option (String × String) :=
  let part := (stripSpaces part).toList
  if '=' ∈ part then
    some (upper (stripSpaces (String.ofList (part.takeWhile (· ≠ '=')))),
      replaceText "\\," "," (stripSpaces (String.ofList ((part.dropWhile (· ≠ '=')).drop 1))))
  else none

theorem parseDnString_eq (dn : String) : Mtls.parseDnString dn =
    (Mtls.splitUnescaped ' ' dn.toList).filterMap fun part => parsePart (String.ofList part) := rfl

theorem parsePart_attribute (f : DnField) {v : String} (hslash : '\\' ∉ v.toList)
    (hend : stripEnd v = v) :
    parsePart (f.label ++ "=" ++ v) = some (f.label, stripSpaces v) := by
  obtain ⟨hplain, -⟩ := plain_label f
  have hlabel : '=' ∉ f.label.toList := fun hmem => (hplain _ hmem).2.1 rfl
  have hchars : (f.label ++ "=" ++ v).toList = f.label.toList ++ '=' :: v.toList := by simp
  obtain ⟨hbefore, hafter⟩ := takeWhile_label (r := v.toList) hlabel
  have hstrip : stripSpaces f.label = f.label := by cases f <;> decide
  have hvalue : replaceText "\\," "," (stripSpaces v) = stripSpaces v := by
    have hin : '\\' ∉ (stripSpaces v).toList := by
      rw [stripSpaces_eq, String.toList_ofList]
      intro hmem
      exact hslash ((List.dropWhile_suffix isSpace).subset
        ((List.rdropWhile_prefix isSpace _).subset hmem))
    apply String.toList_injective
    rw [replaceText, String.toList_ofList]
    exact replaceChars_of_notMem hin
  have hpart : stripSpaces (f.label ++ "=" ++ v) = f.label ++ "=" ++ v := by
    rw [stripSpaces_attribute, hend]
  unfold parsePart
  rw [hpart]
  simp only [hchars, hbefore, hafter, String.ofList_toList, hstrip, upper_label, hvalue]
  simp

theorem parseDnString_text
    (h : ∀ f ∈ s.fields, ',' ∉ f.2.toList ∧ Rfc4514.escaped f.2 = f.2 ∧ stripEnd f.2 = f.2) :
    Mtls.parseDnString (Rfc4514.text s.attributes) =
      s.fields.reverse.map fun f => (f.1.label, stripSpaces f.2) := by
  have hslash : ∀ f ∈ s.fields, '\\' ∉ f.2.toList := by
    intro f hf
    exact notMem_of_escaped_eq (h f hf).2.1 (by decide)
  have hrdn : ∀ f ∈ s.fields, Rfc4514.rdn (f.1.label, f.2) = f.1.label ++ "=" ++ f.2 := by
    intro f hf
    rw [rdn_attribute, (h f hf).2.1]
  have hparts : s.attributes.map Rfc4514.rdn =
      s.fields.reverse.map fun f => f.1.label ++ "=" ++ f.2 := by
    rw [attributes, List.map_map]
    exact List.map_congr_left fun f hf => hrdn f (List.mem_reverse.mp hf)
  have hplain : ∀ part ∈ s.attributes.map Rfc4514.rdn,
      ',' ∉ part.toList ∧ '\\' ∉ part.toList := by
    intro part hpart
    rw [hparts] at hpart
    obtain ⟨f, hf, rfl⟩ := List.mem_map.mp hpart
    have hlabel := (plain_label f.1).1
    have hf := List.mem_reverse.mp hf
    constructor
    · have hcomma : ',' ∉ f.1.label.toList := fun hmem => (hlabel _ hmem).2.2.1 rfl
      simp [hcomma, (h f hf).1]
    · have hback : '\\' ∉ f.1.label.toList := fun hmem => (hlabel _ hmem).2.2.2 rfl
      simp [hback, hslash f hf]
  have hne : s.attributes.map Rfc4514.rdn ≠ [] := by simpa using s.attributes_ne_nil
  rw [parseDnString_eq, Rfc4514.text, splitUnescaped_joinText hne hplain (by decide), hparts,
    List.map_map, List.filterMap_map]
  rw [← List.filterMap_eq_map]
  refine List.filterMap_congr fun f hf => ?_
  have hin := List.mem_reverse.mp hf
  simp only [Function.comp_apply, String.ofList_toList]
  exact parsePart_attribute f.1 (hslash f hin) (h f hin).2.2

theorem dnComponent_text
    (h : ∀ f ∈ s.fields, ',' ∉ f.2.toList ∧ Rfc4514.escaped f.2 = f.2 ∧ stripEnd f.2 = f.2)
    (key : String) : Mtls.dnComponent (Rfc4514.text s.attributes) key =
      (s.fields.map fun f => (f.1.label, stripSpaces f.2)).lookup key := by
  rw [Mtls.dnComponent, parseDnString_text h, ← List.map_reverse, List.reverse_reverse]

end Parsing

section Readers

variable {s : SubjectFields}

/-- What the readers of a subject's text promise: each finds what was put in. -/
structure ReadsBack (s : SubjectFields) (subject : String) : Prop where
  certificate : ∀ c : Certificate, c.subject = some subject →
    ∀ f, c.dnField f = (s.value f).getD ""
  ca : ∀ ca : CA, ca.subject = some subject → ∀ f, ca.dnField f = (s.value f).getD ""
  fileName : DownloadOnly.getCn (some subject) = (s.value .cn).getD ""
  parsed : ∀ key, Mtls.dnComponent subject key =
    (s.fields.map fun f => (f.1.label, f.2)).lookup key

def Plain (value : String) : Prop := Rfc4514.escaped value = value ∧ stripSpaces value = value

theorem Plain.comma_notMem {value : String} (h : Plain value) : ',' ∉ value.toList :=
  notMem_of_escaped_eq h.1 (by decide)

theorem Plain.stripEnd_eq {value : String} (h : Plain value) : stripEnd value = value := by
  have hstrip := congrArg String.toList h.2
  rw [stripSpaces_eq, String.toList_ofList] at hstrip
  apply String.toList_injective
  rw [stripEnd, String.toList_ofList, ← hstrip, List.rdropWhile_idempotent]

theorem plain_of_stripEnd {value : String} (h : stripEnd (Rfc4514.escaped value) = value) :
    Rfc4514.escaped value = value ∧ stripEnd value = value := by
  have hchars := congrArg String.toList h
  rw [stripEnd, Rfc4514.escaped, String.toList_ofList, String.toList_ofList] at hchars
  obtain ⟨hwritten, hend⟩ := Rfc4514.escapeValue_eq_self (by decide) (by decide) hchars
  exact ⟨by rw [Rfc4514.escaped, hwritten, String.ofList_toList],
    by rw [stripEnd, hend, String.ofList_toList]⟩

theorem comma_notMem_dnField (c : Certificate) (f : DnField) : ',' ∉ (c.dnField f).toList := by
  have hextract := comma_notMem_extractDnField c.subject
  cases f with
  | email =>
    unfold Certificate.dnField
    split_ifs
    · exact hextract _
    · exact hextract _
  | _ => exact hextract _

theorem label_injective : Function.Injective DnField.label := by
  intro f g h
  cases f <;> cases g <;> first | rfl | exact absurd h (by decide)

theorem lookup_label {s : SubjectFields} {f : DnField × String} (hf : f ∈ s.fields)
    (read : String → String) :
    (s.fields.map fun f => (f.1.label, read f.2)).lookup f.1.label = some (read f.2) := by
  refine lookup_of_mem ?_ (List.mem_map_of_mem hf)
  have hlabels := s.distinct.map label_injective
  rw [List.map_map] at hlabels ⊢
  exact hlabels

/-- The readers find what was put in exactly if the values are written as they are and have no white
space around them. -/
theorem readsBack_iff [X509Library] (hlib : FormatsNames) (s : SubjectFields) :
    ReadsBack s (X509Library.rfc4514String s.name) ↔ ∀ f ∈ s.fields, Plain f.2 := by
  rw [hlib, attributes_eq]
  constructor
  · intro h
    have hread := h.certificate
      { refid := "", descr := "", subject := some (Rfc4514.text s.attributes) } rfl
    have hvalue : ∀ f ∈ s.fields, s.value f.1 = some f.2 := fun f hf => lookup_of_mem s.distinct hf
    have hcomma : ∀ f ∈ s.fields, ',' ∉ f.2.toList := by
      intro f hf
      have hfield := hread f.1
      rw [hvalue f hf, Option.getD_some] at hfield
      rw [← hfield]
      exact comma_notMem_dnField _ _
    have hplain : ∀ f ∈ s.fields, Rfc4514.escaped f.2 = f.2 ∧ stripEnd f.2 = f.2 := by
      intro f hf
      have hfield := hread f.1
      rw [dnField_of_subject hcomma rfl, hvalue f hf] at hfield
      exact plain_of_stripEnd hfield
    intro f hf
    refine ⟨(hplain f hf).1, ?_⟩
    have hparsed := h.parsed f.1.label
    rw [dnComponent_text fun f hf => ⟨hcomma f hf, hplain f hf⟩, lookup_label hf,
      lookup_label hf fun v => v] at hparsed
    exact Option.some.inj hparsed
  · intro h
    have hcomma : ∀ f ∈ s.fields, ',' ∉ f.2.toList := fun f hf => (h f hf).comma_notMem
    have hvalue : ∀ f v, s.value f = some v → Plain v := fun f v hv => h (f, v) (mem_of_lookup hv)
    have hread : ∀ f, ((s.value f).map fun v => stripEnd (Rfc4514.escaped v)) = s.value f := by
      intro f
      cases hv : s.value f with
      | none => rfl
      | some v => rw [Option.map_some, (hvalue f v hv).1, (hvalue f v hv).stripEnd_eq]
    exact
      { certificate := fun c hc f => by rw [dnField_of_subject hcomma hc, hread]
        ca := fun ca hca f => by rw [caDnField_of_subject hcomma hca, hread]
        fileName := by
          rw [getCn_text hcomma]
          cases hv : s.value .cn with
          | none => rfl
          | some v =>
            have hplain := hvalue _ v hv
            rw [Option.map_some, hplain.1, hplain.stripEnd_eq, hplain.2]
        parsed := fun key => by
          rw [dnComponent_text fun f hf =>
            ⟨hcomma f hf, (h f hf).1, (h f hf).stripEnd_eq⟩]
          congr 1
          exact List.map_congr_left fun f hf => by rw [(h f hf).2] }

end Readers

section Sample

@[reducible] def rfc4514Library : X509Library where
  rfc4514String n := Rfc4514.text (n.reverse.map fun a => (attributeLabel a.oid, a.value))
  nameDigest _ n := joinText '/' (n.map NameAttribute.value)

@[reducible] def asciiScript : ScriptLibrary where
  isWord _ := false

def subjectOf (cn o : String) (hcn : cn ≠ "") (ho : o ≠ "") : SubjectFields where
  fields := [(.cn, cn), (.o, o)]
  distinct := by simp
  given := by simpa using ⟨hcn, ho⟩
  named := by simp

theorem readsBack_plain :
    let _ := rfc4514Library
    let s := subjectOf "www.example.com" "Acme" (by decide) (by decide)
    ReadsBack s (X509Library.rfc4514String s.name) := by
  intro library s
  refine (readsBack_iff (fun _ => rfl) s).mpr ?_
  have hall : ∀ f ∈ [(DnField.cn, "www.example.com"), (DnField.o, "Acme")],
      Rfc4514.escaped f.2 = f.2 ∧ stripSpaces f.2 = f.2 := by
    decide +kernel
  exact hall

/-- An organisation with a comma in its name passes the check, and is cut off at the comma. -/
theorem comma_not_readBack :
    let _ := asciiScript
    let _ := rfc4514Library
    let s := subjectOf "www.example.com" "Acme, Inc" (by decide) (by decide)
    (∀ f ∈ s.fields, validateDnField f.1.label f.2 = none) ∧
      extractDnField (some (X509Library.rfc4514String s.name)) "O" = "Acme\\" ∧
      ¬ ReadsBack s (X509Library.rfc4514String s.name) := by
  intro script library s
  have hread : extractDnField (some (X509Library.rfc4514String s.name)) "O" = "Acme\\" := by
    decide +kernel
  refine ⟨by decide +kernel, hread, fun h => ?_⟩
  have hfield : extractDnField (some (X509Library.rfc4514String s.name)) "O" = "Acme, Inc" :=
    h.certificate { refid := "", descr := "", subject := some (X509Library.rfc4514String s.name) }
      rfl .o
  rw [hread] at hfield
  revert hfield
  decide

end Sample

end SubjectFields

end CaManager
