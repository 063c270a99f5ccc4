import CaManager.Library.JsonTrees
import CaManager.Library.Texts

/-!
# Lists of texts, written as one text

A list of texts can be joined with a separator. It can be written as JSON. It can also be written as
a scripting language shows its lists, which looks much the same, but the texts are in single quotes
where that is possible and unusual characters have escapes of their own. What is written as JSON is
read again; of what is shown it is said exactly when it is.
-/

namespace CaManager.Library

open JsonTree

section Joined

variable {sep : String} {texts texts' : List String}

theorem toList_intercalate_append (hne : texts ≠ []) :
    (sep.intercalate texts).toList ++ sep.toList =
      texts.flatMap fun s => s.toList ++ sep.toList := by
  induction texts with
  | nil => exact absurd rfl hne
  | cons s ss ih =>
    cases ss with
    | nil => simp
    | cons s' ss' =>
      have hrest := ih (List.cons_ne_nil s' ss')
      rw [String.intercalate_cons_cons, String.toList_append, String.toList_append,
        List.append_assoc, hrest, List.flatMap_cons (x := s)]

theorem intercalate_ne_empty (hne : texts ≠ []) (h : ∀ s ∈ texts, s ≠ "") :
    sep.intercalate texts ≠ "" := by
  intro hempty
  obtain ⟨s, ss, rfl⟩ := List.exists_cons_of_ne_nil hne
  have hs := h s List.mem_cons_self
  cases ss with
  | nil =>
    rw [String.intercalate_singleton] at hempty
    exact hs hempty
  | cons s' ss' =>
    rw [String.intercalate_cons_cons, String.append_eq_empty_iff, String.append_eq_empty_iff]
      at hempty
    exact hs hempty.1.1

theorem flatMap_eq_of_intercalate (h : ∀ s ∈ texts, s ≠ "") (h' : ∀ s ∈ texts', s ≠ "")
    (heq : sep.intercalate texts = sep.intercalate texts') :
    (texts.flatMap fun s => s.toList ++ sep.toList) =
      texts'.flatMap fun s => s.toList ++ sep.toList := by
  by_cases hnil : texts = []
  · rw [hnil, String.intercalate_nil] at heq
    have hnil' : texts' = [] := by
      by_contra hne
      exact intercalate_ne_empty hne h' heq.symm
    rw [hnil, hnil']
  · have hnil' : texts' ≠ [] := by
      intro hempty
      rw [hempty, String.intercalate_nil] at heq
      exact intercalate_ne_empty hnil h heq
    rw [← toList_intercalate_append hnil, heq, toList_intercalate_append hnil']

end Joined

section Words

/-- `split()`: the parts between white space. -/
def words (s : String) : List String :=
  ((s.toList.splitOnP isSpace).filter (· ≠ [])).map String.ofList

variable {s t : String}

end Words

section Listed

variable {element : String → List Char} {texts : List String}

def followers (element : String → List Char) : List String → List Char
  | [] => []
  | s :: ss => ',' :: ' ' :: (element s ++ followers element ss)

def listed (element : String → List Char) : List String → List Char
  | [] => ['[', ']']
  | s :: ss => '[' :: (element s ++ (followers element ss ++ [']']))

theorem head?_listed (element : String → List Char) (texts : List String) :
    (listed element texts).head? = some '[' := by
  cases texts <;> rfl

def ReadAlone (element : String → List Char) (s : String) : Prop :=
  ∀ rest, lexFrom .outside (element s ++ rest) = (lexFrom .outside rest).map (.text s :: ·)

def Unreadable (element : String → List Char) (s : String) : Prop :=
  ∀ rest, lexFrom .outside (element s ++ rest) = none

variable {F : Type*} [FloatText F]

theorem lexFrom_followers (h : ∀ s ∈ texts, ReadAlone element s) (rest : List Char) :
    lexFrom .outside (followers element texts ++ rest) = (lexFrom .outside rest).map
      (tokensOfElements (texts.map fun s => (text s : JsonTree F)) ++ ·) := by
  induction texts with
  | nil => simp [followers, tokensOfElements]
  | cons s ss ih =>
    have hs := h s List.mem_cons_self
    have hrest := ih fun s' hs' => h s' (List.mem_cons_of_mem _ hs')
    have hblank : lexFrom .outside (' ' :: (element s ++ (followers element ss ++ rest))) =
        lexFrom .outside (element s ++ (followers element ss ++ rest)) :=
      lexFrom_cons_of_scan rfl _
    rw [followers, List.cons_append, lexFrom_punctuation rfl, List.cons_append, List.append_assoc,
      hblank, hs, hrest, List.map_cons, tokensOfElements, tokens]
    cases lexFrom .outside rest <;> rfl

theorem loads_listed (h : ∀ s ∈ texts, ReadAlone element s) :
    loads (String.ofList (listed element texts)) =
      some (array (texts.map fun s => (text s : JsonTree F))) := by
  have hcanonical : ∀ ss : List String, AreCanonical (ss.map fun s => (text s : JsonTree F)) := by
    intro ss
    induction ss with
    | nil => trivial
    | cons s ss ih => exact ⟨trivial, ih⟩
  have hlex : lex (listed element texts) =
      some (tokens (array (texts.map fun s => (text s : JsonTree F)))) := by
    cases texts with
    | nil => rfl
    | cons s ss =>
      have hs := h s List.mem_cons_self
      have hrest := lexFrom_followers (F := F) (fun s' hs' => h s' (List.mem_cons_of_mem _ hs'))
        [']']
      rw [lex, listed, lexFrom_punctuation rfl, hs, hrest, lexFrom_punctuation rfl, List.map_cons,
        tokens, tokens]
      simp [lexFrom, scanEnd]
  have harray : (array (texts.map fun s => (text s : JsonTree F))).IsCanonical := by
    rw [IsCanonical]
    exact hcanonical texts
  rw [loads, String.toList_ofList, hlex, Option.bind_some, readTokens_tokens _ harray]
  rfl

theorem lexFrom_followers_eq_none (h : ∀ s ∈ texts, ReadAlone element s ∨ Unreadable element s)
    (hbad : ∃ s ∈ texts, Unreadable element s) (rest : List Char) :
    lexFrom .outside (followers element texts ++ rest) = none := by
  induction texts with
  | nil =>
    obtain ⟨s, hs, _⟩ := hbad
    cases hs
  | cons s ss ih =>
    have hblank : lexFrom .outside (' ' :: (element s ++ (followers element ss ++ rest))) =
        lexFrom .outside (element s ++ (followers element ss ++ rest)) :=
      lexFrom_cons_of_scan rfl _
    rw [followers, List.cons_append, lexFrom_punctuation rfl, List.cons_append, List.append_assoc,
      hblank]
    rcases h s List.mem_cons_self with hread | hunreadable
    · obtain ⟨s', hs', hbad'⟩ := hbad
      rcases List.mem_cons.mp hs' with rfl | hs'
      · rw [hbad' _]
        rfl
      · have hrest := ih (fun s'' hs'' => h s'' (List.mem_cons_of_mem _ hs'')) ⟨s', hs', hbad'⟩
        rw [hread, hrest]
        rfl
    · rw [hunreadable]
      rfl

theorem loads_listed_eq_none (h : ∀ s ∈ texts, ReadAlone element s ∨ Unreadable element s)
    (hbad : ∃ s ∈ texts, Unreadable element s) :
    (loads (String.ofList (listed element texts)) : Option (JsonTree F)) = none := by
  have hlex : lex (listed element texts) = none := by
    cases texts with
    | nil =>
      obtain ⟨s, hs, _⟩ := hbad
      cases hs
    | cons s ss =>
      rw [lex, listed, lexFrom_punctuation rfl]
      rcases h s List.mem_cons_self with hread | hunreadable
      · obtain ⟨s', hs', hbad'⟩ := hbad
        rcases List.mem_cons.mp hs' with rfl | hs'
        · rw [hbad' _]
          rfl
        · have hrest := lexFrom_followers_eq_none
            (fun s'' hs'' => h s'' (List.mem_cons_of_mem _ hs'')) ⟨s', hs', hbad'⟩ [']']
          rw [hread, hrest]
          rfl
      · rw [hunreadable]
        rfl
  rw [loads, String.toList_ofList, hlex]
  rfl

end Listed

section Json

variable {F : Type*} [FloatText F]

/-- `json.dumps` of a list of texts. -/
def dumpsTexts (texts : List String) : String := String.ofList (listed quote texts)

theorem loads_dumpsTexts (texts : List String) :
    loads (dumpsTexts texts) = some (array (texts.map fun s => (text s : JsonTree F))) :=
  loads_listed fun s _ => lexFrom_quote s

end Json

section Repr

/-- The quotes around a text: double ones only if it has single ones and no double ones. -/
def reprQuote (s : String) : Char := if '\'' ∈ s.toList ∧ '"' ∉ s.toList then '"' else '\''

variable (printable : Char → Bool)

/-- A character of a text that is shown in these quotes. Beyond ASCII, what is printable is shown as
it is. -/
def reprChar (quotes c : Char) : List Char :=
  if c = quotes ∨ c = '\\' then ['\\', c]
  else if c = '\t' then ['\\', 't']
  else if c = '\n' then ['\\', 'n']
  else if c = '\r' then ['\\', 'r']
  else if ' ' ≤ c ∧ c < '\x7f' ∨ '\x7f' < c ∧ printable c then [c]
  else if c.toNat < 0x100 then
    ['\\', 'x', Nat.digitChar (c.toNat / 16), Nat.digitChar (c.toNat % 16)]
  else if c.toNat < 0x10000 then '\\' :: 'u' :: hexDigits c.toNat
  else '\\' :: 'U' :: (hexDigits (c.toNat / 0x10000) ++ hexDigits (c.toNat % 0x10000))

/-- `repr` of a text. -/
def reprText (s : String) : List Char :=
  reprQuote s :: (s.toList.flatMap (reprChar printable (reprQuote s)) ++ [reprQuote s])

/-- `str` of a list of texts. -/
def reprTexts (texts : List String) : String := String.ofList (listed (reprText printable) texts)

def ShownAsJson (c : Char) : Prop :=
  c = '\t' ∨ c = '\n' ∨ c = '\r' ∨ ' ' ≤ c ∧ c < '\x7f' ∨ '\x7f' < c ∧ printable c = true ∨
    0x100 ≤ c.toNat ∧ c.toNat < 0x10000

/-- A text that is shown in double quotes, without an escape that JSON has not. -/
structure ShownLikeJson (s : String) : Prop where
  single : '\'' ∈ s.toList
  double : '"' ∉ s.toList
  chars : ∀ c ∈ s.toList, ShownAsJson printable c

variable {printable} {s : String} {us : List ℕ} {c : Char}

theorem lexFrom_short {e : Char} {u : ℕ} (hne : e ≠ 'u') (h : longEscape e = some u)
    (rest : List Char) :
    lexFrom (.quoted us) ('\\' :: e :: rest) = lexFrom (.quoted (us ++ [u])) rest := by
  have hslash : scan (.quoted us) '\\' = some (.escape us, []) := rfl
  have hscan : scan (.escape us) e = some (.quoted (us ++ [u]), []) := by
    rw [scan, if_neg hne, h, Option.map_some]
  rw [lexFrom_cons_of_scan hslash, lexFrom_cons_of_scan hscan]

theorem lexFrom_long {u : ℕ} (hu : u < 0x10000) (rest : List Char) :
    lexFrom (.quoted us) ('\\' :: 'u' :: (hexDigits u ++ rest)) =
      lexFrom (.quoted (us ++ [u])) rest := by
  have hunits := lexFrom_units us [u] (List.forall_mem_singleton.mpr hu) rest
  rwa [List.flatMap_singleton] at hunits

theorem lexFrom_unknown {e : Char} (hne : e ≠ 'u') (h : longEscape e = none) (rest : List Char) :
    lexFrom (.quoted us) ('\\' :: e :: rest) = none := by
  have hslash : scan (.quoted us) '\\' = some (.escape us, []) := rfl
  have hscan : scan (.escape us) e = none := by
    rw [scan, if_neg hne, h, Option.map_none]
  rw [lexFrom_cons_of_scan hslash, lexFrom, hscan, Option.bind_none]

theorem lexFrom_plain (hquote : c ≠ '"') (hslash : c ≠ '\\') (hfrom : ' ' ≤ c)
    (rest : List Char) :
    lexFrom (.quoted us) (c :: rest) = lexFrom (.quoted (us ++ [c.toNat])) rest := by
  apply lexFrom_cons_of_scan
  rw [scan, if_neg hquote, if_neg hslash, if_neg (Char.not_lt.mpr hfrom)]

theorem lexFrom_reprChar (hquote : c ≠ '"') (h : ShownAsJson printable c) (rest : List Char) :
    lexFrom (.quoted us) (reprChar printable '"' c ++ rest) =
      lexFrom (.quoted (us ++ [c.toNat])) rest := by
  unfold reprChar
  split_ifs with hslash htab hnewline hreturn hshown hbyte hunit
  · rw [hslash.resolve_left hquote]
    exact lexFrom_short (by decide) rfl rest
  · rw [htab]
    exact lexFrom_short (by decide) rfl rest
  · rw [hnewline]
    exact lexFrom_short (by decide) rfl rest
  · rw [hreturn]
    exact lexFrom_short (by decide) rfl rest
  · have hfrom : ' ' ≤ c := by
      rcases hshown with ⟨hfrom, -⟩ | ⟨hbeyond, -⟩
      · exact hfrom
      · exact le_of_lt (lt_trans (by decide) hbeyond)
    exact lexFrom_plain hquote (fun heq => hslash (.inr heq)) hfrom rest
  · rcases h with h | h | h | h | h | h
    · exact absurd h htab
    · exact absurd h hnewline
    · exact absurd h hreturn
    · exact absurd (.inl h) hshown
    · exact absurd (.inr h) hshown
    · omega
  · exact lexFrom_long hunit rest
  · rcases h with h | h | h | h | h | h
    · exact absurd h htab
    · exact absurd h hnewline
    · exact absurd h hreturn
    · exact absurd (.inl h) hshown
    · exact absurd (.inr h) hshown
    · exact absurd h.2 hunit

theorem lexFrom_reprChar_eq_none (hquote : c ≠ '"') (h : ¬ ShownAsJson printable c)
    (rest : List Char) : lexFrom (.quoted us) (reprChar printable '"' c ++ rest) = none := by
  simp only [ShownAsJson, not_or] at h
  obtain ⟨htab, hnewline, hreturn, hplain, hprintable, hunit⟩ := h
  have hslash : ¬ (c = '"' ∨ c = '\\') := by
    rintro (heq | rfl)
    · exact hquote heq
    · exact hplain (by decide)
  unfold reprChar
  rw [if_neg hslash, if_neg htab, if_neg hnewline, if_neg hreturn,
    if_neg (not_or.mpr ⟨hplain, hprintable⟩)]
  split_ifs with hbyte hlong
  · exact lexFrom_unknown (by decide) rfl _
  · omega
  · exact lexFrom_unknown (by decide) rfl _

theorem lexFrom_reprChars {cs : List Char} (hquote : '"' ∉ cs)
    (h : ∀ c ∈ cs, ShownAsJson printable c) (rest : List Char) :
    lexFrom (.quoted us) (cs.flatMap (reprChar printable '"') ++ rest) =
      lexFrom (.quoted (us ++ cs.map Char.toNat)) rest := by
  induction cs generalizing us with
  | nil => simp
  | cons c cs ih =>
    have hc : c ≠ '"' := fun heq => hquote (heq ▸ List.mem_cons_self)
    rw [List.flatMap_cons, List.append_assoc, lexFrom_reprChar hc (h c List.mem_cons_self),
      ih (fun hmem => hquote (List.mem_cons_of_mem c hmem))
        (fun c' hc' => h c' (List.mem_cons_of_mem c hc')),
      List.append_assoc, List.singleton_append, List.map_cons]

theorem lexFrom_reprChars_eq_none {cs : List Char} (hquote : '"' ∉ cs)
    (h : ∃ c ∈ cs, ¬ ShownAsJson printable c) (rest : List Char) :
    lexFrom (.quoted us) (cs.flatMap (reprChar printable '"') ++ rest) = none := by
  induction cs generalizing us with
  | nil =>
    obtain ⟨c, hc, _⟩ := h
    cases hc
  | cons c cs ih =>
    have hc : c ≠ '"' := fun heq => hquote (heq ▸ List.mem_cons_self)
    rw [List.flatMap_cons, List.append_assoc]
    by_cases hshown : ShownAsJson printable c
    · obtain ⟨c', hc', hbad⟩ := h
      rcases List.mem_cons.mp hc' with rfl | hc'
      · exact absurd hshown hbad
      · rw [lexFrom_reprChar hc hshown]
        exact ih (fun hmem => hquote (List.mem_cons_of_mem c hmem)) ⟨c', hc', hbad⟩
    · exact lexFrom_reprChar_eq_none hc hshown _

theorem joinUnits_map_toNat (cs : List Char) : joinUnits (cs.map Char.toNat) = some cs := by
  have hunit : ∀ c : Char,
      isHighSurrogate c.toNat = false ∧ isLowSurrogate c.toNat = false := by
    intro c
    have hvalid : c.toNat < 0xd800 ∨ 0xdfff < c.toNat ∧ c.toNat < 0x110000 := c.valid
    simp only [isHighSurrogate, isLowSurrogate, Bool.and_eq_false_iff, decide_eq_false_iff_not]
    omega
  induction cs with
  | nil => rfl
  | cons c cs ih =>
    obtain ⟨hhigh, hlow⟩ := hunit c
    cases cs with
    | nil => simp [joinUnits, hhigh, hlow]
    | cons d ds =>
      rw [List.map_cons, List.map_cons, joinUnits, hhigh, hlow, ← List.map_cons, ih]
      simp

theorem reprQuote_eq_double (h : '\'' ∈ s.toList) (h' : '"' ∉ s.toList) : reprQuote s = '"' :=
  if_pos ⟨h, h'⟩

theorem lexFrom_double (cs : List Char) : lexFrom .outside ('"' :: cs) = lexFrom (.quoted []) cs :=
  lexFrom_cons_of_scan rfl cs

theorem readAlone_reprText (h : ShownLikeJson printable s) : ReadAlone (reprText printable) s := by
  intro rest
  have hclose : lexFrom (.quoted (s.toList.map Char.toNat)) ('"' :: rest) =
      (lexFrom .outside rest).map (.text s :: ·) := by
    simp [lexFrom, scan, joinUnits_map_toNat]
  rw [reprText, reprQuote_eq_double h.single h.double, List.cons_append, lexFrom_double,
    List.append_assoc, lexFrom_reprChars h.double h.chars, List.nil_append, List.singleton_append,
    hclose]

theorem unreadable_reprText (h : ¬ ShownLikeJson printable s) :
    Unreadable (reprText printable) s := by
  intro rest
  by_cases hdouble : '\'' ∈ s.toList ∧ '"' ∉ s.toList
  · have hbad : ∃ c ∈ s.toList, ¬ ShownAsJson printable c := by
      by_contra hnone
      apply h
      refine ⟨hdouble.1, hdouble.2, ?_⟩
      intro c hc
      by_contra hshown
      exact hnone ⟨c, hc, hshown⟩
    rw [reprText, reprQuote_eq_double hdouble.1 hdouble.2, List.cons_append, lexFrom_double,
      List.append_assoc, lexFrom_reprChars_eq_none hdouble.2 hbad]
  · -- a single quote begins no token
    rw [reprText, reprQuote, if_neg hdouble]
    rfl

variable {F : Type*} [FloatText F] {texts : List String}

theorem loads_reprTexts (h : ∀ s ∈ texts, ShownLikeJson printable s) :
    loads (reprTexts printable texts) =
      some (array (texts.map fun s => (text s : JsonTree F))) :=
  loads_listed fun s hs => readAlone_reprText (h s hs)

theorem loads_reprTexts_eq_none (h : ¬ ∀ s ∈ texts, ShownLikeJson printable s) :
    (loads (reprTexts printable texts) : Option (JsonTree F)) = none := by
  apply loads_listed_eq_none
  · intro s _
    by_cases hshown : ShownLikeJson printable s
    · exact .inl (readAlone_reprText hshown)
    · exact .inr (unreadable_reprText hshown)
  · by_contra hnone
    apply h
    intro s hs
    by_contra hshown
    exact hnone ⟨s, hs, unreadable_reprText hshown⟩

end Repr

end CaManager.Library
