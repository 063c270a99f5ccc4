import CaManager.Library.Base64
import Mathlib.Data.List.Basic

/-!
# The words of JSON text

JSON text is cut into brackets, commas, colons, quoted texts and words (numbers and names). Quoted
texts are written in printable ASCII alone: other characters are escaped, beyond the first plane
as a pair of surrogates. What is written is cut into what it was written from.
-/

namespace CaManager.Library

inductive JsonToken
  | openArray
  | closeArray
  | openObject
  | closeObject
  | comma
  | colon
  | text (value : String)
  | word (letters : List Char)
  deriving DecidableEq

section Escapes

def isHighSurrogate (u : ℕ) : Bool := 0xd800 ≤ u && u < 0xdc00

def isLowSurrogate (u : ℕ) : Bool := 0xdc00 ≤ u && u < 0xe000

def codeUnits (c : Char) : List ℕ :=
  if c.toNat < 0x10000 then [c.toNat]
  else [0xd800 + (c.toNat - 0x10000) / 0x400, 0xdc00 + (c.toNat - 0x10000) % 0x400]

def joinUnits : List ℕ → Option (List Char)
  | [] => some []
  | [u] => if isHighSurrogate u || isLowSurrogate u then none else some [Char.ofNat u]
  | u :: v :: us =>
    if isHighSurrogate u && isLowSurrogate v then
      (joinUnits us).map (Char.ofNat (0x10000 + (u - 0xd800) * 0x400 + (v - 0xdc00)) :: ·)
    else if isHighSurrogate u || isLowSurrogate u then none
    else (joinUnits (v :: us)).map (Char.ofNat u :: ·)

def hexDigits (u : ℕ) : List Char :=
  [Nat.digitChar (u / 4096), Nat.digitChar (u / 256 % 16), Nat.digitChar (u / 16 % 16),
    Nat.digitChar (u % 16)]

def isPlain (c : Char) : Bool := ' ' ≤ c && c ≤ '~' && c ≠ '"' && c ≠ '\\'

def shortEscape : Char → Option Char
  | '"' => some '"'
  | '\\' => some '\\'
  | '\n' => some 'n'
  | '\r' => some 'r'
  | '\t' => some 't'
  | '\x0c' => some 'f'
  | '\x08' => some 'b'
  | _ => none

def escapeChar (c : Char) : List Char :=
  if isPlain c then [c]
  else
    match shortEscape c with
    | some e => ['\\', e]
    | none => (codeUnits c).flatMap fun u => '\\' :: 'u' :: hexDigits u

def quote (s : String) : List Char := '"' :: (s.toList.flatMap escapeChar ++ ['"'])

end Escapes

section Lexing

def isWordChar (c : Char) : Bool := c.isAlphanum || c = '+' || c = '-' || c = '.'

def isJsonSpace (c : Char) : Bool := c = ' ' || c = '\t' || c = '\n' || c = '\r'

/-- Where the scanner stands: in a quoted text with the units read so far, after its backslash,
or in the digits of an escape with their value and how many follow the next. -/
inductive Scan
  | outside
  | word (letters : List Char)
  | quoted (units : List ℕ)
  | escape (units : List ℕ)
  | hexadecimal (units : List ℕ) (value more : ℕ)

def punctuation : Char → Option JsonToken
  | '[' => some .openArray
  | ']' => some .closeArray
  | '\x7b' => some .openObject
  | '\x7d' => some .closeObject
  | ',' => some .comma
  | ':' => some .colon
  | _ => none

def scanOutside (c : Char) : Option (Scan × List JsonToken) :=
  match punctuation c with
  | some token => some (.outside, [token])
  | none =>
    if isJsonSpace c then some (.outside, [])
    else if c = '"' then some (.quoted [], [])
    else if isWordChar c then some (.word [c], [])
    else none

def longEscape : Char → Option ℕ
  | '"' => some 0x22
  | '\\' => some 0x5c
  | '/' => some 0x2f
  | 'n' => some 0x0a
  | 'r' => some 0x0d
  | 't' => some 0x09
  | 'f' => some 0x0c
  | 'b' => some 0x08
  | _ => none

def scan : Scan → Char → Option (Scan × List JsonToken)
  | .outside, c => scanOutside c
  | .word letters, c =>
    if isWordChar c then some (.word (letters ++ [c]), [])
    else (scanOutside c).map fun next => (next.1, .word letters :: next.2)
  | .quoted units, c =>
    if c = '"' then (joinUnits units).map fun cs => (.outside, [.text (String.ofList cs)])
    else if c = '\\' then some (.escape units, [])
    else if c < ' ' then none
    else some (.quoted (units ++ [c.toNat]), [])
  | .escape units, c =>
    if c = 'u' then some (.hexadecimal units 0 3, [])
    else (longEscape c).map fun u => (.quoted (units ++ [u]), [])
  | .hexadecimal units value more, c =>
    (digitValue 16 c).map fun d =>
      match more with
      | 0 => (.quoted (units ++ [value * 16 + d]), [])
      | more + 1 => (.hexadecimal units (value * 16 + d) more, [])

def scanEnd : Scan → Option (List JsonToken)
  | .outside => some []
  | .word letters => some [.word letters]
  | _ => none

def lexFrom (s : Scan) : List Char → Option (List JsonToken)
  | [] => scanEnd s
  | c :: cs => (scan s c).bind fun next => (lexFrom next.1 cs).map (next.2 ++ ·)

def lex (cs : List Char) : Option (List JsonToken) := lexFrom .outside cs

theorem lexFrom_cons_of_scan {s s' : Scan} {c : Char} (h : scan s c = some (s', []))
    (cs : List Char) : lexFrom s (c :: cs) = lexFrom s' cs := by
  rw [lexFrom, h, Option.bind_some]
  simp only [List.nil_append, Option.map_id_fun', id]

end Lexing

section Quoting

theorem joinUnits_codeUnits (c : Char) (us : List ℕ) :
    joinUnits (codeUnits c ++ us) = (joinUnits us).map (c :: ·) := by
  have hvalid : c.toNat < 0xd800 ∨ 0xdfff < c.toNat ∧ c.toNat < 0x110000 := c.valid
  by_cases hplane : c.toNat < 0x10000
  · have hunits : codeUnits c = [c.toNat] := if_pos hplane
    have hhigh : isHighSurrogate c.toNat = false := by
      simp only [isHighSurrogate, Bool.and_eq_false_iff, decide_eq_false_iff_not]
      omega
    have hlow : isLowSurrogate c.toNat = false := by
      simp only [isLowSurrogate, Bool.and_eq_false_iff, decide_eq_false_iff_not]
      omega
    rw [hunits]
    cases us with
    | nil => simp [joinUnits, hhigh, hlow]
    | cons v us => simp [joinUnits, hhigh, hlow]
  · have hunits : codeUnits c = [0xd800 + (c.toNat - 0x10000) / 0x400,
        0xdc00 + (c.toNat - 0x10000) % 0x400] := if_neg hplane
    have hhigh : isHighSurrogate (0xd800 + (c.toNat - 0x10000) / 0x400) = true := by
      simp only [isHighSurrogate, Bool.and_eq_true, decide_eq_true_eq]
      omega
    have hlow : isLowSurrogate (0xdc00 + (c.toNat - 0x10000) % 0x400) = true := by
      simp only [isLowSurrogate, Bool.and_eq_true, decide_eq_true_eq]
      omega
    have hsum : 0x10000 + (0xd800 + (c.toNat - 0x10000) / 0x400 - 0xd800) * 0x400 +
        (0xdc00 + (c.toNat - 0x10000) % 0x400 - 0xdc00) = c.toNat := by
      omega
    rw [hunits]
    simp only [List.cons_append, List.nil_append, joinUnits, hhigh, hlow, Bool.and_self, if_true,
      hsum, Char.ofNat_toNat]

theorem joinUnits_flatMap (cs : List Char) : joinUnits (cs.flatMap codeUnits) = some cs := by
  induction cs with
  | nil => rfl
  | cons c cs ih => rw [List.flatMap_cons, joinUnits_codeUnits, ih, Option.map_some]

theorem lexFrom_hexDigits (us : List ℕ) {u : ℕ} (hu : u < 0x10000) (rest : List Char) :
    lexFrom (.hexadecimal us 0 3) (hexDigits u ++ rest) = lexFrom (.quoted (us ++ [u])) rest := by
  have hdigit : ∀ d < 16, digitValue 16 (Nat.digitChar d) = some d := fun d hd =>
    digitValue_digitChar hd le_rfl
  have hsum : (((u / 4096) * 16 + u / 256 % 16) * 16 + u / 16 % 16) * 16 + u % 16 = u := by omega
  have h₁ := hdigit (u / 4096) (by omega)
  have h₂ := hdigit (u / 256 % 16) (by omega)
  have h₃ := hdigit (u / 16 % 16) (by omega)
  have h₄ := hdigit (u % 16) (by omega)
  have hstep : ∀ (value more d : ℕ) (c : Char), digitValue 16 c = some d → ∀ cs,
      lexFrom (.hexadecimal us value (more + 1)) (c :: cs) =
        lexFrom (.hexadecimal us (value * 16 + d) more) cs := by
    intro value more d c hc cs
    apply lexFrom_cons_of_scan
    rw [scan, hc, Option.map_some]
  have hlast : ∀ (value d : ℕ) (c : Char), digitValue 16 c = some d → ∀ cs,
      lexFrom (.hexadecimal us value 0) (c :: cs) =
        lexFrom (.quoted (us ++ [value * 16 + d])) cs := by
    intro value d c hc cs
    apply lexFrom_cons_of_scan
    rw [scan, hc, Option.map_some]
  change lexFrom _ (Nat.digitChar _ :: Nat.digitChar _ :: Nat.digitChar _ :: Nat.digitChar _ ::
    rest) = _
  rw [hstep 0 2 _ _ h₁, hstep _ 1 _ _ h₂, hstep _ 0 _ _ h₃, hlast _ _ _ h₄, Nat.zero_mul,
    Nat.zero_add, hsum]

theorem lexFrom_units (us vs : List ℕ) (h : ∀ u ∈ vs, u < 0x10000) (rest : List Char) :
    lexFrom (.quoted us) ((vs.flatMap fun u => '\\' :: 'u' :: hexDigits u) ++ rest) =
      lexFrom (.quoted (us ++ vs)) rest := by
  induction vs generalizing us with
  | nil => simp
  | cons v vs ih =>
    have hstart : ∀ cs, lexFrom (.quoted us) ('\\' :: 'u' :: cs) =
        lexFrom (.hexadecimal us 0 3) cs := by
      intro cs
      have hslash : scan (.quoted us) '\\' = some (.escape us, []) := rfl
      have hunicode : scan (.escape us) 'u' = some (.hexadecimal us 0 3, []) := rfl
      rw [lexFrom_cons_of_scan hslash, lexFrom_cons_of_scan hunicode]
    rw [List.flatMap_cons, List.append_assoc, List.cons_append, List.cons_append, hstart,
      lexFrom_hexDigits us (h v List.mem_cons_self),
      ih _ fun u hu => h u (List.mem_cons_of_mem _ hu), List.append_assoc, List.singleton_append]

theorem codeUnits_lt {c : Char} {u : ℕ} (hu : u ∈ codeUnits c) : u < 0x10000 := by
  have hvalid : c.toNat < 0xd800 ∨ 0xdfff < c.toNat ∧ c.toNat < 0x110000 := c.valid
  unfold codeUnits at hu
  split at hu
  · rwa [List.mem_singleton.mp hu]
  · simp only [List.mem_cons, List.not_mem_nil, or_false] at hu
    omega

theorem lexFrom_escapeChar (us : List ℕ) (c : Char) (rest : List Char) :
    lexFrom (.quoted us) (escapeChar c ++ rest) = lexFrom (.quoted (us ++ codeUnits c)) rest := by
  unfold escapeChar
  split
  next hplain =>
    simp only [isPlain, Bool.and_eq_true, decide_eq_true_eq] at hplain
    obtain ⟨⟨⟨hfrom, hto⟩, hquote⟩, hslash⟩ := hplain
    have hascii : c.toNat < 0x10000 := lt_of_le_of_lt (show c.toNat ≤ '~'.toNat from hto) (by decide)
    have hunits : codeUnits c = [c.toNat] := if_pos hascii
    have hcontrol : ¬c < ' ' := Char.not_lt.mpr hfrom
    rw [hunits, List.singleton_append]
    apply lexFrom_cons_of_scan
    rw [scan, if_neg hquote, if_neg hslash, if_neg hcontrol]
  next =>
    split
    next e he =>
      have hscan : scan (.escape us) e = some (.quoted (us ++ codeUnits c), []) := by
        unfold shortEscape at he
        split at he <;> cases he <;> rfl
      have hslash : scan (.quoted us) '\\' = some (.escape us, []) := rfl
      change lexFrom _ ('\\' :: e :: rest) = _
      rw [lexFrom_cons_of_scan hslash, lexFrom_cons_of_scan hscan]
    next => exact lexFrom_units us _ (fun u hu => codeUnits_lt hu) rest

theorem lexFrom_quote (s : String) (rest : List Char) :
    lexFrom .outside (quote s ++ rest) = (lexFrom .outside rest).map (.text s :: ·) := by
  have hinner : ∀ (cs : List Char) (us : List ℕ) (rest : List Char),
      lexFrom (.quoted us) (cs.flatMap escapeChar ++ rest) =
        lexFrom (.quoted (us ++ cs.flatMap codeUnits)) rest := by
    intro cs
    induction cs with
    | nil => intro us rest; simp
    | cons c cs ih =>
      intro us rest
      rw [List.flatMap_cons, List.append_assoc, lexFrom_escapeChar, ih, List.flatMap_cons,
        List.append_assoc]
  have hclose : lexFrom (.quoted (s.toList.flatMap codeUnits)) ('"' :: rest) =
      (lexFrom .outside rest).map (.text s :: ·) := by
    simp [lexFrom, scan, joinUnits_flatMap]
  have hopen : ∀ cs, lexFrom .outside ('"' :: cs) = lexFrom (.quoted []) cs := by
    intro cs
    exact lexFrom_cons_of_scan rfl cs
  rw [quote, List.cons_append, hopen, List.append_assoc, hinner, List.nil_append,
    List.singleton_append, hclose]

end Quoting

section Words

def EndsWord (rest : List Char) : Prop := ∀ c ∈ rest.head?, isWordChar c = false

theorem lexFrom_word_append (letters w rest : List Char) (hw : ∀ c ∈ w, isWordChar c = true) :
    lexFrom (.word letters) (w ++ rest) = lexFrom (.word (letters ++ w)) rest := by
  induction w generalizing letters with
  | nil => simp
  | cons c w ih =>
    have hscan : scan (.word letters) c = some (.word (letters ++ [c]), []) :=
      if_pos (hw c List.mem_cons_self)
    rw [List.cons_append, lexFrom_cons_of_scan hscan,
      ih _ fun c' hc' => hw c' (List.mem_cons_of_mem _ hc'), List.append_assoc,
      List.singleton_append]

theorem lexFrom_word_end (letters : List Char) {rest : List Char} (hrest : EndsWord rest) :
    lexFrom (.word letters) rest = (lexFrom .outside rest).map (.word letters :: ·) := by
  cases rest with
  | nil => rfl
  | cons c rest =>
    have hc : isWordChar c = false := hrest c rfl
    have hscan : scan (.word letters) c =
        (scanOutside c).map fun next => (next.1, .word letters :: next.2) := by
      rw [scan, hc]
      rfl
    rw [lexFrom, lexFrom, hscan]
    cases hout : scanOutside c with
    | none => simp [scan, hout]
    | some next => simp [scan, hout, Function.comp_def]

theorem scanOutside_of_isWordChar {c : Char} (hc : isWordChar c = true) :
    scanOutside c = some (.word [c], []) := by
  have hne : ∀ d : Char, isWordChar d = false → c ≠ d := by
    rintro d hd rfl
    rw [hc] at hd
    cases hd
  have hmark : punctuation c = none := by
    unfold punctuation
    split
    all_goals first | exact absurd rfl (hne _ (by decide)) | rfl
  have hspace : isJsonSpace c = false := by
    simp [isJsonSpace, hne ' ' (by decide), hne '\t' (by decide), hne '\n' (by decide),
      hne '\r' (by decide)]
  rw [scanOutside, hmark]
  simp [hspace, hne '"' (by decide), hc]

theorem lexFrom_word {w rest : List Char} (hne : w ≠ []) (hw : ∀ c ∈ w, isWordChar c = true)
    (hrest : EndsWord rest) :
    lexFrom .outside (w ++ rest) = (lexFrom .outside rest).map (.word w :: ·) := by
  cases w with
  | nil => exact absurd rfl hne
  | cons c w =>
    have hscan : scan .outside c = some (.word [c], []) :=
      scanOutside_of_isWordChar (hw c List.mem_cons_self)
    rw [List.cons_append, lexFrom_cons_of_scan hscan,
      lexFrom_word_append _ _ _ fun c' hc' => hw c' (List.mem_cons_of_mem _ hc'),
      lexFrom_word_end _ hrest, List.singleton_append]

end Words

section Marks

theorem lexFrom_punctuation {c : Char} {token : JsonToken} (hc : punctuation c = some token)
    (rest : List Char) :
    lexFrom .outside (c :: rest) = (lexFrom .outside rest).map (token :: ·) := by
  have hscan : scan .outside c = some (.outside, [token]) := by
    rw [scan, scanOutside, hc]
  rw [lexFrom, hscan, Option.bind_some]
  rfl

theorem lexFrom_spaces {blanks : List Char} (h : ∀ c ∈ blanks, isJsonSpace c = true)
    (rest : List Char) :
    lexFrom .outside (blanks ++ rest) = lexFrom .outside rest := by
  induction blanks with
  | nil => rfl
  | cons c blanks ih =>
    have hc : isJsonSpace c = true := h c List.mem_cons_self
    have hmark : punctuation c = none := by
      simp only [isJsonSpace, Bool.or_eq_true, decide_eq_true_eq] at hc
      rcases hc with ((rfl | rfl) | rfl) | rfl <;> rfl
    have hscan : scan .outside c = some (.outside, []) := by
      rw [scan, scanOutside, hmark]
      exact if_pos hc
    rw [List.cons_append, lexFrom_cons_of_scan hscan,
      ih fun c' hc' => h c' (List.mem_cons_of_mem _ hc')]

end Marks

section Pieces

/-- Wherever a word may end after the piece of text, it is cut into these tokens. -/
def LexedAs (cs : List Char) (tokens : List JsonToken) : Prop :=
  ∀ rest, EndsWord rest →
    lexFrom .outside (cs ++ rest) = (lexFrom .outside rest).map (tokens ++ ·)

variable {cs cs' : List Char} {ts ts' : List JsonToken}

theorem endsWord_nil : EndsWord [] := by
  intro c hc
  cases hc

theorem endsWord_cons {c : Char} (hc : isWordChar c = false) : EndsWord (c :: cs) := by
  intro d hd
  cases hd
  exact hc

theorem EndsWord.append (h : EndsWord cs) (h' : EndsWord cs') : EndsWord (cs ++ cs') := by
  cases cs with
  | nil => exact h'
  | cons c cs => exact endsWord_cons (h c rfl)

theorem lex_of_lexedAs (h : LexedAs cs ts) : lex cs = some ts := by
  have hlex := h [] endsWord_nil
  rw [List.append_nil] at hlex
  rw [lex, hlex]
  simp [lexFrom, scanEnd]

theorem lexedAs_nil : LexedAs [] [] := by
  intro rest _
  simp

theorem LexedAs.append (h : LexedAs cs ts) (h' : LexedAs cs' ts') (hcs' : EndsWord cs') :
    LexedAs (cs ++ cs') (ts ++ ts') := by
  intro rest hrest
  rw [List.append_assoc, h _ (hcs'.append hrest), h' _ hrest, Option.map_map]
  congr 1
  funext ts''
  exact (List.append_assoc ..).symm

theorem LexedAs.mark {c : Char} {token : JsonToken} (hc : punctuation c = some token)
    (h : LexedAs cs ts) : LexedAs (c :: cs) (token :: ts) := by
  intro rest hrest
  rw [List.cons_append, lexFrom_punctuation hc, h rest hrest, Option.map_map]
  rfl

theorem LexedAs.spaces {blanks : List Char} (hblanks : ∀ c ∈ blanks, isJsonSpace c = true)
    (h : LexedAs cs ts) : LexedAs (blanks ++ cs) ts := by
  intro rest hrest
  rw [List.append_assoc, lexFrom_spaces hblanks, h rest hrest]

theorem LexedAs.quote_append (s : String) (h : LexedAs cs ts) :
    LexedAs (quote s ++ cs) (.text s :: ts) := by
  intro rest hrest
  rw [List.append_assoc, lexFrom_quote, h rest hrest, Option.map_map]
  rfl

theorem lexedAs_word {w : List Char} (hne : w ≠ []) (hw : ∀ c ∈ w, isWordChar c = true) :
    LexedAs w [.word w] := by
  intro rest hrest
  exact lexFrom_word hne hw hrest

theorem lexedAs_name (w : List Char) (hne : w ≠ []) (hw : w.all isWordChar = true) :
    LexedAs w [.word w] :=
  lexedAs_word hne (List.all_eq_true.mp hw)

end Pieces

end CaManager.Library
