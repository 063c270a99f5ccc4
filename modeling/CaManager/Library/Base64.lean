import CaManager.Library.Fallible
import CaManager.Library.Numerals
import Mathlib.Data.List.DropRight

/-!
# Bytes as text

Bytes are written as pairs of hexadecimal digits, and texts as bytes in UTF-8. Both are read back
as they were.
-/

namespace CaManager.Library

abbrev Bytes := List UInt8

section Hexadecimal

def hexByte (b : UInt8) : List Char :=
  [Nat.digitChar (b.toNat / 16), Nat.digitChar (b.toNat % 16)]

def toHex (bs : Bytes) : String := String.ofList (bs.flatMap hexByte)

def fromHexChars : List Char → Option Bytes
  | [] => some []
  | [c] => if isBlank c then some [] else none
  | c :: c' :: cs =>
    if isBlank c then fromHexChars (c' :: cs)
    else do
      let high ← digitValue 16 c
      let low ← digitValue 16 c'
      let rest ← fromHexChars cs
      return UInt8.ofNat (16 * high + low) :: rest

def fromHex (s : String) : Option Bytes := fromHexChars s.toList

@[simp] theorem fromHex_toHex (bs : Bytes) : fromHex (toHex bs) = some bs := by
  rw [fromHex, toHex, String.toList_ofList]
  induction bs with
  | nil => rfl
  | cons b bs ih =>
    have hlt : b.toNat < 256 := b.toNat_lt
    have hhigh : digitValue 16 (Nat.digitChar (b.toNat / 16)) = some (b.toNat / 16) :=
      digitValue_digitChar (by omega) le_rfl
    have hlow : digitValue 16 (Nat.digitChar (b.toNat % 16)) = some (b.toNat % 16) :=
      digitValue_digitChar (by omega) le_rfl
    have hdigit : (digitValue 16 (Nat.digitChar (b.toNat / 16))).isSome := by
      rw [hhigh]
      rfl
    have hblank : isBlank (Nat.digitChar (b.toNat / 16)) = false :=
      isBlank_eq_false_of_digit hdigit
    have hbyte : UInt8.ofNat (16 * (b.toNat / 16) + b.toNat % 16) = b := by
      rw [Nat.div_add_mod, UInt8.ofNat_toNat]
    change fromHexChars (Nat.digitChar _ :: Nat.digitChar _ :: bs.flatMap hexByte) = _
    rw [fromHexChars, if_neg (by rw [hblank]; exact Bool.false_ne_true), hhigh, hlow, ih]
    change some (UInt8.ofNat _ :: bs) = _
    rw [hbyte]

end Hexadecimal

section Texts

def encodeText (s : String) : Bytes := s.toUTF8.data.toList

def decodeText (bs : Bytes) : Option String := String.fromUTF8? ⟨bs.toArray⟩

@[simp] theorem decodeText_encodeText (s : String) : decodeText (encodeText s) = some s := by
  have hbytes : (⟨(encodeText s).toArray⟩ : ByteArray) = s.toUTF8 := by
    rw [encodeText, Array.toArray_toList]
  rw [decodeText, hbytes]
  unfold String.fromUTF8?
  rw [dif_pos (show s.toUTF8.IsValidUTF8 from s.isValidUTF8)]
  rfl

theorem encodeText_ofList (cs : List Char) :
    encodeText (String.ofList cs) = cs.flatMap String.utf8EncodeChar := by
  change (String.ofList cs).toByteArray.data.toList = _
  rw [String.toByteArray_ofList, List.utf8Encode]
  simp

theorem encodeText_ascii {cs : List Char} (h : ∀ c ∈ cs, c.toNat < 0x80) :
    encodeText (String.ofList cs) = cs.map fun c => UInt8.ofNat c.toNat := by
  rw [encodeText_ofList]
  induction cs with
  | nil => rfl
  | cons c cs ih =>
    have hc : String.utf8EncodeChar c = [UInt8.ofNat c.toNat] := by
      have hlt := h c List.mem_cons_self
      simp only [String.utf8EncodeChar, Char.toNat_val]
      rw [if_pos (show c.toNat ≤ 0x7f by omega)]
    rw [List.flatMap_cons, hc, ih fun d hd => h d (List.mem_cons_of_mem _ hd)]
    rfl

theorem length_le_encodeText (s : String) : s.toList.length ≤ (encodeText s).length := by
  rw [← @String.ofList_toList s, encodeText_ofList, String.toList_ofList]
  induction s.toList with
  | nil => exact Nat.le_refl 0
  | cons c cs ih =>
    have hpos : 0 < c.utf8Size := c.utf8Size_pos
    rw [List.flatMap_cons, List.length_append, String.length_utf8EncodeChar, List.length_cons]
    omega

end Texts

end CaManager.Library

/-!
# Base64

Encoding in groups of three bytes, and the lenient decoder: it skips what is no digit, stops
at the padding that completes a group, and fails when the digits end inside one.
-/

namespace CaManager.Library

namespace Base64

def alphabet : List Char :=
  "ABCDEFGHIJKLMNOPQRSTUVWXYZabcdefghijklmnopqrstuvwxyz0123456789+/".toList

def digit (n : ℕ) : Char := alphabet.getD n '='

def value (c : Char) : Option ℕ :=
  if 'A' ≤ c ∧ c ≤ 'Z' then some (c.toNat - 65)
  else if 'a' ≤ c ∧ c ≤ 'z' then some (c.toNat - 71)
  else if '0' ≤ c ∧ c ≤ '9' then some (c.toNat + 4)
  else if c = '+' then some 62
  else if c = '/' then some 63
  else none

def encode : Bytes → List Char
  | [] => []
  | [a] => [digit (a.toNat / 4), digit (a.toNat % 4 * 16), '=', '=']
  | [a, b] =>
    [digit (a.toNat / 4), digit (a.toNat % 4 * 16 + b.toNat / 16), digit (b.toNat % 16 * 4), '=']
  | a :: b :: c :: rest =>
    digit (a.toNat / 4) :: digit (a.toNat % 4 * 16 + b.toNat / 16) ::
      digit (b.toNat % 16 * 4 + c.toNat / 64) :: digit (c.toNat % 64) :: encode rest

/-- The rest of the bytes, where `quadPos` digits of a group have been read, their last bits are
`leftchar`, `pads` padding characters followed them, and `written` bytes have been given. -/
def decodeFrom (quadPos leftchar pads written : ℕ) : List Char → Except String Bytes
  | [] =>
    if quadPos = 0 then .ok []
    else if quadPos = 1 then
      .error (s!"Invalid base64-encoded string: number of data characters ({written / 3 * 4 + 1}) "
        ++ "cannot be 1 more than a multiple of 4")
    else .error "Incorrect padding"
  | c :: cs =>
    if c = '=' then
      if 2 ≤ quadPos then
        if 4 ≤ quadPos + (pads + 1) then .ok []
        else decodeFrom quadPos leftchar (pads + 1) written cs
      else decodeFrom quadPos leftchar pads written cs
    else
      match value c with
      | none => decodeFrom quadPos leftchar pads written cs
      | some v =>
        match quadPos with
        | 0 => decodeFrom 1 v 0 written cs
        | 1 => (UInt8.ofNat (leftchar * 4 + v / 16) :: ·) <$> decodeFrom 2 (v % 16) 0 (written + 1) cs
        | 2 => (UInt8.ofNat (leftchar * 16 + v / 4) :: ·) <$> decodeFrom 3 (v % 4) 0 (written + 1) cs
        | _ => (UInt8.ofNat (leftchar * 64 + v) :: ·) <$> decodeFrom 0 0 0 (written + 1) cs

def decode (cs : List Char) : Except String Bytes :=
  decodeFrom 0 0 0 0 cs

def b64encode (bs : Bytes) : String :=
  String.ofList (encode bs)

def b64decode (s : String) : Except String Bytes :=
  if s.toList.all fun c => c.toNat < 128 then decode s.toList
  else .error "string argument should contain only ASCII characters"

section Digits

theorem value_digit {n : ℕ} (h : n < 64) : value (digit n) = some n := by
  have hall : ∀ m : Fin 64, value (digit m) = some m.val := by decide +kernel
  exact hall ⟨n, h⟩

theorem digit_ne_pad {n : ℕ} (h : n < 64) : digit n ≠ '=' := by
  intro hpad
  have hvalue := value_digit h
  rw [hpad] at hvalue
  cases hvalue

theorem digit_ascii {n : ℕ} (h : n < 64) : (digit n).toNat < 128 := by
  have hall : ∀ m : Fin 64, (digit m).toNat < 128 := by decide +kernel
  exact hall ⟨n, h⟩

variable {n : ℕ} (l p w : ℕ) (cs : List Char)

theorem decodeFrom_first (h : n < 64) :
    decodeFrom 0 l p w (digit n :: cs) = decodeFrom 1 n 0 w cs := by
  simp [decodeFrom, digit_ne_pad h, value_digit h]

theorem decodeFrom_second (h : n < 64) :
    decodeFrom 1 l p w (digit n :: cs) =
      (UInt8.ofNat (l * 4 + n / 16) :: ·) <$> decodeFrom 2 (n % 16) 0 (w + 1) cs := by
  simp [decodeFrom, digit_ne_pad h, value_digit h]

theorem decodeFrom_third (h : n < 64) :
    decodeFrom 2 l p w (digit n :: cs) =
      (UInt8.ofNat (l * 16 + n / 4) :: ·) <$> decodeFrom 3 (n % 4) 0 (w + 1) cs := by
  simp [decodeFrom, digit_ne_pad h, value_digit h]

theorem decodeFrom_fourth (h : n < 64) :
    decodeFrom 3 l p w (digit n :: cs) =
      (UInt8.ofNat (l * 64 + n) :: ·) <$> decodeFrom 0 0 0 (w + 1) cs := by
  simp [decodeFrom, digit_ne_pad h, value_digit h]

end Digits

theorem ofNat_eq {n : ℕ} {b : UInt8} (h : n = b.toNat) : UInt8.ofNat n = b := by
  rw [h, UInt8.ofNat_toNat]

theorem decodeFrom_encode (w : ℕ) (bs : Bytes) : decodeFrom 0 0 0 w (encode bs) = .ok bs := by
  induction bs using encode.induct generalizing w with
  | case1 => rfl
  | case2 a =>
    have ha := a.toNat_lt
    have hbyte : UInt8.ofNat (a.toNat / 4 * 4 + a.toNat % 4 * 16 / 16) = a := ofNat_eq (by omega)
    rw [encode, decodeFrom_first _ _ _ _ (by omega), decodeFrom_second _ _ _ _ (by omega), hbyte]
    rfl
  | case3 a b =>
    have ha := a.toNat_lt
    have hb := b.toNat_lt
    have hfirst : UInt8.ofNat (a.toNat / 4 * 4 + (a.toNat % 4 * 16 + b.toNat / 16) / 16) = a :=
      ofNat_eq (by omega)
    have hsecond :
        UInt8.ofNat ((a.toNat % 4 * 16 + b.toNat / 16) % 16 * 16 + b.toNat % 16 * 4 / 4) = b :=
      ofNat_eq (by omega)
    rw [encode, decodeFrom_first _ _ _ _ (by omega), decodeFrom_second _ _ _ _ (by omega),
      decodeFrom_third _ _ _ _ (by omega), hfirst, hsecond]
    rfl
  | case4 a b c rest ih =>
    have ha := a.toNat_lt
    have hb := b.toNat_lt
    have hc := c.toNat_lt
    have hfirst : UInt8.ofNat (a.toNat / 4 * 4 + (a.toNat % 4 * 16 + b.toNat / 16) / 16) = a :=
      ofNat_eq (by omega)
    have hsecond : UInt8.ofNat ((a.toNat % 4 * 16 + b.toNat / 16) % 16 * 16 +
        (b.toNat % 16 * 4 + c.toNat / 64) / 4) = b := ofNat_eq (by omega)
    have hthird : UInt8.ofNat ((b.toNat % 16 * 4 + c.toNat / 64) % 4 * 64 + c.toNat % 64) = c :=
      ofNat_eq (by omega)
    rw [encode, decodeFrom_first _ _ _ _ (by omega), decodeFrom_second _ _ _ _ (by omega),
      decodeFrom_third _ _ _ _ (by omega), decodeFrom_fourth _ _ _ _ (by omega), ih, hfirst,
      hsecond, hthird]
    rfl

theorem ascii_of_mem_encode {bs : Bytes} {c : Char} (h : c ∈ encode bs) : c.toNat < 128 := by
  have hpad : ('=' : Char).toNat < 128 := by decide
  induction bs using encode.induct with
  | case1 => cases h
  | case2 a =>
    have ha := a.toNat_lt
    simp only [encode, List.mem_cons, List.not_mem_nil, or_false] at h
    rcases h with rfl | rfl | rfl | rfl
    · exact digit_ascii (by omega)
    · exact digit_ascii (by omega)
    · exact hpad
    · exact hpad
  | case3 a b =>
    have ha := a.toNat_lt
    have hb := b.toNat_lt
    simp only [encode, List.mem_cons, List.not_mem_nil, or_false] at h
    rcases h with rfl | rfl | rfl | rfl
    · exact digit_ascii (by omega)
    · exact digit_ascii (by omega)
    · exact digit_ascii (by omega)
    · exact hpad
  | case4 a b c' rest ih =>
    have ha := a.toNat_lt
    have hb := b.toNat_lt
    have hc := c'.toNat_lt
    simp only [encode, List.mem_cons] at h
    rcases h with rfl | rfl | rfl | rfl | h
    · exact digit_ascii (by omega)
    · exact digit_ascii (by omega)
    · exact digit_ascii (by omega)
    · exact digit_ascii (by omega)
    · exact ih h

@[simp] theorem b64decode_b64encode (bs : Bytes) : b64decode (b64encode bs) = .ok bs := by
  have hascii : ((encode bs).all fun c => c.toNat < 128) = true :=
    List.all_eq_true.mpr fun c hc => decide_eq_true (ascii_of_mem_encode hc)
  unfold b64decode b64encode
  rw [String.toList_ofList, if_pos hascii]
  exact decodeFrom_encode 0 bs

end Base64

end CaManager.Library

/-!
# Base64 in addresses

The alphabet that is safe in addresses, written without its padding. A reader that gives some
padding back, always at least one character of it, reads what was written.
-/

namespace CaManager.Library

def rstrip (c : Char) (s : String) : String := String.ofList (s.toList.rdropWhile (· = c))

namespace Base64

def digits : Bytes → List Char
  | [] => []
  | [a] => [digit (a.toNat / 4), digit (a.toNat % 4 * 16)]
  | [a, b] =>
    [digit (a.toNat / 4), digit (a.toNat % 4 * 16 + b.toNat / 16), digit (b.toNat % 16 * 4)]
  | a :: b :: c :: rest =>
    digit (a.toNat / 4) :: digit (a.toNat % 4 * 16 + b.toNat / 16) ::
      digit (b.toNat % 16 * 4 + c.toNat / 64) :: digit (c.toNat % 64) :: digits rest

def pads (n : ℕ) : List Char := List.replicate n '='

def urlChar (c : Char) : Char := if c = '+' then '-' else if c = '/' then '_' else c

def plainChar (c : Char) : Char := if c = '-' then '+' else if c = '_' then '/' else c

def urlsafeB64encode (bs : Bytes) : String := String.ofList ((encode bs).map urlChar)

def urlsafeB64decode (s : String) : Except String Bytes :=
  if s.toList.all fun c => c.toNat < 128 then decode (s.toList.map plainChar)
  else .error "string argument should contain only ASCII characters"

/-- The text up to the next multiple of four characters; a text that has one gets four more. -/
def pad (s : String) : String := String.ofList (s.toList ++ pads (4 - s.toList.length % 4))

section Padding

def missing (bs : Bytes) : ℕ := (3 - bs.length % 3) % 3

theorem encode_eq_digits (bs : Bytes) : encode bs = digits bs ++ pads (missing bs) := by
  induction bs using digits.induct with
  | case1 => rfl
  | case2 a => rfl
  | case3 a b => rfl
  | case4 a b c rest ih =>
    have hmissing : missing (a :: b :: c :: rest) = missing rest := by
      simp only [missing, List.length_cons]
      omega
    rw [encode, digits, ih, hmissing]
    rfl

theorem exists_digit_of_mem_digits {bs : Bytes} {c : Char} (h : c ∈ digits bs) :
    ∃ n < 64, c = digit n := by
  induction bs using digits.induct with
  | case1 => cases h
  | case2 a =>
    have ha := a.toNat_lt
    simp only [digits, List.mem_cons, List.not_mem_nil, or_false] at h
    rcases h with rfl | rfl
    · exact ⟨_, by omega, rfl⟩
    · exact ⟨_, by omega, rfl⟩
  | case3 a b =>
    have ha := a.toNat_lt
    have hb := b.toNat_lt
    simp only [digits, List.mem_cons, List.not_mem_nil, or_false] at h
    rcases h with rfl | rfl | rfl
    · exact ⟨_, by omega, rfl⟩
    · exact ⟨_, by omega, rfl⟩
    · exact ⟨_, by omega, rfl⟩
  | case4 a b c' rest ih =>
    have ha := a.toNat_lt
    have hb := b.toNat_lt
    have hc := c'.toNat_lt
    simp only [digits, List.mem_cons] at h
    rcases h with rfl | rfl | rfl | rfl | h
    · exact ⟨_, by omega, rfl⟩
    · exact ⟨_, by omega, rfl⟩
    · exact ⟨_, by omega, rfl⟩
    · exact ⟨_, by omega, rfl⟩
    · exact ih h

theorem missing_le (bs : Bytes) : missing bs ≤ 4 - (digits bs).length % 4 := by
  induction bs using digits.induct with
  | case1 => simp [missing]
  | case2 a => simp [missing, digits]
  | case3 a b => simp [missing, digits]
  | case4 a b c rest ih =>
    simp only [missing, digits, List.length_cons] at ih ⊢
    omega

theorem decodeFrom_append_pads {quadPos leftchar padding written k : ℕ} {cs : List Char}
    {bs : Bytes} (h : decodeFrom quadPos leftchar padding written cs = .ok bs) :
    decodeFrom quadPos leftchar padding written (cs ++ pads k) = .ok bs := by
  induction cs generalizing quadPos leftchar padding written bs with
  | nil =>
    rw [decodeFrom] at h
    split_ifs at h with hpos
    subst hpos
    induction k with
    | zero => exact h
    | succ k ih => simpa [pads, List.replicate_succ, decodeFrom] using ih
  | cons c cs ih =>
    rw [List.cons_append]
    simp only [decodeFrom] at h ⊢
    split_ifs at h ⊢ with hpad hquad hfull
    · exact h
    · exact ih h
    · exact ih h
    · cases hvalue : value c with
      | none =>
        rw [hvalue] at h
        exact ih h
      | some v =>
        rw [hvalue] at h
        -- the first digit of a group only waits, each later one gives a byte
        rcases quadPos with _ | _ | _ | quadPos
        · exact ih h
        all_goals
          obtain ⟨rest, hrest, hbytes⟩ := map_eq_ok.mp h
          exact map_eq_ok.mpr ⟨rest, ih hrest, hbytes⟩

theorem decode_digits {bs : Bytes} {k : ℕ} (h : missing bs ≤ k) :
    decode (digits bs ++ pads k) = .ok bs := by
  have hpads : pads k = pads (missing bs) ++ pads (k - missing bs) := by
    rw [pads, pads, pads, ← List.replicate_add, Nat.add_sub_cancel' h]
  rw [hpads, ← List.append_assoc, ← encode_eq_digits]
  exact decodeFrom_append_pads (decodeFrom_encode 0 bs)

end Padding

section Alphabets

theorem plainChar_urlChar {n : ℕ} (h : n < 64) : plainChar (urlChar (digit n)) = digit n := by
  have hall : ∀ m : Fin 64, plainChar (urlChar (digit m)) = digit m := by decide +kernel
  exact hall ⟨n, h⟩

/-- The characters of an address that are digits: letters, numbers, `-` and `_`. -/
def isUrlDigit (c : Char) : Bool := c.isAlphanum || c = '-' || c = '_'

theorem isUrlDigit_urlChar {n : ℕ} (h : n < 64) : isUrlDigit (urlChar (digit n)) = true := by
  have hall : ∀ m : Fin 64, isUrlDigit (urlChar (digit m)) = true := by decide +kernel
  exact hall ⟨n, h⟩

theorem ascii_of_isUrlDigit {c : Char} (h : isUrlDigit c = true) : c.toNat < 0x80 := by
  have hletters : c.isAlpha = (decide (c.val ≥ 'A'.val ∧ c.val ≤ 'Z'.val) ||
      (c.val ≥ 'a'.val && c.val ≤ 'z'.val)) := rfl
  simp only [isUrlDigit, Char.isAlphanum, hletters, Char.isDigit, Bool.or_eq_true,
    Bool.and_eq_true, decide_eq_true_eq, UInt32.le_iff_toNat_le, ge_iff_le] at h
  have hval : c.val.toNat = c.toNat := rfl
  rcases h with (((⟨_, h⟩ | ⟨_, h⟩) | ⟨_, h⟩) | rfl) | rfl
  · exact hval ▸ lt_of_le_of_lt h (by decide)
  · exact hval ▸ lt_of_le_of_lt h (by decide)
  · exact hval ▸ lt_of_le_of_lt h (by decide)
  · decide
  · decide

theorem urlChar_ascii {n : ℕ} (h : n < 64) : (urlChar (digit n)).toNat < 128 := by
  have hall : ∀ m : Fin 64, (urlChar (digit m)).toNat < 128 := by decide +kernel
  exact hall ⟨n, h⟩

theorem plainChar_pads (k : ℕ) : (pads k).map plainChar = pads k := by
  rw [pads, List.map_replicate]
  rfl

theorem urlChar_pads (k : ℕ) : (pads k).map urlChar = pads k := by
  rw [pads, List.map_replicate]
  rfl

end Alphabets

section Unpadded

def unpadded (bs : Bytes) : String := rstrip '=' (urlsafeB64encode bs)

theorem isUrlDigit_of_mem {bs : Bytes} {c : Char} (h : c ∈ (digits bs).map urlChar) :
    isUrlDigit c = true := by
  obtain ⟨d, hd, rfl⟩ := List.mem_map.mp h
  obtain ⟨n, hn, rfl⟩ := exists_digit_of_mem_digits hd
  exact isUrlDigit_urlChar hn

theorem rdropWhile_append_pads {cs : List Char} (h : '=' ∉ cs) (k : ℕ) :
    (cs ++ pads k).rdropWhile (· = '=') = cs := by
  induction k with
  | zero =>
    rw [pads, List.replicate_zero, List.append_nil, List.rdropWhile_eq_self_iff]
    intro hne hlast
    exact h (of_decide_eq_true hlast ▸ List.getLast_mem hne)
  | succ k ih =>
    rw [pads, List.replicate_succ', ← List.append_assoc, List.rdropWhile_concat_pos]
    · exact ih
    · rfl

theorem toList_unpadded (bs : Bytes) : (unpadded bs).toList = (digits bs).map urlChar := by
  have hpad : '=' ∉ (digits bs).map urlChar := by
    intro hmem
    have hdigit := isUrlDigit_of_mem hmem
    revert hdigit
    decide
  rw [unpadded, rstrip, urlsafeB64encode, String.toList_ofList, String.toList_ofList,
    encode_eq_digits, List.map_append, urlChar_pads, rdropWhile_append_pads hpad]

theorem length_le_unpadded (bs : Bytes) : bs.length ≤ (unpadded bs).toList.length := by
  rw [toList_unpadded, List.length_map]
  induction bs using digits.induct with
  | case1 => exact Nat.le_refl 0
  | case2 a => exact Nat.le_succ 1
  | case3 a b => exact Nat.le_succ 2
  | case4 a b c rest ih =>
    simp only [digits, List.length_cons]
    omega

theorem isUrlDigit_of_mem_unpadded {bs : Bytes} {c : Char} (h : c ∈ (unpadded bs).toList) :
    isUrlDigit c = true := by
  rw [toList_unpadded] at h
  exact isUrlDigit_of_mem h

theorem map_plainChar_digits (bs : Bytes) :
    ((digits bs).map urlChar).map plainChar = digits bs := by
  rw [List.map_map]
  refine (List.map_congr_left fun c hc => ?_).trans (List.map_id _)
  obtain ⟨n, hn, rfl⟩ := exists_digit_of_mem_digits hc
  exact plainChar_urlChar hn

theorem ascii_pads (k : ℕ) : ((pads k).all fun c => c.toNat < 128) = true := by
  rw [pads, List.all_replicate]
  simp

theorem ascii_digits (bs : Bytes) :
    (((digits bs).map urlChar).all fun c => c.toNat < 128) = true := by
  rw [List.all_eq_true]
  intro c hc
  obtain ⟨d, hd, rfl⟩ := List.mem_map.mp hc
  obtain ⟨n, hn, rfl⟩ := exists_digit_of_mem_digits hd
  exact decide_eq_true (urlChar_ascii hn)

@[simp] theorem urlsafeB64decode_urlsafeB64encode (bs : Bytes) :
    urlsafeB64decode (urlsafeB64encode bs) = .ok bs := by
  unfold urlsafeB64decode urlsafeB64encode
  rw [String.toList_ofList, encode_eq_digits, List.map_append, urlChar_pads, List.all_append,
    ascii_digits, ascii_pads, Bool.and_self, if_pos rfl, List.map_append, map_plainChar_digits,
    plainChar_pads]
  exact decode_digits (Nat.le_refl _)

theorem length_le_urlsafeB64encode (bs : Bytes) :
    bs.length ≤ (urlsafeB64encode bs).toList.length := by
  have hdigits := length_le_unpadded bs
  rw [toList_unpadded] at hdigits
  rw [urlsafeB64encode, String.toList_ofList, encode_eq_digits, List.map_append, List.length_append]
  omega

theorem urlsafeB64decode_pad_unpadded (bs : Bytes) :
    urlsafeB64decode (pad (unpadded bs)) = .ok bs := by
  have hlength : ((digits bs).map urlChar).length = (digits bs).length := List.length_map _
  unfold urlsafeB64decode pad
  rw [String.toList_ofList, toList_unpadded, hlength, List.all_append, ascii_digits, ascii_pads,
    Bool.and_self, if_pos rfl, List.map_append, map_plainChar_digits, plainChar_pads]
  exact decode_digits (missing_le bs)

theorem toList_pad (s : String) :
    (pad s).toList = s.toList ++ pads (4 - s.toList.length % 4) := String.toList_ofList

theorem pad_ne_unpadded (s : String) (bs : Bytes) : pad s ≠ unpadded bs := by
  have hpos : 0 < 4 - s.toList.length % 4 := by omega
  have hmem : '=' ∈ (pad s).toList := by
    rw [toList_pad]
    exact List.mem_append_right _ (List.mem_replicate.mpr ⟨hpos.ne', rfl⟩)
  intro heq
  have hdigit := isUrlDigit_of_mem_unpadded (heq ▸ hmem)
  revert hdigit
  decide

end Unpadded

end Base64

end CaManager.Library
