import CaManager.Library.Base64
import CaManager.Library.Texts

/-!
# Messages of the system log

The grammar of RFC 5424: a header, structured data and a message. In a parameter value a quote, a
backslash and a closing bracket are escaped by a backslash, and a backslash before anything else
stands for itself. Readers differ in whether they let a bracket pass that is not escaped, and in
whether they take a byte order mark off the message.

A stream of messages is framed by the byte of the line feed.
-/

namespace CaManager.Library

namespace Rfc5424

structure Reading where
  brackets : Bool
  stripsMark : Bool
  deriving Repr, DecidableEq

/-- A date and time with its offset from UTC in minutes. -/
structure Timestamp where
  year : ℕ
  month : ℕ
  day : ℕ
  hour : ℕ
  minute : ℕ
  second : ℕ
  microsecond : ℕ
  offset : ℤ := 0
  deriving Repr, DecidableEq

structure Element where
  id : String
  params : List (String × String)
  deriving Repr, DecidableEq

structure Message where
  facility : ℕ
  severity : ℕ
  version : ℕ
  timestamp : Option Timestamp
  hostname : Option String
  appName : Option String
  procId : Option String
  msgId : Option String
  structuredData : List Element
  msg : Option String
  deriving Repr, DecidableEq

def expect (c : Char) : List Char → Option (List Char)
  | [] => none
  | d :: cs => if d = c then some cs else none

section Header

def readDigits (n : ℕ) (cs : List Char) : Option (ℕ × List Char) :=
  if (cs.take n).length = n ∧ (cs.take n).all Char.isDigit = true then
    some (Nat.ofDigitChars 10 (cs.take n) 0, cs.drop n)
  else none

def readNumber (most : ℕ) (cs : List Char) : Option (ℕ × List Char) :=
  let ds := cs.takeWhile Char.isDigit
  if ds ≠ [] ∧ ds.length ≤ most then some (Nat.ofDigitChars 10 ds 0, cs.dropWhile Char.isDigit)
  else none

def isPrintable (c : Char) : Bool := '!' ≤ c && c ≤ '~'

/-- A word of at most so many printable characters; a hyphen stands for none. -/
def readWord (most : ℕ) (cs : List Char) : Option (Option String × List Char) :=
  let w := cs.takeWhile isPrintable
  if w ≠ [] ∧ w.length ≤ most then
    some (if w = ['-'] then none else some (String.ofList w), cs.dropWhile isPrintable)
  else none

def readFraction : List Char → Option (ℕ × List Char)
  | '.' :: cs =>
    let ds := cs.takeWhile Char.isDigit
    if ds ≠ [] ∧ ds.length ≤ 6 then
      some (Nat.ofDigitChars 10 ds 0 * 10 ^ (6 - ds.length), cs.dropWhile Char.isDigit)
    else none
  | cs => some (0, cs)

def readOffset : List Char → Option (ℤ × List Char)
  | 'Z' :: cs => some (0, cs)
  | c :: cs =>
    if c = '+' ∨ c = '-' then do
      let (hour, cs) ← readDigits 2 cs
      let cs ← expect ':' cs
      let (minute, cs) ← readDigits 2 cs
      if hour ≤ 23 ∧ minute ≤ 59 then
        some ((if c = '+' then 1 else -1) * (60 * hour + minute), cs)
      else none
    else none
  | [] => none

def readDate (cs : List Char) : Option ((ℕ × ℕ × ℕ) × List Char) := do
  let (year, cs) ← readDigits 4 cs
  let cs ← expect '-' cs
  let (month, cs) ← readDigits 2 cs
  let cs ← expect '-' cs
  let (day, cs) ← readDigits 2 cs
  if 1 ≤ month ∧ month ≤ 12 ∧ 1 ≤ day ∧ day ≤ 31 then some ((year, month, day), cs) else none

def readTime (cs : List Char) : Option ((ℕ × ℕ × ℕ) × List Char) := do
  let (hour, cs) ← readDigits 2 cs
  let cs ← expect ':' cs
  let (minute, cs) ← readDigits 2 cs
  let cs ← expect ':' cs
  let (second, cs) ← readDigits 2 cs
  if hour ≤ 23 ∧ minute ≤ 59 ∧ second ≤ 59 then some ((hour, minute, second), cs) else none

def readTimestamp (cs : List Char) : Option (Option Timestamp × List Char) :=
  match cs with
  | '-' :: cs => some (none, cs)
  | cs => do
    let ((year, month, day), cs) ← readDate cs
    let cs ← expect 'T' cs
    let ((hour, minute, second), cs) ← readTime cs
    let (microsecond, cs) ← readFraction cs
    let (offset, cs) ← readOffset cs
    return (some { year, month, day, hour, minute, second, microsecond, offset }, cs)

end Header

section StructuredData

def isSpecial (c : Char) : Bool := c = '"' || c = '\\' || c = ']'

def readValue (brackets : Bool) : List Char → Option (List Char × List Char)
  | [] => none
  | c :: cs =>
    if c = '"' then some ([], cs)
    else if c = '\\' then
      match cs with
      | [] => none
      | d :: ds =>
        (readValue brackets ds).map fun (v, rest) =>
          (if isSpecial d then d :: v else '\\' :: d :: v, rest)
    else if c = ']' ∧ brackets = false then none
    else (readValue brackets cs).map fun (v, rest) => (c :: v, rest)

def isNameChar (c : Char) : Bool := isPrintable c && c ≠ '=' && c ≠ ']' && c ≠ '"'

def readName (cs : List Char) : Option (String × List Char) :=
  let w := cs.takeWhile isNameChar
  if w ≠ [] ∧ w.length ≤ 32 then some (String.ofList w, cs.dropWhile isNameChar) else none

/-- The parameters up to the closing bracket; there are fewer than the number. -/
def readParams (brackets : Bool) : ℕ → List Char → Option (List (String × String) × List Char)
  | 0, _ => none
  | _ + 1, [] => none
  | n + 1, c :: cs =>
    if c = ']' then some ([], cs)
    else if c = ' ' then do
      let (name, cs) ← readName cs
      let cs ← expect '=' cs
      let cs ← expect '"' cs
      let (value, cs) ← readValue brackets cs
      let (params, cs) ← readParams brackets n cs
      return ((name, String.ofList value) :: params, cs)
    else none

def readElements (brackets : Bool) : ℕ → List Char → Option (List Element × List Char)
  | 0, _ => none
  | n + 1, cs =>
    match cs with
    | '[' :: cs => do
      let (id, cs) ← readName cs
      let (params, cs) ← readParams brackets (cs.length + 1) cs
      let (elements, cs) ← readElements brackets n cs
      return (⟨id, params⟩ :: elements, cs)
    | cs => some ([], cs)

def readStructuredData (brackets : Bool) (cs : List Char) : Option (List Element × List Char) :=
  match cs with
  | '-' :: cs => some ([], cs)
  | cs => do
    let (elements, cs) ← readElements brackets (cs.length + 1) cs
    if elements = [] then none else some (elements, cs)

/-- The message after a blank, without a byte order mark where that is taken off. -/
def readMsg (stripsMark : Bool) : List Char → Option (Option String)
  | [] => some none
  | ' ' :: '\ufeff' :: cs =>
    some (some (String.ofList (if stripsMark then cs else '\ufeff' :: cs)))
  | ' ' :: cs => some (some (String.ofList cs))
  | _ => none

end StructuredData

def readMessage (reading : Reading) (cs : List Char) : Option Message := do
  let cs ← expect '<' cs
  let (pri, cs) ← readNumber 3 cs
  let cs ← expect '>' cs
  let (version, cs) ← readNumber 3 cs
  let cs ← expect ' ' cs
  let (timestamp, cs) ← readTimestamp cs
  let cs ← expect ' ' cs
  let (hostname, cs) ← readWord 255 cs
  let cs ← expect ' ' cs
  let (appName, cs) ← readWord 48 cs
  let cs ← expect ' ' cs
  let (procId, cs) ← readWord 128 cs
  let cs ← expect ' ' cs
  let (msgId, cs) ← readWord 32 cs
  let cs ← expect ' ' cs
  let (structuredData, cs) ← readStructuredData reading.brackets cs
  let msg ← readMsg reading.stripsMark cs
  if pri ≤ 191 ∧ 1 ≤ version then
    some { facility := pri / 8, severity := pri % 8, version, timestamp, hostname, appName, procId,
           msgId, structuredData, msg }
  else none

def parse (reading : Reading) (bs : Bytes) : Option Message :=
  (decodeText bs).bind fun s => readMessage reading s.toList

def frames (stream : Bytes) : List Bytes × Bytes :=
  ((stream.splitOn 10).dropLast, (stream.splitOn 10).getLastD [])

section Reading

variable {cs rest rest' : List Char}

@[simp] theorem expect_cons (c : Char) (cs : List Char) : expect c (c :: cs) = some cs :=
  if_pos rfl

theorem isDigit_of_mem_leftpad {n k : ℕ} {c : Char}
    (hc : c ∈ List.leftpad n '0' (Nat.toDigits 10 k)) : c.isDigit = true := by
  rw [List.leftpad, List.mem_append] at hc
  rcases hc with hc | hc
  · rw [List.eq_of_mem_replicate hc]
    rfl
  · exact Nat.isDigit_of_mem_toDigits (by decide) (by decide) hc

theorem ofDigitChars_leftpad (n k : ℕ) :
    Nat.ofDigitChars 10 (List.leftpad n '0' (Nat.toDigits 10 k)) 0 = k := by
  rw [List.leftpad, Nat.ofDigitChars_append, Nat.ofDigitChars_replicate_zero, Nat.mul_zero,
    Nat.ofDigitChars_ten_toDigits]

theorem length_leftpad {n k : ℕ} (hn : 0 < n) (hk : k < 10 ^ n) :
    (List.leftpad n '0' (Nat.toDigits 10 k)).length = n := by
  rw [List.length_leftpad]
  exact Nat.max_eq_left ((Nat.length_toDigits_le_iff (by decide) hn).mpr hk)

theorem readDigits_leftpad {n k : ℕ} (hn : 0 < n) (hk : k < 10 ^ n) :
    readDigits n (List.leftpad n '0' (Nat.toDigits 10 k) ++ rest) = some (k, rest) := by
  have htake : (List.leftpad n '0' (Nat.toDigits 10 k) ++ rest).take n =
      List.leftpad n '0' (Nat.toDigits 10 k) := List.take_left' (length_leftpad hn hk)
  have hdrop : (List.leftpad n '0' (Nat.toDigits 10 k) ++ rest).drop n = rest :=
    List.drop_left' (length_leftpad hn hk)
  rw [readDigits, htake, hdrop, if_pos, ofDigitChars_leftpad]
  exact ⟨length_leftpad hn hk, List.all_eq_true.mpr fun c hc => isDigit_of_mem_leftpad hc⟩

theorem readFraction_leftpad {k : ℕ} {c : Char} (hk : k < 10 ^ 6) (hc : c.isDigit = false) :
    readFraction ('.' :: (List.leftpad 6 '0' (Nat.toDigits 10 k) ++ c :: rest)) =
      some (k, c :: rest) := by
  have hdigits : ∀ d ∈ List.leftpad 6 '0' (Nat.toDigits 10 k), d.isDigit = true :=
    fun d hd => isDigit_of_mem_leftpad hd
  have hlength := length_leftpad (by decide) hk
  have htake : (List.leftpad 6 '0' (Nat.toDigits 10 k) ++ c :: rest).takeWhile Char.isDigit =
      List.leftpad 6 '0' (Nat.toDigits 10 k) := by
    rw [List.takeWhile_append_of_pos hdigits, List.takeWhile_cons_of_neg (by simp [hc]),
      List.append_nil]
  have hdrop : (List.leftpad 6 '0' (Nat.toDigits 10 k) ++ c :: rest).dropWhile Char.isDigit =
      c :: rest := by
    rw [List.dropWhile_append_of_pos hdigits, List.dropWhile_cons_of_neg (by simp [hc])]
  rw [readFraction]
  simp only [htake, hdrop]
  rw [if_pos, hlength, ofDigitChars_leftpad, Nat.sub_self, Nat.pow_zero, Nat.mul_one]
  refine ⟨fun hnil => ?_, hlength.le⟩
  rw [hnil] at hlength
  cases hlength

def zeroPadded (n k : ℕ) : List Char := List.leftpad n '0' (Nat.toDigits 10 k)

theorem readDigits_zeroPadded {n k : ℕ} (hn : 0 < n) (hk : k < 10 ^ n) (cs : List Char) :
    readDigits n (zeroPadded n k ++ cs) = some (k, cs) :=
  readDigits_leftpad hn hk

theorem exists_digit_zeroPadded {n k : ℕ} (hn : 0 < n) (hk : k < 10 ^ n) :
    ∃ c cs, zeroPadded n k = c :: cs ∧ c ≠ '-' := by
  rcases hcs : zeroPadded n k with _ | ⟨c, cs⟩
  · have hlength := length_leftpad hn hk
    rw [show List.leftpad n '0' (Nat.toDigits 10 k) = [] from hcs] at hlength
    exact absurd hlength hn.ne
  · refine ⟨c, cs, rfl, ?_⟩
    rintro rfl
    have hdigit := isDigit_of_mem_leftpad (n := n) (k := k) (c := '-') (by
      rw [show List.leftpad n '0' (Nat.toDigits 10 k) = '-' :: cs from hcs]
      exact List.mem_cons_self)
    exact absurd hdigit (by decide)

theorem readDate_zeroPadded {t : Timestamp} (hyear : t.year ≤ 9999)
    (hmonth : 1 ≤ t.month ∧ t.month ≤ 12) (hday : 1 ≤ t.day ∧ t.day ≤ 31) (cs : List Char) :
    readDate (zeroPadded 4 t.year ++ '-' :: (zeroPadded 2 t.month ++ '-' ::
      (zeroPadded 2 t.day ++ cs))) = some ((t.year, t.month, t.day), cs) := by
  simp only [readDate, Option.bind_eq_bind, Option.bind_some, expect_cons,
    readDigits_zeroPadded (n := 4) (k := t.year) (by decide) (by omega),
    readDigits_zeroPadded (n := 2) (k := t.month) (by decide) (by omega),
    readDigits_zeroPadded (n := 2) (k := t.day) (by decide) (by omega)]
  exact if_pos ⟨hmonth.1, hmonth.2, hday⟩

theorem readTime_zeroPadded {t : Timestamp} (hhour : t.hour ≤ 23) (hminute : t.minute ≤ 59)
    (hsecond : t.second ≤ 59) (cs : List Char) :
    readTime (zeroPadded 2 t.hour ++ ':' :: (zeroPadded 2 t.minute ++ ':' ::
      (zeroPadded 2 t.second ++ cs))) = some ((t.hour, t.minute, t.second), cs) := by
  simp only [readTime, Option.bind_eq_bind, Option.bind_some, expect_cons,
    readDigits_zeroPadded (n := 2) (k := t.hour) (by decide) (by omega),
    readDigits_zeroPadded (n := 2) (k := t.minute) (by decide) (by omega),
    readDigits_zeroPadded (n := 2) (k := t.second) (by decide) (by omega)]
  exact if_pos ⟨hhour, hminute, hsecond⟩

def Timestamp.zulu (t : Timestamp) : List Char :=
  zeroPadded 4 t.year ++ '-' :: (zeroPadded 2 t.month ++ '-' :: (zeroPadded 2 t.day ++ 'T' ::
    (zeroPadded 2 t.hour ++ ':' :: (zeroPadded 2 t.minute ++ ':' :: (zeroPadded 2 t.second ++
      '.' :: (zeroPadded 6 t.microsecond ++ ['Z']))))))

structure Timestamp.InRange (t : Timestamp) : Prop where
  year : t.year ≤ 9999
  month : 1 ≤ t.month ∧ t.month ≤ 12
  day : 1 ≤ t.day ∧ t.day ≤ 31
  hour : t.hour ≤ 23
  minute : t.minute ≤ 59
  second : t.second ≤ 59
  microsecond : t.microsecond ≤ 999999
  offset : t.offset = 0

theorem readTimestamp_zulu {t : Timestamp} (ht : t.InRange) :
    readTimestamp (t.zulu ++ rest) = some (some t, rest) := by
  obtain ⟨c, cs, hyear, hc⟩ := exists_digit_zeroPadded (n := 4) (k := t.year) (by decide)
    (by have := ht.year; omega)
  have hstep : readTimestamp (t.zulu ++ rest) = (readDate (t.zulu ++ rest)).bind fun x =>
      (expect 'T' x.2).bind fun cs => (readTime cs).bind fun y => (readFraction y.2).bind fun z =>
        (readOffset z.2).bind fun w =>
          some (some ⟨x.1.1, x.1.2.1, x.1.2.2, y.1.1, y.1.2.1, y.1.2.2, z.1, w.1⟩, w.2) := by
    rw [Timestamp.zulu, hyear, List.cons_append, List.cons_append, readTimestamp]
    · rfl
    · exact fun _ h => hc (List.cons.inj h).1
  have hdate := readDate_zeroPadded ht.year ht.month ht.day
    ('T' :: (zeroPadded 2 t.hour ++ ':' :: (zeroPadded 2 t.minute ++ ':' ::
      (zeroPadded 2 t.second ++ '.' :: (zeroPadded 6 t.microsecond ++ 'Z' :: rest)))))
  have htime := readTime_zeroPadded ht.hour ht.minute ht.second
    ('.' :: (zeroPadded 6 t.microsecond ++ 'Z' :: rest))
  have hfraction : readFraction ('.' :: (zeroPadded 6 t.microsecond ++ 'Z' :: rest)) =
      some (t.microsecond, 'Z' :: rest) :=
    readFraction_leftpad (by have := ht.microsecond; omega) rfl
  have htext : t.zulu ++ rest = zeroPadded 4 t.year ++ '-' :: (zeroPadded 2 t.month ++ '-' ::
      (zeroPadded 2 t.day ++ ('T' :: (zeroPadded 2 t.hour ++ ':' :: (zeroPadded 2 t.minute ++
        ':' :: (zeroPadded 2 t.second ++ '.' :: (zeroPadded 6 t.microsecond ++
          'Z' :: rest))))))) := by
    simp [Timestamp.zulu]
  rw [hstep, htext, hdate, Option.bind_some, expect_cons, Option.bind_some, htime,
    Option.bind_some, hfraction, Option.bind_some]
  simp only [readOffset, Option.bind_some, ← ht.offset]

theorem readName_append {name : String} {c : Char} (hne : name.toList ≠ [])
    (hlength : name.toList.length ≤ 32) (hname : ∀ d ∈ name.toList, isNameChar d = true)
    (hc : isNameChar c = false) : readName (name.toList ++ c :: rest) = some (name, c :: rest) := by
  have htake : (name.toList ++ c :: rest).takeWhile isNameChar = name.toList := by
    rw [List.takeWhile_append_of_pos hname, List.takeWhile_cons_of_neg (by simp [hc]),
      List.append_nil]
  have hdrop : (name.toList ++ c :: rest).dropWhile isNameChar = c :: rest := by
    rw [List.dropWhile_append_of_pos hname, List.dropWhile_cons_of_neg (by simp [hc])]
  rw [readName]
  simp only [htake, hdrop]
  rw [if_pos ⟨hne, hlength⟩, String.ofList_toList]

end Reading

section Values

variable {brackets : Bool} {rest rest' : List Char}

/-- A value that stands for itself without escapes: no quote, no bracket unless they pass, and no
backslash before a character that is escaped, or at the end. -/
def Plain (brackets : Bool) : List Char → Prop
  | [] => True
  | c :: cs => c ≠ '"' ∧ (c = ']' → brackets = true) ∧
      (c = '\\' → ∃ d ∈ cs.head?, isSpecial d = false) ∧ Plain brackets cs

@[simp] theorem readValue_quote : readValue brackets ('"' :: rest) = some ([], rest) := by
  unfold readValue
  exact if_pos rfl

theorem readValue_special {d : Char} {ds : List Char} (hd : isSpecial d = true) :
    readValue brackets ('\\' :: d :: ds) =
      (readValue brackets ds).map fun x => (d :: x.1, x.2) := by
  simp [readValue, hd]

theorem readValue_backslash {d : Char} {ds : List Char} (hd : isSpecial d = false) :
    readValue brackets ('\\' :: d :: ds) =
      (readValue brackets ds).map fun x => ('\\' :: d :: x.1, x.2) := by
  simp [readValue, hd]

theorem readValue_bracket {cs : List Char} (h : brackets = false) :
    readValue brackets (']' :: cs) = none := by
  unfold readValue
  rw [if_neg (by decide), if_neg (by decide), if_pos ⟨rfl, h⟩]

theorem readValue_cons {c : Char} {cs : List Char} (hquote : c ≠ '"') (hbackslash : c ≠ '\\')
    (hbracket : c = ']' → brackets = true) :
    readValue brackets (c :: cs) = (readValue brackets cs).map fun x => (c :: x.1, x.2) := by
  have hpasses : ¬(c = ']' ∧ brackets = false) := fun h => by simp [hbracket h.1] at h
  rw [readValue.eq_def]
  simp only [if_neg hquote, if_neg hbackslash, if_neg hpasses]

theorem map_cons_eq_some {c d : Char} {v : List Char} {o : Option (List Char × List Char)} :
    (o.map fun x => (c :: x.1, x.2)) = some (d :: v, rest) ↔ c = d ∧ o = some (v, rest) := by
  cases o with
  | none => simp
  | some x => simp [Prod.ext_iff, and_assoc]

theorem readValue_ne_cons {c : Char} {cs v : List Char} (hbackslash : c ≠ '\\') :
    readValue brackets (c :: cs) ≠ some ('\\' :: v, rest') := by
  intro h
  rcases eq_or_ne c '"' with rfl | hquote
  · rw [readValue_quote] at h
    simp at h
  · by_cases hbracket : c = ']' → brackets = true
    · rw [readValue_cons hquote hbackslash hbracket, map_cons_eq_some] at h
      exact hbackslash h.1
    · rw [Classical.not_imp, Bool.not_eq_true] at hbracket
      rw [hbracket.1, readValue_bracket hbracket.2] at h
      cases h

/-- What was written as a value never reads as itself behind backslashes: the reader takes two
backslashes for one, and so never catches up. -/
theorem readValue_ne_backslashes (v : List Char) (n : ℕ) :
    readValue brackets (v ++ '"' :: rest) ≠ some (List.replicate (n + 1) '\\' ++ v, rest') := by
  rw [List.replicate_succ, List.cons_append]
  induction v using List.twoStepInduction generalizing n with
  | nil =>
    rw [List.nil_append, readValue_quote]
    simp
  | singleton c =>
    rcases eq_or_ne c '\\' with rfl | hbackslash
    · intro h
      rw [List.cons_append, List.nil_append, readValue_special rfl, map_cons_eq_some] at h
      exact absurd h.1 (by decide)
    · exact readValue_ne_cons hbackslash
  | cons_cons c d v ih _ =>
    rcases eq_or_ne c '\\' with rfl | hbackslash
    · intro h
      rw [List.cons_append, List.cons_append] at h
      cases hspecial : isSpecial d with
      | true =>
        rw [readValue_special hspecial, map_cons_eq_some] at h
        obtain ⟨rfl, h⟩ := h
        have hmore : List.replicate n '\\' ++ '\\' :: '\\' :: v =
            '\\' :: (List.replicate (n + 1) '\\' ++ v) := by
          rw [← List.cons_append, ← List.replicate_succ, List.replicate_succ', List.replicate_succ',
            List.append_assoc, List.append_assoc]
          rfl
        exact ih (n + 1) (hmore ▸ h)
      | false =>
        rw [readValue_backslash hspecial] at h
        obtain ⟨x, _, hx⟩ := Option.map_eq_some_iff.mp h
        have hsecond := congrArg (fun y : List Char × List Char => y.1.tail.head?) hx
        have hd : d = '\\' := by
          cases n with
          | zero => simpa using hsecond
          | succ n => simpa [List.replicate_succ] using hsecond
        rw [hd] at hspecial
        cases hspecial
    · exact readValue_ne_cons hbackslash

theorem readValue_cons_iff {c : Char} {cs : List Char} (hbackslash : c ≠ '\\')
    (ih : readValue brackets (cs ++ '"' :: rest) = some (cs, rest') ↔
      Plain brackets cs ∧ rest' = rest) :
    readValue brackets (c :: cs ++ '"' :: rest) = some (c :: cs, rest') ↔
      Plain brackets (c :: cs) ∧ rest' = rest := by
  rw [List.cons_append, Plain]
  rcases eq_or_ne c '"' with rfl | hquote
  · rw [readValue_quote]
    simp
  · by_cases hbracket : c = ']' → brackets = true
    · rw [readValue_cons hquote hbackslash hbracket, map_cons_eq_some, ih]
      have hnot : c = '\\' → ∃ d ∈ cs.head?, isSpecial d = false := fun h => absurd h hbackslash
      constructor
      · exact fun h => ⟨⟨hquote, hbracket, hnot, h.2.1⟩, h.2.2⟩
      · exact fun h => ⟨rfl, h.1.2.2.2, h.2⟩
    · refine iff_of_false ?_ fun h => hbracket h.1.2.1
      rw [Classical.not_imp, Bool.not_eq_true] at hbracket
      rw [hbracket.1, readValue_bracket hbracket.2]
      nofun

theorem readValue_iff (v : List Char) :
    readValue brackets (v ++ '"' :: rest) = some (v, rest') ↔ Plain brackets v ∧ rest' = rest := by
  induction v using List.twoStepInduction with
  | nil =>
    rw [List.nil_append, readValue_quote]
    simp [Plain, eq_comm]
  | singleton c =>
    rcases eq_or_ne c '\\' with rfl | hbackslash
    · rw [List.cons_append, List.nil_append, readValue_special rfl, map_cons_eq_some, Plain]
      simp
    · refine readValue_cons_iff hbackslash ?_
      rw [List.nil_append, readValue_quote]
      simp [Plain, eq_comm]
  | cons_cons c d v ih ih' =>
    rcases eq_or_ne c '\\' with rfl | hbackslash
    · rw [List.cons_append, List.cons_append, Plain]
      cases hspecial : isSpecial d with
      | true =>
        rw [readValue_special hspecial, map_cons_eq_some]
        refine iff_of_false ?_ (by simp [hspecial])
        rintro ⟨rfl, h⟩
        exact readValue_ne_backslashes v 0 h
      | false =>
        obtain ⟨⟨hquote, hbackslash⟩, hbracket⟩ : (d ≠ '"' ∧ d ≠ '\\') ∧ d ≠ ']' := by
          simpa [isSpecial] using hspecial
        have htwo : (readValue brackets (v ++ '"' :: rest)).map
            (fun x => ('\\' :: d :: x.1, x.2)) = some ('\\' :: d :: v, rest') ↔
              readValue brackets (v ++ '"' :: rest) = some (v, rest') := by
          cases readValue brackets (v ++ '"' :: rest) with
          | none => simp
          | some x => simp [Prod.ext_iff]
        rw [readValue_backslash hspecial, htwo, ih]
        simp [Plain, hspecial, hquote, hbackslash, hbracket]
    · exact readValue_cons_iff hbackslash (ih' d)

end Values

section Parameters

variable {brackets : Bool} {rest rest' : List Char}

def renderParam (p : String × String) : List Char :=
  p.1.toList ++ '=' :: '"' :: (p.2.toList ++ ['"'])

def renderParams (ps : List (String × String)) : List Char := ps.flatMap fun p => ' ' :: renderParam p

structure IsName (name : String) : Prop where
  ne_nil : name.toList ≠ []
  length_le : name.toList.length ≤ 32
  isNameChar : ∀ c ∈ name.toList, isNameChar c = true

theorem readParams_iff {ps : List (String × String)} {n : ℕ} (hn : ps.length < n)
    (hps : ∀ p ∈ ps, IsName p.1) :
    readParams brackets n (renderParams ps ++ ']' :: rest) = some (ps, rest') ↔
      (∀ p ∈ ps, Plain brackets p.2.toList) ∧ rest' = rest := by
  induction ps generalizing n with
  | nil =>
    obtain ⟨n, rfl⟩ : ∃ m, n = m + 1 := ⟨n - 1, by omega⟩
    simp [renderParams, readParams, eq_comm]
  | cons p ps ih =>
    obtain ⟨n, rfl⟩ : ∃ m, n = m + 1 := ⟨n - 1, by omega⟩
    have hp := hps p List.mem_cons_self
    have hrender : renderParams (p :: ps) ++ ']' :: rest = ' ' :: (p.1.toList ++
        '=' :: '"' :: (p.2.toList ++ '"' :: (renderParams ps ++ ']' :: rest))) := by
      simp [renderParams, renderParam]
    have hname : readName (p.1.toList ++ '=' :: '"' :: (p.2.toList ++ '"' ::
        (renderParams ps ++ ']' :: rest))) = some (p.1, '=' :: '"' :: (p.2.toList ++ '"' ::
          (renderParams ps ++ ']' :: rest))) :=
      readName_append hp.ne_nil hp.length_le hp.isNameChar rfl
    have hvalue : ∀ rest', readValue brackets (p.2.toList ++ '"' ::
        (renderParams ps ++ ']' :: rest)) = some (p.2.toList, rest') ↔
          Plain brackets p.2.toList ∧ rest' = renderParams ps ++ ']' :: rest :=
      fun rest' => readValue_iff p.2.toList
    have hrest := ih (Nat.lt_of_succ_lt_succ hn) fun q hq => hps q (List.mem_cons_of_mem _ hq)
    rw [hrender, readParams, if_neg (by decide), if_pos rfl, hname]
    simp only [Option.bind_eq_bind, Option.bind_some, expect_cons, List.forall_mem_cons]
    rw [Option.bind_eq_some_iff]
    constructor
    · rintro ⟨⟨value, cs⟩, hread, h⟩
      obtain ⟨⟨params, cs'⟩, hparams, h⟩ := Option.bind_eq_some_iff.mp h
      simp only [Option.pure_def, Option.some.injEq, Prod.mk.injEq, List.cons.injEq] at h
      obtain ⟨⟨hp', rfl⟩, rfl⟩ := h
      have hvalue' : value = p.2.toList := by
        rw [← congrArg Prod.snd hp', String.toList_ofList]
      rw [hvalue'] at hread
      obtain ⟨hplain, rfl⟩ := (hvalue _).mp hread
      obtain ⟨hall, rfl⟩ := hrest.mp hparams
      exact ⟨⟨hplain, hall⟩, rfl⟩
    · rintro ⟨⟨hplain, hall⟩, rfl⟩
      refine ⟨(p.2.toList, _), (hvalue _).mpr ⟨hplain, rfl⟩, ?_⟩
      rw [Option.bind_eq_some_iff]
      exact ⟨(ps, rest'), hrest.mpr ⟨hall, rfl⟩, by simp [String.ofList_toList]⟩

theorem length_le_renderParams (ps : List (String × String)) :
    ps.length ≤ (renderParams ps).length := by
  induction ps with
  | nil => exact Nat.le_refl 0
  | cons p ps ih =>
    rw [renderParams, List.flatMap_cons, List.length_append, List.length_cons, List.length_cons]
    exact Nat.add_le_add ih (Nat.succ_le_succ (Nat.zero_le _)) |>.trans_eq (Nat.add_comm _ _)

theorem exists_head_renderParams (ps : List (String × String)) (cs : List Char) :
    ∃ c cs', renderParams ps ++ ']' :: cs = c :: cs' ∧ isNameChar c = false := by
  cases ps with
  | nil => exact ⟨']', cs, rfl, rfl⟩
  | cons p ps => exact ⟨' ', _, rfl, rfl⟩

theorem readElements_bracket (n : ℕ) (cs : List Char) :
    readElements brackets (n + 1) ('[' :: cs) = (readName cs).bind fun x =>
      (readParams brackets (x.2.length + 1) x.2).bind fun y =>
        (readElements brackets n y.2).bind fun z => some (⟨x.1, y.1⟩ :: z.1, z.2) :=
  rfl

theorem readStructuredData_bracket (cs : List Char) :
    readStructuredData brackets ('[' :: cs) =
      (readElements brackets (cs.length + 1 + 1) ('[' :: cs)).bind fun x =>
        if x.1 = [] then none else some (x.1, x.2) :=
  rfl

theorem readStructuredData_iff {id : String} {ps : List (String × String)} (hid : IsName id)
    (hps : ∀ p ∈ ps, IsName p.1) :
    readStructuredData brackets ('[' :: (id.toList ++ (renderParams ps ++ ']' :: ' ' :: rest))) =
        some ([⟨id, ps⟩], rest') ↔
      (∀ p ∈ ps, Plain brackets p.2.toList) ∧ rest' = ' ' :: rest := by
  have hname : readName (id.toList ++ (renderParams ps ++ ']' :: ' ' :: rest)) =
      some (id, renderParams ps ++ ']' :: ' ' :: rest) := by
    obtain ⟨c, cs', hcs, hc⟩ := exists_head_renderParams ps (' ' :: rest)
    rw [hcs]
    exact readName_append hid.ne_nil hid.length_le hid.isNameChar hc
  have hn : ps.length < (renderParams ps ++ ']' :: ' ' :: rest).length + 1 := by
    have := length_le_renderParams ps
    rw [List.length_append]
    omega
  have hparams : ∀ rest', readParams brackets _ (renderParams ps ++ ']' :: ' ' :: rest) =
      some (ps, rest') ↔ (∀ p ∈ ps, Plain brackets p.2.toList) ∧ rest' = ' ' :: rest :=
    fun rest' => readParams_iff hn hps
  have hend : ∀ m, readElements brackets (m + 1) (' ' :: rest) = some ([], ' ' :: rest) :=
    fun _ => rfl
  rw [readStructuredData_bracket, readElements_bracket, hname, Option.bind_some]
  constructor
  · intro h
    obtain ⟨x, hx, h⟩ := Option.bind_eq_some_iff.mp h
    obtain ⟨y, hy, hx⟩ := Option.bind_eq_some_iff.mp hx
    obtain ⟨z, hz, hx⟩ := Option.bind_eq_some_iff.mp hx
    cases hx
    rw [if_neg (List.cons_ne_nil _ _), Option.some.injEq, Prod.mk.injEq, List.cons.injEq,
      Element.mk.injEq] at h
    obtain ⟨⟨⟨_, hps'⟩, _⟩, hrest⟩ := h
    have hy : readParams brackets _ _ = some (ps, y.2) := hy.trans (by rw [← hps'])
    obtain ⟨hplain, hy⟩ := (hparams _).mp hy
    rw [hy, hend, Option.some.injEq] at hz
    exact ⟨hplain, hrest ▸ (congrArg Prod.snd hz).symm⟩
  · rintro ⟨hplain, rfl⟩
    rw [(hparams _).mpr ⟨hplain, rfl⟩, Option.bind_some, hend]
    rfl

theorem readMsg_iff {stripsMark : Bool} {s : String} :
    readMsg stripsMark (' ' :: s.toList) = some (some s) ↔
      (stripsMark = true → s.toList.head? ≠ some '\ufeff') := by
  rcases hs : s.toList with _ | ⟨c, cs⟩
  · simp [readMsg, ← String.toList_inj, hs]
  · by_cases hc : c = '\ufeff'
    · subst hc
      rw [readMsg]
      cases stripsMark with
      | false => simp [← String.toList_inj, hs]
      | true =>
        have hlonger : cs ≠ '\ufeff' :: cs := (List.cons_ne_self _ _).symm
        simp [← String.toList_inj, hs, hlonger]
    · have hread : readMsg stripsMark (' ' :: c :: cs) = some (some (String.ofList (c :: cs))) := by
        unfold readMsg
        split
        · next heq => cases heq
        · next heq =>
          cases heq
          exact absurd rfl hc
        · next heq =>
          cases heq
          rfl
        · next h => exact absurd rfl (h _)
      rw [hread, ← hs, String.ofList_toList]
      simp [hs, hc]

theorem readMessage_of_header {reading : Reading} {pri version : ℕ} {t : Option Timestamp}
    {hostname appName procId msgId : Option String}
    {cs₁ cs₂ cs₃ cs₄ cs₅ cs₆ cs₇ cs : List Char}
    (hpri : readNumber 3 cs₁ = some (pri, '>' :: cs₂))
    (hversion : readNumber 3 cs₂ = some (version, ' ' :: cs₃))
    (htimestamp : readTimestamp cs₃ = some (t, ' ' :: cs₄))
    (hhostname : readWord 255 cs₄ = some (hostname, ' ' :: cs₅))
    (happName : readWord 48 cs₅ = some (appName, ' ' :: cs₆))
    (hprocId : readWord 128 cs₆ = some (procId, ' ' :: cs₇))
    (hmsgId : readWord 32 cs₇ = some (msgId, ' ' :: cs)) :
    readMessage reading ('<' :: cs₁) = (readStructuredData reading.brackets cs).bind fun x =>
      (readMsg reading.stripsMark x.2).bind fun msg =>
        if pri ≤ 191 ∧ 1 ≤ version then
          some ⟨pri / 8, pri % 8, version, t, hostname, appName, procId, msgId, x.1, msg⟩
        else none := by
  have hsteps : ∀ cs, readMessage reading cs = (expect '<' cs).bind fun cs =>
      (readNumber 3 cs).bind fun pri => (expect '>' pri.2).bind fun cs =>
      (readNumber 3 cs).bind fun version => (expect ' ' version.2).bind fun cs =>
      (readTimestamp cs).bind fun t => (expect ' ' t.2).bind fun cs =>
      (readWord 255 cs).bind fun hostname => (expect ' ' hostname.2).bind fun cs =>
      (readWord 48 cs).bind fun appName => (expect ' ' appName.2).bind fun cs =>
      (readWord 128 cs).bind fun procId => (expect ' ' procId.2).bind fun cs =>
      (readWord 32 cs).bind fun msgId => (expect ' ' msgId.2).bind fun cs =>
      (readStructuredData reading.brackets cs).bind fun x =>
      (readMsg reading.stripsMark x.2).bind fun msg =>
        if pri.1 ≤ 191 ∧ 1 ≤ version.1 then
          some ⟨pri.1 / 8, pri.1 % 8, version.1, t.1, hostname.1, appName.1, procId.1, msgId.1,
            x.1, msg⟩
        else none := fun _ => rfl
  rw [hsteps, expect_cons, Option.bind_some, hpri, Option.bind_some, expect_cons, Option.bind_some,
    hversion, Option.bind_some, expect_cons, Option.bind_some, htimestamp, Option.bind_some,
    expect_cons, Option.bind_some, hhostname, Option.bind_some, expect_cons, Option.bind_some,
    happName, Option.bind_some, expect_cons, Option.bind_some, hprocId, Option.bind_some,
    expect_cons, Option.bind_some, hmsgId, Option.bind_some, expect_cons, Option.bind_some]

end Parameters

section Framing

theorem splitOn_flatMap {msgs : List Bytes} (h : ∀ m ∈ msgs, 10 ∉ m) :
    (msgs.flatMap fun m => m ++ [10]).splitOn 10 = msgs ++ [[]] := by
  induction msgs with
  | nil => rfl
  | cons m msgs ih =>
    rw [List.flatMap_cons, List.append_assoc, List.singleton_append,
      List.splitOn_append_cons_self_of_not_mem (h m List.mem_cons_self),
      ih fun m' hm' => h m' (List.mem_cons_of_mem _ hm'), List.cons_append]

theorem frames_iff (msgs : List Bytes) :
    frames (msgs.flatMap fun m => m ++ [10]) = (msgs, []) ↔ ∀ m ∈ msgs, 10 ∉ m := by
  constructor
  · intro h m hm
    have hframes : (frames (msgs.flatMap fun m => m ++ [10])).1 = msgs := congrArg Prod.fst h
    rw [← hframes] at hm
    exact notMem_of_mem_splitOn (List.mem_of_mem_dropLast hm)
  · intro h
    rw [frames, splitOn_flatMap h, List.dropLast_concat]
    simp

theorem lineFeed_notMem_zulu (t : Timestamp) : '\n' ∉ t.zulu := by
  have hdigits : ∀ n k, '\n' ∉ zeroPadded n k := by
    intro n k h
    exact absurd (isDigit_of_mem_leftpad h) (by decide)
  simp [Timestamp.zulu, hdigits]

theorem lineFeed_mem_renderParams {ps : List (String × String)} (hps : ∀ p ∈ ps, IsName p.1) :
    '\n' ∈ renderParams ps ↔ ∃ p ∈ ps, '\n' ∈ p.2.toList := by
  rw [renderParams, List.mem_flatMap]
  refine exists_congr fun p => and_congr_right fun hp => ?_
  have hname : '\n' ∉ p.1.toList := fun h => absurd ((hps p hp).isNameChar _ h) (by decide)
  simp [renderParam, hname]

theorem encodeText_append (s t : String) : encodeText (s ++ t) = encodeText s ++ encodeText t := by
  have hof : ∀ s : String, encodeText s = s.toList.flatMap String.utf8EncodeChar := fun s => by
    rw [← encodeText_ofList, String.ofList_toList]
  rw [hof, hof, hof, String.toList_append, List.flatMap_append]

theorem lineFeed_mem_encodeText {s : String} : 10 ∈ encodeText s ↔ '\n' ∈ s.toList := by
  have hchar : ∀ c : Char, 10 ∈ String.utf8EncodeChar c ↔ '\n' = c := by
    intro c
    have hbyte : ∀ x, 10 = UInt8.ofNat x ↔ x % 256 = 10 := by
      intro x
      rw [← UInt8.toNat_inj, UInt8.toNat_ofNat', eq_comm]
      exact Iff.rfl
    have hfeed : '\n' = c ↔ c.val.toNat = 10 := by
      rw [eq_comm, Char.ext_iff, ← UInt32.toNat_inj]
      exact Iff.rfl
    rw [hfeed, String.utf8EncodeChar]
    split_ifs
    all_goals
      simp only [List.mem_cons, List.not_mem_nil, or_false, hbyte]
      omega
  rw [← @String.ofList_toList s, encodeText_ofList, String.toList_ofList, List.mem_flatMap]
  simp only [hchar, exists_eq_right']

end Framing

end Rfc5424

end CaManager.Library
