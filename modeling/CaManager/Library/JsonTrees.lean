import CaManager.Library.JsonLexing
import Mathlib.Data.String.Basic

/-!
# Writing JSON and reading it back

Objects are dictionaries: a later member overrides an earlier one of its name. They are written
over several lines with their members in the order of names, and read by a machine that keeps the
open brackets on a stack. Reading what was written gives the value with all members in order, and
of a value in that form the value itself.

Numbers that are no integers are whatever the language has: it writes them as words that are no
integers, and reads them back as they were.
-/

namespace CaManager.Library

section Decimals

def isDecimal : List Char → Bool
  | [] => false
  | [c] => c.isDigit
  | c :: cs => c.isDigit && c ≠ '0' && cs.all Char.isDigit

def readDecimal : List Char → Option ℤ
  | '-' :: cs => if isDecimal cs then readInt 10 ('-' :: cs) else none
  | cs => if isDecimal cs then readInt 10 cs else none

theorem isDigit_digitChar {d : ℕ} (hd : d < 10) : (Nat.digitChar d).isDigit = true := by
  interval_cases d <;> rfl

theorem isDecimal_append {cs : List Char} {c : Char} (hcs : isDecimal cs = true)
    (hzero : cs ≠ ['0']) (hc : c.isDigit = true) : isDecimal (cs ++ [c]) = true := by
  match cs with
  | [] => cases hcs
  | [d] =>
    have hd : d ≠ '0' := fun h => hzero (by rw [h])
    have hdigit : d.isDigit = true := hcs
    simp [isDecimal, hdigit, hd, hc]
  | d :: d' :: ds =>
    simp only [isDecimal, Bool.and_eq_true, List.all_cons] at hcs
    simp [isDecimal, hcs, hc]

theorem isDecimal_toDigits (n : ℕ) : isDecimal (Nat.toDigits 10 n) = true := by
  induction n using Nat.strong_induction_on with
  | _ n ih =>
    rcases Nat.lt_or_ge n 10 with h | h
    · rw [Nat.toDigits_of_lt_base h]
      exact isDigit_digitChar h
    · have hzero : Nat.toDigits 10 (n / 10) ≠ ['0'] := by
        intro heq
        have hread := readUnsigned_toDigits (by decide : 1 < 10) (by decide) (n / 10)
        have hvalue : readUnsigned 10 ['0'] = some 0 := by decide
        rw [heq, hvalue, Option.some.injEq] at hread
        omega
      rw [Nat.toDigits_of_base_le (by decide) h]
      exact isDecimal_append (ih (n / 10) (by omega)) hzero (isDigit_digitChar (by omega))

theorem readDecimal_writeInt (z : ℤ) : readDecimal (writeInt 10 z) = some z := by
  have hread := readInt_writeInt (by decide : 1 < 10) (by decide) z
  cases z with
  | ofNat n =>
    have hdecimal := isDecimal_toDigits n
    rw [writeInt] at hread ⊢
    unfold readDecimal
    split
    next cs hcs =>
      rw [hcs] at hdecimal
      cases cs <;> cases hdecimal
    next => rw [if_pos hdecimal, hread]
  | negSucc n =>
    rw [writeInt] at hread ⊢
    rw [readDecimal, if_pos (isDecimal_toDigits (n + 1)), hread]

theorem isWordChar_of_mem_writeInt {z : ℤ} {c : Char} (hc : c ∈ writeInt 10 z) :
    isWordChar c = true := by
  have hdigit : ∀ (n : ℕ), c ∈ Nat.toDigits 10 n → isWordChar c = true := by
    intro n hc
    obtain ⟨d, hd, rfl⟩ := exists_digit_of_mem_toDigits (by decide) hc
    interval_cases d <;> rfl
  cases z with
  | ofNat n => exact hdigit n hc
  | negSucc n =>
    rcases List.mem_cons.mp hc with rfl | hc
    · rfl
    · exact hdigit (n + 1) hc

end Decimals

/-- Numbers beside the integers, as a language writes and reads them. -/
class FloatText (F : Type*) where
  write : F → List Char
  read : List Char → Option F
  isZero : F → Bool
  read_write : ∀ x, read (write x) = some x
  write_ne_nil : ∀ x, write x ≠ []
  isWordChar_of_mem_write : ∀ x, ∀ c ∈ write x, isWordChar c = true
  readDecimal_write : ∀ x, readDecimal (write x) = none
  write_notMem_names : ∀ x, write x ∉ ["null".toList, "true".toList, "false".toList]

instance : FloatText Empty where
  write := Empty.elim
  read _ := none
  isZero := Empty.elim
  read_write x := x.elim
  write_ne_nil x := x.elim
  isWordChar_of_mem_write x := x.elim
  readDecimal_write x := x.elim
  write_notMem_names x := x.elim

inductive JsonTree (F : Type*)
  | null
  | bool (value : Bool)
  | integer (value : ℤ)
  | float (value : F)
  | text (value : String)
  | array (elements : List (JsonTree F))
  | object (members : List (String × JsonTree F))

abbrev JsonMembers (F : Type*) := List (String × JsonTree F)

namespace JsonTree

section Truth

variable {F : Type*} [FloatText F]

def truthy : JsonTree F → Bool
  | null => false
  | bool value => value
  | integer value => value ≠ 0
  | float value => !FloatText.isZero value
  | text value => value ≠ ""
  | array elements => !elements.isEmpty
  | object members => !members.isEmpty

def isText (name : String) : JsonTree F → Bool
  | text value => value = name
  | _ => false

end Truth

section Words

variable {F : Type*} [FloatText F]

def readWord (w : List Char) : Option (JsonTree F) :=
  if w = "null".toList then some null
  else if w = "true".toList then some (bool true)
  else if w = "false".toList then some (bool false)
  else
    match readDecimal w with
    | some z => some (integer z)
    | none => (FloatText.read w).map float

theorem readWord_writeInt (z : ℤ) : readWord (writeInt 10 z) = some (integer z : JsonTree F) := by
  have hread := readDecimal_writeInt z
  have hne : ∀ w : List Char, readDecimal w = none → writeInt 10 z ≠ w := by
    rintro w hw rfl
    rw [hread] at hw
    cases hw
  rw [readWord, if_neg (hne _ (by decide)), if_neg (hne _ (by decide)),
    if_neg (hne _ (by decide)), hread]

theorem readWord_write (x : F) : readWord (FloatText.write x) = some (float x) := by
  have hnames := FloatText.write_notMem_names x
  simp only [List.mem_cons, List.not_mem_nil, or_false, not_or] at hnames
  rw [readWord, if_neg hnames.1, if_neg hnames.2.1, if_neg hnames.2.2,
    FloatText.readDecimal_write, FloatText.read_write, Option.map_some]

end Words

section Canonical

variable {F : Type*}

def insertMember (k : String) (v : JsonTree F) : JsonMembers F → JsonMembers F
  | [] => [(k, v)]
  | (k', v') :: ms =>
    if k < k' then (k, v) :: (k', v') :: ms
    else if k = k' then (k', v') :: ms
    else (k', v') :: insertMember k v ms

mutual

def canonical : JsonTree F → JsonTree F
  | array es => array (canonicalElements es)
  | object ms => object (canonicalMembers ms)
  | v => v

def canonicalElements : List (JsonTree F) → List (JsonTree F)
  | [] => []
  | e :: es => canonical e :: canonicalElements es

def canonicalMembers : JsonMembers F → JsonMembers F
  | [] => []
  | (k, v) :: ms => insertMember k (canonical v) (canonicalMembers ms)

end

mutual

/-- Are the members of all its objects in the order of names, each name once? -/
def IsCanonical : JsonTree F → Prop
  | array es => AreCanonical es
  | object ms => MembersCanonical ms ∧ ms.Pairwise fun m m' => m.1 < m'.1
  | _ => True

def AreCanonical : List (JsonTree F) → Prop
  | [] => True
  | e :: es => e.IsCanonical ∧ AreCanonical es

def MembersCanonical : List (String × JsonTree F) → Prop
  | [] => True
  | (_, v) :: ms => v.IsCanonical ∧ MembersCanonical ms

end

theorem ne_of_pairwise {k : String} {v : JsonTree F} {ms ms' : JsonMembers F}
    (h : (ms ++ (k, v) :: ms').Pairwise fun m m' => m.1 < m'.1) : ∀ m ∈ ms, m.1 ≠ k := by
  intro m hm
  exact ((List.pairwise_append.mp h).2.2 m hm (k, v) List.mem_cons_self).ne

theorem mem_insertMember {k : String} {v : JsonTree F} {ms : JsonMembers F}
    {m : String × JsonTree F} (hm : m ∈ insertMember k v ms) : m = (k, v) ∨ m ∈ ms := by
  induction ms with
  | nil => exact .inl (List.mem_singleton.mp hm)
  | cons m' ms ih =>
    rw [insertMember] at hm
    split at hm
    · exact List.mem_cons.mp hm
    · split at hm
      · exact .inr hm
      · rcases List.mem_cons.mp hm with rfl | hm
        · exact .inr List.mem_cons_self
        · exact (ih hm).imp_right (List.mem_cons_of_mem _)

theorem pairwise_insertMember (k : String) (v : JsonTree F) {ms : JsonMembers F}
    (h : ms.Pairwise fun m m' => m.1 < m'.1) :
    (insertMember k v ms).Pairwise fun m m' => m.1 < m'.1 := by
  induction ms with
  | nil => exact List.pairwise_singleton _ _
  | cons m ms ih =>
    have hrest := List.pairwise_cons.mp h
    rw [insertMember]
    split
    next hlt =>
      refine List.pairwise_cons.mpr ⟨?_, h⟩
      intro m' hm'
      rcases List.mem_cons.mp hm' with rfl | hm'
      · exact hlt
      · exact hlt.trans (hrest.1 m' hm')
    next hlt =>
      split
      next => exact h
      next hne =>
        refine List.pairwise_cons.mpr ⟨?_, ih hrest.2⟩
        intro m' hm'
        rcases mem_insertMember hm' with rfl | hm'
        · exact lt_of_le_of_ne (not_lt.mp hlt) (Ne.symm hne)
        · exact hrest.1 m' hm'

theorem membersCanonical_insertMember {k : String} {v : JsonTree F} {ms : JsonMembers F}
    (hv : v.IsCanonical) (h : MembersCanonical ms) :
    MembersCanonical (insertMember k v ms) := by
  induction ms with
  | nil => exact ⟨hv, trivial⟩
  | cons m ms ih =>
    rw [insertMember]
    split
    · exact ⟨hv, h⟩
    · split
      · exact h
      · exact ⟨h.1, ih h.2⟩

theorem pairwise_canonicalMembers (ms : JsonMembers F) :
    (canonicalMembers ms).Pairwise fun m m' => m.1 < m'.1 := by
  induction ms with
  | nil => exact List.Pairwise.nil
  | cons m ms ih => exact pairwise_insertMember _ _ ih

mutual

theorem isCanonical_canonical : ∀ v : JsonTree F, v.canonical.IsCanonical
  | null => trivial
  | bool _ => trivial
  | integer _ => trivial
  | float _ => trivial
  | text _ => trivial
  | array es => areCanonical_canonicalElements es
  | object ms => ⟨membersCanonical_canonicalMembers ms, pairwise_canonicalMembers ms⟩

theorem areCanonical_canonicalElements :
    ∀ es : List (JsonTree F), AreCanonical (canonicalElements es)
  | [] => trivial
  | e :: es => ⟨isCanonical_canonical e, areCanonical_canonicalElements es⟩

theorem membersCanonical_canonicalMembers :
    ∀ ms : JsonMembers F, MembersCanonical (canonicalMembers ms)
  | [] => trivial
  | (_, v) :: ms =>
    membersCanonical_insertMember (isCanonical_canonical v) (membersCanonical_canonicalMembers ms)

end

theorem insertMember_of_forall_lt {k : String} {v : JsonTree F} {ms : JsonMembers F}
    (h : ∀ m ∈ ms, k < m.1) : insertMember k v ms = (k, v) :: ms := by
  cases ms with
  | nil => rfl
  | cons m ms => rw [insertMember, if_pos (h m List.mem_cons_self)]

mutual

theorem canonical_of_isCanonical : ∀ (v : JsonTree F) (_ : v.IsCanonical), v.canonical = v
  | null, _ => rfl
  | bool _, _ => rfl
  | integer _, _ => rfl
  | float _, _ => rfl
  | text _, _ => rfl
  | array es, h => by
    rw [canonical, canonicalElements_of_areCanonical es h]
  | object ms, h => by
    rw [canonical, canonicalMembers_of_membersCanonical ms h.1 h.2]

theorem canonicalElements_of_areCanonical :
    ∀ (es : List (JsonTree F)) (_ : AreCanonical es), canonicalElements es = es
  | [], _ => rfl
  | e :: es, h => by
    rw [canonicalElements, canonical_of_isCanonical e h.1, canonicalElements_of_areCanonical es h.2]

theorem canonicalMembers_of_membersCanonical :
    ∀ (ms : JsonMembers F) (_ : MembersCanonical ms)
      (_ : ms.Pairwise fun m m' => m.1 < m'.1), canonicalMembers ms = ms
  | [], _, _ => rfl
  | (k, v) :: ms, h, hsorted => by
    have hrest := List.pairwise_cons.mp hsorted
    rw [canonicalMembers, canonical_of_isCanonical v h.1,
      canonicalMembers_of_membersCanonical ms h.2 hrest.2, insertMember_of_forall_lt hrest.1]

end

@[simp] theorem canonical_canonical (v : JsonTree F) : v.canonical.canonical = v.canonical :=
  canonical_of_isCanonical _ (isCanonical_canonical v)

end Canonical

section Dictionaries

variable {F : Type*}

def lookup (k : String) : JsonMembers F → Option (JsonTree F)
  | [] => none
  | (k', v) :: ms =>
    match lookup k ms with
    | some w => some w
    | none => if k' = k then some v else none

theorem truthy_of_lookup [FloatText F] {k : String} {v : JsonTree F} {ms : JsonMembers F}
    (h : lookup k ms = some v) : (object ms).truthy = true := by
  cases ms with
  | nil => cases h
  | cons m ms => rfl

def without (k : String) (ms : JsonMembers F) : JsonMembers F := ms.filter fun m => m.1 ≠ k

theorem lookup_insertMember (k k' : String) (v : JsonTree F) (ms : JsonMembers F) :
    lookup k (insertMember k' v ms) = lookup k ((k', v) :: ms) := by
  induction ms with
  | nil => rfl
  | cons m ms ih =>
    rw [insertMember]
    split
    next => rfl
    next =>
      split
      next heq =>
        subst heq
        simp only [lookup]
        cases lookup k ms with
        | some w => rfl
        | none => by_cases hk : m.1 = k <;> simp [hk]
      next hne =>
        simp only [lookup] at ih ⊢
        rw [ih]
        cases lookup k ms with
        | some w => rfl
        | none =>
          by_cases hk : m.1 = k
          · have hk' : k' ≠ k := by
              rintro rfl
              exact hne hk.symm
            simp [hk, hk']
          · by_cases hk' : k' = k <;> simp [hk, hk']

theorem lookup_canonicalMembers (k : String) (ms : JsonMembers F) :
    lookup k (canonicalMembers ms) = (lookup k ms).map canonical := by
  induction ms with
  | nil => rfl
  | cons m ms ih =>
    obtain ⟨k', v⟩ := m
    rw [canonicalMembers, lookup_insertMember, lookup, lookup, ih]
    cases lookup k ms with
    | some w => rfl
    | none => by_cases hk : k' = k <;> simp [hk]

theorem without_insertMember (k : String) (v : JsonTree F) (ms : JsonMembers F) :
    without k (insertMember k v ms) = without k ms := by
  have hhead : ∀ ms', without k ((k, v) :: ms' : JsonMembers F) = without k ms' := by
    intro ms'
    rw [without, List.filter_cons_of_neg (by simp)]
    rfl
  induction ms with
  | nil => exact hhead []
  | cons m ms ih =>
    rw [insertMember]
    split
    next => exact hhead _
    next =>
      split
      next => rfl
      next => rw [without, without, List.filter_cons, List.filter_cons, ← without, ih, without]

theorem without_insertMember_of_ne {k k' : String} (hne : k' ≠ k) (v : JsonTree F)
    {ms : JsonMembers F} (h : ms.Pairwise fun m m' => m.1 < m'.1) :
    without k (insertMember k' v ms) = insertMember k' v (without k ms) := by
  have hkeep : ∀ (m : String × JsonTree F) ms', m.1 ≠ k →
      without k (m :: ms' : JsonMembers F) = m :: without k ms' := by
    intro m ms' hm
    rw [without, List.filter_cons_of_pos (by simpa using hm)]
    rfl
  induction ms with
  | nil => exact hkeep (k', v) [] hne
  | cons m ms ih =>
    have hrest := List.pairwise_cons.mp h
    rw [insertMember]
    split
    next hlt =>
      have hall : ∀ m' ∈ without k (m :: ms), k' < m'.1 := by
        intro m' hm'
        rcases List.mem_cons.mp (List.mem_of_mem_filter hm') with rfl | hm'
        · exact hlt
        · exact hlt.trans (hrest.1 m' hm')
      rw [hkeep _ _ hne, insertMember_of_forall_lt hall]
    next hlt =>
      split
      next heq =>
        have hm : m.1 ≠ k := heq ▸ hne
        rw [hkeep m ms hm, insertMember, if_neg hlt, if_pos heq]
      next hk' =>
        by_cases hm : m.1 = k
        · have hdrop : ∀ ms', without k (m :: ms' : JsonMembers F) = without k ms' := by
            intro ms'
            rw [without, List.filter_cons_of_neg (by simp [hm])]
            rfl
          rw [hdrop, hdrop, ih hrest.2]
        · rw [hkeep m _ hm, hkeep m _ hm, ih hrest.2, insertMember, if_neg hlt, if_neg hk']

theorem without_canonicalMembers_append {k : String} {v : JsonTree F} {ms : JsonMembers F}
    (h : ∀ m ∈ ms, m.1 ≠ k) :
    without k (canonicalMembers (ms ++ [(k, v)])) = canonicalMembers ms := by
  induction ms with
  | nil => exact without_insertMember k v.canonical []
  | cons m ms ih =>
    rw [List.cons_append, canonicalMembers, canonicalMembers,
      without_insertMember_of_ne (h m List.mem_cons_self) _ (pairwise_canonicalMembers _),
      ih fun m' hm' => h m' (List.mem_cons_of_mem _ hm')]

theorem lookup_append_self (k : String) (v : JsonTree F) (ms : JsonMembers F) :
    lookup k (ms ++ [(k, v)]) = some v := by
  induction ms with
  | nil => simp [lookup]
  | cons m ms ih => rw [List.cons_append, lookup, ih]

end Dictionaries

section Writing

variable {F : Type*} [FloatText F]

def newline (depth : ℕ) : List Char := '\n' :: List.replicate (2 * depth) ' '

mutual

def write (depth : ℕ) : JsonTree F → List Char
  | null => "null".toList
  | bool true => "true".toList
  | bool false => "false".toList
  | integer z => writeInt 10 z
  | float x => FloatText.write x
  | text s => quote s
  | array [] => ['[', ']']
  | array (e :: es) =>
    '[' :: (newline (depth + 1) ++ write (depth + 1) e ++ writeElements (depth + 1) es ++
      newline depth ++ [']'])
  | object [] => ['\x7b', '\x7d']
  | object ((k, v) :: ms) =>
    '\x7b' :: (newline (depth + 1) ++ quote k ++ [':', ' '] ++ write (depth + 1) v ++
      writeMembers (depth + 1) ms ++ newline depth ++ ['\x7d'])

def writeElements (depth : ℕ) : List (JsonTree F) → List Char
  | [] => []
  | e :: es => ',' :: (newline depth ++ write depth e ++ writeElements depth es)

def writeMembers (depth : ℕ) : List (String × JsonTree F) → List Char
  | [] => []
  | (k, v) :: ms =>
    ',' :: (newline depth ++ quote k ++ [':', ' '] ++ write depth v ++ writeMembers depth ms)

end

def dumps (v : JsonTree F) : String := String.ofList (write 0 v.canonical)

end Writing

section Reading

variable {F : Type*}

def setMember (k : String) (v : JsonTree F) : JsonMembers F → JsonMembers F
  | [] => [(k, v)]
  | (k', v') :: ms => if k = k' then (k, v) :: ms else (k', v') :: setMember k v ms

/-- An open bracket with what was read in it, for an object also the name whose value follows. -/
inductive Frame (F : Type*)
  | array (elements : List (JsonTree F))
  | object (members : JsonMembers F) (name : String)

theorem setMember_of_notMem {k : String} {v : JsonTree F} {ms : JsonMembers F}
    (h : ∀ m ∈ ms, m.1 ≠ k) : setMember k v ms = ms ++ [(k, v)] := by
  induction ms with
  | nil => rfl
  | cons m ms ih =>
    have hne : k ≠ m.1 := (h m List.mem_cons_self).symm
    rw [setMember, if_neg hne, ih fun m' hm' => h m' (List.mem_cons_of_mem _ hm'),
      List.cons_append]

inductive Reader (F : Type*)
  | value (stack : List (Frame F))
  | element (stack : List (Frame F))
  | member (stack : List (Frame F))
  | name (members : JsonMembers F) (stack : List (Frame F))
  | colon (members : JsonMembers F) (name : String) (stack : List (Frame F))
  | done (v : JsonTree F) (stack : List (Frame F))

variable [FloatText F]

def readValue (stack : List (Frame F)) : JsonToken → Option (Reader F)
  | .openArray => some (.element stack)
  | .openObject => some (.member stack)
  | .text s => some (.done (text s) stack)
  | .word w => (readWord w).map (.done · stack)
  | _ => none

def readToken : Reader F → JsonToken → Option (Reader F)
  | .value stack, token => readValue stack token
  | .element stack, .closeArray => some (.done (array []) stack)
  | .element stack, token => readValue (.array [] :: stack) token
  | .member stack, .closeObject => some (.done (object []) stack)
  | .member stack, .text k => some (.colon [] k stack)
  | .name ms stack, .text k => some (.colon ms k stack)
  | .colon ms k stack, .colon => some (.value (.object ms k :: stack))
  | .done v (.array es :: stack), .comma => some (.value (.array (es ++ [v]) :: stack))
  | .done v (.array es :: stack), .closeArray => some (.done (array (es ++ [v])) stack)
  | .done v (.object ms k :: stack), .comma => some (.name (setMember k v ms) stack)
  | .done v (.object ms k :: stack), .closeObject =>
    some (.done (object (setMember k v ms)) stack)
  | _, _ => none

def readTokens (r : Reader F) (tokens : List JsonToken) : Option (Reader F) :=
  tokens.foldlM readToken r

def finished : Reader F → Option (JsonTree F)
  | .done v [] => some v
  | _ => none

def loads (s : String) : Option (JsonTree F) :=
  ((lex s.toList).bind (readTokens (.value []))).bind finished

end Reading

section RoundTrip

variable {F : Type*} [FloatText F]

mutual

def tokens : JsonTree F → List JsonToken
  | null => [.word "null".toList]
  | bool true => [.word "true".toList]
  | bool false => [.word "false".toList]
  | integer z => [.word (writeInt 10 z)]
  | float x => [.word (FloatText.write x)]
  | text s => [.text s]
  | array [] => [.openArray, .closeArray]
  | array (e :: es) => .openArray :: (e.tokens ++ (tokensOfElements es ++ [.closeArray]))
  | object [] => [.openObject, .closeObject]
  | object ((k, v) :: ms) =>
    .openObject :: .text k :: .colon :: (v.tokens ++ (tokensOfMembers ms ++ [.closeObject]))

def tokensOfElements : List (JsonTree F) → List JsonToken
  | [] => []
  | e :: es => .comma :: (e.tokens ++ tokensOfElements es)

def tokensOfMembers : List (String × JsonTree F) → List JsonToken
  | [] => []
  | (k, v) :: ms => .comma :: .text k :: .colon :: (v.tokens ++ tokensOfMembers ms)

end

theorem isJsonSpace_of_mem_newline {depth : ℕ} {c : Char} (hc : c ∈ newline depth) :
    isJsonSpace c = true := by
  rcases List.mem_cons.mp hc with rfl | hc
  · rfl
  · rw [List.eq_of_mem_replicate hc]
    rfl

theorem lexedAs_newline {cs : List Char} {ts : List JsonToken} (depth : ℕ) (h : LexedAs cs ts) :
    LexedAs (newline depth ++ cs) ts :=
  h.spaces fun _ hc => isJsonSpace_of_mem_newline hc

theorem endsWord_newline (depth : ℕ) (cs : List Char) : EndsWord (newline depth ++ cs) :=
  endsWord_cons rfl

theorem endsWord_writeElements (depth : ℕ) (es : List (JsonTree F)) :
    EndsWord (writeElements depth es) := by
  cases es with
  | nil => exact endsWord_nil
  | cons e es => exact endsWord_cons rfl

theorem endsWord_writeMembers (depth : ℕ) (ms : JsonMembers F) :
    EndsWord (writeMembers depth ms) := by
  cases ms with
  | nil => exact endsWord_nil
  | cons m ms => exact endsWord_cons rfl

mutual

theorem lexedAs_write (depth : ℕ) : ∀ v : JsonTree F, LexedAs (v.write depth) v.tokens
  | null => lexedAs_name "null".toList (by decide) (by decide)
  | bool true => lexedAs_name "true".toList (by decide) (by decide)
  | bool false => lexedAs_name "false".toList (by decide) (by decide)
  | integer z => lexedAs_word (writeInt_ne_nil z) fun _ hc => isWordChar_of_mem_writeInt hc
  | float x => lexedAs_word (FloatText.write_ne_nil x) (FloatText.isWordChar_of_mem_write x)
  | text s => by
    have hquote := LexedAs.quote_append s lexedAs_nil
    rwa [List.append_nil] at hquote
  | array [] => .mark rfl (.mark rfl lexedAs_nil)
  | array (e :: es) => by
    have hclose : LexedAs (newline depth ++ [']']) [.closeArray] :=
      lexedAs_newline depth (.mark rfl lexedAs_nil)
    have hrest := (lexedAs_writeElements (depth + 1) es).append hclose (endsWord_newline depth _)
    have hall := (lexedAs_write (depth + 1) e).append hrest
      ((endsWord_writeElements (depth + 1) es).append (endsWord_newline depth _))
    simp only [write, tokens, List.append_assoc]
    exact .mark rfl (lexedAs_newline (depth + 1) hall)
  | object [] => .mark rfl (.mark rfl lexedAs_nil)
  | object ((k, v) :: ms) => by
    have hclose : LexedAs (newline depth ++ ['\x7d']) [.closeObject] :=
      lexedAs_newline depth (.mark rfl lexedAs_nil)
    have hrest := (lexedAs_writeMembers (depth + 1) ms).append hclose (endsWord_newline depth _)
    have hall := (lexedAs_write (depth + 1) v).append hrest
      ((endsWord_writeMembers (depth + 1) ms).append (endsWord_newline depth _))
    have hblank : LexedAs ([' '] ++ _) _ := .spaces (List.all_eq_true.mp rfl) hall
    simp only [write, tokens, List.append_assoc]
    exact .mark rfl (lexedAs_newline (depth + 1) (.quote_append k (.mark rfl hblank)))

theorem lexedAs_writeElements (depth : ℕ) :
    ∀ es : List (JsonTree F), LexedAs (writeElements depth es) (tokensOfElements es)
  | [] => lexedAs_nil
  | e :: es => by
    have hall := (lexedAs_write depth e).append (lexedAs_writeElements depth es)
      (endsWord_writeElements depth es)
    simp only [writeElements, tokensOfElements, List.append_assoc]
    exact .mark rfl (lexedAs_newline depth hall)

theorem lexedAs_writeMembers (depth : ℕ) :
    ∀ ms : JsonMembers F, LexedAs (writeMembers depth ms) (tokensOfMembers ms)
  | [] => lexedAs_nil
  | (k, v) :: ms => by
    have hall := (lexedAs_write depth v).append (lexedAs_writeMembers depth ms)
      (endsWord_writeMembers depth ms)
    have hblank : LexedAs ([' '] ++ _) _ := .spaces (List.all_eq_true.mp rfl) hall
    simp only [writeMembers, tokensOfMembers, List.append_assoc]
    exact .mark rfl (lexedAs_newline depth (.quote_append k (.mark rfl hblank)))

end

theorem readTokens_append (r : Reader F) (ts ts' : List JsonToken) :
    readTokens r (ts ++ ts') = (readTokens r ts).bind fun r' => readTokens r' ts' := by
  rw [readTokens, List.foldlM_append]
  rfl

theorem readTokens_cons {r r' : Reader F} {token : JsonToken} (h : readToken r token = some r')
    (ts : List JsonToken) : readTokens r (token :: ts) = readTokens r' ts := by
  rw [readTokens, List.foldlM_cons, h]
  rfl

theorem readTokens_word {w : List Char} {v : JsonTree F} (hw : readWord w = some v)
    (stack : List (Frame F)) : readTokens (.value stack) [.word w] = some (.done v stack) := by
  have hread : readToken (.value stack) (.word w) = some (.done v stack) := by
    rw [readToken, readValue, hw, Option.map_some]
  rw [readTokens_cons hread]
  rfl

theorem readTokens_element (v : JsonTree F) (stack : List (Frame F)) :
    readTokens (.element stack) v.tokens = readTokens (.value (.array [] :: stack)) v.tokens := by
  have hcons : ∀ token ts, token ≠ JsonToken.closeArray →
      readTokens (.element stack) (token :: ts) =
        readTokens (.value (.array [] :: stack)) (token :: ts) := by
    intro token ts hne
    have hread : readToken (.element stack) token =
        readToken (.value (.array [] :: stack) : Reader F) token := by
      cases token <;> first | exact absurd rfl hne | rfl
    rw [readTokens, readTokens, List.foldlM_cons, List.foldlM_cons, hread]
  match v with
  | null => exact hcons _ _ (by decide)
  | bool true => exact hcons _ _ (by decide)
  | bool false => exact hcons _ _ (by decide)
  | integer z => exact hcons _ _ JsonToken.noConfusion
  | float x => exact hcons _ _ JsonToken.noConfusion
  | text s => exact hcons _ _ JsonToken.noConfusion
  | array [] => exact hcons _ _ (by decide)
  | array (e :: es) => exact hcons _ _ (by decide)
  | object [] => exact hcons _ _ (by decide)
  | object (m :: ms) => exact hcons _ _ (by decide)

mutual

theorem readTokens_tokens : ∀ (v : JsonTree F) (_ : v.IsCanonical) (stack : List (Frame F)),
    readTokens (.value stack) v.tokens = some (.done v stack)
  | null, _, stack => readTokens_word rfl stack
  | bool true, _, stack => readTokens_word rfl stack
  | bool false, _, stack => readTokens_word rfl stack
  | integer z, _, stack => readTokens_word (readWord_writeInt z) stack
  | float x, _, stack => readTokens_word (readWord_write x) stack
  | text s, _, stack => rfl
  | array [], _, stack => rfl
  | array (e :: es), h, stack => by
    have hopen : readToken (.value stack : Reader F) .openArray = some (.element stack) := rfl
    rw [tokens, readTokens_cons hopen, readTokens_append, readTokens_element,
      readTokens_tokens e h.1, Option.bind_some, readTokens_tokensOfElements es h.2 e [],
      List.nil_append]
  | object [], _, stack => rfl
  | object ((k, v) :: ms), h, stack => by
    have hopen : readToken (.value stack : Reader F) .openObject = some (.member stack) := rfl
    have hname : readToken (.member stack : Reader F) (.text k) = some (.colon [] k stack) := rfl
    have hcolon : readToken (.colon [] k stack : Reader F) .colon =
        some (.value (.object [] k :: stack)) := rfl
    rw [tokens, readTokens_cons hopen, readTokens_cons hname, readTokens_cons hcolon,
      readTokens_append, readTokens_tokens v h.1.1, Option.bind_some,
      readTokens_tokensOfMembers ms h.1.2 k v [] stack h.2, List.nil_append]

theorem readTokens_tokensOfElements : ∀ (es : List (JsonTree F)) (_ : AreCanonical es)
    (e : JsonTree F) (before : List (JsonTree F)) (stack : List (Frame F)),
    (readTokens (.done e (.array before :: stack)) (tokensOfElements es ++ [.closeArray])) =
      some (.done (array (before ++ e :: es)) stack)
  | [], _, e, before, stack => rfl
  | e' :: es, h, e, before, stack => by
    have hcomma : readToken (.done e (.array before :: stack)) .comma =
        some (.value (.array (before ++ [e]) :: stack)) := rfl
    rw [tokensOfElements, List.cons_append, readTokens_cons hcomma, List.append_assoc,
      readTokens_append, readTokens_tokens e' h.1, Option.bind_some,
      readTokens_tokensOfElements es h.2, List.append_assoc, List.singleton_append]

theorem readTokens_tokensOfMembers : ∀ (ms : JsonMembers F) (_ : MembersCanonical ms)
    (k : String) (v : JsonTree F) (before : JsonMembers F) (stack : List (Frame F)),
    ((before ++ (k, v) :: ms).Pairwise fun m m' => m.1 < m'.1) →
    (readTokens (.done v (.object before k :: stack)) (tokensOfMembers ms ++ [.closeObject])) =
      some (.done (object (before ++ (k, v) :: ms)) stack)
  | [], _, k, v, before, stack, hsorted => by
    have hclose : readToken (.done v (.object before k :: stack)) .closeObject =
        some (.done (object (setMember k v before)) stack) := rfl
    rw [tokensOfMembers, List.nil_append, readTokens_cons hclose,
      setMember_of_notMem (ne_of_pairwise hsorted)]
    rfl
  | (k', v') :: ms, h, k, v, before, stack, hsorted => by
    have hcomma : readToken (.done v (.object before k :: stack)) .comma =
        some (.name (setMember k v before) stack) := rfl
    have hname : readToken (.name (setMember k v before) stack) (.text k') =
        some (.colon (setMember k v before) k' stack) := rfl
    have hcolon : readToken (.colon (setMember k v before) k' stack) .colon =
        some (.value (.object (setMember k v before) k' :: stack)) := rfl
    have hsorted' : ((before ++ [(k, v)]) ++ (k', v') :: ms).Pairwise fun m m' => m.1 < m'.1 := by
      rwa [List.append_assoc, List.singleton_append]
    rw [tokensOfMembers, List.cons_append, List.cons_append, List.cons_append,
      readTokens_cons hcomma, readTokens_cons hname, readTokens_cons hcolon, List.append_assoc,
      readTokens_append, readTokens_tokens v' h.1, Option.bind_some,
      setMember_of_notMem (ne_of_pairwise hsorted),
      readTokens_tokensOfMembers ms h.2 k' v' _ stack hsorted', List.append_assoc,
      List.singleton_append]

end

theorem loads_dumps (v : JsonTree F) : loads v.dumps = some v.canonical := by
  rw [loads, dumps, String.toList_ofList, lex_of_lexedAs (lexedAs_write 0 v.canonical),
    Option.bind_some, readTokens_tokens _ (isCanonical_canonical v)]
  rfl

end RoundTrip

end JsonTree

end CaManager.Library
