import Mathlib.Data.Nat.Init
import Mathlib.Tactic.IntervalCases

/-!
# Integers as text

A program that keeps an integer in a text column writes it in one base and reads it in
one base. This file writes integers in any base up to 16, reads them back by the usual
liberal grammar (blanks around, a sign, a base mark, single underscores between the
digits), and proves that a text read in the base it was written in gives the integer.
Reading in another base is exact only below the smaller of the two.
-/

namespace CaManager.Library

def digitValue (base : ℕ) (c : Char) : Option ℕ :=
  let v :=
    if '0' ≤ c ∧ c ≤ '9' then c.toNat - 48
    else if 'a' ≤ c ∧ c ≤ 'z' then c.toNat - 87
    else if 'A' ≤ c ∧ c ≤ 'Z' then c.toNat - 55
    else base
  if v < base then some v else none

/-- The digits after the first one, a single underscore being allowed before each. -/
def readTail (base : ℕ) : ℕ → List Char → Option ℕ
  | acc, [] => some acc
  | acc, '_' :: c :: cs => (digitValue base c).bind fun d => readTail base (acc * base + d) cs
  | acc, c :: cs => (digitValue base c).bind fun d => readTail base (acc * base + d) cs

def readUnsigned (base : ℕ) : List Char → Option ℕ
  | [] => none
  | c :: cs => (digitValue base c).bind fun d => readTail base d cs

def radixLetters : ℕ → List Char
  | 16 => ['x', 'X']
  | 8 => ['o', 'O']
  | 2 => ['b', 'B']
  | _ => []

def readMarked (base : ℕ) : List Char → Option ℕ
  | '0' :: c :: cs =>
    if c ∈ radixLetters base then
      match cs with
      | '_' :: rest => readUnsigned base rest
      | _ => readUnsigned base cs
    else readUnsigned base ('0' :: c :: cs)
  | cs => readUnsigned base cs

def isBlank (c : Char) : Bool :=
  c = ' ' || c = '\t' || c = '\n' || c = '\r' || c = '\x0b' || c = '\x0c'

def stripBlanks (cs : List Char) : List Char :=
  ((cs.dropWhile isBlank).reverse.dropWhile isBlank).reverse

def readInt (base : ℕ) (cs : List Char) : Option ℤ :=
  match stripBlanks cs with
  | '-' :: rest => (readMarked base rest).map fun n => -(n : ℤ)
  | '+' :: rest => (readMarked base rest).map fun n => (n : ℤ)
  | rest => (readMarked base rest).map fun n => (n : ℤ)

/-- The text of an integer in a base, in lower case and without a base mark. -/
def writeInt (base : ℕ) : ℤ → List Char
  | .ofNat n => Nat.toDigits base n
  | .negSucc n => '-' :: Nat.toDigits base (n + 1)

section Digits

variable {base : ℕ}

theorem digitValue_digitChar {d : ℕ} (hd : d < base) (hb : base ≤ 16) :
    digitValue base (Nat.digitChar d) = some d := by
  have hraw : ∀ d < 16, ∀ b, d < b → digitValue b (Nat.digitChar d) = some d := by
    intro d hd b hdb
    interval_cases d <;> simp [digitValue, Nat.digitChar, hdb]
  exact hraw d (by omega) base hd

theorem digitValue_eq_none {c : Char} (hdigit : ¬('0' ≤ c ∧ c ≤ '9'))
    (hlower : ¬('a' ≤ c ∧ c ≤ 'z')) (hupper : ¬('A' ≤ c ∧ c ≤ 'Z')) :
    digitValue base c = none := by
  unfold digitValue
  rw [if_neg hdigit, if_neg hlower, if_neg hupper]
  simp

theorem exists_digit_of_mem_toDigits (hb : 1 < base) {n : ℕ} {c : Char}
    (hc : c ∈ Nat.toDigits base n) : ∃ d < base, c = Nat.digitChar d := by
  induction n using Nat.strong_induction_on with
  | _ n ih =>
    rcases Nat.lt_or_ge n base with h | h
    · rw [Nat.toDigits_of_lt_base h, List.mem_singleton] at hc
      exact ⟨n, h, hc⟩
    · rw [Nat.toDigits_of_base_le hb h, List.mem_append, List.mem_singleton] at hc
      rcases hc with hc | hc
      · exact ih (n / base) (Nat.div_lt_self (by omega) hb) hc
      · exact ⟨n % base, Nat.mod_lt _ (by omega), hc⟩

theorem digitValue_isSome_of_mem_toDigits (hb : 1 < base) (hb' : base ≤ 16) {n : ℕ} {c : Char}
    (hc : c ∈ Nat.toDigits base n) : (digitValue base c).isSome := by
  obtain ⟨d, hd, rfl⟩ := exists_digit_of_mem_toDigits hb hc
  simp [digitValue_digitChar hd hb']

theorem ne_of_mem_toDigits (hb : 1 < base) (hb' : base ≤ 16) {n : ℕ} {c : Char} (e : Char)
    (he : digitValue base e = none) (hc : c ∈ Nat.toDigits base n) : c ≠ e := by
  rintro rfl
  simpa [he] using digitValue_isSome_of_mem_toDigits hb hb' hc

theorem readTail_append {acc v d : ℕ} {cs : List Char} {c : Char}
    (hcs : readTail base acc cs = some v) (hc : digitValue base c = some d) :
    readTail base acc (cs ++ [c]) = some (v * base + d) := by
  induction acc, cs using readTail.induct base with
  | case1 acc =>
    simp only [readTail, Option.some.injEq] at hcs
    subst hcs
    simp [readTail, hc]
  | case2 acc c' cs ih =>
    simp only [readTail, Option.bind_eq_some_iff, List.cons_append] at hcs ⊢
    obtain ⟨d', hd', hrest⟩ := hcs
    exact ⟨d', hd', ih d' hrest⟩
  | case3 acc c' cs h ih =>
    have hne : c' ≠ '_' := by
      rintro rfl
      rcases cs with _ | ⟨c'', cs⟩
      · have hnone : digitValue base '_' = none :=
          digitValue_eq_none (by decide) (by decide) (by decide)
        simp [readTail, hnone] at hcs
      · exact h c'' cs rfl rfl
    rw [readTail] at hcs
    · rw [List.cons_append, readTail]
      · simp only [Option.bind_eq_some_iff] at hcs ⊢
        obtain ⟨d', hd', hrest⟩ := hcs
        exact ⟨d', hd', ih d' hrest⟩
      · exact fun _ _ hmark _ => hne hmark
    · exact fun _ _ hmark _ => hne hmark

theorem readUnsigned_append {v d : ℕ} {cs : List Char} {c : Char}
    (hcs : readUnsigned base cs = some v) (hc : digitValue base c = some d) :
    readUnsigned base (cs ++ [c]) = some (v * base + d) := by
  rcases cs with _ | ⟨c', cs⟩
  · cases hcs
  · simp only [readUnsigned, Option.bind_eq_some_iff, List.cons_append] at hcs ⊢
    obtain ⟨d', hd', hrest⟩ := hcs
    exact ⟨d', hd', readTail_append hrest hc⟩

theorem readUnsigned_toDigits (hb : 1 < base) (hb' : base ≤ 16) (n : ℕ) :
    readUnsigned base (Nat.toDigits base n) = some n := by
  induction n using Nat.strong_induction_on with
  | _ n ih =>
    rcases Nat.lt_or_ge n base with h | h
    · rw [Nat.toDigits_of_lt_base h]
      simp [readUnsigned, readTail, digitValue_digitChar h hb']
    · rw [Nat.toDigits_of_base_le hb h]
      have hlast := digitValue_digitChar (Nat.mod_lt n (by omega : 0 < base)) hb'
      rw [readUnsigned_append (ih (n / base) (Nat.div_lt_self (by omega) hb)) hlast,
        Nat.div_add_mod' n base]

theorem digitValue_radixLetter {c : Char} (hc : c ∈ radixLetters base) :
    digitValue base c = none := by
  unfold radixLetters at hc
  split at hc <;> simp only [List.mem_cons, List.not_mem_nil, or_false] at hc
  all_goals rcases hc with rfl | rfl <;> decide

theorem readMarked_toDigits (hb : 1 < base) (hb' : base ≤ 16) (n : ℕ) :
    readMarked base (Nat.toDigits base n) = some n := by
  have hread := readUnsigned_toDigits hb hb' n
  unfold readMarked
  split
  next c cs hcs =>
    have hc : c ∉ radixLetters base := fun hmem =>
      ne_of_mem_toDigits hb hb' (n := n) c (digitValue_radixLetter hmem)
        (hcs ▸ List.mem_cons_of_mem _ List.mem_cons_self) rfl
    rw [if_neg hc, ← hcs, hread]
  next => exact hread

end Digits

section Signed

variable {base : ℕ}

theorem stripBlanks_of_forall {cs : List Char} (h : ∀ c ∈ cs, isBlank c = false) :
    stripBlanks cs = cs := by
  have hkeep : ∀ ds : List Char, (∀ c ∈ ds, isBlank c = false) → ds.dropWhile isBlank = ds := by
    intro ds hds
    rcases ds with _ | ⟨d, ds⟩
    · rfl
    · rw [List.dropWhile_cons_of_neg (by simp [hds d List.mem_cons_self])]
  rw [stripBlanks, hkeep cs h, hkeep _ fun c hc => h c (List.mem_reverse.mp hc),
    List.reverse_reverse]

theorem isBlank_eq_false_of_digit {c : Char} (hc : (digitValue base c).isSome) :
    isBlank c = false := by
  by_contra hblank
  simp only [Bool.not_eq_false, isBlank, Bool.or_eq_true, decide_eq_true_eq] at hblank
  have hnone : digitValue base c = none := by
    rcases hblank with ((((rfl | rfl) | rfl) | rfl) | rfl) | rfl <;>
      exact digitValue_eq_none (by decide) (by decide) (by decide)
  simp [hnone] at hc

theorem readInt_writeInt (hb : 1 < base) (hb' : base ≤ 16) (z : ℤ) :
    readInt base (writeInt base z) = some z := by
  have hdigits : ∀ n : ℕ, ∀ c ∈ Nat.toDigits base n, isBlank c = false := fun n c hc =>
    isBlank_eq_false_of_digit (digitValue_isSome_of_mem_toDigits hb hb' hc)
  have hne : ∀ (n : ℕ) (sign : Char) (rest : List Char), digitValue base sign = none →
      Nat.toDigits base n ≠ sign :: rest := fun n sign rest hsign heq =>
    ne_of_mem_toDigits hb hb' (n := n) sign hsign (heq ▸ List.mem_cons_self) rfl
  cases z with
  | ofNat n =>
    rw [readInt, writeInt, stripBlanks_of_forall (hdigits n)]
    split
    next rest h =>
      exact absurd h (hne n '-' rest (digitValue_eq_none (by decide) (by decide) (by decide)))
    next rest h =>
      exact absurd h (hne n '+' rest (digitValue_eq_none (by decide) (by decide) (by decide)))
    next => simp [readMarked_toDigits hb hb']
  | negSucc n =>
    have hblank : ∀ c ∈ '-' :: Nat.toDigits base (n + 1), isBlank c = false := by
      intro c hc
      rcases List.mem_cons.mp hc with rfl | hc
      · decide
      · exact hdigits _ c hc
    rw [readInt, writeInt, stripBlanks_of_forall hblank]
    simp [readMarked_toDigits hb hb', Int.negSucc_eq]

theorem writeInt_ne_nil (z : ℤ) : writeInt base z ≠ [] := by
  cases z with
  | ofNat n => exact Nat.toDigits_ne_nil
  | negSucc n => exact List.cons_ne_nil _ _

theorem writeInt_eq_of_natAbs_lt {base' : ℕ} {z : ℤ} (h : z.natAbs < base)
    (h' : z.natAbs < base') : writeInt base z = writeInt base' z := by
  cases z with
  | ofNat n =>
    change Nat.toDigits base n = Nat.toDigits base' n
    exact (Nat.toDigits_of_lt_base h).trans (Nat.toDigits_of_lt_base h').symm
  | negSucc n =>
    have hlt : n + 1 < base := h
    have hlt' : n + 1 < base' := h'
    simp only [writeInt, Nat.toDigits_of_lt_base hlt, Nat.toDigits_of_lt_base hlt']

theorem readInt_of_digits {cs : List Char} (h : ∀ c ∈ cs, (digitValue base c).isSome) :
    readInt base cs = (readUnsigned base cs).map fun n : ℕ => (n : ℤ) := by
  have hsign : ∀ sign rest, cs = sign :: rest → digitValue base sign ≠ none := by
    rintro sign rest rfl hnone
    have hsome := h sign List.mem_cons_self
    rw [hnone] at hsome
    cases hsome
  have hmarked : readMarked base cs = readUnsigned base cs := by
    unfold readMarked
    split
    next c rest =>
      have hc : c ∉ radixLetters base := by
        intro hmem
        have hsome := h c (List.mem_cons_of_mem _ List.mem_cons_self)
        rw [digitValue_radixLetter hmem] at hsome
        cases hsome
      rw [if_neg hc]
    next => rfl
  rw [readInt, stripBlanks_of_forall fun c hc => isBlank_eq_false_of_digit (h c hc)]
  split
  next rest =>
    exact absurd (digitValue_eq_none (by decide) (by decide) (by decide)) (hsign '-' rest rfl)
  next rest =>
    exact absurd (digitValue_eq_none (by decide) (by decide) (by decide)) (hsign '+' rest rfl)
  next =>
    rw [hmarked]
    cases readUnsigned base cs with
    | none => rfl
    | some n => rfl

theorem readTail_cons_of_digit {acc d : ℕ} {c : Char} {cs : List Char}
    (hc : digitValue base c = some d) :
    readTail base acc (c :: cs) = readTail base (acc * base + d) cs := by
  have hmark : digitValue base '_' = none :=
    digitValue_eq_none (by decide) (by decide) (by decide)
  rw [readTail.eq_def]
  split
  next h => cases h
  next h =>
    rw [← (List.cons.inj h).1, hc] at hmark
    cases hmark
  next h =>
    obtain ⟨rfl, rfl⟩ := List.cons.inj h
    rw [hc, Option.bind_some]

theorem digitValue_toUpper {d : ℕ} (hd : d < 16) :
    digitValue 16 (Nat.digitChar d).toUpper = some d := by
  have hall : ∀ d < 16, digitValue 16 (Nat.digitChar d).toUpper = some d := by decide
  exact hall d hd

theorem readUnsigned_map_toUpper {cs : List Char} (h : ∀ c ∈ cs, ∃ d < 16, c = Nat.digitChar d) :
    readUnsigned 16 (cs.map Char.toUpper) = readUnsigned 16 cs := by
  have htail : ∀ (cs : List Char) (acc : ℕ), (∀ c ∈ cs, ∃ d < 16, c = Nat.digitChar d) →
      readTail 16 acc (cs.map Char.toUpper) = readTail 16 acc cs := by
    intro cs
    induction cs with
    | nil => exact fun _ _ => rfl
    | cons c cs ih =>
      intro acc h
      obtain ⟨d, hd, rfl⟩ := h c List.mem_cons_self
      rw [List.map_cons, readTail_cons_of_digit (digitValue_toUpper hd),
        readTail_cons_of_digit (digitValue_digitChar hd le_rfl),
        ih _ fun c hc => h c (List.mem_cons_of_mem _ hc)]
  cases cs with
  | nil => rfl
  | cons c cs =>
    obtain ⟨d, hd, rfl⟩ := h c List.mem_cons_self
    rw [List.map_cons, readUnsigned, readUnsigned, digitValue_toUpper hd,
      digitValue_digitChar hd le_rfl, Option.bind_some, Option.bind_some]
    exact htail cs d fun c hc => h c (List.mem_cons_of_mem _ hc)

theorem readInt_map_toUpper (n : ℕ) :
    readInt 16 ((writeInt 16 n).map Char.toUpper) = some (n : ℤ) := by
  have hdigits : ∀ c ∈ Nat.toDigits 16 n, ∃ d < 16, c = Nat.digitChar d := fun c hc =>
    exists_digit_of_mem_toDigits (by decide) hc
  have hsome : ∀ c ∈ (Nat.toDigits 16 n).map Char.toUpper, (digitValue 16 c).isSome := by
    intro c hc
    obtain ⟨c', hc', rfl⟩ := List.mem_map.mp hc
    obtain ⟨d, hd, rfl⟩ := hdigits c' hc'
    rw [digitValue_toUpper hd]
    rfl
  change readInt 16 ((Nat.toDigits 16 n).map Char.toUpper) = _
  rw [readInt_of_digits hsome, readUnsigned_map_toUpper hdigits,
    readUnsigned_toDigits (by decide) le_rfl, Option.map_some]

theorem filter_writeInt (hb : 1 < base) (hb' : base ≤ 16) (z : ℤ) {c : Char}
    (hc : digitValue base c = none) (hsign : c ≠ '-') :
    (writeInt base z).filter (· ≠ c) = writeInt base z := by
  rw [List.filter_eq_self]
  intro a ha
  cases z with
  | ofNat n => simpa using ne_of_mem_toDigits hb hb' c hc ha
  | negSucc n =>
    rcases List.mem_cons.mp ha with rfl | ha
    · simpa using hsign.symm
    · simpa using ne_of_mem_toDigits hb hb' c hc ha

end Signed

section Refusals

variable {base : ℕ} {cs : List Char} {c : Char}

theorem mem_dropWhile_of_neg {α : Type*} {p : α → Bool} {l : List α} {a : α} (ha : a ∈ l)
    (hp : p a = false) : a ∈ l.dropWhile p := by
  induction l with
  | nil => cases ha
  | cons b l ih =>
    by_cases hb : p b = true
    · rw [List.dropWhile_cons_of_pos hb]
      rcases List.mem_cons.mp ha with heq | hmem
      · rw [heq, hb] at hp
        cases hp
      · exact ih hmem
    · rw [List.dropWhile_cons_of_neg hb]
      exact ha

theorem readTail_eq_none (hdigit : digitValue base c = none) (hmark : c ≠ '_') (acc : ℕ)
    (hc : c ∈ cs) : readTail base acc cs = none := by
  fun_induction readTail base acc cs with
  | case1 acc => cases hc
  | case2 acc d cs ih =>
    rw [List.mem_cons, List.mem_cons] at hc
    rcases hc with hmark' | hfirst | hrest
    · exact absurd hmark' hmark
    · rw [← hfirst, hdigit]
      rfl
    · rw [Option.bind_eq_none_iff]
      exact fun v _ => ih v hrest
  | case3 acc d cs hnot ih =>
    rcases List.mem_cons.mp hc with hfirst | hrest
    · rw [← hfirst, hdigit]
      rfl
    · rw [Option.bind_eq_none_iff]
      exact fun v _ => ih v hrest

theorem readUnsigned_eq_none (hdigit : digitValue base c = none) (hmark : c ≠ '_')
    (hc : c ∈ cs) : readUnsigned base cs = none := by
  cases cs with
  | nil => cases hc
  | cons d cs =>
    rw [readUnsigned, Option.bind_eq_none_iff]
    intro v hv
    rcases List.mem_cons.mp hc with hfirst | hrest
    · rw [← hfirst, hdigit] at hv
      cases hv
    · exact readTail_eq_none hdigit hmark v hrest

theorem readMarked_decimal (cs : List Char) : readMarked 10 cs = readUnsigned 10 cs := by
  unfold readMarked
  split
  · rw [if_neg (by simp [radixLetters])]
  · rfl

theorem readInt_eq_none (hc : c ∈ cs) (hblank : isBlank c = false)
    (hdigit : digitValue 10 c = none) (hmark : c ∉ ['-', '+', '_']) : readInt 10 cs = none := by
  have hmem : c ∈ stripBlanks cs := by
    have hfirst := mem_dropWhile_of_neg hc hblank
    have hlast := mem_dropWhile_of_neg (List.mem_reverse.mpr hfirst) hblank
    exact List.mem_reverse.mpr hlast
  simp only [List.mem_cons, List.not_mem_nil, or_false, not_or] at hmark
  unfold readInt
  split
  · rename_i rest heq
    have hrest : c ∈ rest := by
      rw [heq, List.mem_cons] at hmem
      exact hmem.resolve_left hmark.1
    rw [readMarked_decimal, readUnsigned_eq_none hdigit hmark.2.2 hrest]
    rfl
  · rename_i rest heq
    have hrest : c ∈ rest := by
      rw [heq, List.mem_cons] at hmem
      exact hmem.resolve_left hmark.2.1
    rw [readMarked_decimal, readUnsigned_eq_none hdigit hmark.2.2 hrest]
    rfl
  · rw [readMarked_decimal, readUnsigned_eq_none hdigit hmark.2.2 hmem]
    rfl

end Refusals

end CaManager.Library
