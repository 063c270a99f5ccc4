import CaManager.Library.Numerals
import Mathlib.Algebra.Order.Ring.Int

/-!
# The calendar

Days are counted from the first of January 1970. Years are consecutive blocks of days, and months
consecutive blocks of the days of a year, so that each date there is belongs to one day. The time of
a day is written as hour and minute, with two digits each.
-/

namespace CaManager.Library

section Blocks

/-- The block that a position falls in, and where in it, of blocks of the given lengths. -/
def locate : List ℕ → ℕ → Option (ℕ × ℕ)
  | [], _ => none
  | l :: ls, n => if n < l then some (0, n) else (locate ls (n - l)).map fun p => (p.1 + 1, p.2)

variable {ls : List ℕ} {n i j : ℕ}

theorem locate_eq_some :
    locate ls n = some (i, j) ↔ ∃ l, ls[i]? = some l ∧ j < l ∧ n = (ls.take i).sum + j := by
  induction ls generalizing n i with
  | nil => simp [locate]
  | cons l ls ih =>
    unfold locate
    by_cases hn : n < l
    · rw [if_pos hn]
      cases i with
      | zero =>
        simp only [Option.some.injEq, Prod.mk.injEq, true_and, List.getElem?_cons_zero,
          exists_eq_left', List.take_zero, List.sum_nil, Nat.zero_add]
        constructor
        · rintro rfl
          exact ⟨hn, rfl⟩
        · exact fun h => h.2
      | succ i =>
        refine iff_of_false (by simp) ?_
        rintro ⟨l', _, _, h⟩
        rw [List.take_succ_cons, List.sum_cons] at h
        omega
    · rw [if_neg hn, Option.map_eq_some_iff]
      cases i with
      | zero =>
        refine iff_of_false (by simp) ?_
        rintro ⟨l', hl, hj, h⟩
        obtain rfl : l = l' := by simpa using hl
        rw [List.take_zero, List.sum_nil] at h
        omega
      | succ i =>
        have hpair : (∃ p, locate ls (n - l) = some p ∧ (p.1 + 1, p.2) = (i + 1, j)) ↔
            locate ls (n - l) = some (i, j) := by
          constructor
          · rintro ⟨⟨i', j'⟩, hp, heq⟩
            simp only [Prod.mk.injEq, Nat.add_right_cancel_iff] at heq
            rw [hp, heq.1, heq.2]
          · exact fun h => ⟨(i, j), h, rfl⟩
        rw [hpair, ih, List.getElem?_cons_succ]
        refine exists_congr fun l' => and_congr_right fun _ => and_congr_right fun _ => ?_
        rw [List.take_succ_cons, List.sum_cons]
        omega

theorem exists_locate (h : n < ls.sum) : ∃ p, locate ls n = some p := by
  induction ls generalizing n with
  | nil => exact absurd h (Nat.not_lt_zero n)
  | cons l ls ih =>
    unfold locate
    by_cases hn : n < l
    · exact ⟨(0, n), if_pos hn⟩
    · rw [List.sum_cons] at h
      obtain ⟨p, hp⟩ := ih (n := n - l) (by omega)
      rw [if_neg hn, hp]
      exact ⟨_, rfl⟩

theorem take_sum_add_lt {l : ℕ} (hl : ls[i]? = some l) (hj : j < l) :
    (ls.take i).sum + j < ls.sum := by
  induction ls generalizing i with
  | nil => cases hl
  | cons l' ls ih =>
    cases i with
    | zero =>
      obtain rfl : l' = l := by simpa using hl
      rw [List.take_zero, List.sum_nil, List.sum_cons]
      omega
    | succ i =>
      have hlt := ih (i := i) hl
      rw [List.take_succ_cons, List.sum_cons, List.sum_cons]
      omega

end Blocks

section Years

def isLeap (y : ℤ) : Bool := decide (y % 4 = 0 ∧ (y % 100 ≠ 0 ∨ y % 400 = 0))

def yearStart (y : ℤ) : ℤ :=
  365 * (y - 1) + (y - 1) / 4 - (y - 1) / 100 + (y - 1) / 400 - 719162

def monthLengths (y : ℤ) : List ℕ :=
  [31, if isLeap y then 29 else 28, 31, 30, 31, 30, 31, 31, 30, 31, 30, 31]

/-- The year of a day, from the cycles of four hundred, one hundred, four years and one. -/
def yearOf (d : ℤ) : ℤ :=
  let n := d + 719162
  let n100 := n % 146097 / 36524
  let n4 := n % 146097 % 36524 / 1461
  let n1 := n % 146097 % 36524 % 1461 / 365
  let y := n / 146097 * 400 + n100 * 100 + n4 * 4 + n1 + 1
  if n1 = 4 ∨ n100 = 4 then y - 1 else y

variable {y y' d : ℤ}

theorem yearStart_succ (y : ℤ) : yearStart (y + 1) = yearStart y + (monthLengths y).sum := by
  unfold yearStart monthLengths isLeap
  by_cases hleap : y % 4 = 0 ∧ (y % 100 ≠ 0 ∨ y % 400 = 0)
  · simp only [hleap]
    simp
    omega
  · simp only [hleap, decide_false]
    simp
    omega

theorem yearStart_mono (h : y ≤ y') : yearStart y ≤ yearStart y' := by
  unfold yearStart
  omega

theorem year_unique (h : yearStart y ≤ d) (hlt : d < yearStart (y + 1)) (h' : yearStart y' ≤ d)
    (hlt' : d < yearStart (y' + 1)) : y = y' := by
  rcases lt_trichotomy y y' with hy | hy | hy
  · have hle : yearStart (y + 1) ≤ yearStart y' := yearStart_mono hy
    omega
  · exact hy
  · have hle : yearStart (y' + 1) ≤ yearStart y := yearStart_mono hy
    omega

theorem yearStart_cycles {a b c e : ℤ} (hb : 0 ≤ b ∧ b ≤ 3) (hc : 0 ≤ c ∧ c ≤ 24)
    (he : 0 ≤ e ∧ e ≤ 3) :
    yearStart (400 * a + 100 * b + 4 * c + e + 1) =
      146097 * a + 36524 * b + 1461 * c + 365 * e - 719162 := by
  have h4 : (400 * a + 100 * b + 4 * c + e) / 4 = 100 * a + 25 * b + c := by omega
  have h100 : (400 * a + 100 * b + 4 * c + e) / 100 = 4 * a + b := by omega
  have h400 : (400 * a + 100 * b + 4 * c + e) / 400 = a := by omega
  unfold yearStart
  rw [add_sub_cancel_right, h4, h100, h400]
  omega

theorem year_of_cycles {a b c e r : ℤ} (hb : 0 ≤ b ∧ b ≤ 3) (hc : 0 ≤ c ∧ c ≤ 24)
    (he : 0 ≤ e ∧ e ≤ 3) (hr : 0 ≤ r ∧ r ≤ 364) :
    yearStart (400 * a + 100 * b + 4 * c + e + 1) ≤
        146097 * a + 36524 * b + 1461 * c + 365 * e + r - 719162 ∧
      146097 * a + 36524 * b + 1461 * c + 365 * e + r - 719162 <
        yearStart (400 * a + 100 * b + 4 * c + e + 1 + 1) := by
  have hnext : yearStart (400 * a + 100 * b + 4 * c + e + 1) + 365 ≤
      yearStart (400 * a + 100 * b + 4 * c + e + 1 + 1) := by
    have hlong : ∀ y, 365 ≤ (monthLengths y).sum := by
      intro y
      unfold monthLengths
      split_ifs <;> decide
    have hsucc := yearStart_succ (400 * a + 100 * b + 4 * c + e + 1)
    have hyear := hlong (400 * a + 100 * b + 4 * c + e + 1)
    omega
  rw [yearStart_cycles hb hc he] at hnext ⊢
  omega

theorem yearOf_spec (d : ℤ) : yearStart (yearOf d) ≤ d ∧ d < yearStart (yearOf d + 1) := by
  obtain ⟨a, ha⟩ : ∃ a, a = (d + 719162) / 146097 := ⟨_, rfl⟩
  obtain ⟨b, hb⟩ : ∃ b, b = (d + 719162) % 146097 / 36524 := ⟨_, rfl⟩
  obtain ⟨c, hc⟩ : ∃ c, c = (d + 719162) % 146097 % 36524 / 1461 := ⟨_, rfl⟩
  obtain ⟨e, he⟩ : ∃ e, e = (d + 719162) % 146097 % 36524 % 1461 / 365 := ⟨_, rfl⟩
  obtain ⟨r, hr⟩ : ∃ r, r = (d + 719162) % 146097 % 36524 % 1461 % 365 := ⟨_, rfl⟩
  have hd : d = 146097 * a + 36524 * b + 1461 * c + 365 * e + r - 719162 := by omega
  have hyear : yearOf d =
      if e = 4 ∨ b = 4 then 400 * a + 100 * b + 4 * c + e + 1 - 1
      else 400 * a + 100 * b + 4 * c + e + 1 := by
    unfold yearOf
    dsimp only
    rw [← ha, ← hb, ← hc, ← he]
    split_ifs <;> omega
  rw [hyear, hd]
  by_cases hfour : e = 4
  · -- the last day of a leap year that ends a cycle of four years
    have hlast := yearStart_cycles (a := a) (b := b) (c := c) (e := 3) (by omega) (by omega)
      (by omega)
    have hnext := yearStart_cycles (a := a) (b := b) (c := c + 1) (e := 0) (by omega) (by omega)
      (by omega)
    have hsame : 400 * a + 100 * b + 4 * c + 3 + 1 = 400 * a + 100 * b + 4 * c + e + 1 - 1 := by
      omega
    have hsucc : 400 * a + 100 * b + 4 * (c + 1) + 0 + 1 =
        400 * a + 100 * b + 4 * c + e + 1 - 1 + 1 := by omega
    rw [if_pos (.inl hfour), ← hsucc, ← hsame, hlast, hnext]
    omega
  · by_cases hhundred : b = 4
    · -- the last day of a cycle of four hundred years
      have hlast := yearStart_cycles (a := a) (b := 3) (c := 24) (e := 3) (by omega) (by omega)
        (by omega)
      have hnext := yearStart_cycles (a := a + 1) (b := 0) (c := 0) (e := 0) (by omega) (by omega)
        (by omega)
      have hsame : 400 * a + 100 * 3 + 4 * 24 + 3 + 1 = 400 * a + 100 * b + 4 * c + e + 1 - 1 := by
        omega
      have hsucc : 400 * (a + 1) + 100 * 0 + 4 * 0 + 0 + 1 =
          400 * a + 100 * b + 4 * c + e + 1 - 1 + 1 := by omega
      rw [if_pos (.inr hhundred), ← hsucc, ← hsame, hlast, hnext]
      omega
    · rw [if_neg (not_or.mpr ⟨hfour, hhundred⟩)]
      exact year_of_cycles (by omega) (by omega) (by omega) (by omega)

theorem yearOf_eq_iff : yearOf d = y ↔ yearStart y ≤ d ∧ d < yearStart (y + 1) := by
  constructor
  · rintro rfl
    exact yearOf_spec d
  · intro h
    exact year_unique (yearOf_spec d).1 (yearOf_spec d).2 h.1 h.2

end Years

section Dates

structure Date where
  year : ℤ
  month : ℕ
  day : ℕ
  deriving Repr, DecidableEq

def dateOf (d : ℤ) : Date :=
  match locate (monthLengths (yearOf d)) (d - yearStart (yearOf d)).toNat with
  | some (i, j) => ⟨yearOf d, i + 1, j + 1⟩
  | none => ⟨yearOf d, 0, 0⟩

def monthLength (y : ℤ) (m : ℕ) : ℕ :=
  if m = 0 then 0 else ((monthLengths y)[m - 1]?).getD 0

def beforeMonth (y : ℤ) (m : ℕ) : ℤ :=
  yearStart y + ((monthLengths y).take (m - 1)).sum - 1

variable {y d : ℤ} {m k : ℕ}

theorem dateOf_spec (d : ℤ) :
    ∃ i j l, dateOf d = ⟨yearOf d, i + 1, j + 1⟩ ∧ (monthLengths (yearOf d))[i]? = some l ∧ j < l ∧
      d = yearStart (yearOf d) + ((monthLengths (yearOf d)).take i).sum + j := by
  obtain ⟨hstart, hend⟩ := yearOf_spec d
  rw [yearStart_succ] at hend
  have hlt : (d - yearStart (yearOf d)).toNat < (monthLengths (yearOf d)).sum := by omega
  obtain ⟨⟨i, j⟩, hij⟩ := exists_locate hlt
  obtain ⟨l, hl, hj, hn⟩ := locate_eq_some.mp hij
  refine ⟨i, j, l, ?_, hl, hj, by omega⟩
  unfold dateOf
  rw [hij]

theorem monthLength_succ {i l : ℕ} (hl : (monthLengths y)[i]? = some l) :
    monthLength y (i + 1) = l := by
  simp [monthLength, hl]

theorem exists_of_le_monthLength (hk : 1 ≤ k) (h : k ≤ monthLength y m) :
    ∃ i, m = i + 1 ∧ (monthLengths y)[i]? = some (monthLength y m) := by
  cases m with
  | zero =>
    have hzero : monthLength y 0 = 0 := rfl
    omega
  | succ i =>
    refine ⟨i, rfl, ?_⟩
    cases hl : (monthLengths y)[i]? with
    | some l => rw [monthLength_succ hl]
    | none =>
      have hzero : monthLength y (i + 1) = 0 := by simp [monthLength, hl]
      omega

theorem dateOf_eq_iff :
    dateOf d = ⟨y, m, k⟩ ↔ (1 ≤ k ∧ k ≤ monthLength y m) ∧ d = beforeMonth y m + k := by
  constructor
  · intro h
    obtain ⟨i, j, l, hdate, hl, hj, hd⟩ := dateOf_spec d
    obtain ⟨rfl, rfl, rfl⟩ := Date.mk.inj (hdate.symm.trans h)
    rw [monthLength_succ hl]
    unfold beforeMonth
    rw [Nat.add_sub_cancel]
    omega
  · rintro ⟨⟨hk, hle⟩, hd⟩
    obtain ⟨i, rfl, hl⟩ := exists_of_le_monthLength hk hle
    unfold beforeMonth at hd
    rw [Nat.add_sub_cancel] at hd
    have hlt := take_sum_add_lt hl (j := k - 1) (by omega)
    have hyear : yearOf d = y := by
      rw [yearOf_eq_iff, yearStart_succ]
      omega
    have hlocate : locate (monthLengths y) (d - yearStart y).toNat = some (i, k - 1) :=
      locate_eq_some.mpr ⟨_, hl, by omega, by omega⟩
    unfold dateOf
    rw [hyear, hlocate]
    exact congrArg (Date.mk y (i + 1)) (Nat.sub_add_cancel hk)

theorem date_iff {k : ℤ} :
    ((dateOf d).year = y ∧ (dateOf d).month = m) ∧ ((dateOf d).day : ℤ) = k ↔
      (1 ≤ k ∧ k ≤ monthLength y m) ∧ d = beforeMonth y m + k := by
  constructor
  · rintro ⟨⟨hyear, hmonth⟩, hday⟩
    have hdate : dateOf d = ⟨y, m, (dateOf d).day⟩ := by
      rw [← hyear, ← hmonth]
    obtain ⟨hk, hd⟩ := dateOf_eq_iff.mp hdate
    omega
  · rintro ⟨hk, hd⟩
    have hdate : dateOf d = ⟨y, m, k.toNat⟩ := dateOf_eq_iff.mpr (by omega)
    rw [hdate]
    exact ⟨⟨rfl, rfl⟩, Int.toNat_of_nonneg (by omega)⟩

example : dateOf 59 = ⟨1970, 3, 1⟩ ∧ dateOf 19782 = ⟨2024, 2, 29⟩ := by decide

def weekday (d : ℤ) : ℤ := (d + 3) % 7

def weekOf (d : ℤ) : ℤ := (d + 3) / 7

theorem weekOf_weekday_iff {w n : ℤ} :
    weekOf d = w ∧ weekday d = n ↔ (0 ≤ n ∧ n ≤ 6) ∧ d = 7 * w + n - 3 := by
  unfold weekOf weekday
  omega

end Dates

section Times

def twoDigits (n : ℕ) : List Char :=
  [Nat.digitChar (n / 10), Nat.digitChar (n % 10)]

def clockText (minutes : ℕ) : String :=
  String.ofList (twoDigits (minutes / 60) ++ ':' :: twoDigits (minutes % 60))

variable {n n' : ℕ}

theorem digitChar_inj (hn : n < 10) (hn' : n' < 10) (h : Nat.digitChar n = Nat.digitChar n') :
    n = n' := by
  have hvalue := digitValue_digitChar hn (by decide)
  rw [h, digitValue_digitChar hn' (by decide)] at hvalue
  exact (Option.some.inj hvalue).symm

theorem twoDigits_inj (hn : n < 100) (hn' : n' < 100) (h : twoDigits n = twoDigits n') :
    n = n' := by
  obtain ⟨htens, hones⟩ := List.cons.inj h
  have h10 := digitChar_inj (by omega) (by omega) htens
  have h1 := digitChar_inj (by omega) (by omega) (List.cons.inj hones).1
  omega

theorem clockText_inj (hn : n < 1440) (hn' : n' < 1440) (h : clockText n = clockText n') :
    n = n' := by
  obtain ⟨hhour, hminute⟩ := List.append_inj (String.ofList_injective h) rfl
  have h60 := twoDigits_inj (by omega) (by omega) hhour
  have h1 := twoDigits_inj (by omega) (by omega) (List.cons.inj hminute).2
  omega

end Times

section Readings

variable {w m : ℤ} {l : List ℤ}

theorem div_ne_of_apart {t t' : ℤ} (hw : 0 < w) (h : t + w ≤ t') : t / w ≠ t' / w := by
  have hnext : (t + w) / w = t / w + 1 := Int.add_ediv_of_dvd_right (dvd_refl w) |>.trans
    (congrArg (t / w + ·) (Int.ediv_self hw.ne'))
  have hle := Int.ediv_le_ediv hw h
  omega

theorem countP_block_le_one (hw : 0 < w)
    (hl : l.Pairwise fun later earlier => earlier + w ≤ later) :
    l.countP (fun t => t / w = m) ≤ 1 := by
  induction l with
  | nil => exact Nat.zero_le 1
  | cons t l ih =>
    obtain ⟨hfirst, hrest⟩ := List.pairwise_cons.mp hl
    rw [List.countP_cons]
    by_cases ht : t / w = m
    · have hzero : l.countP (fun t => t / w = m) = 0 := by
        rw [List.countP_eq_zero]
        intro e he hem
        exact div_ne_of_apart hw (hfirst e he) ((of_decide_eq_true hem).trans ht.symm)
      rw [hzero]
      simp [ht]
    · simpa [ht] using ih hrest

theorem countP_block_eq_one_iff (hw : 0 < w)
    (hl : l.Pairwise fun later earlier => earlier + w ≤ later) :
    l.countP (fun t => t / w = m) = 1 ↔ ∃ t ∈ l, t / w = m := by
  have hle := countP_block_le_one (m := m) hw hl
  have hpos := List.countP_pos_iff (p := fun t => decide (t / w = m)) (l := l)
  simp only [decide_eq_true_eq] at hpos
  rw [← hpos]
  omega

end Readings

end CaManager.Library
