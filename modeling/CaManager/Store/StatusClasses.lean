import CaManager.X509
import Mathlib.Algebra.Order.Ring.Int
import Mathlib.Tactic.SplitIfs

/-!
# The status of a certificate

Three places sort certificates by status: the statistics count them by queries, the list filters
them by others, and a row that is returned says its status for itself. A null date or flag passes
no query, the list shows what is about to expire as valid too, and what is revoked as expired, and
the row draws its bounds one instant later. They agree only on rows that are clear of all this.
-/

namespace CaManager

namespace CertificateStatus

/-- The columns that a status depends on. Either may be null. -/
structure StatusColumns where
  revoked : Option Bool
  validTo : Option Time
  deriving Repr, DecidableEq

inductive Status
  | valid
  | expiring
  | expired
  | revoked
  deriving Repr, DecidableEq

/-- A row passes a query if all its conditions are true. One that is null is not. -/
def passes (conditions : List (Option Bool)) : Bool := conditions.all (· = some true)

section Queries

variable (now : Time) (row : StatusColumns)

/-- The `status` filter of `list_certificates`. -/
def listed : Status → Bool
  | .revoked => passes [row.revoked]
  | .valid => passes [row.revoked.map not, row.validTo.map (now < ·)]
  | .expired => passes [row.validTo.map (· ≤ now)]
  | .expiring =>
    passes [row.validTo.map (· ≤ now + days 30), row.validTo.map (now < ·), row.revoked.map not]

/-- The queries of `get_certificate_stats`. -/
def counted : Status → Bool
  | .revoked => passes [row.revoked]
  | .expired => passes [row.validTo.map (· ≤ now), row.revoked.map not]
  | .expiring =>
    passes [row.validTo.map (· ≤ now + days 30), row.validTo.map (now < ·), row.revoked.map not]
  | .valid => passes [row.validTo.map (now < ·), row.revoked.map not]

/-- The status in `to_dict`. -/
def toDictStatus : Status :=
  if row.revoked = some true then .revoked
  else
    match row.validTo with
    | none => .valid
    | some validTo =>
      if validTo < now then .expired
      else if validTo < now + days 30 then .expiring
      else .valid

end Queries

structure Stats where
  total : ℤ
  valid : ℤ
  expiring : ℤ
  expired : ℤ
  revoked : ℤ
  deriving Repr, DecidableEq

/-- `get_certificate_stats` -/
def getCertificateStats (rows : List StatusColumns) (now : Time) : Stats :=
  let count (status : Status) : ℤ := rows.countP fun row => counted now row status
  { total := rows.length
    valid := count .valid - count .expiring
    expiring := count .expiring
    expired := count .expired
    revoked := count .revoked }

/-- The class of the statistics that a row is counted in. What is about to expire is taken off the
valid ones. -/
def InClass (now : Time) (row : StatusColumns) (status : Status) : Prop :=
  counted now row status = true ∧ (status = .valid → counted now row .expiring = false)

instance (now : Time) (row : StatusColumns) (status : Status) :
    Decidable (InClass now row status) :=
  inferInstanceAs (Decidable (_ ∧ _))

/-- Every row is in one class, the classes add up, and a row says of itself and is listed as what
its class is. -/
structure Partitioned (rows : List StatusColumns) (now : Time) : Prop where
  one : ∀ row ∈ rows, ∃! status, InClass now row status
  sum : (getCertificateStats rows now).valid + (getCertificateStats rows now).expiring +
    (getCertificateStats rows now).expired + (getCertificateStats rows now).revoked =
      (getCertificateStats rows now).total
  agrees : ∀ row ∈ rows, ∀ status, InClass now row status →
    toDictStatus now row = status ∧ ∀ status', listed now row status' = true ↔ status' = status

/-- The row is revoked before it would expire, or has expired, or is not going to for more than
thirty days. -/
def Clear (now : Time) (row : StatusColumns) : Prop :=
  (row.revoked = some true ∧ ∀ validTo ∈ row.validTo, now < validTo) ∨
    row.revoked = some false ∧ ∃ validTo, row.validTo = some validTo ∧
      (validTo < now ∨ now + days 30 < validTo)

section Classes

variable {now : Time} {row : StatusColumns} {status : Status}

def classOf (now : Time) (row : StatusColumns) : Option Status :=
  match row.revoked, row.validTo with
  | some true, _ => some .revoked
  | some false, some validTo =>
    if validTo ≤ now then some .expired
    else if validTo ≤ now + days 30 then some .expiring
    else some .valid
  | some false, none => none
  | none, _ => none

theorem days_pos {n : ℤ} (h : 0 < n) : 0 < days n := by
  unfold days
  omega

theorem inClass_iff : InClass now row status ↔ classOf now row = some status := by
  obtain ⟨revoked, validTo⟩ := row
  have hpos : 0 < days 30 := days_pos (by decide)
  unfold InClass classOf
  cases revoked with
  | none => cases status <;> simp [counted, passes]
  | some revoked =>
    cases revoked with
    | true => cases status <;> simp [counted, passes]
    | false =>
      cases validTo with
      | none => cases status <;> simp [counted, passes]
      | some validTo =>
        simp only
        split_ifs with hexpired hexpiring
        · have hafter : ¬now < validTo := not_lt.mpr hexpired
          cases status <;> simp [counted, passes, hexpired, hafter]
        · have hafter : now < validTo := not_le.mp hexpired
          cases status <;> simp [counted, passes, hexpired, hexpiring, hafter]
        · have hafter : now < validTo := not_le.mp hexpired
          cases status <;> simp [counted, passes, hexpired, hexpiring, hafter]

theorem agrees_iff (h : classOf now row = some status) :
    (toDictStatus now row = status ∧ ∀ status', listed now row status' = true ↔ status' = status) ↔
      Clear now row := by
  obtain ⟨revoked, validTo⟩ := row
  have hpos : 0 < days 30 := days_pos (by decide)
  have hall : ∀ {p : Status → Prop}, (∀ status', p status') ↔
      p .valid ∧ p .expiring ∧ p .expired ∧ p .revoked :=
    ⟨fun h => ⟨h _, h _, h _, h _⟩, fun h status' => by cases status' <;> tauto⟩
  rw [hall]
  cases revoked with
  | none => cases h
  | some revoked =>
    cases revoked with
    | true =>
      cases h
      cases validTo with
      | none => simp [toDictStatus, listed, passes, Clear]
      | some validTo => simp [toDictStatus, listed, passes, Clear]
    | false =>
      cases validTo with
      | none => cases h
      | some validTo =>
        simp only [classOf] at h
        split_ifs at h with hexpired hexpiring
        · cases h
          have hnear : validTo < now + days 30 := lt_of_le_of_lt hexpired (lt_add_of_pos_right now hpos)
          have hfar : ¬now + days 30 < validTo := not_lt.mpr hnear.le
          by_cases hpast : validTo < now
          · simp [toDictStatus, listed, passes, Clear, hexpired, hpast]
          · simp [toDictStatus, listed, passes, Clear, hpast, hnear, hfar]
        · cases h
          have hafter : now < validTo := not_le.mp hexpired
          have hfar : ¬now + days 30 < validTo := not_lt.mpr hexpiring
          simp [listed, passes, Clear, hafter, hafter.le, hexpiring, hfar]
        · cases h
          have hfar : now + days 30 < validTo := not_le.mp hexpiring
          have hafter : now < validTo := not_le.mp hexpired
          have hpast : ¬validTo < now := not_lt.mpr hafter.le
          have hnear : ¬validTo < now + days 30 := not_lt.mpr hfar.le
          simp [toDictStatus, listed, passes, Clear, hafter, hfar, hpast, hnear, hexpired,
            hexpiring]

theorem isSome_classOf (h : Clear now row) : (classOf now row).isSome = true := by
  obtain ⟨hrevoked, _⟩ | ⟨hrevoked, validTo, hvalidTo, _⟩ := h
  · simp [classOf, hrevoked]
  · simp only [classOf, hrevoked, hvalidTo]
    split_ifs <;> rfl

end Classes

section Counting

variable {rows : List StatusColumns} {now : Time}

theorem counted_eq {row : StatusColumns} {status : Status} (h : status ≠ .valid) :
    counted now row status = decide (classOf now row = some status) := by
  rw [Bool.eq_iff_iff, decide_eq_true_eq, ← inClass_iff]
  simp [InClass, h]

theorem countP_valid :
    rows.countP (fun row => counted now row .valid) =
      rows.countP (fun row => classOf now row = some .valid) +
        rows.countP fun row => classOf now row = some .expiring := by
  have hrow : ∀ row, counted now row .valid = true ↔
      classOf now row = some .valid ∨ classOf now row = some .expiring := by
    intro row
    rw [← inClass_iff, ← inClass_iff]
    cases hexpiring : counted now row .expiring with
    | false => simp [InClass, hexpiring]
    | true =>
      have hsplit : counted now row .expiring =
          (decide (row.validTo.map (fun t => decide (t ≤ now + days 30)) = some true) &&
            counted now row .valid) := rfl
      have hvalid : counted now row .valid = true :=
        (Bool.and_eq_true_iff.mp (hsplit.symm.trans hexpiring)).2
      simp [InClass, hexpiring, hvalid]
  induction rows with
  | nil => rfl
  | cons row rows ih =>
    simp only [List.countP_cons, ih, hrow, decide_eq_true_eq]
    cases classOf now row with
    | none => simp
    | some status => cases status <;> simp <;> omega

theorem sum_getCertificateStats :
    (getCertificateStats rows now).valid + (getCertificateStats rows now).expiring +
      (getCertificateStats rows now).expired + (getCertificateStats rows now).revoked =
        rows.countP fun row => (classOf now row).isSome := by
  have hsum : (rows.countP fun row => (classOf now row).isSome) =
      rows.countP (fun row => classOf now row = some .valid) +
        rows.countP (fun row => classOf now row = some .expiring) +
          rows.countP (fun row => classOf now row = some .expired) +
            rows.countP fun row => classOf now row = some .revoked := by
    induction rows with
    | nil => rfl
    | cons row rows ih =>
      simp only [List.countP_cons, ih, decide_eq_true_eq]
      cases classOf now row with
      | none => simp
      | some status => cases status <;> simp <;> omega
  have hvalid := @countP_valid rows now
  have hcounted : ∀ {status : Status}, status ≠ .valid →
      rows.countP (fun row => counted now row status) =
        rows.countP (fun row => classOf now row = some status) := by
    intro status hstatus
    simp only [counted_eq hstatus]
  simp only [getCertificateStats, hcounted (show Status.expiring ≠ .valid by decide),
    hcounted (show Status.expired ≠ .valid by decide),
    hcounted (show Status.revoked ≠ .valid by decide)]
  omega

/-- The three classifications agree exactly on clear rows. -/
theorem partitioned_iff : Partitioned rows now ↔ ∀ row ∈ rows, Clear now row := by
  constructor
  · intro h row hrow
    obtain ⟨status, hstatus, _⟩ := h.one row hrow
    exact (agrees_iff (inClass_iff.mp hstatus)).mp (h.agrees row hrow status hstatus)
  · intro h
    refine ⟨fun row hrow => ?_, ?_, fun row hrow status hstatus => ?_⟩
    · obtain ⟨status, hstatus⟩ := Option.isSome_iff_exists.mp (isSome_classOf (h row hrow))
      refine ⟨status, inClass_iff.mpr hstatus, fun status' hstatus' => ?_⟩
      exact Option.some.inj ((inClass_iff.mp hstatus').symm.trans hstatus)
    · rw [sum_getCertificateStats]
      have hall : (rows.countP fun row => (classOf now row).isSome) = rows.length :=
        List.countP_eq_length.mpr fun row hrow => isSome_classOf (h row hrow)
      rw [hall]
      rfl
    · exact (agrees_iff (inClass_iff.mp hstatus)).mpr (h row hrow)

/-- A signing request has no dates: it is counted in no class, and says of itself that it is
valid. -/
theorem request_not_partitioned :
    ¬Partitioned [⟨some false, none⟩] 0 := by
  intro h
  obtain ⟨status, hstatus, _⟩ := h.one ⟨some false, none⟩ (by decide)
  have hnone : ∀ status, ¬InClass 0 ⟨some false, none⟩ status := by
    intro status
    cases status <;> decide
  exact hnone status hstatus

end Counting

end CertificateStatus

end CaManager
