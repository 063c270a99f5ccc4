import CaManager.Acme.Tables
import CaManager.Library.Texts
import CaManager.Store.Operations
import Mathlib.Data.List.Sort

/-!
# Superseded certificates

Of the valid orders with the same text of identifiers only the newest counts, and a certificate
that is that of no order that counts is revoked. The accounts of the orders are not looked at, and
texts that ask for the same names in another order or another letter case are different texts.
-/

namespace CaManager

open Library

namespace Superseded

/-- The columns of an order that are read. The identifiers are JSON text. -/
structure OrderRow where
  accountId : String
  status : OrderStatus
  identifiers : String
  certificateId : Option ℕ
  createdAt : Time
  deriving DecidableEq

/-- `ORDER BY created_at DESC`. The order of rows of the same time is up to the database. -/
class QueryOrder where
  newestFirst : List OrderRow → List OrderRow
  perm : ∀ orders, (newestFirst orders).Perm orders
  sorted : ∀ orders, (newestFirst orders).Pairwise fun o o' => o'.createdAt ≤ o.createdAt

section Code

variable [QueryOrder]

def validOrders (orders : List OrderRow) : List OrderRow :=
  QueryOrder.newestFirst (orders.filter fun o => o.certificateId.isSome && o.status = .valid)

structure Scan where
  allCertIds : List (Option ℕ) := []
  currentCertIds : List (Option ℕ) := []
  seenIdentifiers : List String := []

def scanOrder (s : Scan) (o : OrderRow) : Scan :=
  let s := { s with allCertIds := o.certificateId :: s.allCertIds }
  if o.identifiers ∈ s.seenIdentifiers then s
  else
    { s with
      seenIdentifiers := o.identifiers :: s.seenIdentifiers
      currentCertIds := o.certificateId :: s.currentCertIds }

def supersededIds (orders : List OrderRow) : List (Option ℕ) :=
  let s := (validOrders orders).foldl scanOrder {}
  s.allCertIds.filter fun id => id ∉ s.currentCertIds

def superseded (st : Store) (orders : List OrderRow) : List Certificate :=
  st.certificates.select fun c => some c.id ∈ supersededIds orders && !c.revoked

/-- `_count_superseded_certificates` -/
def countSuperseded (st : Store) (orders : List OrderRow) : ℕ := (superseded st orders).length

def revokeOne (now : Time) (p : ℕ × Store) (row : Certificate) : ℕ × Store :=
  match CertificateService.revokeCertificate p.2 row.id "superseded" "system" now with
  | .ok st => (p.1 + 1, st)
  | .error _ => p

/-- `_revoke_superseded_certificates` -/
def revokeSuperseded (st : Store) (orders : List OrderRow) (now : Time) : ℕ × Store :=
  (superseded st orders).foldl (revokeOne now) (0, st)

end Code

/-! ### What should be revoked -/

section Meaning

variable (identifiersList : String → List Identifier)

def folded (i : Identifier) : Option String × Option String := (i.type, i.value.map lower)

def SameIdentifiers (text text' : String) : Prop :=
  ∀ i, i ∈ (identifiersList text).map folded ↔ i ∈ (identifiersList text').map folded

def Newer (o o' : OrderRow) : Prop :=
  o'.status = .valid ∧ o'.accountId = o.accountId ∧ o.createdAt < o'.createdAt ∧
    SameIdentifiers identifiersList o.identifiers o'.identifiers

def IsOrderFor (certId : ℕ) (o : OrderRow) : Prop :=
  o.status = .valid ∧ o.certificateId = some certId

/-- For a valid order of the certificate its account has a newer one for the same names. -/
def HasNewer (orders : List OrderRow) (certId : ℕ) : Prop :=
  ∃ o ∈ orders, IsOrderFor certId o ∧ ∃ o' ∈ orders, Newer identifiersList o o'

def IsNewest (orders : List OrderRow) (o : OrderRow) : Prop :=
  ∀ o' ∈ orders, ¬Newer identifiersList o o'

def IsRevoked (st : Store) (certId : ℕ) : Prop :=
  ∃ row, st.certificates.get? certId = some row ∧ row.revoked = true

variable [QueryOrder]

/-- What is asked of revoking superseded certificates. -/
structure Exact (st : Store) (orders : List OrderRow) (now : Time) : Prop where
  revoked : ∀ row ∈ st.certificates, row.revoked = false →
    (IsRevoked (revokeSuperseded st orders now).2 row.id ↔
      HasNewer identifiersList orders row.id)
  newest : ∀ row ∈ st.certificates, row.revoked = false →
    ∀ o ∈ orders, IsOrderFor row.id o → IsNewest identifiersList orders o →
      ¬IsRevoked (revokeSuperseded st orders now).2 row.id
  count : (revokeSuperseded st orders now).1 = countSuperseded st orders
  again : ∀ later, (revokeSuperseded (revokeSuperseded st orders now).2 orders later).1 = 0

/-- Each valid order of a certificate comes after one with the same text of identifiers and another
certificate: the newest with its text, of whatever account. -/
def Replaced (orders : List OrderRow) (certId : ℕ) : Prop :=
  (∃ o ∈ orders, IsOrderFor certId o) ∧
    ∀ o ∈ orders, IsOrderFor certId o → ∃ first,
      (validOrders orders).find? (fun o' => o'.identifiers = o.identifiers) = some first ∧
        first.certificateId ≠ some certId

/-- For every unrevoked certificate it makes no difference that texts of identifiers are compared,
over all accounts. -/
def Grouped (st : Store) (orders : List OrderRow) : Prop :=
  ∀ row ∈ st.certificates, row.revoked = false →
    (Replaced orders row.id ↔ HasNewer identifiersList orders row.id) ∧
      (Replaced orders row.id → ∀ o ∈ orders, IsOrderFor row.id o →
        ¬IsNewest identifiersList orders o)

end Meaning

/-! ### What is revoked -/

section Scanning

theorem mem_allCertIds_foldl (s : Scan) (l : List OrderRow) (id : Option ℕ) :
    id ∈ (l.foldl scanOrder s).allCertIds ↔
      id ∈ s.allCertIds ∨ ∃ o ∈ l, o.certificateId = id := by
  induction l generalizing s with
  | nil => simp
  | cons o l ih =>
    have hone : (scanOrder s o).allCertIds = o.certificateId :: s.allCertIds := by
      unfold scanOrder
      dsimp only
      split_ifs <;> rfl
    rw [List.foldl_cons, ih, hone, List.mem_cons, List.exists_mem_cons_iff,
      @eq_comm _ id o.certificateId]
    tauto

theorem mem_currentCertIds_foldl (s : Scan) (l : List OrderRow) (id : Option ℕ) :
    id ∈ (l.foldl scanOrder s).currentCertIds ↔
      id ∈ s.currentCertIds ∨ ∃ text, text ∉ s.seenIdentifiers ∧ ∃ first,
        l.find? (fun o => o.identifiers = text) = some first ∧ first.certificateId = id := by
  induction l generalizing s with
  | nil => simp
  | cons o l ih =>
    rw [List.foldl_cons, ih]
    by_cases hseen : o.identifiers ∈ s.seenIdentifiers
    · have hskip : ∀ text, text ∉ s.seenIdentifiers →
          (o :: l).find? (fun o => o.identifiers = text) =
            l.find? fun o => o.identifiers = text := by
        intro text htext
        apply List.find?_cons_of_neg
        simp only [decide_eq_true_eq]
        rintro rfl
        exact htext hseen
      have hscan : (scanOrder s o).currentCertIds = s.currentCertIds ∧
          (scanOrder s o).seenIdentifiers = s.seenIdentifiers := by
        simp [scanOrder, hseen]
      rw [hscan.1, hscan.2]
      apply or_congr_right
      apply exists_congr
      intro text
      apply and_congr_right
      intro htext
      rw [hskip text htext]
    · have hscan : (scanOrder s o).currentCertIds = o.certificateId :: s.currentCertIds ∧
          (scanOrder s o).seenIdentifiers = o.identifiers :: s.seenIdentifiers := by
        simp [scanOrder, hseen]
      rw [hscan.1, hscan.2]
      constructor
      · rintro (hmem | ⟨text, htext, first, hfirst, hid⟩)
        · rcases List.mem_cons.mp hmem with rfl | hmem
          · exact .inr ⟨o.identifiers, hseen, o, by simp, rfl⟩
          · exact .inl hmem
        · simp only [List.mem_cons, not_or] at htext
          refine .inr ⟨text, htext.2, first, ?_, hid⟩
          rw [List.find?_cons_of_neg (by simpa using Ne.symm htext.1), hfirst]
      · rintro (hmem | ⟨text, htext, first, hfirst, hid⟩)
        · exact .inl (List.mem_cons_of_mem _ hmem)
        · by_cases hsame : o.identifiers = text
          · rw [List.find?_cons_of_pos (by simpa using hsame), Option.some.injEq] at hfirst
            subst hfirst
            exact .inl (hid ▸ List.mem_cons_self ..)
          · rw [List.find?_cons_of_neg (by simpa using hsame)] at hfirst
            refine .inr ⟨text, ?_, first, hfirst, hid⟩
            simp [Ne.symm hsame, htext]

variable [QueryOrder] {orders : List OrderRow} {certId : ℕ}

theorem mem_validOrders {o : OrderRow} :
    o ∈ validOrders orders ↔ o ∈ orders ∧ o.certificateId.isSome = true ∧ o.status = .valid := by
  rw [validOrders, (QueryOrder.perm _).mem_iff, List.mem_filter, Bool.and_eq_true,
    decide_eq_true_eq]

theorem exists_validOrder_iff {P : OrderRow → Prop} :
    (∃ o ∈ validOrders orders, o.certificateId = some certId ∧ P o) ↔
      ∃ o ∈ orders, IsOrderFor certId o ∧ P o := by
  constructor
  · rintro ⟨o, ho, hid, hP⟩
    obtain ⟨hmem, _, hvalid⟩ := mem_validOrders.mp ho
    exact ⟨o, hmem, ⟨hvalid, hid⟩, hP⟩
  · rintro ⟨o, ho, ⟨hvalid, hid⟩, hP⟩
    exact ⟨o, mem_validOrders.mpr ⟨ho, by simp [hid], hvalid⟩, hid, hP⟩

theorem mem_supersededIds : some certId ∈ supersededIds orders ↔ Replaced orders certId := by
  rw [supersededIds, List.mem_filter, decide_eq_true_eq, mem_allCertIds_foldl,
    mem_currentCertIds_foldl]
  simp only [List.not_mem_nil, false_or, not_false_eq_true, true_and]
  apply and_congr
  · have hiff : (∃ o ∈ validOrders orders, o.certificateId = some certId ∧ True) ↔
        ∃ o ∈ orders, IsOrderFor certId o ∧ True := exists_validOrder_iff
    simpa using hiff
  · constructor
    · intro hnone o ho hfor
      have hmem : o ∈ validOrders orders :=
        mem_validOrders.mpr ⟨ho, by simp [hfor.2], hfor.1⟩
      cases hfind : (validOrders orders).find? fun o' => o'.identifiers = o.identifiers with
      | none =>
        have hnot := List.find?_eq_none.mp hfind o hmem
        simp at hnot
      | some first => exact ⟨first, rfl, fun hid => hnone ⟨o.identifiers, first, hfind, hid⟩⟩
    · rintro hreplaced ⟨text, first, hfirst, hid⟩
      obtain ⟨hmem, _, hvalid⟩ := mem_validOrders.mp (List.mem_of_find?_eq_some hfirst)
      have htext : first.identifiers = text := by
        simpa using List.find?_some hfirst
      obtain ⟨first', hfirst', hother⟩ := hreplaced first hmem ⟨hvalid, hid⟩
      rw [htext, hfirst, Option.some.injEq] at hfirst'
      exact hother (hfirst' ▸ hid)

theorem mem_superseded {st : Store} {row : Certificate} :
    row ∈ superseded st orders ↔
      row ∈ st.certificates ∧ row.revoked = false ∧ Replaced orders row.id := by
  rw [superseded, Table.mem_select, Bool.and_eq_true, decide_eq_true_eq, mem_supersededIds,
    Bool.not_eq_true']
  exact and_congr_right fun _ => and_comm

end Scanning

section Revoking

open CertificateService

variable {st : Store} {now : Time}

variable (now) in
theorem revokeOne_of_unrevoked {row : Certificate} (n : ℕ)
    (hrow : st.certificates.get? row.id = some row) (hrevoked : row.revoked = false) :
    ∃ st', revokeOne now (n, st) row = (n + 1, st') ∧
      st'.certificates = st.certificates.update row.id (revokedRow "superseded" now) := by
  have hok : ∃ st', revokeCertificate st row.id "superseded" "system" now = .ok st' := by
    simp only [revokeCertificate, bind_eq_ok, orThrow_eq_ok, ensure_eq_ok]
    cases hca : (st.setCertificate row.id (revokedRow "superseded" now)).cas.first
      fun c => some c.refid = row.caref with
    | none => exact ⟨_, row, hrow, (), hrevoked, by rw [hca]; rfl⟩
    | some ca => exact ⟨_, row, hrow, (), hrevoked, by rw [hca]; rfl⟩
  obtain ⟨st', hst'⟩ := hok
  refine ⟨st', by rw [revokeOne, hst'], ?_⟩
  obtain ⟨_, _, _, hsame | ⟨ca, m, _, hcrl⟩⟩ := revokeCertificate_eq_ok hst'
  · rw [hsame]
    rfl
  · obtain ⟨_, _, _, _, _, _, hcerts⟩ := CRLService.generateCrl_eq_ok hcrl
    rw [hcerts]
    rfl

variable (now) in
theorem foldl_revokeOne (rows : List Certificate) (n : ℕ)
    (hrows : ∀ row ∈ rows, st.certificates.get? row.id = some row ∧ row.revoked = false)
    (honce : (rows.map Certificate.id).Nodup) :
    (rows.foldl (revokeOne now) (n, st)).1 = n + rows.length ∧
      ∀ id, (rows.foldl (revokeOne now) (n, st)).2.certificates.get? id =
        if id ∈ rows.map Certificate.id then
          (st.certificates.get? id).map (revokedRow "superseded" now)
        else st.certificates.get? id := by
  induction rows generalizing n st with
  | nil => simp
  | cons row rows ih =>
    obtain ⟨hrow, hrevoked⟩ := hrows row (List.mem_cons_self ..)
    obtain ⟨st', hone, hcerts⟩ := revokeOne_of_unrevoked now n hrow hrevoked
    rw [List.map_cons, List.nodup_cons] at honce
    have hother : ∀ id, id ≠ row.id → st'.certificates.get? id = st.certificates.get? id := by
      intro id hid
      rw [hcerts, Table.get?_update_of_ne (Ne.symm hid)]
    have hrows' : ∀ row' ∈ rows,
        st'.certificates.get? row'.id = some row' ∧ row'.revoked = false := by
      intro row' hrow'
      obtain ⟨hthere, hunrevoked⟩ := hrows row' (List.mem_cons_of_mem _ hrow')
      refine ⟨?_, hunrevoked⟩
      rw [hother, hthere]
      rintro heq
      exact honce.1 (heq ▸ List.mem_map_of_mem hrow')
    obtain ⟨hcount, hget⟩ := ih (n + 1) hrows' honce.2
    rw [List.foldl_cons, hone]
    refine ⟨?_, ?_⟩
    · rw [hcount, List.length_cons]
      omega
    · intro id
      rw [hget id]
      by_cases hid : id = row.id
      · subst hid
        rw [if_neg honce.1, hcerts, Table.get?_update_self hrow, hrow, List.map_cons,
          if_pos (List.mem_cons_self ..)]
        rfl
      · simp [hother id hid, hid]

variable [QueryOrder] {orders : List OrderRow}

theorem nodup_ids_superseded : ((superseded st orders).map Certificate.id).Nodup := by
  have hsub : ((superseded st orders).map Certificate.id).Sublist
      (st.certificates.rows.map Certificate.id) := List.filter_sublist.map _
  exact (st.certificates.sorted.sublist hsub).imp Nat.ne_of_lt

theorem revokeSuperseded_spec :
    (revokeSuperseded st orders now).1 = countSuperseded st orders ∧
      ∀ id, (revokeSuperseded st orders now).2.certificates.get? id =
        if id ∈ (superseded st orders).map Certificate.id then
          (st.certificates.get? id).map (revokedRow "superseded" now)
        else st.certificates.get? id := by
  have hrows : ∀ row ∈ superseded st orders,
      st.certificates.get? row.id = some row ∧ row.revoked = false := by
    intro row hrow
    obtain ⟨hmem, hrevoked, _⟩ := mem_superseded.mp hrow
    exact ⟨Table.get?_eq_some_iff.mpr ⟨hmem, rfl⟩, hrevoked⟩
  obtain ⟨hcount, hget⟩ := foldl_revokeOne now (superseded st orders) 0 hrows
    nodup_ids_superseded
  exact ⟨by rw [revokeSuperseded, hcount, Nat.zero_add, countSuperseded], hget⟩

theorem mem_ids_superseded {row : Certificate} (hrow : row ∈ st.certificates)
    (hrevoked : row.revoked = false) :
    row.id ∈ (superseded st orders).map Certificate.id ↔ Replaced orders row.id := by
  constructor
  · intro hmem
    obtain ⟨row', hrow', hid⟩ := List.mem_map.mp hmem
    exact hid ▸ (mem_superseded.mp hrow').2.2
  · exact fun h => List.mem_map_of_mem (mem_superseded.mpr ⟨hrow, hrevoked, h⟩)

theorem isRevoked_iff {row : Certificate} (hrow : row ∈ st.certificates)
    (hrevoked : row.revoked = false) :
    IsRevoked (revokeSuperseded st orders now).2 row.id ↔ Replaced orders row.id := by
  have hget : st.certificates.get? row.id = some row := Table.get?_eq_some_iff.mpr ⟨hrow, rfl⟩
  rw [← mem_ids_superseded hrow hrevoked, IsRevoked, revokeSuperseded_spec.2, hget]
  split_ifs with hmem
  · simp [revokedRow, hmem]
  · simp [hrevoked, hmem]

theorem superseded_revokeSuperseded :
    superseded (revokeSuperseded st orders now).2 orders = [] := by
  apply List.eq_nil_iff_forall_not_mem.mpr
  intro row hrow
  obtain ⟨hmem, hrevoked, hreplaced⟩ := mem_superseded.mp hrow
  have hget := Table.get?_eq_some_iff.mpr ⟨hmem, rfl⟩
  rw [revokeSuperseded_spec.2] at hget
  split_ifs at hget with hid
  · obtain ⟨row', _, rfl⟩ := Option.map_eq_some_iff.mp hget
    simp [revokedRow] at hrevoked
  · exact hid ((mem_ids_superseded (Table.mem_of_get? hget) hrevoked).mpr hreplaced)

end Revoking

/-- The superseded certificates are revoked as they should be exactly if comparing the texts of
identifiers over all accounts makes no difference to any certificate that is not revoked. -/
theorem revokeSuperseded_exact_iff [QueryOrder] (identifiersList : String → List Identifier)
    (st : Store) (orders : List OrderRow) (now : Time) :
    Exact identifiersList st orders now ↔ Grouped identifiersList st orders := by
  constructor
  · intro h row hrow hrevoked
    refine ⟨?_, ?_⟩
    · exact (isRevoked_iff hrow hrevoked).symm.trans (h.revoked row hrow hrevoked)
    · intro hreplaced o ho hfor hnewest
      exact h.newest row hrow hrevoked o ho hfor hnewest
        ((isRevoked_iff hrow hrevoked).mpr hreplaced)
  · intro h
    refine ⟨?_, ?_, revokeSuperseded_spec.1, ?_⟩
    · intro row hrow hrevoked
      rw [isRevoked_iff hrow hrevoked]
      exact (h row hrow hrevoked).1
    · intro row hrow hrevoked o ho hfor hnewest hgone
      exact (h row hrow hrevoked).2 ((isRevoked_iff hrow hrevoked).mp hgone) o ho hfor hnewest
    · intro later
      rw [revokeSuperseded_spec.1, countSuperseded, superseded_revokeSuperseded, List.length_nil]

section Sample

@[reducible] def tableOrder : QueryOrder where
  newestFirst := List.insertionSort fun o o' => o'.createdAt ≤ o.createdAt
  perm := List.perm_insertionSort _
  sorted := List.pairwise_insertionSort _

def sampleText : String := "[\x7b\"type\": \"dns\", \"value\": \"host.example\"\x7d]"

/-- Two accounts have a certificate for the same name, the second account the newer one. -/
def twoAccounts : List OrderRow :=
  [⟨"first", .valid, sampleText, some 1, 0⟩, ⟨"second", .valid, sampleText, some 2, 10⟩]

def twoCertificates : Store :=
  { sampleStore with
    certificates := ((∅ : Table Certificate).insert { refid := "a", descr := "host" }).insert
      { refid := "b", descr := "host" } }

/-- The only certificate of the first account is revoked. -/
theorem other_account_not_exact :
    let _ := tableOrder
    ¬Exact (fun _ => [⟨some "dns", some "host.example"⟩]) twoCertificates twoAccounts 20 := by
  intro _ h
  let row : Certificate := { id := 1, refid := "a", descr := "host" }
  have hrow : row ∈ twoCertificates.certificates := by decide
  have hreplaced : Replaced twoAccounts row.id := by
    refine ⟨⟨twoAccounts[0], by decide, rfl, rfl⟩, ?_⟩
    intro o ho hfor
    rcases List.mem_pair.mp ho with rfl | rfl
    · exact ⟨twoAccounts[1], by decide, by decide⟩
    · cases hfor.2
  obtain ⟨o, ho, hfor, o', ho', hnewer⟩ :=
    (h.revoked row hrow rfl).mp ((isRevoked_iff hrow rfl).mpr hreplaced)
  -- the first account has no other order
  rcases List.mem_pair.mp ho with rfl | rfl
  · rcases List.mem_pair.mp ho' with rfl | rfl
    · exact lt_irrefl _ hnewer.2.2.1
    · exact absurd hnewer.2.1 (by decide)
  · cases hfor.2

end Sample

end Superseded

end CaManager
