import CaManager.Store.Bulk
import CaManager.Store.Operations

/-!
# Bulk routes against single ones

A bulk route is to do with its identifiers what the single operation would do with them in turn. The
loops for deleting certificates and authorities do. The others differ where a commit raises in a
session that is not rolled back, where a renewal finds the authority by the issuer only, and a
failure leaves a change where files are written after the commit or removed before it.
-/

namespace CaManager

open Library

namespace BulkRoutes

open SingleRoutes

def Revocable (o : Office) (a : Attempt) : Prop :=
  ∃ row, o.store.certificates.get? a.id = some row ∧ row.revoked = false

/-- A renewal through the authority that is linked to the row, or else the one that is found by the
issuer, would get as far as its commit; and no authority is linked. -/
def RenewableByIssuer (o : Office) (a : Attempt) : Prop :=
  ∃ row, o.store.certificates.get? a.id = some row ∧ row.crt.isSome = true ∧
    (o.store.cas.first fun c => some c.refid = row.caref) = none ∧
    ∃ ca, Routes.issuingCa o.store row = some ca ∧ ca.prv.isSome = true ∧
      ∃ st, Routes.tryRenew o.store row ca a.draw = .ok st

section Revoking

variable {reason username : String} {o : Office} {a : Attempt}

theorem revokeService_of_revocable (h : Revocable o a) (now : Time) :
    ∃ st, CertificateService.revokeCertificate o.store a.id reason username now = .ok st := by
  obtain ⟨row, hrow, hrevoked⟩ := h
  unfold CertificateService.revokeCertificate
  rw [hrow, orThrow_some, ok_bind, ensure_of hrevoked, ok_bind]
  dsimp only
  split
  · exact ⟨_, rfl⟩
  · exact ⟨_, rfl⟩

theorem revoke_of_revocable (h : Revocable o a) : ∃ o',
    BulkRequest.succeeded (revokeCertificate reason username o a) =
      (if a.commits then (true, o') else (false, o)) ∧
    (revokeRound reason username o a).visit =
      ((if a.commits then (true, o') else (false, o)), a.commits) := by
  obtain ⟨st, hst⟩ :=
    @revokeService_of_revocable reason username o a h a.draw.now
  obtain ⟨row, hrow, hrevoked⟩ := h
  refine ⟨{ o with store := st }, ?_, ?_⟩
  · unfold SingleRoutes.revokeCertificate Routes.revokeCertificate commitOr BulkRequest.succeeded
    cases hcommits : a.commits <;> simp [hrow, hrevoked, hst]
  · unfold revokeRound Round.visit
    cases hcommits : a.commits <;> simp [hrow, hrevoked, hst]

theorem revoke_of_not_revocable (h : ¬Revocable o a) :
    BulkRequest.succeeded (revokeCertificate reason username o a) = (false, o) ∧
      (revokeRound reason username o a).visit = ((false, o), true) := by
  cases hrow : o.store.certificates.get? a.id with
  | none =>
    constructor
    · unfold SingleRoutes.revokeCertificate Routes.revokeCertificate BulkRequest.succeeded
      simp [hrow]
    · unfold revokeRound Round.visit
      simp [hrow]
  | some row =>
    have hrevoked : row.revoked = true := by
      rw [← Bool.not_eq_false]
      exact fun hfalse => h ⟨row, hrow, hfalse⟩
    constructor
    · unfold SingleRoutes.revokeCertificate Routes.revokeCertificate BulkRequest.succeeded
      simp [hrow, hrevoked]
    · unfold revokeRound Round.visit
      simp [hrow, hrevoked]

theorem revokeRound_same : (revokeRound reason username o a).visit.1 =
    BulkRequest.succeeded (revokeCertificate reason username o a) := by
  by_cases h : Revocable o a
  · obtain ⟨o', hsingle, hround⟩ := @revoke_of_revocable reason username o a h
    rw [hsingle, hround]
  · have hnot := @revoke_of_not_revocable reason username o a h
    rw [hnot.1, hnot.2]

theorem revokeRound_answers : (revokeRound reason username o a).visit.2 = false ↔
    Revocable o a ∧ a.commits = false := by
  by_cases h : Revocable o a
  · obtain ⟨o', -, hround⟩ := @revoke_of_revocable reason username o a h
    rw [hround]
    exact (and_iff_right h).symm
  · rw [(revoke_of_not_revocable h).2]
    exact iff_of_false (by simp) fun hboth => h hboth.1

theorem revoke_clean
    (h : (BulkRequest.succeeded (revokeCertificate reason username o a)).1 = false) :
    BulkRequest.succeeded (revokeCertificate reason username o a) = (false, o) := by
  by_cases hrevocable : Revocable o a
  · obtain ⟨o', hsingle, -⟩ := @revoke_of_revocable reason username o a hrevocable
    rw [hsingle] at h ⊢
    cases hcommits : a.commits with
    | true => simp [hcommits] at h
    | false => rfl
  · exact (revoke_of_not_revocable hrevocable).1

theorem revoke_eq_iff :
    BulkRequest.succeeded (revokeCertificate reason username o a) = (false, o) ↔
      (Revocable o a → a.commits = false) := by
  by_cases h : Revocable o a
  · obtain ⟨o', hsingle, -⟩ := @revoke_of_revocable reason username o a h
    rw [hsingle]
    cases a.commits <;> simp [h]
  · exact iff_of_true (revoke_of_not_revocable h).1 fun h' => absurd h' h

end Revoking

section Renewing

variable {o : Office} {a : Attempt}

theorem renewRound_answers : (renewRound o a).visit.2 = true := by
  unfold renewRound rolledBack Round.visit
  split
  · rfl
  · split_ifs
    · rfl
    · rfl

theorem issuingCa_of_linked {st : Store} {row : Certificate} {ca : CA}
    (h : (st.cas.first fun c => some c.refid = row.caref) = some ca) :
    Routes.issuingCa st row = some ca := by
  unfold Routes.issuingCa
  rw [h]

def renewal (o : Office) (a : Attempt) (row : Certificate) (ca : CA) : Bool × Office :=
  match Routes.tryRenew o.store row ca a.draw with
  | .ok st => if a.commits then (true, { o with store := st }) else (false, o)
  | .error _ => (false, o)

theorem succeeded_renew {row : Certificate} (hrow : o.store.certificates.get? a.id = some row)
    (hcrt : row.crt ≠ none) : BulkRequest.succeeded (SingleRoutes.renewCertificate o a) =
      match (Routes.issuingCa o.store row).filter fun ca => ca.prv.isSome with
      | none => (false, o)
      | some ca => renewal o a row ca := by
  unfold SingleRoutes.renewCertificate Routes.renewCertificate BulkRequest.succeeded commitOr renewal
  cases hca : Routes.issuingCa o.store row with
  | none => simp [hrow, hcrt, hca]
  | some ca =>
    cases hprv : ca.prv with
    | none =>
      have hfilter : (some ca).filter (fun ca => ca.prv.isSome) = none := by simp [hprv]
      rw [hfilter]
      simp [hrow, hcrt, hca, hprv]
    | some key =>
      have hfilter : (some ca).filter (fun ca => ca.prv.isSome) = some ca := by simp [hprv]
      rw [hfilter]
      cases htry : Routes.tryRenew o.store row ca a.draw with
      | error e => simp [hrow, hcrt, hca, hprv, htry]
      | ok st => cases hcommits : a.commits <;> simp [hrow, hcrt, hca, hprv, htry]

theorem renewRound_visit {row : Certificate} (hrow : o.store.certificates.get? a.id = some row)
    (hcrt : row.crt ≠ none) : (renewRound o a).visit.1 =
      match (o.store.cas.first fun c => some c.refid = row.caref).filter fun ca =>
        ca.prv.isSome with
      | none => (false, o)
      | some ca => renewal o a row ca := by
  unfold renewRound Routes.bulkRenewNote Routes.bulkRenewOne rolledBack Round.visit renewal
  rw [hrow]
  dsimp only
  rw [if_neg hcrt, if_neg hcrt]
  cases o.store.cas.first fun c => some c.refid = row.caref with
  | none => rfl
  | some ca =>
    cases hprv : ca.prv with
    | none =>
      have hfilter : (some ca).filter (fun ca => ca.prv.isSome) = none := by simp [hprv]
      rw [hfilter]
      simp [hprv]
    | some key =>
      have hfilter : (some ca).filter (fun ca => ca.prv.isSome) = some ca := by simp [hprv]
      rw [hfilter]
      simp only [hprv, reduceCtorEq, if_false]
      cases Routes.tryRenew o.store row ca a.draw with
      | error e => rfl
      | ok st => cases a.commits <;> rfl

theorem renew_same_iff :
    (renewRound o a).visit.1 = BulkRequest.succeeded (SingleRoutes.renewCertificate o a) ↔
      (RenewableByIssuer o a → a.commits = false) := by
  cases hrow : o.store.certificates.get? a.id with
  | none =>
    have hnot : ¬RenewableByIssuer o a := fun ⟨row, hget, _⟩ => nomatch hrow.symm.trans hget
    refine iff_of_true ?_ fun h => absurd h hnot
    simp [renewRound, Routes.bulkRenewNote, Round.visit, BulkRequest.succeeded,
      SingleRoutes.renewCertificate, Routes.renewCertificate, hrow]
  | some row =>
    cases hcrt : row.crt with
    | none =>
      have hnot : ¬RenewableByIssuer o a := by
        rintro ⟨row', hget, hsome, _⟩
        cases hrow.symm.trans hget
        rw [hcrt] at hsome
        cases hsome
      refine iff_of_true ?_ fun h => absurd h hnot
      simp [renewRound, Routes.bulkRenewNote, Round.visit, BulkRequest.succeeded,
        SingleRoutes.renewCertificate, Routes.renewCertificate, hrow, hcrt]
    | some crt =>
      have hheld : row.crt ≠ none := hcrt ▸ Option.some_ne_none crt
      rw [renewRound_visit hrow hheld, succeeded_renew hrow hheld]
      cases hlinked : o.store.cas.first fun c => some c.refid = row.caref with
      | some ca =>
        have hnot : ¬RenewableByIssuer o a := by
          rintro ⟨row', hget, _, hunlinked, _⟩
          cases hrow.symm.trans hget
          cases hlinked.symm.trans hunlinked
        rw [issuingCa_of_linked hlinked]
        exact iff_of_true rfl fun h => absurd h hnot
      | none =>
        cases hca : (Routes.issuingCa o.store row).filter fun ca => ca.prv.isSome with
        | none =>
          have hnot : ¬RenewableByIssuer o a := by
            rintro ⟨row', hget, _, _, ca, hissuing, hprv, _⟩
            cases hrow.symm.trans hget
            rw [hissuing, Option.filter_some, if_pos hprv] at hca
            cases hca
          exact iff_of_true rfl fun h => absurd h hnot
        | some ca =>
          obtain ⟨hissuing, hprv⟩ := Option.filter_eq_some_iff.mp hca
          dsimp only [Option.filter_none]
          unfold renewal
          cases htry : Routes.tryRenew o.store row ca a.draw with
          | error e =>
            have hnot : ¬RenewableByIssuer o a := by
              rintro ⟨row', hget, _, _, ca', hissuing', _, st, hst⟩
              cases hrow.symm.trans hget
              cases hissuing.symm.trans hissuing'
              cases htry.symm.trans hst
            exact iff_of_true rfl fun h => absurd h hnot
          | ok st =>
            have hrenewable : RenewableByIssuer o a :=
              ⟨row, hrow, by rw [hcrt]; rfl, hlinked, ca, hissuing, hprv, st, htry⟩
            cases hcommits : a.commits with
            | true => exact iff_of_false nofun fun h => absurd (h hrenewable) nofun
            | false => exact iff_of_true rfl fun _ => rfl

end Renewing

section Deleting

variable {o : Office} {a : Attempt}

theorem deleteRound_visit :
    (deleteRound o a).visit =
      (BulkRequest.succeeded (SingleRoutes.deleteCertificate o a), true) := by
  unfold deleteRound SingleRoutes.deleteCertificate rolledBack commitOr BulkRequest.succeeded
    Round.visit
  cases o.store.certificates.get? a.id with
  | none => rfl
  | some row => cases a.commits <;> rfl

theorem deleteCaRound_visit :
    (deleteCaRound o a).visit = (BulkRequest.succeeded (deleteCa o a), true) := by
  unfold deleteCaRound deleteCa rolledBack commitOr BulkRequest.succeeded Round.visit
  cases o.store.cas.get? a.id with
  | none => rfl
  | some ca =>
    dsimp only
    split_ifs
    · rfl
    · rfl
    · rfl
    · rfl

end Deleting

section Signing

variable {caref : String} {caId : ℕ} {validityDays : ℤ} {o : Office} {a b : Attempt} {x : X509}
  {st : Store}

theorem writeSigned_store [FileNaming] (o : Office) (certId : ℕ) (x : X509) :
    (writeSigned o certId x).2.store = o.store := by
  unfold writeSigned
  split
  · rfl
  · dsimp only
    split_ifs
    · rfl
    · rfl

variable [X509Library]

def SignsRow (caref : String) (validityDays : ℤ) (o : Office) (a : Attempt) (x : X509) (st : Store) :
    Prop :=
  CertificateService.signCsr o.store a.id caref "server_cert" validityDays a.draw.serial
    a.draw.now = .ok (x, st)

def SignsWith (caId : ℕ) (caref : String) (o : Office) : Prop :=
  ∃ ca, signingCa o.store caId = some ca ∧ ca.refid = caref

theorem signCsr_refused (h : ∀ row, o.store.certificates.get? a.id = some row →
    row.csr = none ∨ row.crt.isSome = true) : ¬∃ x st, SignsRow caref validityDays o a x st := by
  rintro ⟨x, st, hsigns⟩
  unfold SignsRow CertificateService.signCsr at hsigns
  simp only [bind_eq_ok, orThrow_eq_ok, ensure_eq_ok] at hsigns
  obtain ⟨row, hrow, csrText, hcsr, _, hcrt, -⟩ := hsigns
  rcases h row hrow with hnone | hsome
  · cases hnone.symm.trans hcsr
  · rw [hcrt] at hsome
    cases hsome

theorem signed_row (h : SignsRow caref validityDays o a x st) :
    ∃ row, o.store.certificates.get? a.id = some row ∧ row.crt = none ∧
      ∃ row', st.certificates.get? a.id = some row' ∧ row'.crt.isSome = true := by
  obtain ⟨row, ca, _, _, hrow, hcrt, _, _, _, _, rfl⟩ := CertificateService.signCsr_eq_ok h
  exact ⟨row, hrow, hcrt, _, Table.get?_update_self hrow, rfl⟩

theorem SignsWith.sign (hwith : SignsWith caId caref o) (h : SignsRow caref validityDays o a x st) :
    ∃ ca, signingCa st caId = some ca ∧ ca.refid = caref := by
  obtain ⟨ca, hca, hrefid⟩ := hwith
  obtain ⟨hget, hprv⟩ := Option.filter_eq_some_iff.mp hca
  obtain ⟨row, ca', _, _, hrow, _, _, _, _, _, rfl⟩ := CertificateService.signCsr_eq_ok h
  unfold signingCa Store.countSerial Store.setCertificate
  rw [Table.get?_update, hget]
  simp only [Option.map_some]
  split_ifs with hkey
  · exact ⟨_, Option.filter_eq_some_iff.mpr ⟨rfl, hprv⟩, hrefid⟩
  · exact ⟨ca, Option.filter_eq_some_iff.mpr ⟨rfl, hprv⟩, hrefid⟩

variable [FileNaming]

theorem serviceSign_of_not (h : ¬∃ x st, SignsRow caref validityDays o a x st) :
    serviceSign caref "server_cert" validityDays o a = ((false, o), true) := by
  unfold serviceSign
  split
  · rfl
  · rename_i x st hsigns
    exact absurd ⟨x, st, hsigns⟩ h

theorem serviceSign_of (h : SignsRow caref validityDays o a x st) :
    serviceSign caref "server_cert" validityDays o a =
      if a.commits then (writeSigned { o with store := st } a.id x, true)
      else ((false, o), false) := by
  unfold serviceSign
  rw [show CertificateService.signCsr o.store a.id caref "server_cert" validityDays a.draw.serial
    a.draw.now = .ok (x, st) from h]

theorem signRound_visit : (signRound caref validityDays o a).visit =
    serviceSign caref "server_cert" validityDays o a := by
  unfold signRound Round.visit
  cases hrow : o.store.certificates.get? a.id with
  | none =>
    rw [serviceSign_of_not (signCsr_refused fun row h => nomatch hrow.symm.trans h)]
    rfl
  | some row =>
    dsimp only
    have hrefused (h : row.csr = none ∨ row.crt.isSome = true) :
        serviceSign caref "server_cert" validityDays o a = ((false, o), true) := by
      apply serviceSign_of_not
      apply signCsr_refused
      intro row' hrow'
      exact Option.some.inj (hrow.symm.trans hrow') ▸ h
    split_ifs with hcsr hcrt
    · rw [hrefused (.inl hcsr)]
      rfl
    · rw [hrefused (.inr hcrt)]
      rfl
    · rcases serviceSign caref "server_cert" validityDays o a with ⟨⟨ok, o'⟩, answers⟩
      cases ok <;> rfl

theorem succeeded_signCsr (hcaId : caId ≠ 0) (h : SignsWith caId caref o) :
    BulkRequest.succeeded (SingleRoutes.signCsr caId "server_cert" validityDays o a) =
      (serviceSign caref "server_cert" validityDays o a).1 := by
  obtain ⟨ca, hca, rfl⟩ := h
  obtain ⟨hget, hprv⟩ := Option.filter_eq_some_iff.mp hca
  have hkey : ca.prv ≠ none := Option.isSome_iff_ne_none.mp hprv
  rw [← signRound_visit]
  unfold SingleRoutes.signCsr signRound Round.visit BulkRequest.succeeded
  cases hrow : o.store.certificates.get? a.id with
  | none => rfl
  | some row =>
    dsimp only
    by_cases hcsr : row.csr = none
    · simp [hcsr]
    · by_cases hcrt : row.crt.isSome = true
      · simp [hcsr, hcrt]
      · simp only [hcsr, hcrt, hcaId, hget, hkey, if_false]
        rcases serviceSign ca.refid "server_cert" validityDays o a with ⟨⟨ok, o'⟩, answers⟩
        cases ok <;> rfl

theorem SignsWith.step (hwith : SignsWith caId caref o) :
    SignsWith caId caref (serviceSign caref "server_cert" validityDays o a).1.2 := by
  by_cases h : ∃ x st, SignsRow caref validityDays o a x st
  · obtain ⟨x, st, hsigns⟩ := h
    rw [serviceSign_of hsigns]
    split_ifs
    · unfold SignsWith
      rw [writeSigned_store]
      exact hwith.sign hsigns
    · exact hwith
  · rw [serviceSign_of_not h]
    exact hwith

def Writable (o : Office) (a : Attempt) (st : Store) : Prop :=
  ∀ row, st.certificates.get? a.id = some row → FileNames.certCertPath row ∉ o.disk.locked

theorem writeSigned_eq_true_iff (h : SignsRow caref validityDays o a x st) :
    (writeSigned { o with store := st } a.id x).1 = true ↔ Writable o a st := by
  obtain ⟨_, _, _, row', hrow', _⟩ := signed_row h
  unfold writeSigned Writable
  rw [hrow']
  dsimp only
  split_ifs with hlocked
  · exact iff_of_false nofun fun hall => hall row' rfl hlocked
  · exact iff_of_true rfl fun row hrow => Option.some.inj hrow ▸ hlocked

theorem serviceSign_eq_iff : (serviceSign caref "server_cert" validityDays o a).1 = (false, o) ↔
    ((∃ x st, SignsRow caref validityDays o a x st) → a.commits = false) := by
  by_cases h : ∃ x st, SignsRow caref validityDays o a x st
  · obtain ⟨x, st, hsigns⟩ := h
    rw [serviceSign_of hsigns]
    cases hcommits : a.commits with
    | false => exact iff_of_true rfl fun _ => rfl
    | true =>
      refine iff_of_false ?_ fun hfalse => absurd (hfalse ⟨x, st, hsigns⟩) nofun
      intro heq
      obtain ⟨row, hrow, hcrt, row', hrow', hcrt'⟩ := signed_row hsigns
      have hstore : st = o.store := (writeSigned_store { o with store := st } a.id x).symm.trans
        (congrArg (fun r : Bool × Office => r.2.store) heq)
      rw [hstore, hrow] at hrow'
      rw [← Option.some.inj hrow', hcrt] at hcrt'
      cases hcrt'
  · rw [serviceSign_of_not h]
    exact iff_of_true rfl fun h' => absurd h' h

end Signing

theorem disk_eq_iff {o : Office} {disk : Disk} : { o with disk } = o ↔ disk = o.disk := by
  constructor
  · exact fun h => congrArg Office.disk h
  · rintro rfl
    rfl

section Requests

variable [FileNaming] {o : Office} {a b : Attempt}

def removal (o : Office) (row : Certificate) : Bool × Disk :=
  o.disk.unlinkAll (FileNames.ofCertificate row)

/-- Nothing happens to an identifier: there is no row, or its deletion raises before a file is
removed. -/
def Undisturbed (o : Office) (a : Attempt) : Prop :=
  ∀ row, o.store.certificates.get? a.id = some row →
    (removal o row).2 = o.disk ∧ ((removal o row).1 = true → a.commits = false)

theorem deleteCsrRound_visit :
    (deleteCsrRound o a).visit.1 = BulkRequest.succeeded (deleteCsr o a) := by
  unfold deleteCsrRound deleteCsr Round.visit BulkRequest.succeeded
  rcases serviceDelete o a with _ | ⟨⟨ok, o'⟩, answers⟩
  · rfl
  · cases ok <;> rfl

theorem succeeded_deleteCsr {row : Certificate}
    (hrow : o.store.certificates.get? a.id = some row) :
    BulkRequest.succeeded (deleteCsr o a) =
      if (removal o row).1 = true ∧ a.commits = true then
        (true, { o with
          store := { o.store with certificates := o.store.certificates.delete a.id }
          disk := (removal o row).2 })
      else (false, { o with disk := (removal o row).2 }) := by
  unfold deleteCsr serviceDelete BulkRequest.succeeded removal
  rcases hunlink : o.disk.unlinkAll (FileNames.ofCertificate row) with ⟨ok, disk⟩
  cases ok with
  | false => simp [hrow, hunlink]
  | true => cases hcommits : a.commits <;> simp [hrow, hunlink]

theorem deleteCsrRound_answers {row : Certificate}
    (hrow : o.store.certificates.get? a.id = some row) :
    (deleteCsrRound o a).visit.2 = false ↔ (removal o row).1 = true ∧ a.commits = false := by
  unfold deleteCsrRound serviceDelete Round.visit removal
  rcases hunlink : o.disk.unlinkAll (FileNames.ofCertificate row) with ⟨ok, disk⟩
  cases ok with
  | false => simp [hrow, hunlink]
  | true => cases hcommits : a.commits <;> simp [hrow, hunlink]

theorem deleteCsr_of_missing (hrow : o.store.certificates.get? a.id = none) :
    BulkRequest.succeeded (deleteCsr o a) = (false, o) ∧ (deleteCsrRound o a).visit.2 = true := by
  unfold deleteCsr deleteCsrRound serviceDelete Round.visit BulkRequest.succeeded
  simp [hrow]

theorem deleteCsr_eq_iff : BulkRequest.succeeded (deleteCsr o a) = (false, o) ↔ Undisturbed o a := by
  unfold Undisturbed
  cases hrow : o.store.certificates.get? a.id with
  | none =>
    refine iff_of_true (deleteCsr_of_missing hrow).1 fun row hget => ?_
    cases hget
  | some row =>
    rw [succeeded_deleteCsr hrow]
    simp only [Option.some.injEq, forall_eq']
    split_ifs with hdone
    · refine iff_of_false (fun h => ?_) fun h => ?_
      · exact Bool.noConfusion (congrArg Prod.fst h)
      · exact Bool.noConfusion ((h.2 hdone.1).symm.trans hdone.2)
    · rw [Prod.mk.injEq, and_iff_right rfl, disk_eq_iff]
      refine (and_iff_left ?_).symm
      exact fun hok => by simpa [hok] using hdone

end Requests

end BulkRoutes

namespace BulkRequest

open SingleRoutes BulkRoutes

theorem commitOr_clean {o o' : Office} {a : Attempt} {done failed : Response}
    (hdone : done.status < 400) (h : (succeeded (commitOr o o' a done failed)).1 = false) :
    (succeeded (commitOr o o' a done failed)).2 = o := by
  unfold commitOr succeeded at *
  cases hcommits : a.commits with
  | true => simp [hcommits, hdone] at h
  | false => rfl

theorem renew_clean {o : Office} {a : Attempt} (h : (succeeded (SingleRoutes.renewCertificate o a)).1 = false) :
    (succeeded (SingleRoutes.renewCertificate o a)).2 = o := by
  unfold SingleRoutes.renewCertificate at *
  dsimp only at h ⊢
  split_ifs at h ⊢ with hstatus
  · exact commitOr_clean (hstatus ▸ by decide) h
  · rfl

section Main

variable [X509Library] [FileNaming]

/-- The bulk route reports and leaves what the single operation would, and what it reports as failed
has changed nothing. -/
def Agrees (o : Office) (r : BulkRequest) : Prop :=
  r.serve o = inTurn r.single o r.attempts ∧ Clean o (r.serve o)

/-- A commit that raises: nothing would happen to the identifiers after it. A renewal: the authority
is not found by the issuer only. A signature: its file can be written. A deletion that raises: it
has removed no file. -/
def Condition (o : Office) (r : BulkRequest) : Prop :=
  match r with
  | revoke .. => Throughout r.single (fun o a as =>
      Revocable o a → a.commits = false → ∀ b ∈ as, Revocable o b → b.commits = false) o r.attempts
  | renew _ => Throughout r.single (fun o a _ =>
      RenewableByIssuer o a → a.commits = false) o r.attempts
  | deleteCertificates _ => True
  | deleteCas _ => True
  | signCsrs caId validityDays _ => caId ≠ 0 → ∀ ca, signingCa o.store caId = some ca →
      Throughout r.single (fun o a as => ∀ x st, SignsRow ca.refid validityDays o a x st →
        (a.commits = true → Writable o a st) ∧
        (a.commits = false → ∀ b ∈ as, (∃ x st, SignsRow ca.refid validityDays o b x st) →
          b.commits = false)) o r.attempts
  | deleteCsrs _ => Throughout r.single (fun o a as =>
      ∀ row, o.store.certificates.get? a.id = some row →
        ((removal o row).1 = true → a.commits = false) → (removal o row).2 = o.disk ∧
          ((removal o row).1 = true → ∀ b ∈ as, Undisturbed o b)) o r.attempts

section Agreement

variable {o : Office} {r : BulkRequest}

theorem agrees_iff : Agrees o r ↔ r.serve o = inTurn r.single o r.attempts ∧
    Throughout r.single (fun o a _ => (r.single o a).1 = false → (r.single o a).2 = o) o
      r.attempts := by
  unfold Agrees
  refine and_congr_right fun heq => ?_
  rw [heq, clean_inTurn_iff]

theorem agrees_iff_of_clean (h : ∀ o a, (r.single o a).1 = false → (r.single o a).2 = o) :
    Agrees o r ↔ r.serve o = inTurn r.single o r.attempts := by
  rw [agrees_iff]
  exact and_iff_left (.of_forall (fun o a _ => h o a) o r.attempts)

theorem agrees_revoke_iff (o : Office) (reason username : String) (as : List Attempt) :
    Agrees o (.revoke reason username as) ↔ Condition o (.revoke reason username as) := by
  have hclean : ∀ o a, ((BulkRequest.revoke reason username as).single o a).1 = false →
      ((BulkRequest.revoke reason username as).single o a).2 = o := by
    intro o a h
    exact congrArg Prod.snd (revoke_clean h)
  rw [agrees_iff_of_clean hclean]
  refine (batch_eq_inTurn_iff_of_same (I := fun _ => True) (fun _ _ h => h)
    (fun _ _ _ => revokeRound_same) trivial as).trans ?_
  refine throughout_congr (I := fun _ => True) (fun _ _ h => h) (fun o a bs _ => ?_) trivial as
  rw [revokeRound_answers]
  constructor
  · intro h hrevocable hcommits b hb
    have hrest := h ⟨hrevocable, hcommits⟩ b hb
    have hsame : succeeded (SingleRoutes.revokeCertificate reason username o a) = (false, o) :=
      revoke_eq_iff.mpr fun _ => hcommits
    rw [hsame] at hrest
    exact revoke_eq_iff.mp hrest
  · rintro h ⟨hrevocable, hcommits⟩ b hb
    have hsame : succeeded (SingleRoutes.revokeCertificate reason username o a) = (false, o) :=
      revoke_eq_iff.mpr fun _ => hcommits
    rw [hsame]
    exact revoke_eq_iff.mpr (h hrevocable hcommits b hb)

theorem agrees_renew_iff (o : Office) (as : List Attempt) :
    Agrees o (.renew as) ↔ Condition o (.renew as) := by
  have hclean : ∀ o a, ((BulkRequest.renew as).single o a).1 = false →
      ((BulkRequest.renew as).single o a).2 = o := fun o a h => renew_clean h
  rw [agrees_iff_of_clean hclean]
  refine (batch_eq_inTurn_iff_of_goesOn (fun _ _ => renewRound_answers) o as).trans ?_
  exact throughout_congr (I := fun _ => True) (fun _ _ h => h) (fun o a _ _ => renew_same_iff)
    trivial as

theorem agrees_of_same {round : Office → Attempt → Round}
    (hserve : r.serve o = batch (fun o a => (round o a).visit) o r.attempts)
    (hsame : ∀ o a, (round o a).visit = (r.single o a, true))
    (hclean : ∀ o a, (r.single o a).1 = false → (r.single o a).2 = o) : Agrees o r := by
  rw [agrees_iff_of_clean hclean, hserve,
    batch_eq_inTurn_iff_of_goesOn fun o a => congrArg Prod.snd (hsame o a)]
  exact .of_forall (fun o a _ => congrArg Prod.fst (hsame o a)) o r.attempts

theorem agrees_deleteCertificates (o : Office) (as : List Attempt) :
    Agrees o (.deleteCertificates as) := by
  refine agrees_of_same rfl (fun _ _ => deleteRound_visit) fun o a h => ?_
  change (succeeded (SingleRoutes.deleteCertificate o a)).2 = o
  change (succeeded (SingleRoutes.deleteCertificate o a)).1 = false at h
  unfold SingleRoutes.deleteCertificate at *
  split at h
  · rfl
  · exact commitOr_clean (by decide) h

theorem agrees_deleteCas (o : Office) (as : List Attempt) : Agrees o (.deleteCas as) := by
  refine agrees_of_same rfl (fun _ _ => deleteCaRound_visit) fun o a h => ?_
  change (succeeded (deleteCa o a)).2 = o
  change (succeeded (deleteCa o a)).1 = false at h
  unfold deleteCa at *
  split at h
  · rfl
  · dsimp only at h ⊢
    split_ifs at h ⊢
    · rfl
    · rfl
    · exact commitOr_clean (by decide) h

theorem signCsr_of_no_authority {caId : ℕ} {validityDays : ℤ} {a : Attempt}
    (h : caId = 0 ∨ signingCa o.store caId = none) :
    succeeded (SingleRoutes.signCsr caId "server_cert" validityDays o a) = (false, o) := by
  unfold SingleRoutes.signCsr succeeded
  cases hrow : o.store.certificates.get? a.id with
  | none => rfl
  | some row =>
    dsimp only
    split_ifs with hcsr hcrt hcaId
    · rfl
    · rfl
    · rfl
    · have hnone := h.resolve_left hcaId
      unfold signingCa at hnone
      cases hget : o.store.cas.get? caId with
      | none => rfl
      | some ca =>
        rw [hget, Option.filter_some] at hnone
        have hkey : ca.prv = none := by
          rw [← Option.not_isSome_iff_eq_none]
          intro hsome
          rw [if_pos hsome] at hnone
          cases hnone
        simp [hkey]

theorem agrees_of_no_authority {caId : ℕ} {validityDays : ℤ} {as : List Attempt}
    (h : caId = 0 ∨ signingCa o.store caId = none) : Agrees o (.signCsrs caId validityDays as) := by
  have hserve : (BulkRequest.signCsrs caId validityDays as).serve o =
      as.map fun _ => (false, o) := by
    unfold serve
    rcases h with rfl | hnone
    · rfl
    · dsimp only
      rw [hnone]
      split_ifs
      · rfl
      · rfl
  unfold Agrees
  rw [hserve]
  exact ⟨(failed_eq_inTurn_iff o as).mpr fun a _ => signCsr_of_no_authority h, clean_failed o as⟩

theorem signRound_right_iff {caId : ℕ} {caref : String} {validityDays : ℤ} {a : Attempt}
    {as : List Attempt} (hcaId : caId ≠ 0) (hwith : SignsWith caId caref o)
    (hr : r.single = fun o a =>
      succeeded (SingleRoutes.signCsr caId "server_cert" validityDays o a)) :
    (((signRound caref validityDays o a).visit.2 = false →
        ∀ b ∈ as, r.single (r.single o a).2 b = (false, (r.single o a).2)) ∧
      ((r.single o a).1 = false → (r.single o a).2 = o)) ↔
    ∀ x st, SignsRow caref validityDays o a x st → (a.commits = true → Writable o a st) ∧
      (a.commits = false → ∀ b ∈ as, (∃ x st, SignsRow caref validityDays o b x st) →
        b.commits = false) := by
  have hsingle (b : Attempt) :
      r.single o b = (serviceSign caref "server_cert" validityDays o b).1 := by
    rw [hr]
    exact succeeded_signCsr hcaId hwith
  rw [hsingle a, signRound_visit]
  by_cases h : ∃ x st, SignsRow caref validityDays o a x st
  · obtain ⟨x, st, hsigns⟩ := h
    have honly : ∀ x' st', SignsRow caref validityDays o a x' st' → x' = x ∧ st' = st := by
      intro x' st' hsigns'
      exact Prod.mk.inj (Except.ok.inj (hsigns'.symm.trans hsigns))
    rw [serviceSign_of hsigns]
    cases hcommits : a.commits with
    | true =>
      rw [if_pos rfl]
      have hchanged : (writeSigned { o with store := st } a.id x) ≠ (false, o) := by
        intro heq
        have hnothing : (serviceSign caref "server_cert" validityDays o a).1 = (false, o) := by
          rw [serviceSign_of hsigns, if_pos hcommits]
          exact heq
        have hfalse := serviceSign_eq_iff.mp hnothing ⟨x, st, hsigns⟩
        rw [hcommits] at hfalse
        cases hfalse
      constructor
      · rintro ⟨-, hclean⟩ x' st' hsigns'
        obtain ⟨rfl, rfl⟩ := honly x' st' hsigns'
        refine ⟨fun _ => ?_, fun hfalse => absurd hfalse (by simp)⟩
        rw [← writeSigned_eq_true_iff hsigns, ← Bool.not_eq_false]
        exact fun hfailed => hchanged (Prod.ext hfailed (hclean hfailed))
      · intro hright
        refine ⟨fun hfalse => absurd hfalse (by simp), fun hfailed => ?_⟩
        have hwritten := (writeSigned_eq_true_iff hsigns).mpr ((hright x st hsigns).1 rfl)
        rw [hwritten] at hfailed
        cases hfailed
    | false =>
      rw [if_neg Bool.false_ne_true]
      constructor
      · rintro ⟨hrest, -⟩ x' st' _
        refine ⟨fun hfalse => absurd hfalse (by simp), fun _ b hb => serviceSign_eq_iff.mp ?_⟩
        rw [← hsingle b]
        exact hrest rfl b hb
      · intro hright
        refine ⟨fun _ b hb => ?_, fun _ => rfl⟩
        dsimp only
        rw [hsingle b]
        exact serviceSign_eq_iff.mpr ((hright x st hsigns).2 rfl b hb)
  · rw [serviceSign_of_not h]
    refine iff_of_true ⟨fun hfalse => absurd hfalse (by simp), fun _ => rfl⟩ ?_
    exact fun x st hsigns => absurd ⟨x, st, hsigns⟩ h

theorem agrees_signCsrs_iff (o : Office) (caId : ℕ) (validityDays : ℤ) (as : List Attempt) :
    Agrees o (.signCsrs caId validityDays as) ↔
      Condition o (.signCsrs caId validityDays as) := by
  by_cases hcaId : caId = 0
  · exact iff_of_true (agrees_of_no_authority (.inl hcaId)) fun h => absurd hcaId h
  cases hca : signingCa o.store caId with
  | none =>
    refine iff_of_true (agrees_of_no_authority (.inr hca)) fun _ ca hsome => ?_
    cases hca.symm.trans hsome
  | some ca =>
    have hwith : SignsWith caId ca.refid o := ⟨ca, hca, rfl⟩
    have hkeep : ∀ o a, SignsWith caId ca.refid o → SignsWith caId ca.refid
        ((BulkRequest.signCsrs caId validityDays as).single o a).2 := by
      intro o a hwith
      have hsingle := @succeeded_signCsr ca.refid caId validityDays o a _ _ hcaId hwith
      exact (congrArg (fun s : Bool × Office => SignsWith caId ca.refid s.2) hsingle).mpr hwith.step
    have hserve : (BulkRequest.signCsrs caId validityDays as).serve o =
        batch (fun o a => (signRound ca.refid validityDays o a).visit) o as := by
      unfold serve
      dsimp only
      rw [if_neg hcaId, hca]
    have hcondition : Condition o (.signCsrs caId validityDays as) ↔
        Throughout (BulkRequest.signCsrs caId validityDays as).single (fun o a as =>
          ∀ x st, SignsRow ca.refid validityDays o a x st → (a.commits = true → Writable o a st) ∧
            (a.commits = false → ∀ b ∈ as, (∃ x st, SignsRow ca.refid validityDays o b x st) →
              b.commits = false)) o as := by
      unfold Condition
      dsimp only
      rw [hca]
      simp only [Option.some.injEq, forall_eq', attempts]
      exact ⟨fun h => h hcaId, fun h _ => h⟩
    have hsame : ∀ o a, SignsWith caId ca.refid o →
        (signRound ca.refid validityDays o a).visit.1 =
          (BulkRequest.signCsrs caId validityDays as).single o a := by
      intro o a hwith
      rw [signRound_visit]
      exact (succeeded_signCsr hcaId hwith).symm
    rw [agrees_iff, hserve, hcondition]
    refine (and_congr_left' (batch_eq_inTurn_iff_of_same hkeep hsame hwith as)).trans ?_
    refine (throughout_and o as).symm.trans ?_
    exact throughout_congr hkeep (fun o a _ hwith => signRound_right_iff hcaId hwith rfl) hwith as

theorem deleteCsrRound_right_iff {a : Attempt} {as : List Attempt}
    (hr : r.single = fun o a => succeeded (SingleRoutes.deleteCsr o a)) :
    (((deleteCsrRound o a).visit.2 = false →
        ∀ b ∈ as, r.single (r.single o a).2 b = (false, (r.single o a).2)) ∧
      ((r.single o a).1 = false → (r.single o a).2 = o)) ↔
    ∀ row, o.store.certificates.get? a.id = some row →
      ((removal o row).1 = true → a.commits = false) → (removal o row).2 = o.disk ∧
        ((removal o row).1 = true → ∀ b ∈ as, Undisturbed o b) := by
  rw [hr]
  dsimp only
  cases hrow : o.store.certificates.get? a.id with
  | none =>
    rw [(deleteCsr_of_missing hrow).1, (deleteCsr_of_missing hrow).2]
    refine iff_of_true ⟨fun hfalse => absurd hfalse (by simp), fun _ => rfl⟩ fun row hget => ?_
    cases hget
  | some row =>
    rw [deleteCsrRound_answers hrow, succeeded_deleteCsr hrow]
    simp only [Option.some.injEq, forall_eq']
    split_ifs with hdone
    · refine iff_of_true ⟨fun h => ?_, fun h => absurd h (by simp)⟩ fun h => ?_
      · cases h.2.symm.trans hdone.2
      · cases (h hdone.1).symm.trans hdone.2
    · have hfailed : (removal o row).1 = true → a.commits = false := fun hok => by
        simpa [hok] using hdone
      dsimp only
      rw [disk_eq_iff]
      constructor
      · rintro ⟨hrest, hclean⟩ -
        have hdisk := hclean rfl
        refine ⟨hdisk, fun hok b hb => ?_⟩
        rw [hdisk] at hrest
        exact deleteCsr_eq_iff.mp (hrest ⟨hok, hfailed hok⟩ b hb)
      · intro hright
        obtain ⟨hdisk, hrest⟩ := hright hfailed
        rw [hdisk]
        exact ⟨fun h b hb => deleteCsr_eq_iff.mpr (hrest h.1 b hb), fun _ => rfl⟩

theorem agrees_deleteCsrs_iff (o : Office) (as : List Attempt) :
    Agrees o (.deleteCsrs as) ↔ Condition o (.deleteCsrs as) := by
  rw [agrees_iff]
  refine (and_congr_left' (batch_eq_inTurn_iff_of_same (I := fun _ => True) (fun _ _ h => h)
    (fun _ _ _ => deleteCsrRound_visit) trivial as)).trans ?_
  refine (throughout_and o as).symm.trans ?_
  exact throughout_congr (I := fun _ => True) (fun _ _ h => h)
    (fun o a _ _ => deleteCsrRound_right_iff (r := .deleteCsrs as) rfl) trivial as

end Agreement

end Main

section Sample

@[reducible] def sampleNaming : FileNaming where
  slugifyCn := id

def sampleAttempt (id serial : ℕ) (commits : Bool) : Attempt :=
  ⟨id, sampleDraw serial "" 0, commits⟩

/-- A certificate of the sample authority, imported without a link to it, and a request. -/
def sampleOffice : Office :=
  let x : X509 := { sampleCaCert with serial := 7, subject := sampleName "www" }
  let csr : Csr := ⟨sampleName "app", ⟨.rsa 2048, 5⟩, true, []⟩
  let row : Certificate :=
    { refid := "www", descr := "www", crt := some (.base64 ⟨x, []⟩), issuer := some "CN=Root" }
  { store := { sampleStore with
      certificates := ((∅ : Table Certificate).insert row).insert
        { refid := "app", descr := "app", csr := some (.base64 csr) } } }

/-- What the bulk route reports, and what the single operation would answer in turn. -/
def reports (r : BulkRequest) (o : Office) : List Bool × List Bool :=
  let _ := sampleLibrary
  let _ := sampleNaming
  ((r.serve o).map Prod.fst, (inTurn r.single o r.attempts).map Prod.fst)

end Sample

end BulkRequest

end CaManager
