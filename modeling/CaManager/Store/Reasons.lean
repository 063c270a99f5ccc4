import CaManager.Ocsp.Responder

/-!
# Revocation reasons on lists and in status responses

A revocation stores its reason as the text it was given. Lists and status responses translate
the text by two maps that were written apart. They agree on the names of RFC 5280 in camel
case, except for the compromise of an authority, and every text that a map does not know
becomes `unspecified` there.
-/

namespace CaManager

open Library

namespace RevocationReasons

def respondedReason (now : Time) (c : Certificate) : Option ReasonFlag :=
  (OCSPService.statusOf (some c) now).2.2.2

def sharedReasons : List String :=
  ["unspecified", "keyCompromise", "affiliationChanged", "superseded", "cessationOfOperation",
   "certificateHold", "privilegeWithdrawn", "aACompromise"]

/-- Lists and status responses give one reason for the row, and a stated reason is not lost. -/
structure Agree (c : Certificate) (reason : String) : Prop where
  same : ∀ now, CRLService.listedReason c = respondedReason now c
  listed : reason ≠ "unspecified" → CRLService.listedReason c ≠ some .unspecified
  responded : ∀ now, reason ≠ "unspecified" → respondedReason now c ≠ some .unspecified

section Maps

variable {c : Certificate} {reason : String}

theorem listedReason_eq (hreason : c.revokeReason = some reason) (hne : reason ≠ "") :
    CRLService.listedReason c = some ((CRLService.reasonMap.lookup reason).getD .unspecified) := by
  unfold CRLService.listedReason
  rw [hreason]
  split
  next h => cases h
  next h => exact absurd (Option.some.inj h) hne
  next h => rw [Option.some.inj h]

theorem respondedReason_eq (hrevoked : c.revoked = true) (hreason : c.revokeReason = some reason)
    (now : Time) :
    respondedReason now c = some ((OCSPService.reasonMap.lookup reason).getD .unspecified) := by
  simp [respondedReason, OCSPService.statusOf, hrevoked, hreason]

theorem lookup_eq_none {l : List (String × ReasonFlag)} (h : reason ∉ l.map Prod.fst) :
    l.lookup reason = none := by
  rw [List.lookup_eq_none_iff]
  intro p hp
  rw [bne_iff_ne]
  exact fun heq => h (List.mem_map.mpr ⟨p, hp, heq.symm⟩)

theorem lookup_of_mem_shared (h : reason ∈ sharedReasons) :
    reason ≠ "" ∧ CRLService.reasonMap.lookup reason = OCSPService.reasonMap.lookup reason ∧
      (reason ≠ "unspecified" →
        (CRLService.reasonMap.lookup reason).getD .unspecified ≠ .unspecified) := by
  have hall : ∀ r ∈ sharedReasons, r ≠ "" ∧
      CRLService.reasonMap.lookup r = OCSPService.reasonMap.lookup r ∧
      (r ≠ "unspecified" → (CRLService.reasonMap.lookup r).getD .unspecified ≠ .unspecified) := by
    decide +kernel
  exact hall reason h

theorem lookup_of_not_mem_shared (hkey : reason ∈ CRLService.reasonMap.map Prod.fst)
    (h : reason ∉ sharedReasons) :
    (CRLService.reasonMap.lookup reason).getD .unspecified ≠
      (OCSPService.reasonMap.lookup reason).getD .unspecified := by
  have hall : ∀ r ∈ CRLService.reasonMap.map Prod.fst, r ∉ sharedReasons →
      (CRLService.reasonMap.lookup r).getD .unspecified ≠
        (OCSPService.reasonMap.lookup r).getD .unspecified := by
    decide +kernel
  exact hall reason hkey h

end Maps

section Sample

def revokedSample (reason : String) : Certificate :=
  CertificateService.revokedRow reason 200 { id := 1, refid := "www", descr := "www" }

end Sample

end RevocationReasons

end CaManager

/-!
# Removing a hold

The whole handler: the commit that may fail, and what follows it. It reads two attributes that rows
do not have, under handlers of their own; but before that it calls a method that the audit service
does not have, so it answers with an error although the hold is gone.
-/

namespace CaManager

open Library

namespace Routes

def relistUnheld (st : Store) (row : Certificate) (username : String) (now : Time) : Store :=
  match row.getAttribute "ca_id" with
  | .ok (some caId) =>
    match CRLService.generateCrl st (caId.toNat?.getD 0) CRLService.defaultValidityDays username
      now with
    | .ok (_, st') => st'
    | .error _ => st
  | _ => st

/-- The cached responses of the certificate are deleted, or the failure is ignored. -/
def purgeUnheld (st : Store) (row : Certificate) : Store :=
  match row.getAttribute "serial" with
  | .ok serial =>
    { st with ocspResponses := st.ocspResponses.deleteWhere fun r => some r.certSerial = serial }
  | .error _ => st

def unhold (commits : Bool) (st : Store) (certId : ℕ) (username : String) (now : Time) :
    Response × Store :=
  match st.certificates.get? certId with
  | none => (⟨404, "Certificate not found"⟩, st)
  | some row =>
    if row.revoked = false then (⟨400, "Certificate is not revoked"⟩, st)
    else if onHold row = false then
      (⟨400, "Only certificates with reason \"certificateHold\" can be unheld"⟩, st)
    else if commits = false then (⟨500, "Failed to remove certificate hold"⟩, st)
    else
      let st := st.setCertificate certId clearedRow
      match auditMethod "log" with
      | .error _ => (⟨500, "Failed to remove certificate hold"⟩, st)
      | .ok _ =>
        (⟨200, "Certificate hold removed successfully"⟩,
          purgeUnheld (relistUnheld st row username now) row)

def Held (st : Store) (certId : ℕ) : Prop :=
  ∃ row, st.certificates.get? certId = some row ∧ row.revoked = true ∧ onHold row = true

/-- The certificate is not revoked, it is not on the next list of any authority, and no answer
about its serial number calls it revoked. -/
structure Restored [X509Library] (hsm : ℕ → Option PublicKey) (st : Store) (certId : ℕ) : Prop where
  unrevoked : ∃ row, st.certificates.get? certId = some row ∧ row.revoked = false
  unlisted : ∀ ca ∈ st.cas, ∀ row ∈ CRLService.revokedRows st ca, row.id ≠ certId
  unanswered : ∀ row x request later, st.certificates.get? certId = some row → row.x509 = .ok x →
    request.serial = x.serial → ∀ revocationTime thisUpdate nextUpdate issuer reason nonce key,
      (OcspRoutes.processOcspRequest hsm st (some request) later).1.der ≠
        .successful .revoked x.serial issuer thisUpdate nextUpdate revocationTime reason nonce key

/-- What the handler should do: a hold is removed and success reported, or an error is reported and
nothing stored; and nothing happens to a certificate that is revoked for another reason. -/
structure UnholdsRightly [X509Library] (hsm : ℕ → Option PublicKey) (commits : Bool) (st : Store)
    (certId : ℕ) (username : String) (now : Time) : Prop where
  held : Held st certId →
    ((unhold commits st certId username now).1.status = 200 ∧
      Restored hsm (unhold commits st certId username now).2 certId) ∨
    ((unhold commits st certId username now).1.status ≠ 200 ∧
      (unhold commits st certId username now).2.certificates = st.certificates)
  other : ∀ row, st.certificates.get? certId = some row → row.revoked = true →
    onHold row = false → (unhold commits st certId username now).2 = st

section Unholding

variable {st : Store} {certId : ℕ} {username : String} {now : Time}

theorem unhold_eq (st : Store) (certId : ℕ) (username : String) (now : Time) :
    unhold true st certId username now = unholdCertificate st certId := by
  unfold unhold unholdCertificate
  cases st.certificates.get? certId with
  | none => rfl
  | some row =>
    dsimp only
    by_cases hrevoked : row.revoked = false
    · rw [if_pos hrevoked, if_pos hrevoked]
    · rw [if_neg hrevoked, if_neg hrevoked]
      by_cases hhold : onHold row = false
      · rw [if_pos hhold, if_pos hhold]
      · rw [if_neg hhold, if_neg hhold, if_neg (by decide)]
        rfl

theorem unhold_uncommitted (st : Store) (certId : ℕ) (username : String) (now : Time) :
    (unhold false st certId username now).1.status ≠ 200 ∧
      (unhold false st certId username now).2 = st := by
  unfold unhold
  cases st.certificates.get? certId with
  | none => exact ⟨(by decide : 404 ≠ 200), rfl⟩
  | some row =>
    dsimp only
    by_cases hrevoked : row.revoked = false
    · rw [if_pos hrevoked]
      exact ⟨(by decide : 400 ≠ 200), rfl⟩
    · rw [if_neg hrevoked]
      by_cases hhold : onHold row = false
      · rw [if_pos hhold]
        exact ⟨(by decide : 400 ≠ 200), rfl⟩
      · rw [if_neg hhold, if_pos rfl]
        exact ⟨(by decide : 500 ≠ 200), rfl⟩

theorem unhold_of_not_held (h : ¬Held st certId) (commits : Bool) :
    (unhold commits st certId username now).2 = st := by
  cases commits with
  | false => exact (unhold_uncommitted st certId username now).2
  | true =>
    rw [unhold_eq]
    rcases unholdCertificate_cases st certId with heq | ⟨row, hrow, hrevoked, hhold, _⟩
    · exact heq
    · exact absurd ⟨row, hrow, hrevoked, hhold⟩ h

theorem unhold_of_held (h : Held st certId) : unhold true st certId username now =
    (⟨500, "Failed to remove certificate hold"⟩, st.setCertificate certId clearedRow) := by
  obtain ⟨row, hrow, hrevoked, hhold⟩ := h
  rw [unhold_eq]
  unfold unholdCertificate
  rw [hrow]
  dsimp only
  rw [if_neg (by simp [hrevoked]), if_neg (by simp [hhold])]
  rfl

/-- The handler does what it should exactly if the certificate is not held, or the commit fails. -/
theorem unholdsRightly_iff [X509Library] (hsm : ℕ → Option PublicKey) (commits : Bool) (st : Store)
    (certId : ℕ) (username : String) (now : Time) :
    UnholdsRightly hsm commits st certId username now ↔ ¬(Held st certId ∧ commits = true) := by
  constructor
  · rintro h ⟨hheld, rfl⟩
    obtain ⟨row, hrow, hrevoked, hhold⟩ := hheld
    have heq : unhold true st certId username now = _ :=
      unhold_of_held ⟨row, hrow, hrevoked, hhold⟩
    rcases h.held ⟨row, hrow, hrevoked, hhold⟩ with ⟨hstatus, _⟩ | ⟨_, hsame⟩
    · rw [heq] at hstatus
      exact absurd hstatus (by decide : 500 ≠ 200)
    · -- the hold is gone from the stored row
      have hcleared : (st.setCertificate certId clearedRow).certificates.get? certId =
          some (Keyed.withKey certId (clearedRow row)) := Table.get?_update_self hrow
      rw [heq] at hsame
      rw [hsame, hrow] at hcleared
      rw [Option.some.inj hcleared] at hrevoked
      cases hrevoked
  · intro h
    refine ⟨fun hheld => ?_, fun row hrow hrevoked hother => ?_⟩
    · have hfails : commits = false := by
        rw [← Bool.not_eq_true]
        exact fun hcommits => h ⟨hheld, hcommits⟩
      subst hfails
      obtain ⟨hstatus, hsame⟩ := unhold_uncommitted st certId username now
      exact .inr ⟨hstatus, congrArg Store.certificates hsame⟩
    · apply unhold_of_not_held
      rintro ⟨row', hrow', _, hhold⟩
      rw [hrow] at hrow'
      cases hrow'
      rw [hother] at hhold
      cases hhold

def heldStore [X509Library] : Store :=
  run Store.apply sampleStore
    [.apiCreate { caId := 1, descr := "www", subject := sampleName "www", names := [] }
      (sampleDraw 255 "www" 100), .apiRevoke 1 "certificateHold" "admin" 200]

/-- Its hold is removed, and an error reported. -/
theorem hold_removed_under_error :
    let _ := sampleLibrary
    (unhold true heldStore 1 "admin" 300).1 = ⟨500, "Failed to remove certificate hold"⟩ ∧
      ((unhold true heldStore 1 "admin" 300).2.certificates.get? 1).map Certificate.revoked =
        some false ∧
      ¬UnholdsRightly (fun _ => none) true heldStore 1 "admin" 300 := by
  intro _
  refine ⟨by decide, by decide, fun h => (unholdsRightly_iff _ _ _ _ _ _).mp h ⟨?_, rfl⟩⟩
  exact ⟨_, rfl, by decide, by decide⟩

end Unholding

end Routes

end CaManager
