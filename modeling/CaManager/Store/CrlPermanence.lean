import CaManager.Store.CrlCompleteness

/-!
# How long a revoked certificate stays listed

A revoked certificate stays on the lists of its authority as long as its row stays. Renewing
overwrites the row and clears the revocation, and deleting removes it: both take the serial
number off every later list. No other operation touches the row, since signing, revoking and
removing a hold each refuse it.
-/

namespace CaManager

open Library

def Keeps (certId : ℕ) (_ : Store) : RowEvent → Prop
  | .renew certId' => certId' ≠ certId
  | .delete certId' => certId' ≠ certId
  | _ => True

instance (certId : ℕ) (st : Store) : ∀ e : RowEvent, Decidable (Keeps certId st e)
  | .renew certId' => inferInstanceAs (Decidable (certId' ≠ certId))
  | .delete certId' => inferInstanceAs (Decidable (certId' ≠ certId))
  | .sign .. | .revoke .. | .unhold _ => .isTrue trivial

/-- The row is stored unchanged, its authority is known under the same reference, and every
list of that authority that is not among the old ones names the serial number. -/
structure Listing (row : Certificate) (ca : CA) (serial : ℤ) (old : Table CrlMetadata)
    (st : Store) : Prop where
  stored : st.certificates.get? row.id = some row
  authority : ∃ ca', st.cas.get? ca.id = some ca' ∧ ca'.refid = ca.refid
  lists : ∀ m ∈ st.crls, m ∉ old → m.caId = ca.id → serial ∈ m.crl.serials

section Rules

variable {row : Certificate} {ca : CA} {x : X509} {old : Table CrlMetadata} {st : Store}

theorem get?_countSerial (ca' : CA) {caId : ℕ} {refid : String}
    (h : ∃ c, st.cas.get? caId = some c ∧ c.refid = refid) :
    ∃ c, (st.countSerial ca').cas.get? caId = some c ∧ c.refid = refid := by
  obtain ⟨c, hc, rfl⟩ := h
  by_cases hid : ca'.id = caId
  · subst hid
    exact ⟨_, Table.get?_update_self hc, rfl⟩
  · exact ⟨c, (Table.get?_update_of_ne hid).trans hc, rfl⟩

theorem Listing.setCertificate {certId : ℕ} {f : Certificate → Certificate}
    (h : Listing row ca x.serial old st) (hne : certId ≠ row.id) :
    Listing row ca x.serial old (st.setCertificate certId f) :=
  ⟨(Table.get?_update_of_ne hne).trans h.stored, h.authority, h.lists⟩

theorem Listing.generateCrl {caId : ℕ} {validityDays : ℤ} {username : String} {now : Time}
    {m : CrlMetadata} {st' : Store} (h : Listing row ca x.serial old st)
    (hlink : row.caref = some ca.refid) (hrevoked : row.revoked = true)
    (hlisted : CRLService.listedSerial row = some x.serial)
    (hcrl : CRLService.generateCrl st caId validityDays username now = .ok (m, st')) :
    Listing row ca x.serial old st' := by
  obtain ⟨signer, hsigner, _, hbuild, hcaId, _, rfl⟩ := CRLService.generateCrl_eq_ok hcrl
  refine ⟨h.stored, h.authority, fun m' hm' hnew hmca => ?_⟩
  rcases Table.mem_insert.mp hm' with hm' | rfl
  · exact h.lists m' hm' hnew hmca
  · obtain ⟨ca', hca', hrefid⟩ := h.authority
    have hid : caId = ca.id := hcaId.symm.trans hmca
    have hsame : signer = ca' := Option.some.inj ((hid ▸ hsigner).symm.trans hca')
    change x.serial ∈ m.crl.serials
    rw [CRLService.mem_serials_buildCrl hbuild]
    refine ⟨row, Table.mem_of_get? h.stored, ?_, hrevoked, hlisted⟩
    rw [hlink, hsame, hrefid]

theorem listing_commitRules [X509Library] (row : Certificate) {ca : CA} {x : X509}
    {old : Table CrlMetadata} (hx : row.x509 = .ok x)
    (hlink : row.caref = some ca.refid) (hrevoked : row.revoked = true)
    (hhold : Routes.onHold row = false) (hlisted : CRLService.listedSerial row = some x.serial) :
    CommitRules (Keeps row.id) (Listing row ca x.serial old) where
  countSerial ca' h := ⟨h.stored, get?_countSerial ca' h.authority, h.lists⟩
  insert h _ hadd := by
    obtain ⟨_, rfl⟩ := CertificateService.addCertificate_eq_ok.mp hadd
    exact ⟨Table.get?_insert_of_get? h.stored, h.authority, h.lists⟩
  sign h _ hget hcrt _ _ _ _ := by
    refine h.setCertificate fun hid => ?_
    rw [hid, h.stored, Option.some.injEq] at hget
    rw [← hget] at hcrt
    simp [Certificate.x509, hcrt] at hx
  revoke now h _ hget hunrevoked := by
    refine h.setCertificate fun hid => ?_
    rw [hid, h.stored, Option.some.injEq] at hget
    rw [← hget, hrevoked] at hunrevoked
    cases hunrevoked
  unhold h _ hget _ hon := by
    refine h.setCertificate fun hid => ?_
    rw [hid, h.stored, Option.some.injEq] at hget
    rw [← hget, hhold] at hon
    cases hon
  renew keyPem h hC _ _ := h.setCertificate hC
  delete h hC := ⟨(Table.get?_delete_of_ne hC).trans h.stored, h.authority, h.lists⟩
  list h hcrl := h.generateCrl hlink hrevoked hlisted hcrl

def LinkedInRange (st : Store) : Prop :=
  ∀ c ∈ st.certificates, c.caref ≠ none →
    ∃ x, c.x509 = .ok x ∧ 0 < x.serial ∧ x.serial < 2 ^ maxSerialBits

theorem linkedInRange_setCertificate {certId : ℕ} {f : Certificate → Certificate}
    (h : LinkedInRange st)
    (hf : ∀ c, st.certificates.get? certId = some c → (f c).caref ≠ none →
      ∃ x, (f c).x509 = .ok x ∧ 0 < x.serial ∧ x.serial < 2 ^ maxSerialBits) :
    LinkedInRange (st.setCertificate certId f) := by
  intro c hc
  rcases Table.mem_update.mp hc with ⟨hc, _⟩ | ⟨c₀, hget, rfl⟩
  · exact h c hc
  · exact hf c₀ hget

theorem linkedInRange_commitRules [X509Library] :
    CommitRules (fun _ _ => True) LinkedInRange where
  countSerial _ h := h
  insert h hrow hadd := by
    obtain ⟨_, rfl⟩ := CertificateService.addCertificate_eq_ok.mp hadd
    intro c hc
    rcases Table.mem_insert.mp hc with hc | rfl
    · exact h c hc
    · exact hrow.linked
  sign h _ _ _ _ _ _ hissues :=
    linkedInRange_setCertificate h fun _ _ _ => ⟨_, rfl, hissues.serial_pos, hissues.serial_lt⟩
  revoke _ h _ _ _ := linkedInRange_setCertificate h fun c hc => h c (Table.mem_of_get? hc)
  unhold h _ _ _ _ := linkedInRange_setCertificate h fun c hc => h c (Table.mem_of_get? hc)
  renew _ h _ _ hissues :=
    linkedInRange_setCertificate h fun _ _ _ => ⟨_, rfl, hissues.serial_pos, hissues.serial_lt⟩
  delete h _ := fun c hc => h c (Table.mem_delete.mp hc).1
  list h hcrl := by
    obtain ⟨_, _, _, _, _, _, rfl⟩ := CRLService.generateCrl_eq_ok hcrl
    exact h

end Rules

/-- Once a linked row with a hexadecimal serial text is revoked for another reason than a
hold, every list made for its authority names its serial number, from the list made on
revocation to the end of any run that neither renews nor deletes the row. -/
theorem revoked_serial_stays_listed [X509Library] {st₀ st₁ : Store} {before after : List Op}
    {ca : CA} {row : Certificate} {x : X509} {certId : ℕ} {reason username : String} {now : Time}
    (hempty : st₀.certificates = ∅) (hca : (run Store.apply st₀ before).cas.get? ca.id = some ca)
    (hrow : (run Store.apply st₀ before).certificates.get? certId = some row)
    (hx : row.x509 = .ok x) (hlink : row.caref = some ca.refid)
    (htext : row.serialNumber = some (hexText x.serial)) (hreason : reason ∉ Routes.holdReasons)
    (hrevoke : CertificateService.revokeCertificate (run Store.apply st₀ before) certId reason
      username now = .ok st₁)
    (hafter : Meets Store.apply (Admits (Keeps certId)) st₁ after) {m : CrlMetadata}
    (hm : m ∈ (run Store.apply st₁ after).crls)
    (hnew : m ∉ (run Store.apply st₀ before).crls) (hmca : m.caId = ca.id) :
    x.serial ∈ m.crl.serials := by
  have hstart : LinkedInRange st₀ := fun c hc =>
    absurd hc (by rw [hempty]; exact Table.not_mem_empty c)
  obtain ⟨x', hx', hpos, hlt⟩ :=
    linkedInRange_commitRules.run_true hstart row (Table.mem_of_get? hrow) (by simp [hlink])
  rw [hx, Except.ok.injEq] at hx'
  subst hx'
  have hid : row.id = certId := Table.key_of_get? hrow
  subst hid
  have hlisted : CRLService.listedSerial (CertificateService.revokedRow reason now row) =
      some x.serial := CRLService.listedSerial_hexText hpos hlt htext
  have hhold : Routes.onHold (CertificateService.revokedRow reason now row) = false := by
    simpa [Routes.onHold, CertificateService.revokedRow] using hreason
  have hrules : CommitRules (Keeps row.id) (Listing (CertificateService.revokedRow reason now row)
      ca x.serial (run Store.apply st₀ before).crls) :=
    listing_commitRules (CertificateService.revokedRow reason now row) hx hlink rfl hhold hlisted
  have hset : Listing (CertificateService.revokedRow reason now row) ca x.serial
      (run Store.apply st₀ before).crls ((run Store.apply st₀ before).setCertificate row.id
        (CertificateService.revokedRow reason now)) :=
    ⟨Table.get?_update_self hrow, ⟨ca, hca, rfl⟩, fun _ hm hnew => absurd hm hnew⟩
  obtain ⟨_, _, _, hst₁⟩ := CertificateService.revokeCertificate_eq_ok hrevoke
  have hfirst : Listing (CertificateService.revokedRow reason now row) ca x.serial
      (run Store.apply st₀ before).crls st₁ := by
    rcases hst₁ with rfl | ⟨_, _, _, hcrl⟩
    · exact hset
    · exact hrules.list hset hcrl
  exact (hrules.run hfirst hafter).lists m hm hnew hmca

def compromised [X509Library] : Store := run Store.apply sampleStore revokedThroughRoute

theorem revoked_serial_stays_listed_route :
    let _ := sampleLibrary
    ∀ m ∈ (run Store.apply compromised [.unhold 1, .generateCrl 1 7 "system" 300]).crls,
      m ∉ (run Store.apply sampleStore [createdThroughRoute]).crls → m.caId = sampleCa.id →
        (255 : ℤ) ∈ m.crl.serials := by
  intro _ m hm hnew hmca
  have hafter : Meets Store.apply (Admits (Keeps 1)) compromised
      [.unhold 1, .generateCrl 1 7 "system" 300] := by decide
  have hrevoke : CertificateService.revokeCertificate
      (run Store.apply sampleStore [createdThroughRoute]) 1 "keyCompromise" "admin" 200 =
        .ok compromised := rfl
  exact revoked_serial_stays_listed rfl rfl rfl rfl rfl rfl (by decide) hrevoke hafter hm hnew
    hmca

/-- Renewing a certificate revoked for key compromise takes its serial number off the next
list, long before the certificate expires. -/
theorem renewed_serial_unlisted :
    let _ := sampleLibrary
    (∃ c ∈ compromised.certificates.rows, c.revoked = true ∧
      c.revokeReason = some "keyCompromise" ∧ HoldsIssued sampleCa 255 c ∧
      c.validTo = some (100 + days 365)) ∧
    ∃ m st', CRLService.generateCrl (run Store.apply compromised
        [.renew 1 (sampleDraw 256 "new" 300)]) 1 7 "system" 400 = .ok (m, st') ∧
      (255 : ℤ) ∉ m.crl.serials := by
  let _ := sampleLibrary
  exact ⟨by decide, _, _, rfl, by decide⟩

end CaManager
