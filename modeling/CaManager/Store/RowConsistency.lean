import CaManager.Store.IssuerGraph
import CaManager.Store.Requests

/-!
# Rows that describe their certificates

A row of the store keeps what its certificate says in columns of its own, beside the key, the link
to the authority that signed it and the revoked flag. The columns are consistent if all of them
are about the certificate that the row holds now. What one insertion or one change of a row needs
for that is stated here once.
-/

namespace CaManager

open Library

def CA.held (ca : CA) : X509 := ca.crt.content.leaf

def Certificate.held (c : Certificate) : Option X509 := c.crt.map fun crt => crt.content.leaf

theorem CA.held_of_certificate {ca : CA} {x : X509} (h : ca.certificate = .ok x) : ca.held = x := by
  unfold CA.certificate at h
  split at h
  next pem hpem =>
    rw [CA.held, Encoded.content_of_decoded hpem]
    exact Except.ok.inj h
  next => cases h

theorem Certificate.held_of_x509 {c : Certificate} {x : X509} (h : c.x509 = .ok x) :
    c.held = some x := by
  unfold Certificate.x509 at h
  split at h
  next pem hpem =>
    obtain ⟨crt, hcrt, hdecoded⟩ := Option.bind_eq_some_iff.mp hpem
    rw [Certificate.held, hcrt, Option.map_some, Encoded.content_of_decoded hdecoded]
    exact congrArg some (Except.ok.inj h)
  next => cases h

theorem Certificate.held_eq_none {c : Certificate} : c.held = none ↔ c.crt = none :=
  Option.map_eq_none_iff

theorem CA.prv_of_privateKey {ca : CA} {key : PublicKey} (h : ca.privateKey = .ok key) :
    ∃ e ∈ ca.prv, e.content.publicKey = key := by
  unfold CA.privateKey at h
  split at h
  next pem hpem =>
    obtain ⟨e, he, hdecoded⟩ := Option.bind_eq_some_iff.mp hpem
    refine ⟨e, he, ?_⟩
    rw [Encoded.content_of_decoded hdecoded]
    exact Except.ok.inj h
  next => cases h

theorem CA.prv_of_decryptedPrivateKey {ca : CA} {k : Option ℕ} {key : PublicKey}
    (h : ca.decryptedPrivateKey k = .ok key) : ∃ e ∈ ca.prv, e.content.publicKey = key := by
  unfold CA.decryptedPrivateKey at h
  split at h
  next e' he' =>
    split at h
    next pem hpem =>
      obtain ⟨e, he, hdecrypt⟩ := Option.bind_eq_some_iff.mp he'
      refine ⟨e, he, ?_⟩
      rw [← Encoded.content_of_decrypt hdecrypt, Encoded.content_of_decoded hpem]
      exact Except.ok.inj h
    next => cases h
  next => cases h

namespace RowConsistency

/-- The columns of a row that are about its certificate. -/
structure Columns where
  subject : Option String
  issuer : Option String
  serialNumber : Option String
  validFrom : Option Time
  validTo : Option Time
  caref : Option String
  prv : Option (Encoded KeyPem)

def ofCa (ca : CA) : Columns :=
  ⟨ca.subject, ca.issuer, ca.serialNumber, ca.validFrom, ca.validTo, ca.caref, ca.prv⟩

def ofCertificate (c : Certificate) : Columns :=
  ⟨c.subject, c.issuer, c.serialNumber, c.validFrom, c.validTo, c.caref, c.prv⟩

def linked (caref : Option String) : Option String := caref.filter (· ≠ "")

theorem linked_eq_some {caref : Option String} {r : String} :
    linked caref = some r ↔ caref = some r ∧ r ≠ "" := by
  rw [linked, Option.filter_eq_some_iff, decide_eq_true_eq]

/-- An authority with this reference has the key that signed the certificate. -/
def SignedBy (cas : Table CA) (r : String) (x : X509) : Prop :=
  ∃ ca ∈ cas, ca.refid = r ∧ x.signedBy = ca.held.publicKey

instance (cas : Table CA) (r : String) (x : X509) : Decidable (SignedBy cas r x) :=
  inferInstanceAs (Decidable (∃ ca ∈ cas.rows, _))

def Fits (key : Option KeyPem) (x : X509) : Prop := ∀ k ∈ key, k.publicKey = x.publicKey

/-- A column without a serial number counts as describing one where `unset` says so. -/
def DescribesSerial (unset : Prop) (column : Option String) (serial : ℤ) : Prop :=
  column = some (decimalText serial) ∨ column = some (hexText serial) ∨ column = none ∧ unset

section Descriptions

variable [X509Library]

/-- The column is the text of the name; an empty name or text may be left out. -/
def DescribesName (column : Option String) (n : Name) : Prop :=
  column = some (X509Library.rfc4514String n) ∨
    column = none ∧ (n = [] ∨ X509Library.rfc4514String n = "")

/-- The columns are about this certificate: what they say is what it says, the link names the
authority whose key signed it, and the key is its own. -/
structure Columns.Describe (unset : Prop) (cas : Table CA) (cols : Columns) (x : X509) : Prop where
  subject : DescribesName cols.subject x.subject
  issuer : DescribesName cols.issuer x.issuer
  serialNumber : DescribesSerial unset cols.serialNumber x.serial
  validFrom : cols.validFrom = some x.notBefore
  validTo : cols.validTo = some x.notAfter
  caref : ∀ r ∈ linked cols.caref, SignedBy cas r x
  prv : ∀ e ∈ cols.prv, e.content.publicKey = x.publicKey

/-- The columns of a certificate's row, and its revoked flag, which was set for `revokedFor`. The
key of a row without a certificate is that of its request. -/
structure RowConsistent (unset : Prop) (cas : Table CA) (revokedFor : Option X509)
    (c : Certificate) : Prop where
  signed : ∀ x ∈ c.held, (ofCertificate c).Describe unset cas x
  unsigned : c.held = none → ∀ csr ∈ c.csr, ∀ e ∈ c.prv,
    e.content.publicKey = csr.content.publicKey
  revoked : c.revoked = true → revokedFor = c.held

/-- Every row is consistent, given what each revoked row was revoked for. -/
structure Consistent (unset : Prop) (st : Store) (revokedFor : ℕ → Option X509) : Prop where
  cas : ∀ ca ∈ st.cas, (ofCa ca).Describe unset st.cas ca.held
  certificates : ∀ c ∈ st.certificates, RowConsistent unset st.cas (revokedFor c.id) c

end Descriptions

section Links

theorem SignedBy.insert {cas : Table CA} {r : String} {x : X509} (h : SignedBy cas r x)
    (row : CA) : SignedBy (cas.insert row) r x := by
  obtain ⟨ca, hca, hrefid, hkey⟩ := h
  exact ⟨ca, Table.mem_insert.mpr (.inl hca), hrefid, hkey⟩

theorem signedBy_update {cas : Table CA} {id : ℕ} {f : CA → CA}
    (hf : ∀ c, (f c).refid = c.refid ∧ (f c).crt = c.crt) {r : String} {x : X509} :
    SignedBy (cas.update id f) r x ↔ SignedBy cas r x := by
  constructor
  · rintro ⟨ca, hca, hrefid, hkey⟩
    rcases Table.mem_update.mp hca with ⟨hca, _⟩ | ⟨ca₀, hget, rfl⟩
    · exact ⟨ca, hca, hrefid, hkey⟩
    · refine ⟨ca₀, Table.mem_of_get? hget, (hf ca₀).1.symm.trans hrefid, ?_⟩
      rw [hkey, CA.held, CA.held, ← (hf ca₀).2]
      rfl
  · rintro ⟨ca, hca, hrefid, hkey⟩
    by_cases hid : ca.id = id
    · have hget : cas.get? id = some ca := Table.get?_eq_some_iff.mpr ⟨hca, hid⟩
      refine ⟨_, Table.mem_update.mpr (.inr ⟨ca, hget, rfl⟩), (hf ca).1.trans hrefid, ?_⟩
      rw [hkey, CA.held, CA.held, ← (hf ca).2]
      rfl
    · exact ⟨ca, Table.mem_update.mpr (.inl ⟨hca, hid⟩), hrefid, hkey⟩

theorem signedBy_countSerial {st : Store} (ca : CA) {r : String} {x : X509} :
    SignedBy (st.countSerial ca).cas r x ↔ SignedBy st.cas r x :=
  signedBy_update (f := fun c => { c with serial := some (c.serial.getD 0 + 1) })
    fun _ => ⟨rfl, rfl⟩

theorem signedBy_replace {cas : Table CA} {id : ℕ} {row : CA} {f : CA → CA}
    (hdistinct : (cas.rows.map CA.refid).Nodup) (hrow : cas.get? id = some row)
    (hrefid : (f row).refid = row.refid) {r : String} {x : X509} :
    SignedBy (cas.update id f) r x ↔
      r = row.refid ∧ x.signedBy = (f row).held.publicKey ∨ r ≠ row.refid ∧ SignedBy cas r x := by
  have hmem := Table.mem_of_get? hrow
  have hkey : row.id = id := Table.key_of_get? hrow
  constructor
  · rintro ⟨ca, hca, rfl, hsigned⟩
    rcases Table.mem_update.mp hca with ⟨hca, hid⟩ | ⟨ca₀, hget, rfl⟩
    · refine .inr ⟨fun hsame => hid ?_, ca, hca, rfl, hsigned⟩
      rw [List.inj_on_of_nodup_map hdistinct hca hmem hsame]
      exact hkey
    · cases hrow.symm.trans hget
      exact .inl ⟨hrefid, hsigned⟩
  · rintro (⟨rfl, hsigned⟩ | ⟨hne, ca, hca, rfl, hsigned⟩)
    · exact ⟨_, Table.mem_update.mpr (.inr ⟨row, hrow, rfl⟩), hrefid, hsigned⟩
    · refine ⟨ca, Table.mem_update.mpr (.inl ⟨hca, fun hid => hne ?_⟩), rfl, hsigned⟩
      have hget : cas.get? id = some ca := Table.get?_eq_some_iff.mpr ⟨hca, hid⟩
      rw [Option.some.inj (hget.symm.trans hrow)]

end Links

section Commits

variable [X509Library] {unset : Prop} {st st' : Store} {revokedFor : ℕ → Option X509}

theorem describesName_text (n : Name) : DescribesName (some (X509Library.rfc4514String n)) n :=
  .inl rfl

theorem describesName_subjectText (x : X509) :
    DescribesName (CertificateService.nonEmpty (some (CertificateService.subjectText x)))
      x.subject := by
  unfold CertificateService.subjectText CertificateService.nonEmpty
  cases hsubject : x.subject with
  | nil => exact .inr ⟨rfl, .inl rfl⟩
  | cons a n =>
    by_cases htext : X509Library.rfc4514String (a :: n) = ""
    · exact .inr ⟨by simp [htext], .inr htext⟩
    · exact .inl (by simp [htext])

theorem Columns.Describe.congr {cas cas' : Table CA} {cols : Columns} {x : X509}
    (h : cols.Describe unset cas x)
    (hlink : ∀ r ∈ linked cols.caref, SignedBy cas r x → SignedBy cas' r x) :
    cols.Describe unset cas' x :=
  { h with caref := fun r hr => hlink r hr (h.caref r hr) }

theorem RowConsistent.congr {cas cas' : Table CA} {x : Option X509} {c : Certificate}
    (h : RowConsistent unset cas x c)
    (hlink : ∀ y ∈ c.held, ∀ r ∈ linked c.caref, SignedBy cas r y → SignedBy cas' r y) :
    RowConsistent unset cas' x c :=
  { h with signed := fun y hy => (h.signed y hy).congr (hlink y hy) }

theorem consistent_countSerial (ca : CA) :
    Consistent unset (st.countSerial ca) revokedFor ↔ Consistent unset st revokedFor := by
  have hlink : ∀ r x, SignedBy (st.countSerial ca).cas r x ↔ SignedBy st.cas r x :=
    fun _ _ => signedBy_countSerial ca
  have hcas := forall_mem_countSerial (P := fun c => (ofCa c).Describe unset st.cas c.held)
    (fun _ _ => Iff.rfl) st ca
  constructor
  · intro h
    refine ⟨hcas.mp fun c hc => ?_, fun c hc => ?_⟩
    · exact (h.cas c hc).congr fun r _ => (hlink r _).mp
    · exact (h.certificates c hc).congr fun x _ r _ => (hlink r x).mp
  · intro h
    refine ⟨fun c hc => ?_, fun c hc => ?_⟩
    · exact (hcas.mpr h.cas c hc).congr fun r _ => (hlink r _).mpr
    · exact (h.certificates c hc).congr fun x _ r _ => (hlink r x).mpr

theorem consistent_addCertificate {row : Certificate} (h : Consistent unset st revokedFor)
    (hrevoked : row.revoked = false) (hadd : st.addCertificate row = .ok st') :
    Consistent unset st' revokedFor ↔ RowConsistent unset st.cas none row := by
  obtain ⟨_, rfl⟩ := CertificateService.addCertificate_eq_ok.mp hadd
  have hnew : ∀ x, RowConsistent unset st.cas x { row with id := st.certificates.nextKey } ↔
      RowConsistent unset st.cas none row := by
    have hnot : ¬row.revoked = true := by simp [hrevoked]
    intro x
    exact ⟨fun h => ⟨h.signed, h.unsigned, fun hr => absurd hr hnot⟩,
      fun h => ⟨h.signed, h.unsigned, fun hr => absurd hr hnot⟩⟩
  constructor
  · intro h'
    exact (hnew _).mp (h'.certificates _ (Table.mem_insert.mpr (.inr rfl)))
  · intro hrow
    refine ⟨h.cas, fun c hc => ?_⟩
    rcases Table.mem_insert.mp hc with hc | rfl
    · exact h.certificates c hc
    · exact (hnew _).mpr hrow

theorem consistent_setCertificate {certId : ℕ} {row : Certificate} {f : Certificate → Certificate}
    {revokedFor' : ℕ → Option X509} (h : Consistent unset st revokedFor)
    (hother : ∀ id, id ≠ certId → revokedFor' id = revokedFor id)
    (hrow : st.certificates.get? certId = some row) :
    Consistent unset (st.setCertificate certId f) revokedFor' ↔
      RowConsistent unset st.cas (revokedFor' certId) (f row) := by
  have hnew : ∀ x, RowConsistent unset st.cas x { f row with id := certId } ↔
      RowConsistent unset st.cas x (f row) :=
    fun x => ⟨fun h => ⟨h.signed, h.unsigned, h.revoked⟩, fun h => ⟨h.signed, h.unsigned, h.revoked⟩⟩
  constructor
  · intro h'
    exact (hnew _).mp (h'.certificates _ (Table.mem_update.mpr (.inr ⟨row, hrow, rfl⟩)))
  · intro hchanged
    refine ⟨h.cas, fun c hc => ?_⟩
    rcases Table.mem_update.mp hc with ⟨hc, hid⟩ | ⟨c₀, hget, rfl⟩
    · rw [hother c.id hid]
      exact h.certificates c hc
    · cases hrow.symm.trans hget
      exact (hnew _).mpr hchanged

theorem consistent_addCa {row : CA} (h : Consistent unset st revokedFor)
    (hadd : st.addCa row = .ok st') :
    Consistent unset st' revokedFor ↔ (ofCa row).Describe unset st'.cas row.held := by
  obtain ⟨_, rfl⟩ := Store.addCa_eq_ok hadd
  constructor
  · intro h'
    exact h'.cas (Keyed.withKey st.cas.nextKey row) (Table.mem_insert.mpr (.inr rfl))
  · intro hrow
    refine ⟨fun c hc => ?_, fun c hc => ?_⟩
    · rcases Table.mem_insert.mp hc with hc | rfl
      · exact (h.cas c hc).congr fun r _ hsigned => hsigned.insert row
      · exact hrow
    · exact (h.certificates c hc).congr fun x _ r _ hsigned => hsigned.insert row

/-- Replacing the certificate of an authority keeps the store consistent exactly if its own row is,
and the new key signed what is linked to it. -/
theorem consistent_setCa {id : ℕ} {row : CA} {f : CA → CA} (h : Consistent unset st revokedFor)
    (hdistinct : st.DistinctRefids) (hrow : st.cas.get? id = some row)
    (hrefid : (f row).refid = row.refid) :
    Consistent unset (st.setCa id f) revokedFor ↔
      (ofCa (f row)).Describe unset (st.cas.update id f) (f row).held ∧
      (∀ c ∈ st.cas, c.id ≠ id → ∀ r ∈ linked c.caref, r = row.refid →
        c.held.signedBy = (f row).held.publicKey) ∧
      ∀ c ∈ st.certificates, ∀ x ∈ c.held, ∀ r ∈ linked c.caref, r = row.refid →
        x.signedBy = (f row).held.publicKey := by
  have hlink : ∀ r x, SignedBy (st.cas.update id f) r x ↔ _ := fun r x =>
    signedBy_replace hdistinct hrow hrefid
  -- the key that signed what is linked to the row
  have hsame : ∀ r x, SignedBy (st.cas.update id f) r x → r = row.refid →
      x.signedBy = (f row).held.publicKey := by
    intro r x hsigned hr
    rcases (hlink r x).mp hsigned with ⟨_, hkey⟩ | ⟨hne, _⟩
    · exact hkey
    · exact absurd hr hne
  have hkept : ∀ r x, SignedBy st.cas r x → (r = row.refid → x.signedBy = (f row).held.publicKey) →
      SignedBy (st.cas.update id f) r x := by
    intro r x hsigned hkey
    by_cases hr : r = row.refid
    · exact (hlink r x).mpr (.inl ⟨hr, hkey hr⟩)
    · exact (hlink r x).mpr (.inr ⟨hr, hsigned⟩)
  constructor
  · intro h'
    refine ⟨h'.cas (Keyed.withKey id (f row)) (Table.mem_update.mpr (.inr ⟨row, hrow, rfl⟩)), ?_, ?_⟩
    · intro c hc hid r hr
      have hc' := h'.cas c (Table.mem_update.mpr (.inl ⟨hc, hid⟩))
      exact hsame r _ (hc'.caref r hr)
    · intro c hc x hx r hr
      exact hsame r x (((h'.certificates c hc).signed x hx).caref r hr)
  · rintro ⟨hself, hcas, hcertificates⟩
    refine ⟨fun c hc => ?_, fun c hc => ?_⟩
    · rcases Table.mem_update.mp hc with ⟨hc, hid⟩ | ⟨c₀, hget, rfl⟩
      · exact (h.cas c hc).congr fun r hr hsigned => hkept r _ hsigned (hcas c hc hid r hr)
      · cases hrow.symm.trans hget
        exact hself
    · exact (h.certificates c hc).congr fun x hx r hr hsigned =>
        hkept r x hsigned (hcertificates c hc x hx r hr)

end Commits

end RowConsistency

end CaManager
