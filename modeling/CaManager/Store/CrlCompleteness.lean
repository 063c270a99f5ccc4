import CaManager.Store.Operations

/-!
# What a full list lists

The list of an authority should name the serial numbers of the revoked certificates the
authority issued. It is built from rows linked to the authority and from their serial texts,
so a run keeps it exact when every row it revokes is linked to its issuer and carries its
serial number in the base the list reads. Rows that the service layer writes carry it in
decimal, and imported rows carry no link.
-/

namespace CaManager

open Library

/-- The row is linked to the authority exactly if the authority issued its certificate, and
then its serial text is the one the list reads. -/
def ListableBy (ca : CA) (c : Certificate) (x : X509) : Prop :=
  (Issued ca x ↔ c.caref = some ca.refid) ∧
    (c.caref = some ca.refid → c.serialNumber = some (hexText x.serial))

instance (ca : CA) (c : Certificate) (x : X509) : Decidable (ListableBy ca c x) :=
  inferInstanceAs (Decidable (_ ∧ (_ → _)))

def Listable (cas : Table CA) (c : Certificate) : Prop :=
  match c.x509 with
  | .ok x => ∀ ca ∈ cas.rows, ListableBy ca c x
  | .error _ => True

instance (cas : Table CA) (c : Certificate) : Decidable (Listable cas c) :=
  match h : c.x509 with
  | .ok x => decidable_of_iff (∀ ca ∈ cas.rows, ListableBy ca c x) (by simp [Listable, h])
  | .error _ => .isTrue (by simp [Listable, h])

def RowListable (st : Store) (certId : ℕ) : Prop :=
  match st.certificates.get? certId with
  | some c => Listable st.cas c
  | none => True

instance (st : Store) (certId : ℕ) : Decidable (RowListable st certId) :=
  match h : st.certificates.get? certId with
  | some c => decidable_of_iff (Listable st.cas c) (by simp [RowListable, h])
  | none => .isTrue (by simp [RowListable, h])

theorem rowListable_iff {st : Store} {certId : ℕ} {c : Certificate}
    (h : st.certificates.get? certId = some c) : RowListable st certId ↔ Listable st.cas c := by
  simp only [RowListable, h]

/-- The authority that would sign is the only one whose name and key the certificate bears. -/
def SignerUnique (st : Store) (caref : String) : Prop :=
  match st.cas.first fun c => c.refid = caref with
  | some signer =>
    match signer.certificate, signer.privateKey with
    | .ok caCert, .ok key => ∀ ca ∈ st.cas.rows, Signs ca caCert.subject key ↔ caref = ca.refid
    | _, _ => True
  | none => True

instance (st : Store) (caref : String) : Decidable (SignerUnique st caref) :=
  match h : st.cas.first fun c => c.refid = caref with
  | some signer =>
    match hc : signer.certificate, hk : signer.privateKey with
    | .ok caCert, .ok key =>
      decidable_of_iff (∀ ca ∈ st.cas.rows, Signs ca caCert.subject key ↔ caref = ca.refid)
        (by simp [SignerUnique, h, hc, hk])
    | .error _, _ => .isTrue (by simp [SignerUnique, h, hc])
    | .ok _, .error _ => .isTrue (by simp [SignerUnique, h, hk])
  | none => .isTrue (by simp [SignerUnique, h])

/-- The event revokes listable rows only. A request row that was revoked before it is signed
becomes a revoked certificate with a decimal text, which reads the same below ten. -/
def RevokesListable (st : Store) : RowEvent → Prop
  | .revoke certId _ => RowListable st certId
  | .sign certId caref serial =>
    match st.certificates.get? certId with
    | some c => c.revoked = true → serial.value < 10 ∧ SignerUnique st caref
    | none => True
  | _ => True

instance (st : Store) : ∀ e : RowEvent, Decidable (RevokesListable st e)
  | .revoke certId _ => inferInstanceAs (Decidable (RowListable st certId))
  | .sign certId caref serial =>
    match h : st.certificates.get? certId with
    | some c =>
      decidable_of_iff (c.revoked = true → serial.value < 10 ∧ SignerUnique st caref)
        (by simp [RevokesListable, h])
    | none => .isTrue (by simp [RevokesListable, h])
  | .unhold _ | .renew _ | .delete _ => .isTrue trivial

/-- A linked row holds a certificate whose serial number a list can carry; a revoked row is
listable. -/
structure RowOk (cas : Table CA) (c : Certificate) : Prop where
  linked : c.caref ≠ none → ∃ x, c.x509 = .ok x ∧ 0 < x.serial ∧ x.serial < 2 ^ maxSerialBits
  listable : c.revoked = true → Listable cas c

def RowsOk (st : Store) : Prop := ∀ c ∈ st.certificates, RowOk st.cas c

section Rows

variable {cas : Table CA} {st st' : Store}

theorem RowOk.withKey {c : Certificate} (h : RowOk cas c) (k : ℕ) :
    RowOk cas (Keyed.withKey k c) :=
  ⟨h.linked, h.listable⟩

theorem listable_countSerial (ca : CA) (c : Certificate) :
    Listable (st.countSerial ca).cas c ↔ Listable st.cas c := by
  unfold Listable
  split
  next x hx =>
    exact forall_mem_countSerial (P := fun ca => ListableBy ca c x) (fun _ _ => Iff.rfl) st ca
  next => rfl

theorem rowOk_countSerial (ca : CA) (c : Certificate) :
    RowOk (st.countSerial ca).cas c ↔ RowOk st.cas c := by
  constructor
  · exact fun h => ⟨h.linked, fun hr => (listable_countSerial ca c).mp (h.listable hr)⟩
  · exact fun h => ⟨h.linked, fun hr => (listable_countSerial ca c).mpr (h.listable hr)⟩

theorem rowsOk_setCertificate {certId : ℕ} {f : Certificate → Certificate} (h : RowsOk st)
    (hrow : ∀ c, st.certificates.get? certId = some c → RowOk st.cas (f c)) :
    RowsOk (st.setCertificate certId f) := by
  intro c hc
  rcases Table.mem_update.mp hc with ⟨hc, _⟩ | ⟨c₀, hget, rfl⟩
  · exact h c hc
  · exact (hrow c₀ hget).withKey _

end Rows

section Steps

variable [X509Library] {st : Store}

theorem listable_signedRow {row : Certificate} {caref certType : String} {ca : CA}
    {caCert x : X509} {key : PublicKey} {serial : RandomSerial}
    (hca : (st.cas.first fun c => c.refid = caref) = some ca) (hcert : ca.certificate = .ok caCert)
    (hkey : ca.privateKey = .ok key) (hissues : TrustStoreService.Issues caCert key serial x)
    (hsmall : serial.value < 10) (hunique : SignerUnique st caref) :
    Listable st.cas (CertificateService.signedRow row caref certType x) := by
  have hsigns : ∀ c ∈ st.cas.rows, Signs c caCert.subject key ↔ caref = c.refid := by
    simpa only [SignerUnique, hca, hcert, hkey] using hunique
  have htext : decimalText x.serial = hexText x.serial :=
    (hexText_eq_decimalText (by rw [hissues.serial_eq]; omega)).symm
  change ∀ c ∈ st.cas.rows, ListableBy c _ x
  intro c hc
  refine ⟨?_, fun _ => congrArg some htext⟩
  rw [Issued, hissues.issuer_eq, hissues.signedBy_eq, hsigns c hc]
  exact ⟨fun heq => congrArg some heq, fun heq => Option.some.inj heq⟩

theorem rowsOk_commitRules : CommitRules RevokesListable RowsOk where
  countSerial ca h := fun c hc => (rowOk_countSerial ca c).mpr (h c hc)
  insert h hrow hadd := by
    obtain ⟨_, rfl⟩ := CertificateService.addCertificate_eq_ok.mp hadd
    intro c hc
    rcases Table.mem_insert.mp hc with hc | rfl
    · exact h c hc
    · refine RowOk.withKey ⟨hrow.linked, fun hr => ?_⟩ _
      simp [hrow.unrevoked] at hr
  sign h hC hget _ hca hcert hkey hissues := by
    refine rowsOk_setCertificate h fun c hc => ⟨fun _ => ?_, fun hrevoked => ?_⟩
    · exact ⟨_, rfl, hissues.serial_pos, hissues.serial_lt⟩
    · simp only [RevokesListable, hc] at hC
      obtain ⟨hsmall, hunique⟩ := hC hrevoked
      exact listable_signedRow hca hcert hkey hissues hsmall hunique
  revoke now h hC _ _ := by
    refine rowsOk_setCertificate h fun c hc => ⟨(h c (Table.mem_of_get? hc)).linked, fun _ => ?_⟩
    exact (rowListable_iff hc).mp hC
  unhold h _ _ _ _ :=
    rowsOk_setCertificate h fun c hc =>
      ⟨(h c (Table.mem_of_get? hc)).linked, fun hr => by cases hr⟩
  renew keyPem h _ _ hissues :=
    rowsOk_setCertificate h fun c _ =>
      ⟨fun _ => ⟨_, rfl, hissues.serial_pos, hissues.serial_lt⟩, fun hr => by cases hr⟩
  delete h _ := fun c hc => h c (Table.mem_delete.mp hc).1
  list h hcrl := by
    obtain ⟨_, _, _, _, _, _, rfl⟩ := CRLService.generateCrl_eq_ok hcrl
    exact h

end Steps

section Lists

variable {st : Store} {ca : CA}

theorem listedSerial_of_rowOk {c : Certificate} (hrow : RowOk st.cas c) (hca : ca ∈ st.cas)
    (hlink : c.caref = some ca.refid) (hrevoked : c.revoked = true) :
    ∃ x, c.x509 = .ok x ∧ Issued ca x ∧ 0 < x.serial ∧ x.serial < 2 ^ maxSerialBits ∧
      CRLService.listedSerial c = some x.serial := by
  obtain ⟨x, hx, hpos, hlt⟩ := hrow.linked (by simp [hlink])
  have hlist := hrow.listable hrevoked
  simp only [Listable, hx] at hlist
  obtain ⟨hissued, htext⟩ := hlist ca hca
  exact ⟨x, hx, hissued.mpr hlink, hpos, hlt,
    CRLService.listedSerial_hexText hpos hlt (htext hlink)⟩

theorem holdsIssued_iff {s : ℤ} {c : Certificate} :
    HoldsIssued ca s c ↔ ∃ x, c.x509 = .ok x ∧ Issued ca x ∧ x.serial = s := by
  unfold HoldsIssued
  cases c.x509 with
  | ok x => simp
  | error e => simp

/-- The serial numbers the code reads off the linked rows are those of the revoked
certificates the authority issued. -/
theorem listed_iff_revokedSerial (hrows : RowsOk st) (hca : ca ∈ st.cas) (s : ℤ) :
    (∃ c ∈ st.certificates, c.caref = some ca.refid ∧ c.revoked = true ∧
      CRLService.listedSerial c = some s) ↔ RevokedSerial st ca s := by
  constructor
  · rintro ⟨c, hc, hlink, hrevoked, hs⟩
    obtain ⟨x, hx, hissued, _, _, hlisted⟩ :=
      listedSerial_of_rowOk (hrows c hc) hca hlink hrevoked
    have hserial : x.serial = s := Option.some.inj (hlisted.symm.trans hs)
    exact ⟨c, hc, hrevoked, holdsIssued_iff.mpr ⟨x, hx, hissued, hserial⟩⟩
  · rintro ⟨c, hc, hrevoked, hholds⟩
    obtain ⟨x, hx, hissued, rfl⟩ := holdsIssued_iff.mp hholds
    have hlist := (hrows c hc).listable hrevoked
    simp only [Listable, hx] at hlist
    have hlink := (hlist ca hca).1.mp hissued
    obtain ⟨x', hx', _, _, _, hlisted⟩ := listedSerial_of_rowOk (hrows c hc) hca hlink hrevoked
    rw [hx, Except.ok.injEq] at hx'
    exact ⟨c, hc, hlink, hrevoked, hx' ▸ hlisted⟩

theorem hasPrivateKey_of_decryptedPrivateKey {keyEncryptionKey : Option ℕ} {key : PublicKey}
    (h : ca.decryptedPrivateKey keyEncryptionKey = .ok key) : ca.hasPrivateKey = true := by
  cases hprv : ca.prv with
  | none => simp [CA.decryptedPrivateKey, hprv] at h
  | some prv => simp [CA.hasPrivateKey, hprv]

/-- In a store whose rows are in order, the list of an authority can be made and names exactly
the serial numbers of the revoked certificates the authority issued. -/
theorem exists_generateCrl {caCert : X509} {key : PublicKey} (hrows : RowsOk st)
    (hca : ca ∈ st.cas) (hcert : ca.certificate = .ok caCert)
    (hkey : ca.decryptedPrivateKey st.keyEncryptionKey = .ok key) (validityDays : ℤ)
    (username : String) (now : Time) :
    ∃ m st', CRLService.generateCrl st ca.id validityDays username now = .ok (m, st') ∧
      ∀ s, s ∈ m.crl.serials ↔ RevokedSerial st ca s := by
  have hget : st.cas.get? ca.id = some ca := Table.get?_eq_some_iff.mpr ⟨hca, rfl⟩
  have hrange : ∀ c ∈ CRLService.revokedRows st ca, ∀ s, CRLService.listedSerial c = some s →
      0 < s ∧ s < 2 ^ maxSerialBits := by
    intro c hc s hs
    obtain ⟨hmem, hlink, hrevoked⟩ := CRLService.mem_revokedRows.mp hc
    obtain ⟨x, _, _, hpos, hlt, hlisted⟩ :=
      listedSerial_of_rowOk (hrows c hmem) hca hlink hrevoked
    rw [hlisted, Option.some.injEq] at hs
    exact hs ▸ ⟨hpos, hlt⟩
  obtain ⟨entries, hentries⟩ := @CRLService.exists_revokedEntries now _ hrange
  have hbuild : ∃ crl, CRLService.buildCrl st ca validityDays now = .ok crl := by
    simp only [CRLService.buildCrl, hcert, hkey, hentries, ok_bind]
    exact ⟨_, rfl⟩
  obtain ⟨crl, hcrl⟩ := hbuild
  have hgen : ∃ m st', CRLService.generateCrl st ca.id validityDays username now = .ok (m, st') ∧
      m.crl = crl := by
    simp only [CRLService.generateCrl, hget, orThrow_some, hcrl, ok_bind,
      ensure_of (hasPrivateKey_of_decryptedPrivateKey hkey)]
    exact ⟨_, _, rfl, rfl⟩
  obtain ⟨m, st', hm, rfl⟩ := hgen
  refine ⟨m, st', hm, fun s => ?_⟩
  rw [CRLService.mem_serials_buildCrl hcrl]
  exact listed_iff_revokedSerial hrows hca s

end Lists

def createdThroughRoute : Op :=
  .apiCreate { caId := 1, descr := "www", subject := sampleName "www", names := [] }
    (sampleDraw 255 "www" 100)

def revokedThroughRoute : List Op :=
  [createdThroughRoute, .apiRevoke 1 "keyCompromise" "admin" 200]

def revokedThroughService : List Op :=
  [.create { descr := "www", caref := "root", subject := sampleName "www" }
    (sampleDraw 16 "www" 100), .revoke 1 "keyCompromise" "admin" 200]

end CaManager
