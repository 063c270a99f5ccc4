import CaManager.Acme.Service
import CaManager.Scep.Transactions
import CaManager.Store.Routes

/-!
# Validity within the authority's

A certificate should be valid for some time, and not longer than the authority that issues it.
Every path computes the bounds itself: one shortens the validity that was asked for to what the
authority has left, to a day at least, and the others take it as it is.
-/

namespace CaManager

open Library

theorem CertificateBuilder.validity_of_sign {b : CertificateBuilder} {key : PublicKey} {x : X509}
    (h : b.sign key = .ok x) : x.notBefore = b.notBefore ∧ x.notAfter = b.notAfter := by
  unfold sign at h
  obtain ⟨serial, _, h⟩ := bind_eq_ok.mp h
  change (if b.notAfter < b.notBefore then _ else _) = _ at h
  split_ifs at h
  · cases h
  · cases h
    exact ⟨rfl, rfl⟩

def NestedIn (issuer x : X509) : Prop :=
  x.notBefore < x.notAfter ∧ x.notAfter ≤ issuer.notAfter

instance (issuer x : X509) : Decidable (NestedIn issuer x) :=
  inferInstanceAs (Decidable (_ ∧ _))

def FitsIn (issuer : X509) (now : Time) (validityDays : ℤ) : Prop :=
  0 < validityDays ∧ now + days validityDays ≤ issuer.notAfter

/-- What the paths to a certificate are asked for. -/
inductive Issuance
  | create (r : CertificateService.CreateRequest) (d : Draw)
  | signCsr (certId : ℕ) (caref certType : String) (validityDays : ℤ) (serial : RandomSerial)
      (now : Time)
  | createThroughRoute (body : Routes.CreateBody) (d : Draw)
  | renewThroughRoute (certId : ℕ) (d : Draw)
  | bulkRenew (certId : ℕ) (d : Draw)
  | acme (order : AcmeOrder) (csr : Csr) (caRefid : Option String) (d : SignDraw)
  | scep (caRefid : String) (challengePassword : Option String) (autoApprove : Bool) (csr : Csr)
      (validityDays : ℤ) (d : Draw)

namespace Issuance

def authority (st : Store) : Issuance → Option CA
  | create r _ => st.cas.first fun c => c.refid = r.caref
  | signCsr _ caref .. => st.cas.first fun c => c.refid = caref
  | createThroughRoute body _ => st.cas.get? body.caId
  | renewThroughRoute certId _ => (st.certificates.get? certId).bind (Routes.issuingCa st)
  | bulkRenew certId _ =>
    (st.certificates.get? certId).bind fun row => st.cas.first fun c => some c.refid = row.caref
  | acme _ _ caRefid _ => AcmeService.signer st caRefid
  | scep caRefid .. => st.cas.first fun c => c.refid = caRefid

def rowId (st : Store) : Issuance → ℕ
  | signCsr certId .. | renewThroughRoute certId _ | bulkRenew certId _ => certId
  | _ => st.certificates.nextKey

variable [X509Library]

/-- The store that a path leaves when it gets to the end; signing for an order may have committed
the certificate and fail after that. -/
def result (st : Store) : Issuance → Option Store
  | create r d => (CertificateService.createCertificate st r d).toOption
  | signCsr certId caref certType validityDays serial now =>
    (CertificateService.signCsr st certId caref certType validityDays serial now).toOption.map
      Prod.snd
  | createThroughRoute body d =>
    let (response, st') := Routes.createCertificate st body d
    if response.status = 201 then some st' else none
  | renewThroughRoute certId d =>
    let (response, st') := Routes.renewCertificate st certId d
    if response.status = 200 then some st' else none
  | bulkRenew certId d =>
    if (Routes.bulkRenewNote st (certId, d)).isNone then some (Routes.bulkRenewOne st (certId, d))
    else none
  | acme order csr caRefid d =>
    match AcmeService.signCertificateWithCa st order csr caRefid d with
    | .raised _ => none
    | .failed _ st' | .signed _ st' => some st'
  | scep caRefid challengePassword autoApprove csr validityDays d => Except.toOption do
    let svc ← SCEPService.start st caRefid challengePassword autoApprove
    let x ← svc.enrolledCertificate csr validityDays d
    st.addCertificate (svc.enrolledRow x d.refid)

def issued (st : Store) (i : Issuance) : Option X509 := do
  let st' ← i.result st
  let row ← st'.certificates.get? (i.rowId st)
  row.x509.toOption

omit [X509Library] in
/-- What was asked for fits into the validity of the authority. Where it is shortened, there is a
day left for it; a renewal asks for as many days as the old certificate had. -/
def Fits (st : Store) (issuer : X509) : Issuance → Prop
  | create r d => 0 < r.validityDays ∧ d.now + days 1 ≤ issuer.notAfter
  | signCsr _ _ _ validityDays _ now => FitsIn issuer now validityDays
  | createThroughRoute body d => FitsIn issuer d.now body.validityDays
  | renewThroughRoute certId d | bulkRenew certId d =>
    ∀ row original, st.certificates.get? certId = some row → row.x509 = .ok original →
      FitsIn issuer d.now (Routes.renewedValidity original)
  | acme _ _ _ d => FitsIn issuer d.now 90
  | scep _ _ _ _ validityDays d => FitsIn issuer d.now validityDays

end Issuance

section Bounds

theorem lt_add_days_iff {now n : ℤ} : now < now + days n ↔ 0 < n := by
  unfold days
  omega

theorem one_le_ediv_iff {now limit : ℤ} :
    1 ≤ (limit - now) / days 1 ↔ now + days 1 ≤ limit := by
  unfold days
  omega

theorem add_days_ediv_le {now limit : ℤ} : now + days ((limit - now) / days 1) ≤ limit := by
  unfold days
  omega

theorem days_le_days {m n : ℤ} (h : m ≤ n) : days m ≤ days n :=
  Int.mul_le_mul_of_nonneg_right h (by decide)

variable {issuer x : X509} {now : Time} {validityDays : ℤ}

theorem nestedIn_iff_fitsIn (hbefore : x.notBefore = now)
    (hafter : x.notAfter = now + days validityDays) :
    NestedIn issuer x ↔ FitsIn issuer now validityDays := by
  unfold NestedIn FitsIn
  rw [hbefore, hafter, lt_add_days_iff]

theorem fitsIn_clampValidity :
    FitsIn issuer now (CertificateService.clampValidity issuer validityDays now) ↔
      0 < validityDays ∧ now + days 1 ≤ issuer.notAfter := by
  unfold FitsIn CertificateService.clampValidity
  split_ifs with hlong
  · -- at least a day is given, whether it is left or not
    have hpos : 0 < max 1 ((issuer.notAfter - now) / days 1) := lt_of_lt_of_le one_pos (le_max_left _ _)
    rw [and_iff_right hpos]
    constructor
    · intro hends
      have hday : now + days 1 ≤ issuer.notAfter :=
        (add_le_add_right (days_le_days (le_max_left _ _)) now).trans hends
      exact ⟨lt_add_days_iff.mp (lt_of_le_of_lt (le_of_lt
        (lt_of_lt_of_le (lt_add_days_iff.mpr one_pos) hday)) hlong), hday⟩
    · rintro ⟨_, hday⟩
      rw [max_eq_right (one_le_ediv_iff.mpr hday)]
      exact add_days_ediv_le
  · refine and_congr_right fun hpos => ?_
    have hends := not_lt.mp hlong
    exact iff_of_true hends ((add_le_add_right (days_le_days hpos) now).trans hends)

end Bounds

section Paths

variable {st st' : Store} {ca : CA} {issuer x : X509} {now : Time} {validityDays : ℤ}

theorem TrustStoreService.validity_of_createCertificate {subject : Name} {caPrivateKey : PublicKey}
    {certType keyType : String} {san : SanLists} {ocspUri cdpUrl : Option String} {d : Draw}
    {key : KeyPem}
    (h : createCertificate subject issuer caPrivateKey certType validityDays keyType san ocspUri
      cdpUrl d = .ok (x, key)) : x.notBefore = d.now ∧ x.notAfter = d.now + days validityDays := by
  simp only [createCertificate, bind_eq_ok, pure_eq_ok] at h
  obtain ⟨_, _, certificate, hsign, heq⟩ := h
  cases heq
  exact CertificateBuilder.validity_of_sign hsign

theorem TrustStoreService.validity_of_signCsr {csr : Csr} {caPrivateKey : PublicKey}
    {certType : String} {serial : RandomSerial}
    (h : signCsr csr issuer caPrivateKey validityDays certType serial now = .ok x) :
    x.notBefore = now ∧ x.notAfter = now + days validityDays := by
  simp only [signCsr, bind_eq_ok] at h
  obtain ⟨_, _, requested, _, b₁, hcopy, b₂, hbasic, b₃, husage, b₄, hextended, hsign⟩ := h
  have hcopied := foldlM_invariant (I := SameTemplate _)
    (fun b e b' hb hadd => hb.trans (sameTemplate_of_addExtension hadd)) (SameTemplate.refl _) hcopy
  obtain ⟨_, _, _, _, hbefore, hafter⟩ := ((hcopied.trans
    (sameTemplate_of_addBasicConstraints hbasic)).trans
    (sameTemplate_of_addKeyUsage husage)).trans (sameTemplate_of_addExtendedKeyUsage hextended)
  obtain ⟨hxbefore, hxafter⟩ := CertificateBuilder.validity_of_sign hsign
  exact ⟨hxbefore.trans hbefore, hxafter.trans hafter⟩

theorem SCEPService.validity_of_enrolledCertificate {svc : SCEPService} {csr : Csr} {d : Draw}
    (h : svc.enrolledCertificate csr validityDays d = .ok x) :
    x.notBefore = d.now ∧ x.notAfter = d.now + days validityDays := by
  simp only [enrolledCertificate, bind_eq_ok] at h
  obtain ⟨_, _, hsign⟩ := h
  exact CertificateBuilder.validity_of_sign hsign

namespace Issuance

variable [X509Library]

theorem issued_eq_some {i : Issuance} : i.issued st = some x ↔
    ∃ st' row, i.result st = some st' ∧ st'.certificates.get? (i.rowId st) = some row ∧
      row.x509 = .ok x := by
  simp only [issued, Option.bind_eq_bind, Option.bind_eq_some_iff, toOption_eq_some]
  constructor
  · rintro ⟨st', hst', row, hrow, hx⟩
    exact ⟨st', row, hst', hrow, hx⟩
  · rintro ⟨st', row, hst', hrow, hx⟩
    exact ⟨st', hst', row, hrow, hx⟩

omit [X509Library] in
theorem x509_of_crt {row : Certificate} {x' : X509} {chain : List X509}
    (hcrt : row.crt = some (.base64 ⟨x', chain⟩)) (hx : row.x509 = .ok x) : x' = x := by
  rw [Certificate.x509, hcrt] at hx
  exact Except.ok.inj hx

omit [X509Library] in
theorem x509_of_addCertificate {row added : Certificate} {x' : X509} {chain : List X509}
    (hadd : st.addCertificate added = .ok st')
    (hrow : st'.certificates.get? st.certificates.nextKey = some row) (hx : row.x509 = .ok x)
    (hadded : added.crt = some (.base64 ⟨x', chain⟩)) : x' = x := by
  obtain ⟨_, rfl⟩ := CertificateService.addCertificate_eq_ok.mp hadd
  cases hrow.symm.trans Table.get?_insert_nextKey
  exact x509_of_crt hadded hx

omit [X509Library] in
theorem x509_of_setCertificate {row old : Certificate} {f : Certificate → Certificate} {certId : ℕ}
    {x' : X509} {chain : List X509} (hold : st.certificates.get? certId = some old)
    (hrow : (st.setCertificate certId f).certificates.get? certId = some row)
    (hx : row.x509 = .ok x) (hf : (f old).crt = some (.base64 ⟨x', chain⟩)) : x' = x := by
  cases hrow.symm.trans (Table.get?_update_self hold)
  exact x509_of_crt hf hx

omit [X509Library] in
theorem validity_of_tryRenew {row renewed : Certificate} {d : Draw}
    (h : Routes.tryRenew st row ca d = .ok st') (hold : st.certificates.get? row.id = some row)
    (hrow : st'.certificates.get? row.id = some renewed) (hx : renewed.x509 = .ok x) :
    ∃ original, row.x509 = .ok original ∧ x.notBefore = d.now ∧
      x.notAfter = d.now + days (Routes.renewedValidity original) := by
  simp only [Routes.tryRenew, bind_eq_ok, pure_eq_ok] at h
  obtain ⟨original, horiginal, _, _, _, _, _, _, x', hsign, rfl⟩ := h
  obtain rfl : x' = x := x509_of_setCertificate hold hrow hx rfl
  exact ⟨original, horiginal, CertificateBuilder.validity_of_sign hsign⟩

omit [X509Library] in
theorem bounds_of_tryRenew {certId : ℕ} {row renewed : Certificate} {d : Draw}
    (hold : st.certificates.get? certId = some row)
    (h : ∃ ca, Routes.tryRenew st row ca d = .ok st')
    (hrow : st'.certificates.get? certId = some renewed) (hx : renewed.x509 = .ok x) :
    ∃ now n, x.notBefore = now ∧ x.notAfter = now + days n ∧
      (FitsIn issuer now n ↔ ∀ row original, st.certificates.get? certId = some row →
        row.x509 = .ok original → FitsIn issuer d.now (Routes.renewedValidity original)) := by
  obtain ⟨ca, hok⟩ := h
  obtain rfl : row.id = certId := Table.key_of_get? hold
  obtain ⟨original, horiginal, hbefore, hafter⟩ := validity_of_tryRenew hok hold hrow hx
  refine ⟨d.now, _, hbefore, hafter, fun hfits row' original' hrow' horiginal' => ?_,
    fun hfits => hfits row original hold horiginal⟩
  cases hold.symm.trans hrow'
  cases horiginal.symm.trans horiginal'
  exact hfits

theorem tryCreate_of_result {body : Routes.CreateBody} {d : Draw}
    (h : (createThroughRoute body d).result st = some st') :
    ∃ ca, st.cas.get? body.caId = some ca ∧ Routes.tryCreate st ca body d = .ok st' := by
  change (if (Routes.createCertificate st body d).1.status = 201 then
    some (Routes.createCertificate st body d).2 else none) = some st' at h
  unfold Routes.createCertificate at h
  cases hca : st.cas.get? body.caId with
  | none =>
    rw [hca] at h
    cases h
  | some ca =>
    by_cases hkey : ca.prv = none
    · simp [hca, hkey] at h
    by_cases hweak : Routes.weakKey body.keyKind = true
    · simp [hca, hkey, hweak] at h
    cases hok : Routes.tryCreate st ca body d with
    | error e => simp [hca, hkey, hweak, hok] at h
    | ok st'' =>
      simp [hca, hkey, hweak, hok] at h
      exact ⟨ca, rfl, by rw [hok, h]⟩

omit [X509Library] in
theorem tryRenew_of_renewCertificate {certId : ℕ} {d : Draw}
    (h : (if (Routes.renewCertificate st certId d).1.status = 200 then
      some (Routes.renewCertificate st certId d).2 else none) = some st') :
    ∃ row, st.certificates.get? certId = some row ∧
      ∃ ca, Routes.tryRenew st row ca d = .ok st' := by
  unfold Routes.renewCertificate at h
  cases hrow : st.certificates.get? certId with
  | none =>
    rw [hrow] at h
    cases h
  | some row =>
    by_cases hcrt : row.crt = none
    · simp [hrow, hcrt] at h
    cases hca : Routes.issuingCa st row with
    | none => simp [hrow, hcrt, hca] at h
    | some ca =>
      by_cases hkey : ca.prv = none
      · simp [hrow, hcrt, hca, hkey] at h
      cases hok : Routes.tryRenew st row ca d with
      | error e => simp [hrow, hcrt, hca, hkey, hok] at h
      | ok st'' =>
        simp [hrow, hcrt, hca, hkey, hok] at h
        exact ⟨row, rfl, ca, by rw [hok, h]⟩

omit [X509Library] in
theorem tryRenew_of_bulkRenewOne {certId : ℕ} {d : Draw}
    (h : (if (Routes.bulkRenewNote st (certId, d)).isNone then
      some (Routes.bulkRenewOne st (certId, d)) else none) = some st') :
    ∃ row, st.certificates.get? certId = some row ∧
      ∃ ca, Routes.tryRenew st row ca d = .ok st' := by
  unfold Routes.bulkRenewNote Routes.bulkRenewOne at h
  cases hrow : st.certificates.get? certId with
  | none => simp [hrow] at h
  | some row =>
    by_cases hcrt : row.crt = none
    · simp [hrow, hcrt] at h
    cases hca : st.cas.first fun c => some c.refid = row.caref with
    | none => simp [hrow, hcrt, hca] at h
    | some ca =>
      by_cases hkey : ca.prv = none
      · simp [hrow, hcrt, hca, hkey] at h
      cases hok : Routes.tryRenew st row ca d with
      | error e => simp [hrow, hcrt, hca, hkey, hok] at h
      | ok st'' =>
        simp [hrow, hcrt, hca, hkey, hok] at h
        exact ⟨row, rfl, ca, by rw [hok, h]⟩

theorem signedInto_of_result {order : AcmeOrder} {csr : Csr} {caRefid : Option String}
    {d : SignDraw} {row : Certificate} (h : (acme order csr caRefid d).result st = some st')
    (hrow : st'.certificates.get? st.certificates.nextKey = some row) :
    AcmeService.SignedInto st st' csr d := by
  have hcases := AcmeService.signCertificateWithCa_cases st order csr caRefid d
  have hnew : st.certificates.get? st.certificates.nextKey = none := Table.get?_eq_none_iff.mpr
    fun r hr => (Table.key_lt_nextKey hr).ne
  simp only [result] at h
  cases hsigned : AcmeService.signCertificateWithCa st order csr caRefid d with
  | raised e =>
    rw [hsigned] at h
    cases h
  | failed message s' =>
    rw [hsigned] at h hcases
    obtain rfl := Option.some.inj h
    refine hcases.resolve_left fun hsame => ?_
    rw [hsame, hnew] at hrow
    cases hrow
  | signed certId s' =>
    rw [hsigned] at h hcases
    obtain rfl := Option.some.inj h
    exact hcases.2

theorem bounds_of_issued {i : Issuance} (hissued : i.issued st = some x)
    (hauthority : i.authority st = some ca) (hissuer : ca.certificate = .ok issuer) :
    ∃ now n, x.notBefore = now ∧ x.notAfter = now + days n ∧
      (FitsIn issuer now n ↔ i.Fits st issuer) := by
  obtain ⟨st', row, hresult, hrow, hx⟩ := issued_eq_some.mp hissued
  cases i with
  | create r d =>
    have hok := toOption_eq_some.mp hresult
    simp only [CertificateService.createCertificate, bind_eq_ok, orThrow_eq_ok, ensure_eq_ok] at hok
    obtain ⟨ca', hca', _, _, caCert, hcert, caPrivateKey, _, ⟨x', key⟩, hx', hadd⟩ := hok
    cases hauthority.symm.trans hca'
    cases hissuer.symm.trans hcert
    obtain rfl : x' = x := x509_of_addCertificate hadd hrow hx rfl
    obtain ⟨hbefore, hafter⟩ := TrustStoreService.validity_of_createCertificate hx'
    exact ⟨d.now, _, hbefore, hafter, fitsIn_clampValidity⟩
  | signCsr certId caref certType validityDays serial now =>
    obtain ⟨⟨x', _⟩, hok, rfl⟩ := Option.map_eq_some_iff.mp hresult
    have hsigned := toOption_eq_some.mp hok
    simp only [CertificateService.signCsr, bind_eq_ok, orThrow_eq_ok, ensure_eq_ok, pure_eq_ok,
      Prod.mk.injEq] at hsigned
    obtain ⟨row', hrow', _, _, _, _, ca', hca', _, _, caCert, hcert, _, _, csr, _, _, hx', rfl, rfl⟩ :=
      hsigned
    cases hauthority.symm.trans hca'
    cases hissuer.symm.trans hcert
    obtain rfl := x509_of_setCertificate (x := x) hrow' hrow hx rfl
    obtain ⟨hbefore, hafter⟩ := TrustStoreService.validity_of_signCsr hx'
    exact ⟨now, _, hbefore, hafter, Iff.rfl⟩
  | createThroughRoute body d =>
    obtain ⟨ca', hca', hok⟩ := tryCreate_of_result hresult
    cases hauthority.symm.trans hca'
    simp only [Routes.tryCreate, bind_eq_ok] at hok
    obtain ⟨_, _, _, _, x', hsign, hadd⟩ := hok
    obtain rfl : x' = x := x509_of_addCertificate hadd hrow hx rfl
    obtain ⟨hbefore, hafter⟩ := CertificateBuilder.validity_of_sign hsign
    exact ⟨d.now, _, hbefore, hafter, Iff.rfl⟩
  | renewThroughRoute certId d =>
    obtain ⟨row', hrow', hok⟩ := tryRenew_of_renewCertificate hresult
    exact bounds_of_tryRenew hrow' hok hrow hx
  | bulkRenew certId d =>
    obtain ⟨row', hrow', hok⟩ := tryRenew_of_bulkRenewOne hresult
    exact bounds_of_tryRenew hrow' hok hrow hx
  | acme order csr caRefid d =>
    have hsigned := signedInto_of_result hresult hrow
    obtain ⟨row', x', caCert, _, hrow', hx', hsign⟩ := hsigned.signed
    cases hrow.symm.trans hrow'
    cases hx.symm.trans hx'
    obtain ⟨hbefore, hafter⟩ := TrustStoreService.validity_of_signCsr hsign
    exact ⟨d.now, _, hbefore, hafter, Iff.rfl⟩
  | scep caRefid challengePassword autoApprove csr validityDays d =>
    have hok := toOption_eq_some.mp hresult
    simp only [bind_eq_ok] at hok
    obtain ⟨svc, hstart, x', hx', hadd⟩ := hok
    simp only [SCEPService.start, bind_eq_ok, orThrow_eq_ok, pure_eq_ok] at hstart
    obtain ⟨ca', hca', caCert, hcert, caKey, _, rfl⟩ := hstart
    obtain rfl : x' = x := x509_of_addCertificate hadd hrow hx rfl
    obtain ⟨hbefore, hafter⟩ := SCEPService.validity_of_enrolledCertificate hx'
    exact ⟨d.now, _, hbefore, hafter, Iff.rfl⟩

/-- A certificate is nested in its authority exactly if what was asked for fits. -/
theorem nestedIn_iff (i : Issuance) (hissued : i.issued st = some x)
    (hauthority : i.authority st = some ca) (hissuer : ca.certificate = .ok issuer) :
    NestedIn issuer x ↔ i.Fits st issuer := by
  obtain ⟨now, n, hbefore, hafter, hfits⟩ := bounds_of_issued hissued hauthority hissuer
  exact (nestedIn_iff_fitsIn hbefore hafter).trans hfits

end Issuance

end Paths

section Sample

/-- A server certificate, asked for when the authority has so many seconds left. -/
def requestedWith (left : ℤ) : Issuance :=
  .create { descr := "www", caref := "root", subject := sampleName "www" }
    (sampleDraw 7 "www" (days 3650 - left))

def requestedThroughRoute (validityDays : ℤ) : Issuance :=
  .createThroughRoute
    { caId := 1, descr := "www", subject := sampleName "www", names := []
      validityDays := validityDays }
    (sampleDraw 7 "www" 0)

theorem nestedIn_iff_requestedWith :
    let _ := sampleLibrary
    ∃ x, (requestedWith (days 30)).issued sampleStore = some x ∧
      (NestedIn sampleCaCert x ↔ (requestedWith (days 30)).Fits sampleStore sampleCaCert) := by
  intro _
  have hissued : ((requestedWith (days 30)).issued sampleStore).isSome = true := by decide +kernel
  obtain ⟨x, hx⟩ := Option.isSome_iff_exists.mp hissued
  exact ⟨x, hx, Issuance.nestedIn_iff (requestedWith (days 30)) hx
    (by rfl : (requestedWith (days 30)).authority sampleStore = some sampleCa) (by rfl)⟩

/-- With half a day left a certificate outlives its authority by half a day, and the route lets
one outlive it by years. -/
theorem outlives_authority :
    let _ := sampleLibrary
    ((requestedWith 43200).authority sampleStore = some sampleCa ∧
        (requestedThroughRoute 7300).authority sampleStore = some sampleCa ∧
        sampleCa.certificate = .ok sampleCaCert) ∧
      (∃ x, (requestedWith 43200).issued sampleStore = some x ∧
        x.notAfter = sampleCaCert.notAfter + 43200 ∧ ¬NestedIn sampleCaCert x) ∧
      ∃ x, (requestedThroughRoute 7300).issued sampleStore = some x ∧
        x.notAfter = sampleCaCert.notAfter + days 3650 ∧ ¬NestedIn sampleCaCert x := by
  intro _
  refine ⟨⟨rfl, rfl, rfl⟩, ?_⟩
  have hhalf : ((requestedWith 43200).issued sampleStore).map
      (fun x => (x.notAfter, decide (NestedIn sampleCaCert x))) =
        some (sampleCaCert.notAfter + 43200, false) := by decide +kernel
  have hyears : ((requestedThroughRoute 7300).issued sampleStore).map
      (fun x => (x.notAfter, decide (NestedIn sampleCaCert x))) =
        some (sampleCaCert.notAfter + days 3650, false) := by decide +kernel
  obtain ⟨x, hx, hxspec⟩ := Option.map_eq_some_iff.mp hhalf
  obtain ⟨y, hy, hyspec⟩ := Option.map_eq_some_iff.mp hyears
  rw [Prod.mk.injEq, decide_eq_false_iff_not] at hxspec hyspec
  exact ⟨⟨x, hx, hxspec⟩, y, hy, hyspec⟩

end Sample

end CaManager
