import CaManager.Store.RowConsistency

/-!
# Writers of the store's rows

Each writer of a row sets the columns that it thinks of. For those that create, sign and renew
certificates, attach keys and revoke, it is settled here when that leaves every row about the
certificate that it holds.
-/

namespace CaManager

open Library

namespace RowConsistency

/-- A store, and for each row that was revoked what it held then. -/
structure History where
  store : Store
  revokedFor : ℕ → Option X509

/-- Go on to another store: where a revoked flag is new, what the row holds is noted. -/
def History.next (h : History) (st : Store) : History where
  store := st
  revokedFor id :=
    match st.certificates.get? id with
    | some row =>
      if row.revoked && !(h.store.certificates.get? id).any Certificate.revoked then row.held
      else h.revokedFor id
    | none => h.revokedFor id

def KeepsFlags (st st' : Store) : Prop :=
  ∀ c ∈ st'.certificates, c.revoked = true →
    ∃ c₀, st.certificates.get? c.id = some c₀ ∧ c₀.revoked = true

def Succeeds {α : Type} (result : Except PyError α) : Prop := ∃ a, result = .ok a

theorem succeeds_map {α β : Type} {f : α → β} {result : Except PyError α} :
    Succeeds (f <$> result) ↔ Succeeds result := by
  constructor
  · rintro ⟨b, hb⟩
    obtain ⟨a, ha, _⟩ := map_eq_ok.mp hb
    exact ⟨a, ha⟩
  · rintro ⟨a, ha⟩
    exact ⟨f a, map_eq_ok.mpr ⟨a, ha, rfl⟩⟩

theorem committed_cases (st : Store) (result : Except PyError Store) :
    committed st result = st ∨ result = .ok (committed st result) := by
  cases result with
  | error e => exact .inl rfl
  | ok st' => exact .inr rfl

section Flags

variable {st st' st'' : Store}

theorem get?_id {t : Table Certificate} {c : Certificate} (hc : c ∈ t) : t.get? c.id = some c :=
  Table.get?_eq_some_iff.mpr ⟨hc, rfl⟩

theorem keepsFlags_of_eq (h : st'.certificates = st.certificates) : KeepsFlags st st' := by
  intro c hc hrevoked
  rw [h] at hc
  exact ⟨c, get?_id hc, hrevoked⟩

theorem KeepsFlags.trans (h : KeepsFlags st st') (h' : KeepsFlags st' st'') :
    KeepsFlags st st'' := by
  intro c hc hrevoked
  obtain ⟨c₁, hget, hrevoked₁⟩ := h' c hc hrevoked
  obtain ⟨c₀, hget₀, hrevoked₀⟩ := h c₁ (Table.mem_of_get? hget) hrevoked₁
  have hid : c₁.id = c.id := Table.key_of_get? hget
  exact ⟨c₀, hid ▸ hget₀, hrevoked₀⟩

theorem keepsFlags_addCertificate {row : Certificate} (hrevoked : row.revoked = false)
    (hadd : st.addCertificate row = .ok st') : KeepsFlags st st' := by
  obtain ⟨_, rfl⟩ := CertificateService.addCertificate_eq_ok.mp hadd
  intro c hc hc'
  rcases Table.mem_insert.mp hc with hc | rfl
  · exact ⟨c, get?_id hc, hc'⟩
  · exact absurd (hrevoked.symm.trans hc') Bool.false_ne_true

theorem keepsFlags_setCertificate {certId : ℕ} {row : Certificate} {f : Certificate → Certificate}
    (hrow : st.certificates.get? certId = some row)
    (hf : (f row).revoked = true → row.revoked = true) :
    KeepsFlags st (st.setCertificate certId f) := by
  intro c hc hc'
  rcases Table.mem_update.mp hc with ⟨hc, _⟩ | ⟨c₀, hget, rfl⟩
  · exact ⟨c, get?_id hc, hc'⟩
  · cases hrow.symm.trans hget
    exact ⟨row, hrow, hf hc'⟩

end Flags

section Steps

variable [X509Library] {unset : Prop} {h : History} {st' : Store}

theorem consistent_next_iff (hflags : KeepsFlags h.store st') :
    Consistent unset st' (h.next st').revokedFor ↔ Consistent unset st' h.revokedFor := by
  have hnoted : ∀ c ∈ st'.certificates, c.revoked = true →
      (h.next st').revokedFor c.id = h.revokedFor c.id := by
    intro c hc hrevoked
    obtain ⟨c₀, hget, hrevoked₀⟩ := hflags c hc hrevoked
    simp only [History.next, get?_id hc, hget, Option.any_some, hrevoked₀, Bool.not_true,
      Bool.and_false, Bool.false_eq_true, if_false]
  constructor
  · intro hnext
    refine ⟨hnext.cas, fun c hc => ?_⟩
    obtain ⟨hsigned, hunsigned, hrevoked⟩ := hnext.certificates c hc
    exact ⟨hsigned, hunsigned, fun hr => (hnoted c hc hr).symm.trans (hrevoked hr)⟩
  · intro hold
    refine ⟨hold.cas, fun c hc => ?_⟩
    obtain ⟨hsigned, hunsigned, hrevoked⟩ := hold.certificates c hc
    exact ⟨hsigned, hunsigned, fun hr => (hnoted c hc hr).trans (hrevoked hr)⟩

/-- A writer that sets no revoked flag keeps the store consistent exactly under a condition. -/
structure Writes (unset : Prop) (h : History) (st' : Store) (C : Prop) : Prop where
  flags : KeepsFlags h.store st'
  consistent : Consistent unset st' h.revokedFor ↔ C

theorem Writes.next {C : Prop} (hwrites : Writes unset h st' C) :
    Consistent unset st' (h.next st').revokedFor ↔ C :=
  (consistent_next_iff hwrites.flags).trans hwrites.consistent

theorem writes_self {C : Prop} (hold : Consistent unset h.store h.revokedFor) (hC : C) :
    Writes unset h h.store C :=
  ⟨keepsFlags_of_eq rfl, iff_of_true hold hC⟩

theorem writes_committed {result : Except PyError Store} {C : Prop}
    (hold : Consistent unset h.store h.revokedFor)
    (hok : ∀ st', result = .ok st' → Writes unset h st' C) :
    Writes unset h (committed h.store result) (Succeeds result → C) := by
  cases hresult : result with
  | error e => exact writes_self hold fun hsucceeds => by cases hsucceeds.choose_spec
  | ok st' =>
    obtain ⟨hflags, hiff⟩ := hok st' hresult
    exact ⟨hflags, hiff.trans ⟨fun hC _ => hC, fun hC => hC ⟨st', rfl⟩⟩⟩

theorem writes_addCertificate {row : Certificate} {C : Prop}
    (hold : Consistent unset h.store h.revokedFor) (hrevoked : row.revoked = false)
    (hrow : RowConsistent unset h.store.cas none row ↔ C)
    (hadd : h.store.addCertificate row = .ok st') : Writes unset h st' C :=
  ⟨keepsFlags_addCertificate hrevoked hadd,
    (consistent_addCertificate hold hrevoked hadd).trans hrow⟩

theorem writes_countSerial {row : Certificate} {ca : CA} {C : Prop}
    (hold : Consistent unset h.store h.revokedFor) (hrevoked : row.revoked = false)
    (hrow : RowConsistent unset (h.store.countSerial ca).cas none row ↔ C)
    (hadd : (h.store.countSerial ca).addCertificate row = .ok st') : Writes unset h st' C := by
  have hcounted : KeepsFlags h.store (h.store.countSerial ca) := keepsFlags_of_eq rfl
  refine ⟨?_, ?_⟩
  · exact hcounted.trans (keepsFlags_addCertificate hrevoked hadd)
  · exact (consistent_addCertificate ((consistent_countSerial ca).mpr hold) hrevoked hadd).trans hrow

theorem writes_setCertificate {certId : ℕ} {row : Certificate} {f : Certificate → Certificate}
    {C : Prop} (hold : Consistent unset h.store h.revokedFor)
    (hrow : h.store.certificates.get? certId = some row)
    (hf : (f row).revoked = true → row.revoked = true)
    (hchanged : RowConsistent unset h.store.cas (h.revokedFor certId) (f row) ↔ C) :
    Writes unset h (h.store.setCertificate certId f) C :=
  ⟨keepsFlags_setCertificate hrow hf,
    (consistent_setCertificate hold (fun _ _ => rfl) hrow).trans hchanged⟩

theorem writes_addCa {row : CA} {C : Prop} (hold : Consistent unset h.store h.revokedFor)
    (hadd : h.store.addCa row = .ok st')
    (hrow : (ofCa row).Describe unset st'.cas row.held ↔ C) : Writes unset h st' C := by
  refine ⟨?_, (consistent_addCa hold hadd).trans hrow⟩
  obtain ⟨_, rfl⟩ := Store.addCa_eq_ok hadd
  exact keepsFlags_of_eq rfl

end Steps

section Rows

variable [X509Library] {unset : Prop} {cas : Table CA} {revokedFor : Option X509} {c : Certificate}
  {x : X509}

/-- A row with a certificate is consistent exactly if its columns are about it, where its revoked
flag, if it is set, was set for it. -/
theorem rowConsistent_iff_describe (hheld : c.held = some x)
    (hrevoked : c.revoked = true → revokedFor = some x) :
    RowConsistent unset cas revokedFor c ↔ (ofCertificate c).Describe unset cas x := by
  constructor
  · intro h
    exact h.signed x hheld
  · intro h
    refine ⟨fun y hy => ?_, fun hnone => ?_, fun hr => (hrevoked hr).trans hheld.symm⟩
    · cases hheld.symm.trans hy
      exact h
    · cases hheld.symm.trans hnone

theorem rowConsistent_iff_request (hheld : c.held = none)
    (hrevoked : c.revoked = true → revokedFor = none) :
    RowConsistent unset cas revokedFor c ↔
      ∀ csr ∈ c.csr, ∀ e ∈ c.prv, e.content.publicKey = csr.content.publicKey := by
  constructor
  · intro h
    exact h.unsigned hheld
  · intro h
    refine ⟨fun y hy => ?_, fun _ => h, fun hr => (hrevoked hr).trans hheld.symm⟩
    cases hheld.symm.trans hy

end Rows

section Issuing

variable [X509Library] {unset : Prop} {h : History} {st st' : Store}
  {revokedFor : ℕ → Option X509}

theorem signedBy_of_key {ca : CA} {key : PublicKey} {x : X509}
    (hold : Consistent unset st revokedFor) (hca : ca ∈ st.cas)
    (hkey : ∃ e ∈ ca.prv, e.content.publicKey = key) (hsigned : x.signedBy = key) :
    SignedBy st.cas ca.refid x := by
  obtain ⟨e, he, rfl⟩ := hkey
  exact ⟨ca, hca, rfl, hsigned.trans ((hold.cas ca hca).prv e he)⟩

theorem writes_create {r : CertificateService.CreateRequest} {d : Draw}
    (hold : Consistent unset h.store h.revokedFor)
    (hok : CertificateService.createCertificate h.store r d = .ok st') : Writes unset h st' True := by
  simp only [CertificateService.createCertificate, bind_eq_ok, orThrow_eq_ok] at hok
  obtain ⟨ca, hca, _, _, caCert, _, key, hkey, ⟨x, newKey⟩, hx, hadd⟩ := hok
  have hmem := Table.mem_of_first hca
  have hrefid : ca.refid = r.caref := by simpa using Table.holds_of_first hca
  have hissues := TrustStoreService.createCertificate_issues hx
  have hsigned : SignedBy (h.store.countSerial ca).cas r.caref x := by
    rw [signedBy_countSerial, ← hrefid]
    exact signedBy_of_key hold hmem (CA.prv_of_decryptedPrivateKey hkey) hissues.signedBy_eq
  refine writes_countSerial hold rfl (iff_true_intro ?_) hadd
  rw [rowConsistent_iff_describe rfl (fun hr => absurd hr Bool.false_ne_true)]
  refine ⟨describesName_text _, describesName_text _, .inl rfl, rfl, rfl, fun r' hr' => ?_,
    fun e he => ?_⟩
  · obtain ⟨heq, _⟩ := linked_eq_some.mp hr'
    cases heq
    exact hsigned
  · change e ∈ (if r.privateKeyLocation = "stored" then
      some ((Encoded.base64 newKey).encrypt h.store.keyEncryptionKey) else none) at he
    split_ifs at he
    · cases he
      rw [Encoded.content_encrypt]
      exact TrustStoreService.publicKey_of_createCertificate hx
    · cases he

theorem writes_of_cases (hold : Consistent unset h.store h.revokedFor) {Q : Prop}
    (hcases : st' = h.store ∨ Q) (hQ : Q → Writes unset h st' True) : Writes unset h st' True := by
  rcases hcases with rfl | hq
  · exact writes_self hold trivial
  · exact hQ hq

theorem writes_apiCreate (body : Routes.CreateBody) (d : Draw)
    (hold : Consistent unset h.store h.revokedFor) :
    Writes unset h (Routes.createCertificate h.store body d).2 True := by
  unfold Routes.createCertificate
  split
  next => exact writes_self hold trivial
  next ca hca =>
    split_ifs
    · exact writes_self hold trivial
    · exact writes_self hold trivial
    · split
      next st' hst' =>
        simp only [Routes.tryCreate, bind_eq_ok] at hst'
        obtain ⟨caCert, _, caKey, hkey, x, hsign, hadd⟩ := hst'
        obtain ⟨_, _, _, _, _, hsignedBy, _⟩ := CertificateBuilder.sign_spec hsign
        have hsigned : SignedBy h.store.cas ca.refid x :=
          signedBy_of_key hold (Table.mem_of_get? hca) (CA.prv_of_privateKey hkey) hsignedBy
        refine writes_addCertificate hold rfl (iff_true_intro ?_) hadd
        rw [rowConsistent_iff_describe rfl (fun hr => absurd hr Bool.false_ne_true)]
        refine ⟨describesName_text _, describesName_text _, .inr (.inl rfl), rfl, rfl,
          fun r hr => ?_, fun e he => ?_⟩
        · obtain ⟨heq, _⟩ := linked_eq_some.mp hr
          cases heq
          exact hsigned
        · cases he
          exact (CertificateBuilder.publicKey_of_sign hsign).symm
      next => exact writes_self hold trivial

theorem writes_generateCsr {descr keyType username : String} {subject : Name}
    {sanDns sanIp : List String} {d : Draw} (hold : Consistent unset h.store h.revokedFor)
    (hok : CertificateService.generateCsr h.store descr subject keyType sanDns sanIp username d =
      .ok st') : Writes unset h st' True := by
  simp only [CertificateService.generateCsr, bind_eq_ok] at hok
  obtain ⟨⟨csr, key⟩, hmade, hadd⟩ := hok
  simp only [TrustStoreService.generateCsr, bind_eq_ok, pure_eq_ok, Prod.mk.injEq] at hmade
  obtain ⟨privateKey, _, rfl, rfl⟩ := hmade
  refine writes_addCertificate hold rfl (iff_true_intro ?_) hadd
  rw [rowConsistent_iff_request rfl (fun hr => absurd hr Bool.false_ne_true)]
  intro csr hcsr e he
  cases hcsr
  cases he
  rfl

theorem writes_keyless {row : Certificate} (hold : Consistent unset h.store h.revokedFor)
    (hheld : row.crt = none) (hprv : row.prv = none) (hrevoked : row.revoked = false)
    (hadd : h.store.addCertificate row = .ok st') : Writes unset h st' True := by
  refine writes_addCertificate hold hrevoked (iff_true_intro ?_) hadd
  rw [rowConsistent_iff_request (Certificate.held_eq_none.mpr hheld)
    (fun hr => absurd (hrevoked.symm.trans hr) Bool.false_ne_true)]
  intro csr _ e he
  rw [hprv] at he
  cases he

theorem writes_uploadCsr (u : CsrUpload) (refid : String)
    (hold : Consistent unset h.store h.revokedFor) :
    Writes unset h (Routes.uploadCsr h.store u refid).2 True := by
  refine writes_of_cases hold (Routes.uploadCsr_cases h.store u refid) ?_
  rintro ⟨csr, hadd⟩
  exact writes_keyless hold rfl rfl rfl hadd

theorem writes_importCsr (u : CsrUpload) (refid : String)
    (hold : Consistent unset h.store h.revokedFor) :
    Writes unset h (Routes.importCsr h.store u refid).2 True := by
  refine writes_of_cases hold (Routes.importCsr_cases h.store u refid) ?_
  rintro ⟨csr, names, hadd⟩
  exact writes_keyless hold rfl rfl rfl hadd

/-- Signing writes a certificate for the key of the row's request; whether the row was revoked
before is not asked. -/
theorem writes_signCsr {certId : ℕ} {caref certType : String} {validityDays : ℤ}
    {serial : RandomSerial} {now : Time} {x : X509} (hold : Consistent unset h.store h.revokedFor)
    (hok : CertificateService.signCsr h.store certId caref certType validityDays serial now =
      .ok (x, st')) :
    Writes unset h st' (∀ row ∈ h.store.certificates.get? certId, row.revoked = false) := by
  simp only [CertificateService.signCsr, bind_eq_ok, orThrow_eq_ok, ensure_eq_ok, pure_eq_ok,
    Prod.mk.injEq] at hok
  obtain ⟨row, hrow, csrText, htext, _, hcrt, ca, hca, _, _, caCert, _, key, hkey, csr, hdecoded,
    x', hx, rfl, rfl⟩ := hok
  have hcsr : csrText.content = csr := by
    rcases Option.or_eq_some_iff.mp hdecoded with hdecoded | ⟨_, hdecoded⟩
    · exact Encoded.content_of_decoded hdecoded
    · exact Encoded.content_of_asText hdecoded
  have hmem := Table.mem_of_first hca
  have hrefid : ca.refid = caref := by simpa using Table.holds_of_first hca
  have hissues := TrustStoreService.signCsr_issues hx
  obtain ⟨_, hunsigned, hrevoked⟩ := hold.certificates row (Table.mem_of_get? hrow)
  have hheld : row.held = none := Certificate.held_eq_none.mpr hcrt
  have hid : row.id = certId := Table.key_of_get? hrow
  have hdescribed : (ofCertificate (CertificateService.signedRow row caref certType x')).Describe
      unset h.store.cas x' := by
    refine ⟨describesName_subjectText x', describesName_text _, .inl rfl, rfl, rfl,
      fun r hr => ?_, fun e he => ?_⟩
    · obtain ⟨heq, _⟩ := linked_eq_some.mp hr
      cases heq
      exact hrefid ▸ signedBy_of_key hold hmem (CA.prv_of_privateKey hkey) hissues.signedBy_eq
    · rw [hunsigned hheld csrText htext e he, hcsr, TrustStoreService.publicKey_of_signCsr hx]
  have hset : Writes unset h (h.store.setCertificate certId fun c =>
      CertificateService.signedRow c caref certType x')
      (∀ row ∈ h.store.certificates.get? certId, row.revoked = false) := by
    refine writes_setCertificate hold hrow id ?_
    constructor
    · intro hafter row' hrow'
      cases hrow.symm.trans hrow'
      -- a flag that was set before was set for no certificate
      by_contra hset
      have hflag : row.revoked = true := Bool.eq_true_of_not_eq_false hset
      have hbefore := hrevoked hflag
      rw [hid, hafter.revoked hflag, hheld] at hbefore
      cases hbefore
    · intro hclear
      have hflag : (CertificateService.signedRow row caref certType x').revoked = true →
          h.revokedFor certId = some x' :=
        fun hr => absurd ((hclear row hrow).symm.trans hr) Bool.false_ne_true
      exact (rowConsistent_iff_describe rfl hflag).mpr hdescribed
  exact ⟨hset.flags, (consistent_countSerial ca).trans hset.consistent⟩

end Issuing


section Renewing

variable {h : History} {st st' : Store} {row : Certificate} {ca : CA} {d : Draw}

def renewedBy (st : Store) (found : Certificate → Option CA) (certId : ℕ) (d : Draw) : Store :=
  match st.certificates.get? certId with
  | none => st
  | some row =>
    match found row with
    | none => st
    | some ca => committed st (Routes.tryRenew st row ca d)

theorem succeeds_tryRenew (h : Succeeds (Routes.tryRenew st row ca d)) :
    row.crt ≠ none ∧ ca.prv ≠ none := by
  obtain ⟨st', hok⟩ := h
  simp only [Routes.tryRenew, bind_eq_ok] at hok
  obtain ⟨original, horiginal, _, _, key, hkey, _⟩ := hok
  constructor
  · intro hnone
    have hheld := Certificate.held_of_x509 horiginal
    rw [Certificate.held_eq_none.mpr hnone] at hheld
    cases hheld
  · intro hnone
    obtain ⟨e, he, _⟩ := CA.prv_of_privateKey hkey
    rw [hnone] at he
    cases he

theorem refid_of_issuingCa (hca : Routes.issuingCa st row = some ca) {r : String}
    (hcaref : row.caref = some r) (hknown : ∃ c ∈ st.cas, c.refid = r) : ca.refid = r := by
  unfold Routes.issuingCa at hca
  split at hca
  next ca' hlinked =>
    cases hca
    have hrefid : some ca.refid = row.caref := by simpa using Table.holds_of_first hlinked
    exact Option.some.inj (hrefid.trans hcaref)
  next hnone =>
    obtain ⟨c, hc, hrefid⟩ := hknown
    refine absurd (decide_eq_true ?_) (List.find?_eq_none.mp hnone c hc)
    rw [hrefid, hcaref]

theorem committed_tryRenew_eq (st : Store) (row : Certificate) (ca : CA) (d : Draw) :
    committed st (Routes.tryRenew st row ca d) =
      if row.crt = none then st
      else if ca.prv = none then st
      else
        match Routes.tryRenew st row ca d with
        | .ok st' => st'
        | .error _ => st := by
  cases hok : Routes.tryRenew st row ca d with
  | error e =>
    split_ifs
    · rfl
    · rfl
    · rfl
  | ok st' =>
    obtain ⟨hcrt, hprv⟩ := succeeds_tryRenew ⟨st', hok⟩
    rw [if_neg hcrt, if_neg hprv]
    rfl

theorem renewCertificate_eq (st : Store) (certId : ℕ) (d : Draw) :
    (Routes.renewCertificate st certId d).2 = renewedBy st (Routes.issuingCa st) certId d := by
  unfold Routes.renewCertificate renewedBy
  cases st.certificates.get? certId with
  | none => rfl
  | some row =>
    simp only
    cases Routes.issuingCa st row with
    | none => split_ifs <;> rfl
    | some ca =>
      simp only
      rw [committed_tryRenew_eq]
      split_ifs
      · rfl
      · rfl
      · cases Routes.tryRenew st row ca d with
        | error e => rfl
        | ok st' => rfl

def linkedAuthority (st : Store) (row : Certificate) : Option CA :=
  st.cas.first fun c => some c.refid = row.caref

theorem refid_of_linkedAuthority (h : linkedAuthority st row = some ca) :
    some ca.refid = row.caref := by
  unfold linkedAuthority at h
  simpa using Table.holds_of_first h

theorem bulkRenewOne_eq (st : Store) (request : ℕ × Draw) :
    Routes.bulkRenewOne st request =
      renewedBy st (linkedAuthority st) request.1 request.2 := by
  unfold Routes.bulkRenewOne renewedBy linkedAuthority
  cases st.certificates.get? request.1 with
  | none => rfl
  | some row =>
    simp only
    cases st.cas.first fun c => some c.refid = row.caref with
    | none => split_ifs <;> rfl
    | some ca =>
      exact (committed_tryRenew_eq st row ca request.2).symm

variable [X509Library] {unset : Prop}

/-- If the renewal goes through, the issuer column is the text of the authority's subject. -/
def RenewsNamed (st : Store) (found : Certificate → Option CA) (certId : ℕ) (d : Draw) : Prop :=
  ∀ row ∈ st.certificates.get? certId, ∀ ca ∈ found row,
    Succeeds (Routes.tryRenew st row ca d) → DescribesName row.issuer ca.held.subject

theorem writes_tryRenew {certId : ℕ} (hold : Consistent unset h.store h.revokedFor)
    (hrow : h.store.certificates.get? certId = some row) (hca : ca ∈ h.store.cas)
    (hlink : ∀ r, row.caref = some r → (∃ c ∈ h.store.cas, c.refid = r) → ca.refid = r)
    (hok : Routes.tryRenew h.store row ca d = .ok st') :
    Writes unset h st' (DescribesName row.issuer ca.held.subject) := by
  simp only [Routes.tryRenew, bind_eq_ok, pure_eq_ok] at hok
  obtain ⟨original, horiginal, caCert, hcert, key, hkey, requested, _, x, hsign, rfl⟩ := hok
  have hid : row.id = certId := Table.key_of_get? hrow
  have hbefore := (hold.certificates row (Table.mem_of_get? hrow)).signed original
    (Certificate.held_of_x509 horiginal)
  obtain ⟨_, _, _, hissuer, hsubject, hsigned, _⟩ := CertificateBuilder.sign_spec hsign
  have hissuer' : x.issuer = ca.held.subject := by rw [hissuer, CA.held_of_certificate hcert]
  rw [hid]
  refine writes_setCertificate hold hrow (fun hr => absurd hr Bool.false_ne_true) ?_
  rw [rowConsistent_iff_describe (x := x) rfl (fun hr => absurd hr Bool.false_ne_true)]
  constructor
  · intro hdescribed
    rw [← hissuer']
    exact hdescribed.issuer
  · intro hname
    refine ⟨?_, ?_, .inr (.inl rfl), rfl, rfl, fun r hr => ?_, fun e he => ?_⟩
    · rw [hsubject]
      exact hbefore.subject
    · rw [hissuer']
      exact hname
    · -- the link was to an authority of the store, so the one that was found is it
      obtain ⟨c, hc, hrefid, _⟩ := hbefore.caref r hr
      have hfound := hlink r (linked_eq_some.mp hr).1 ⟨c, hc, hrefid⟩
      exact hfound ▸ signedBy_of_key hold hca (CA.prv_of_privateKey hkey) hsigned
    · cases he
      exact (CertificateBuilder.publicKey_of_sign hsign).symm

theorem writes_renewedBy {found : Certificate → Option CA} (certId : ℕ) (d : Draw)
    (hold : Consistent unset h.store h.revokedFor)
    (hfound : ∀ row, ∀ ca ∈ found row, ca ∈ h.store.cas ∧
      ∀ r, row.caref = some r → (∃ c ∈ h.store.cas, c.refid = r) → ca.refid = r) :
    Writes unset h (renewedBy h.store found certId d) (RenewsNamed h.store found certId d) := by
  unfold renewedBy RenewsNamed
  cases hrow : h.store.certificates.get? certId with
  | none => exact writes_self hold fun _ hnone => by cases hnone
  | some row =>
    simp only [Option.mem_some_iff, forall_eq']
    cases hca : found row with
    | none => exact writes_self hold fun _ hnone => by cases hnone
    | some ca =>
      simp only [Option.mem_some_iff, forall_eq']
      obtain ⟨hmem, hlink⟩ := hfound row ca hca
      exact writes_committed hold fun st' hok => writes_tryRenew hold hrow hmem hlink hok

theorem writes_renew (certId : ℕ) (d : Draw) (hold : Consistent unset h.store h.revokedFor) :
    Writes unset h (Routes.renewCertificate h.store certId d).2
      (RenewsNamed h.store (Routes.issuingCa h.store) certId d) := by
  rw [renewCertificate_eq]
  exact writes_renewedBy certId d hold fun row ca hca =>
    ⟨Routes.mem_of_issuingCa hca, fun r hcaref hknown => refid_of_issuingCa hca hcaref hknown⟩

theorem writes_bulkRenewOne (request : ℕ × Draw) (hold : Consistent unset h.store h.revokedFor) :
    Writes unset h (Routes.bulkRenewOne h.store request)
      (RenewsNamed h.store (linkedAuthority h.store) request.1 request.2) := by
  rw [bulkRenewOne_eq]
  refine writes_renewedBy request.1 request.2 hold fun row ca hca => ⟨Table.mem_of_first hca, ?_⟩
  intro r hcaref _
  exact Option.some.inj ((refid_of_linkedAuthority hca).trans hcaref)

end Renewing

section Keys

variable {h : History}

def KeyMatches (st : Store) (certId : ℕ) (u : UploadedKey) : Prop :=
  ∀ row ∈ st.certificates.get? certId, row.prv = none → row.crt = none →
    ∀ key, u = .loaded key true → ∀ csr ∈ row.csr, key.publicKey = csr.content.publicKey

theorem keyMatches_of_keyed {certId : ℕ} {u : UploadedKey} {row : Certificate}
    (hrow : h.store.certificates.get? certId = some row) (hkeyed : row.prv.isSome = true) :
    KeyMatches h.store certId u := by
  intro row' hrow' hprv
  cases hrow.symm.trans hrow'
  rw [hprv] at hkeyed
  cases hkeyed

theorem keyMatches_of_unread {certId : ℕ} {u : UploadedKey} (hu : ∀ key, u ≠ .loaded key true) :
    KeyMatches h.store certId u :=
  fun _ _ _ _ key hkey => absurd hkey (hu key)

theorem keyMatches_iff {certId : ℕ} {row : Certificate} {key : KeyPem}
    (hrow : h.store.certificates.get? certId = some row) (hprv : row.prv = none)
    (hcrt : row.crt = none) :
    KeyMatches h.store certId (.loaded key true) ↔
      ∀ csr ∈ row.csr, key.publicKey = csr.content.publicKey := by
  constructor
  · intro hmatches
    exact hmatches row hrow hprv hcrt key rfl
  · intro hkey row' hrow' _ _ key' hkey'
    cases hrow.symm.trans hrow'
    cases hkey'
    exact hkey

variable [X509Library] {unset : Prop}

theorem writes_requestKey {certId : ℕ} {row : Certificate} (key : KeyPem)
    (hold : Consistent unset h.store h.revokedFor)
    (hrow : h.store.certificates.get? certId = some row) (hcrt : row.crt = none) :
    Writes unset h (h.store.setCertificate certId (Routes.keyedRow h.store key))
      (∀ csr ∈ row.csr, key.publicKey = csr.content.publicKey) := by
  have hid : row.id = certId := Table.key_of_get? hrow
  have hheld : row.held = none := Certificate.held_eq_none.mpr hcrt
  have hbefore := hold.certificates row (Table.mem_of_get? hrow)
  have hrevoked : row.revoked = true → h.revokedFor certId = none := fun hr => by
    rw [← hid, hbefore.revoked hr, hheld]
  refine writes_setCertificate hold hrow id ?_
  rw [rowConsistent_iff_request (c := Routes.keyedRow h.store key row) hheld hrevoked]
  constructor
  · intro hkeys csr hcsr
    have hkey := hkeys csr hcsr _ rfl
    rw [Encoded.content_encrypt] at hkey
    exact hkey
  · intro hkey csr hcsr e he
    cases he
    rw [Encoded.content_encrypt]
    exact hkey csr hcsr

theorem writes_certificateKey {certId : ℕ} {row : Certificate} {key : KeyPem} {x : X509}
    (hold : Consistent unset h.store h.revokedFor)
    (hrow : h.store.certificates.get? certId = some row) (hx : row.x509 = .ok x)
    (hkey : x.publicKey = key.publicKey) :
    Writes unset h (h.store.setCertificate certId (Routes.keyedRow h.store key)) True := by
  have hid : row.id = certId := Table.key_of_get? hrow
  have hheld := Certificate.held_of_x509 hx
  have hbefore := hold.certificates row (Table.mem_of_get? hrow)
  have hrevoked : row.revoked = true → h.revokedFor certId = some x := fun hr => by
    rw [← hid, hbefore.revoked hr, hheld]
  refine writes_setCertificate hold hrow id (iff_true_intro ?_)
  rw [rowConsistent_iff_describe (c := Routes.keyedRow h.store key row) hheld hrevoked]
  refine { hbefore.signed x hheld with prv := fun e he => ?_ }
  cases he
  rw [Encoded.content_encrypt]
  exact hkey.symm

theorem writes_uploadPrivateKey (certId : ℕ) (u : UploadedKey)
    (hold : Consistent unset h.store h.revokedFor) :
    Writes unset h (Routes.uploadPrivateKey h.store certId u).2 (KeyMatches h.store certId u) := by
  unfold Routes.uploadPrivateKey
  split
  next hnone =>
    refine writes_self hold fun row hrow => ?_
    cases hnone.symm.trans hrow
  next row hrow =>
    split_ifs with hkeyed
    · exact writes_self hold (keyMatches_of_keyed hrow hkeyed)
    · have hprv := Option.not_isSome_iff_eq_none.mp hkeyed
      cases u with
      | loaded key traditional =>
        simp only [Routes.UploadedKey.read]
        split
        next answer hrefused =>
          refine writes_self hold fun row' hrow' _ hcrt => ?_
          cases hrow.symm.trans hrow'
          rw [Routes.verifyKey, hcrt] at hrefused
          cases hrefused
        next hverified =>
          cases traditional with
          | false => exact writes_self hold (keyMatches_of_unread fun key' hkey' => by cases hkey')
          | true =>
            rcases Routes.verifyKey_eq_ok hverified with hcrt | ⟨x, hx, hkey⟩
            · obtain ⟨hflags, hiff⟩ := writes_requestKey key hold hrow hcrt
              exact ⟨hflags, hiff.trans (keyMatches_iff hrow hprv hcrt).symm⟩
            · obtain ⟨hflags, hiff⟩ := writes_certificateKey hold hrow hx hkey
              refine ⟨hflags, hiff.trans (iff_of_true trivial fun row' hrow' _ hcrt => ?_)⟩
              cases hrow.symm.trans hrow'
              have hheld := Certificate.held_of_x509 hx
              rw [Certificate.held_eq_none.mpr hcrt] at hheld
              cases hheld
      | _ => exact writes_self hold (keyMatches_of_unread fun key' hkey' => by cases hkey')

theorem writes_uploadCsrPrivateKey (csrId : ℕ) (u : UploadedKey)
    (hold : Consistent unset h.store h.revokedFor) :
    Writes unset h (Routes.uploadCsrPrivateKey h.store csrId u).2 (KeyMatches h.store csrId u) := by
  unfold Routes.uploadCsrPrivateKey
  split
  next hnone =>
    refine writes_self hold fun row hrow => ?_
    cases hnone.symm.trans hrow
  next row hrow =>
    split_ifs with hpending hkeyed
    · refine writes_self hold fun row' hrow' _ hcrt key _ csr hcsr => ?_
      cases hrow.symm.trans hrow'
      rw [hcrt, Option.mem_def.mp hcsr] at hpending
      cases hpending
    · exact writes_self hold (keyMatches_of_keyed hrow hkeyed)
    · have hprv := Option.not_isSome_iff_eq_none.mp hkeyed
      simp only [Bool.or_eq_true, not_or, Option.not_isSome_iff_eq_none] at hpending
      cases u with
      | loaded key traditional =>
        cases traditional with
        | false => exact writes_self hold (keyMatches_of_unread fun key' hkey' => by cases hkey')
        | true =>
          obtain ⟨hflags, hiff⟩ := writes_requestKey key hold hrow hpending.2
          exact ⟨hflags, hiff.trans (keyMatches_iff hrow hprv hpending.2).symm⟩
      | _ => exact writes_self hold (keyMatches_of_unread fun key' hkey' => by cases hkey')

end Keys

section Revoking

variable {h : History} {st' : Store}

theorem revokedFor_next {st : Store} {certId : ℕ} {row row' : Certificate}
    (hrow : h.store.certificates.get? certId = some row) (hclear : row.revoked = false)
    (hrow' : st.certificates.get? certId = some row') (hset : row'.revoked = true) :
    (h.next st).revokedFor certId = row'.held := by
  simp [History.next, hrow, hrow', hclear, hset]

theorem revokedFor_next_of_eq {st : Store} {id : ℕ}
    (hsame : st.certificates.get? id = h.store.certificates.get? id) :
    (h.next st).revokedFor id = h.revokedFor id := by
  cases hrow : h.store.certificates.get? id with
  | none => simp [History.next, hsame, hrow]
  | some row =>
    cases hrevoked : row.revoked with
    | false => simp [History.next, hsame, hrow, hrevoked]
    | true => simp [History.next, hsame, hrow, hrevoked]

variable [X509Library] {unset : Prop}

theorem consistent_revoke {certId : ℕ} {reason username : String} {now : Time}
    (hold : Consistent unset h.store h.revokedFor)
    (hok : CertificateService.revokeCertificate h.store certId reason username now = .ok st') :
    Consistent unset st' (h.next st').revokedFor := by
  obtain ⟨row, hrow, hclear, hst'⟩ := CertificateService.revokeCertificate_eq_ok hok
  have htables : st'.cas = h.store.cas ∧ st'.certificates =
      h.store.certificates.update certId (CertificateService.revokedRow reason now) := by
    rcases hst' with rfl | ⟨ca, m, _, hcrl⟩
    · exact ⟨rfl, rfl⟩
    · obtain ⟨_, _, _, _, _, _, rfl⟩ := CRLService.generateCrl_eq_ok hcrl
      exact ⟨rfl, rfl⟩
  obtain ⟨hcas, hcertificates⟩ := htables
  have hnew : (h.next st').revokedFor certId = row.held := by
    have hset : st'.certificates.get? certId = some (Keyed.withKey certId
        (CertificateService.revokedRow reason now row)) := by
      rw [hcertificates]
      exact Table.get?_update_self hrow
    have hnoted := revokedFor_next hrow hclear hset rfl
    exact hnoted
  have hother : ∀ id, id ≠ certId → (h.next st').revokedFor id = h.revokedFor id := by
    intro id hid
    refine revokedFor_next_of_eq ?_
    rw [hcertificates]
    exact Table.get?_update_of_ne hid.symm
  obtain ⟨hsigned, hunsigned, _⟩ := hold.certificates row (Table.mem_of_get? hrow)
  have hset := (consistent_setCertificate (f := CertificateService.revokedRow reason now) hold hother
    hrow).mpr ⟨hsigned, hunsigned, fun _ => hnew⟩
  refine ⟨?_, ?_⟩
  · rw [hcas]
    exact hset.cas
  · rw [hcas, hcertificates]
    exact hset.certificates

theorem consistent_next_of_cases {certId : ℕ} {reason username : String} {now : Time}
    (hold : Consistent unset h.store h.revokedFor)
    (hcases : st' = h.store ∨
      CertificateService.revokeCertificate h.store certId reason username now = .ok st') :
    Consistent unset st' (h.next st').revokedFor := by
  rcases hcases with rfl | hok
  · exact (writes_self hold trivial).next.mpr trivial
  · exact consistent_revoke hold hok

theorem writes_unhold (certId : ℕ) (hold : Consistent unset h.store h.revokedFor) :
    Writes unset h (Routes.unholdCertificate h.store certId).2 True := by
  refine writes_of_cases hold (Routes.unholdCertificate_cases h.store certId) ?_
  rintro ⟨row, hrow, _, _, heq⟩
  rw [heq]
  obtain ⟨hsigned, hunsigned, _⟩ := hold.certificates row (Table.mem_of_get? hrow)
  exact writes_setCertificate hold hrow (fun hr => absurd hr Bool.false_ne_true)
    (iff_true_intro ⟨hsigned, hunsigned, fun hr => absurd hr Bool.false_ne_true⟩)

end Revoking

end RowConsistency

end CaManager
