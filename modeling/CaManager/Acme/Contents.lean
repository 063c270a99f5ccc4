import CaManager.Acme.Service

/-!
# What a finalized order's certificate says

Finalizing compares the first common name and the DNS names of a request with the DNS
identifiers of the order; signing then copies the whole subject and every extension of the
request. The names that the comparison reads are right in every issued certificate. What it
does not read goes through, so the certificate is right exactly if the request is right there.
-/

namespace CaManager

open Library AcmeService

def GeneralName.kind : GeneralName → String
  | dns _ => "dns"
  | ip _ => "ip"
  | email _ => "email"
  | uri _ => "uri"
  | other kind _ => kind

def GeneralName.value : GeneralName → String
  | dns v | ip v | email v | uri v | other _ v => v

def GeneralName.identifier (n : GeneralName) : Identifier := ⟨some n.kind, some n.value⟩

/-- The certificate bears a name for the identifier. A common name stands for a DNS name. -/
def Covers (x : X509) (i : Identifier) : Prop :=
  (∃ n ∈ alternativeNames x.extensions, n.identifier = i) ∨
    ∃ cn ∈ Name.commonNames x.subject, i = ⟨some "dns", some cn⟩

/-- Every name in the certificate is asked for, every identifier is covered, and the
certificate makes no authority. -/
structure RightContents (identifiers : List Identifier) (x : X509) : Prop where
  names : ∀ n ∈ alternativeNames x.extensions, n.identifier ∈ identifiers
  commonNames : ∀ cn ∈ Name.commonNames x.subject, ∃ i ∈ identifiers, i.value = some cn
  covered : ∀ i ∈ identifiers, Covers x i
  endEntity : ∀ e ∈ x.extensions, ∀ pathLength, e.value ≠ .basicConstraints true pathLength

/-- The parts of a request that finalizing does not look at are right: the names that are no
DNS names, the common names after the first, the identifiers of other types, and whether an
authority is asked for. -/
structure UncheckedRight (identifiers : List Identifier) (csr : Csr) : Prop where
  names : ∀ n ∈ alternativeNames csr.encodedExtensions, n.dnsName? = none →
    n.identifier ∈ identifiers
  commonNames : ∀ cn ∈ (Name.commonNames csr.subject).tail, ∃ i ∈ identifiers, i.value = some cn
  covered : ∀ i ∈ identifiers, i.type ≠ some "dns" →
    ∃ n ∈ alternativeNames csr.encodedExtensions, n.identifier = i
  endEntity : ∀ e ∈ csr.encodedExtensions, ∀ pathLength,
    e.value ≠ .basicConstraints true pathLength

def IssuedFor (st : AcmeStore) (orderId : String) (x : X509) : Prop :=
  ∃ order certId row, st.orders.find? orderId = some order ∧ order.certificateId = some certId ∧
    st.store.certificates.get? certId = some row ∧ row.x509 = .ok x

section Names

variable {csr : Csr} {es added : List Extension} {identifiers : List Identifier}

theorem identifier_of_dnsName? {n : GeneralName} {d : String} (h : n.dnsName? = some d) :
    n.identifier = ⟨some "dns", some d⟩ := by
  cases n with
  | dns v => cases h; rfl
  | _ => cases h

theorem mem_alternativeNames {n : GeneralName} :
    n ∈ alternativeNames es ↔
      ∃ e ∈ es, ∃ names, e.value = .subjectAlternativeName names ∧ n ∈ names := by
  unfold alternativeNames
  rw [List.mem_flatMap]
  refine exists_congr fun e => and_congr_right fun _ => ?_
  split
  next names h => simp [h]
  next h => simp only [List.not_mem_nil, false_iff]; exact fun ⟨names, hn, _⟩ => h names hn

theorem alternativeNames_append : 
    alternativeNames (es ++ added) = alternativeNames es ++ alternativeNames added :=
  List.flatMap_append

theorem eq_of_mem_of_length_le_one {α : Type*} {l : List α} (h : l.length ≤ 1) {a b : α}
    (ha : a ∈ l) (hb : b ∈ l) : a = b := by
  match l, h with
  | [c], _ =>
    rw [List.mem_singleton] at ha hb
    exact ha.trans hb.symm

theorem extensionForOid_of_mem {encoded : List Extension} (h : readExtensions encoded = .ok es)
    {e : Extension} (he : e ∈ es) : extensionForOid es e.oid = some e := by
  unfold readExtensions at h
  split at h
  · cases h
  next hnone =>
    cases h
    have hcount : es.countP (·.oid = e.oid) ≤ 1 := by
      simpa using List.find?_eq_none.mp hnone e he
    have hsome : (extensionForOid es e.oid).isSome := List.find?_isSome.mpr ⟨e, he, by simp⟩
    obtain ⟨e', he'⟩ := Option.isSome_iff_exists.mp hsome
    have hoid : e'.oid = e.oid := by simpa using List.find?_some he'
    have hmem : e ∈ es.filter (·.oid = e.oid) := List.mem_filter.mpr ⟨he, by simp⟩
    have hmem' : e' ∈ es.filter (·.oid = e.oid) :=
      List.mem_filter.mpr ⟨List.mem_of_find?_eq_some he', by simpa using hoid⟩
    rw [List.countP_eq_length_filter] at hcount
    rw [he', eq_of_mem_of_length_le_one hcount hmem' hmem]

theorem encodedExtensions_of_ok (h : csr.extensions = .ok es) : csr.encodedExtensions = es := by
  unfold Csr.extensions readExtensions at h
  split at h
  · cases h
  · exact Except.ok.inj h

theorem dnsName?_eq_some_iff {n : GeneralName} {d : String} : n.dnsName? = some d ↔ n = .dns d := by
  cases n <;> simp [GeneralName.dnsName?]

theorem mem_requestedDnsNames (h : csr.extensions = .ok es) {d : String} :
    d ∈ requestedDnsNames csr ↔ .dns d ∈ alternativeNames es := by
  unfold requestedDnsNames
  rw [h, mem_alternativeNames]
  dsimp only
  constructor
  · intro hd
    split at hd
    next names critical hext =>
      obtain ⟨n, hn, hdns⟩ := List.mem_filterMap.mp hd
      rw [dnsName?_eq_some_iff] at hdns
      exact ⟨_, List.mem_of_find?_eq_some hext, names, rfl, hdns ▸ hn⟩
    next => cases hd
  · intro ⟨⟨value, critical⟩, he, names, hvalue, hd⟩
    dsimp only at hvalue
    subst hvalue
    have hext := extensionForOid_of_mem h he
    simp only [Extension.oid, ExtensionValue.oid] at hext
    rw [hext]
    exact List.mem_filterMap.mpr ⟨.dns d, hd, rfl⟩

theorem mem_extractDomainsFromCsr {d : String} :
    d ∈ extractDomainsFromCsr csr ↔
      (Name.commonNames csr.subject).head? = some d ∨ d ∈ requestedDnsNames csr := by
  have hfold : ∀ (ds acc : List String),
      d ∈ ds.foldl (fun domains d => if d ∈ domains then domains else domains ++ [d]) acc ↔
        d ∈ acc ∨ d ∈ ds := by
    intro ds
    induction ds with
    | nil => simp
    | cons d' ds ih =>
      intro acc
      rw [List.foldl_cons, ih, List.mem_cons]
      split_ifs with hd'
      · constructor
        · exact fun h => h.imp id .inr
        · exact fun h => h.elim .inl fun h => h.elim (fun heq => .inl (heq ▸ hd')) .inr
      · rw [List.mem_append, List.mem_singleton, or_assoc]
  rw [extractDomainsFromCsr, hfold, Option.mem_toList]

theorem map_value_of_mapM {is : List Identifier} {e : PyError} {ds : List String}
    (h : is.mapM (fun i => orThrow i.value e) = .ok ds) :
    is.map Identifier.value = ds.map some := by
  induction is generalizing ds with
  | nil => rw [List.mapM_nil, pure_eq_ok] at h; rw [← h]; rfl
  | cons i is ih =>
    rw [List.mapM_cons] at h
    simp only [bind_eq_ok, orThrow_eq_ok, pure_eq_ok] at h
    obtain ⟨d, hd, ds', hds', rfl⟩ := h
    rw [List.map_cons, List.map_cons, hd, ih hds']

theorem mem_orderDomains {ds : List String} (h : orderDomains identifiers = .ok ds) {i : Identifier}
    (hi : i.type = some "dns") : i ∈ identifiers ↔ ∃ d ∈ ds, i = ⟨some "dns", some d⟩ := by
  have hvalues := map_value_of_mapM h
  constructor
  · intro hmem
    have hvalue : i.value ∈ ds.map some := by
      rw [← hvalues]
      exact List.mem_map_of_mem (List.mem_filter.mpr ⟨hmem, by simpa using hi⟩)
    obtain ⟨d, hd, heq⟩ := List.mem_map.mp hvalue
    refine ⟨d, hd, ?_⟩
    obtain ⟨type, value⟩ := i
    exact congrArg₂ Identifier.mk hi heq.symm
  · intro ⟨d, hd, heq⟩
    have hvalue : some d ∈ (identifiers.filter fun i => i.type = some "dns").map Identifier.value := by
      rw [hvalues]
      exact List.mem_map_of_mem hd
    obtain ⟨⟨type, value⟩, hmem, hv⟩ := List.mem_map.mp hvalue
    obtain ⟨hmem, htype⟩ := List.mem_filter.mp hmem
    have htype : type = some "dns" := by simpa using htype
    subst htype hv
    exact heq ▸ hmem

end Names

section Contents

variable {csr : Csr} {identifiers : List Identifier} {es added : List Extension}

theorem alternativeNames_plain (h : ∀ e ∈ added, TrustStoreService.IsPlain e) :
    alternativeNames added = [] := by
  refine List.eq_nil_iff_forall_not_mem.mpr fun n hn => ?_
  obtain ⟨e, he, names, hvalue, _⟩ := mem_alternativeNames.mp hn
  exact (h e he).1 names hvalue

theorem commonNames_signedSubject (hes : csr.extensions = .ok es) (subject : Name) :
    Name.commonNames (TrustStoreService.signedSubject subject es) = Name.commonNames subject ∨
      Name.commonNames subject = [] ∧ ∃ d ∈ requestedDnsNames csr,
        Name.commonNames (TrustStoreService.signedSubject subject es) = [d] := by
  unfold TrustStoreService.signedSubject
  split_ifs with hempty
  · have hnil : Name.commonNames subject = [] := by rw [List.isEmpty_iff.mp hempty]; rfl
    split
    next names critical hext =>
      split
      next d ds hnames =>
        have hmem : d ∈ names.filterMap GeneralName.dnsName? := hnames ▸ List.mem_cons_self
        obtain ⟨n, hn, hdns⟩ := List.mem_filterMap.mp hmem
        refine .inr ⟨hnil, d, (mem_requestedDnsNames hes).mpr ?_, rfl⟩
        rw [mem_alternativeNames]
        exact ⟨_, List.mem_of_find?_eq_some hext, names, rfl, dnsName?_eq_some_iff.mp hdns ▸ hn⟩
      next => exact .inl rfl
    next => exact .inl rfl
  · exact .inl rfl

/-- What an accepted comparison and the copying of the request give together. -/
structure Compared (identifiers : List Identifier) (csr : Csr) (x : X509) : Prop where
  names : alternativeNames x.extensions = alternativeNames csr.encodedExtensions
  dns : ∀ d, .dns d ∈ alternativeNames csr.encodedExtensions →
    ⟨some "dns", some d⟩ ∈ identifiers
  first : ∀ d, (Name.commonNames csr.subject).head? = some d → ⟨some "dns", some d⟩ ∈ identifiers
  subject : Name.commonNames x.subject = Name.commonNames csr.subject ∨
    Name.commonNames csr.subject = [] ∧
      ∃ d, .dns d ∈ alternativeNames csr.encodedExtensions ∧ Name.commonNames x.subject = [d]
  covered : ∀ i ∈ identifiers, i.type = some "dns" → Covers x i
  endEntity : (∀ e ∈ x.extensions, ∀ n, e.value ≠ .basicConstraints true n) ↔
    ∀ e ∈ csr.encodedExtensions, ∀ n, e.value ≠ .basicConstraints true n

theorem compared_of_signCsr {x caCert : X509} {caPrivateKey : PublicKey} {validityDays : ℤ}
    {serial : RandomSerial} {now : Time} {domains : List String}
    (hdomains : orderDomains identifiers = .ok domains)
    (hsub : extractDomainsFromCsr csr ⊆ domains) (hsup : domains ⊆ extractDomainsFromCsr csr)
    (hx : TrustStoreService.signCsr csr caCert caPrivateKey validityDays "server_cert" serial now =
      .ok x) :
    Compared identifiers csr x := by
  obtain ⟨es, added, hes, hsubject, hext, hplain⟩ :=
    TrustStoreService.signCsr_contents (by decide) hx
  have henc : csr.encodedExtensions = es := encodedExtensions_of_ok hes
  have hnames : alternativeNames x.extensions = alternativeNames csr.encodedExtensions := by
    rw [hext, alternativeNames_append, alternativeNames_plain hplain, List.append_nil, henc]
  have hlisted : ∀ d ∈ extractDomainsFromCsr csr, ⟨some "dns", some d⟩ ∈ identifiers :=
    fun d hd => (mem_orderDomains hdomains rfl).mpr ⟨d, hsub hd, rfl⟩
  have hrequested : ∀ d, d ∈ requestedDnsNames csr ↔ .dns d ∈ alternativeNames csr.encodedExtensions :=
    fun d => henc ▸ mem_requestedDnsNames hes
  have hcases := hsubject ▸ commonNames_signedSubject hes csr.subject
  refine ⟨hnames, ?_, ?_, ?_, ?_, ?_⟩
  · intro d hd
    exact hlisted d (mem_extractDomainsFromCsr.mpr (.inr ((hrequested d).mpr hd)))
  · intro d hd
    exact hlisted d (mem_extractDomainsFromCsr.mpr (.inl hd))
  · rcases hcases with heq | ⟨hnil, d, hd, heq⟩
    · exact .inl heq
    · exact .inr ⟨hnil, d, (hrequested d).mp hd, heq⟩
  · intro i hi htype
    obtain ⟨d, hd, heq⟩ := (mem_orderDomains hdomains htype).mp hi
    rcases mem_extractDomainsFromCsr.mp (hsup hd) with hfirst | hd
    · rcases hcases with hsame | ⟨hnil, _⟩
      · exact .inr ⟨d, hsame ▸ List.mem_of_head? hfirst, heq⟩
      · rw [hnil] at hfirst
        cases hfirst
    · exact .inl ⟨.dns d, hnames ▸ (hrequested d).mp hd, heq.symm⟩
  · rw [hext, henc, List.forall_mem_append]
    exact and_iff_left fun e he => (hplain e he).2

variable {x : X509}

theorem Compared.uncheckedRight (hc : Compared identifiers csr x)
    (h : RightContents identifiers x) : UncheckedRight identifiers csr := by
  refine ⟨fun n hn _ => h.names n (hc.names ▸ hn), ?_, ?_, hc.endEntity.mp h.endEntity⟩
  · intro cn hcn
    rcases hc.subject with heq | ⟨hnil, _⟩
    · exact h.commonNames cn (heq ▸ List.mem_of_mem_tail hcn)
    · rw [hnil] at hcn
      cases hcn
  · intro i hi htype
    rcases h.covered i hi with ⟨n, hn, heq⟩ | ⟨cn, _, heq⟩
    · exact ⟨n, hc.names ▸ hn, heq⟩
    · exact absurd (congrArg Identifier.type heq) htype

theorem Compared.rightContents (hc : Compared identifiers csr x)
    (h : UncheckedRight identifiers csr) : RightContents identifiers x := by
  refine ⟨?_, ?_, ?_, hc.endEntity.mpr h.endEntity⟩
  · intro n hn
    rw [hc.names] at hn
    cases hdns : n.dnsName? with
    | none => exact h.names n hn hdns
    | some d =>
      rw [identifier_of_dnsName? hdns]
      exact hc.dns d (dnsName?_eq_some_iff.mp hdns ▸ hn)
  · intro cn hcn
    rcases hc.subject with heq | ⟨_, d, hd, heq⟩
    · rw [heq] at hcn
      cases hcns : Name.commonNames csr.subject with
      | nil => rw [hcns] at hcn; cases hcn
      | cons first rest =>
        rw [hcns] at hcn
        rcases List.mem_cons.mp hcn with rfl | hrest
        · exact ⟨_, hc.first cn (by rw [hcns]; rfl), rfl⟩
        · exact h.commonNames cn (by rw [hcns]; exact hrest)
    · rw [heq, List.mem_singleton] at hcn
      exact ⟨_, hc.dns d hd, hcn ▸ rfl⟩
  · intro i hi
    by_cases htype : i.type = some "dns"
    · exact hc.covered i hi htype
    · obtain ⟨n, hn, heq⟩ := h.covered i hi htype
      exact .inl ⟨n, hc.names ▸ hn, heq⟩

theorem exists_issued_of_finalized [X509Library] {st st' : AcmeStore} {orderId : String}
    {order : AcmeOrder} {d : SignDraw} (horder : st.orders.find? orderId = some order)
    (h : finalizeOrder st orderId (some csr) d = .ok (none, st')) :
    ∃ x, IssuedFor st' orderId x ∧ Compared order.identifiers csr x := by
  obtain ⟨order', csr', domains, store, hcheck, ⟨_, hsigned⟩, rfl⟩ := finalizeOrder_eq_none h
  obtain ⟨hfind, _, hcsr, hdomains, hsub, hsup⟩ := checkFinalize_eq_ok.mp hcheck
  obtain ⟨row, x, caCert, caPrivateKey, hrow, hx, hsign⟩ := hsigned
  cases hcsr
  cases horder.symm.trans hfind
  have horder' : ({ st with store } : AcmeStore).orders.find? orderId = some order := horder
  exact ⟨x, ⟨_, _, row, AcmeStore.find?_setOrder horder', rfl, hrow, hx⟩,
    compared_of_signCsr hdomains hsub hsup hsign⟩

/-- The certificate of every accepted finalization is right exactly if the parts of the request
that were not compared are. -/
theorem finalized_contents_iff [X509Library] {st st' : AcmeStore} {orderId : String}
    {order : AcmeOrder} {d : SignDraw} (horder : st.orders.find? orderId = some order)
    (h : finalizeOrder st orderId (some csr) d = .ok (none, st')) :
    ∃ x, IssuedFor st' orderId x ∧
      (RightContents order.identifiers x ↔ UncheckedRight order.identifiers csr) := by
  obtain ⟨x, hx, hc⟩ := exists_issued_of_finalized horder h
  exact ⟨x, hx, hc.uncheckedRight, hc.rightContents⟩

/-- The request for `www` that also asks to be an authority. -/
def authorityRequest : Csr :=
  { subject := [], publicKey := ⟨.rsa 2048, 7⟩, isSignatureValid := true
    encodedExtensions := [⟨.subjectAlternativeName [.dns "www"], false⟩,
      ⟨.basicConstraints true none, true⟩] }

theorem finalized_contents_plain :
    let _ := sampleLibrary
    ∃ st', finalizeOrder readyAcme "o1" (some (plainRequest "www")) sampleSignDraw =
        .ok (none, st') ∧
      ∃ x, IssuedFor st' "o1" x ∧
        (RightContents readyOrder.identifiers x ↔
          UncheckedRight readyOrder.identifiers (plainRequest "www")) := by
  intro _
  have h : finalizeOrder readyAcme "o1" (some (plainRequest "www")) sampleSignDraw =
      .ok (none, _) := rfl
  exact ⟨_, h, finalized_contents_iff rfl h⟩

/-- The request to be an authority is accepted and copied. -/
theorem authority_finalized :
    let _ := sampleLibrary
    ∃ st' x, finalizeOrder readyAcme "o1" (some authorityRequest) sampleSignDraw =
        .ok (none, st') ∧
      IssuedFor st' "o1" x ∧ ¬RightContents readyOrder.identifiers x := by
  intro _
  have h : finalizeOrder readyAcme "o1" (some authorityRequest) sampleSignDraw =
      .ok (none, _) := rfl
  obtain ⟨x, hx, hc⟩ := exists_issued_of_finalized rfl h
  refine ⟨_, x, h, hx, fun hright => ?_⟩
  exact (hc.uncheckedRight hright).endEntity ⟨.basicConstraints true none, true⟩ (by decide) none rfl

end Contents

end CaManager
