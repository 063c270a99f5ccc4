import CaManager.TrustStore

/-!
# What a signed request may do

A certificate type stands for a profile: basic constraints, key usage and extended usage. Signing
copies every extension of the request first and adds those of the profile where the request has
none of the kind, so a certificate follows its type as far as the request lets it.
-/

namespace CaManager

open Library

def Extension.makesCa (e : Extension) : Bool :=
  match e.value with
  | .basicConstraints ca _ => ca
  | _ => false

def Extension.allowsCertSign (e : Extension) : Bool :=
  match e.value with
  | .keyUsage usage => usage.keyCertSign
  | _ => false

namespace TrustStoreService

/-- The extensions follow the type: they make an authority, and let it sign certificates, for the
type of an intermediate authority only, and no two are of one kind. -/
structure FollowsType (certType : String) (extensions : List Extension) : Prop where
  makesCa_iff : extensions.any Extension.makesCa = true ↔ certType = "intermediate_ca"
  allowsCertSign_iff : extensions.any Extension.allowsCertSign = true ↔ certType = "intermediate_ca"
  nodup : (extensions.map Extension.oid).Nodup

/-- The request asks for no other basic constraints and no other key usage, as to authorities,
than the type stands for. -/
def SuitsType (certType : String) (requested : List Extension) : Prop :=
  ∀ e ∈ requested,
    (e.oid = "2.5.29.19" → (e.makesCa = true ↔ certType = "intermediate_ca")) ∧
      (e.oid = "2.5.29.15" → (e.allowsCertSign = true ↔ certType = "intermediate_ca"))

def basicDefault (certType : String) (requested : List Extension) : List Extension :=
  if (extensionForOid requested "2.5.29.19").isSome then []
  else if certType = "intermediate_ca" then [⟨.basicConstraints true (some 0), true⟩]
  else [⟨.basicConstraints false none, true⟩]

def usageDefault (certType : String) (requested : List Extension) : List Extension :=
  if (extensionForOid requested "2.5.29.15").isSome then []
  else if certType = "intermediate_ca" then [⟨.keyUsage caUsage, true⟩]
  else if certType = "server_cert" then [⟨.keyUsage serverUsage, true⟩]
  else []

def extendedDefault (certType : String) (requested : List Extension) : List Extension :=
  if (extensionForOid requested "2.5.29.37").isSome then []
  else if certType = "server_cert" then [⟨.extendedKeyUsage [.serverAuth], false⟩]
  else if certType = "usr_cert" ∨ certType = "client_cert" then
    [⟨.extendedKeyUsage [.clientAuth], false⟩]
  else if certType = "combined_server_client" ∨ certType = "combined_cert" then
    [⟨.extendedKeyUsage [.serverAuth, .clientAuth], false⟩]
  else []

section Builders

variable {b b' : CertificateBuilder} {value : ExtensionValue} {critical : Bool}
  {certType : String} {requested : List Extension}

theorem extensionForOid_eq_none {es : List Extension} {oid : String} :
    extensionForOid es oid = none ↔ oid ∉ es.map Extension.oid := by
  simp [extensionForOid]

theorem extensions_addExtension (h : b.addExtension value critical = .ok b') :
    b'.extensions = b.extensions ++ [⟨value, critical⟩] := by
  rw [CertificateBuilder.addExtension_spec h]

theorem nodup_addExtension (hb : (b.extensions.map Extension.oid).Nodup)
    (h : b.addExtension value critical = .ok b') : (b'.extensions.map Extension.oid).Nodup := by
  rw [extensions_addExtension h, List.map_append]
  unfold CertificateBuilder.addExtension at h
  split_ifs at h with hpresent
  rw [Option.not_isSome_iff_eq_none, extensionForOid_eq_none] at hpresent
  refine List.nodup_append.mpr ⟨hb, List.nodup_singleton _, ?_⟩
  intro oid hoid oid' hoid' hsame
  rw [List.map_singleton, List.mem_singleton] at hoid'
  rw [hsame, hoid'] at hoid
  exact hpresent hoid

theorem extensions_addBasicConstraints (h : addBasicConstraints certType requested b = .ok b') :
    b'.extensions = b.extensions ++ basicDefault certType requested := by
  unfold addBasicConstraints at h
  unfold basicDefault
  split_ifs at h ⊢
  · rw [← Except.ok.inj h, List.append_nil]
  · exact extensions_addExtension h
  · exact extensions_addExtension h

theorem extensions_addKeyUsage (h : addKeyUsage certType requested b = .ok b') :
    b'.extensions = b.extensions ++ usageDefault certType requested := by
  unfold addKeyUsage at h
  unfold usageDefault
  split_ifs at h ⊢
  · rw [← Except.ok.inj h, List.append_nil]
  · exact extensions_addExtension h
  · exact extensions_addExtension h
  · rw [← Except.ok.inj h, List.append_nil]

theorem extensions_addExtendedKeyUsage (h : addExtendedKeyUsage certType requested b = .ok b') :
    b'.extensions = b.extensions ++ extendedDefault certType requested := by
  unfold addExtendedKeyUsage at h
  unfold extendedDefault
  split_ifs at h ⊢
  · rw [← Except.ok.inj h, List.append_nil]
  · exact extensions_addExtension h
  · exact extensions_addExtension h
  · exact extensions_addExtension h
  · rw [← Except.ok.inj h, List.append_nil]

theorem nodup_addBasicConstraints (hb : (b.extensions.map Extension.oid).Nodup)
    (h : addBasicConstraints certType requested b = .ok b') :
    (b'.extensions.map Extension.oid).Nodup := by
  unfold addBasicConstraints at h
  split_ifs at h
  · exact Except.ok.inj h ▸ hb
  · exact nodup_addExtension hb h
  · exact nodup_addExtension hb h

theorem nodup_addKeyUsage (hb : (b.extensions.map Extension.oid).Nodup)
    (h : addKeyUsage certType requested b = .ok b') :
    (b'.extensions.map Extension.oid).Nodup := by
  unfold addKeyUsage at h
  split_ifs at h
  · exact Except.ok.inj h ▸ hb
  · exact nodup_addExtension hb h
  · exact nodup_addExtension hb h
  · exact Except.ok.inj h ▸ hb

theorem nodup_addExtendedKeyUsage (hb : (b.extensions.map Extension.oid).Nodup)
    (h : addExtendedKeyUsage certType requested b = .ok b') :
    (b'.extensions.map Extension.oid).Nodup := by
  unfold addExtendedKeyUsage at h
  split_ifs at h
  · exact Except.ok.inj h ▸ hb
  · exact nodup_addExtension hb h
  · exact nodup_addExtension hb h
  · exact nodup_addExtension hb h
  · exact Except.ok.inj h ▸ hb

end Builders

section Profiles

variable {csr : Csr} {caCert : X509} {caPrivateKey : PublicKey} {validityDays : ℤ}
  {certType : String} {serial : RandomSerial} {now : Time} {x : X509} {requested : List Extension}

theorem signCsr_extensions
    (h : signCsr csr caCert caPrivateKey validityDays certType serial now = .ok x) :
    x.extensions = csr.encodedExtensions ++ basicDefault certType csr.encodedExtensions ++
        usageDefault certType csr.encodedExtensions ++
        extendedDefault certType csr.encodedExtensions ∧
      (x.extensions.map Extension.oid).Nodup := by
  simp only [signCsr, bind_eq_ok] at h
  obtain ⟨_, _, requested, hrequested, b₁, hcopy, b₂, hbasic, b₃, husage, b₄, hextended, hsign⟩ := h
  obtain rfl := readExtensions_eq_ok hrequested
  obtain ⟨_, _, _, _, _, _, hext⟩ := CertificateBuilder.sign_spec hsign
  have hcopied : (b₁.extensions.map Extension.oid).Nodup := by
    refine foldlM_invariant
      (I := fun b : CertificateBuilder => (b.extensions.map Extension.oid).Nodup)
      (fun b e b' hb hadd => nodup_addExtension hb hadd) ?_ hcopy
    exact List.nodup_nil
  rw [hext]
  constructor
  · rw [extensions_addExtendedKeyUsage hextended, extensions_addKeyUsage husage,
      extensions_addBasicConstraints hbasic, extensions_of_copied hcopy, List.nil_append]
  · exact nodup_addExtendedKeyUsage
      (nodup_addKeyUsage (nodup_addBasicConstraints hcopied hbasic) husage) hextended

/-- What an extension of one kind can say is said by the request if it has one of the kind, and
by the default otherwise. -/
theorem any_append_iff {p : Extension → Bool} {oid : String} {added others : List Extension}
    {T : Prop} (hp : ∀ e, p e = true → e.oid = oid) (hnodup : (requested.map Extension.oid).Nodup)
    (hadded : added.any p = true ↔ oid ∉ requested.map Extension.oid ∧ T)
    (hothers : others.any p = false) :
    ((requested ++ added ++ others).any p = true ↔ T) ↔
      ∀ e ∈ requested, e.oid = oid → (p e = true ↔ T) := by
  have hany : (requested ++ added ++ others).any p = true ↔
      requested.any p = true ∨ oid ∉ requested.map Extension.oid ∧ T := by
    rw [List.any_append, List.any_append, hothers, Bool.or_false, Bool.or_eq_true, hadded]
  rw [hany]
  by_cases hpresent : oid ∈ requested.map Extension.oid
  · obtain ⟨e, he, hoid⟩ := List.mem_map.mp hpresent
    have hunique : ∀ e' ∈ requested, e'.oid = oid → e' = e := fun e' he' hoid' =>
      List.inj_on_of_nodup_map hnodup he' he (hoid'.trans hoid.symm)
    have hone : requested.any p = true ↔ p e = true := by
      rw [List.any_eq_true]
      constructor
      · rintro ⟨e', he', hpe⟩
        rw [← hunique e' he' (hp e' hpe)]
        exact hpe
      · exact fun hpe => ⟨e, he, hpe⟩
    rw [hone, or_iff_left fun h => h.1 hpresent]
    exact ⟨fun h e' he' hoid' => by rw [hunique e' he' hoid']; exact h, fun h => h e he hoid⟩
  · have hnone : ¬requested.any p = true := by
      rw [List.any_eq_true]
      rintro ⟨e, he, hpe⟩
      exact hpresent (List.mem_map.mpr ⟨e, he, hp e hpe⟩)
    rw [or_iff_right hnone, and_iff_right hpresent]
    refine iff_of_true Iff.rfl fun e he hoid => ?_
    exact absurd (List.mem_map.mpr ⟨e, he, hoid⟩) hpresent

theorem oid_of_makesCa {e : Extension} (h : e.makesCa = true) : e.oid = "2.5.29.19" := by
  unfold Extension.makesCa at h
  split at h
  next hvalue => rw [Extension.oid, hvalue]; rfl
  next => cases h

theorem oid_of_allowsCertSign {e : Extension} (h : e.allowsCertSign = true) :
    e.oid = "2.5.29.15" := by
  unfold Extension.allowsCertSign at h
  split at h
  next hvalue => rw [Extension.oid, hvalue]; rfl
  next => cases h

theorem any_basicDefault : (basicDefault certType requested).any Extension.makesCa = true ↔
    "2.5.29.19" ∉ requested.map Extension.oid ∧ certType = "intermediate_ca" := by
  rw [← extensionForOid_eq_none, ← Option.not_isSome_iff_eq_none]
  unfold basicDefault
  split_ifs with hpresent htype
  · simp [hpresent]
  · simp [hpresent, htype, Extension.makesCa]
  · simp [hpresent, htype, Extension.makesCa]

theorem any_usageDefault : (usageDefault certType requested).any Extension.allowsCertSign = true ↔
    "2.5.29.15" ∉ requested.map Extension.oid ∧ certType = "intermediate_ca" := by
  rw [← extensionForOid_eq_none, ← Option.not_isSome_iff_eq_none]
  unfold usageDefault
  split_ifs with hpresent htype hserver
  · simp [hpresent]
  · simp [hpresent, htype, Extension.allowsCertSign, caUsage]
  · simp [hpresent, htype, Extension.allowsCertSign, serverUsage]
  · simp [hpresent, htype]

theorem any_others {p : Extension → Bool} {oid : String} {es : List Extension}
    (hp : ∀ e, p e = true → e.oid = oid) (hes : ∀ e ∈ es, e.oid ≠ oid) : es.any p = false := by
  rw [List.any_eq_false]
  exact fun e he hpe => hes e he (hp e hpe)

theorem oid_basicDefault : ∀ e ∈ basicDefault certType requested, e.oid = "2.5.29.19" := by
  unfold basicDefault
  split_ifs <;> simp [Extension.oid, ExtensionValue.oid]

theorem oid_usageDefault : ∀ e ∈ usageDefault certType requested, e.oid = "2.5.29.15" := by
  unfold usageDefault
  split_ifs <;> simp [Extension.oid, ExtensionValue.oid]

theorem oid_extendedDefault : ∀ e ∈ extendedDefault certType requested, e.oid = "2.5.29.37" := by
  unfold extendedDefault
  split_ifs <;> simp [Extension.oid, ExtensionValue.oid]

/-- A certificate follows its type exactly if the request suits it. -/
theorem signCsr_followsType_iff
    (h : signCsr csr caCert caPrivateKey validityDays certType serial now = .ok x) :
    FollowsType certType x.extensions ↔ SuitsType certType csr.encodedExtensions := by
  obtain ⟨hext, hnodup⟩ := signCsr_extensions h
  have hrequested : (csr.encodedExtensions.map Extension.oid).Nodup := by
    rw [hext, List.append_assoc, List.append_assoc, List.map_append] at hnodup
    exact hnodup.of_append_left
  have hca : (x.extensions.any Extension.makesCa = true ↔ certType = "intermediate_ca") ↔
      ∀ e ∈ csr.encodedExtensions, e.oid = "2.5.29.19" →
        (e.makesCa = true ↔ certType = "intermediate_ca") := by
    rw [hext, List.append_assoc (csr.encodedExtensions ++ _)]
    refine any_append_iff (fun e => oid_of_makesCa) hrequested any_basicDefault
      (any_others (fun e => oid_of_makesCa) fun e he => ?_)
    rcases List.mem_append.mp he with he | he
    · rw [oid_usageDefault e he]
      decide
    · rw [oid_extendedDefault e he]
      decide
  have hsign : (x.extensions.any Extension.allowsCertSign = true ↔ certType = "intermediate_ca") ↔
      ∀ e ∈ csr.encodedExtensions, e.oid = "2.5.29.15" →
        (e.allowsCertSign = true ↔ certType = "intermediate_ca") := by
    -- the default basic constraints stand before the usage, and say nothing about it
    have hbasic : (basicDefault certType csr.encodedExtensions).any Extension.allowsCertSign =
        false := any_others (fun e => oid_of_allowsCertSign) fun e he => by
      rw [oid_basicDefault e he]
      decide
    have hswap : x.extensions.any Extension.allowsCertSign =
        (csr.encodedExtensions ++ usageDefault certType csr.encodedExtensions ++
          extendedDefault certType csr.encodedExtensions).any Extension.allowsCertSign := by
      simp only [hext, List.any_append, hbasic, Bool.or_false]
    rw [hswap]
    refine any_append_iff (fun e => oid_of_allowsCertSign) hrequested any_usageDefault
      (any_others (fun e => oid_of_allowsCertSign) fun e he => ?_)
    rw [oid_extendedDefault e he]
    decide
  constructor
  · rintro ⟨hfollowsCa, hfollowsSign, _⟩ e he
    exact ⟨hca.mp hfollowsCa e he, hsign.mp hfollowsSign e he⟩
  · intro hsuits
    exact ⟨hca.mpr fun e he => (hsuits e he).1, hsign.mpr fun e he => (hsuits e he).2, hnodup⟩

end Profiles

section Sample

def issuingKey : PublicKey := ⟨.rsa 2048, 1⟩

def issuingCert : X509 :=
  { serial := 1, subject := [⟨commonNameOid, "Root"⟩], issuer := [⟨commonNameOid, "Root"⟩]
    publicKey := issuingKey, signedBy := issuingKey, notBefore := 0, notAfter := days 3650
    extensions := [⟨.basicConstraints true none, true⟩] }

def requestFor (extensions : List Extension) : Csr where
  subject := [⟨commonNameOid, "www"⟩]
  publicKey := ⟨.rsa 2048, 2⟩
  isSignatureValid := true
  encodedExtensions := extensions

def plainServer : X509 where
  serial := 7
  subject := [⟨commonNameOid, "www"⟩]
  issuer := [⟨commonNameOid, "Root"⟩]
  publicKey := ⟨.rsa 2048, 2⟩
  signedBy := issuingKey
  notBefore := 0
  notAfter := days 397
  extensions := [⟨.basicConstraints false none, true⟩, ⟨.keyUsage serverUsage, true⟩,
    ⟨.extendedKeyUsage [.serverAuth], false⟩]

theorem plainServer_followsType_iff :
    FollowsType "server_cert" plainServer.extensions ↔
      SuitsType "server_cert" (requestFor []).encodedExtensions := by
  have hsigned : signCsr (requestFor []) issuingCert issuingKey 397 "server_cert" ⟨7, by decide⟩ 0 =
      .ok plainServer := by decide +kernel
  exact signCsr_followsType_iff hsigned

/-- A request for a server certificate that asks to be an authority becomes one. -/
theorem server_becomes_authority :
    ∃ x, signCsr (requestFor [⟨.basicConstraints true none, true⟩, ⟨.keyUsage caUsage, true⟩])
        issuingCert issuingKey 397 "server_cert" ⟨7, by decide⟩ 0 = .ok x ∧
      x.extensions.any Extension.makesCa = true ∧
      x.extensions.any Extension.allowsCertSign = true ∧
      ¬FollowsType "server_cert" x.extensions := by
  refine ⟨{ plainServer with extensions := [⟨.basicConstraints true none, true⟩,
    ⟨.keyUsage caUsage, true⟩, ⟨.extendedKeyUsage [.serverAuth], false⟩] }, by decide +kernel,
    by decide, by decide, fun h => ?_⟩
  exact absurd (h.makesCa_iff.mp (by decide)) (by decide)

end Sample

end TrustStoreService

end CaManager
