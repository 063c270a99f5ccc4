import CaManager.Library.Fallible
import CaManager.Store.Rows

/-!
# The trust store

Key generation, certificate creation and request signing. What is drawn at random and the
time of the call are arguments. A request is signed with its own extensions copied first;
basic constraints and usages are added only where the request has none.
-/

namespace CaManager

open Library

/-- What a call draws: a serial number, a fresh key, a row identifier, and the time. -/
structure Draw where
  serial : RandomSerial
  keyId : ℕ
  refid : String
  now : Time
  deriving Repr, DecidableEq

namespace TrustStoreService

/-- `KEY_TYPES` -/
def keyTypes : List (String × KeyKind) :=
  [("2048", .rsa 2048), ("3072", .rsa 3072), ("4096", .rsa 4096), ("8192", .rsa 8192),
   ("prime256v1", .ec "secp256r1"), ("secp384r1", .ec "secp384r1"),
   ("secp521r1", .ec "secp521r1")]

def generatePrivateKey (keyType : String) (keyId : ℕ) : Except PyError PublicKey :=
  match keyTypes.lookup keyType with
  | some kind => .ok ⟨kind, keyId⟩
  | none => .error (.valueError ("Unsupported key type: " ++ keyType))

def caUsage : KeyUsage := ⟨true, false, false, false, false, true, true, false, false⟩

def clientUsage : KeyUsage := ⟨true, true, true, false, false, false, false, false, false⟩

def serverUsage : KeyUsage := ⟨true, true, false, false, false, false, false, false, false⟩

/-- Key usage and extended usage by certificate type; unknown types are servers. -/
def usageExtensions (certType : String) : List Extension :=
  if certType = "ca_cert" then
    [⟨.keyUsage caUsage, true⟩]
  else if certType = "usr_cert" ∨ certType = "client_cert" then
    [⟨.keyUsage clientUsage, true⟩, ⟨.extendedKeyUsage [.clientAuth], false⟩]
  else if certType = "server_cert" then
    [⟨.keyUsage serverUsage, true⟩, ⟨.extendedKeyUsage [.serverAuth], false⟩]
  else if certType = "combined_server_client" ∨ certType = "combined_cert" then
    [⟨.keyUsage clientUsage, true⟩, ⟨.extendedKeyUsage [.serverAuth, .clientAuth], false⟩]
  else
    [⟨.keyUsage serverUsage, true⟩, ⟨.extendedKeyUsage [.serverAuth], false⟩]

structure SanLists where
  dns : List String := []
  ip : List String := []
  uri : List String := []
  email : List String := []
  deriving Repr, DecidableEq

def SanLists.names (san : SanLists) : List GeneralName :=
  san.dns.map .dns ++ san.ip.map .ip ++ san.uri.map .uri ++ san.email.map .email

def sanExtension (names : List GeneralName) : List Extension :=
  if names.isEmpty then [] else [⟨.subjectAlternativeName names, false⟩]

def createCertificate (subject : Name) (caCert : X509) (caPrivateKey : PublicKey)
    (certType : String) (validityDays : ℤ) (keyType : String) (san : SanLists)
    (ocspUri cdpUrl : Option String) (d : Draw) : Except PyError (X509 × KeyPem) := do
  let privateKey ← generatePrivateKey keyType d.keyId
  let isCa := decide (certType = "ca_cert")
  let builder : CertificateBuilder :=
    { subject, issuer := caCert.subject, publicKey := privateKey
      serial := d.serial.value
      notBefore := d.now, notAfter := d.now + days validityDays
      extensions :=
        [⟨.basicConstraints isCa (if isCa then some 0 else none), true⟩] ++
        usageExtensions certType ++ sanExtension san.names ++
        [⟨.subjectKeyIdentifier privateKey, false⟩,
         ⟨.authorityKeyIdentifier caPrivateKey, false⟩] ++
        (ocspUri.map fun url => (⟨.ocspAccess url, false⟩ : Extension)).toList ++
        (cdpUrl.map fun url => (⟨.crlDistributionPoint url, false⟩ : Extension)).toList }
  let certificate ← builder.sign caPrivateKey
  return (certificate, ⟨privateKey⟩)

/-- The certificate of a new authority: self-signed, or issued by a parent's name and key. -/
def createCaCertificate (subject : Name) (privateKey : PublicKey)
    (parent : Option (Name × PublicKey)) (validityDays : ℤ) (ocspUri : Option String)
    (serial : RandomSerial) (now : Time) : Except PyError X509 :=
  let (issuer, issuerPrivateKey) := parent.getD (subject, privateKey)
  let builder : CertificateBuilder :=
    { subject, issuer, publicKey := privateKey, serial := serial.value
      notBefore := now, notAfter := now + days validityDays
      extensions :=
        [⟨.basicConstraints true none, true⟩, ⟨.keyUsage caUsage, true⟩,
         ⟨.subjectKeyIdentifier privateKey, false⟩] ++
        (if issuer ≠ subject then [⟨.authorityKeyIdentifier issuerPrivateKey, false⟩] else []) ++
        (ocspUri.map fun url => (⟨.ocspAccess url, false⟩ : Extension)).toList }
  builder.sign issuerPrivateKey

def generateCsr (subject : Name) (keyType : String) (sanDns sanIp : List String) (keyId : ℕ) :
    Except PyError (Csr × KeyPem) := do
  let privateKey ← generatePrivateKey keyType keyId
  let names := sanDns.map GeneralName.dns ++ sanIp.map GeneralName.ip
  return ({ subject, publicKey := privateKey, isSignatureValid := true
            encodedExtensions := sanExtension names }, ⟨privateKey⟩)

/-- The subject a request is signed with: its own, or the first DNS name if it has none. -/
def signedSubject (subject : Name) (extensions : List Extension) : Name :=
  if subject.isEmpty then
    match extensionForOid extensions "2.5.29.17" with
    | some ⟨.subjectAlternativeName names, _⟩ =>
      match names.filterMap GeneralName.dnsName? with
      | name :: _ => [⟨commonNameOid, name⟩]
      | [] => subject
    | _ => subject
  else subject

def addBasicConstraints (certType : String) (requested : List Extension)
    (b : CertificateBuilder) : Except PyError CertificateBuilder :=
  if (extensionForOid requested "2.5.29.19").isSome then .ok b
  else if certType = "intermediate_ca" then b.addExtension (.basicConstraints true (some 0)) true
  else b.addExtension (.basicConstraints false none) true

def addKeyUsage (certType : String) (requested : List Extension)
    (b : CertificateBuilder) : Except PyError CertificateBuilder :=
  if (extensionForOid requested "2.5.29.15").isSome then .ok b
  else if certType = "intermediate_ca" then b.addExtension (.keyUsage caUsage) true
  else if certType = "server_cert" then b.addExtension (.keyUsage serverUsage) true
  else .ok b

def addExtendedKeyUsage (certType : String) (requested : List Extension)
    (b : CertificateBuilder) : Except PyError CertificateBuilder :=
  if (extensionForOid requested "2.5.29.37").isSome then .ok b
  else if certType = "server_cert" then b.addExtension (.extendedKeyUsage [.serverAuth]) false
  else if certType = "usr_cert" ∨ certType = "client_cert" then
    b.addExtension (.extendedKeyUsage [.clientAuth]) false
  else if certType = "combined_server_client" ∨ certType = "combined_cert" then
    b.addExtension (.extendedKeyUsage [.serverAuth, .clientAuth]) false
  else .ok b

def signCsr (csr : Csr) (caCert : X509) (caPrivateKey : PublicKey) (validityDays : ℤ)
    (certType : String) (serial : RandomSerial) (now : Time) : Except PyError X509 := do
  ensure (csr.isSignatureValid = true) (.valueError "CSR has invalid signature")
  let requested ← csr.extensions
  let builder : CertificateBuilder :=
    { subject := signedSubject csr.subject requested, issuer := caCert.subject
      publicKey := csr.publicKey, serial := serial.value
      notBefore := now, notAfter := now + days validityDays }
  let builder ← requested.foldlM (fun b e => b.addExtension e.value e.critical) builder
  let builder ← addBasicConstraints certType requested builder
  let builder ← addKeyUsage certType requested builder
  let builder ← addExtendedKeyUsage certType requested builder
  builder.sign caPrivateKey

section Signing

def SameTemplate (b b' : CertificateBuilder) : Prop :=
  b'.subject = b.subject ∧ b'.issuer = b.issuer ∧ b'.publicKey = b.publicKey ∧
    b'.serial = b.serial ∧ b'.notBefore = b.notBefore ∧ b'.notAfter = b.notAfter

theorem SameTemplate.refl (b : CertificateBuilder) : SameTemplate b b :=
  ⟨rfl, rfl, rfl, rfl, rfl, rfl⟩

theorem SameTemplate.trans {a b c : CertificateBuilder} (hab : SameTemplate a b)
    (hbc : SameTemplate b c) : SameTemplate a c := by
  obtain ⟨h₁, h₂, h₃, h₄, h₅, h₆⟩ := hab
  obtain ⟨k₁, k₂, k₃, k₄, k₅, k₆⟩ := hbc
  exact ⟨k₁.trans h₁, k₂.trans h₂, k₃.trans h₃, k₄.trans h₄, k₅.trans h₅, k₆.trans h₆⟩

theorem sameTemplate_of_addExtension {b b' : CertificateBuilder} {value : ExtensionValue}
    {critical : Bool} (h : b.addExtension value critical = .ok b') : SameTemplate b b' := by
  rw [CertificateBuilder.addExtension_spec h]
  exact SameTemplate.refl b

theorem sameTemplate_of_addBasicConstraints {certType : String} {requested : List Extension}
    {b b' : CertificateBuilder} (h : addBasicConstraints certType requested b = .ok b') :
    SameTemplate b b' := by
  unfold addBasicConstraints at h
  split_ifs at h
  · cases h
    exact SameTemplate.refl b
  · exact sameTemplate_of_addExtension h
  · exact sameTemplate_of_addExtension h

theorem sameTemplate_of_addKeyUsage {certType : String} {requested : List Extension}
    {b b' : CertificateBuilder} (h : addKeyUsage certType requested b = .ok b') :
    SameTemplate b b' := by
  unfold addKeyUsage at h
  split_ifs at h
  · cases h
    exact SameTemplate.refl b
  · exact sameTemplate_of_addExtension h
  · exact sameTemplate_of_addExtension h
  · cases h
    exact SameTemplate.refl b

theorem sameTemplate_of_addExtendedKeyUsage {certType : String} {requested : List Extension}
    {b b' : CertificateBuilder} (h : addExtendedKeyUsage certType requested b = .ok b') :
    SameTemplate b b' := by
  unfold addExtendedKeyUsage at h
  split_ifs at h
  · cases h
    exact SameTemplate.refl b
  · exact sameTemplate_of_addExtension h
  · exact sameTemplate_of_addExtension h
  · exact sameTemplate_of_addExtension h
  · cases h
    exact SameTemplate.refl b

/-- What every certificate the trust store issues has: the drawn serial number in the range
the builders accept, the authority's subject as issuer, and the authority's signature. -/
structure Issues (caCert : X509) (caPrivateKey : PublicKey) (serial : RandomSerial)
    (x : X509) : Prop where
  serial_eq : x.serial = serial.value
  serial_pos : 0 < x.serial
  serial_lt : x.serial < 2 ^ maxSerialBits
  issuer_eq : x.issuer = caCert.subject
  signedBy_eq : x.signedBy = caPrivateKey

theorem issues_of_sign {b : CertificateBuilder} {caCert : X509} {caPrivateKey : PublicKey}
    {serial : RandomSerial} {x : X509} (hserial : b.serial = serial.value)
    (hissuer : b.issuer = caCert.subject) (h : b.sign caPrivateKey = .ok x) :
    Issues caCert caPrivateKey serial x := by
  obtain ⟨hs, hpos, hlt, hi, _, hsigned, _⟩ := CertificateBuilder.sign_spec h
  exact ⟨hs.trans hserial, hpos, hlt, hi.trans hissuer, hsigned⟩

theorem createCertificate_issues {subject : Name} {caCert : X509} {caPrivateKey : PublicKey}
    {certType keyType : String} {validityDays : ℤ} {san : SanLists}
    {ocspUri cdpUrl : Option String} {d : Draw} {x : X509} {key : KeyPem}
    (h : createCertificate subject caCert caPrivateKey certType validityDays keyType san ocspUri
      cdpUrl d = .ok (x, key)) : Issues caCert caPrivateKey d.serial x := by
  simp only [createCertificate, bind_eq_ok, pure_eq_ok] at h
  obtain ⟨_, _, certificate, hsign, heq⟩ := h
  cases heq
  exact issues_of_sign rfl rfl hsign

theorem signCsr_issues {csr : Csr} {caCert : X509} {caPrivateKey : PublicKey} {validityDays : ℤ}
    {certType : String} {serial : RandomSerial} {now : Time} {x : X509}
    (h : signCsr csr caCert caPrivateKey validityDays certType serial now = .ok x) :
    Issues caCert caPrivateKey serial x := by
  simp only [signCsr, bind_eq_ok] at h
  obtain ⟨_, _, requested, _, b₁, hcopy, b₂, hbasic, b₃, husage, b₄, hextended, hsign⟩ := h
  have hcopied := foldlM_invariant (I := SameTemplate _)
    (fun b e b' hb hadd => hb.trans (sameTemplate_of_addExtension hadd)) (SameTemplate.refl _) hcopy
  have hall := ((hcopied.trans (sameTemplate_of_addBasicConstraints hbasic)).trans
    (sameTemplate_of_addKeyUsage husage)).trans (sameTemplate_of_addExtendedKeyUsage hextended)
  obtain ⟨_, hissuer, _, hserial, _, _⟩ := hall
  exact issues_of_sign hserial hissuer hsign

theorem publicKey_of_createCertificate {subject : Name} {caCert : X509} {caPrivateKey : PublicKey}
    {certType keyType : String} {validityDays : ℤ} {san : SanLists}
    {ocspUri cdpUrl : Option String} {d : Draw} {x : X509} {key : KeyPem}
    (h : createCertificate subject caCert caPrivateKey certType validityDays keyType san ocspUri
      cdpUrl d = .ok (x, key)) : key.publicKey = x.publicKey := by
  simp only [createCertificate, bind_eq_ok, pure_eq_ok, Prod.mk.injEq] at h
  obtain ⟨privateKey, _, certificate, hsign, rfl, rfl⟩ := h
  exact (CertificateBuilder.publicKey_of_sign hsign).symm

theorem createCaCertificate_spec {subject : Name} {privateKey : PublicKey}
    {parent : Option (Name × PublicKey)} {validityDays : ℤ} {ocspUri : Option String}
    {serial : RandomSerial} {now : Time} {x : X509}
    (h : createCaCertificate subject privateKey parent validityDays ocspUri serial now = .ok x) :
    x.publicKey = privateKey ∧ x.signedBy = (parent.getD (subject, privateKey)).2 := by
  obtain ⟨_, _, _, _, _, hsigned, _⟩ := CertificateBuilder.sign_spec h
  exact ⟨CertificateBuilder.publicKey_of_sign h, hsigned⟩

theorem publicKey_of_signCsr {csr : Csr} {caCert : X509} {caPrivateKey : PublicKey}
    {validityDays : ℤ} {certType : String} {serial : RandomSerial} {now : Time} {x : X509}
    (h : signCsr csr caCert caPrivateKey validityDays certType serial now = .ok x) :
    x.publicKey = csr.publicKey := by
  simp only [signCsr, bind_eq_ok] at h
  obtain ⟨_, _, requested, _, b₁, hcopy, b₂, hbasic, b₃, husage, b₄, hextended, hsign⟩ := h
  have hcopied := foldlM_invariant (I := SameTemplate _)
    (fun b e b' hb hadd => hb.trans (sameTemplate_of_addExtension hadd)) (SameTemplate.refl _) hcopy
  have hall := ((hcopied.trans (sameTemplate_of_addBasicConstraints hbasic)).trans
    (sameTemplate_of_addKeyUsage husage)).trans (sameTemplate_of_addExtendedKeyUsage hextended)
  obtain ⟨_, _, hkey, _⟩ := hall
  exact (CertificateBuilder.publicKey_of_sign hsign).trans hkey

theorem extensions_of_copied {requested : List Extension} {b b' : CertificateBuilder}
    (h : requested.foldlM (fun b e => b.addExtension e.value e.critical) b = .ok b') :
    b'.extensions = b.extensions ++ requested := by
  induction requested generalizing b with
  | nil => rw [pure_eq_ok.mp h, List.append_nil]
  | cons e requested ih =>
    rw [List.foldlM_cons, bind_eq_ok] at h
    obtain ⟨c, hc, hrest⟩ := h
    have hext : c.extensions = b.extensions ++ [e] := by
      rw [CertificateBuilder.addExtension_spec hc]
    rw [ih hrest, hext, List.append_assoc, List.singleton_append]

def IsPlain (e : Extension) : Prop :=
  (∀ names, e.value ≠ .subjectAlternativeName names) ∧
    ∀ pathLength, e.value ≠ .basicConstraints true pathLength

def AddsPlain (b b' : CertificateBuilder) : Prop :=
  ∃ added, b'.extensions = b.extensions ++ added ∧ ∀ e ∈ added, IsPlain e

theorem AddsPlain.refl (b : CertificateBuilder) : AddsPlain b b :=
  ⟨[], (List.append_nil _).symm, fun _ h => nomatch h⟩

theorem AddsPlain.trans {a b c : CertificateBuilder} (hab : AddsPlain a b) (hbc : AddsPlain b c) :
    AddsPlain a c := by
  obtain ⟨xs, hxs, hplain⟩ := hab
  obtain ⟨ys, hys, hplain'⟩ := hbc
  refine ⟨xs ++ ys, by rw [hys, hxs, List.append_assoc], ?_⟩
  intro e he
  exact (List.mem_append.mp he).elim (hplain e) (hplain' e)

theorem addsPlain_of_addExtension {b b' : CertificateBuilder} {value : ExtensionValue}
    {critical : Bool} (hplain : IsPlain ⟨value, critical⟩)
    (h : b.addExtension value critical = .ok b') : AddsPlain b b' := by
  refine ⟨[⟨value, critical⟩], by rw [CertificateBuilder.addExtension_spec h], ?_⟩
  intro e he
  rw [List.mem_singleton.mp he]
  exact hplain

theorem addsPlain_of_addBasicConstraints {certType : String} {requested : List Extension}
    {b b' : CertificateBuilder} (hca : certType ≠ "intermediate_ca")
    (h : addBasicConstraints certType requested b = .ok b') : AddsPlain b b' := by
  unfold addBasicConstraints at h
  split_ifs at h
  · cases h
    exact AddsPlain.refl b
  · exact addsPlain_of_addExtension (by simp [IsPlain]) h

theorem addsPlain_of_addKeyUsage {certType : String} {requested : List Extension}
    {b b' : CertificateBuilder} (h : addKeyUsage certType requested b = .ok b') :
    AddsPlain b b' := by
  unfold addKeyUsage at h
  split_ifs at h
  · cases h
    exact AddsPlain.refl b
  · exact addsPlain_of_addExtension (by simp [IsPlain]) h
  · exact addsPlain_of_addExtension (by simp [IsPlain]) h
  · cases h
    exact AddsPlain.refl b

theorem addsPlain_of_addExtendedKeyUsage {certType : String} {requested : List Extension}
    {b b' : CertificateBuilder} (h : addExtendedKeyUsage certType requested b = .ok b') :
    AddsPlain b b' := by
  unfold addExtendedKeyUsage at h
  split_ifs at h
  · cases h
    exact AddsPlain.refl b
  · exact addsPlain_of_addExtension (by simp [IsPlain]) h
  · exact addsPlain_of_addExtension (by simp [IsPlain]) h
  · exact addsPlain_of_addExtension (by simp [IsPlain]) h
  · cases h
    exact AddsPlain.refl b

/-- A signed request keeps its extensions and gets plain ones at most; its subject is its own,
or made of its first DNS name. -/
theorem signCsr_contents {csr : Csr} {caCert : X509} {caPrivateKey : PublicKey}
    {validityDays : ℤ} {certType : String} {serial : RandomSerial} {now : Time} {x : X509}
    (hca : certType ≠ "intermediate_ca")
    (h : signCsr csr caCert caPrivateKey validityDays certType serial now = .ok x) :
    ∃ requested added, csr.extensions = .ok requested ∧
      x.subject = signedSubject csr.subject requested ∧
      x.extensions = requested ++ added ∧ ∀ e ∈ added, IsPlain e := by
  simp only [signCsr, bind_eq_ok] at h
  obtain ⟨_, _, requested, hrequested, b₁, hcopy, b₂, hbasic, b₃, husage, b₄, hextended, hsign⟩ := h
  have hcopied := foldlM_invariant (I := SameTemplate _)
    (fun b e b' hb hadd => hb.trans (sameTemplate_of_addExtension hadd)) (SameTemplate.refl _) hcopy
  have hsame := ((hcopied.trans (sameTemplate_of_addBasicConstraints hbasic)).trans
    (sameTemplate_of_addKeyUsage husage)).trans (sameTemplate_of_addExtendedKeyUsage hextended)
  obtain ⟨added, hadded, hplain⟩ := ((addsPlain_of_addBasicConstraints hca hbasic).trans
    (addsPlain_of_addKeyUsage husage)).trans (addsPlain_of_addExtendedKeyUsage hextended)
  obtain ⟨_, _, _, _, hsubject, _, hext⟩ := CertificateBuilder.sign_spec hsign
  refine ⟨requested, added, hrequested, hsubject.trans hsame.1, ?_, hplain⟩
  rw [hext, hadded, extensions_of_copied hcopy, List.nil_append]

end Signing

end TrustStoreService

end CaManager
