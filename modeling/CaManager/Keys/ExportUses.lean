import CaManager.Keys.SigningUses
import CaManager.Mtls.UserCertificates
import CaManager.Store.Exports

/-!
# Exporting after encryption

What each export gives once all keys are encrypted, against what it gave before. The export
routes decrypt and agree always. The exports of the certificate service, and those of enrolled
certificates, decode the key column as it is; they agree exactly where they give out no key.
-/

namespace CaManager

open Library

namespace KeyTransparency

section Chains

variable {ε α : Type} {st : Store} {visit : CA → Except ε α}

theorem authorityOf_encryptedUnder (key : ℕ) (st : Store) (caref : Option String) :
    (st.encryptedUnder key).authorityOf caref =
      (st.authorityOf caref).map (CA.encryptKey (some key)) := by
  unfold Store.authorityOf
  cases caref.filter (· ≠ "") with
  | none => rfl
  | some refid => exact firstCa_encryptedUnder fun _ => rfl

theorem climb_encryptedUnder {key : ℕ} (hvisit : ∀ ca, visit (ca.encryptKey (some key)) = visit ca)
    (n : ℕ) (ca : Option CA) :
    climb (st.encryptedUnder key) visit n (ca.map (CA.encryptKey (some key))) =
      climb st visit n ca := by
  induction n generalizing ca with
  | zero => cases ca <;> rfl
  | succ n ih =>
    cases ca with
    | none => rfl
    | some ca =>
      have hcaref : (ca.encryptKey (some key)).caref = ca.caref := rfl
      simp only [Option.map_some, climb, hvisit, hcaref, authorityOf_encryptedUnder, ih]

theorem askedChain_encryptedUnder {key : ℕ}
    (hvisit : ∀ ca, visit (ca.encryptKey (some key)) = visit ca) (includeChain : Bool)
    (caref : Option String) :
    askedChain (st.encryptedUnder key) includeChain visit caref =
      askedChain st includeChain visit caref := by
  have hlength : (st.encryptedUnder key).cas.rows.length = st.cas.rows.length :=
    List.length_map _
  unfold askedChain chainOf
  rw [hlength, authorityOf_encryptedUnder, climb_encryptedUnder hvisit]

end Chains

section Rows

variable {st : Store} {key : ℕ}

theorem decryptedKey_encryptedUnder (h : st.keyEncryptionKey = none) {e : Encoded KeyPem}
    (hsealed : e.isSealed = false) (key : ℕ) :
    decryptedKey (st.encryptedUnder key) (if e.isSealed then e else e.encrypt (some key)) =
      decryptedKey st e := by
  unfold decryptedKey
  rw [keyEncryptionKey_encryptedUnder, h]
  cases e with
  | plain a => rfl
  | base64 a => simp [Encoded.isSealed, Encoded.encrypt, Encoded.decrypt]
  | sealed key' a => cases hsealed

variable {e : Routes.Exportable}

def encryptExported (key : ℕ) (e : Routes.Exportable) : Routes.Exportable :=
  { e with prv := KeyEncryption.encryptColumn (some key) e.prv }

theorem exportKey_encryptedUnder (h : st.keyEncryptionKey = none)
    (he : ∀ k ∈ e.prv, k.isSealed = false) (q : Routes.ExportQuery) :
    Routes.exportKey (st.encryptedUnder key) (encryptExported key e) q =
      Routes.exportKey st e q := by
  unfold Routes.exportKey encryptExported KeyEncryption.encryptColumn
  cases hprv : e.prv with
  | none => rfl
  | some k =>
    have hkey := decryptedKey_encryptedUnder h (he k hprv) key
    simp only [Option.map_some, orThrow_some, ok_bind, hkey]

theorem exportedKeyPart_encryptedUnder (h : st.keyEncryptionKey = none)
    (he : ∀ k ∈ e.prv, k.isSealed = false) (q : Routes.ExportQuery) :
    Routes.exportedKeyPart (st.encryptedUnder key) (encryptExported key e) q =
      Routes.exportedKeyPart st e q := by
  unfold Routes.exportedKeyPart encryptExported KeyEncryption.encryptColumn
  cases hprv : e.prv with
  | none => rfl
  | some k =>
    have hkey := decryptedKey_encryptedUnder h (he k hprv) key
    cases hasked : q.includeKey with
    | false => rfl
    | true => simp only [Option.map_some, Option.filter_some_pos, hkey]

theorem pkcs12Parts_encryptedUnder (h : st.keyEncryptionKey = none)
    (he : ∀ k ∈ e.prv, k.isSealed = false) (q : Routes.ExportQuery) (what : String) :
    Routes.pkcs12Parts (st.encryptedUnder key) (encryptExported key e) q what =
      Routes.pkcs12Parts st e q what := by
  unfold Routes.pkcs12Parts encryptExported KeyEncryption.encryptColumn
  cases hprv : e.prv with
  | none => rfl
  | some k =>
    have hkey := decryptedKey_encryptedUnder h (he k hprv) key
    simp only [Option.map_some, orThrow_some, ok_bind, hkey]

theorem exportRow_encryptedUnder (h : st.keyEncryptionKey = none)
    (he : ∀ k ∈ e.prv, k.isSealed = false) (q : Routes.ExportQuery) :
    Routes.exportRow (st.encryptedUnder key) (encryptExported key e) q =
      Routes.exportRow st e q := by
  have hbytes : ∀ b, askedChain (st.encryptedUnder key) b
      (certificateBytes : CA → Except Response _) e.caref = askedChain st b certificateBytes e.caref :=
    fun b => askedChain_encryptedUnder (fun _ => rfl) b e.caref
  have hloaded : ∀ b, askedChain (st.encryptedUnder key) b
      (fun ca => Routes.orFailed (loadCertificate ca.crt.bytes)) e.caref =
        askedChain st b (fun ca => Routes.orFailed (loadCertificate ca.crt.bytes)) e.caref :=
    fun b => askedChain_encryptedUnder (fun _ => rfl) b e.caref
  unfold Routes.exportRow Routes.exportPkcs12
  rw [exportKey_encryptedUnder h he, exportedKeyPart_encryptedUnder h he,
    pkcs12Parts_encryptedUnder h he, pkcs12Parts_encryptedUnder h he]
  simp only [encryptExported, hbytes, hloaded]

theorem exportCertificate_encryptedUnder (h : st.Unencrypted) (certId : ℕ)
    (q : Routes.ExportQuery) (mayWrite : Bool) :
    Routes.exportCertificate (st.encryptedUnder key) certId q mayWrite =
      Routes.exportCertificate st certId q mayWrite := by
  unfold Routes.exportCertificate
  rw [getCertificate_encryptedUnder]
  cases hrow : st.certificates.get? certId with
  | none => rfl
  | some c =>
    simp only [Option.map_some, Certificate.crt_encryptKey]
    cases c.crt with
    | none => rfl
    | some crt =>
      dsimp only
      split_ifs
      · rfl
      · exact exportRow_encryptedUnder
          (e := ⟨"Certificate", Routes.exportName c.descr c.refid, crt, c.prv, c.caref, true⟩)
          h.disabled (h.certificates c (Table.mem_of_get? hrow)) q

theorem exportCa_encryptedUnder (h : st.Unencrypted) (caId : ℕ) (q : Routes.ExportQuery)
    (mayWrite : Bool) :
    Routes.exportCa (st.encryptedUnder key) caId q mayWrite =
      Routes.exportCa st caId q mayWrite := by
  unfold Routes.exportCa
  rw [getCa_encryptedUnder]
  cases hrow : st.cas.get? caId with
  | none => rfl
  | some ca =>
    simp only [Option.map_some]
    split_ifs
    · rfl
    · exact exportRow_encryptedUnder
        (e := ⟨"CA", Routes.exportName ca.descr ca.refid, ca.crt, ca.prv, ca.caref, false⟩)
        h.disabled (h.cas ca (Table.mem_of_get? hrow)) q

end Rows

/-- A PKCS12 file of a stored certificate can be made with the key as it is stored. -/
def ExportsPkcs12 (st : Store) (certId : ℕ) (password : Option String) : Prop :=
  ∃ c crt, st.certificates.get? certId = some c ∧ c.crt = some crt ∧
    givenPassword password ≠ none ∧ crt.decoded ≠ none ∧ c.prv.bind Encoded.decoded ≠ none

/-- A PEM file of a stored certificate is made, with the key as it is stored. -/
def ExportsPem (st : Store) (certId : ℕ) (includeKey includeChain : Bool) : Prop :=
  ∃ c, st.certificates.get? certId = some c ∧ c.crt ≠ none ∧ includeKey = true ∧
    c.prv.bind Encoded.decoded ≠ none ∧
    askedChain st includeChain (certificateBytes : CA → Except PyError _) c.caref ≠ none

section Service

variable {st : Store} {key : ℕ}

theorem agrees_unchanged_iff {α : Type} {a b : α} :
    Agrees key (a, st.encryptedUnder key) (b, st) ↔ a = b := by
  refine ⟨fun h => h.1, ?_⟩
  rintro rfl
  exact agrees_unchanged key st a

theorem loadCertificate_bytes (crt : Encoded CertPem) :
    loadCertificate crt.bytes =
      orThrow (crt.decoded.map CertPem.leaf) (.unloadable "certificate") := by
  rw [loadCertificate, Encoded.load_bytes]

theorem pkcs12Of_encryptKey_iff (c : Certificate) (crt : Encoded CertPem)
    (password : Option String) :
    CertificateService.pkcs12Of (c.encryptKey (some key)) crt password =
        CertificateService.pkcs12Of c crt password ↔
      ¬(givenPassword password ≠ none ∧ crt.decoded ≠ none ∧ c.prv.bind Encoded.decoded ≠ none) := by
  unfold CertificateService.pkcs12Of TrustStoreService.exportPkcs12
  rw [loadCertificate_bytes]
  cases givenPassword password with
  | none => simp
  | some p =>
    cases crt.decoded with
    | none =>
      cases hprv : c.prv with
      | none => simp [Certificate.encryptKey, KeyEncryption.encryptColumn, hprv]
      | some e => simp [Certificate.encryptKey, KeyEncryption.encryptColumn, hprv]
    | some pem =>
      cases hprv : c.prv with
      | none => simp [Certificate.encryptKey, KeyEncryption.encryptColumn, hprv]
      | some e =>
        cases e with
        | plain a =>
          simp [Certificate.encryptKey, KeyEncryption.encryptColumn, hprv, Encoded.isSealed,
            Encoded.encrypt, Encoded.decoded]
        | sealed key' a =>
          simp [Certificate.encryptKey, KeyEncryption.encryptColumn, hprv, Encoded.isSealed,
            Encoded.decoded]
        | base64 a =>
          simp [Certificate.encryptKey, KeyEncryption.encryptColumn, hprv, Encoded.isSealed,
            Encoded.encrypt, Encoded.decoded, loadKey]

theorem agrees_exportCertificate_iff (key : ℕ) (st : Store) (certId : ℕ) (format : String)
    (password : Option String) :
    Agrees key
      (CertificateService.exportCertificate (st.encryptedUnder key) certId format password,
        st.encryptedUnder key)
      (CertificateService.exportCertificate st certId format password, st) ↔
      ¬(format = "pkcs12" ∧ ExportsPkcs12 st certId password) := by
  rw [agrees_unchanged_iff]
  unfold CertificateService.exportCertificate ExportsPkcs12
  rw [getCertificate_encryptedUnder]
  cases hrow : st.certificates.get? certId with
  | none => simp
  | some c =>
    simp only [Option.map_some, orThrow_some, ok_bind, Certificate.crt_encryptKey]
    cases hcrt' : c.crt with
    | none => simp [hcrt']
    | some crt =>
      simp only [orThrow_some, ok_bind]
      split_ifs with hpem hder hpkcs12
      · simp [hpem]
      · simp [hder]
      · rw [pkcs12Of_encryptKey_iff]
        refine not_congr ⟨fun h => ⟨hpkcs12, c, crt, rfl, hcrt', h⟩, ?_⟩
        rintro ⟨_, _, _, hc, hcrt'', h⟩
        cases hc
        cases hcrt'.symm.trans hcrt''
        exact h
      · simp [hpkcs12]

theorem keyPart_encryptKey_iff (key : ℕ) (includeKey : Bool) (c : Certificate) :
    CertificateService.keyPart includeKey (c.encryptKey (some key)) =
        CertificateService.keyPart includeKey c ↔
      ¬(includeKey = true ∧ c.prv.bind Encoded.decoded ≠ none) := by
  unfold CertificateService.keyPart Certificate.encryptKey KeyEncryption.encryptColumn
  cases includeKey with
  | false => cases c.prv <;> simp
  | true =>
    cases c.prv with
    | none => simp
    | some e =>
      cases e with
      | plain a => simp [Encoded.isSealed, Encoded.encrypt, Encoded.decoded]
      | base64 a =>
        simp [Encoded.isSealed, Encoded.encrypt, Encoded.decoded, Encoded.bytes, Option.filter]
      | sealed key' a => simp [Encoded.isSealed, Encoded.decoded]

theorem climb_certificateBytes (st : Store) (n : ℕ) (ca : Option CA) :
    climb st (certificateBytes : CA → Except PyError _) n ca = none ∨
      ∃ chain, climb st (certificateBytes : CA → Except PyError _) n ca = some (.ok chain) := by
  induction n generalizing ca with
  | zero =>
    cases ca with
    | none => exact .inr ⟨[], rfl⟩
    | some ca => exact .inl rfl
  | succ n ih =>
    cases ca with
    | none => exact .inr ⟨[], rfl⟩
    | some ca =>
      rcases ih (st.authorityOf ca.caref) with h | ⟨chain, h⟩
      · exact .inl (by simp [climb, certificateBytes, h])
      · exact .inr ⟨ca.crt.bytes :: chain, by simp [climb, certificateBytes, h]⟩

theorem askedChain_certificateBytes (st : Store) (includeChain : Bool) (caref : Option String) :
    askedChain st includeChain (certificateBytes : CA → Except PyError _) caref = none ∨
      ∃ chain,
        askedChain st includeChain (certificateBytes : CA → Except PyError _) caref =
          some (.ok chain) := by
  unfold askedChain
  split_ifs
  · exact climb_certificateBytes st _ _
  · exact .inr ⟨[], rfl⟩

theorem agrees_exportWithOptions_iff (key : ℕ) (st : Store) (certId : ℕ) (format : String)
    (includeKey includeChain : Bool) (password : Option String) :
    Agrees key
      (CertificateService.exportCertificateWithOptions (st.encryptedUnder key) certId format
        includeKey includeChain password, st.encryptedUnder key)
      (CertificateService.exportCertificateWithOptions st certId format includeKey includeChain
        password, st) ↔
      ¬(format = "pkcs12" ∧ ExportsPkcs12 st certId password) ∧
        ¬(format = "pem" ∧ ExportsPem st certId includeKey includeChain) := by
  rw [agrees_unchanged_iff]
  unfold CertificateService.exportCertificateWithOptions ExportsPkcs12 ExportsPem
  rw [getCertificate_encryptedUnder]
  cases hrow : st.certificates.get? certId with
  | none => simp
  | some c =>
    simp only [Option.map_some, Certificate.crt_encryptKey]
    cases hcrt' : c.crt with
    | none => simp [hcrt']
    | some crt =>
      dsimp only
      split_ifs with hpkcs12 hder hpem
      · rw [Option.some.injEq, pkcs12Of_encryptKey_iff]
        simp [hpkcs12, hcrt']
      · simp [hder]
      · rw [Certificate.caref_encryptKey, askedChain_encryptedUnder fun _ => rfl]
        simp only [hpem, true_and, withChain]
        have hkey := keyPart_encryptKey_iff key includeKey c
        rcases askedChain_certificateBytes st includeChain c.caref with h | ⟨chain, h⟩
        · simp [h]
        · simpa [h, hcrt', hpkcs12] using hkey
      · simp [hpkcs12, hpem]

end Service

/-- The formats of the export of enrolled certificates that are PKCS12 files. -/
def givesPkcs12 (formats : List String) (format password : String) (c : Certificate) : Prop :=
  format ∈ formats ∧ 8 ≤ password.length ∧ c.crt.bind Encoded.decoded ≠ none

def ExportsEnrolled (s : MtlsState) (user : User) (certId : ℕ) (format password : String)
    (includeKey : Bool) : Prop :=
  user.role ≠ "auditor" ∧ ∃ a c, s.accounts.authCertificates.get? certId = some a ∧
    (Mtls.seesAll user = true ∨ a.userId = user.id) ∧
    s.store.certificateBySerial a.certSerial = some c ∧ c.crt ≠ none ∧
    c.prv.bind Encoded.decoded ≠ none ∧
    (givesPkcs12 ["pkcs12", "p12", "pfx"] format password c ∨
      (format ∉ ["pkcs12", "p12", "pfx"] ∧ includeKey = true))

def DownloadsEnrolled (s : MtlsState) (user : User) (certId : ℕ) (format password : String) :
    Prop :=
  ∃ a c, s.accounts.authCertificates.get? certId = some a ∧
    (a.userId = user.id ∨ user.role = "admin") ∧
    s.store.certificateBySerial a.certSerial = some c ∧ c.crt ≠ none ∧
    c.prv.bind Encoded.decoded ≠ none ∧ givesPkcs12 ["p12", "pkcs12"] format password c

def encryptMtls (key : ℕ) (s : MtlsState) : MtlsState :=
  { s with store := s.store.encryptedUnder key }

section Enrolled

variable {key : ℕ}

theorem certificateBySerial_encryptedUnder (key : ℕ) (st : Store) (serial : String) :
    (st.encryptedUnder key).certificateBySerial serial =
      (st.certificateBySerial serial).map (Certificate.encryptKey (some key)) :=
  firstCertificate_encryptedUnder fun _ => rfl

theorem pkcs12Parts_encryptKey (key : ℕ) (c : Certificate) :
    Mtls.pkcs12Parts (c.encryptKey (some key)) = none := by
  unfold Mtls.pkcs12Parts Certificate.encryptKey KeyEncryption.encryptColumn
  cases c.crt with
  | none => rfl
  | some crt =>
    cases c.prv with
    | none => rfl
    | some e => cases e <;> simp [Encoded.isSealed, Encoded.encrypt, Encoded.decoded]

theorem pkcs12Parts_ne_none_iff (c : Certificate) :
    Mtls.pkcs12Parts c ≠ none ↔
      c.crt.bind Encoded.decoded ≠ none ∧ c.prv.bind Encoded.decoded ≠ none := by
  unfold Mtls.pkcs12Parts
  cases c.crt with
  | none => simp
  | some crt =>
    cases c.prv with
    | none => simp
    | some e => cases hcrt : crt.decoded <;> cases hprv : e.decoded <;> simp [hcrt, hprv]

theorem exportPkcs12_encryptKey_iff (c : Certificate) (chain : Option String) (password : String)
    (shortPassword noKey failed : Refusal) :
    Mtls.exportPkcs12 (c.encryptKey (some key)) chain password shortPassword noKey failed =
        Mtls.exportPkcs12 c chain password shortPassword noKey failed ↔
      ¬(8 ≤ password.length ∧ c.crt.bind Encoded.decoded ≠ none ∧
        c.prv.bind Encoded.decoded ≠ none) := by
  have hprv : (c.encryptKey (some key)).prv.isSome = c.prv.isSome :=
    KeyEncryption.isSome_encryptColumn _ _
  unfold Mtls.exportPkcs12
  simp only [hprv, pkcs12Parts_encryptKey, bind_eq_bind_iff, ensure_eq_ok, orThrow_none, error_bind]
  rw [← pkcs12Parts_ne_none_iff]
  cases hparts : Mtls.pkcs12Parts c with
  | none => simp
  | some parts =>
    have hsome : c.prv.isSome = true := by
      have h := ((pkcs12Parts_ne_none_iff c).mp (by simp [hparts])).2
      cases hc : c.prv with
      | none => simp [hc] at h
      | some e => rfl
    simp [hsome]

theorem map_bytes_encryptKey_iff (includeKey : Bool) (c : Certificate) :
    ((c.encryptKey (some key)).prv.filter fun _ => includeKey).map Encoded.bytes =
        (c.prv.filter fun _ => includeKey).map Encoded.bytes ↔
      ¬(c.prv.bind Encoded.decoded ≠ none ∧ includeKey = true) := by
  unfold Certificate.encryptKey KeyEncryption.encryptColumn
  cases includeKey with
  | false => cases c.prv <;> simp
  | true =>
    cases c.prv with
    | none => simp
    | some e =>
      cases e with
      | plain a => simp [Encoded.isSealed, Encoded.encrypt, Encoded.decoded]
      | base64 a =>
        simp [Encoded.isSealed, Encoded.encrypt, Encoded.decoded, Encoded.bytes, Option.filter]
      | sealed key' a => simp [Encoded.isSealed, Encoded.decoded]

theorem exportEnrolledRow_iff (c : Certificate) (crt : Encoded CertPem) (chain : Option String)
    (formats : List String) (format password : String) (includeKey : Bool)
    (shortPassword noKey failed : Refusal) :
    (if format ∈ formats then
        Mtls.exportPkcs12 (c.encryptKey (some key)) chain password shortPassword noKey failed
      else
        .ok { certId := c.id, certificate := crt.bytes
              key := ((c.encryptKey (some key)).prv.filter fun _ => includeKey).map Encoded.bytes
              chain, password := none }) =
      (if format ∈ formats then
        Mtls.exportPkcs12 c chain password shortPassword noKey failed
      else
        .ok { certId := c.id, certificate := crt.bytes
              key := (c.prv.filter fun _ => includeKey).map Encoded.bytes, chain
              password := none }) ↔
      ¬(c.prv.bind Encoded.decoded ≠ none ∧
        (givesPkcs12 formats format password c ∨ (format ∉ formats ∧ includeKey = true))) := by
  unfold givesPkcs12
  split_ifs with hformat
  · rw [exportPkcs12_encryptKey_iff]
    simp only [hformat, not_true_eq_false, true_and, false_and, or_false]
    exact not_congr ⟨fun h => ⟨h.2.2, h.1, h.2.1⟩, fun h => ⟨h.2.1, h.2.2, h.1⟩⟩
  · simp only [Except.ok.injEq, Mtls.Exported.mk.injEq, true_and, and_true,
      map_bytes_encryptKey_iff, hformat, not_false_eq_true, false_and, false_or]

theorem exportUserCertificate_iff (key : ℕ) (s : MtlsState) (user : User) (certId : ℕ)
    (format password : String) (includeKey includeChain : Bool) :
    Mtls.exportUserCertificate (encryptMtls key s) user certId format password includeKey
        includeChain =
        Mtls.exportUserCertificate s user certId format password includeKey includeChain ↔
      ¬ExportsEnrolled s user certId format password includeKey := by
  unfold Mtls.exportUserCertificate encryptMtls ExportsEnrolled
  simp only [certificateBySerial_encryptedUnder, orThrow_map_bind, Certificate.crt_encryptKey,
    bind_eq_bind_iff, ensure_eq_ok, orThrow_eq_ok]
  constructor
  · rintro h ⟨hrole, a, c, ha, hsees, hc, hcrt, hkey, hgives⟩
    obtain ⟨crt, hcrt⟩ := Option.ne_none_iff_exists'.mp hcrt
    have hsame := h () hrole a ha () hsees c hc crt hcrt
    exact (exportEnrolledRow_iff c crt _ _ format password includeKey _ _ _).mp hsame
      ⟨hkey, hgives⟩
  · intro h _ hrole a ha _ hsees c hc crt hcrt
    refine (exportEnrolledRow_iff c crt _ _ format password includeKey _ _ _).mpr fun hgives => ?_
    exact h ⟨hrole, a, c, ha, hsees, hc, by simp [hcrt], hgives⟩

theorem downloadMtlsCertificate_iff (key : ℕ) (s : MtlsState) (user : User) (certId : ℕ)
    (format password : String) :
    Mtls.downloadMtlsCertificate (encryptMtls key s) user certId format password =
        Mtls.downloadMtlsCertificate s user certId format password ↔
      ¬DownloadsEnrolled s user certId format password := by
  unfold Mtls.downloadMtlsCertificate encryptMtls DownloadsEnrolled
  simp only [certificateBySerial_encryptedUnder, orThrow_map_bind, Certificate.crt_encryptKey,
    bind_eq_bind_iff, orThrow_eq_ok]
  constructor
  · rintro h ⟨a, c, ha, howner, hc, hcrt, hkey, hformat, hlength, hcert⟩
    obtain ⟨crt, hcrt⟩ := Option.ne_none_iff_exists'.mp hcrt
    have hfound : ((s.accounts.authCertificates.get? certId).filter fun a =>
        a.userId = user.id || user.role = "admin") = some a := by
      simp [ha, howner]
    have hsame := h a hfound c hc crt hcrt
    rw [if_pos hformat, if_pos hformat] at hsame
    exact (exportPkcs12_encryptKey_iff c _ password _ _ _).mp hsame ⟨hlength, hcert, hkey⟩
  · intro h a hfound c hc crt hcrt
    obtain ⟨ha, howner⟩ := Option.filter_eq_some_iff.mp hfound
    split_ifs with hformat
    · refine (exportPkcs12_encryptKey_iff c _ password _ _ _).mpr ?_
      rintro ⟨hlength, hcert, hkey⟩
      exact h ⟨a, c, ha, by simpa using howner, hc, by simp [hcrt], hkey, hformat, hlength, hcert⟩
    · rfl

end Enrolled

end KeyTransparency

end CaManager
