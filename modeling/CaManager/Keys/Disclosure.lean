import CaManager.Keys.Handouts
import CaManager.Library.Erasure

/-!
# Disclosure of private keys

Who may not write certificates nor authorities is not to learn anything of a stored key, but for the
certificates that he enrolled himself: the answer stays the same when the contents of the keys
change. The exports of certificates and authorities ask for the permission to write. The exports of
enrolled certificates ask for the role instead, which a key with few permissions still has; the
database is exported with its columns; and a list that is not there yet is signed with the key.
-/

namespace CaManager

open Library

section Overwriting

def CA.withKey (key : Encoded KeyPem) (ca : CA) : CA :=
  { ca with prv := ca.prv.map fun _ => key }

def Certificate.withKey (key : Encoded KeyPem) (c : Certificate) : Certificate :=
  { c with prv := c.prv.map fun _ => key }

def Store.withKeys (key : Encoded KeyPem) (st : Store) : Store :=
  { st with
    cas := st.cas.map (CA.withKey key) fun _ _ => rfl
    certificates := st.certificates.map (Certificate.withKey key) fun _ _ => rfl }

variable {key : Encoded KeyPem} {st : Store}

@[simp]
theorem CA.withKey_withKey (key key' : Encoded KeyPem) (ca : CA) :
    (ca.withKey key').withKey key = ca.withKey key := by
  unfold CA.withKey
  simp [Function.comp_def]

@[simp]
theorem Certificate.withKey_withKey (key key' : Encoded KeyPem) (c : Certificate) :
    (c.withKey key').withKey key = c.withKey key := by
  unfold Certificate.withKey
  simp [Function.comp_def]

theorem Store.withKeys_withKeys (key key' : Encoded KeyPem) (st : Store) :
    (st.withKeys key').withKeys key = st.withKeys key := by
  have hcas : (st.withKeys key').cas.map (CA.withKey key) (fun _ _ => rfl) =
      st.cas.map (CA.withKey key) fun _ _ => rfl := by
    apply Table.ext_rows
    change (st.cas.rows.map _).map _ = st.cas.rows.map _
    rw [List.map_map]
    exact List.map_congr_left fun ca _ => CA.withKey_withKey key key' ca
  have hcertificates :
      (st.withKeys key').certificates.map (Certificate.withKey key) (fun _ _ => rfl) =
        st.certificates.map (Certificate.withKey key) fun _ _ => rfl := by
    apply Table.ext_rows
    change (st.certificates.rows.map _).map _ = st.certificates.rows.map _
    rw [List.map_map]
    exact List.map_congr_left fun c _ => Certificate.withKey_withKey key key' c
  exact congrArg₂ (Store.mk · · st.crls st.ocspResponses st.keyEncryptionKey) hcas hcertificates

theorem Store.getCa_withKeys (caId : ℕ) :
    (st.withKeys key).cas.get? caId = (st.cas.get? caId).map (CA.withKey key) :=
  Table.get?_map fun _ _ => rfl

theorem Store.getCertificate_withKeys (certId : ℕ) : (st.withKeys key).certificates.get? certId =
    (st.certificates.get? certId).map (Certificate.withKey key) :=
  Table.get?_map fun _ _ => rfl

theorem Store.certificateBySerial_withKeys (serial : String) :
    (st.withKeys key).certificateBySerial serial =
      (st.certificateBySerial serial).map (Certificate.withKey key) :=
  Table.first_map (fun _ _ => rfl) fun _ => rfl

theorem Store.selectCertificates_withKeys {p : Certificate → Bool} (hp : ∀ c, p (c.withKey key) = p c) :
    (st.withKeys key).certificates.select p =
      (st.certificates.select p).map (Certificate.withKey key) :=
  Table.select_map (fun _ _ => rfl) hp

theorem Store.selectCas_withKeys {p : CA → Bool} (hp : ∀ ca, p (ca.withKey key) = p ca) :
    (st.withKeys key).cas.select p = (st.cas.select p).map (CA.withKey key) :=
  Table.select_map (fun _ _ => rfl) hp

theorem Store.authorityOf_withKeys (caref : Option String) : (st.withKeys key).authorityOf caref =
    (st.authorityOf caref).map (CA.withKey key) := by
  unfold Store.authorityOf
  cases caref.filter (· ≠ "") with
  | none => rfl
  | some refid => exact Table.first_map (fun _ _ => rfl) fun _ => rfl

@[simp]
theorem Certificate.toDict_withKey (c : Certificate) :
    (c.withKey key).toDict false = c.toDict false := by
  unfold Certificate.toDict Certificate.withKey
  simp

@[simp]
theorem CA.hasPrivateKey_withKey (ca : CA) : (ca.withKey key).hasPrivateKey = ca.hasPrivateKey := by
  unfold CA.hasPrivateKey CA.withKey
  simp

theorem CA.toDict_withKey (ca : CA) :
    (ca.withKey key).toDict (st.withKeys key) false = ca.toDict st false := by
  have hissued : ((st.withKeys key).certificates.select fun c => c.caref = some ca.refid).length =
      (st.certificates.select fun c => c.caref = some ca.refid).length := by
    rw [Store.selectCertificates_withKeys fun _ => rfl, List.length_map]
  have hparent : ((st.withKeys key).authorityOf ca.caref).map CA.id =
      (st.authorityOf ca.caref).map CA.id := by
    rw [Store.authorityOf_withKeys, Option.map_map]
    rfl
  unfold CA.toDict
  rw [CA.hasPrivateKey_withKey]
  change CaDict.mk _ _ _ _ _ (((st.withKeys key).authorityOf ca.caref).map CA.id) _ _ _ _ _ _ _ _
    ((st.withKeys key).certificates.select fun c => c.caref = some ca.refid).length _ _ _ _ _ _ _ _
    = _
  rw [hissued, hparent]
  rfl

end Overwriting

namespace Handouts

section Exports

variable {key : Encoded KeyPem} {st : Store} {q : Routes.ExportQuery}

theorem climb_withKeys {ε α : Type} {visit : CA → Except ε α}
    (hvisit : ∀ ca, visit (ca.withKey key) = visit ca) (n : ℕ) (ca : Option CA) :
    climb (st.withKeys key) visit n (ca.map (CA.withKey key)) = climb st visit n ca := by
  induction n generalizing ca with
  | zero => cases ca <;> rfl
  | succ n ih =>
    cases ca with
    | none => rfl
    | some ca =>
      have hcaref : (ca.withKey key).caref = ca.caref := rfl
      simp only [Option.map_some, climb, hvisit, hcaref, Store.authorityOf_withKeys, ih]

theorem askedChain_withKeys {ε α : Type} {visit : CA → Except ε α}
    (hvisit : ∀ ca, visit (ca.withKey key) = visit ca) (includeChain : Bool)
    (caref : Option String) :
    askedChain (st.withKeys key) includeChain visit caref = askedChain st includeChain visit caref := by
  have hlength : (st.withKeys key).cas.rows.length = st.cas.rows.length := List.length_map _
  unfold askedChain chainOf
  rw [hlength, Store.authorityOf_withKeys, climb_withKeys hvisit]

theorem exportRow_withKeys {e : Routes.Exportable} (hq : ¬Routes.givesKey q)
    (prv : Option (Encoded KeyPem)) :
    Routes.exportRow (st.withKeys key) { e with prv } q = Routes.exportRow st e q := by
  obtain ⟨hincluded, hformat⟩ := not_or.mp hq
  have hnokey (st : Store) (e : Routes.Exportable) : Routes.exportedKeyPart st e q = .ok [] := by
    unfold Routes.exportedKeyPart
    have hfilter : (e.prv.filter fun _ => q.includeKey) = none := by
      rw [Bool.eq_false_of_not_eq_true hincluded]
      exact Option.filter_eq_none_iff.mpr fun _ _ => Bool.false_ne_true
    rw [hfilter]
  simp only [List.mem_cons, List.not_mem_nil, or_false, not_or] at hformat
  obtain ⟨hpkcs12, hpfx, hkey⟩ := hformat
  unfold Routes.exportRow
  rw [if_neg hkey, if_neg hkey, hnokey, hnokey, if_neg hpkcs12, if_neg hpkcs12, if_neg hpfx,
    if_neg hpfx, askedChain_withKeys fun _ => rfl]

theorem exportCertificate_withKeys (certId : ℕ) :
    Routes.exportCertificate (st.withKeys key) certId q false =
      Routes.exportCertificate st certId q false := by
  unfold Routes.exportCertificate
  rw [Store.getCertificate_withKeys]
  cases st.certificates.get? certId with
  | none => rfl
  | some c =>
    cases hcrt : c.crt with
    | none => simp [Certificate.withKey, hcrt]
    | some crt =>
      simp only [Option.map_some, Certificate.withKey, hcrt]
      split_ifs with hgives
      · rfl
      · exact exportRow_withKeys (e := ⟨"Certificate", Routes.exportName c.descr c.refid, crt, c.prv,
          c.caref, true⟩) (by simpa using hgives) _

theorem exportCa_withKeys (caId : ℕ) :
    Routes.exportCa (st.withKeys key) caId q false = Routes.exportCa st caId q false := by
  unfold Routes.exportCa
  rw [Store.getCa_withKeys]
  cases st.cas.get? caId with
  | none => rfl
  | some ca =>
    simp only [Option.map_some]
    split_ifs with hgives
    · rfl
    · exact exportRow_withKeys (e := ⟨"CA", Routes.exportName ca.descr ca.refid, ca.crt, ca.prv,
        ca.caref, false⟩) (by simpa using hgives) _

end Exports

section Pages

variable {key : Encoded KeyPem} {st : Store}

theorem getCertificate_answer_withKeys (certId : ℕ) :
    getCertificate (st.withKeys key) certId = getCertificate st certId := by
  unfold getCertificate
  rw [Store.getCertificate_withKeys]
  cases st.certificates.get? certId with
  | none => rfl
  | some c =>
    have hauthorities : ((st.withKeys key).cas.rows.map fun ca => ca.toDict (st.withKeys key) false) =
        st.cas.rows.map fun ca => ca.toDict st false := by
      change (st.cas.rows.map (CA.withKey key)).map _ = _
      rw [List.map_map]
      exact List.map_congr_left fun ca _ => CA.toDict_withKey ca
    simp only [Option.map_some, Certificate.toDict_withKey, hauthorities]

theorem getCa_answer_withKeys (caId : ℕ) : getCa (st.withKeys key) caId = getCa st caId := by
  unfold getCa
  rw [Store.getCa_withKeys]
  cases st.cas.get? caId with
  | none => rfl
  | some ca =>
    have hrows : ((st.withKeys key).certificates.rows.map fun c => c.toDict false) =
        st.certificates.rows.map fun c => c.toDict false := by
      change (st.certificates.rows.map (Certificate.withKey key)).map _ = _
      rw [List.map_map]
      exact List.map_congr_left fun c _ => Certificate.toDict_withKey c
    have hcrl : CRLService.latestBase (st.withKeys key) caId = CRLService.latestBase st caId := rfl
    simp only [Option.map_some, CA.toDict_withKey, hrows, hcrl]

theorem getCsr_withKeys (csrId : ℕ) : getCsr (st.withKeys key) csrId = getCsr st csrId := by
  unfold getCsr
  rw [Store.getCertificate_withKeys]
  cases st.certificates.get? csrId with
  | none => rfl
  | some c =>
    have hcsr : (c.withKey key).csr = c.csr := rfl
    simp only [Option.map_some, hcsr, Certificate.toDict_withKey]

theorem exportCsr_withKeys (csrId : ℕ) : exportCsr (st.withKeys key) csrId = exportCsr st csrId := by
  unfold exportCsr
  rw [Store.getCertificate_withKeys, Option.bind_map]
  rfl

theorem certificates_withKeys (rows : List Certificate) :
    (rows.map (Certificate.withKey key)).filterMap Certificate.crt =
      rows.filterMap Certificate.crt := by
  rw [List.filterMap_map]
  rfl

theorem authorities_withKeys (rows : List CA) :
    (rows.map (CA.withKey key)).map CA.crt = rows.map CA.crt := by
  rw [List.map_map]
  rfl

theorem exportAllCertificates_withKeys (format : String) :
    exportAllCertificates (st.withKeys key) format = exportAllCertificates st format := by
  unfold exportAllCertificates
  exact congrArg (bundleOf · _ _ _) (certificates_withKeys st.certificates.rows)

theorem bulkExportCertificates_withKeys (ids : List ℕ) (format : String) :
    bulkExportCertificates (st.withKeys key) ids format = bulkExportCertificates st ids format := by
  unfold bulkExportCertificates
  rw [Store.selectCertificates_withKeys fun _ => rfl, certificates_withKeys]

theorem exportAllCas_withKeys (format : String) :
    exportAllCas (st.withKeys key) format = exportAllCas st format := by
  unfold exportAllCas
  exact congrArg (bundleOf · _ _ _) (authorities_withKeys st.cas.rows)

theorem bulkExportCas_withKeys (ids : List ℕ) (format : String) :
    bulkExportCas (st.withKeys key) ids format = bulkExportCas st ids format := by
  unfold bulkExportCas
  rw [Store.selectCas_withKeys fun _ => rfl, authorities_withKeys]

theorem getUserCertificate_withKeys (s : MtlsState) (user : User) (certId : ℕ) :
    getUserCertificate { s with store := s.store.withKeys key } user certId =
      getUserCertificate s user certId := by
  unfold getUserCertificate
  cases s.accounts.authCertificates.get? certId with
  | none => rfl
  | some a =>
    dsimp only
    rw [Store.certificateBySerial_withKeys, Option.map_map]
    have hdict : (fun c : Certificate => c.toDict false) ∘ Certificate.withKey key =
        fun c => c.toDict false := funext fun c => Certificate.toDict_withKey c
    rw [hdict]

end Pages

section Enrolled

variable {key : Encoded KeyPem} {s : MtlsState} {user : User} {c : Certificate} {k : KeyPem}
  {chain : Option String} {password : String} {shortPassword noKey failed : Refusal}

def MakesPkcs12 (c : Certificate) (password : String) : Prop :=
  8 ≤ password.length ∧ c.crt.bind Encoded.decoded ≠ none ∧ c.prv ≠ none

theorem pkcs12Parts_withKey (key : Encoded KeyPem) (c : Certificate) :
    Mtls.pkcs12Parts (c.withKey key) =
      (c.crt.bind Encoded.decoded).bind fun pem => (c.prv.bind fun _ => key.decoded).map fun k =>
        (pem.leaf, k) := by
  unfold Mtls.pkcs12Parts Certificate.withKey
  cases c.crt with
  | none => rfl
  | some crt =>
    cases c.prv with
    | none => cases hpem : crt.decoded <;> simp [hpem]
    | some prv => cases hpem : crt.decoded <;> cases hkey : key.decoded <;> simp [hpem, hkey]

theorem pkcs12Parts_of_not (h : ¬(c.crt.bind Encoded.decoded ≠ none ∧ c.prv ≠ none)) :
    Mtls.pkcs12Parts c = none := by
  unfold Mtls.pkcs12Parts
  cases hcrt : c.crt with
  | none => rfl
  | some crt =>
    cases hprv : c.prv with
    | none => rfl
    | some prv =>
      have hpem : crt.decoded = none := by
        by_contra hne
        exact h ⟨by simpa [hcrt] using hne, by simp [hprv]⟩
      simp [hpem]

theorem exportPkcs12_withKey (h : ¬MakesPkcs12 c password) :
    Mtls.exportPkcs12 (c.withKey key) chain password shortPassword noKey failed =
      Mtls.exportPkcs12 c chain password shortPassword noKey failed := by
  have hprv : (c.withKey key).prv.isSome = c.prv.isSome := by
    unfold Certificate.withKey
    simp
  unfold Mtls.exportPkcs12
  rw [hprv]
  by_cases hlength : 8 ≤ password.length
  · have hnot : ¬(c.crt.bind Encoded.decoded ≠ none ∧ c.prv ≠ none) := fun hboth =>
      h ⟨hlength, hboth⟩
    have hnot' : ¬((c.withKey key).crt.bind Encoded.decoded ≠ none ∧ (c.withKey key).prv ≠ none) := by
      unfold Certificate.withKey
      simpa using hnot
    rw [pkcs12Parts_of_not hnot, pkcs12Parts_of_not hnot']
    rfl
  · rw [ensure_of_not hlength]
    rfl

theorem exportPkcs12_reveals (h : MakesPkcs12 c password) (k : KeyPem) :
    ∃ e, Mtls.exportPkcs12 (c.withKey (.base64 k)) chain password shortPassword noKey failed =
      .ok e ∧ e.key = some (.text k) := by
  obtain ⟨hlength, hcrt, hprv⟩ := h
  obtain ⟨pem, hpem⟩ := Option.ne_none_iff_exists'.mp hcrt
  obtain ⟨prv, hprv⟩ := Option.ne_none_iff_exists'.mp hprv
  have hsome : (c.withKey (.base64 k)).prv.isSome = true := by
    unfold Certificate.withKey
    simp [hprv]
  have hparts : Mtls.pkcs12Parts (c.withKey (.base64 k)) = some (pem.leaf, k) := by
    rw [pkcs12Parts_withKey, hpem, hprv]
    rfl
  unfold Mtls.exportPkcs12
  rw [ensure_of hlength, ok_bind, ensure_of hsome, ok_bind, hparts, orThrow_some, ok_bind]
  exact ⟨_, rfl, rfl⟩

def keysOverwritten (key : Encoded KeyPem) (s : MtlsState) : MtlsState :=
  { s with store := s.store.withKeys key }

/-- The export of an enrolled certificate contains the key of the row that its serial number
finds. -/
def ExportsKey (s : MtlsState) (user : User) (certId : ℕ) (format password : String)
    (includeKey : Bool) : Prop :=
  user.role ≠ "auditor" ∧ ∃ a c, s.accounts.authCertificates.get? certId = some a ∧
    (Mtls.seesAll user = true ∨ a.userId = user.id) ∧
    s.store.certificateBySerial a.certSerial = some c ∧
    if format ∈ ["pkcs12", "p12", "pfx"] then MakesPkcs12 c password
    else includeKey = true ∧ c.crt ≠ none ∧ c.prv ≠ none

def DownloadsKey (s : MtlsState) (user : User) (certId : ℕ) (format password : String) : Prop :=
  ∃ a c, s.accounts.authCertificates.get? certId = some a ∧
    (a.userId = user.id ∨ user.role = "admin") ∧
    s.store.certificateBySerial a.certSerial = some c ∧
    format ∈ ["p12", "pkcs12"] ∧ MakesPkcs12 c password

theorem exportUserCertificate_withKeys {certId : ℕ} {format : String} {includeKey includeChain : Bool}
    (h : ¬ExportsKey s user certId format password includeKey) :
    Mtls.exportUserCertificate (keysOverwritten key s) user certId format password includeKey
        includeChain =
      Mtls.exportUserCertificate s user certId format password includeKey includeChain := by
  unfold Mtls.exportUserCertificate keysOverwritten
  by_cases hauditor : user.role ≠ "auditor"
  · cases ha : s.accounts.authCertificates.get? certId with
    | none => rfl
    | some a =>
      rw [ensure_of hauditor, ok_bind, ok_bind, orThrow_some, ok_bind, ok_bind]
      by_cases hsees : Mtls.seesAll user = true ∨ a.userId = user.id
      · rw [ensure_of hsees, ok_bind, ok_bind, Store.certificateBySerial_withKeys]
        cases hc : s.store.certificateBySerial a.certSerial with
        | none => rfl
        | some c =>
          have hrow : ¬(if format ∈ ["pkcs12", "p12", "pfx"] then MakesPkcs12 c password
              else includeKey = true ∧ c.crt ≠ none ∧ c.prv ≠ none) := fun hrow =>
            h ⟨hauditor, a, c, ha, hsees, hc, hrow⟩
          rw [Option.map_some, orThrow_some, orThrow_some, ok_bind, ok_bind]
          cases hcrt : c.crt with
          | none => simp [Certificate.withKey, hcrt]
          | some crt =>
            have hcrt' : (c.withKey key).crt = some crt := hcrt
            rw [hcrt', orThrow_some, ok_bind, ok_bind]
            split_ifs at hrow ⊢ with hformat
            · exact exportPkcs12_withKey hrow
            · have hkey : ((c.withKey key).prv.filter fun _ => includeKey).map Encoded.bytes =
                  (c.prv.filter fun _ => includeKey).map Encoded.bytes := by
                unfold Certificate.withKey
                cases hprv : c.prv with
                | none => rfl
                | some prv =>
                  have hinclude : includeKey = false := by
                    rw [← Bool.not_eq_true]
                    exact fun htrue => hrow ⟨htrue, by simp [hcrt], by simp [hprv]⟩
                  rw [hinclude]
                  rfl
              rw [hkey]
              rfl
      · rw [ensure_of_not hsees]
        rfl
  · rw [ensure_of_not hauditor]
    rfl

theorem exportUserCertificate_reveals {certId : ℕ} {format : String} {includeKey : Bool}
    (includeChain : Bool) (h : ExportsKey s user certId format password includeKey) (k : KeyPem) :
    ∃ e, Mtls.exportUserCertificate (keysOverwritten (.base64 k) s) user certId format password
      includeKey includeChain = .ok e ∧ e.key = some (.text k) := by
  obtain ⟨hauditor, a, c, ha, hsees, hc, hrow⟩ := h
  have hcrt : ∃ crt, c.crt = some crt := by
    split_ifs at hrow
    · obtain ⟨pem, hpem⟩ := Option.ne_none_iff_exists'.mp hrow.2.1
      obtain ⟨crt, hcrt, -⟩ := Option.bind_eq_some_iff.mp hpem
      exact ⟨crt, hcrt⟩
    · exact Option.ne_none_iff_exists'.mp hrow.2.1
  obtain ⟨crt, hcrt⟩ := hcrt
  have hcrt' : (c.withKey (.base64 k)).crt = some crt := hcrt
  unfold Mtls.exportUserCertificate keysOverwritten
  dsimp only
  rw [ensure_of hauditor, ok_bind, ha, orThrow_some, ok_bind, ensure_of hsees, ok_bind,
    Store.certificateBySerial_withKeys, hc, Option.map_some, orThrow_some, ok_bind, hcrt',
    orThrow_some, ok_bind]
  split_ifs at hrow ⊢ with hformat
  · exact exportPkcs12_reveals hrow k
  · refine ⟨_, rfl, ?_⟩
    obtain ⟨hinclude, -, hprv⟩ := hrow
    obtain ⟨prv, hprv⟩ := Option.ne_none_iff_exists'.mp hprv
    unfold Certificate.withKey
    rw [hinclude, hprv]
    rfl

theorem downloadMtlsCertificate_withKeys {certId : ℕ} {format : String}
    (h : ¬DownloadsKey s user certId format password) :
    Mtls.downloadMtlsCertificate (keysOverwritten key s) user certId format password =
      Mtls.downloadMtlsCertificate s user certId format password := by
  unfold Mtls.downloadMtlsCertificate keysOverwritten
  dsimp only
  cases ha : (s.accounts.authCertificates.get? certId).filter fun a =>
      a.userId = user.id || user.role = "admin" with
  | none => rfl
  | some a =>
    obtain ⟨hget, hmay⟩ := Option.filter_eq_some_iff.mp ha
    rw [orThrow_some, ok_bind, ok_bind, Store.certificateBySerial_withKeys]
    cases hc : s.store.certificateBySerial a.certSerial with
    | none => rfl
    | some c =>
      rw [Option.map_some, orThrow_some, orThrow_some, ok_bind, ok_bind]
      cases hcrt : c.crt with
      | none => simp [Certificate.withKey, hcrt]
      | some crt =>
        have hcrt' : (c.withKey key).crt = some crt := hcrt
        rw [hcrt', orThrow_some, ok_bind, ok_bind]
        split_ifs with hformat
        · apply exportPkcs12_withKey
          exact fun hmakes => h ⟨a, c, hget, by simpa using hmay, hc, hformat, hmakes⟩
        · rfl

theorem downloadMtlsCertificate_reveals {certId : ℕ} {format : String}
    (h : DownloadsKey s user certId format password) (k : KeyPem) :
    ∃ e, Mtls.downloadMtlsCertificate (keysOverwritten (.base64 k) s) user certId format password =
      .ok e ∧ e.key = some (.text k) := by
  obtain ⟨a, c, ha, hmay, hc, hformat, hmakes⟩ := h
  obtain ⟨pem, hpem⟩ := Option.ne_none_iff_exists'.mp hmakes.2.1
  obtain ⟨crt, hcrt, -⟩ := Option.bind_eq_some_iff.mp hpem
  have hcrt' : (c.withKey (.base64 k)).crt = some crt := hcrt
  have hfilter : ((s.accounts.authCertificates.get? certId).filter fun a =>
      a.userId = user.id || user.role = "admin") = some a :=
    Option.filter_eq_some_iff.mpr ⟨ha, by simpa using hmay⟩
  unfold Mtls.downloadMtlsCertificate keysOverwritten
  dsimp only
  rw [hfilter, orThrow_some, ok_bind, Store.certificateBySerial_withKeys, hc, Option.map_some,
    orThrow_some, ok_bind, hcrt', orThrow_some, ok_bind, if_pos hformat]
  exact exportPkcs12_reveals hmakes k

end Enrolled

section Columns

variable {key : Encoded KeyPem} {st : Store}

def HoldsKeys (st : Store) : Prop :=
  (∃ ca ∈ st.cas, ca.prv ≠ none) ∨ ∃ c ∈ st.certificates, c.prv ≠ none

theorem withKeys_of_not_holdsKeys (h : ¬HoldsKeys st) : st.withKeys key = st := by
  obtain ⟨hcas, hcertificates⟩ := not_or.mp h
  have hca : st.cas.map (CA.withKey key) (fun _ _ => rfl) = st.cas := by
    apply Table.ext_rows
    refine (List.map_congr_left fun ca hca => ?_).trans (List.map_id _)
    have hprv : ca.prv = none := by_contra fun hne => hcas ⟨ca, hca, hne⟩
    unfold CA.withKey
    rw [hprv, Option.map_none, ← hprv]
    rfl
  have hcertificate : st.certificates.map (Certificate.withKey key) (fun _ _ => rfl) =
      st.certificates := by
    apply Table.ext_rows
    refine (List.map_congr_left fun c hc => ?_).trans (List.map_id _)
    have hprv : c.prv = none := by_contra fun hne => hcertificates ⟨c, hc, hne⟩
    unfold Certificate.withKey
    rw [hprv, Option.map_none, ← hprv]
    rfl
  exact congrArg₂ (Store.mk · · st.crls st.ocspResponses st.keyEncryptionKey) hca hcertificate

theorem withKeys_ne_of_holdsKeys (h : HoldsKeys st) {key key' : Encoded KeyPem} (hne : key ≠ key') :
    st.withKeys key ≠ st.withKeys key' := by
  intro heq
  rcases h with ⟨ca, hca, hprv⟩ | ⟨c, hc, hprv⟩
  · have hget := Table.get?_eq_some_iff.mpr ⟨hca, rfl⟩
    have hrow := congrArg (fun st : Store => st.cas.get? (Keyed.key ca)) heq
    simp only [Store.getCa_withKeys, hget, Option.map_some, Option.some.injEq] at hrow
    obtain ⟨prv, hsome⟩ := Option.ne_none_iff_exists'.mp hprv
    have hkeys := congrArg CA.prv hrow
    simp only [CA.withKey, hsome, Option.map_some, Option.some.injEq] at hkeys
    exact hne hkeys
  · have hget := Table.get?_eq_some_iff.mpr ⟨hc, rfl⟩
    have hrow := congrArg (fun st : Store => st.certificates.get? (Keyed.key c)) heq
    simp only [Store.getCertificate_withKeys, hget, Option.map_some, Option.some.injEq] at hrow
    obtain ⟨prv, hsome⟩ := Option.ne_none_iff_exists'.mp hprv
    have hkeys := congrArg Certificate.prv hrow
    simp only [Certificate.withKey, hsome, Option.map_some, Option.some.injEq] at hkeys
    exact hne hkeys

theorem holdsKeys_withKeys : HoldsKeys (st.withKeys key) ↔ HoldsKeys st := by
  have hca : (∃ ca ∈ (st.withKeys key).cas, ca.prv ≠ none) ↔ ∃ ca ∈ st.cas, ca.prv ≠ none := by
    constructor
    · rintro ⟨ca, hmem, hprv⟩
      obtain ⟨ca, hca, rfl⟩ := (Table.mem_map fun _ _ => rfl).mp hmem
      exact ⟨ca, hca, by simpa [CA.withKey] using hprv⟩
    · rintro ⟨ca, hca, hprv⟩
      exact ⟨_, (Table.mem_map fun _ _ => rfl).mpr ⟨ca, hca, rfl⟩, by simpa [CA.withKey] using hprv⟩
  have hcertificate : (∃ c ∈ (st.withKeys key).certificates, c.prv ≠ none) ↔
      ∃ c ∈ st.certificates, c.prv ≠ none := by
    constructor
    · rintro ⟨c, hmem, hprv⟩
      obtain ⟨c, hc, rfl⟩ := (Table.mem_map fun _ _ => rfl).mp hmem
      exact ⟨c, hc, by simpa [Certificate.withKey] using hprv⟩
    · rintro ⟨c, hc, hprv⟩
      exact ⟨_, (Table.mem_map fun _ _ => rfl).mpr ⟨c, hc, rfl⟩, by simpa [Certificate.withKey] using hprv⟩
  exact or_congr hca hcertificate

end Columns

section Lists

variable {key : Encoded KeyPem} {st : Store} {now : Time}

/-- No list of the authority is stored, and one can be made with whatever key is there. -/
def SignsList (st : Store) (now : Time) (caId : ℕ) : Prop :=
  ∃ ca, st.cas.get? caId = some ca ∧ CRLService.latestBase st caId = none ∧ ca.cdpEnabled = true ∧
    ca.prv ≠ none ∧ ca.crt.decoded ≠ none ∧
    ∃ entries, CRLService.revokedEntries now (CRLService.revokedRows st ca) = .ok entries

theorem revokedEntries_withKey (now : Time) (rows : List Certificate) :
    CRLService.revokedEntries now (rows.map (Certificate.withKey key)) =
      CRLService.revokedEntries now rows := by
  induction rows with
  | nil => rfl
  | cons c rows ih =>
    have hserial : CRLService.listedSerial (c.withKey key) = CRLService.listedSerial c := rfl
    have hentry (serial : ℤ) : CRLService.revokedEntry now (c.withKey key) serial =
        CRLService.revokedEntry now c serial := rfl
    rw [List.map_cons]
    unfold CRLService.revokedEntries
    simp only [hserial, hentry, ih]

theorem revokedRows_withKeys (ca : CA) :
    CRLService.revokedRows (st.withKeys key) (ca.withKey key) =
      (CRLService.revokedRows st ca).map (Certificate.withKey key) :=
  Store.selectCertificates_withKeys fun _ => rfl

theorem signsList_withKeys {caId : ℕ} :
    SignsList (st.withKeys key) now caId ↔ SignsList st now caId := by
  have hbase : CRLService.latestBase (st.withKeys key) caId = CRLService.latestBase st caId := rfl
  have hrow (ca : CA) : CRLService.revokedEntries now
      (CRLService.revokedRows (st.withKeys key) (ca.withKey key)) =
        CRLService.revokedEntries now (CRLService.revokedRows st ca) := by
    rw [revokedRows_withKeys, revokedEntries_withKey]
  have hprv (ca : CA) : (ca.withKey key).prv ≠ none ↔ ca.prv ≠ none := by
    simp [CA.withKey]
  unfold SignsList
  rw [hbase]
  constructor
  · rintro ⟨ca', hget, hbase, hcdp, hkey, hcrt, hentries⟩
    rw [Store.getCa_withKeys] at hget
    obtain ⟨ca, hca, rfl⟩ := Option.map_eq_some_iff.mp hget
    rw [hrow] at hentries
    exact ⟨ca, hca, hbase, hcdp, (hprv ca).mp hkey, hcrt, hentries⟩
  · rintro ⟨ca, hca, hbase, hcdp, hkey, hcrt, hentries⟩
    refine ⟨ca.withKey key, ?_, hbase, hcdp, (hprv ca).mpr hkey, hcrt, ?_⟩
    · rw [Store.getCa_withKeys, hca]
      rfl
    · rw [hrow]
      exact hentries

theorem signsList_of_generateCrl {caId : ℕ} {ca : CA} {m : CrlMetadata × Store}
    (hca : st.cas.get? caId = some ca) (hbase : CRLService.latestBase st caId = none)
    (hcdp : ca.cdpEnabled = true) {days : ℤ} {username : String}
    (h : CRLService.generateCrl st caId days username now = .ok m) : SignsList st now caId := by
  unfold CRLService.generateCrl CRLService.buildCrl at h
  simp only [hca, orThrow_some, ok_bind, bind_eq_ok, ensure_eq_ok, exists_const] at h
  obtain ⟨-, crl, ⟨x, hx, k, hk, entries, hentries, -⟩, -⟩ := h
  refine ⟨ca, hca, hbase, hcdp, fun hprv => ?_, fun hcrt => ?_, entries, hentries⟩
  · unfold CA.decryptedPrivateKey at hk
    rw [hprv] at hk
    cases hk
  · unfold CA.certificate at hx
    rw [hcrt] at hx
    cases hx

theorem getCrl_of_not_signsList {caId : ℕ} {ca : CA} (hca : st.cas.get? caId = some ca)
    (hlatest : CRLService.latestBase st caId = none) (h : ¬SignsList st now caId) :
    getCrl st caId now = .refused 404 "" := by
  unfold getCrl
  simp only [hca, hlatest]
  split_ifs with hmay
  · have hcdp : ca.cdpEnabled = true := (Bool.and_eq_true_iff.mp hmay).2
    cases hlist : CRLService.generateCrl st caId CRLService.defaultValidityDays "system" now with
    | ok m => exact absurd (signsList_of_generateCrl hca hlatest hcdp hlist) h
    | error e => rfl
  · rfl

theorem getCrl_withKeys {caId : ℕ} (h : ¬SignsList st now caId) :
    getCrl (st.withKeys key) caId now = getCrl st caId now := by
  cases hca : st.cas.get? caId with
  | none =>
    have hca' : (st.withKeys key).cas.get? caId = none := by
      rw [Store.getCa_withKeys, hca]
      rfl
    unfold getCrl
    rw [hca, hca']
  | some ca =>
    have hca' : (st.withKeys key).cas.get? caId = some (ca.withKey key) := by
      rw [Store.getCa_withKeys, hca]
      rfl
    have hbase : CRLService.latestBase (st.withKeys key) caId = CRLService.latestBase st caId := rfl
    cases hlatest : CRLService.latestBase st caId with
    | some m =>
      unfold getCrl
      rw [hca, hca', hbase, hlatest]
    | none =>
      rw [getCrl_of_not_signsList hca hlatest h,
        getCrl_of_not_signsList hca' (hbase.trans hlatest) fun h' => h (signsList_withKeys.mp h')]

theorem getCrl_reveals {caId : ℕ} (h : SignsList st now caId) (k : KeyPem) :
    ∃ crl, getCrl (st.withKeys (.base64 k)) caId now = .crl crl ∧ crl.signedBy = k.publicKey := by
  have hsigns : SignsList (st.withKeys (.base64 k)) now caId := signsList_withKeys.mpr h
  obtain ⟨ca, hca, hlatest, hcdp, hprv, hcrt, entries, hentries⟩ := hsigns
  obtain ⟨ca', hca', rfl⟩ := Option.map_eq_some_iff.mp ((Store.getCa_withKeys caId).symm.trans hca)
  obtain ⟨pem, hpem⟩ := Option.ne_none_iff_exists'.mp hcrt
  have hkey : (ca'.withKey (.base64 k)).prv = some (.base64 k) := by
    obtain ⟨prv, hsome⟩ := Option.ne_none_iff_exists'.mp hprv
    unfold CA.withKey at hsome ⊢
    obtain ⟨_, hprv', -⟩ := Option.map_eq_some_iff.mp hsome
    rw [hprv']
    rfl
  have hhas : (ca'.withKey (.base64 k)).hasPrivateKey = true := by
    unfold CA.hasPrivateKey
    rw [hkey]
    rfl
  have hsigner : (ca'.withKey (.base64 k)).decryptedPrivateKey
      (st.withKeys (.base64 k)).keyEncryptionKey = .ok k.publicKey := by
    unfold CA.decryptedPrivateKey
    rw [hkey]
    rfl
  have hx : (ca'.withKey (.base64 k)).certificate = .ok pem.leaf := by
    unfold CA.certificate
    rw [hpem]
  unfold getCrl CRLService.generateCrl CRLService.buildCrl
  simp only [hca, hlatest, hhas, hcdp, Bool.and_self, if_true, orThrow_some, ok_bind,
    ensure_of, hx, hsigner, hentries]
  exact ⟨_, rfl, rfl⟩

end Lists

section Requests

def keys : Overwriting Site (Encoded KeyPem) where
  erase key site := { site with state := keysOverwritten key site.state }
  erase_erase key key' site := by
    unfold keysOverwritten
    simp only [Store.withKeys_withKeys]

/-- What a request that is granted can show of the contents of keys, though writing is not: an
enrolled certificate with its key, to who has the role; the database; a list that is not there
yet. -/
def Shows (result : AuthResult) (r : Request) (site : Site) : Prop :=
  match r with
  | .exportUserCertificate certId format password includeKey _ =>
    ∃ user, result.user = some user ∧ ExportsKey site.state user certId format password includeKey
  | .downloadMtlsCertificate certId format password =>
    ∃ user, result.user = some user ∧ DownloadsKey site.state user certId format password
  | .exportDb => site.databaseFile = true ∧ HoldsKeys site.state.store
  | .getCrl caId => SignsList site.state.store site.state.now caId
  | _ => False

/-- The user enrolled the certificate that an export is of: serial number and issuer are those of an
enrolment of his. -/
def EnrolledHimself (result : AuthResult) (r : Request) (site : Site) : Prop :=
  match r with
  | .exportUserCertificate certId .. | .downloadMtlsCertificate certId .. =>
    ∃ user a c, result.user = some user ∧
      site.state.accounts.authCertificates.get? certId = some a ∧ a.userId = user.id ∧
      site.state.store.certificateBySerial a.certSerial = some c ∧
      a.certIssuer.getD "" = c.issuer.getD ""
  | _ => False

variable {result : AuthResult} {r : Request} {key : Encoded KeyPem}

theorem enrolled_withKeys {s : MtlsState} {certId : ℕ} {P : AuthCertificate → Prop}
    {Q : Certificate → Prop} (hQ : ∀ c, Q (c.withKey key) ↔ Q c) :
    (∃ a c, (keysOverwritten key s).accounts.authCertificates.get? certId = some a ∧ P a ∧
        (keysOverwritten key s).store.certificateBySerial a.certSerial = some c ∧ Q c) ↔
      ∃ a c, s.accounts.authCertificates.get? certId = some a ∧ P a ∧
        s.store.certificateBySerial a.certSerial = some c ∧ Q c := by
  unfold keysOverwritten
  constructor
  · rintro ⟨a, c', ha, hP, hc, hrow⟩
    obtain ⟨c, hfound, rfl⟩ := Option.map_eq_some_iff.mp
      ((Store.certificateBySerial_withKeys _).symm.trans hc)
    exact ⟨a, c, ha, hP, hfound, (hQ c).mp hrow⟩
  · rintro ⟨a, c, ha, hP, hc, hrow⟩
    refine ⟨a, c.withKey key, ha, hP, ?_, (hQ c).mpr hrow⟩
    exact (Store.certificateBySerial_withKeys _).trans (by rw [hc]; rfl)

theorem makesPkcs12_withKey {c : Certificate} {password : String} :
    MakesPkcs12 (c.withKey key) password ↔ MakesPkcs12 c password := by
  unfold MakesPkcs12 Certificate.withKey
  simp

theorem exportsKey_withKeys {s : MtlsState} {user : User} {certId : ℕ} {format password : String}
    {includeKey : Bool} :
    ExportsKey (keysOverwritten key s) user certId format password includeKey ↔
      ExportsKey s user certId format password includeKey := by
  refine and_congr_right fun _ => enrolled_withKeys fun c => ?_
  split_ifs
  · exact makesPkcs12_withKey
  · simp [Certificate.withKey]

theorem downloadsKey_withKeys {s : MtlsState} {user : User} {certId : ℕ}
    {format password : String} :
    DownloadsKey (keysOverwritten key s) user certId format password ↔
      DownloadsKey s user certId format password :=
  enrolled_withKeys fun _ => and_congr_right fun _ => makesPkcs12_withKey

theorem shows_erase (key : Encoded KeyPem) (site : Site) :
    Shows result r (keys.erase key site) ↔ Shows result r site := by
  cases r with
  | exportUserCertificate certId format password includeKey includeChain =>
    exact exists_congr fun user => and_congr_right fun _ => exportsKey_withKeys
  | downloadMtlsCertificate certId format password =>
    exact exists_congr fun user => and_congr_right fun _ => downloadsKey_withKeys
  | exportDb => exact and_congr_right fun _ => holdsKeys_withKeys
  | getCrl caId => exact signsList_withKeys
  | _ => exact Iff.rfl

theorem withUser_congr {user : Option User} {f g : User → Answer}
    (h : ∀ u, user = some u → f u = g u) : withUser user f = withUser user g := by
  cases user with
  | none => rfl
  | some u => exact h u rfl

theorem serve_erase (hcertificates :
      Administration.hasPermission "write:certificates" result.permissions = false)
    (hcas : Administration.hasPermission "write:cas" result.permissions = false)
    {site : Site} (h : ¬Shows result r site) (key : Encoded KeyPem) :
    serve (keys.erase key site) result r = serve site result r := by
  cases r with
  | certificate certId => exact getCertificate_answer_withKeys certId
  | exportCertificate certId q =>
    change Answer.ofExport (Routes.exportCertificate _ _ _ _) = Answer.ofExport _
    rw [hcertificates]
    exact congrArg Answer.ofExport (exportCertificate_withKeys certId)
  | exportAllCertificates format => exact exportAllCertificates_withKeys format
  | bulkExportCertificates ids format => exact bulkExportCertificates_withKeys ids format
  | ca caId => exact getCa_answer_withKeys caId
  | exportCa caId q =>
    change Answer.ofExport (Routes.exportCa _ _ _ _) = Answer.ofExport _
    rw [hcas]
    exact congrArg Answer.ofExport (exportCa_withKeys caId)
  | exportAllCas format => exact exportAllCas_withKeys format
  | bulkExportCas ids format => exact bulkExportCas_withKeys ids format
  | csr csrId => exact getCsr_withKeys csrId
  | exportCsr csrId => exact exportCsr_withKeys csrId
  | userCertificate certId =>
    exact withUser_congr fun user _ => getUserCertificate_withKeys site.state user certId
  | exportUserCertificate certId format password includeKey includeChain =>
    refine withUser_congr fun user huser => congrArg Answer.ofExported ?_
    exact exportUserCertificate_withKeys fun hexports => h ⟨user, huser, hexports⟩
  | downloadMtlsCertificate certId format password =>
    refine withUser_congr fun user huser => congrArg Answer.ofExported ?_
    exact downloadMtlsCertificate_withKeys fun hdownloads => h ⟨user, huser, hdownloads⟩
  | exportDb =>
    unfold serve
    change (if site.databaseFile = true then _ else _) = _
    split_ifs with hfile
    · have hnone : ¬HoldsKeys site.state.store := fun hholds => h ⟨hfile, hholds⟩
      exact congrArg (Answer.dump · _) (withKeys_of_not_holdsKeys hnone)
    · rfl
  | getCrl caId => exact getCrl_withKeys h

def sampleKeyPem (keyId : ℕ) : KeyPem := ⟨⟨.rsa 2048, keyId⟩⟩

theorem serve_reveals {site : Site} (h : Shows result r site) :
    serve (keys.erase (.base64 (sampleKeyPem 0)) site) result r ≠
      serve (keys.erase (.base64 (sampleKeyPem 1)) site) result r := by
  have hne : sampleKeyPem 0 ≠ sampleKeyPem 1 := by decide
  intro heq
  cases r with
  | exportUserCertificate certId format password includeKey includeChain =>
    obtain ⟨user, huser, hexports⟩ := h
    obtain ⟨e, he, hkey⟩ := exportUserCertificate_reveals includeChain hexports (sampleKeyPem 0)
    obtain ⟨e', he', hkey'⟩ := exportUserCertificate_reveals includeChain hexports (sampleKeyPem 1)
    unfold serve at heq
    rw [huser] at heq
    change Answer.ofExported (Mtls.exportUserCertificate (keysOverwritten _ _) _ _ _ _ _ _) =
      Answer.ofExported (Mtls.exportUserCertificate (keysOverwritten _ _) _ _ _ _ _ _) at heq
    rw [he, he'] at heq
    have hsame : e = e' := Answer.exported.inj heq
    rw [hsame, hkey'] at hkey
    cases hkey
  | downloadMtlsCertificate certId format password =>
    obtain ⟨user, huser, hdownloads⟩ := h
    obtain ⟨e, he, hkey⟩ := downloadMtlsCertificate_reveals hdownloads (sampleKeyPem 0)
    obtain ⟨e', he', hkey'⟩ := downloadMtlsCertificate_reveals hdownloads (sampleKeyPem 1)
    unfold serve at heq
    rw [huser] at heq
    change Answer.ofExported (Mtls.downloadMtlsCertificate (keysOverwritten _ _) _ _ _ _) =
      Answer.ofExported (Mtls.downloadMtlsCertificate (keysOverwritten _ _) _ _ _ _) at heq
    rw [he, he'] at heq
    have hsame : e = e' := Answer.exported.inj heq
    rw [hsame, hkey'] at hkey
    cases hkey
  | exportDb =>
    obtain ⟨hfile, hholds⟩ := h
    have hfile' (key : Encoded KeyPem) : (keys.erase key site).databaseFile = true := hfile
    unfold serve at heq
    simp only [hfile', if_true] at heq
    refine withKeys_ne_of_holdsKeys hholds ?_ (Answer.dump.inj heq).1
    exact fun hkeys => hne (Encoded.base64.inj hkeys)
  | getCrl caId =>
    obtain ⟨crl, hcrl, hsigned⟩ := getCrl_reveals h (sampleKeyPem 0)
    obtain ⟨crl', hcrl', hsigned'⟩ := getCrl_reveals h (sampleKeyPem 1)
    have hsame : crl = crl' := Answer.crl.inj (hcrl.symm.trans (heq.trans hcrl'))
    rw [hsame, hsigned'] at hsigned
    exact absurd hsigned (by decide)
  | _ => exact h

theorem answer_keeps_iff (hcertificates :
      Administration.hasPermission "write:certificates" result.permissions = false)
    (hcas : Administration.hasPermission "write:cas" result.permissions = false) (site : Site) :
    keys.Keeps (answer result r) site ↔
      ¬((∀ p ∈ r.permissions, Administration.hasPermission p result.permissions = true) ∧
        Shows result r site) := by
  have : Nonempty (Encoded KeyPem) := ⟨.base64 (sampleKeyPem 0)⟩
  by_cases hgranted : ∀ p ∈ r.permissions, Administration.hasPermission p result.permissions = true
  · have hanswer (site : Site) : answer result r site = serve site result r := by
      unfold answer
      rw [authorize_eq_ok.mpr ⟨rfl, hgranted⟩]
    refine Overwriting.keeps_iff (S := fun site =>
      (∀ p ∈ r.permissions, Administration.hasPermission p result.permissions = true) ∧
        Shows result r site) (fun key site => and_congr_right fun _ => shows_erase key site)
      (fun key site h => ?_) (fun site h => ?_) site
    · rw [hanswer, hanswer]
      exact serve_erase hcertificates hcas (fun hshows => h ⟨hgranted, hshows⟩) key
    · refine ⟨.base64 (sampleKeyPem 0), .base64 (sampleKeyPem 1), ?_⟩
      rw [hanswer, hanswer]
      exact serve_reveals h.2
  · refine iff_of_true (fun site' _ => ?_) fun h => hgranted h.1
    unfold answer
    cases hauthorize : AuthManager.authorize r.permissions (some result) with
    | error e => rfl
    | ok result' =>
      obtain ⟨hsame, hall⟩ := authorize_eq_ok.mp hauthorize
      cases hsame
      exact absurd hall hgranted

/-- Without the permission to write, and but for certificates that the user enrolled himself, the
answer keeps the keys exactly if the request is not granted or shows none. -/
theorem keys_secret_iff (hcertificates :
      Administration.hasPermission "write:certificates" result.permissions = false)
    (hcas : Administration.hasPermission "write:cas" result.permissions = false) (r : Request)
    (site : Site) :
    (¬EnrolledHimself result r site → keys.Keeps (answer result r) site) ↔
      ((∀ p ∈ r.permissions, Administration.hasPermission p result.permissions = true) →
        Shows result r site → EnrolledHimself result r site) := by
  rw [answer_keeps_iff hcertificates hcas]
  constructor
  · intro h hgranted hshows
    by_contra hown
    exact h hown ⟨hgranted, hshows⟩
  · rintro h hown ⟨hgranted, hshows⟩
    exact hown (h hgranted hshows)

end Requests

section Sample

def sampleSite : Site :=
  let x : X509 := { sampleCaCert with serial := 7, subject := sampleName "www" }
  let row : Certificate :=
    { refid := "www", descr := "www", crt := some (.base64 ⟨x, []⟩)
      prv := some (.base64 (sampleKeyPem 5)), serialNumber := some "7", issuer := some "CN=Root" }
  let enrolment : AuthCertificate :=
    { userId := 2, certSerial := "7", certSubject := "CN=www", certIssuer := some "CN=Root" }
  { state :=
      { store := { sampleStore with certificates := (∅ : Table Certificate).insert row }
        accounts := { authCertificates := (∅ : Table AuthCertificate).insert enrolment }
        now := 0 }
    databaseFile := true }

def sampleReader (role : String) (permissions : List String) : AuthResult :=
  ⟨1, some { id := 1, username := "reader", email := "", passwordHash := "", role }, .apiKey 1 "",
    permissions⟩

/-- The certificate can be read, without its key. -/
theorem keys_secret_reader :
    keys.Keeps (answer (sampleReader "operator" ["read:certificates"])
      (.exportCertificate 1 { includeKey := true })) sampleSite :=
  (keys_secret_iff (by decide) (by decide) _ _).mpr (fun _ h => h.elim) fun h => h

/-- A key of an operator that may only read the certificates of users shows the private key of
another user. -/
theorem key_disclosed :
    let reader := sampleReader "operator" ["read:user_certificates"]
    let request := Request.exportUserCertificate 1 "pem" "" true false
    Administration.hasPermission "write:certificates" reader.permissions = false ∧
      Administration.hasPermission "write:cas" reader.permissions = false ∧
      ¬EnrolledHimself reader request sampleSite ∧
      ¬keys.Keeps (answer reader request) sampleSite := by
  intro reader request
  refine ⟨by decide, by decide, ?_, fun h => ?_⟩
  · rintro ⟨user, a, c, huser, ha, howner, -⟩
    cases huser
    cases ha
    exact absurd howner (by decide)
  · refine (answer_keeps_iff (by decide) (by decide) sampleSite).mp h ⟨by decide, ?_⟩
    refine ⟨_, rfl, by decide, _, _, rfl, .inl (by decide), rfl, ?_⟩
    rw [if_neg (by decide)]
    exact ⟨rfl, nofun, nofun⟩

end Sample

end Handouts

end CaManager
