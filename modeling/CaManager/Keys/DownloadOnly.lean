import CaManager.Backup.Restored
import CaManager.Library.Machines
import CaManager.Library.Texts
import CaManager.Store.Operations

/-!
# Keys that are only handed out

A certificate may be created so that its private key is not kept. What is kept of a key is in a
column, in a file of the data directory or in a backup; all that write there are followed along
every run: creation, both kinds of renewal, backups and restores. The column is left empty at
creation, and at no other place is it asked how the certificate was created.
-/

namespace CaManager

open Library

namespace DownloadOnly

/-- The text of a common name as it is fit for a file name. -/
class FileNaming where
  slugifyCn : String → String

section Paths

variable [FileNaming]

/-- `_get_cn` -/
def getCn (subject : Option String) : String :=
  match subject.filter (· ≠ "") with
  | none => ""
  | some text =>
    let parts := (splitText ',' text).map stripSpaces
    (parts.findSome? fun part =>
      if startsWith (upper part) "CN=" then some (stripSpaces (String.ofList (part.toList.drop 3)))
      else none).getD ""

/-- `cert_filename` -/
def certFilename (refid cn ext : String) : String :=
  let shortId := if refid = "" then "norefid" else String.ofList (refid.toList.take 8)
  s!"{FileNaming.slugifyCn cn}-{shortId}.{ext}"

/-- `_get_cn(subject) or descr or ''` -/
def fileCn (subject : Option String) (descr : String) : String :=
  if getCn subject = "" then descr else getCn subject

def caKeyPath (ca : CA) : String :=
  "private/ca_" ++ certFilename ca.refid (fileCn ca.subject ca.descr) "key"

def certCertPath (c : Certificate) : String :=
  "certs/" ++ certFilename c.refid (fileCn c.subject c.descr) "crt"

def certKeyPath (c : Certificate) : String :=
  "private/cert_" ++ certFilename c.refid (fileCn c.subject c.descr) "key"

end Paths

/-- An authority as it is exported, its private key as `_private_key_plaintext`. -/
structure CaExport where
  refid : String
  descr : String
  subject : Option String
  issuer : Option String
  validFrom : Option Time
  validTo : Option Time
  serial : Option ℕ
  caref : Option String
  cdpEnabled : Bool
  cdpUrl : Option String
  ocspEnabled : Bool
  ocspUrl : Option String
  importedFrom : Option String
  certificatePem : Option CertPem
  privateKey : Option (Encoded KeyPem)
  deriving Repr, DecidableEq

structure CertificateExport where
  refid : String
  descr : String
  caref : Option String
  certType : Option String
  subject : Option String
  issuer : Option String
  serialNumber : Option String
  validFrom : Option Time
  validTo : Option Time
  sanDns : Option (List String)
  sanIp : Option (List String)
  sanEmail : Option (List String)
  sanUri : Option (List String)
  ocspUri : Option String
  privateKeyLocation : Option String
  certificatePem : Option CertPem
  csrPem : Option Csr
  privateKey : Option (Encoded KeyPem)
  deriving Repr, DecidableEq

structure Backup where
  cas : List CaExport
  certificates : List CertificateExport
  deriving Repr, DecidableEq

section Exporting

variable (st : Store)

def exportPem {α : Type} (column : Option (Encoded α)) : Except PyError (Option α) :=
  match column with
  | none => .ok none
  | some e => some <$> orThrow e.decoded (.valueError "invalid start byte")

/-- A key is decrypted before it is exported. Where that fails, its column is exported. -/
def exportKey (prv : Option (Encoded KeyPem)) : Option (Encoded KeyPem) :=
  prv.map fun e =>
    match (e.decrypt st.keyEncryptionKey).bind Encoded.decoded with
    | some key => .plain key
    | none => e

def exportCa (ca : CA) : Except PyError CaExport := do
  let certificatePem ← exportPem (some ca.crt)
  return {
    refid := ca.refid, descr := ca.descr, subject := ca.subject, issuer := ca.issuer
    validFrom := ca.validFrom, validTo := ca.validTo, serial := ca.serial, caref := ca.caref
    cdpEnabled := ca.cdpEnabled, cdpUrl := ca.cdpUrl, ocspEnabled := ca.ocspEnabled
    ocspUrl := ca.ocspUrl, importedFrom := ca.importedFrom, certificatePem
    privateKey := exportKey st ca.prv }

def exportCertificate (c : Certificate) : Except PyError CertificateExport := do
  let certificatePem ← exportPem c.crt
  let csrPem ← exportPem c.csr
  return {
    refid := c.refid, descr := c.descr, caref := c.caref, certType := c.certType
    subject := c.subject, issuer := c.issuer, serialNumber := c.serialNumber
    validFrom := c.validFrom, validTo := c.validTo, sanDns := c.sanDns, sanIp := c.sanIp
    sanEmail := c.sanEmail, sanUri := c.sanUri, ocspUri := c.ocspUri
    privateKeyLocation := c.privateKeyLocation, certificatePem, csrPem
    privateKey := exportKey st c.prv }

/-- `_export_cas` and `_export_certificates`, each if its section is included. -/
def createBackup (includeCas includeCertificates : Bool) : Except PyError Backup := do
  let cas ← (if includeCas then st.cas.rows.mapM (exportCa st) else .ok [])
  let certificates ←
    (if includeCertificates then st.certificates.rows.mapM (exportCertificate st) else .ok [])
  return ⟨cas, certificates⟩

end Exporting

/-- What the service keeps: the database, the key files by their paths, and the backups. -/
structure Site where
  store : Store
  files : String → Option (Encoded.Bytes KeyPem) := fun _ => none
  backups : List Backup := []

namespace Site

variable [X509Library] [FileNaming] (s : Site) (writable : String → Bool)

def save (files : String → Option (Encoded.Bytes KeyPem)) (path : String)
    (content : Encoded.Bytes KeyPem) : String → Option (Encoded.Bytes KeyPem) :=
  if writable path then Function.update files path (some content) else files

/-- What `create_certificate` makes before it stores anything: the certificate and its key, and the
authority that signs it. -/
def made (st : Store) (r : CertificateService.CreateRequest) (d : Draw) :
    Except PyError (CA × X509 × KeyPem) := do
  let ca ← orThrow (st.cas.first fun c => c.refid = r.caref)
    (.valueError s!"CA not found: {r.caref}")
  ensure (ca.prv.isSome = true) (.valueError "CA has no private key - cannot sign certificates")
  let caCert ← ca.certificate
  let caPrivateKey ← ca.decryptedPrivateKey st.keyEncryptionKey
  let cdpUrl := if ca.cdpEnabled then CRLService.cdpUrlOf ca else none
  let ocspUrl := if ca.ocspEnabled then ca.ocspUrl else none
  let (x, key) ← TrustStoreService.createCertificate r.subject caCert caPrivateKey r.certType
    (CertificateService.clampValidity caCert r.validityDays d.now) r.keyType r.san ocspUrl cdpUrl d
  return (ca, x, key)

/-- The two files of a certificate are written one after the other, whatever is asked about its
key. -/
def saveCreated (c : Certificate) (key : KeyPem) : String → Option (Encoded.Bytes KeyPem) :=
  if writable (certCertPath c) then save writable s.files (certKeyPath c) (.text key) else s.files

/-- `create_certificate`, with the key that it made for what it stored. -/
def create (r : CertificateService.CreateRequest) (d : Draw) : Site × Option KeyPem :=
  match made s.store r d with
  | .error _ => (s, none)
  | .ok (ca, x, key) =>
    let row := CertificateService.createdRow s.store r x key d
    match (s.store.countSerial ca).addCertificate row with
    | .error _ => (s, none)
    | .ok st => ({ s with store := st, files := s.saveCreated writable row key }, some key)

def heldKey (st : Store) (certId : ℕ) : Option KeyPem :=
  (st.certificates.get? certId).bind fun c => c.prv.map Encoded.content

/-- `renew_certificate`, with the key that it made. -/
def renew (certId : ℕ) (d : Draw) : Site × Option KeyPem :=
  let (response, st) := Routes.renewCertificate s.store certId d
  ({ s with store := st }, if response.status = 200 then heldKey st certId else none)

/-- One identifier of `bulk_renew_certificates`, with the key that was made for it. -/
def bulkRenewOne (request : ℕ × Draw) : Site × Option KeyPem :=
  let st := Routes.bulkRenewOne s.store request
  ({ s with store := st },
    if Routes.bulkRenewNote s.store request = none then heldKey st request.1 else none)

def backup (includeCas includeCertificates : Bool) : Site :=
  match createBackup s.store includeCas includeCertificates with
  | .ok b => { s with backups := s.backups ++ [b] }
  | .error _ => s

def saveKey (path : String) (prv : Option (Encoded KeyPem))
    (files : String → Option (Encoded.Bytes KeyPem)) : String → Option (Encoded.Bytes KeyPem) :=
  match prv with
  | none => files
  | some e => save writable files path e.bytes

def saveAll (st : Store) (files : String → Option (Encoded.Bytes KeyPem)) :
    String → Option (Encoded.Bytes KeyPem) :=
  let files :=
    st.cas.rows.foldl (fun files ca => saveKey writable (caKeyPath ca) ca.prv files) files
  st.certificates.rows.foldl (fun files c => saveKey writable (certKeyPath c) c.prv files) files

def restore (cas : List BackupService.CaEntry) (certificates : List BackupService.CertificateEntry) :
    Site :=
  match BackupService.restoreCertificates s.store cas certificates with
  | .ok st => { s with store := st, files := saveAll writable st s.files }
  | .error _ => s

end Site

def fileKey : Encoded.Bytes KeyPem → Option KeyPem
  | .text key => some key
  | .ciphertext _ key => some key
  | .garbage => none

def Backup.keys (b : Backup) : List KeyPem :=
  (b.cas.filterMap fun e => e.privateKey.map Encoded.content) ++
    b.certificates.filterMap fun e => e.privateKey.map Encoded.content

def Stored (st : Store) (key : KeyPem) : Prop :=
  (∃ ca ∈ st.cas, ca.prv.map Encoded.content = some key) ∨
    ∃ c ∈ st.certificates, c.prv.map Encoded.content = some key

inductive Site.Holds (s : Site) (key : KeyPem) : Prop
  | column : Stored s.store key → Holds s key
  | file (path : String) : (s.files path).bind fileKey = some key → Holds s key
  | backup {b : Backup} : b ∈ s.backups → key ∈ b.keys → Holds s key

inductive Event
  | create (r : CertificateService.CreateRequest) (d : Draw) (writable : String → Bool)
  | renew (certId : ℕ) (d : Draw)
  | bulkRenewOne (request : ℕ × Draw)
  | download (certId : ℕ)
  | backup (includeCas includeCertificates : Bool)
  | restore (cas : List BackupService.CaEntry) (certificates : List BackupService.CertificateEntry)
      (writable : String → Bool)

/-- The site, with the keys that were made for certificates whose keys are only handed out. -/
structure Watched where
  site : Site
  downloadOnly : List KeyPem := []

def isDownloadOnly (st : Store) (certId : ℕ) : Bool :=
  (st.certificates.get? certId).bind Certificate.privateKeyLocation = some "download_only"

namespace Watched

variable [X509Library] [FileNaming] (w : Watched)

def note (only : Bool) (result : Site × Option KeyPem) : Watched where
  site := result.1
  downloadOnly := if only then result.2.toList ++ w.downloadOnly else w.downloadOnly

def step : Event → Watched
  | .create r d writable =>
    w.note (r.privateKeyLocation = "download_only") (w.site.create writable r d)
  | .renew certId d => w.note (isDownloadOnly w.site.store certId) (w.site.renew certId d)
  | .bulkRenewOne request =>
    w.note (isDownloadOnly w.site.store request.1) (w.site.bulkRenewOne request)
  | .download _ => w
  | .backup includeCas includeCertificates =>
    { w with site := w.site.backup includeCas includeCertificates }
  | .restore cas certificates writable =>
    { w with site := w.site.restore writable cas certificates }

def Clean : Prop := ∀ key ∈ w.downloadOnly, ¬w.site.Holds key

end Watched

section Columns

variable {st st' : Store} {key key' : KeyPem}

theorem stored_countSerial (ca : CA) : Stored (st.countSerial ca) key ↔ Stored st key := by
  refine or_congr_left ⟨?_, ?_⟩
  · rintro ⟨ca', hca', hkey⟩
    obtain ⟨hmem, _⟩ | ⟨ca₀, hca₀, rfl⟩ := Table.mem_update.mp hca'
    · exact ⟨ca', hmem, hkey⟩
    · exact ⟨ca₀, Table.mem_of_get? hca₀, hkey⟩
  · rintro ⟨ca', hca', hkey⟩
    by_cases hid : ca'.id = ca.id
    · have hget : st.cas.get? ca.id = some ca' := Table.get?_eq_some_iff.mpr ⟨hca', hid⟩
      exact ⟨_, Table.mem_update.mpr (.inr ⟨ca', hget, rfl⟩), hkey⟩
    · exact ⟨ca', Table.mem_update.mpr (.inl ⟨hca', hid⟩), hkey⟩

theorem stored_addCertificate {row : Certificate} (h : st.addCertificate row = .ok st') :
    Stored st' key ↔ Stored st key ∨ row.prv.map Encoded.content = some key := by
  rw [(CertificateService.addCertificate_eq_ok.mp h).2]
  unfold Stored
  simp only [Table.mem_insert, or_and_right, exists_or, exists_eq_left, or_assoc]
  rfl

theorem stored_of_setCertificate {certId : ℕ} {f : Certificate → Certificate}
    (hf : ∀ c, (f c).prv.map Encoded.content = some key')
    (h : Stored (st.setCertificate certId f) key) : Stored st key ∨ key = key' := by
  obtain hca | ⟨c, hc, hkey⟩ := h
  · exact .inl (.inl hca)
  · obtain ⟨hmem, _⟩ | ⟨c₀, _, rfl⟩ := Table.mem_update.mp hc
    · exact .inl (.inr ⟨c, hmem, hkey⟩)
    · have hsame : some key = some key' := hkey.symm.trans (hf c₀)
      exact .inr (Option.some.inj hsame)

theorem stored_setCertificate {certId : ℕ} {f : Certificate → Certificate} {row : Certificate}
    (hf : ∀ c, (f c).prv.map Encoded.content = some key)
    (hrow : st.certificates.get? certId = some row) : Stored (st.setCertificate certId f) key :=
  .inr ⟨_, Table.mem_update.mpr (.inr ⟨row, hrow, rfl⟩), hf row⟩

theorem heldKey_setCertificate {certId : ℕ} {f : Certificate → Certificate} {row : Certificate}
    (hf : ∀ c, (f c).prv.map Encoded.content = some key)
    (hrow : st.certificates.get? certId = some row) :
    Site.heldKey (st.setCertificate certId f) certId = some key := by
  unfold Site.heldKey Store.setCertificate
  rw [Table.get?_update_self hrow]
  exact hf row

theorem content_renewedRow (x : X509) (c : Certificate) :
    (Routes.renewedRow x key c).prv.map Encoded.content = some key := rfl

theorem content_createdRow [X509Library] (r : CertificateService.CreateRequest) (x : X509)
    (d : Draw) :
    (CertificateService.createdRow st r x key d).prv.map Encoded.content =
      if r.privateKeyLocation = "stored" then some key else none := by
  unfold CertificateService.createdRow
  dsimp only
  split_ifs
  · exact congrArg some (Encoded.content_encrypt _ (.base64 key))
  · rfl

end Columns

section Files

variable {writable : String → Bool} {files : String → Option (Encoded.Bytes KeyPem)}
  {path path' : String} {key : KeyPem}

theorem fileKey_of_save {content : Encoded.Bytes KeyPem}
    (h : (Site.save writable files path content path').bind fileKey = some key) :
    (files path').bind fileKey = some key ∨ writable path = true ∧ fileKey content = some key := by
  unfold Site.save at h
  split_ifs at h with hwritable
  · by_cases hpath : path' = path
    · rw [hpath, Function.update_self] at h
      exact .inr ⟨hwritable, h⟩
    · rw [Function.update_of_ne hpath] at h
      exact .inl h
  · exact .inl h

theorem save_self (content : Encoded.Bytes KeyPem) (h : writable path = true) :
    Site.save writable files path content path = some content := by
  rw [Site.save, if_pos h, Function.update_self]

theorem content_of_fileKey {e : Encoded KeyPem} (h : fileKey e.bytes = some key) :
    e.content = key := by
  cases e with
  | plain k => cases h
  | base64 k => exact Option.some.inj h
  | sealed _ k => exact Option.some.inj h

theorem fileKey_of_saveKey {prv : Option (Encoded KeyPem)}
    (h : (Site.saveKey writable path prv files path').bind fileKey = some key) :
    (files path').bind fileKey = some key ∨ prv.map Encoded.content = some key := by
  cases prv with
  | none => exact .inl h
  | some e =>
    obtain hbefore | ⟨_, hkey⟩ := fileKey_of_save h
    · exact .inl hbefore
    · exact .inr (congrArg some (content_of_fileKey hkey))

variable [FileNaming]

theorem fileKey_of_saveAll {st : Store}
    (h : (Site.saveAll writable st files path').bind fileKey = some key) :
    (files path').bind fileKey = some key ∨ Stored st key := by
  let Known (files' : String → Option (Encoded.Bytes KeyPem)) : Prop :=
    (files' path').bind fileKey = some key → (files path').bind fileKey = some key ∨ Stored st key
  have hcas : Known (st.cas.rows.foldl
      (fun files ca => Site.saveKey writable (caKeyPath ca) ca.prv files) files) := by
    refine List.foldlRecOn (motive := Known) _ _ (fun h => .inl h) fun files' hfiles ca hca hkey => ?_
    obtain hbefore | hstored := fileKey_of_saveKey hkey
    · exact hfiles hbefore
    · exact .inr (.inl ⟨ca, hca, hstored⟩)
  refine List.foldlRecOn (motive := Known) _ _ hcas (fun files' hfiles c hc hkey => ?_) h
  obtain hbefore | hstored := fileKey_of_saveKey hkey
  · exact hfiles hbefore
  · exact .inr (.inr ⟨c, hc, hstored⟩)

end Files

section Exports

variable {st : Store} {key : KeyPem}

theorem content_exportKey (prv : Option (Encoded KeyPem)) :
    (exportKey st prv).map Encoded.content = prv.map Encoded.content := by
  cases prv with
  | none => rfl
  | some e =>
    unfold exportKey
    rw [Option.map_some, Option.map_some, Option.map_some]
    cases hkey : (e.decrypt st.keyEncryptionKey).bind Encoded.decoded with
    | none => rfl
    | some k =>
      obtain ⟨e', he', hdecoded⟩ := Option.bind_eq_some_iff.mp hkey
      have hcontent := Encoded.content_of_decrypt he'
      rw [Encoded.content_of_decoded hdecoded] at hcontent
      exact congrArg some hcontent

theorem privateKey_of_exportCa {ca : CA} {e : CaExport} (h : exportCa st ca = .ok e) :
    e.privateKey = exportKey st ca.prv := by
  simp only [exportCa, bind_eq_ok, pure_eq_ok] at h
  obtain ⟨_, _, rfl⟩ := h
  rfl

theorem privateKey_of_exportCertificate {c : Certificate} {e : CertificateExport}
    (h : exportCertificate st c = .ok e) : e.privateKey = exportKey st c.prv := by
  simp only [exportCertificate, bind_eq_ok, pure_eq_ok] at h
  obtain ⟨_, _, _, _, rfl⟩ := h
  rfl

theorem stored_of_mem_keys {includeCas includeCertificates : Bool} {b : Backup}
    (h : createBackup st includeCas includeCertificates = .ok b) (hkey : key ∈ b.keys) :
    Stored st key := by
  simp only [createBackup, bind_eq_ok, pure_eq_ok] at h
  obtain ⟨cas, hcas, certificates, hcertificates, rfl⟩ := h
  obtain hmem | hmem := List.mem_append.mp hkey
  · obtain ⟨e, he, hcontent⟩ := List.mem_filterMap.mp hmem
    cases includeCas with
    | false =>
      cases hcas
      cases he
    | true =>
      obtain ⟨ca, hca, hexport⟩ := (mem_iff_of_mapM_eq_ok hcas).mp he
      rw [privateKey_of_exportCa hexport, content_exportKey] at hcontent
      exact .inl ⟨ca, hca, hcontent⟩
  · obtain ⟨e, he, hcontent⟩ := List.mem_filterMap.mp hmem
    cases includeCertificates with
    | false =>
      cases hcertificates
      cases he
    | true =>
      obtain ⟨c, hc, hexport⟩ := (mem_iff_of_mapM_eq_ok hcertificates).mp he
      rw [privateKey_of_exportCertificate hexport, content_exportKey] at hcontent
      exact .inr ⟨c, hc, hcontent⟩

end Exports

namespace Site

variable {s : Site} {writable : String → Bool} {key key' : KeyPem}

section Renewing

variable {certId : ℕ} {d : Draw}

/-- A renewal changes nothing, or it puts the new key into the column. -/
inductive Renews (s : Site) (certId : ℕ) : Site × Option KeyPem → Prop
  | refused : Renews s certId (s, none)
  | renewed {row : Certificate} (x : X509) (key : KeyPem) :
      s.store.certificates.get? certId = some row →
      Renews s certId
        ({ s with store := s.store.setCertificate certId (Routes.renewedRow x key) }, some key)

theorem renews_of_tryRenew {row : Certificate} {ca : CA} {st' : Store}
    (hrow : s.store.certificates.get? certId = some row)
    (h : Routes.tryRenew s.store row ca d = .ok st') :
    Renews s certId ({ s with store := st' }, heldKey st' certId) := by
  obtain ⟨_, _, x, key, _, _, _, rfl⟩ := Routes.tryRenew_eq_ok h
  have hid : row.id = certId := Table.key_of_get? hrow
  rw [hid, heldKey_setCertificate (fun c => content_renewedRow x c) hrow]
  exact .renewed x key hrow

theorem renew_renews (certId : ℕ) (d : Draw) : Renews s certId (s.renew certId d) := by
  unfold renew Routes.renewCertificate
  cases hrow : s.store.certificates.get? certId with
  | none => exact .refused
  | some row =>
    by_cases hcrt : row.crt = none
    · simpa [hcrt] using Renews.refused
    cases hca : Routes.issuingCa s.store row with
    | none => simpa [hcrt, hca] using Renews.refused
    | some ca =>
      by_cases hprv : ca.prv = none
      · simpa [hcrt, hca, hprv] using Renews.refused
      cases hrenew : Routes.tryRenew s.store row ca d with
      | error e => simpa [hcrt, hca, hprv, hrenew] using Renews.refused
      | ok st' => simpa [hcrt, hca, hprv, hrenew] using renews_of_tryRenew hrow hrenew

theorem bulkRenewOne_renews (request : ℕ × Draw) :
    Renews s request.1 (s.bulkRenewOne request) := by
  unfold bulkRenewOne Routes.bulkRenewOne Routes.bulkRenewNote
  cases hrow : s.store.certificates.get? request.1 with
  | none => exact .refused
  | some row =>
    by_cases hcrt : row.crt = none
    · simpa [hcrt] using Renews.refused
    cases hca : s.store.cas.first fun c => some c.refid = row.caref with
    | none => simpa [hcrt, hca] using Renews.refused
    | some ca =>
      by_cases hprv : ca.prv = none
      · simpa [hcrt, hca, hprv] using Renews.refused
      cases hrenew : Routes.tryRenew s.store row ca request.2 with
      | error e => simpa [hcrt, hca, hprv, hrenew] using Renews.refused
      | ok st' => simpa [hcrt, hca, hprv, hrenew] using renews_of_tryRenew hrow hrenew

theorem Renews.holds {result : Site × Option KeyPem} (h : Renews s certId result)
    (hkey : result.2 = some key) : result.1.Holds key := by
  cases h with
  | refused => cases hkey
  | renewed x key' hrow =>
    cases hkey
    exact .column (stored_setCertificate (fun c => content_renewedRow x c) hrow)

theorem Renews.holds_before {result : Site × Option KeyPem} (h : Renews s certId result)
    (hholds : result.1.Holds key) : s.Holds key ∨ result.2 = some key := by
  cases h with
  | refused => exact .inl hholds
  | renewed x key' hrow =>
    cases hholds with
    | column hcolumn =>
      obtain hbefore | hkey :=
        stored_of_setCertificate (fun c => content_renewedRow x c) hcolumn
      · exact .inl (.column hbefore)
      · exact .inr (congrArg some hkey.symm)
    | file path hfile => exact .inl (.file _ hfile)
    | backup hb hkey => exact .inl (.backup hb hkey)

end Renewing

section Creating

variable [X509Library] {r : CertificateService.CreateRequest} {d : Draw} {row : Certificate}

def creation (s : Site) (r : CertificateService.CreateRequest) (d : Draw) :
    Option (Certificate × KeyPem) :=
  match made s.store r d with
  | .error _ => none
  | .ok (_, x, key) =>
    if (s.store.certificates.first fun c => c.refid = d.refid).isSome then none
    else some (CertificateService.createdRow s.store r x key d, key)

variable [FileNaming]

def WritesKey (writable : String → Bool) (row : Certificate) : Prop :=
  writable (certCertPath row) = true ∧ writable (certKeyPath row) = true

theorem create_of_creation_none (h : s.creation r d = none) :
    s.create writable r d = (s, none) := by
  unfold creation at h
  unfold create
  cases hmade : made s.store r d with
  | error e => rfl
  | ok result =>
    obtain ⟨ca, x, key⟩ := result
    rw [hmade] at h
    dsimp only at h ⊢
    split_ifs at h with hfound
    have hadd : (s.store.countSerial ca).addCertificate
        (CertificateService.createdRow s.store r x key d) =
          .error (.integrityError "certificates.refid") := if_pos hfound
    rw [hadd]

theorem create_of_creation (writable : String → Bool) (h : s.creation r d = some (row, key)) :
    ∃ st, s.create writable r d =
        ({ s with store := st, files := s.saveCreated writable row key }, some key) ∧
      ∀ k, Stored st k ↔ Stored s.store k ∨ r.privateKeyLocation = "stored" ∧ key = k := by
  unfold creation at h
  unfold create
  cases hmade : made s.store r d with
  | error e =>
    rw [hmade] at h
    cases h
  | ok result =>
    obtain ⟨ca, x, key'⟩ := result
    rw [hmade] at h
    dsimp only at h ⊢
    split_ifs at h with hfound
    cases h
    have hadd : (s.store.countSerial ca).addCertificate
        (CertificateService.createdRow s.store r x key d) = .ok _ := if_neg hfound
    rw [hadd]
    refine ⟨_, rfl, fun k => ?_⟩
    rw [stored_addCertificate hadd, stored_countSerial, content_createdRow]
    split_ifs with hlocation
    · simp [hlocation]
    · simp [hlocation]

omit [X509Library] in
theorem saveCreated_of_not (h : ¬WritesKey writable row) :
    (s.saveCreated writable row key = s.files) := by
  unfold saveCreated
  split_ifs with hcert
  · exact if_neg fun hkey => h ⟨hcert, hkey⟩
  · rfl

/-- The key of a creation is kept if it was asked to be stored, or if its file can be written. -/
def Keeps (writable : String → Bool) (r : CertificateService.CreateRequest) (row : Certificate) :
    Prop :=
  r.privateKeyLocation = "stored" ∨ WritesKey writable row

theorem holds_of_create (h : s.creation r d = some (row, key))
    (hholds : (s.create writable r d).1.Holds key') :
    s.Holds key' ∨ key = key' ∧ Keeps writable r row := by
  obtain ⟨st, hcreate, hstored⟩ := create_of_creation writable h
  rw [hcreate] at hholds
  cases hholds with
  | column hcolumn =>
    obtain hbefore | ⟨hlocation, hkey⟩ := (hstored key').mp hcolumn
    · exact .inl (.column hbefore)
    · exact .inr ⟨hkey, .inl hlocation⟩
  | file path hfile =>
    unfold saveCreated at hfile
    split_ifs at hfile with hcert
    · obtain hbefore | ⟨hkeyFile, hkey⟩ := fileKey_of_save hfile
      · exact .inl (.file _ hbefore)
      · exact .inr ⟨Option.some.inj hkey, .inr ⟨hcert, hkeyFile⟩⟩
    · exact .inl (.file _ hfile)
  | backup hb hkey => exact .inl (.backup hb hkey)

theorem holds_create_of_keeps (h : s.creation r d = some (row, key))
    (hkeeps : Keeps writable r row) : (s.create writable r d).1.Holds key := by
  obtain ⟨st, hcreate, hstored⟩ := create_of_creation writable h
  rw [hcreate]
  obtain hlocation | ⟨hcert, hkeyFile⟩ := hkeeps
  · exact .column ((hstored key).mpr (.inr ⟨hlocation, rfl⟩))
  · refine .file (certKeyPath row) ?_
    change ((s.saveCreated writable row key) (certKeyPath row)).bind fileKey = some key
    rw [saveCreated, if_pos hcert, save_self _ hkeyFile]
    rfl

theorem holds_create_of_not (h : s.creation r d = some (row, key))
    (hwrites : ¬WritesKey writable row) (hholds : s.Holds key') :
    (s.create writable r d).1.Holds key' := by
  obtain ⟨st, hcreate, hstored⟩ := create_of_creation writable h
  rw [hcreate, saveCreated_of_not hwrites]
  cases hholds with
  | column hcolumn => exact .column ((hstored key').mpr (.inl hcolumn))
  | file path hfile => exact .file _ hfile
  | backup hb hkey => exact .backup hb hkey

end Creating

section Restoring

variable [FileNaming] {cas : List BackupService.CaEntry}
  {certificates : List BackupService.CertificateEntry} {ts : List BackupService.TakenCa}
  {us : List BackupService.TakenCertificate} {st : Store}

def Brings (st : Store) (ts : List BackupService.TakenCa) (us : List BackupService.TakenCertificate)
    (key : KeyPem) : Prop :=
  (∃ t, (BackupService.caMerge st).LastOfName ts t ∧ t.key = some key) ∨
    ∃ u, (BackupService.certificateMerge st).LastOfName us u ∧ u.key = some key

omit [FileNaming] in
theorem stored_or_brings (h : Stored (BackupService.taken st ts us) key) :
    Stored st key ∨ Brings st ts us key := by
  obtain ⟨ca, hca, hkey⟩ | ⟨c, hc, hkey⟩ := h
  · obtain ⟨ca₀, hca₀, heq⟩ | ⟨t, ht, heq⟩ :=
      Merge.column_mergeAll (BackupService.caMerge_carries st) hca
    · exact .inl (.inl ⟨ca₀, hca₀, heq.trans hkey⟩)
    · exact .inr (.inl ⟨t, ht, heq.trans hkey⟩)
  · obtain ⟨c₀, hc₀, heq⟩ | ⟨u, hu, heq⟩ :=
      Merge.column_mergeAll (BackupService.certificateMerge_carries st) hc
    · exact .inl (.inr ⟨c₀, hc₀, heq.trans hkey⟩)
    · exact .inr (.inr ⟨u, hu, heq.trans hkey⟩)

omit [FileNaming] in
theorem stored_of_brings (h : Brings st ts us key) : Stored (BackupService.taken st ts us) key := by
  obtain ⟨t, ht, hkey⟩ | ⟨u, hu, hkey⟩ := h
  · obtain ⟨ca, hca, heq⟩ :=
      Merge.ofName_of_lastOfName (t := st.cas) (BackupService.caMerge_carries st) ht
    exact .inl ⟨ca, Table.mem_of_first hca, heq.trans hkey⟩
  · obtain ⟨c, hc, heq⟩ :=
      Merge.ofName_of_lastOfName (t := st.certificates) (BackupService.certificateMerge_carries st) hu
    exact .inr ⟨c, Table.mem_of_first hc, heq.trans hkey⟩

theorem restore_of_read (hts : cas.mapM BackupService.readCa = .ok ts)
    (hus : certificates.mapM BackupService.readCertificate = .ok us) :
    s.restore writable cas certificates =
      { s with
        store := BackupService.taken s.store ts us
        files := saveAll writable (BackupService.taken s.store ts us) s.files } := by
  unfold restore
  rw [BackupService.restoreCertificates_eq_ok_iff.mpr ⟨ts, hts, us, hus, rfl⟩]

theorem restore_of_not_read (h : ∀ ts us, cas.mapM BackupService.readCa = .ok ts →
    certificates.mapM BackupService.readCertificate ≠ .ok us) :
    s.restore writable cas certificates = s := by
  unfold restore
  cases hrestore : BackupService.restoreCertificates s.store cas certificates with
  | error e => rfl
  | ok st =>
    obtain ⟨ts, hts, us, hus, _⟩ := BackupService.restoreCertificates_eq_ok_iff.mp hrestore
    exact absurd hus (h ts us hts)

theorem holds_of_restore (hts : cas.mapM BackupService.readCa = .ok ts)
    (hus : certificates.mapM BackupService.readCertificate = .ok us)
    (h : (s.restore writable cas certificates).Holds key) :
    s.Holds key ∨ Brings s.store ts us key := by
  rw [restore_of_read hts hus] at h
  have hcolumn : Stored (BackupService.taken s.store ts us) key →
      s.Holds key ∨ Brings s.store ts us key := fun hstored =>
    (stored_or_brings hstored).imp_left .column
  cases h with
  | column hstored => exact hcolumn hstored
  | file path hfile =>
    obtain hbefore | hstored := fileKey_of_saveAll hfile
    · exact .inl (.file _ hbefore)
    · exact hcolumn hstored
  | backup hb hkey => exact .inl (.backup hb hkey)

theorem holds_restore_of_brings (hts : cas.mapM BackupService.readCa = .ok ts)
    (hus : certificates.mapM BackupService.readCertificate = .ok us)
    (h : Brings s.store ts us key) : (s.restore writable cas certificates).Holds key := by
  rw [restore_of_read hts hus]
  exact .column (stored_of_brings h)

end Restoring

theorem holds_of_backup {includeCas includeCertificates : Bool}
    (h : (s.backup includeCas includeCertificates).Holds key) : s.Holds key := by
  unfold backup at h
  cases hbackup : createBackup s.store includeCas includeCertificates with
  | error e =>
    rw [hbackup] at h
    exact h
  | ok b =>
    rw [hbackup] at h
    cases h with
    | column hstored => exact .column hstored
    | file path hfile => exact .file _ hfile
    | backup hb hkey =>
      obtain hmem | hmem := List.mem_append.mp hb
      · exact .backup hmem hkey
      · rw [List.mem_singleton.mp hmem] at hkey
        exact .column (stored_of_mem_keys hbackup hkey)

end Site

namespace Watched

variable [X509Library] [FileNaming] {w : Watched}

/-- A step that goes wrong makes a key that is not to be kept and keeps it, or keeps such a key from
before. -/
def Careful (w : Watched) : Event → Prop
  | .create r d writable => ∀ row key, w.site.creation r d = some (row, key) →
    if r.privateKeyLocation = "download_only" then
      ¬Site.WritesKey writable row ∧ ¬w.site.Holds key
    else Site.Keeps writable r row → key ∉ w.downloadOnly
  | .renew certId d => ∀ key, (w.site.renew certId d).2 = some key →
    isDownloadOnly w.site.store certId = false ∧ key ∉ w.downloadOnly
  | .bulkRenewOne request => ∀ key, (w.site.bulkRenewOne request).2 = some key →
    isDownloadOnly w.site.store request.1 = false ∧ key ∉ w.downloadOnly
  | .download _ => True
  | .backup _ _ => True
  | .restore cas certificates _ => ∀ ts us, cas.mapM BackupService.readCa = .ok ts →
    certificates.mapM BackupService.readCertificate = .ok us →
      ∀ key ∈ w.downloadOnly, ¬Site.Brings w.site.store ts us key

omit [X509Library] [FileNaming] in
theorem clean_note_iff {only : Bool} {result : Site × Option KeyPem} (hclean : w.Clean)
    (hholds : ∀ key, result.1.Holds key → w.site.Holds key ∨ result.2 = some key) :
    (w.note only result).Clean ↔ ∀ key, result.2 = some key →
      only = true ∨ key ∈ w.downloadOnly → ¬result.1.Holds key := by
  have hmem : ∀ key, key ∈ (w.note only result).downloadOnly ↔
      only = true ∧ result.2 = some key ∨ key ∈ w.downloadOnly := by
    intro key
    unfold note
    cases only with
    | false => simp
    | true => simp
  constructor
  · intro h key hkey hnoted
    exact h key ((hmem key).mpr (hnoted.imp_left fun honly => ⟨honly, hkey⟩))
  · intro h key hkey hheld
    obtain ⟨honly, hmade⟩ | hbefore := (hmem key).mp hkey
    · exact h key hmade (.inl honly) hheld
    · obtain hheldBefore | hmade := hholds key hheld
      · exact hclean key hbefore hheldBefore
      · exact h key hmade (.inr hbefore) hheld

theorem clean_create_iff (hclean : w.Clean) (r : CertificateService.CreateRequest) (d : Draw)
    (writable : String → Bool) :
    (w.step (.create r d writable)).Clean ↔ Careful w (.create r d writable) := by
  cases hcreation : w.site.creation r d with
  | none =>
    have hcareful : Careful w (.create r d writable) := by
      intro row key hsome
      rw [hcreation] at hsome
      cases hsome
    refine iff_of_true ?_ hcareful
    rw [step, Site.create_of_creation_none hcreation]
    refine (clean_note_iff hclean fun key h => .inl h).mpr fun key hkey => ?_
    cases hkey
  | some creation =>
    obtain ⟨row, key⟩ := creation
    have hmade : (w.site.create writable r d).2 = some key := by
      obtain ⟨st, hcreate, _⟩ := Site.create_of_creation writable hcreation
      rw [hcreate]
    have hholds : ∀ key', (w.site.create writable r d).1.Holds key' →
        w.site.Holds key' ∨ (w.site.create writable r d).2 = some key' := by
      intro key' h
      refine (Site.holds_of_create hcreation h).imp_right fun hkey => ?_
      rw [hmade, hkey.1]
    have hcareful : Careful w (.create r d writable) ↔
        if r.privateKeyLocation = "download_only" then
          ¬Site.WritesKey writable row ∧ ¬w.site.Holds key
        else Site.Keeps writable r row → key ∉ w.downloadOnly := by
      constructor
      · exact fun h => h row key hcreation
      · intro h row' key' hcreation'
        cases hcreation.symm.trans hcreation'
        exact h
    rw [step, clean_note_iff hclean hholds, hcareful]
    simp only [hmade, Option.some.injEq, forall_eq']
    split_ifs with hlocation
    · -- the key is to be handed out only: it must neither be written nor be there before
      constructor
      · intro h
        have hfree := h (.inl (decide_eq_true hlocation))
        have hwrites : ¬Site.WritesKey writable row := fun hw =>
          hfree (Site.holds_create_of_keeps hcreation (.inr hw))
        exact ⟨hwrites, fun hheld => hfree (Site.holds_create_of_not hcreation hwrites hheld)⟩
      · rintro ⟨hwrites, hnot⟩ _ hheld
        obtain hbefore | ⟨_, hstored | hw⟩ := Site.holds_of_create hcreation hheld
        · exact hnot hbefore
        · rw [hlocation] at hstored
          exact absurd hstored (by decide)
        · exact hwrites hw
    · -- the key may be kept, unless it is one of those that may not
      constructor
      · intro h hkeeps hmem
        exact h (.inr hmem) (Site.holds_create_of_keeps hcreation hkeeps)
      · intro h hnoted hheld
        have hmem : key ∈ w.downloadOnly :=
          hnoted.resolve_left fun honly => hlocation (of_decide_eq_true honly)
        obtain hbefore | ⟨_, hkeeps⟩ := Site.holds_of_create hcreation hheld
        · exact hclean key hmem hbefore
        · exact h hkeeps hmem

omit [X509Library] [FileNaming] in
theorem clean_renews_iff {certId : ℕ} {only : Bool} {result : Site × Option KeyPem}
    (hclean : w.Clean) (hrenews : Site.Renews w.site certId result) :
    (w.note only result).Clean ↔
      ∀ key, result.2 = some key → only = false ∧ key ∉ w.downloadOnly := by
  rw [clean_note_iff hclean fun key h => hrenews.holds_before h]
  refine forall₂_congr fun key hkey => ?_
  have hholds := hrenews.holds hkey
  constructor
  · intro h
    have hnot : ¬(only = true ∨ key ∈ w.downloadOnly) := fun hnoted => h hnoted hholds
    rw [not_or] at hnot
    exact ⟨Bool.eq_false_of_not_eq_true hnot.1, hnot.2⟩
  · rintro ⟨rfl, hnot⟩ hnoted
    exact absurd (hnoted.resolve_left (by decide)) hnot

theorem clean_restore_iff (hclean : w.Clean) (cas : List BackupService.CaEntry)
    (certificates : List BackupService.CertificateEntry) (writable : String → Bool) :
    (w.step (.restore cas certificates writable)).Clean ↔
      Careful w (.restore cas certificates writable) := by
  constructor
  · intro h ts us hts hus key hkey hbrings
    exact h key hkey (Site.holds_restore_of_brings hts hus hbrings)
  · intro h key hkey hheld
    by_cases hread : ∃ ts us, cas.mapM BackupService.readCa = .ok ts ∧
        certificates.mapM BackupService.readCertificate = .ok us
    · obtain ⟨ts, us, hts, hus⟩ := hread
      obtain hbefore | hbrings := Site.holds_of_restore hts hus hheld
      · exact hclean key hkey hbefore
      · exact h ts us hts hus key hkey hbrings
    · have hsame : w.site.restore writable cas certificates = w.site :=
        Site.restore_of_not_read fun ts us hts hus => hread ⟨ts, us, hts, hus⟩
      change (w.site.restore writable cas certificates).Holds key at hheld
      rw [hsame] at hheld
      exact hclean key hkey hheld

theorem clean_step_iff (e : Event) (hclean : w.Clean) : (w.step e).Clean ↔ Careful w e := by
  cases e with
  | create r d writable => exact clean_create_iff hclean r d writable
  | renew certId d => exact clean_renews_iff hclean (Site.renew_renews certId d)
  | bulkRenewOne request => exact clean_renews_iff hclean (Site.bulkRenewOne_renews request)
  | download certId => exact iff_of_true hclean trivial
  | backup includeCas includeCertificates =>
    refine iff_of_true (fun key hkey hheld => ?_) trivial
    exact hclean key hkey (Site.holds_of_backup hheld)
  | restore cas certificates writable => exact clean_restore_iff hclean cas certificates writable

end Watched

/-- No key that is only to be handed out is kept in any state of a run exactly if each step of the
run is careful. -/
theorem never_kept_iff [X509Library] [FileNaming] (site : Site) (es : List Event) :
    (∀ pre, pre <+: es → (run Watched.step ⟨site, []⟩ pre).Clean) ↔
      Meets Watched.step Watched.Careful ⟨site, []⟩ es := by
  have hstart : Watched.Clean ⟨site, []⟩ := fun key hkey => absurd hkey List.not_mem_nil
  exact forall_prefix_iff_meets (I := fun _ => True)
    (fun w e _ hclean => Watched.clean_step_iff e hclean) (fun _ _ _ _ _ => trivial) es trivial
    hstart

section Sample

def sampleRequest : CertificateService.CreateRequest where
  descr := "Leaf"
  caref := "root"
  subject := sampleName "leaf"
  privateKeyLocation := "download_only"

def sampleSite : Site where
  store := sampleStore

/-- A key that was only to be handed out stays in a file. -/
theorem key_kept_in_file :
    ¬(let _ := sampleLibrary
      let _ : FileNaming := ⟨id⟩
      ∀ (site : Site) (es pre : List Event), pre <+: es →
        (run Watched.step ⟨site, []⟩ pre).Clean) := by
  let _ := sampleLibrary
  let _ : FileNaming := ⟨id⟩
  intro h
  let e : Event := .create sampleRequest (sampleDraw 7 "leaf" 0) fun _ => true
  have hclean : (Watched.step ⟨sampleSite, []⟩ e).Clean := h sampleSite [e] [e] List.prefix_rfl
  have hstart : Watched.Clean ⟨sampleSite, []⟩ := fun key hkey => absurd hkey List.not_mem_nil
  have hcareful := (Watched.clean_step_iff e hstart).mp hclean
  have hmade : (sampleSite.creation sampleRequest (sampleDraw 7 "leaf" 0)).isSome = true := by
    decide +kernel
  obtain ⟨⟨row, key⟩, hcreation⟩ := Option.isSome_iff_exists.mp hmade
  have hnot : ¬Site.WritesKey (fun _ => true) row ∧ ¬sampleSite.Holds key :=
    hcareful row key hcreation
  exact hnot.1 ⟨rfl, rfl⟩

end Sample

end DownloadOnly

end CaManager
