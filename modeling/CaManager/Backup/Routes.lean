import CaManager.Backup.Envelope

/-!
# The backup routes

The routes of the settings and of the system each create backups and restore them. A backup that
the system routes are shown under an accepted name comes back exactly, and under no other
password than those that HMAC takes for the same key. The restore of the settings hands the
name of a temporary file to a service that wants its content.
-/

namespace CaManager

open Library

namespace BackupService

inductive Api
  | settings
  | system
  deriving DecidableEq

section Creating

variable {F : Type} [FloatText F] [Encryption]

def settingsPassword (given : Option String) (drawn : String) : Except Response String :=
  if given.getD "" = "" then return drawn
  else do
    ensure (8 ≤ (given.getD "").length) ⟨400, "Password must be at least 8 characters"⟩
    return given.getD ""

def settingsCreate (exported : Except BackupError (Exports F)) (given : Option String)
    (drawn : String) (draws : Draws) : Except Response (Bytes × String) := do
  let password ← settingsPassword given drawn
  let file ← (createBackup exported password draws).mapError fun _ => ⟨500, "Backup failed"⟩
  return (file, password)

def systemCreate (exported : Except BackupError (Exports F)) (given : Option String)
    (draws : Draws) : Except Response (Bytes × String) := do
  let password := given.getD ""
  ensure (password ≠ "") ⟨400, "Password required for encryption"⟩
  ensure (12 ≤ password.length) ⟨400, "Password must be at least 12 characters"⟩
  let file ← (createBackup exported password draws).mapError fun
    | .valueError _ => ⟨400, "Invalid backup parameters"⟩
    | .raised _ => ⟨500, "Backup failed"⟩
  return (file, password)

def create (api : Api) (exported : Except BackupError (Exports F)) (given : Option String)
    (drawn : String) (draws : Draws) : Except Response (Bytes × String) :=
  match api with
  | .settings => settingsCreate exported given drawn draws
  | .system => systemCreate exported given draws

theorem createBackup_of_create {api : Api} {exported : Except BackupError (Exports F)}
    {given : Option String} {drawn : String} {draws : Draws} {file : Bytes} {password : String}
    (h : create api exported given drawn draws = .ok (file, password)) :
    createBackup exported password draws = .ok file := by
  cases api with
  | settings =>
    simp only [create, settingsCreate, bind_eq_ok, mapError_eq_ok, pure_eq_ok] at h
    obtain ⟨_, _, _, hfile, hpair⟩ := h
    cases hpair
    exact hfile
  | system =>
    simp only [create, systemCreate, bind_eq_ok, mapError_eq_ok, pure_eq_ok] at h
    obtain ⟨_, _, _, _, _, hfile, hpair⟩ := h
    cases hpair
    exact hfile

end Creating

section Restoring

/-- A name as it is safe to write to, by the framework. -/
class UploadLibrary where
  secureFilename : String → String

def maxContentLength : ℕ := 50 * 1024 * 1024

def backupExtensions : List String := [".zip", ".enc"]

/-- From the last dot of a name on, if there is something before and after it. -/
def suffix (name : String) : String :=
  match name.toList.reverse.span (· ≠ '.') with
  | (extension, '.' :: _ :: _) =>
    if extension = [] then "" else String.ofList ('.' :: extension.reverse)
  | _ => ""

structure Upload where
  filename : String
  content : Bytes

/-- A request to restore; its body holds the file. -/
structure RestoreRequest where
  file : Option Upload
  password : Option String
  contentLength : ℕ
  content_le : ∀ upload ∈ file, upload.content.length ≤ contentLength

def validateUpload [UploadLibrary] (file : Upload) (extensions : List String) (maxSize : ℕ) :
    Except BackupError Bytes := do
  ensure (file.filename ≠ "") (.valueError "No file provided")
  let filename := UploadLibrary.secureFilename file.filename
  ensure (filename ≠ "") (.valueError "Invalid filename")
  ensure (lower (suffix filename) ∈ extensions) (.valueError "Invalid file type")
  ensure (file.content.length ≤ maxSize) (.valueError "File too large")
  return file.content

/-- What the route of the settings checks before it calls the service, which it then hands the
name of a temporary file. -/
def settingsRequested (tmpPath : String) (r : RestoreRequest) :
    Except Response (Given × String) := do
  ensure (r.contentLength ≤ maxContentLength) ⟨413, "Request Entity Too Large"⟩
  let file ← orThrow r.file ⟨400, "No backup file provided"⟩
  ensure (file.filename ≠ "") ⟨400, "No file selected"⟩
  ensure (r.password.getD "" ≠ "") ⟨400, "Backup password required"⟩
  return (.path tmpPath, r.password.getD "")

def systemRequested [UploadLibrary] (r : RestoreRequest) : Except Response (Given × String) := do
  ensure (r.contentLength ≤ maxContentLength) ⟨500, "Restore failed"⟩
  let file ← orThrow r.file ⟨400, "No backup file provided"⟩
  let password := r.password.getD ""
  ensure (password ≠ "") ⟨400, "Password required for decryption"⟩
  ensure (12 ≤ password.length) ⟨400, "Password must be at least 12 characters"⟩
  let content ← (validateUpload file backupExtensions (100 * 1024 * 1024)).mapError
    fun _ => ⟨400, "Invalid backup file"⟩
  return (.bytes content, password)

def requested [UploadLibrary] (api : Api) (tmpPath : String) (r : RestoreRequest) :
    Except Response (Given × String) :=
  match api with
  | .settings => settingsRequested tmpPath r
  | .system => systemRequested r

def answered (api : Api) : Except BackupError Results → Response
  | .ok _ =>
    match api with
    | .settings => ⟨200, "Backup restored successfully. Please restart the application."⟩
    | .system => ⟨200, "Backup restored successfully"⟩
  | .error (.valueError _) =>
    match api with
    | .settings => ⟨500, "Restore failed"⟩
    | .system => ⟨400, "Invalid restore parameters"⟩
  | .error (.raised _) => ⟨500, "Restore failed"⟩

theorem status_answered_error (api : Api) (e : BackupError) : (answered api (.error e)).status ≠ 200 := by
  cases api <;> cases e <;> simp [answered]

def RestoreRequest.Shows (r : RestoreRequest) (file : Bytes) (password : String) : Prop :=
  (∃ upload ∈ r.file, upload.content = file) ∧ r.password = some password

section Requests

variable [UploadLibrary] {api : Api} {tmpPath : String} {r : RestoreRequest}

/-- The system route takes the upload: it is small enough, and its name has one of the two
endings. -/
def RestoreRequest.Uploadable (r : RestoreRequest) : Prop :=
  r.contentLength ≤ maxContentLength ∧ ∃ upload ∈ r.file, upload.filename ≠ "" ∧
    UploadLibrary.secureFilename upload.filename ≠ "" ∧
    lower (suffix (UploadLibrary.secureFilename upload.filename)) ∈ backupExtensions

theorem status_ne_of_requested {response : Response}
    (h : requested api tmpPath r = .error response) : response.status ≠ 200 := by
  have hraises : Raises (fun response : Response => response.status ≠ 200)
      (requested api tmpPath r) := by
    cases api with
    | settings =>
      refine (raises_ensure (by decide)).bind fun _ _ => ?_
      refine (raises_orThrow (by decide)).bind fun _ _ => ?_
      refine (raises_ensure (by decide)).bind fun _ _ => ?_
      exact (raises_ensure (by decide)).bind fun _ _ => raises_ok _
    | system =>
      refine (raises_ensure (by decide)).bind fun _ _ => ?_
      refine (raises_orThrow (by decide)).bind fun file _ => ?_
      refine (raises_ensure (by decide)).bind fun _ _ => ?_
      refine (raises_ensure (by decide)).bind fun _ _ => ?_
      refine (raises_mapError fun e => ?_).bind fun _ _ => raises_ok _
      exact (by decide : (400 : ℕ) ≠ 200)
  exact hraises response h

theorem systemRequested_eq_ok {given : Given} {password : String} :
    systemRequested r = .ok (given, password) ↔
      r.Uploadable ∧ r.password.getD "" = password ∧ 12 ≤ password.length ∧
        ∃ upload ∈ r.file, given = .bytes upload.content := by
  simp only [systemRequested, validateUpload, bind_eq_ok, ensure_eq_ok, orThrow_eq_ok,
    mapError_eq_ok, pure_eq_ok, Prod.mk.injEq]
  constructor
  · rintro ⟨_, hlength, upload, hupload, _, _, _, hpassword, content,
      ⟨_, hfilename, _, hsecure, _, hsuffix, _, _, rfl⟩, rfl, rfl⟩
    exact ⟨⟨hlength, upload, hupload, hfilename, hsecure, hsuffix⟩, rfl, hpassword, upload,
      hupload, rfl⟩
  · rintro ⟨⟨hlength, upload, hupload, hfilename, hsecure, hsuffix⟩, rfl, hpassword, upload',
      hupload', rfl⟩
    obtain rfl : upload = upload' := Option.mem_unique hupload hupload'
    have hne : r.password.getD "" ≠ "" := by
      intro hempty
      rw [hempty] at hpassword
      revert hpassword
      decide
    have hsize : upload.content.length ≤ 100 * 1024 * 1024 :=
      (r.content_le upload hupload).trans (hlength.trans (by decide))
    exact ⟨(), hlength, upload, hupload, (), hne, (), hpassword, _,
      ⟨(), hfilename, (), hsecure, (), hsuffix, (), hsize, rfl⟩, rfl, rfl⟩

end Requests

variable {F σ : Type} [FloatText F] [Encryption] [Decryption] [UploadLibrary]

def restore (rows : Rows F σ) (api : Api) (tmpPath : String) (r : RestoreRequest) (st : σ) :
    Response × σ :=
  match requested api tmpPath r with
  | .error response => (response, st)
  | .ok (given, password) =>
    let done := restoreBackup rows given password st
    (answered api done.1, done.2)

end Restoring

section Exactness

variable {F σ : Type} [FloatText F] [Encryption] [Decryption] [UploadLibrary]

def HandsOver (σ : Type) (api : Api) (tmpPath : String) (r : RestoreRequest)
    (data : JsonMembers F) (key : JsonTree F → Except BackupError (Option String)) : Prop :=
  ∀ (rows : Rows F σ) (st : σ),
    restore rows api tmpPath r st = (answered api (rows data key st).1, (rows data key st).2)

def Rejects (F σ : Type) [FloatText F] (api : Api) (tmpPath : String) (r : RestoreRequest) :
    Prop :=
  ∀ (rows : Rows F σ) (st : σ),
    (restore rows api tmpPath r st).1.status ≠ 200 ∧ (restore rows api tmpPath r st).2 = st

variable {api : Api} {tmpPath : String} {r : RestoreRequest}

theorem handsOver_of_openBackup {given : Given} {password : String} {data : JsonMembers F}
    {masterKey : Bytes} (h : requested api tmpPath r = .ok (given, password))
    (hopen : openBackup given password = .ok (data, masterKey)) :
    HandsOver σ api tmpPath r data (entryKey masterKey) := by
  intro rows st
  rw [restore, h]
  dsimp only
  rw [restoreBackup, hopen]

theorem rejects_of_openBackup
    (h : ∀ given password, requested api tmpPath r = .ok (given, password) →
      ∀ opened : JsonMembers F × Bytes, openBackup given password ≠ .ok opened) :
    Rejects F σ api tmpPath r := by
  intro rows st
  rw [restore]
  cases hr : requested api tmpPath r with
  | error response => exact ⟨status_ne_of_requested hr, rfl⟩
  | ok checked =>
    obtain ⟨given, password⟩ := checked
    dsimp only
    rw [restoreBackup]
    cases hopen : (openBackup given password : Except BackupError (JsonMembers F × Bytes)) with
    | error e => exact ⟨status_answered_error api e, rfl⟩
    | ok opened => exact absurd hopen (h given password hr opened)

theorem not_rejects_of_handsOver [Inhabited σ] {data : JsonMembers F}
    {key : JsonTree F → Except BackupError (Option String)}
    (h : HandsOver σ api tmpPath r data key) : ¬Rejects F σ api tmpPath r := by
  intro hrejects
  have hstatus := (hrejects (fun _ _ st => (.ok [], st)) default).1
  rw [h] at hstatus
  cases api <;> exact hstatus rfl

theorem openBackup_of_requested {given : Given} {password : String}
    {opened : JsonMembers F × Bytes} (h : requested api tmpPath r = .ok (given, password))
    (hopen : openBackup given password = .ok opened) :
    api = .system ∧ r.Uploadable ∧ r.password.getD "" = password ∧ 12 ≤ password.length ∧
      ∃ upload ∈ r.file, openBytes upload.content password = .ok opened := by
  cases api with
  | settings =>
    simp only [requested, settingsRequested, bind_eq_ok, pure_eq_ok] at h
    obtain ⟨_, _, _, _, _, _, _, _, hpair⟩ := h
    cases hpair
    rw [openBackup] at hopen
    split at hopen <;> cases hopen
  | system =>
    obtain ⟨hupload, hpassword, hlength, upload, hfile, rfl⟩ := systemRequested_eq_ok.mp h
    exact ⟨rfl, hupload, hpassword, hlength, upload, hfile, hopen⟩

/-- The private keys of the data, read as a restore reads them, are those that were exported. -/
def KeysComeBack (x : Exports F) (masterKey : Bytes) (data : JsonMembers F) : Prop :=
  ∃ cas certificates,
    JsonTree.lookup "certificate_authorities" data = some (.array cas) ∧
    cas.map (entryKey masterKey) = x.certificateAuthorities.map (fun e => .ok e.privateKey) ∧
    JsonTree.lookup "certificates" data = some (.array certificates) ∧
    certificates.map (entryKey masterKey) = x.certificates.map (fun e => .ok e.privateKey)

omit [UploadLibrary] in
theorem keysComeBack_of_ideal {x : Exports F} {password : String} {draws : Draws}
    {data : JsonMembers F} (hideal : Ideal x password draws)
    (hdata : encryptPrivateKeys x (masterKeyOf password draws) draws = .ok data) :
    KeysComeBack x (masterKeyOf password draws) (JsonTree.canonicalMembers data) := by
  obtain ⟨cas, hcas, certificates, hcertificates, rfl⟩ := encryptPrivateKeys_eq_ok.mp hdata
  refine ⟨_, _, JsonTree.lookup_canonicalMembers _ _, ?_, JsonTree.lookup_canonicalMembers _ _, ?_⟩
  · exact map_entryKey_canonical hcas fun i e keyPem c he hkey hc =>
      (hideal.decrypt_iff _ _ _ _).mpr ⟨.caKey he hkey, hc⟩
  · exact map_entryKey_canonical hcertificates fun i e keyPem c he hkey hc =>
      (hideal.decrypt_iff _ _ _ _).mpr ⟨.certificateKey he hkey, hc⟩

/-- The part that writes rows is run on what was serialised, and reads the keys from it. -/
def Recovers (σ : Type) (x : Exports F) (password : String) (draws : Draws) (api : Api)
    (tmpPath : String) (r : RestoreRequest) : Prop :=
  ∃ data, encryptPrivateKeys x (masterKeyOf password draws) draws = .ok data ∧
    HandsOver σ api tmpPath r (JsonTree.canonicalMembers data)
      (entryKey (masterKeyOf password draws)) ∧
    KeysComeBack x (masterKeyOf password draws) (JsonTree.canonicalMembers data)

def RestoreRequest.PassesFor (r : RestoreRequest) (file : Bytes) (password : String) : Prop :=
  r.Uploadable ∧ ∃ password', r.Shows file password' ∧ 12 ≤ password'.length ∧
    hmacKey (encodeText password') = hmacKey (encodeText password)

theorem recovers_of_passesFor {x : Exports F} {password : String} {draws : Draws} {file : Bytes}
    (hideal : Ideal x password draws) (hfile : createBackup (.ok x) password draws = .ok file)
    (h : r.PassesFor file password) :
    Recovers σ x password draws .system tmpPath r := by
  obtain ⟨_, x', hx, data, hdata, ciphertext, hciphertext, hparts⟩ := createBackup_eq_ok.mp hfile
  obtain rfl : x = x' := Except.ok.inj hx
  obtain ⟨hupload, password', ⟨⟨upload, hmem, hcontent⟩, hpassword⟩, hlength, hblock⟩ := h
  have hrequested : requested .system tmpPath r = .ok (.bytes upload.content, password') := by
    apply systemRequested_eq_ok.mpr
    refine ⟨hupload, ?_, hlength, upload, hmem, rfl⟩
    rw [hpassword, Option.getD_some]
  have hopen := openBytes_of_created hideal hdata hciphertext hblock
  rw [hparts, ← hcontent] at hopen
  exact ⟨data, hdata, handsOver_of_openBackup hrequested hopen, keysComeBack_of_ideal hideal hdata⟩

theorem rejects_of_not_passesFor {x : Exports F} {password : String} {draws : Draws}
    {file : Bytes} (hideal : Ideal x password draws)
    (hfile : createBackup (.ok x) password draws = .ok file)
    (h : ¬(api = .system ∧ r.PassesFor file password)) : Rejects F σ api tmpPath r := by
  obtain ⟨_, x', hx, data, hdata, ciphertext, hciphertext, hparts⟩ := createBackup_eq_ok.mp hfile
  obtain rfl : x = x' := Except.ok.inj hx
  apply rejects_of_openBackup
  intro given password' hrequested opened hopen
  obtain ⟨hapi, hupload, hpassword, hlength, upload, hmem, hbytes⟩ :=
    openBackup_of_requested hrequested hopen
  obtain ⟨hblock, data', hdata', ciphertext', hciphertext', hcontent⟩ :=
    created_of_openBytes hideal hbytes
  obtain rfl : data = data' := Except.ok.inj (hdata.symm.trans hdata')
  obtain rfl : ciphertext = ciphertext' := Option.some.inj (hciphertext.symm.trans hciphertext')
  have hgiven : r.password = some password' := by
    cases hr : r.password with
    | none =>
      rw [hr] at hpassword
      subst hpassword
      exact absurd hlength (by decide)
    | some p =>
      rw [hr] at hpassword
      rw [← hpassword]
      rfl
  exact h ⟨hapi, hupload, password',
    ⟨⟨upload, hmem, hcontent.symm.trans hparts⟩, hgiven⟩, hlength, hblock⟩

/-- A file comes back under its password, and nothing else is taken for it, exactly when it is
the system route that is shown the file and under a name it accepts, and no other password that
gives the same key is used. -/
theorem envelope_iff [Inhabited σ] {x : Exports F} {given : Option String} {drawn : String}
    {draws : Draws} {file : Bytes} {password : String} {created : Api}
    (hcreate : create created (.ok x) given drawn draws = .ok (file, password))
    (hideal : Ideal x password draws) (api : Api) (tmpPath : String) (r : RestoreRequest) :
    ((r.Shows file password → Recovers σ x password draws api tmpPath r) ∧
        (¬r.Shows file password → Rejects F σ api tmpPath r)) ↔
      ((r.Shows file password → api = .system ∧ r.Uploadable) ∧
        (¬r.Shows file password → ¬(api = .system ∧ r.PassesFor file password))) := by
  have hfile := createBackup_of_create hcreate
  have hlength := (validatePassword_eq_ok.mp (createBackup_eq_ok.mp hfile).1).1
  have hexclusive : Recovers σ x password draws api tmpPath r → ¬Rejects F σ api tmpPath r := by
    rintro ⟨data, _, hhands, _⟩
    exact not_rejects_of_handsOver hhands
  constructor
  · rintro ⟨hrecovers, hrejects⟩
    refine ⟨fun hshows => ?_, fun hshows => ?_⟩
    · by_contra hnot
      refine hexclusive (hrecovers hshows) (rejects_of_not_passesFor hideal hfile ?_)
      rintro ⟨hapi, hupload, _⟩
      exact hnot ⟨hapi, hupload⟩
    · rintro ⟨rfl, hpasses⟩
      exact hexclusive (recovers_of_passesFor hideal hfile hpasses) (hrejects hshows)
  · rintro ⟨hshown, hother⟩
    refine ⟨fun hshows => ?_, fun hshows => rejects_of_not_passesFor hideal hfile (hother hshows)⟩
    obtain ⟨rfl, hupload⟩ := hshown hshows
    exact recovers_of_passesFor hideal hfile ⟨hupload, password, hshows, hlength, rfl⟩

end Exactness

section Sample

/-- Keys that spell out what they are derived from, and a tag of zeros behind the plain text. -/
@[reducible] def spelledEncryption : Encryption where
  digest _ := []
  pbkdf2 block salt iterations := (if iterations = pbkdf2Iterations then 1 else 0) :: (block ++ salt)
  encrypt _ _ plaintext := some (plaintext ++ List.replicate 16 0)

@[reducible] def plainUploads : UploadLibrary where
  secureFilename name := name

def sampleExports : Exports Empty where
  metadata := .object [("version", .text "1.0")]
  configuration := .null
  users := .array []
  certificateAuthorities := [⟨[("refid", .text "root")], some "KEY"⟩]
  certificates := []
  acmeAccounts := .array []
  groups := .array []
  customRoles := .array []
  certificateTemplates := .array []
  trustedCertificates := .array []
  ssoProviders := .array []
  hsmProviders := .array []
  apiKeys := .array []
  smtpConfig := .array []
  notificationConfig := .array []
  certificatePolicies := .array []
  authCertificates := .array []
  dnsProviders := .array []
  acmeDomains := .array []
  acmeLocalDomains := .array []
  httpsServer := .object []

def sampleDraw (b : UInt8) : Draw where
  salt := ⟨List.replicate 32 b, List.length_replicate⟩
  nonce := ⟨List.replicate 12 b, List.length_replicate⟩

def sampleDraws : Draws := ⟨sampleDraw 1, fun _ => sampleDraw 2, fun _ => sampleDraw 3⟩

def samplePassword : String := "correct horse"

def sampleMasterKey : Bytes :=
  let _ := spelledEncryption
  masterKeyOf samplePassword sampleDraws

def sampleData : JsonMembers Empty :=
  let _ := spelledEncryption
  match encryptPrivateKeys sampleExports sampleMasterKey sampleDraws with
  | .ok data => data
  | .error _ => []

def sampleFile : Bytes :=
  let _ := spelledEncryption
  sampleDraws.master.salt.1 ++ (sampleDraws.master.nonce.1 ++
    (finalJson sampleData ++ List.replicate 16 0))

def sampleSealed : List (Bytes × Bytes × Bytes) :=
  let _ := spelledEncryption
  [(sampleMasterKey, (sampleDraw 1).nonce.1, finalJson sampleData),
   (derive sampleMasterKey (sampleDraw 2).salt keyIterations, (sampleDraw 2).nonce.1,
    encodeText "KEY")]

@[reducible] def sampleDecryption : Decryption where
  decrypt key nonce ciphertext :=
    (sampleSealed.find? fun t =>
      t.1 = key ∧ t.2.1 = nonce ∧ t.2.2 ++ List.replicate 16 0 = ciphertext).map fun t => t.2.2

theorem sealed_iff_mem {key nonce plaintext : Bytes} :
    let _ := spelledEncryption
    Sealed sampleExports samplePassword sampleDraws key nonce plaintext ↔
      (key, nonce, plaintext) ∈ sampleSealed := by
  intro _
  constructor
  · intro h
    cases h with
    | backup hdata =>
      obtain rfl : sampleData = _ := Except.ok.inj hdata
      exact List.mem_cons_self
    | @caKey i e keyPem he hkey =>
      cases i with
      | zero =>
        cases he
        cases hkey
        exact List.mem_cons_of_mem _ List.mem_cons_self
      | succ i => cases he
    | certificateKey he hkey => cases he
  · intro h
    rcases List.mem_cons.mp h with h | h
    · cases h
      exact .backup rfl
    · cases List.mem_singleton.mp h
      exact .caKey (i := 0) rfl rfl

theorem ideal_sample :
    let _ := spelledEncryption
    let _ := sampleDecryption
    Ideal sampleExports samplePassword sampleDraws := by
  intro _ _
  refine ⟨fun key nonce plaintext ciphertext => ?_, fun secret salt iterations h => ?_,
    fun secret salt salt' h => ?_⟩
  · constructor
    · intro h
      obtain ⟨t, hfind, rfl⟩ := Option.map_eq_some_iff.mp h
      have hfound := List.find?_some hfind
      obtain ⟨rfl, rfl, hciphertext⟩ := of_decide_eq_true hfound
      exact ⟨sealed_iff_mem.mpr (List.mem_of_find?_eq_some hfind), congrArg some hciphertext⟩
    · rintro ⟨hsealed, hciphertext⟩
      have hmem := sealed_iff_mem.mp hsealed
      cases hfind : sampleSealed.find? fun t =>
          t.1 = key ∧ t.2.1 = nonce ∧ t.2.2 ++ List.replicate 16 0 = ciphertext with
      | none =>
        have hnot := List.find?_eq_none.mp hfind _ hmem
        exact absurd (decide_eq_true ⟨rfl, rfl, Option.some.inj hciphertext⟩) hnot
      | some t =>
        have hfound := List.find?_some hfind
        obtain ⟨_, _, ht⟩ := of_decide_eq_true hfound
        have hsame : t.2.2 = plaintext :=
          List.append_cancel_right (ht.trans (Option.some.inj hciphertext).symm)
        change (sampleSealed.find? _).map _ = _
        rw [hfind, ← hsame]
        rfl
  · have hrest := (List.cons.inj h).2
    have hlength : (hmacKey secret).length = (hmacKey (encodeText samplePassword)).length := by
      rw [length_hmacKey (Nat.zero_le _), length_hmacKey (Nat.zero_le _)]
    exact List.append_inj hrest hlength
  · have hhead := (List.cons.inj h).1
    exact absurd hhead (by decide)

theorem create_sample :
    let _ := spelledEncryption
    create .system (.ok sampleExports) (some samplePassword) "" sampleDraws =
      .ok (sampleFile, samplePassword) := by
  intro _
  have hpassword : validatePassword samplePassword = .ok () :=
    validatePassword_eq_ok.mpr ⟨by decide +kernel, by decide +kernel⟩
  have hfile : createBackup (.ok sampleExports) samplePassword sampleDraws = .ok sampleFile :=
    createBackup_eq_ok.mpr ⟨hpassword, sampleExports, rfl, sampleData, rfl, _, rfl, rfl⟩
  have hgiven : samplePassword ≠ "" := by decide
  have hlength : 12 ≤ samplePassword.length := by decide +kernel
  rw [create, systemCreate, Option.getD_some, ensure_of hgiven, ok_bind, ensure_of hlength,
    ok_bind, hfile]
  rfl

def sampleRequest : RestoreRequest where
  file := some ⟨"ucm_backup_20250101_000000.ucmbkp", sampleFile⟩
  password := some samplePassword
  contentLength := sampleFile.length
  content_le upload h := by
    cases h
    exact le_rfl

theorem envelope_sampleRequest :
    let _ := spelledEncryption
    let _ := sampleDecryption
    let _ := plainUploads
    ((sampleRequest.Shows sampleFile samplePassword →
          Recovers ℕ sampleExports samplePassword sampleDraws .settings "/tmp/x" sampleRequest) ∧
        (¬sampleRequest.Shows sampleFile samplePassword →
          Rejects Empty ℕ .settings "/tmp/x" sampleRequest)) ↔
      ((sampleRequest.Shows sampleFile samplePassword →
          Api.settings = .system ∧ sampleRequest.Uploadable) ∧
        (¬sampleRequest.Shows sampleFile samplePassword →
          ¬(Api.settings = .system ∧ sampleRequest.PassesFor sampleFile samplePassword))) := by
  intro _ _ _
  exact envelope_iff create_sample ideal_sample .settings "/tmp/x" sampleRequest

/-- Neither route takes a file back under the name it was made with. -/
theorem produced_file_refused :
    let _ := spelledEncryption
    let _ := sampleDecryption
    let _ := plainUploads
    sampleRequest.Shows sampleFile samplePassword ∧
      ∀ api, Rejects Empty ℕ api "/tmp/x" sampleRequest ∧
        ¬Recovers ℕ sampleExports samplePassword sampleDraws api "/tmp/x" sampleRequest := by
  intro _ _ _
  have hshows : sampleRequest.Shows sampleFile samplePassword := ⟨⟨_, rfl, rfl⟩, rfl⟩
  refine ⟨hshows, fun api => ?_⟩
  have hrejects : Rejects Empty ℕ api "/tmp/x" sampleRequest := by
    apply rejects_of_not_passesFor ideal_sample (createBackup_of_create create_sample)
    rintro ⟨_, ⟨_, upload, hupload, _, _, hsuffix⟩, _⟩
    cases hupload
    revert hsuffix
    decide +kernel
  refine ⟨hrejects, ?_⟩
  rintro ⟨data, _, hhands, _⟩
  exact not_rejects_of_handsOver hhands hrejects

end Sample

end BackupService

end CaManager
