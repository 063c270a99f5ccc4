import CaManager.Library.JsonTrees
import CaManager.Library.Texts
import CaManager.Store.Routes

/-!
# The envelope of a backup

A backup is the JSON text of everything exported, with a checksum of itself, encrypted under a
key that is derived from the password; private keys in it are encrypted once more under keys of
their own. There are two routes that create backups and two that restore them.
-/

namespace CaManager

open Library

namespace BackupService

inductive BackupError
  | valueError (message : String)
  | raised (name : String)

/-- SHA-256, the key derivation over a block of the HMAC, and AES-256-GCM, which refuses texts
that are too long. -/
class Encryption where
  digest : Bytes → Bytes
  pbkdf2 : Bytes → Bytes → ℕ → Bytes
  encrypt : Bytes → Bytes → Bytes → Option Bytes

class Decryption where
  decrypt : Bytes → Bytes → Bytes → Option Bytes

section Keys

variable [Encryption]

/-- HMAC fills a key up with zeros to a block of 64 bytes, and takes the digest of a longer one. -/
def hmacKey (secret : Bytes) : Bytes :=
  let key := if 64 < secret.length then Encryption.digest secret else secret
  key ++ List.replicate (64 - key.length) 0

theorem length_hmacKey {secret : Bytes} (h : (Encryption.digest secret).length ≤ 64) :
    (hmacKey secret).length = 64 := by
  unfold hmacKey
  split
  · rw [List.length_append, List.length_replicate]
    omega
  · rw [List.length_append, List.length_replicate]
    omega

def derive (secret salt : Bytes) (iterations : ℕ) : Bytes :=
  Encryption.pbkdf2 (hmacKey secret) salt iterations

end Keys

def pbkdf2Iterations : ℕ := 100000

def keyIterations : ℕ := 10000

abbrev Salt := { bs : Bytes // bs.length = 32 }

abbrev Nonce := { bs : Bytes // bs.length = 12 }

structure Draw where
  salt : Salt
  nonce : Nonce

/-- The random bytes for a backup; those of the keys by the places of their entries. -/
structure Draws where
  master : Draw
  caKeys : ℕ → Draw
  certificateKeys : ℕ → Draw

/-- An exported authority or certificate, with `_private_key_plaintext`. -/
structure Entry (F : Type) where
  fields : JsonMembers F
  privateKey : Option String

structure Exports (F : Type) where
  metadata : JsonTree F
  configuration : JsonTree F
  users : JsonTree F
  certificateAuthorities : List (Entry F)
  certificates : List (Entry F)
  acmeAccounts : JsonTree F
  groups : JsonTree F
  customRoles : JsonTree F
  certificateTemplates : JsonTree F
  trustedCertificates : JsonTree F
  ssoProviders : JsonTree F
  hsmProviders : JsonTree F
  apiKeys : JsonTree F
  smtpConfig : JsonTree F
  notificationConfig : JsonTree F
  certificatePolicies : JsonTree F
  authCertificates : JsonTree F
  dnsProviders : JsonTree F
  acmeDomains : JsonTree F
  acmeLocalDomains : JsonTree F
  httpsServer : JsonTree F

/-- `backup_data` -/
def Exports.members {F : Type} (x : Exports F) (cas certificates : List (JsonTree F)) :
    JsonMembers F :=
  [("metadata", x.metadata), ("configuration", x.configuration), ("users", x.users),
   ("certificate_authorities", .array cas), ("certificates", .array certificates),
   ("acme_accounts", x.acmeAccounts), ("groups", x.groups), ("custom_roles", x.customRoles),
   ("certificate_templates", x.certificateTemplates),
   ("trusted_certificates", x.trustedCertificates), ("sso_providers", x.ssoProviders),
   ("hsm_providers", x.hsmProviders), ("api_keys", x.apiKeys), ("smtp_config", x.smtpConfig),
   ("notification_config", x.notificationConfig),
   ("certificate_policies", x.certificatePolicies), ("auth_certificates", x.authCertificates),
   ("dns_providers", x.dnsProviders), ("acme_domains", x.acmeDomains),
   ("acme_local_domains", x.acmeLocalDomains), ("https_server", x.httpsServer)]

def validatePassword (password : String) : Except BackupError Unit := do
  ensure (12 ≤ password.length) (.valueError "Backup password must be at least 12 characters")
  ensure (8 ≤ password.toList.dedup.length) (.valueError "Backup password is too simple")

theorem validatePassword_eq_ok {password : String} :
    validatePassword password = .ok () ↔
      12 ≤ password.length ∧ 8 ≤ password.toList.dedup.length := by
  simp only [validatePassword, bind_eq_ok, ensure_eq_ok]
  constructor
  · rintro ⟨_, hlength, hunique⟩
    exact ⟨hlength, hunique⟩
  · rintro ⟨hlength, hunique⟩
    exact ⟨(), hlength, hunique⟩

section Creating

variable {F : Type} [Encryption]

def encryptPrivateKey (keyPem : String) (masterKey : Bytes) (draw : Draw) :
    Except BackupError (JsonTree F) := do
  let key := derive masterKey draw.salt keyIterations
  let ciphertext ← orThrow (Encryption.encrypt key draw.nonce (encodeText keyPem))
    (.raised "OverflowError")
  return .object [("algorithm", .text "AES-256-GCM"), ("salt", .text (toHex draw.salt)),
    ("nonce", .text (toHex draw.nonce)), ("ciphertext", .text (toHex ciphertext))]

def encryptEntry (masterKey : Bytes) (draw : Draw) (e : Entry F) :
    Except BackupError (JsonTree F) :=
  match e.privateKey with
  | some keyPem => do
    let encrypted ← encryptPrivateKey keyPem masterKey draw
    return .object (e.fields ++ [("private_key_pem_encrypted", encrypted)])
  | none => return .object (e.fields ++ [("private_key_pem_encrypted", .null)])

def encryptEntries (masterKey : Bytes) :
    (ℕ → Draw) → List (Entry F) → Except BackupError (List (JsonTree F))
  | _, [] => return []
  | draws, e :: es => do
    let entry ← encryptEntry masterKey (draws 0) e
    let entries ← encryptEntries masterKey (fun i => draws (i + 1)) es
    return entry :: entries

def encryptPrivateKeys (x : Exports F) (masterKey : Bytes) (draws : Draws) :
    Except BackupError (JsonMembers F) := do
  let cas ← encryptEntries masterKey draws.caKeys x.certificateAuthorities
  let certificates ← encryptEntries masterKey draws.certificateKeys x.certificates
  return x.members cas certificates

variable [FloatText F]

def checksum (data : JsonMembers F) : String :=
  toHex (Encryption.digest (encodeText (JsonTree.object data).dumps))

def withChecksum (data : JsonMembers F) : JsonMembers F :=
  data ++ [("checksum", .object [("algorithm", .text "SHA256"), ("value", .text (checksum data))])]

def finalJson (data : JsonMembers F) : Bytes :=
  encodeText (JsonTree.object (withChecksum data)).dumps

def masterKeyOf (password : String) (draws : Draws) : Bytes :=
  derive (encodeText password) draws.master.salt pbkdf2Iterations

def createBackup (exported : Except BackupError (Exports F)) (password : String) (draws : Draws) :
    Except BackupError Bytes := do
  validatePassword password
  let x ← exported
  let masterKey := masterKeyOf password draws
  let data ← encryptPrivateKeys x masterKey draws
  let ciphertext ← orThrow (Encryption.encrypt masterKey draws.master.nonce (finalJson data))
    (.raised "OverflowError")
  return draws.master.salt ++ (draws.master.nonce ++ ciphertext)

end Creating

section Restoring

variable {F : Type} [FloatText F] [Encryption] [Decryption]

/-- The argument of `restore_backup`: the content of a file, or its name. -/
inductive Given
  | bytes (content : Bytes)
  | path (name : String)

def verifyChecksum (data : JsonMembers F) : Except BackupError Unit :=
  match JsonTree.lookup "checksum" data with
  | none => return ()
  | some saved =>
    if saved.truthy then
      match saved with
      | .object members =>
        ensure (((JsonTree.lookup "value" members).any
            (JsonTree.isText (checksum (JsonTree.without "checksum" data)))) = true)
          (.valueError "Backup checksum mismatch - file may be corrupted")
      | _ => .error (.raised "AttributeError")
    else return ()

/-- The backup data without its checksum, and the key it was encrypted under. -/
def openBytes (content : Bytes) (password : String) :
    Except BackupError (JsonMembers F × Bytes) := do
  ensure (44 ≤ content.length) (.valueError "Invalid backup file: too small")
  let masterSalt := content.take 32
  let encryptedData := content.drop 32
  let masterKey := derive (encodeText password) masterSalt pbkdf2Iterations
  let plaintext ← orThrow
    (Decryption.decrypt masterKey (encryptedData.take 12) (encryptedData.drop 12))
    (.valueError "Decryption failed - wrong password or corrupted file")
  let text ← orThrow (decodeText plaintext) (.valueError "invalid utf-8")
  let tree ← orThrow (JsonTree.loads text) (.valueError "Invalid backup format: not valid JSON")
  match tree with
  | .object data => do
    verifyChecksum data
    return (JsonTree.without "checksum" data, masterKey)
  | .array _ => .error (.raised "TypeError")
  | _ => .error (.raised "AttributeError")

def openBackup (given : Given) (password : String) : Except BackupError (JsonMembers F × Bytes) :=
  match given with
  | .bytes content => openBytes content password
  | .path name =>
    if name.length < 44 then .error (.valueError "Invalid backup file: too small")
    else .error (.raised "TypeError")

def hexMember (name : String) (members : JsonMembers F) : Except BackupError Bytes :=
  match JsonTree.lookup name members with
  | none => .error (.raised "KeyError")
  | some (.text value) => orThrow (fromHex value) (.valueError "non-hexadecimal number")
  | some _ => .error (.raised "TypeError")

def decryptPrivateKey (encrypted : JsonTree F) (masterKey : Bytes) : Except BackupError String :=
  match encrypted with
  | .object members => do
    let salt ← hexMember "salt" members
    let nonce ← hexMember "nonce" members
    let ciphertext ← hexMember "ciphertext" members
    let key := derive masterKey salt keyIterations
    let plaintext ← orThrow (Decryption.decrypt key nonce ciphertext) (.raised "InvalidTag")
    orThrow (decodeText plaintext) (.valueError "invalid utf-8")
  | _ => .error (.raised "TypeError")

/-- The private key of an entry, as the sections of the authorities and certificates read it. -/
def entryKey (masterKey : Bytes) : JsonTree F → Except BackupError (Option String)
  | .object members =>
    match JsonTree.lookup "private_key_pem_encrypted" members with
    | some encrypted =>
      if encrypted.truthy then some <$> decryptPrivateKey encrypted masterKey else return none
    | none => return none
  | _ => .error (.raised "AttributeError")

abbrev Results := List (String × ℕ)

/-- The part of a restore that writes rows: what it is given to read, and what it makes of a
state, also where it raises. -/
abbrev Rows (F σ : Type) :=
  JsonMembers F → (JsonTree F → Except BackupError (Option String)) → σ →
    Except BackupError Results × σ

variable {σ : Type}

def restoreBackup (rows : Rows F σ) (given : Given) (password : String) (st : σ) :
    Except BackupError Results × σ :=
  match openBackup given password with
  | .error e => (.error e, st)
  | .ok (data, masterKey) => rows data (entryKey masterKey) st

end Restoring

section Sealed

variable {F : Type} [FloatText F] [Encryption]

/-- What the creation of a backup encrypts: the text of the backup, and each private key. -/
inductive Sealed (x : Exports F) (password : String) (draws : Draws) :
    Bytes → Bytes → Bytes → Prop
  | backup {data} (h : encryptPrivateKeys x (masterKeyOf password draws) draws = .ok data) :
    Sealed x password draws (masterKeyOf password draws) draws.master.nonce (finalJson data)
  | caKey {i e keyPem} (he : x.certificateAuthorities[i]? = some e)
    (hkey : e.privateKey = some keyPem) :
    Sealed x password draws
      (derive (masterKeyOf password draws) (draws.caKeys i).salt keyIterations)
      (draws.caKeys i).nonce (encodeText keyPem)
  | certificateKey {i e keyPem} (he : x.certificates[i]? = some e)
    (hkey : e.privateKey = some keyPem) :
    Sealed x password draws
      (derive (masterKeyOf password draws) (draws.certificateKeys i).salt keyIterations)
      (draws.certificateKeys i).nonce (encodeText keyPem)

/-- The encryption is ideal: what was encrypted for the backup decrypts to what it was, and
nothing else decrypts at all. No other derivation gives the master key of the backup. -/
structure Ideal [Decryption] (x : Exports F) (password : String) (draws : Draws) : Prop where
  decrypt_iff : ∀ key nonce plaintext ciphertext,
    Decryption.decrypt key nonce ciphertext = some plaintext ↔
      Sealed x password draws key nonce plaintext ∧
        Encryption.encrypt key nonce plaintext = some ciphertext
  derived : ∀ secret salt iterations,
    derive secret salt iterations = masterKeyOf password draws →
      hmacKey secret = hmacKey (encodeText password) ∧ salt = draws.master.salt
  separated : ∀ secret salt salt',
    derive secret salt pbkdf2Iterations ≠
      derive (masterKeyOf password draws) salt' keyIterations

end Sealed

section RoundTrip

variable {F : Type} [Encryption]

theorem encryptPrivateKeys_eq_ok {x : Exports F} {masterKey : Bytes} {draws : Draws}
    {data : JsonMembers F} :
    encryptPrivateKeys x masterKey draws = .ok data ↔
      ∃ cas, encryptEntries masterKey draws.caKeys x.certificateAuthorities = .ok cas ∧
        ∃ certificates,
          encryptEntries masterKey draws.certificateKeys x.certificates = .ok certificates ∧
            x.members cas certificates = data := by
  simp only [encryptPrivateKeys, bind_eq_ok, pure_eq_ok]

theorem ne_checksum_of_mem {x : Exports F} {masterKey : Bytes} {draws : Draws}
    {data : JsonMembers F} (h : encryptPrivateKeys x masterKey draws = .ok data) :
    ∀ m ∈ data, m.1 ≠ "checksum" := by
  obtain ⟨cas, _, certificates, _, rfl⟩ := encryptPrivateKeys_eq_ok.mp h
  have hnames : (x.members cas certificates).map Prod.fst =
      ["metadata", "configuration", "users", "certificate_authorities", "certificates",
       "acme_accounts", "groups", "custom_roles", "certificate_templates",
       "trusted_certificates", "sso_providers", "hsm_providers", "api_keys", "smtp_config",
       "notification_config", "certificate_policies", "auth_certificates", "dns_providers",
       "acme_domains", "acme_local_domains", "https_server"] := rfl
  intro m hm heq
  have hmem := List.mem_map_of_mem (f := Prod.fst) hm
  rw [hnames, heq] at hmem
  revert hmem
  decide

theorem decryptPrivateKey_canonical [Decryption] {keyPem : String} {masterKey : Bytes} {draw : Draw}
    {encrypted : JsonTree F} (h : encryptPrivateKey keyPem masterKey draw = .ok encrypted)
    (hdecrypt : ∀ ciphertext,
      Encryption.encrypt (derive masterKey draw.salt keyIterations) draw.nonce
        (encodeText keyPem) = some ciphertext →
      Decryption.decrypt (derive masterKey draw.salt keyIterations) draw.nonce ciphertext =
        some (encodeText keyPem)) :
    decryptPrivateKey encrypted.canonical masterKey = .ok keyPem := by
  simp only [encryptPrivateKey, bind_eq_ok, orThrow_eq_ok, pure_eq_ok] at h
  obtain ⟨ciphertext, hciphertext, rfl⟩ := h
  have hmember : ∀ (name : String) (members : JsonMembers F) (bs : Bytes),
      JsonTree.lookup name members = some (.text (toHex bs)) →
      hexMember name (JsonTree.canonicalMembers members) = .ok bs := by
    intro name members bs hlookup
    rw [hexMember, JsonTree.lookup_canonicalMembers, hlookup]
    change orThrow (fromHex (toHex bs)) _ = _
    rw [fromHex_toHex, orThrow_some]
  rw [JsonTree.canonical, decryptPrivateKey, hmember "salt" _ draw.salt rfl, ok_bind,
    hmember "nonce" _ draw.nonce rfl, ok_bind, hmember "ciphertext" _ ciphertext rfl, ok_bind]
  dsimp only
  rw [hdecrypt _ hciphertext, orThrow_some, ok_bind, decodeText_encodeText, orThrow_some]

variable [FloatText F]

theorem createBackup_eq_ok {exported : Except BackupError (Exports F)} {password : String}
    {draws : Draws} {file : Bytes} :
    createBackup exported password draws = .ok file ↔
      validatePassword password = .ok () ∧ ∃ x, exported = .ok x ∧
        ∃ data, encryptPrivateKeys x (masterKeyOf password draws) draws = .ok data ∧
          ∃ ciphertext,
            Encryption.encrypt (masterKeyOf password draws) draws.master.nonce (finalJson data) =
              some ciphertext ∧
            draws.master.salt.1 ++ (draws.master.nonce.1 ++ ciphertext) = file := by
  simp only [createBackup, bind_eq_ok, orThrow_eq_ok, pure_eq_ok]
  constructor
  · rintro ⟨_, hpassword, x, hx, data, hdata, ciphertext, hciphertext, hfile⟩
    exact ⟨hpassword, x, hx, data, hdata, ciphertext, hciphertext, hfile⟩
  · rintro ⟨hpassword, x, hx, data, hdata, ciphertext, hciphertext, hfile⟩
    exact ⟨(), hpassword, x, hx, data, hdata, ciphertext, hciphertext, hfile⟩

theorem checksum_canonicalMembers (data : JsonMembers F) :
    checksum (JsonTree.canonicalMembers data) = checksum data := by
  have hdumps : (JsonTree.object (JsonTree.canonicalMembers data)).dumps =
      (JsonTree.object data).dumps := by
    change String.ofList ((JsonTree.object data).canonical.canonical.write 0) = _
    rw [JsonTree.canonical_canonical]
    rfl
  rw [checksum, checksum, hdumps]

theorem verifyChecksum_canonicalMembers {data : JsonMembers F}
    (h : ∀ m ∈ data, m.1 ≠ "checksum") :
    verifyChecksum (JsonTree.canonicalMembers (withChecksum data)) = .ok () := by
  have hwithout : JsonTree.without "checksum" (JsonTree.canonicalMembers (withChecksum data)) =
      JsonTree.canonicalMembers data := JsonTree.without_canonicalMembers_append h
  have hsaved : JsonTree.lookup "checksum" (JsonTree.canonicalMembers (withChecksum data)) =
      some (JsonTree.object (JsonTree.canonicalMembers
        [("algorithm", .text "SHA256"), ("value", .text (checksum data))])) := by
    rw [JsonTree.lookup_canonicalMembers, withChecksum, JsonTree.lookup_append_self]
    rfl
  have hvalue : JsonTree.lookup "value" (JsonTree.canonicalMembers
      [("algorithm", .text "SHA256"), ("value", .text (checksum data))]) =
      some (.text (checksum data) : JsonTree F) := by
    rw [JsonTree.lookup_canonicalMembers]
    rfl
  rw [verifyChecksum, hsaved]
  dsimp only
  rw [if_pos (JsonTree.truthy_of_lookup hvalue), hvalue, hwithout, checksum_canonicalMembers]
  exact ensure_of (by simp [JsonTree.isText])

variable [Decryption]

theorem openBytes_append {salt : Salt} {nonce : Nonce} {ciphertext : Bytes} {password : String}
    {data : JsonMembers F} (hdata : ∀ m ∈ data, m.1 ≠ "checksum")
    (hdecrypt : Decryption.decrypt (derive (encodeText password) salt pbkdf2Iterations) nonce
      ciphertext = some (finalJson data)) :
    openBytes (salt.1 ++ (nonce.1 ++ ciphertext)) password =
      .ok (JsonTree.canonicalMembers data,
        derive (encodeText password) salt pbkdf2Iterations) := by
  have hlength : 44 ≤ (salt.1 ++ (nonce.1 ++ ciphertext)).length := by
    rw [List.length_append, List.length_append, salt.2, nonce.2]
    omega
  have hsalt : (salt.1 ++ (nonce.1 ++ ciphertext)).take 32 = salt.1 := List.take_left' salt.2
  have hrest : (salt.1 ++ (nonce.1 ++ ciphertext)).drop 32 = nonce.1 ++ ciphertext :=
    List.drop_left' salt.2
  have hnonce : (nonce.1 ++ ciphertext).take 12 = nonce.1 := List.take_left' nonce.2
  have hciphertext : (nonce.1 ++ ciphertext).drop 12 = ciphertext := List.drop_left' nonce.2
  have hwithout : JsonTree.without "checksum" (JsonTree.canonicalMembers (withChecksum data)) =
      JsonTree.canonicalMembers data := JsonTree.without_canonicalMembers_append hdata
  rw [openBytes, ensure_of hlength, ok_bind]
  dsimp only
  rw [hsalt, hrest, hnonce, hciphertext, hdecrypt, orThrow_some, ok_bind, finalJson,
    decodeText_encodeText, orThrow_some, ok_bind, JsonTree.loads_dumps, orThrow_some, ok_bind,
    JsonTree.canonical]
  dsimp only
  rw [verifyChecksum_canonicalMembers hdata, ok_bind, hwithout]
  rfl

theorem decrypt_of_openBytes {content : Bytes} {password : String}
    {opened : JsonMembers F × Bytes} (h : openBytes content password = .ok opened) :
    ∃ (salt : Salt) (nonce : Nonce) (ciphertext plaintext : Bytes),
      content = salt.1 ++ (nonce.1 ++ ciphertext) ∧
      Decryption.decrypt (derive (encodeText password) salt pbkdf2Iterations) nonce ciphertext =
        some plaintext := by
  simp only [openBytes, bind_eq_ok, ensure_eq_ok, orThrow_eq_ok] at h
  obtain ⟨_, hlength, plaintext, hdecrypt, _⟩ := h
  have hsalt : (content.take 32).length = 32 := by
    rw [List.length_take]
    omega
  have hnonce : ((content.drop 32).take 12).length = 12 := by
    rw [List.length_take, List.length_drop]
    omega
  refine ⟨⟨_, hsalt⟩, ⟨_, hnonce⟩, (content.drop 32).drop 12, plaintext, ?_, hdecrypt⟩
  rw [List.take_append_drop, List.take_append_drop]

theorem openBytes_of_created {x : Exports F} {password password' : String} {draws : Draws}
    {data : JsonMembers F} {ciphertext : Bytes} (hideal : Ideal x password draws)
    (hdata : encryptPrivateKeys x (masterKeyOf password draws) draws = .ok data)
    (hciphertext : Encryption.encrypt (masterKeyOf password draws) draws.master.nonce
      (finalJson data) = some ciphertext)
    (hblock : hmacKey (encodeText password') = hmacKey (encodeText password)) :
    openBytes (draws.master.salt.1 ++ (draws.master.nonce.1 ++ ciphertext)) password' =
      .ok (JsonTree.canonicalMembers data, masterKeyOf password draws) := by
  have hkey : derive (encodeText password') draws.master.salt pbkdf2Iterations =
      masterKeyOf password draws := by
    rw [masterKeyOf, derive, derive, hblock]
  have hdecrypt := (hideal.decrypt_iff _ _ _ _).mpr ⟨.backup hdata, hciphertext⟩
  rw [openBytes_append (ne_checksum_of_mem hdata) (hkey.symm ▸ hdecrypt), hkey]

theorem created_of_openBytes {x : Exports F} {password password' : String} {draws : Draws}
    {content : Bytes} {opened : JsonMembers F × Bytes} (hideal : Ideal x password draws)
    (h : openBytes content password' = .ok opened) :
    hmacKey (encodeText password') = hmacKey (encodeText password) ∧
      ∃ data, encryptPrivateKeys x (masterKeyOf password draws) draws = .ok data ∧
        ∃ ciphertext,
          Encryption.encrypt (masterKeyOf password draws) draws.master.nonce (finalJson data) =
            some ciphertext ∧
          draws.master.salt.1 ++ (draws.master.nonce.1 ++ ciphertext) = content := by
  obtain ⟨salt, nonce, ciphertext, plaintext, rfl, hdecrypt⟩ := decrypt_of_openBytes h
  obtain ⟨hsealed, hciphertext⟩ := (hideal.decrypt_iff _ _ _ _).mp hdecrypt
  generalize hkey : derive (encodeText password') salt pbkdf2Iterations = key at hsealed hciphertext
  generalize hnonce : nonce.1 = nonce' at hsealed hciphertext
  cases hsealed with
  | backup hdata =>
    obtain ⟨hblock, hsalt⟩ := hideal.derived _ _ _ hkey
    refine ⟨hblock, _, hdata, ciphertext, hciphertext, ?_⟩
    rw [hsalt]
  | caKey => exact absurd hkey (hideal.separated _ _ _)
  | certificateKey => exact absurd hkey (hideal.separated _ _ _)

theorem entryKey_canonical {masterKey : Bytes} {draw : Draw} {e : Entry F} {entry : JsonTree F}
    (h : encryptEntry masterKey draw e = .ok entry)
    (hdecrypt : ∀ keyPem ciphertext, e.privateKey = some keyPem →
      Encryption.encrypt (derive masterKey draw.salt keyIterations) draw.nonce
        (encodeText keyPem) = some ciphertext →
      Decryption.decrypt (derive masterKey draw.salt keyIterations) draw.nonce ciphertext =
        some (encodeText keyPem)) :
    entryKey masterKey entry.canonical = .ok e.privateKey := by
  unfold encryptEntry at h
  split at h
  next keyPem hkey =>
    simp only [bind_eq_ok, pure_eq_ok] at h
    obtain ⟨encrypted, hencrypted, rfl⟩ := h
    have hread := decryptPrivateKey_canonical hencrypted fun c hc => hdecrypt keyPem c hkey hc
    have htruthy : encrypted.canonical.truthy = true := by
      simp only [encryptPrivateKey, bind_eq_ok, orThrow_eq_ok, pure_eq_ok] at hencrypted
      obtain ⟨ciphertext, _, rfl⟩ := hencrypted
      apply JsonTree.truthy_of_lookup (k := "algorithm") (v := .text "AES-256-GCM")
      rw [JsonTree.lookup_canonicalMembers]
      rfl
    rw [JsonTree.canonical, entryKey, JsonTree.lookup_canonicalMembers,
      JsonTree.lookup_append_self, Option.map_some]
    dsimp only
    rw [if_pos htruthy, hread, hkey]
    rfl
  next hkey =>
    rw [← pure_eq_ok.mp h, JsonTree.canonical, entryKey, JsonTree.lookup_canonicalMembers,
      JsonTree.lookup_append_self, hkey]
    rfl

theorem map_entryKey_canonical {masterKey : Bytes} {draws : ℕ → Draw} {es : List (Entry F)}
    {entries : List (JsonTree F)} (h : encryptEntries masterKey draws es = .ok entries)
    (hdecrypt : ∀ i e keyPem ciphertext, es[i]? = some e → e.privateKey = some keyPem →
      Encryption.encrypt (derive masterKey (draws i).salt keyIterations) (draws i).nonce
        (encodeText keyPem) = some ciphertext →
      Decryption.decrypt (derive masterKey (draws i).salt keyIterations) (draws i).nonce
        ciphertext = some (encodeText keyPem)) :
    (JsonTree.canonicalElements entries).map (entryKey masterKey) =
      es.map fun e => .ok e.privateKey := by
  induction es generalizing draws entries with
  | nil =>
    cases pure_eq_ok.mp h
    rfl
  | cons e es ih =>
    simp only [encryptEntries, bind_eq_ok, pure_eq_ok] at h
    obtain ⟨entry, hentry, rest, hrest, rfl⟩ := h
    have hhead := entryKey_canonical hentry fun keyPem c => hdecrypt 0 e keyPem c rfl
    have htail := ih hrest fun i e' keyPem c he' => hdecrypt (i + 1) e' keyPem c he'
    rw [JsonTree.canonicalElements, List.map_cons, List.map_cons, hhead, htail]

end RoundTrip

end BackupService

end CaManager
