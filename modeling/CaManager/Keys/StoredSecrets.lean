import CaManager.Keys.MasterKey
import CaManager.Library.Base64
import CaManager.Library.Encoding
import CaManager.Library.Fallible
import CaManager.Library.Machines
import CaManager.X509

/-!
# Passwords in columns

The bind password of a directory and the password of the mail server are columns of their own.
Each is read and written through a property that encrypts what does not look encrypted, under a
key of the database that is always there. The routes of the directory pass the password through
the key encryption of the private keys as well, and only where that is enabled: the methods that
they call stand inside another function, so that the object does not have them.

Which secrets come back is decided by the secret alone and by whether encryption is enabled when
it is written and when it is read.
-/

namespace CaManager

open Library Base64

namespace StoredSecrets

open MasterKey

section Cipher

variable [FernetLibrary] (key : String)

/-- `get_cipher`: the key of the database may be no key. -/
def getCipher : Except PyError Unit :=
  ensure (FernetLibrary.accepts key = true)
    (.valueError "Fernet key must be 32 url-safe base64-encoded bytes.")

/-- `encrypt_value` -/
def encryptValue (draw : ℕ) (value : String) : Except PyError String :=
  if value = "" then .ok value
  else do
    getCipher key
    orThrow (decodeText (FernetLibrary.encrypt key draw (encodeText value)))
      (.valueError "invalid start byte")

/-- `decrypt_value`: nothing, where that fails. -/
def decryptValue (encrypted : String) : Option String :=
  if encrypted = "" then some encrypted
  else
    match getCipher key with
    | .ok () => (FernetLibrary.decrypt key (encodeText encrypted)).bind decodeText
    | .error _ => none

omit [FernetLibrary] in
/-- `is_encrypted`: a guess from the text. -/
def isEncrypted (value : String) : Bool :=
  if value = "" then false
  else startsWith value "gAAAAA" && decide (50 < value.toList.length)

/-- `encrypt_if_needed` -/
def encryptIfNeeded (draw : ℕ) (value : String) : Except PyError String :=
  if value = "" ∨ isEncrypted value = true then .ok value else encryptValue key draw value

/-- `decrypt_if_needed` -/
def decryptIfNeeded (value : String) : Option String :=
  if value = "" ∨ isEncrypted value = false then some value else decryptValue key value

def readSecret (column : Option String) : Option String :=
  match column.filter (· ≠ "") with
  | none => none
  | some value => decryptIfNeeded key value

/-- What assigning to a property writes to its column. A value that cannot be encrypted is written
as it is. -/
def writeSecret (draw : ℕ) (value : Option String) : Option String :=
  match value.filter (· ≠ "") with
  | none => none
  | some value =>
    match encryptIfNeeded key draw value with
    | .ok encrypted => some encrypted
    | .error _ => some value

end Cipher

section Routes

variable [FernetLibrary]

/-- A method of the key encryption from texts to texts, by its name. `encrypt_string` and
`decrypt_string` follow the last `return` of `has_encrypted_keys_in_db`, inside it. -/
def textMethod (k : KeyEncryption) (draw : ℕ) (name : String) :
    Except PyError (String → Except PyError String) :=
  match name with
  | "encrypt" => .ok fun data => .ok (k.encrypt draw data)
  | "decrypt" => .ok fun data => (k.decrypt data).mapError .valueError
  | _ => .error (.attributeError "KeyEncryption" name)

/-- A password, passed through a method of the key encryption if that is enabled. -/
def passThrough (k : KeyEncryption) (draw : ℕ) (name : String) (password : Option String) :
    Except PyError (Option String) :=
  match password.filter (· ≠ "") with
  | none => .ok password
  | some text =>
    if k.isEnabled then do
      let method ← textMethod k draw name
      some <$> method text
    else .ok password

/-- `_encrypt_ldap_password` -/
def encryptLdapPassword (k : KeyEncryption) (draw : ℕ) (password : Option String) :
    Except PyError (Option String) :=
  passThrough k draw "encrypt_string" password

/-- `_decrypt_ldap_password`, from what the property of the provider gives. -/
def decryptLdapPassword (k : KeyEncryption) (draw : ℕ) (password : Option String) :
    Except PyError (Option String) :=
  passThrough k draw "decrypt_string" password

/-- The columns with passwords, and the object that encrypts private keys. -/
structure Secrets where
  keyEncryption : KeyEncryption := {}
  ldapBindPassword : Option String := none
  smtpPassword : Option String := none
  deriving Repr, DecidableEq

namespace Secrets

variable (key : String) (s : Secrets)

/-- `provider.ldap_bind_password = _encrypt_ldap_password(…)` -/
def setLdapBindPassword (draw : ℕ) (password : Option String) : Except PyError Secrets := do
  let value ← encryptLdapPassword s.keyEncryption draw password
  return { s with ldapBindPassword := writeSecret key draw value }

def bindPassword (draw : ℕ) : Except PyError (Option String) :=
  decryptLdapPassword s.keyEncryption draw (readSecret key s.ldapBindPassword)

/-- `smtp.smtp_password = …` -/
def setSmtpPassword (draw : ℕ) (password : Option String) : Secrets :=
  { s with smtpPassword := writeSecret key draw password }

def loginPassword : Option String := readSecret key s.smtpPassword

/-- What is read of the key file and of the environment when encryption is enabled or disabled. -/
structure Switch where
  file : Option String := none
  env : Option String := none
  deriving Repr, DecidableEq

def switch (w : Switch) : Secrets :=
  { s with keyEncryption := KeyEncryption.reload w.file w.env }

def enabledAfter (history : List Switch) : Bool :=
  (run switch s history).keyEncryption.isEnabled

end Secrets

end Routes

/-- What is documented of tokens: they are base64 of a version, eight bytes of a time (the first
four of them are zero in this century), sixteen of an initialisation vector, some blocks, and
thirty-two bytes of a signature. They open to what was encrypted, which is shorter than they are. -/
structure FernetFormat [FernetLibrary] (key : String) : Prop where
  token : ∀ draw data, ∃ rest : Bytes, 68 ≤ rest.length ∧
    FernetLibrary.encrypt key draw data =
      encodeText (urlsafeB64encode (0x80 :: 0 :: 0 :: 0 :: 0 :: rest))
  opens : ∀ draw data, FernetLibrary.decrypt key (FernetLibrary.encrypt key draw data) = some data
  shorter : ∀ token data,
    FernetLibrary.decrypt key token = some data → data.length < token.length

def Plain (password : String) : Prop := password ≠ "" ∧ isEncrypted password = false

instance (password : String) : Decidable (Plain password) := inferInstanceAs (Decidable (_ ∧ _))

theorem encodeText_of_decodeText {bs : Bytes} {s : String} (h : decodeText bs = some s) :
    encodeText s = bs := by
  unfold decodeText String.fromUTF8? at h
  split_ifs at h with hvalid
  cases h
  rfl

section Tokens

theorem startsWith_token (rest : Bytes) :
    startsWith (urlsafeB64encode (0x80 :: 0 :: 0 :: 0 :: 0 :: rest)) "gAAAAA" = true := by
  rw [startsWith, urlsafeB64encode, String.toList_ofList (l := List.map _ _)]
  cases rest with
  | nil => rfl
  | cons b rest => rfl

theorem isEncrypted_token {rest : Bytes} (h : 68 ≤ rest.length) :
    isEncrypted (urlsafeB64encode (0x80 :: 0 :: 0 :: 0 :: 0 :: rest)) = true := by
  have hlength := length_le_urlsafeB64encode (0x80 :: 0 :: 0 :: 0 :: 0 :: rest)
  simp only [List.length_cons] at hlength
  have hlong : 50 < (urlsafeB64encode (0x80 :: 0 :: 0 :: 0 :: 0 :: rest)).toList.length := by omega
  have hne : urlsafeB64encode (0x80 :: 0 :: 0 :: 0 :: 0 :: rest) ≠ "" := by
    intro hempty
    rw [hempty] at hlong
    exact absurd hlong (by decide)
  rw [isEncrypted, if_neg hne, startsWith_token, Bool.true_and]
  exact decide_eq_true hlong

variable [FernetLibrary] {key : String}

def columnCodec (key : String) : GuessingCodec String where
  looksEncoded := isEncrypted
  encode draw value :=
    (decodeText (FernetLibrary.encrypt key draw (encodeText value))).getD value
  decode value := (FernetLibrary.decrypt key (encodeText value)).bind decodeText

@[simp] theorem looksEncoded_columnCodec (value : String) :
    (columnCodec key).looksEncoded value = isEncrypted value := rfl

theorem columnCodec_lawful (hformat : FernetFormat key) : (columnCodec key).Lawful where
  looksEncoded_encode := by
    intro draw value _
    obtain ⟨rest, hlength, htoken⟩ := hformat.token draw (encodeText value)
    simp only [columnCodec, htoken, decodeText_encodeText, Option.getD_some]
    exact isEncrypted_token hlength
  decode_encode := by
    intro draw value _
    obtain ⟨rest, _, htoken⟩ := hformat.token draw (encodeText value)
    simp only [columnCodec, htoken, decodeText_encodeText, Option.getD_some]
    rw [← htoken, hformat.opens, Option.bind_some, decodeText_encodeText]
  decode_ne := by
    intro value h
    obtain ⟨data, hdata, hdecoded⟩ := Option.bind_eq_some_iff.mp h
    have hshorter := hformat.shorter _ _ hdata
    rw [encodeText_of_decodeText hdecoded] at hshorter
    exact Nat.lt_irrefl _ hshorter

theorem encodeIfNeeded_ne_empty (hformat : FernetFormat key) (draw : ℕ) {value : String}
    (hne : value ≠ "") : (columnCodec key).encodeIfNeeded draw value ≠ "" := by
  intro hempty
  unfold GuessingCodec.encodeIfNeeded at hempty
  split_ifs at hempty with hlooks
  · exact hne hempty
  · have htoken := (columnCodec_lawful hformat).looksEncoded_encode draw value
      (Bool.eq_false_iff.mpr hlooks)
    rw [hempty] at htoken
    cases htoken

theorem getCipher_of_accepts (h : FernetLibrary.accepts key = true) : getCipher key = .ok () := by
  rw [getCipher, ensure, if_pos h]

theorem encryptIfNeeded_eq (hkey : FernetLibrary.accepts key = true) (hformat : FernetFormat key)
    (draw : ℕ) {value : String} (hne : value ≠ "") :
    encryptIfNeeded key draw value = .ok ((columnCodec key).encodeIfNeeded draw value) := by
  obtain ⟨rest, _, htoken⟩ := hformat.token draw (encodeText value)
  unfold encryptIfNeeded GuessingCodec.encodeIfNeeded
  cases hlooks : isEncrypted value with
  | true => simp [hlooks]
  | false =>
    simp only [hne, hlooks, false_or, if_false, looksEncoded_columnCodec, Bool.false_eq_true]
    rw [encryptValue, if_neg hne, getCipher_of_accepts hkey]
    simp only [columnCodec, htoken, decodeText_encodeText]
    rfl

theorem decryptIfNeeded_eq (hkey : FernetLibrary.accepts key = true) {value : String}
    (hne : value ≠ "") : decryptIfNeeded key value = (columnCodec key).decodeIfNeeded value := by
  unfold decryptIfNeeded GuessingCodec.decodeIfNeeded
  simp only [hne, false_or, decryptValue, if_false, getCipher_of_accepts hkey]
  cases hlooks : isEncrypted value with
  | true => simp [columnCodec, hlooks]
  | false => simp [columnCodec, hlooks]

theorem accepts_of_encryptIfNeeded {draw : ℕ} {value t : String} (hplain : Plain value)
    (h : encryptIfNeeded key draw value = .ok t) : FernetLibrary.accepts key = true := by
  unfold encryptIfNeeded at h
  rw [if_neg (by simp [hplain.1, hplain.2]), encryptValue, if_neg hplain.1, bind_eq_ok] at h
  obtain ⟨_, hcipher, _⟩ := h
  exact ensure_eq_ok.mp hcipher

end Tokens

section Properties

variable [FernetLibrary] {key : String} {draw : ℕ} {value : String}

/-- The helper that encrypts does not raise, and the property reads what was assigned to it. -/
structure SecretKept (key : String) (draw : ℕ) (value : String) : Prop where
  encrypts : ∃ t, encryptIfNeeded key draw value = .ok t
  reads : readSecret key (writeSecret key draw (some value)) = some value

@[simp] theorem readSecret_some (hne : value ≠ "") :
    readSecret key (some value) = decryptIfNeeded key value := by
  simp [readSecret, Option.filter_some, hne]

theorem writeSecret_of_ok {t : String} (hne : value ≠ "")
    (h : encryptIfNeeded key draw value = .ok t) :
    writeSecret key draw (some value) = some t := by
  simp [writeSecret, Option.filter_some, hne, h]

theorem readSecret_writeSecret (hkey : FernetLibrary.accepts key = true)
    (hformat : FernetFormat key) (hne : value ≠ "") :
    readSecret key (writeSecret key draw (some value)) =
      (columnCodec key).decodeIfNeeded ((columnCodec key).encodeIfNeeded draw value) := by
  have hstored := encodeIfNeeded_ne_empty hformat draw hne
  rw [writeSecret_of_ok hne (encryptIfNeeded_eq hkey hformat draw hne), readSecret_some hstored,
    decryptIfNeeded_eq hkey hstored]

theorem readSecret_writeSecret_of_not_accepts (hkey : ¬FernetLibrary.accepts key = true)
    (hlooks : isEncrypted value = true) :
    readSecret key (writeSecret key draw (some value)) = none := by
  have hne : value ≠ "" := by
    intro hempty
    rw [hempty] at hlooks
    cases hlooks
  have hstored : encryptIfNeeded key draw value = .ok value := by
    rw [encryptIfNeeded, if_pos (.inr hlooks)]
  rw [writeSecret_of_ok hne hstored, readSecret_some hne, decryptIfNeeded,
    if_neg (by simp [hne, hlooks]), decryptValue, if_neg hne, getCipher, ensure, if_neg hkey]

theorem secretKept_iff (hformat : FernetLibrary.accepts key = true → FernetFormat key) :
    SecretKept key draw value ↔ Plain value ∧ FernetLibrary.accepts key = true := by
  constructor
  · intro ⟨⟨t, ht⟩, hreads⟩
    have hne : value ≠ "" := by
      intro hempty
      rw [hempty] at hreads
      cases hreads
    by_cases hkey : FernetLibrary.accepts key = true
    · rw [readSecret_writeSecret hkey (hformat hkey) hne] at hreads
      rw [GuessingCodec.decodeIfNeeded_encodeIfNeeded_iff (columnCodec_lawful (hformat hkey))]
        at hreads
      exact ⟨⟨hne, hreads⟩, hkey⟩
    · cases hlooks : isEncrypted value with
      | false => exact absurd (accepts_of_encryptIfNeeded ⟨hne, hlooks⟩ ht) hkey
      | true =>
        rw [readSecret_writeSecret_of_not_accepts hkey hlooks] at hreads
        cases hreads
  · intro ⟨⟨hne, hlooks⟩, hkey⟩
    constructor
    · exact ⟨_, encryptIfNeeded_eq hkey (hformat hkey) draw hne⟩
    · rw [readSecret_writeSecret hkey (hformat hkey) hne,
        GuessingCodec.decodeIfNeeded_encodeIfNeeded_iff (columnCodec_lawful (hformat hkey))]
      exact hlooks

end Properties

section PassingThrough

variable [FernetLibrary] {k : KeyEncryption} {draw : ℕ} {name : String}
  {password : Option String} {text : String}

theorem passThrough_of_enabled {e : PyError} (hname : textMethod k draw name = .error e)
    (hne : text ≠ "") (hk : k.isEnabled = true) :
    passThrough k draw name (some text) = .error e := by
  simp [passThrough, Option.filter_some, hne, hk, hname, bind, Except.bind]

theorem passThrough_eq_ok_some_iff {e : PyError} (hname : textMethod k draw name = .error e)
    (hne : text ≠ "") :
    passThrough k draw name password = .ok (some text) ↔
      password = some text ∧ k.isEnabled = false := by
  cases password with
  | none => simp [passThrough]
  | some p =>
    by_cases hp : p = ""
    · simp [passThrough, Option.filter_some, hp, hne.symm]
    · cases hk : k.isEnabled with
      | true => simp [passThrough_of_enabled hname hp hk]
      | false => simp [passThrough, Option.filter_some, hp, hk]

theorem encryptLdapPassword_eq_ok_some_iff (hne : text ≠ "") :
    encryptLdapPassword k draw password = .ok (some text) ↔
      password = some text ∧ k.isEnabled = false :=
  passThrough_eq_ok_some_iff rfl hne

theorem decryptLdapPassword_eq_ok_some_iff (hne : text ≠ "") :
    decryptLdapPassword k draw password = .ok (some text) ↔
      password = some text ∧ k.isEnabled = false :=
  passThrough_eq_ok_some_iff rfl hne

end PassingThrough

namespace Secrets

section Histories

variable [FernetLibrary] {key : String} {s : Secrets} {draw : ℕ} {password : String}
  {history : List Switch}

/-- The bind password of the directory comes back after the encryption was switched some times,
and no helper raises. -/
structure LdapKept (key : String) (s : Secrets) (draw : ℕ) (password : String)
    (history : List Switch) : Prop where
  encrypts : ∃ value t, encryptLdapPassword s.keyEncryption draw (some password) =
    .ok (some value) ∧ encryptIfNeeded key draw value = .ok t
  reads : ∃ s', s.setLdapBindPassword key draw (some password) = .ok s' ∧
    (run switch s' history).bindPassword key draw = .ok (some password)

structure SmtpKept (key : String) (s : Secrets) (draw : ℕ) (password : String)
    (history : List Switch) : Prop where
  encrypts : ∃ t, encryptIfNeeded key draw password = .ok t
  reads : (run switch (s.setSmtpPassword key draw (some password)) history).loginPassword key =
    some password

theorem run_switch_columns (ldap smtp : Option String) (history : List Switch) :
    run switch { s with ldapBindPassword := ldap, smtpPassword := smtp } history =
      { run switch s history with ldapBindPassword := ldap, smtpPassword := smtp } := by
  induction history generalizing s with
  | nil => rfl
  | cons w history ih =>
    rw [run_cons, run_cons]
    exact ih (s := s.switch w)

theorem run_switch_setSmtpPassword :
    (run switch (s.setSmtpPassword key draw (some password)) history).smtpPassword =
      writeSecret key draw (some password) := by
  rw [setSmtpPassword, run_switch_columns s.ldapBindPassword]

theorem smtpKept_iff : SmtpKept key s draw password history ↔ SecretKept key draw password := by
  have hread : (run switch (s.setSmtpPassword key draw (some password)) history).loginPassword key =
      readSecret key (writeSecret key draw (some password)) := by
    rw [loginPassword, run_switch_setSmtpPassword]
  constructor
  · intro h
    exact ⟨h.encrypts, hread.symm.trans h.reads⟩
  · intro h
    exact ⟨h.encrypts, hread.trans h.reads⟩

theorem setLdapBindPassword_of_disabled (h : s.keyEncryption.isEnabled = false)
    (hne : password ≠ "") :
    s.setLdapBindPassword key draw (some password) =
      .ok { s with ldapBindPassword := writeSecret key draw (some password) } := by
  rw [setLdapBindPassword, (encryptLdapPassword_eq_ok_some_iff hne).mpr ⟨rfl, h⟩]
  rfl

theorem ldapKept_iff_of_disabled (h : s.keyEncryption.isEnabled = false) (hne : password ≠ "") :
    LdapKept key s draw password history ↔
      SecretKept key draw password ∧ s.enabledAfter history = false := by
  have hencrypt : encryptLdapPassword s.keyEncryption draw (some password) = .ok (some password) :=
    (encryptLdapPassword_eq_ok_some_iff hne).mpr ⟨rfl, h⟩
  have hread : (run switch { s with ldapBindPassword := writeSecret key draw (some password) }
      history).bindPassword key draw = .ok (some password) ↔
        readSecret key (writeSecret key draw (some password)) = some password ∧
          s.enabledAfter history = false := by
    rw [bindPassword, run_switch_columns _ s.smtpPassword, decryptLdapPassword_eq_ok_some_iff hne]
    rfl
  constructor
  · intro ⟨⟨value, t, hvalue, ht⟩, s', hs', hreads⟩
    rw [hencrypt] at hvalue
    cases hvalue
    rw [setLdapBindPassword_of_disabled h hne] at hs'
    cases hs'
    obtain ⟨hback, hdisabled⟩ := hread.mp hreads
    exact ⟨⟨⟨t, ht⟩, hback⟩, hdisabled⟩
  · intro ⟨⟨⟨t, ht⟩, hback⟩, hdisabled⟩
    exact ⟨⟨password, t, hencrypt, ht⟩, _, setLdapBindPassword_of_disabled h hne,
      hread.mpr ⟨hback, hdisabled⟩⟩

theorem not_ldapKept_empty : ¬LdapKept key s draw "" history := by
  intro h
  obtain ⟨s', hs', hreads⟩ := h.reads
  cases hs'
  rw [bindPassword] at hreads
  rw [run_switch_columns _ s.smtpPassword] at hreads
  cases hreads

theorem ldapKept_iff : LdapKept key s draw password history ↔
    SecretKept key draw password ∧ password ≠ "" ∧ s.keyEncryption.isEnabled = false ∧
      s.enabledAfter history = false := by
  by_cases hne : password = ""
  · rw [hne]
    simp [not_ldapKept_empty]
  · cases hdisabled : s.keyEncryption.isEnabled with
    | false => rw [ldapKept_iff_of_disabled hdisabled hne]; simp [hne]
    | true =>
      simp only [Bool.true_eq_false, false_and, and_false, iff_false]
      intro h
      obtain ⟨value, _, hvalue, _⟩ := h.encrypts
      rw [encryptLdapPassword, passThrough_of_enabled rfl hne hdisabled] at hvalue
      cases hvalue

/-- The secrets come back, and no helper raises, exactly if neither is empty or looks like a token,
the key of the database is one, and encryption is disabled both when the bind password of the
directory is written and when it is read. -/
theorem secrets_kept_iff (hformat : FernetLibrary.accepts key = true → FernetFormat key)
    (s : Secrets) (draw : ℕ) (ldap smtp : String) (history : List Switch) :
    LdapKept key s draw ldap history ∧ SmtpKept key s draw smtp history ↔
      (Plain ldap ∧ s.keyEncryption.isEnabled = false ∧ s.enabledAfter history = false) ∧
        Plain smtp ∧ FernetLibrary.accepts key = true := by
  rw [ldapKept_iff, smtpKept_iff, secretKept_iff hformat, secretKept_iff hformat]
  constructor
  · intro ⟨⟨⟨hldap, _⟩, _, hoff⟩, hsmtp⟩
    exact ⟨⟨hldap, hoff⟩, hsmtp⟩
  · intro ⟨⟨hldap, hoff⟩, hsmtp, hkey⟩
    exact ⟨⟨⟨hldap, hkey⟩, hldap.1, hoff⟩, hsmtp, hkey⟩

end Histories

section Sample

/-- The bytes of a token, with nothing to tell from the time, the vector and the signature. -/
def sampleToken (data : Bytes) : Bytes :=
  encodeText (urlsafeB64encode
    (0x80 :: 0 :: 0 :: 0 :: 0 :: (List.replicate 68 0 ++ data)))

def sampleOpen (token : Bytes) : Option Bytes := do
  let text ← decodeText token
  let bytes ← (urlsafeB64decode text).toOption
  let data := bytes.drop 73
  if sampleToken data = token then some data else none

@[reducible] def sampleFernet : FernetLibrary where
  accepts key := key ≠ ""
  encrypt _ _ data := sampleToken data
  decrypt _ token := sampleOpen token

theorem sampleOpen_sampleToken (data : Bytes) : sampleOpen (sampleToken data) = some data := by
  simp [sampleOpen, sampleToken, Except.toOption]

theorem length_lt_sampleToken (data : Bytes) : data.length < (sampleToken data).length := by
  have htext := length_le_encodeText (urlsafeB64encode
    (0x80 :: 0 :: 0 :: 0 :: 0 :: (List.replicate 68 0 ++ data)))
  have hbytes := length_le_urlsafeB64encode
    (0x80 :: 0 :: 0 :: 0 :: 0 :: (List.replicate 68 0 ++ data))
  simp only [List.length_cons, List.length_append, List.length_replicate] at hbytes
  rw [sampleToken]
  omega

theorem fernetFormat_sample : let _ := sampleFernet; FernetFormat "K" := by
  intro _
  constructor
  · intro _ data
    exact ⟨List.replicate 68 0 ++ data, by simp, rfl⟩
  · intro _ data
    exact sampleOpen_sampleToken data
  · intro token data h
    change sampleOpen token = some data at h
    simp only [sampleOpen, Option.bind_eq_bind, Option.bind_eq_some_iff] at h
    obtain ⟨_, _, bytes, _, h⟩ := h
    split_ifs at h with htoken
    cases h
    rw [← htoken]
    exact length_lt_sampleToken _

theorem secrets_kept_plain :
    let _ := sampleFernet
    LdapKept "K" {} 0 "directory" [{ file := some "K" }, {}] ∧
      SmtpKept "K" {} 0 "mail" [{ file := some "K" }, {}] := by
  intro _
  refine (secrets_kept_iff (fun _ => fernetFormat_sample) {} 0 "directory" "mail"
    [{ file := some "K" }, {}]).mpr ?_
  decide +kernel

/-- Once encryption is enabled, no bind password can be stored. -/
theorem secrets_not_kept_enabled :
    let _ := sampleFernet
    encryptLdapPassword ⟨some "K", some .file⟩ 0 (some "directory") =
        .error (.attributeError "KeyEncryption" "encrypt_string") ∧
      ¬(LdapKept "K" { keyEncryption := ⟨some "K", some .file⟩ } 0 "directory" [] ∧
        SmtpKept "K" { keyEncryption := ⟨some "K", some .file⟩ } 0 "mail" []) := by
  intro _
  have hraises : encryptLdapPassword ⟨some "K", some .file⟩ 0 (some "directory") =
      .error (.attributeError "KeyEncryption" "encrypt_string") := rfl
  refine ⟨hraises, fun h => ?_⟩
  obtain ⟨value, _, hvalue, _⟩ := h.1.encrypts
  rw [hraises] at hvalue
  cases hvalue

end Sample

end Secrets

end StoredSecrets

end CaManager
