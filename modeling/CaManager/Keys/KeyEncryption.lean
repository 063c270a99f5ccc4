import CaManager.Store.Authorities
import CaManager.Store.CertificateService

/-!
# Encrypting all keys

What enabling encryption does to a store: every key column that is not sealed yet is encrypted
under the configured key. Nothing else changes, so looking a row up and then encrypting it is
encrypting all and then looking it up.
-/

namespace CaManager

open Library

namespace KeyEncryption

/-- A key column after `encrypt_all_keys`. -/
def encryptColumn (configured : Option ℕ) (prv : Option (Encoded KeyPem)) :
    Option (Encoded KeyPem) :=
  prv.map fun e => if e.isSealed then e else e.encrypt configured

theorem encryptColumn_eq (configured : Option ℕ) (prv : Option (Encoded KeyPem)) :
    encryptColumn configured prv = prv.map (Encoded.encrypt configured) := by
  unfold encryptColumn
  congr 1
  funext e
  cases e with
  | plain a => rfl
  | base64 a => rfl
  | sealed key a => rfl

@[simp] theorem encryptColumn_encryptColumn (key : ℕ) (prv : Option (Encoded KeyPem)) :
    encryptColumn (some key) (encryptColumn (some key) prv) = encryptColumn (some key) prv := by
  rw [encryptColumn_eq, encryptColumn_eq, Option.map_map]
  congr 1
  funext e
  cases e with
  | plain a => rfl
  | base64 a => rfl
  | sealed key a => rfl

@[simp] theorem encryptColumn_eq_none {configured : Option ℕ} {prv : Option (Encoded KeyPem)} :
    encryptColumn configured prv = none ↔ prv = none := by
  simp [encryptColumn]

@[simp] theorem isSome_encryptColumn (configured : Option ℕ) (prv : Option (Encoded KeyPem)) :
    (encryptColumn configured prv).isSome = prv.isSome := by
  simp [encryptColumn]

end KeyEncryption

open KeyEncryption

def CA.encryptKey (configured : Option ℕ) (ca : CA) : CA :=
  { ca with prv := encryptColumn configured ca.prv }

def Certificate.encryptKey (configured : Option ℕ) (c : Certificate) : Certificate :=
  { c with prv := encryptColumn configured c.prv }

/-- `encrypt_all_keys`: nothing is done unless a key is configured. -/
def Store.encryptAllKeys (st : Store) : Store :=
  match st.keyEncryptionKey with
  | none => st
  | some key =>
    { st with
      cas := st.cas.map (CA.encryptKey (some key)) fun _ _ => rfl
      certificates := st.certificates.map (Certificate.encryptKey (some key)) fun _ _ => rfl }

/-- The store once a key is configured and all keys have been encrypted under it. -/
def Store.encryptedUnder (key : ℕ) (st : Store) : Store :=
  ({ st with keyEncryptionKey := some key } : Store).encryptAllKeys

structure Store.Unencrypted (st : Store) : Prop where
  disabled : st.keyEncryptionKey = none
  cas : ∀ c ∈ st.cas, ∀ e ∈ c.prv, e.isSealed = false
  certificates : ∀ c ∈ st.certificates, ∀ e ∈ c.prv, e.isSealed = false

section Rows

variable {key : ℕ} {ca : CA} {c : Certificate}

@[simp] theorem CA.certificate_encryptKey (configured : Option ℕ) (ca : CA) :
    (ca.encryptKey configured).certificate = ca.certificate := rfl

@[simp] theorem CA.prv_encryptKey (configured : Option ℕ) (ca : CA) :
    (ca.encryptKey configured).prv = encryptColumn configured ca.prv := rfl

@[simp] theorem Certificate.crt_encryptKey (configured : Option ℕ) (c : Certificate) :
    (c.encryptKey configured).crt = c.crt := rfl

@[simp] theorem Certificate.caref_encryptKey (configured : Option ℕ) (c : Certificate) :
    (c.encryptKey configured).caref = c.caref := rfl

@[simp] theorem CA.hasPrivateKey_encryptKey (configured : Option ℕ) (ca : CA) :
    (ca.encryptKey configured).hasPrivateKey = ca.hasPrivateKey := by
  simp [CA.hasPrivateKey, CA.encryptKey]

theorem decrypt_encryptColumn {prv : Option (Encoded KeyPem)} (h : ∀ e ∈ prv, e.isSealed = false) :
    (encryptColumn (some key) prv).bind (Encoded.decrypt (some key)) =
      prv.bind (Encoded.decrypt none) := by
  cases prv with
  | none => rfl
  | some e =>
    cases e with
    | plain a => rfl
    | base64 a => exact Encoded.decrypt_encrypt (some key) a
    | sealed key' a => cases h _ rfl

theorem CA.decryptedPrivateKey_encryptKey (h : ∀ e ∈ ca.prv, e.isSealed = false) :
    (ca.encryptKey (some key)).decryptedPrivateKey (some key) = ca.decryptedPrivateKey none := by
  unfold CA.decryptedPrivateKey
  rw [CA.prv_encryptKey, decrypt_encryptColumn h]

theorem decoded_encryptColumn (key : ℕ) (prv : Option (Encoded KeyPem)) :
    (encryptColumn (some key) prv).bind Encoded.decoded = none := by
  cases prv with
  | none => rfl
  | some e =>
    cases e with
    | plain a => rfl
    | base64 a => rfl
    | sealed key' a => rfl

@[simp] theorem CA.privateKey_encryptKey (key : ℕ) (ca : CA) :
    (ca.encryptKey (some key)).privateKey = .error (.unloadable "private key") := by
  unfold CA.privateKey
  rw [CA.prv_encryptKey, decoded_encryptColumn]

theorem CA.privateKey_eq_error (h : ∀ key, ca.privateKey ≠ .ok key) :
    ca.privateKey = .error (.unloadable "private key") := by
  unfold CA.privateKey at h ⊢
  cases hprv : ca.prv.bind Encoded.decoded with
  | none => rfl
  | some pem => exact absurd (by rw [hprv]) (h pem.publicKey)

end Rows

section Lookup

variable {st : Store} {key : ℕ}

@[simp] theorem keyEncryptionKey_encryptedUnder (key : ℕ) (st : Store) :
    (st.encryptedUnder key).keyEncryptionKey = some key := rfl

@[simp] theorem crls_encryptedUnder (key : ℕ) (st : Store) :
    (st.encryptedUnder key).crls = st.crls := rfl

@[simp] theorem ocspResponses_encryptedUnder (key : ℕ) (st : Store) :
    (st.encryptedUnder key).ocspResponses = st.ocspResponses := rfl

@[simp] theorem encryptedUnder_encryptedUnder (key : ℕ) (st : Store) :
    (st.encryptedUnder key).encryptedUnder key = st.encryptedUnder key := by
  have hcas := Table.map_idem (t := st.cas) (f := CA.encryptKey (some key)) (fun _ _ => rfl)
    fun r => by simp [CA.encryptKey]
  have hcertificates := Table.map_idem (t := st.certificates)
    (f := Certificate.encryptKey (some key)) (fun _ _ => rfl) fun r => by simp [Certificate.encryptKey]
  exact congrArg₂ (Store.mk · · st.crls st.ocspResponses (some key)) hcas hcertificates

@[simp] theorem getCa_encryptedUnder (key : ℕ) (st : Store) (id : ℕ) :
    (st.encryptedUnder key).cas.get? id = (st.cas.get? id).map (CA.encryptKey (some key)) :=
  Table.get?_map fun _ _ => rfl

@[simp] theorem getCertificate_encryptedUnder (key : ℕ) (st : Store) (id : ℕ) :
    (st.encryptedUnder key).certificates.get? id =
      (st.certificates.get? id).map (Certificate.encryptKey (some key)) :=
  Table.get?_map fun _ _ => rfl

theorem firstCa_encryptedUnder {p : CA → Bool} (hp : ∀ c, p (CA.encryptKey (some key) c) = p c) :
    (st.encryptedUnder key).cas.first p = (st.cas.first p).map (CA.encryptKey (some key)) :=
  Table.first_map (fun _ _ => rfl) hp

theorem firstCertificate_encryptedUnder {p : Certificate → Bool}
    (hp : ∀ c, p (Certificate.encryptKey (some key) c) = p c) :
    (st.encryptedUnder key).certificates.first p =
      (st.certificates.first p).map (Certificate.encryptKey (some key)) :=
  Table.first_map (fun _ _ => rfl) hp

theorem selectCertificates_encryptedUnder {p : Certificate → Bool}
    (hp : ∀ c, p (Certificate.encryptKey (some key) c) = p c) :
    (st.encryptedUnder key).certificates.select p =
      (st.certificates.select p).map (Certificate.encryptKey (some key)) :=
  Table.select_map (fun _ _ => rfl) hp

theorem Store.Unencrypted.decryptedPrivateKey (h : st.Unencrypted) (key : ℕ) {ca : CA}
    (hca : ca ∈ st.cas) :
    (ca.encryptKey (some key)).decryptedPrivateKey (st.encryptedUnder key).keyEncryptionKey =
      ca.decryptedPrivateKey st.keyEncryptionKey := by
  rw [keyEncryptionKey_encryptedUnder, h.disabled,
    CA.decryptedPrivateKey_encryptKey (h.cas ca hca)]

end Lookup

section Writes

variable {st : Store} {key : ℕ}

theorem addCertificate_encryptedUnder (key : ℕ) (st : Store) (row : Certificate) :
    (st.encryptedUnder key).addCertificate (row.encryptKey (some key)) =
      Store.encryptedUnder key <$> st.addCertificate row := by
  have hinsert : (st.certificates.insert row).map (Certificate.encryptKey (some key))
      (fun _ _ => rfl) = (st.encryptedUnder key).certificates.insert (row.encryptKey (some key)) :=
    Table.map_insert fun _ _ => rfl
  have hrefid : (row.encryptKey (some key)).refid = row.refid := rfl
  unfold Store.addCertificate
  rw [firstCertificate_encryptedUnder fun _ => rfl, Option.isSome_map, hrefid]
  split_ifs
  · rfl
  · refine congrArg Except.ok ?_
    rw [← hinsert]
    rfl

theorem countSerial_encryptedUnder (key : ℕ) (st : Store) (ca : CA) :
    (st.countSerial ca).encryptedUnder key =
      (st.encryptedUnder key).countSerial (ca.encryptKey (some key)) := by
  have hupdate : (st.countSerial ca).cas.map (CA.encryptKey (some key)) (fun _ _ => rfl) =
      ((st.encryptedUnder key).countSerial (ca.encryptKey (some key))).cas :=
    Table.map_update (fun _ _ => rfl) fun _ => rfl
  change Store.mk ((st.countSerial ca).cas.map _ _) _ _ _ _ = _
  rw [hupdate]
  rfl

end Writes

end CaManager
