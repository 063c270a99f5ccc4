import CaManager.Library.Upserts
import CaManager.Store.Authorities

/-!
# Restoring authorities and certificates

The two sections of a restore that write keys. An entry of a backup names a row by its
reference; the row is changed, or there is a new one. Keys are encrypted as the configuration
says at that time.
-/

namespace CaManager

open Library

namespace BackupService

/-- An authority in a decrypted backup, and what decrypting its key gives. -/
structure CaEntry where
  refid : Option String
  descr : Option String := none
  subject : Option String := none
  issuer : Option String := none
  serial : Option ℕ := none
  caref : Option String := none
  certificatePem : Option CertPem := none
  privateKey : Except PyError (Option KeyPem) := .ok none

/-- A certificate in a decrypted backup, and what decrypting its key gives. -/
structure CertificateEntry where
  refid : Option String
  descr : Option String := none
  caref : Option String := none
  certType : Option String := none
  subject : Option String := none
  issuer : Option String := none
  serialNumber : Option String := none
  certificatePem : Option CertPem := none
  privateKey : Except PyError (Option KeyPem) := .ok none

def restoredKey (st : Store) (key : Option KeyPem) : Option (Encoded KeyPem) :=
  key.map fun k => (Encoded.base64 k).encrypt st.keyEncryptionKey

def restoreCa (st : Store) (e : CaEntry) : Except PyError Store := do
  let refid ← orThrow e.refid (.keyError "refid")
  let key ← e.privateKey
  let descr ← orThrow e.descr (.integrityError "certificate_authorities.descr")
  let pem ← orThrow e.certificatePem (.integrityError "certificate_authorities.crt")
  match st.cas.first fun c => c.refid = refid with
  | some row =>
    return st.setCa row.id fun c =>
      { c with descr, crt := .base64 pem, prv := restoredKey st key }
  | none =>
    st.addCa { newCa refid descr (.base64 pem) (restoredKey st key) with
      subject := e.subject, issuer := e.issuer, serial := some (e.serial.getD 0)
      caref := e.caref }

def restoreCertificate (st : Store) (e : CertificateEntry) : Except PyError Store := do
  let refid ← orThrow e.refid (.keyError "refid")
  let key ← e.privateKey
  let descr ← orThrow e.descr (.integrityError "certificates.descr")
  match st.certificates.first fun c => c.refid = refid with
  | some row =>
    return st.setCertificate row.id fun c =>
      { c with
        descr, crt := e.certificatePem.map Encoded.base64, prv := restoredKey st key }
  | none =>
    st.addCertificate
      { refid, descr, caref := e.caref, certType := e.certType, subject := e.subject
        issuer := e.issuer, serialNumber := e.serialNumber
        crt := e.certificatePem.map Encoded.base64, prv := restoredKey st key }

/-- The authorities and then the certificates of a backup; they are committed together. -/
def restoreCertificates (st : Store) (cas : List CaEntry) (certificates : List CertificateEntry) :
    Except PyError Store := do
  let st ← cas.foldlM restoreCa st
  certificates.foldlM restoreCertificate st

end BackupService

end CaManager

/-!
# What a restore leaves in the key columns

The two sections that write keys take their entries over by reference, each kind after it has been
read as a whole. So of the entries of one reference the last decides which key its row has.
-/

namespace CaManager

open Library

namespace BackupService

instance : NamedRow CA where
  name := CA.refid
  name_withKey _ _ := rfl

instance : NamedRow Certificate where
  name := Certificate.refid
  name_withKey _ _ := rfl

structure TakenCa where
  refid : String
  key : Option KeyPem
  descr : String
  pem : CertPem
  entry : CaEntry

structure TakenCertificate where
  refid : String
  key : Option KeyPem
  descr : String
  entry : CertificateEntry

def readCa (e : CaEntry) : Except PyError TakenCa := do
  let refid ← orThrow e.refid (.keyError "refid")
  let key ← e.privateKey
  let descr ← orThrow e.descr (.integrityError "certificate_authorities.descr")
  let pem ← orThrow e.certificatePem (.integrityError "certificate_authorities.crt")
  return ⟨refid, key, descr, pem, e⟩

def readCertificate (e : CertificateEntry) : Except PyError TakenCertificate := do
  let refid ← orThrow e.refid (.keyError "refid")
  let key ← e.privateKey
  let descr ← orThrow e.descr (.integrityError "certificates.descr")
  return ⟨refid, key, descr, e⟩

section Merges

variable (st : Store)

def caMerge : Merge CA TakenCa where
  entryName := TakenCa.refid
  change t c := { c with descr := t.descr, crt := .base64 t.pem, prv := restoredKey st t.key }
  create t :=
    { newCa t.refid t.descr (.base64 t.pem) (restoredKey st t.key) with
      subject := t.entry.subject, issuer := t.entry.issuer
      serial := some (t.entry.serial.getD 0), caref := t.entry.caref }
  name_change _ _ := rfl
  name_create _ := rfl

def certificateMerge : Merge Certificate TakenCertificate where
  entryName := TakenCertificate.refid
  change t c :=
    { c with
      descr := t.descr, crt := t.entry.certificatePem.map Encoded.base64
      prv := restoredKey st t.key }
  create t :=
    { refid := t.refid, descr := t.descr, caref := t.entry.caref, certType := t.entry.certType
      subject := t.entry.subject, issuer := t.entry.issuer, serialNumber := t.entry.serialNumber
      crt := t.entry.certificatePem.map Encoded.base64, prv := restoredKey st t.key }
  name_change _ _ := rfl
  name_create _ := rfl

def takeCa (t : TakenCa) : Store := { st with cas := (caMerge st).merge st.cas t }

def takeCertificate (t : TakenCertificate) : Store :=
  { st with certificates := (certificateMerge st).merge st.certificates t }

theorem restoreCa_eq (e : CaEntry) : restoreCa st e = takeCa st <$> readCa e := by
  unfold restoreCa readCa
  cases e.refid with
  | none => rfl
  | some refid =>
    cases e.privateKey with
    | error err => rfl
    | ok key =>
      cases e.descr with
      | none => rfl
      | some descr =>
        cases e.certificatePem with
        | none => rfl
        | some pem =>
          change _ = Except.ok (takeCa st ⟨refid, key, descr, pem, e⟩)
          simp only [orThrow_some, ok_bind]
          cases hrow : st.cas.first fun c => c.refid = refid with
          | some row =>
            rw [takeCa, Merge.merge_of_some (m := caMerge st) (e := ⟨refid, key, descr, pem, e⟩) hrow]
            rfl
          | none =>
            have hnone : ¬(st.cas.first fun c => c.refid = refid).isSome = true := by simp [hrow]
            rw [takeCa, Merge.merge_of_none (m := caMerge st) (e := ⟨refid, key, descr, pem, e⟩) hrow]
            exact if_neg hnone

theorem restoreCertificate_eq (e : CertificateEntry) :
    restoreCertificate st e = takeCertificate st <$> readCertificate e := by
  unfold restoreCertificate readCertificate
  cases e.refid with
  | none => rfl
  | some refid =>
    cases e.privateKey with
    | error err => rfl
    | ok key =>
      cases e.descr with
      | none => rfl
      | some descr =>
        change _ = Except.ok (takeCertificate st ⟨refid, key, descr, e⟩)
        simp only [orThrow_some, ok_bind]
        cases hrow : st.certificates.first fun c => c.refid = refid with
        | some row =>
          rw [takeCertificate,
            Merge.merge_of_some (m := certificateMerge st) (e := ⟨refid, key, descr, e⟩) hrow]
          rfl
        | none =>
          have hnone : ¬(st.certificates.first fun c => c.refid = refid).isSome = true := by
            simp [hrow]
          rw [takeCertificate,
            Merge.merge_of_none (m := certificateMerge st) (e := ⟨refid, key, descr, e⟩) hrow]
          exact if_neg hnone

theorem foldl_takeCa (ts : List TakenCa) :
    ts.foldl takeCa st = { st with cas := (caMerge st).mergeAll st.cas ts } := by
  induction ts generalizing st with
  | nil => rfl
  | cons t ts ih =>
    rw [List.foldl_cons, ih]
    rfl

theorem foldl_takeCertificate (ts : List TakenCertificate) :
    ts.foldl takeCertificate st =
      { st with certificates := (certificateMerge st).mergeAll st.certificates ts } := by
  induction ts generalizing st with
  | nil => rfl
  | cons t ts ih =>
    rw [List.foldl_cons, ih]
    rfl

end Merges

def taken (st : Store) (cas : List TakenCa) (certificates : List TakenCertificate) : Store :=
  { st with
    cas := (caMerge st).mergeAll st.cas cas
    certificates := (certificateMerge st).mergeAll st.certificates certificates }

theorem restoreCertificates_eq_ok_iff {st st' : Store} {cas : List CaEntry}
    {certificates : List CertificateEntry} :
    restoreCertificates st cas certificates = .ok st' ↔
      ∃ ts, cas.mapM readCa = .ok ts ∧
        ∃ us, certificates.mapM readCertificate = .ok us ∧ taken st ts us = st' := by
  have hcas : restoreCa = fun st e => takeCa st <$> readCa e := funext₂ restoreCa_eq
  have hcertificates : restoreCertificate = fun st e => takeCertificate st <$> readCertificate e :=
    funext₂ restoreCertificate_eq
  unfold restoreCertificates
  simp only [hcas, hcertificates, foldlM_read, bind_eq_ok, map_eq_ok, foldl_takeCa,
    foldl_takeCertificate]
  constructor
  · rintro ⟨_, ⟨ts, hts, rfl⟩, us, hus, rfl⟩
    exact ⟨ts, hts, us, hus, rfl⟩
  · rintro ⟨ts, hts, us, hus, rfl⟩
    exact ⟨_, ⟨ts, hts, rfl⟩, us, hus, rfl⟩

section Columns

theorem content_restoredKey (st : Store) (key : Option KeyPem) :
    (restoredKey st key).map Encoded.content = key := by
  cases key with
  | none => rfl
  | some k => exact congrArg some (Encoded.content_encrypt _ (.base64 k))

theorem caMerge_carries (st : Store) :
    (caMerge st).Carries (fun c => c.prv.map Encoded.content) TakenCa.key where
  column_withKey _ _ := rfl
  column_change t _ := content_restoredKey st t.key
  column_create t := content_restoredKey st t.key

theorem certificateMerge_carries (st : Store) :
    (certificateMerge st).Carries (fun c => c.prv.map Encoded.content) TakenCertificate.key where
  column_withKey _ _ := rfl
  column_change t _ := content_restoredKey st t.key
  column_create t := content_restoredKey st t.key

end Columns

end BackupService

end CaManager
