import CaManager.Mtls.Enrolment

/-!
# User certificates

The routes on enrolled certificates that go on to the stored one: revoking it, and exporting it
with its key. The stored certificate is the first one with the serial number of the enrolment.
The certificates of the authorities above it are named by the reference they start from.
-/

namespace CaManager

open Library

namespace Mtls

/-- What an export hands out: a certificate, its key, and the authorities from a reference
upwards, under a password when it is a PKCS12 file. `certId` is the row it was taken from. -/
structure Exported where
  certId : ℕ
  certificate : Encoded.Bytes CertPem
  key : Option (Encoded.Bytes KeyPem)
  chain : Option String
  password : Option String
  deriving Repr, DecidableEq

def seesAll (user : User) : Bool :=
  user.role = "admin" || user.role = "operator" || user.role = "auditor"

/-- `revoke_user_certificate`: the certificate is revoked, and this enrolment disabled. -/
def revokeUserCertificate (s : MtlsState) (user : User) (certId : ℕ) (reason : String) :
    Response × MtlsState :=
  match s.accounts.authCertificates.get? certId with
  | none => (⟨404, "Certificate not found"⟩, s)
  | some a =>
    match s.store.certificateBySerial a.certSerial with
    | none => (⟨404, "Certificate data not found"⟩, s)
    | some c =>
      if c.revoked then (⟨400, "Certificate already revoked"⟩, s)
      else
        match CertificateService.revokeCertificate s.store c.id reason user.username s.now with
        | .ok store =>
          let authCertificates :=
            s.accounts.authCertificates.update a.id fun a => { a with enabled := false }
          (⟨200, "Certificate revoked successfully"⟩,
            { s with store, accounts := { s.accounts with authCertificates } })
        | .error (.valueError _) => (⟨400, "Invalid revocation request"⟩, s)
        | .error _ => (⟨500, "Failed to revoke certificate"⟩, s)

/-- The bytes of a stored certificate and of its key, loaded, as a PKCS12 file needs them. -/
def pkcs12Parts (c : Certificate) : Option (X509 × KeyPem) := do
  let crt ← c.crt
  let prv ← c.prv
  let pem ← crt.bytes.load
  let key ← prv.bytes.load
  return (pem.leaf, key)

def exportPkcs12 (c : Certificate) (chain : Option String) (password : String)
    (shortPassword noKey failed : Refusal) : Except Refusal Exported := do
  ensure (8 ≤ password.length) shortPassword
  ensure (c.prv.isSome = true) noKey
  let (x, key) ← orThrow (pkcs12Parts c) failed
  return { certId := c.id, certificate := .text ⟨x, []⟩, key := some (.text key), chain
           password := some password }

/-- `export_user_certificate`. Auditors cannot export. -/
def exportUserCertificate (s : MtlsState) (user : User) (certId : ℕ)
    (format password : String) (includeKey includeChain : Bool) : Except Refusal Exported := do
  ensure (user.role ≠ "auditor") ⟨403, "Auditors cannot export certificates"⟩
  let a ← orThrow (s.accounts.authCertificates.get? certId) ⟨404, "Certificate not found"⟩
  ensure (seesAll user = true ∨ a.userId = user.id) ⟨404, "Certificate not found"⟩
  let c ← orThrow (s.store.certificateBySerial a.certSerial) ⟨404, "Certificate data not found"⟩
  let crt ← orThrow c.crt ⟨500, "Failed to export certificate"⟩
  let chain := c.caref.filter fun _ => includeChain
  if format ∈ ["pkcs12", "p12", "pfx"] then
    exportPkcs12 c chain password
      ⟨400, "Password required (minimum 8 characters) for PKCS12 export"⟩
      ⟨400, "Certificate has no private key for PKCS12 export"⟩
      ⟨500, "Failed to export certificate"⟩
  else
    .ok { certId := c.id, certificate := crt.bytes
          key := (c.prv.filter fun _ => includeKey).map Encoded.bytes, chain, password := none }

/-- `download_mtls_certificate`. Only an administrator downloads for others. -/
def downloadMtlsCertificate (s : MtlsState) (user : User) (certId : ℕ)
    (format password : String) : Except Refusal Exported := do
  let a ← orThrow ((s.accounts.authCertificates.get? certId).filter fun a =>
      a.userId = user.id || user.role = "admin")
    (if user.role = "admin" then ⟨404, "Certificate not found"⟩
      else ⟨404, "Certificate not found or not authorized"⟩)
  let c ← orThrow (s.store.certificateBySerial a.certSerial)
    ⟨404, "Certificate data not available"⟩
  let crt ← orThrow c.crt ⟨404, "Certificate data not available"⟩
  if format ∈ ["p12", "pkcs12"] then
    exportPkcs12 c c.caref password
      ⟨400, "PKCS12 export requires a password of at least 8 characters"⟩
      ⟨400, "Private key not available for PKCS12 export"⟩ ⟨500, "Internal server error"⟩
  else
    .ok { certId := c.id, certificate := crt.bytes, key := none, chain := none, password := none }

def HoldsKey (c : Certificate) : Prop :=
  c.crt ≠ none ∧ ∃ k, c.prv.bind Encoded.decoded = some k

section Effects

variable {s : MtlsState} {user : User} {certId : ℕ} {format password : String}
  {includeKey includeChain : Bool} {e : Exported} {k : KeyPem}

theorem key_of_exportPkcs12 {c : Certificate} {chain : Option String}
    {shortPassword noKey failed : Refusal}
    (h : exportPkcs12 c chain password shortPassword noKey failed = .ok e)
    (hkey : e.key = some (.text k)) :
    e.certId = c.id ∧ c.prv.bind Encoded.decoded = some k := by
  simp only [exportPkcs12, bind_eq_ok, ensure_eq_ok, orThrow_eq_ok, pure_eq_ok,
    exists_const] at h
  obtain ⟨_, _, ⟨x, key⟩, hparts, rfl⟩ := h
  cases hkey
  simp only [pkcs12Parts, Option.bind_eq_bind, Option.bind_eq_some_iff, Option.pure_def,
    Option.some.injEq, Prod.mk.injEq, Encoded.load_bytes] at hparts
  obtain ⟨crt, _, prv, hprv, pem, _, key', hload, _, rfl⟩ := hparts
  exact ⟨rfl, Option.bind_eq_some_iff.mpr ⟨prv, hprv, hload⟩⟩

theorem key_of_exportUserCertificate
    (h : exportUserCertificate s user certId format password includeKey includeChain = .ok e)
    (hkey : e.key = some (.text k)) :
    ∃ a c, s.accounts.authCertificates.get? certId = some a ∧ user.role ≠ "auditor" ∧
      (seesAll user = true ∨ a.userId = user.id) ∧
      s.store.certificateBySerial a.certSerial = some c ∧ e.certId = c.id ∧ HoldsKey c := by
  simp only [exportUserCertificate, bind_eq_ok, ensure_eq_ok, orThrow_eq_ok, exists_const] at h
  obtain ⟨hauditor, a, ha, hsees, c, hc, crt, hcrt, h⟩ := h
  have hrow : e.certId = c.id ∧ c.prv.bind Encoded.decoded = some k := by
    split_ifs at h with hformat
    · exact key_of_exportPkcs12 h hkey
    · cases h
      obtain ⟨prv, hprv, hbytes⟩ := Option.map_eq_some_iff.mp hkey
      have hdecoded : prv.decoded = some k := by
        rw [← Encoded.load_bytes, hbytes]
        rfl
      refine ⟨rfl, Option.bind_eq_some_iff.mpr ⟨prv, ?_, hdecoded⟩⟩
      exact (Option.filter_eq_some_iff.mp hprv).1
  exact ⟨a, c, ha, hauditor, hsees, hc, hrow.1, by simp [hcrt], k, hrow.2⟩

theorem key_of_downloadMtlsCertificate
    (h : downloadMtlsCertificate s user certId format password = .ok e)
    (hkey : e.key = some (.text k)) :
    ∃ a c, s.accounts.authCertificates.get? certId = some a ∧
      (a.userId = user.id ∨ user.role = "admin") ∧
      s.store.certificateBySerial a.certSerial = some c ∧ e.certId = c.id ∧ HoldsKey c := by
  simp only [downloadMtlsCertificate, bind_eq_ok, orThrow_eq_ok] at h
  obtain ⟨a, ha, c, hc, crt, hcrt, h⟩ := h
  obtain ⟨ha, howner⟩ := Option.filter_eq_some_iff.mp ha
  have hrow : e.certId = c.id ∧ c.prv.bind Encoded.decoded = some k := by
    split_ifs at h with hformat
    · exact key_of_exportPkcs12 h hkey
    · cases h
      cases hkey
  exact ⟨a, c, ha, by simpa using howner, hc, hrow.1, by simp [hcrt], k, hrow.2⟩

/-- Revoking through an enrolment revokes the certificate that its serial number finds, and
disables this enrolment. -/
theorem revokeUserCertificate_cases (s : MtlsState) (user : User) (certId : ℕ)
    (reason : String) :
    (revokeUserCertificate s user certId reason).2 = s ∨
      ∃ a c store, s.accounts.authCertificates.get? certId = some a ∧
        s.store.certificateBySerial a.certSerial = some c ∧
        CertificateService.revokeCertificate s.store c.id reason user.username s.now = .ok store ∧
        (revokeUserCertificate s user certId reason).2 =
          { s with
            store
            accounts := { s.accounts with
              authCertificates :=
                s.accounts.authCertificates.update a.id fun a => { a with enabled := false } } } := by
  unfold revokeUserCertificate
  cases ha : s.accounts.authCertificates.get? certId with
  | none => exact .inl rfl
  | some a =>
    dsimp only
    cases hc : s.store.certificateBySerial a.certSerial with
    | none => exact .inl rfl
    | some c =>
      dsimp only
      split_ifs with hrevoked
      · exact .inl rfl
      · cases hresult : CertificateService.revokeCertificate s.store c.id reason user.username
            s.now with
        | ok store => exact .inr ⟨a, c, store, rfl, hc, hresult, rfl⟩
        | error e =>
          cases e <;> exact .inl rfl

end Effects

end Mtls

end CaManager
