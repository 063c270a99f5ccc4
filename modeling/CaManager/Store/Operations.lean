import CaManager.Library.Machines
import CaManager.Store.Routes

/-!
# Runs of the certificate store

The operations on certificates as events of one machine. Each event carries what its call
draws at random and its time. A call that raises before its commit leaves the store as it
was, so every list of operations is a run.
-/

namespace CaManager

open Library

inductive Op
  | create (r : CertificateService.CreateRequest) (d : Draw)
  | generateCsr (descr : String) (subject : Name) (keyType : String) (sanDns sanIp : List String)
      (username : String) (d : Draw)
  | signCsr (certId : ℕ) (caref certType : String) (validityDays : ℤ) (serial : RandomSerial)
      (now : Time)
  | importCertificate (descr : String) (x : X509) (keyPem : Option KeyPem) (chain : List X509)
      (username : String) (source : Option String) (refid : String)
  | apiCreate (body : Routes.CreateBody) (d : Draw)
  | revoke (certId : ℕ) (reason username : String) (now : Time)
  | apiRevoke (certId : ℕ) (reason username : String) (now : Time)
  | bulkRevoke (ids : List ℕ) (reason username : String) (now : Time)
  | unhold (certId : ℕ)
  | renew (certId : ℕ) (d : Draw)
  | bulkRenew (requests : List (ℕ × Draw))
  | delete (certId : ℕ)
  | apiDelete (certId : ℕ)
  | bulkDelete (ids : List ℕ)
  | generateCrl (caId : ℕ) (validityDays : ℤ) (username : String) (now : Time)
  deriving DecidableEq

/-- The store after a call: what it committed, or the store as it was if it raised. -/
def committed (st : Store) (result : Except PyError Store) : Store :=
  match result with
  | .ok st' => st'
  | .error _ => st

def Store.apply [X509Library] (st : Store) : Op → Store
  | .create r d => committed st (CertificateService.createCertificate st r d)
  | .generateCsr descr subject keyType sanDns sanIp username d =>
    committed st (CertificateService.generateCsr st descr subject keyType sanDns sanIp username d)
  | .signCsr certId caref certType validityDays serial now =>
    committed st (Prod.snd <$>
      CertificateService.signCsr st certId caref certType validityDays serial now)
  | .importCertificate descr x keyPem chain username source refid =>
    committed st
      (CertificateService.importCertificate st descr x keyPem chain username source refid)
  | .apiCreate body d => (Routes.createCertificate st body d).2
  | .revoke certId reason username now =>
    committed st (CertificateService.revokeCertificate st certId reason username now)
  | .apiRevoke certId reason username now =>
    (Routes.revokeCertificate st certId reason username now).2
  | .bulkRevoke ids reason username now =>
    Routes.bulkRevokeCertificates st ids reason username now
  | .unhold certId => (Routes.unholdCertificate st certId).2
  | .renew certId d => (Routes.renewCertificate st certId d).2
  | .bulkRenew requests => Routes.bulkRenewCertificates st requests
  | .delete certId => (CertificateService.deleteCertificate st certId).2
  | .apiDelete certId => (Routes.deleteCertificate st certId).2
  | .bulkDelete ids => Routes.bulkDeleteCertificates st ids
  | .generateCrl caId validityDays username now =>
    committed st (Prod.snd <$> CRLService.generateCrl st caId validityDays username now)

def Signs (ca : CA) (issuer : Name) (key : PublicKey) : Prop :=
  match ca.certificate with
  | .ok caCert => issuer = caCert.subject ∧ key = caCert.publicKey
  | .error _ => False

instance (ca : CA) (issuer : Name) (key : PublicKey) : Decidable (Signs ca issuer key) :=
  match h : ca.certificate with
  | .ok caCert =>
    decidable_of_iff (issuer = caCert.subject ∧ key = caCert.publicKey) (by simp [Signs, h])
  | .error _ => .isFalse (by simp [Signs, h])

/-- A certificate is issued by an authority whose certificate bears its issuer name and whose
key verifies its signature. -/
def Issued (ca : CA) (x : X509) : Prop := Signs ca x.issuer x.signedBy

instance (ca : CA) (x : X509) : Decidable (Issued ca x) :=
  inferInstanceAs (Decidable (Signs _ _ _))

/-- The row holds a certificate with this serial number that the authority issued. -/
def HoldsIssued (ca : CA) (s : ℤ) (c : Certificate) : Prop :=
  match c.x509 with
  | .ok x => Issued ca x ∧ x.serial = s
  | .error _ => False

instance (ca : CA) (s : ℤ) (c : Certificate) : Decidable (HoldsIssued ca s c) :=
  match h : c.x509 with
  | .ok x => decidable_of_iff (Issued ca x ∧ x.serial = s) (by simp [HoldsIssued, h])
  | .error _ => .isFalse (by simp [HoldsIssued, h])

/-- Some certificate with this serial number that the authority issued is stored as revoked. -/
def RevokedSerial (st : Store) (ca : CA) (s : ℤ) : Prop :=
  ∃ c ∈ st.certificates.rows, c.revoked = true ∧ HoldsIssued ca s c

instance (st : Store) (ca : CA) (s : ℤ) : Decidable (RevokedSerial st ca s) :=
  inferInstanceAs (Decidable (∃ c ∈ st.certificates.rows, _))

section Authorities

variable {P : CA → Prop}

theorem forall_mem_countSerial (hP : ∀ ca n, P { ca with serial := n } ↔ P ca) (st : Store)
    (ca : CA) : (∀ c ∈ (st.countSerial ca).cas, P c) ↔ ∀ c ∈ st.cas, P c := by
  unfold Store.countSerial
  constructor
  · intro h c hc
    by_cases hid : c.id = ca.id
    · have hget : st.cas.get? ca.id = some c := Table.get?_eq_some_iff.mpr ⟨hc, hid⟩
      have hmem := h _ (Table.mem_update.mpr (.inr ⟨c, hget, rfl⟩))
      rw [← hid] at hmem
      exact (hP c _).mp hmem
    · exact h c (Table.mem_update.mpr (.inl ⟨hc, hid⟩))
  · intro h c hc
    rcases Table.mem_update.mp hc with ⟨hc, _⟩ | ⟨c₀, hget, rfl⟩
    · exact h c hc
    · have hid : c₀.id = ca.id := Table.key_of_get? hget
      have hc₀ := h c₀ (Table.mem_of_get? hget)
      rw [← hid]
      exact (hP c₀ _).mpr hc₀

end Authorities

/-- What an operation is about to do to the row of an identifier. -/
inductive RowEvent
  | sign (certId : ℕ) (caref : String) (serial : RandomSerial)
  | revoke (certId : ℕ) (reason : String)
  | unhold (certId : ℕ)
  | renew (certId : ℕ)
  | delete (certId : ℕ)
  deriving DecidableEq

/-- Every row event of the operation satisfies the condition in the store it meets. A bulk
operation meets the stores that its earlier identifiers left. -/
def Admits (C : Store → RowEvent → Prop) (st : Store) : Op → Prop
  | .signCsr certId caref _ _ serial _ => C st (.sign certId caref serial)
  | .revoke certId reason _ _ => C st (.revoke certId reason)
  | .apiRevoke certId reason _ _ => C st (.revoke certId reason)
  | .bulkRevoke ids reason username now =>
    Meets (Routes.bulkRevokeOne reason username now) (fun s id => C s (.revoke id reason)) st ids
  | .unhold certId => C st (.unhold certId)
  | .renew certId _ => C st (.renew certId)
  | .bulkRenew requests =>
    Meets Routes.bulkRenewOne (fun s request => C s (.renew request.1)) st requests
  | .delete certId => C st (.delete certId)
  | .apiDelete certId => C st (.delete certId)
  | .bulkDelete ids => Meets Routes.bulkDeleteOne (fun s id => C s (.delete id)) st ids
  | _ => True

instance {C : Store → RowEvent → Prop} [∀ s e, Decidable (C s e)] (st : Store) (op : Op) :
    Decidable (Admits C st op) := by
  unfold Admits
  split <;> infer_instance

theorem admits_true (st : Store) (op : Op) : Admits (fun _ _ => True) st op := by
  cases op <;> first | trivial | exact meets_of_forall _ (fun _ _ => trivial) _ _

/-- A row as the creating operations insert it: not revoked, and if it is linked to an
authority then it holds a certificate whose serial number a list can carry. -/
structure FreshRow (row : Certificate) : Prop where
  unrevoked : row.revoked = false
  linked : row.caref ≠ none →
    ∃ x, row.x509 = .ok x ∧ 0 < x.serial ∧ x.serial < 2 ^ maxSerialBits

/-- The single commits that the operations are made of, each preserving a property. -/
structure CommitRules [X509Library] (C : Store → RowEvent → Prop) (P : Store → Prop) : Prop where
  countSerial : ∀ {st} (ca : CA), P st → P (st.countSerial ca)
  insert : ∀ {st st'} {row : Certificate}, P st → FreshRow row →
    st.addCertificate row = .ok st' → P st'
  sign : ∀ {st} {certId : ℕ} {caref certType : String} {serial : RandomSerial}
    {row : Certificate} {ca : CA} {caCert x : X509} {key : PublicKey},
    P st → C st (.sign certId caref serial) → st.certificates.get? certId = some row →
    row.crt = none → (st.cas.first fun c => c.refid = caref) = some ca →
    ca.certificate = .ok caCert → ca.privateKey = .ok key →
    TrustStoreService.Issues caCert key serial x →
    P (st.setCertificate certId fun c => CertificateService.signedRow c caref certType x)
  revoke : ∀ {st} {certId : ℕ} {reason : String} {row : Certificate} (now : Time),
    P st → C st (.revoke certId reason) → st.certificates.get? certId = some row →
    row.revoked = false → P (st.setCertificate certId (CertificateService.revokedRow reason now))
  unhold : ∀ {st} {certId : ℕ} {row : Certificate},
    P st → C st (.unhold certId) → st.certificates.get? certId = some row →
    row.revoked = true → Routes.onHold row = true →
    P (st.setCertificate certId Routes.clearedRow)
  renew : ∀ {st} {certId : ℕ} {row : Certificate} {caCert x : X509} {key : PublicKey}
    {serial : RandomSerial} (keyPem : KeyPem),
    P st → C st (.renew certId) → st.certificates.get? certId = some row →
    TrustStoreService.Issues caCert key serial x →
    P (st.setCertificate certId (Routes.renewedRow x keyPem))
  delete : ∀ {st} {certId : ℕ}, P st → C st (.delete certId) →
    P { st with certificates := st.certificates.delete certId }
  list : ∀ {st st'} {caId : ℕ} {validityDays : ℤ} {username : String} {now : Time}
    {m : CrlMetadata}, P st →
    CRLService.generateCrl st caId validityDays username now = .ok (m, st') → P st'

section Commits

variable {P : Store → Prop} {st : Store}

theorem holds_of_committed {result : Except PyError Store} (h : P st)
    (hok : ∀ st', result = .ok st' → P st') : P (committed st result) := by
  cases result with
  | error e => exact h
  | ok st' => exact hok st' rfl

theorem holds_of_eq_or {st' : Store} {Q : Prop} (h : P st) (hcases : st' = st ∨ Q)
    (hQ : Q → P st') : P st' := by
  rcases hcases with rfl | hq
  · exact h
  · exact hQ hq

theorem freshRow_of_issues {caCert x : X509} {key : PublicKey} {serial : RandomSerial}
    {row : Certificate} (h : TrustStoreService.Issues caCert key serial x)
    (hx : row.x509 = .ok x) (hrevoked : row.revoked = false) : FreshRow row :=
  ⟨hrevoked, fun _ => ⟨x, hx, h.serial_pos, h.serial_lt⟩⟩

theorem freshRow_of_unlinked {row : Certificate} (hcaref : row.caref = none)
    (hrevoked : row.revoked = false) : FreshRow row :=
  ⟨hrevoked, fun h => absurd hcaref h⟩

end Commits

section Steps

variable [X509Library] {C : Store → RowEvent → Prop} {P : Store → Prop} {st : Store}

theorem CommitRules.revokeCertificate (rules : CommitRules C P) {certId : ℕ}
    {reason username : String} {now : Time} {st' : Store} (h : P st)
    (hC : C st (.revoke certId reason))
    (hok : CertificateService.revokeCertificate st certId reason username now = .ok st') :
    P st' := by
  obtain ⟨row, hrow, hrevoked, hst'⟩ := CertificateService.revokeCertificate_eq_ok hok
  have hset := rules.revoke now h hC hrow hrevoked
  rcases hst' with rfl | ⟨ca, m, _, hcrl⟩
  · exact hset
  · exact rules.list hset hcrl

theorem CommitRules.tryRenew (rules : CommitRules C P) {certId : ℕ} {row : Certificate} {ca : CA}
    {d : Draw} {st' : Store} (h : P st) (hC : C st (.renew certId))
    (hrow : st.certificates.get? certId = some row)
    (hok : Routes.tryRenew st row ca d = .ok st') : P st' := by
  obtain ⟨_, _, _, keyPem, _, _, hissues, rfl⟩ := Routes.tryRenew_eq_ok hok
  have hid : row.id = certId := Table.key_of_get? hrow
  rw [hid]
  exact rules.renew keyPem h hC hrow hissues

theorem CommitRules.delete_of_get? (rules : CommitRules C P) {certId : ℕ} (h : P st)
    (hC : C st (.delete certId)) : P (Routes.deleteCertificate st certId).2 :=
  holds_of_eq_or h (Routes.deleteCertificate_cases st certId) fun heq =>
    heq ▸ rules.delete h hC

theorem CommitRules.step (rules : CommitRules C P) (op : Op) (h : P st)
    (hC : Admits C st op) : P (st.apply op) := by
  cases op with
  | create r d =>
    refine holds_of_committed h fun st' hok => ?_
    obtain ⟨ca, _, _, x, _, _, _, _, hissues, hadd⟩ :=
      CertificateService.createCertificate_eq_ok hok
    exact rules.insert (rules.countSerial ca h) (freshRow_of_issues hissues rfl rfl) hadd
  | generateCsr descr subject keyType sanDns sanIp username d =>
    refine holds_of_committed h fun st' hok => ?_
    obtain ⟨row, hcaref, _, hrevoked, hadd⟩ := CertificateService.generateCsr_eq_ok hok
    exact rules.insert h (freshRow_of_unlinked hcaref hrevoked) hadd
  | signCsr certId caref certType validityDays serial now =>
    refine holds_of_committed h fun st' hok => ?_
    obtain ⟨⟨x, st''⟩, hsign, rfl⟩ := map_eq_ok.mp hok
    obtain ⟨row, ca, caCert, key, hrow, hcrt, hca, hcert, hkey, hissues, rfl⟩ :=
      CertificateService.signCsr_eq_ok hsign
    exact rules.countSerial ca (rules.sign h hC hrow hcrt hca hcert hkey hissues)
  | importCertificate descr x keyPem chain username source refid =>
    refine holds_of_committed h fun st' hok => ?_
    exact rules.insert h (freshRow_of_unlinked rfl rfl)
      (CertificateService.importCertificate_eq_ok hok)
  | apiCreate body d =>
    refine holds_of_eq_or h (Routes.createCertificate_cases st body d) ?_
    rintro ⟨_, _, _, x, _, _, _, _, hissues, hadd⟩
    exact rules.insert h (freshRow_of_issues hissues rfl rfl) hadd
  | revoke certId reason username now =>
    exact holds_of_committed h fun st' hok => rules.revokeCertificate h hC hok
  | apiRevoke certId reason username now =>
    exact holds_of_eq_or h (Routes.revokeCertificate_cases st certId reason username now)
      fun hok => rules.revokeCertificate h hC hok
  | bulkRevoke ids reason username now =>
    refine run_invariant (fun s certId hs hc => ?_) h hC
    exact holds_of_eq_or hs (Routes.bulkRevokeOne_cases reason username now s certId)
      fun hok => rules.revokeCertificate hs hc hok
  | unhold certId =>
    refine holds_of_eq_or h (Routes.unholdCertificate_cases st certId) ?_
    rintro ⟨row, hrow, hrevoked, hhold, heq⟩
    simp only [Store.apply, heq]
    exact rules.unhold h hC hrow hrevoked hhold
  | renew certId d =>
    refine holds_of_eq_or h (Routes.renewCertificate_cases st certId d) ?_
    rintro ⟨row, ca, hrow, _, hok⟩
    exact rules.tryRenew h hC hrow hok
  | bulkRenew requests =>
    refine run_invariant (fun s request hs hc => ?_) h hC
    refine holds_of_eq_or hs (Routes.bulkRenewOne_cases s request) ?_
    rintro ⟨row, ca, hrow, _, hok⟩
    exact rules.tryRenew hs hc hrow hok
  | delete certId =>
    simp only [Store.apply, CertificateService.deleteCertificate]
    split
    next => exact rules.delete h hC
    next => exact h
  | apiDelete certId => exact rules.delete_of_get? h hC
  | bulkDelete ids =>
    refine run_invariant (fun s certId hs hc => ?_) h hC
    exact holds_of_eq_or hs (Routes.bulkDeleteOne_cases s certId) fun heq =>
      heq ▸ rules.delete hs hc
  | generateCrl caId validityDays username now =>
    refine holds_of_committed h fun st' hok => ?_
    obtain ⟨⟨m, st''⟩, hcrl, rfl⟩ := map_eq_ok.mp hok
    exact rules.list h hcrl

theorem CommitRules.run (rules : CommitRules C P) {ops : List Op} (h : P st)
    (hC : Meets Store.apply (Admits C) st ops) : P (Library.run Store.apply st ops) :=
  run_invariant (fun _ op hs hop => rules.step op hs hop) h hC

theorem CommitRules.run_true (rules : CommitRules (fun _ _ => True) P) {ops : List Op}
    (h : P st) : P (Library.run Store.apply st ops) :=
  rules.run h (meets_of_forall _ admits_true st ops)

end Steps

section Sample

@[reducible] def sampleLibrary : X509Library where
  rfc4514String n := ",".intercalate (n.reverse.map fun a =>
    (if a.oid = commonNameOid then "CN" else a.oid) ++ "=" ++ a.value)
  nameDigest _ n := "/".intercalate (n.map NameAttribute.value)

def sampleName (cn : String) : Name := [⟨commonNameOid, cn⟩]

def sampleKey : PublicKey := ⟨.rsa 2048, 1⟩

def sampleCaCert : X509 :=
  { serial := 1, subject := sampleName "Root", issuer := sampleName "Root"
    publicKey := sampleKey, signedBy := sampleKey, notBefore := 0, notAfter := days 3650
    extensions := [⟨.basicConstraints true none, true⟩] }

/-- An authority with its key at hand and no lists published on revocation. -/
def sampleCa : CA :=
  { id := 1, refid := "root", descr := "Root", crt := .base64 ⟨sampleCaCert, []⟩
    prv := some (.base64 ⟨sampleKey⟩), serial := some 0, subject := some "CN=Root"
    cdpEnabled := false, cdpUrl := none, deltaCrlEnabled := false
    ocspEnabled := true, ocspUrl := none, hsmKeyId := none }

def sampleStore : Store :=
  { cas := (∅ : Table CA).insert sampleCa, certificates := ∅, crls := ∅, ocspResponses := ∅
    keyEncryptionKey := none }

def sampleDraw (serial : ℕ) (refid : String) (now : Time) : Draw :=
  ⟨⟨serial % 2 ^ maxSerialBits, Nat.mod_lt _ (Nat.two_pow_pos _)⟩, serial, refid, now⟩

end Sample

end CaManager
