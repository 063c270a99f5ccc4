import CaManager.Keys.ExportUses
import CaManager.Ocsp.Responder
import CaManager.Scep.Service

/-!
# Transparency of encryption

Every operation that uses a stored key, run once all keys have been encrypted, against the same
operation run before. Lists, status responses, the export routes and creating through the
service give the same result always. The others load a key column as it is, and give the same
result exactly where they do not get that far.
-/

namespace CaManager

open Library

namespace KeyTransparency

/-- The tables and settings that the operations work on. -/
structure Site where
  scep : ScepState
  accounts : Accounts

namespace Site

def store (s : Site) : Store := s.scep.store

def withStore (s : Site) (st : Store) : Site := { s with scep := { s.scep with store := st } }

def encryptedUnder (key : ℕ) (s : Site) : Site := s.withStore (s.store.encryptedUnder key)

end Site

inductive KeyUse
  | signCsr (certId : ℕ) (caref certType : String) (validityDays : ℤ) (serial : RandomSerial)
      (now : Time)
  | createCertificate (r : CertificateService.CreateRequest) (d : Draw)
  | apiCreate (body : Routes.CreateBody) (d : Draw)
  | renew (certId : ℕ) (d : Draw)
  | bulkRenew (requests : List (ℕ × Draw))
  | scepStart (caRefid : String) (challengePassword : Option String) (autoApprove : Bool)
  | scep (operation : ScepRoutes.Operation) (clientIp : String) (d : Draw)
  | exportCertificate (certId : ℕ) (format : String) (password : Option String)
  | exportWithOptions (certId : ℕ) (format : String) (includeKey includeChain : Bool)
      (password : Option String)
  | apiExport (certId : ℕ) (q : Routes.ExportQuery) (mayWrite : Bool)
  | apiExportCa (caId : ℕ) (q : Routes.ExportQuery) (mayWrite : Bool)
  | exportUserCertificate (user : User) (certId : ℕ) (format password : String)
      (includeKey includeChain : Bool) (now : Time)
  | downloadMtlsCertificate (user : User) (certId : ℕ) (format password : String) (now : Time)
  | crl (caId : ℕ) (validityDays : ℤ) (username : String) (now : Time)
  | deltaCrl (caId : ℕ) (validityHours : ℤ) (username : String) (now : Time)
  | ocsp (caId : ℕ) (serial : ℤ) (nonce : Option String) (now : Time)

@[reducible] def KeyUse.Result : KeyUse → Type
  | .signCsr .. => Except PyError X509
  | .createCertificate .. => Except PyError Unit
  | .apiCreate .. => Response
  | .renew .. => Response
  | .bulkRenew .. => List (ℕ × Option String)
  | .scepStart .. => Except PyError SCEPService
  | .scep .. => Option ScepRoutes.Reply
  | .exportCertificate .. => Except PyError ExportFile
  | .exportWithOptions .. => Option (Except PyError ExportFile)
  | .apiExport .. => Option (Except Response ExportFile)
  | .apiExportCa .. => Option (Except Response ExportFile)
  | .exportUserCertificate .. => Except Refusal Mtls.Exported
  | .downloadMtlsCertificate .. => Except Refusal Mtls.Exported
  | .crl .. => Except PyError CrlMetadata
  | .deltaCrl .. => Except PyError CrlMetadata
  | .ocsp .. => Option (OcspDer × String)

def onStore {α : Type} (s : Site) (result : α × Store) : α × Site :=
  (result.1, s.withStore result.2)

def ocspResponse (hsm : ℕ → Option PublicKey) (st : Store) (caId : ℕ) (serial : ℤ)
    (nonce : Option String) (now : Time) : Option (OcspDer × String) × Store :=
  match st.cas.get? caId with
  | none => (none, st)
  | some ca =>
    let (response, st) := OCSPService.generateResponse hsm st ca serial nonce now
    (some response, st)

section Operations

variable [X509Library]

def perform (hsm : ℕ → Option PublicKey) (s : Site) : (u : KeyUse) → u.Result × Site
  | .signCsr certId caref certType validityDays serial now =>
    onStore s (settled s.store
      (CertificateService.signCsr s.store certId caref certType validityDays serial now))
  | .createCertificate r d =>
    onStore s (settled s.store
      ((fun st => ((), st)) <$> CertificateService.createCertificate s.store r d))
  | .apiCreate body d => onStore s (Routes.createCertificate s.store body d)
  | .renew certId d => onStore s (Routes.renewCertificate s.store certId d)
  | .bulkRenew requests =>
    onStore s (Routes.bulkRenewNotes s.store requests,
      Routes.bulkRenewCertificates s.store requests)
  | .scepStart caRefid challengePassword autoApprove =>
    (SCEPService.start s.store caRefid challengePassword autoApprove, s)
  | .scep operation clientIp d =>
    let (reply, scep) := ScepRoutes.endpoint s.scep operation clientIp d
    (reply, { s with scep })
  | .exportCertificate certId format password =>
    (CertificateService.exportCertificate s.store certId format password, s)
  | .exportWithOptions certId format includeKey includeChain password =>
    (CertificateService.exportCertificateWithOptions s.store certId format includeKey includeChain
      password, s)
  | .apiExport certId q mayWrite => (Routes.exportCertificate s.store certId q mayWrite, s)
  | .apiExportCa caId q mayWrite => (Routes.exportCa s.store caId q mayWrite, s)
  | .exportUserCertificate user certId format password includeKey includeChain now =>
    (Mtls.exportUserCertificate ⟨s.store, s.accounts, now⟩ user certId format password includeKey
      includeChain, s)
  | .downloadMtlsCertificate user certId format password now =>
    (Mtls.downloadMtlsCertificate ⟨s.store, s.accounts, now⟩ user certId format password, s)
  | .crl caId validityDays username now =>
    onStore s (settled s.store
      (CRLService.generateCrl s.store caId validityDays username now))
  | .deltaCrl caId validityHours username now =>
    onStore s (settled s.store
      (CRLService.generateDeltaCrl s.store caId validityHours username now))
  | .ocsp caId serial nonce now => onStore s (ocspResponse hsm s.store caId serial nonce now)

/-- Once all keys are encrypted an operation answers as before, and leaves what it left before,
up to the encryption of keys. -/
def Transparent (hsm : ℕ → Option PublicKey) (key : ℕ) (s : Site) (u : KeyUse) : Prop :=
  (perform hsm (s.encryptedUnder key) u).1 = (perform hsm s u).1 ∧
    (perform hsm (s.encryptedUnder key) u).2.encryptedUnder key =
      (perform hsm s u).2.encryptedUnder key

end Operations

/-- A service can start for an authority: its certificate and key load as they are stored. -/
def StartsScep (st : Store) (caRefid : String) : Prop :=
  ∃ ca caCert key, (st.cas.first fun c => c.refid = caRefid) = some ca ∧
    ca.certificate = .ok caCert ∧ ca.privateKey = .ok key

def StartsConfigured (s : ScepState) : Prop :=
  ScepRoutes.getConfig s "scep_enabled" (some "true") = some "true" ∧
    ∃ caId ca, CertificateService.nonEmpty (ScepRoutes.getConfig s "scep_ca_id" none) = some caId ∧
      ScepRoutes.configuredCa s.store caId = some ca ∧ ca.prv.isSome = true ∧
      StartsScep s.store ca.refid

/-- The operation gets as far as using a key that can be loaded as it is stored. -/
def ReachesKey (s : Site) : KeyUse → Prop
  | .signCsr certId caref .. => SignsRequest s.store certId caref
  | .apiCreate body d => CreatesCertificate s.store body d
  | .renew certId d => RenewsCertificate s.store certId d
  | .bulkRenew requests => ∃ request ∈ requests, RenewsLinked s.store request
  | .scepStart caRefid .. => StartsScep s.store caRefid
  | .scep .getCaCert .. => StartsConfigured s.scep
  | .scep (.pkiOperation _) .. => StartsConfigured s.scep
  | .exportCertificate certId format password =>
    format = "pkcs12" ∧ ExportsPkcs12 s.store certId password
  | .exportWithOptions certId format includeKey includeChain password =>
    (format = "pkcs12" ∧ ExportsPkcs12 s.store certId password) ∨
      (format = "pem" ∧ ExportsPem s.store certId includeKey includeChain)
  | .exportUserCertificate user certId format password includeKey _ now =>
    ExportsEnrolled ⟨s.store, s.accounts, now⟩ user certId format password includeKey
  | .downloadMtlsCertificate user certId format password now =>
    DownloadsEnrolled ⟨s.store, s.accounts, now⟩ user certId format password
  | _ => False

theorem ocspResponse_encryptedUnder (hsm : ℕ → Option PublicKey) (key : ℕ) (st : Store) (caId : ℕ)
    (serial : ℤ) (nonce : Option String) (now : Time) :
    ocspResponse hsm (st.encryptedUnder key) caId serial nonce now =
      ((ocspResponse hsm st caId serial nonce now).1,
        (ocspResponse hsm st caId serial nonce now).2.encryptedUnder key) := by
  unfold ocspResponse
  rw [getCa_encryptedUnder]
  cases st.cas.get? caId with
  | none => rfl
  | some ca => simp only [Option.map_some, generateResponse_eq]

section Scep

variable {st : Store} {s : ScepState}

def encryptScep (key : ℕ) (s : ScepState) : ScepState :=
  { s with store := s.store.encryptedUnder key }

theorem start_of_starts (key : ℕ) {caRefid : String} (h : StartsScep st caRefid)
    (challengePassword : Option String) (autoApprove : Bool) :
    SCEPService.start (st.encryptedUnder key) caRefid challengePassword autoApprove =
        .error (.unloadable "private key") ∧
      ∃ svc, SCEPService.start st caRefid challengePassword autoApprove = .ok svc := by
  obtain ⟨ca, caCert, k, hca, hcert, hkey⟩ := h
  unfold SCEPService.start
  rw [firstCa_encryptedUnder fun _ => rfl, hca]
  simp only [Option.map_some, orThrow_some, ok_bind, CA.certificate_encryptKey,
    CA.privateKey_encryptKey, hcert, hkey, error_bind, true_and]
  exact ⟨_, rfl⟩

theorem start_of_not_starts (key : ℕ) {caRefid : String} (h : ¬StartsScep st caRefid)
    (challengePassword : Option String) (autoApprove : Bool) :
    SCEPService.start (st.encryptedUnder key) caRefid challengePassword autoApprove =
        SCEPService.start st caRefid challengePassword autoApprove ∧
      ∃ e, SCEPService.start st caRefid challengePassword autoApprove = .error e := by
  unfold SCEPService.start
  rw [firstCa_encryptedUnder fun _ => rfl]
  cases hca : st.cas.first fun c => c.refid = caRefid with
  | none => exact ⟨rfl, _, rfl⟩
  | some ca =>
    simp only [Option.map_some, orThrow_some, ok_bind, CA.certificate_encryptKey,
      CA.privateKey_encryptKey, error_bind]
    cases hcert : ca.certificate with
    | error e => exact ⟨rfl, e, rfl⟩
    | ok caCert =>
      have hkey := CA.privateKey_eq_error fun k hkey => h ⟨ca, caCert, k, hca, hcert, hkey⟩
      rw [hkey]
      exact ⟨rfl, _, rfl⟩

theorem configuredCa_encryptedUnder (key : ℕ) (st : Store) (caId : String) :
    ScepRoutes.configuredCa (st.encryptedUnder key) caId =
      (ScepRoutes.configuredCa st caId).map (CA.encryptKey (some key)) := by
  unfold ScepRoutes.configuredCa
  rw [firstCa_encryptedUnder fun _ => rfl]
  cases readInt 10 caId.toList with
  | none => rfl
  | some n =>
    simp only [Option.bind_some, getCa_encryptedUnder]
    split_ifs
    · cases st.cas.get? n.toNat with
      | none => rfl
      | some ca => rfl
    · rfl

theorem getScepService_of_starts (key : ℕ) (h : StartsConfigured s) :
    ScepRoutes.getScepService (encryptScep key s) = .error "Unable to load private key" ∧
      ∃ svc, ScepRoutes.getScepService s = .ok svc := by
  obtain ⟨henabled, caId, ca, hcaId, hca, hprv, hstarts⟩ := h
  have hconfig : ∀ name default, ScepRoutes.getConfig (encryptScep key s) name default =
      ScepRoutes.getConfig s name default := fun _ _ => rfl
  have hstore : (encryptScep key s).store = s.store.encryptedUnder key := rfl
  have hrefid : (ca.encryptKey (some key)).refid = ca.refid := rfl
  unfold ScepRoutes.getScepService
  simp only [hconfig, hstore, henabled, ensure_of, ok_bind, hcaId, orThrow_some,
    configuredCa_encryptedUnder, hca, Option.map_some, CA.prv_encryptKey,
    KeyEncryption.isSome_encryptColumn, hprv, hrefid]
  constructor
  · rw [(start_of_starts key hstarts _ _).1]
    rfl
  · obtain ⟨svc, hsvc⟩ := (start_of_starts key hstarts
      (ScepRoutes.getConfig s s!"scep_challenge_{ca.id}" none)
      (ScepRoutes.getConfig s "scep_auto_approve" (some "false") = some "true")).2
    exact ⟨svc, mapError_eq_ok.mpr hsvc⟩

theorem getScepService_of_not_starts (key : ℕ) (h : ¬StartsConfigured s) :
    ScepRoutes.getScepService (encryptScep key s) = ScepRoutes.getScepService s ∧
      ∃ e, ScepRoutes.getScepService s = .error e := by
  have hconfig : ∀ name default, ScepRoutes.getConfig (encryptScep key s) name default =
      ScepRoutes.getConfig s name default := fun _ _ => rfl
  have hstore : (encryptScep key s).store = s.store.encryptedUnder key := rfl
  unfold ScepRoutes.getScepService
  simp only [hconfig, hstore]
  by_cases henabled : ScepRoutes.getConfig s "scep_enabled" (some "true") = some "true"
  · simp only [ensure_of henabled, ok_bind]
    cases hcaId : CertificateService.nonEmpty (ScepRoutes.getConfig s "scep_ca_id" none) with
    | none => exact ⟨rfl, _, rfl⟩
    | some caId =>
      simp only [orThrow_some, ok_bind, configuredCa_encryptedUnder]
      cases hca : ScepRoutes.configuredCa s.store caId with
      | none => exact ⟨rfl, _, rfl⟩
      | some ca =>
        have hrefid : (ca.encryptKey (some key)).refid = ca.refid := rfl
        have hid : (ca.encryptKey (some key)).id = ca.id := rfl
        simp only [Option.map_some, orThrow_some, ok_bind, CA.prv_encryptKey,
          KeyEncryption.isSome_encryptColumn, hrefid, hid]
        by_cases hprv : ca.prv.isSome = true
        · have hstarts : ¬StartsScep s.store ca.refid := fun hstarts =>
            h ⟨henabled, caId, ca, hcaId, hca, hprv, hstarts⟩
          obtain ⟨hsame, e, he⟩ := start_of_not_starts key hstarts
            (ScepRoutes.getConfig s s!"scep_challenge_{ca.id}" none)
            (ScepRoutes.getConfig s "scep_auto_approve" (some "false") = some "true")
          simp only [ensure_of hprv, ok_bind, hsame, he, true_and]
          exact ⟨_, rfl⟩
        · simp only [ensure_of_not hprv, error_bind]
          exact ⟨trivial, _, rfl⟩
  · simp only [ensure_of_not henabled, error_bind]
    exact ⟨trivial, _, rfl⟩

theorem handleGetCaCert_ne (svc : SCEPService) (h : ScepRoutes.getScepService s = .ok svc) :
    ScepRoutes.handleGetCaCert s ≠ some (.text 500 "Unable to load private key") := by
  unfold ScepRoutes.handleGetCaCert
  rw [h]
  dsimp only
  split_ifs
  · simp
  · cases ScepRoutes.caChain s.store svc with
    | none => simp
    | some result => cases result <;> simp

theorem handlePkiOperation_ne [X509Library] (svc : SCEPService)
    (h : ScepRoutes.getScepService s = .ok svc) (message : ScepRoutes.PkiMessage)
    (clientIp : String) (d : Draw) :
    (ScepRoutes.handlePkiOperation s message clientIp d).1 ≠
      .text 500 "Unable to load private key" := by
  unfold ScepRoutes.handlePkiOperation
  rw [h]
  cases message with
  | missing => simp
  | invalidBase64 => simp
  | empty => simp
  | bytes bytes =>
    dsimp only
    split
    next => simp
    next => simp

end Scep

section Uses

variable {key : ℕ} {s : Site}

theorem transparent_onStore_iff {α : Type} {a b : α × Store} :
    ((onStore (s.encryptedUnder key) a).1 = (onStore s b).1 ∧
        (onStore (s.encryptedUnder key) a).2.encryptedUnder key =
          (onStore s b).2.encryptedUnder key) ↔ Agrees key a b := by
  refine and_congr_right fun _ => ⟨fun h => ?_, fun h => ?_⟩
  · exact congrArg Site.store h
  · exact congrArg s.withStore h

theorem Site.encryptedUnder_encryptedUnder (key : ℕ) (s : Site) :
    (s.encryptedUnder key).encryptedUnder key = s.encryptedUnder key :=
  congrArg s.withStore (CaManager.encryptedUnder_encryptedUnder key s.store)

theorem transparent_unchanged_iff {α : Type} {a b : α} :
    (a = b ∧ (s.encryptedUnder key).encryptedUnder key = s.encryptedUnder key) ↔ a = b :=
  and_iff_left (Site.encryptedUnder_encryptedUnder key s)

variable [X509Library] {hsm : ℕ → Option PublicKey}

theorem transparent_scep_iff (operation : ScepRoutes.Operation) (clientIp : String) (d : Draw) :
    Transparent hsm key s (.scep operation clientIp d) ↔
      ¬ReachesKey s (.scep operation clientIp d) := by
  have hscep : (s.encryptedUnder key).scep = encryptScep key s.scep := rfl
  cases operation with
  | getCaCaps => exact iff_of_true ⟨rfl, Site.encryptedUnder_encryptedUnder key s⟩ id
  | unknown name => exact iff_of_true ⟨rfl, Site.encryptedUnder_encryptedUnder key s⟩ id
  | getCaCert =>
    change (ScepRoutes.handleGetCaCert (encryptScep key s.scep) = _ ∧ _) ↔ ¬StartsConfigured s.scep
    refine transparent_unchanged_iff.trans ?_
    by_cases h : StartsConfigured s.scep
    · obtain ⟨herror, svc, hsvc⟩ := getScepService_of_starts key h
      have hreply : ScepRoutes.handleGetCaCert (encryptScep key s.scep) =
          some (.text 500 "Unable to load private key") := by
        unfold ScepRoutes.handleGetCaCert
        rw [herror]
      rw [hreply]
      exact iff_of_false (handleGetCaCert_ne svc hsvc).symm (not_not_intro h)
    · obtain ⟨hsame, e, he⟩ := getScepService_of_not_starts key h
      have hboth : ∀ s', ScepRoutes.getScepService s' = .error e →
          ScepRoutes.handleGetCaCert s' = some (.text 500 e) := by
        intro s' hs'
        unfold ScepRoutes.handleGetCaCert
        rw [hs']
      exact iff_of_true ((hboth _ (hsame.trans he)).trans (hboth _ he).symm) h
  | pkiOperation message =>
    change (some (ScepRoutes.handlePkiOperation (encryptScep key s.scep) message clientIp d).1 =
        some (ScepRoutes.handlePkiOperation s.scep message clientIp d).1 ∧ _) ↔
      ¬StartsConfigured s.scep
    by_cases h : StartsConfigured s.scep
    · obtain ⟨herror, svc, hsvc⟩ := getScepService_of_starts key h
      refine iff_of_false (fun hsame => ?_) (not_not_intro h)
      have hreply : (ScepRoutes.handlePkiOperation (encryptScep key s.scep) message clientIp d).1 =
          .text 500 "Unable to load private key" := by
        unfold ScepRoutes.handlePkiOperation
        rw [herror]
      rw [hreply, Option.some.injEq] at hsame
      exact handlePkiOperation_ne svc hsvc message clientIp d hsame.1.symm
    · obtain ⟨hsame, e, he⟩ := getScepService_of_not_starts key h
      have hboth : ∀ s', ScepRoutes.getScepService s' = .error e →
          ScepRoutes.handlePkiOperation s' message clientIp d = (.text 500 e, s') := by
        intro s' hs'
        unfold ScepRoutes.handlePkiOperation
        rw [hs']
      refine iff_of_true ⟨?_, ?_⟩ h
      · rw [hboth _ (hsame.trans he), hboth _ he]
      · simp only [perform, ScepRoutes.endpoint, hscep, hboth _ (hsame.trans he), hboth _ he]
        exact Site.encryptedUnder_encryptedUnder key s

end Uses

def sampleSite : Site where
  scep := { store := sampleStore, requests := ∅, config := [("scep_ca_id", some "1")] }
  accounts := {}

theorem unencrypted_sampleSite : sampleSite.store.Unencrypted where
  disabled := rfl
  cas := by decide
  certificates := by decide

def certificateAsked : KeyUse :=
  .apiCreate { caId := 1, descr := "www", subject := sampleName "www", names := [] }
    (sampleDraw 255 "www" 100)

end KeyTransparency

end CaManager
