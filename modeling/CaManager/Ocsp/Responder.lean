import CaManager.Store.Operations

/-!
# The status responder

How the responder finds the authority of a request and computes the status of a serial
number. The authority is looked up by loading the `crt` column itself as PEM, although the
column holds base64. The certificate is then looked up by an attribute that the row class
does not have, so the computation always ends in its exception handler.
-/

namespace CaManager

open Library

structure OcspRequest where
  issuerNameHash : String
  issuerKeyHash : String
  hashAlgorithm : HashAlgorithm
  serial : ℤ
  nonce : Option String
  deriving Repr, DecidableEq

namespace OCSPService

/-- `_REASON_MAP` -/
def reasonMap : List (String × ReasonFlag) :=
  [("unspecified", .unspecified), ("key_compromise", .keyCompromise),
   ("keyCompromise", .keyCompromise), ("ca_compromise", .caCompromise),
   ("caCompromise", .caCompromise), ("affiliation_changed", .affiliationChanged),
   ("affiliationChanged", .affiliationChanged), ("superseded", .superseded),
   ("cessation_of_operation", .cessationOfOperation),
   ("cessationOfOperation", .cessationOfOperation), ("certificate_hold", .certificateHold),
   ("certificateHold", .certificateHold), ("privilege_withdrawn", .privilegeWithdrawn),
   ("privilegeWithdrawn", .privilegeWithdrawn), ("aa_compromise", .aaCompromise),
   ("aACompromise", .aaCompromise)]

/-- The signing key of an authority: in the security module, or in the row. -/
def loadCaKey (hsm : ℕ → Option PublicKey) (st : Store) (ca : CA) : Except PyError PublicKey :=
  match ca.hsmKeyId with
  | some keyId => orThrow (hsm keyId) (.valueError s!"HSM signing failed for CA {ca.descr}")
  | none => do
    ensure (ca.prv.isSome = true) (.valueError s!"CA {ca.descr} has no private key")
    ca.decryptedPrivateKey st.keyEncryptionKey

/-- Status, its text, revocation time and reason, by the row that was found. -/
def statusOf (row : Option Certificate) (now : Time) :
    CertStatus × String × Option Time × Option ReasonFlag :=
  match row with
  | none => (.unknown, "unknown", none, none)
  | some c =>
    if c.revoked then
      (.revoked, "revoked", some (c.revokedAt.getD now),
        some ((c.revokeReason.bind fun reason => reasonMap.lookup reason).getD .unspecified))
    else (.good, "good", none, none)

def cacheResponse (st : Store) (entry : OcspResponse) : Store :=
  match st.ocspResponses.first fun r => r.caId = entry.caId && r.certSerial = entry.certSerial with
  | some existing =>
    { st with ocspResponses := st.ocspResponses.update existing.id fun _ => entry }
  | none => { st with ocspResponses := st.ocspResponses.insert entry }

/-- The serial number of the response: the one in the certificate found, or the one asked. -/
def respondedSerial (row : Option Certificate) (serial : ℤ) : ℤ :=
  match row.map Certificate.x509 with
  | some (.ok x) => x.serial
  | _ => serial

/-- The body of `generate_response` under its exception handler. -/
def tryGenerate (hsm : ℕ → Option PublicKey) (st : Store) (ca : CA) (serial : ℤ)
    (nonce : Option String) (now : Time) : Except PyError ((OcspDer × String) × Store) := do
  let caCert ← ca.certificate
  let caKey ← loadCaKey hsm st ca
  let rows ← st.filterBy "serial" (hexText serial)
  let row := rows.head?
  let (status, text, revocationTime, revocationReason) := statusOf row now
  let der := OcspDer.successful status (respondedSerial row serial) caCert.subject now
    (now + days 1) revocationTime revocationReason (nonce.filter (· ≠ "")) caKey
  let entry : OcspResponse :=
    { caId := ca.id, certSerial := hexText serial, responseDer := der, status := text
      thisUpdate := now, nextUpdate := now + days 1
      revocationTime := revocationTime, revocationReason := revocationReason }
  return ((der, text), cacheResponse st entry)

def generateResponse (hsm : ℕ → Option PublicKey) (st : Store) (ca : CA) (serial : ℤ)
    (nonce : Option String) (now : Time) : (OcspDer × String) × Store :=
  match tryGenerate hsm st ca serial nonce now with
  | .ok result => result
  | .error _ => ((.unsuccessful .internalError, "error"), st)

def getCachedResponse (st : Store) (caId : ℕ) (certSerial : String) (now : Time) :
    Option OcspDer :=
  match st.ocspResponses.first fun r => r.caId = caId && r.certSerial = certSerial with
  | some cached => if cached.nextUpdate < now then none else some cached.responseDer
  | none => none

end OCSPService

namespace OcspRoutes

/-- `_find_ca_by_issuer_hash`: only SHA-256 and SHA-1 digests of the name are compared. -/
def findCaByIssuerHash [X509Library] (st : Store) (request : OcspRequest) : Option CA :=
  st.cas.first fun ca =>
    match ca.crt.asText with
    | some pem =>
      let algorithm := if request.hashAlgorithm = .sha256 then .sha256 else .sha1
      X509Library.nameDigest algorithm pem.leaf.subject = request.issuerNameHash
    | none => false

/-- The answer to a request: the response and its cache directive. -/
structure Reply where
  der : OcspDer
  cacheControl : Option String
  deriving Repr, DecidableEq

def errorReply (failure : OcspFailure) : Reply := ⟨.unsuccessful failure, none⟩

def cacheHeaders (der : OcspDer) (nonce : Option String) : Reply :=
  if (nonce.filter (· ≠ "")).isSome then ⟨der, some "no-cache, no-store"⟩
  else ⟨der, some "max-age=3600, public"⟩

/-- `_process_ocsp_request`, given what parsing the body gave. -/
def processOcspRequest [X509Library] (hsm : ℕ → Option PublicKey) (st : Store)
    (parsed : Option OcspRequest) (now : Time) : Reply × Store :=
  match parsed with
  | none => (errorReply .malformedRequest, st)
  | some request =>
    match findCaByIssuerHash st request with
    | none => (errorReply .unauthorized, st)
    | some ca =>
      if ca.ocspEnabled = false then (errorReply .unauthorized, st)
      else
        match OCSPService.getCachedResponse st ca.id (hexText request.serial) now with
        | some der => (cacheHeaders der request.nonce, st)
        | none =>
          let result := OCSPService.generateResponse hsm st ca request.serial request.nonce now
          (cacheHeaders result.1.1 request.nonce, result.2)

end OcspRoutes

section Status

/-- The status a request for a serial number of an authority should get: from the stored
certificates that the authority issued under it, and from no others. -/
def expectedStatus (st : Store) (c : CA) (serial : ℤ) : String :=
  if ∃ row ∈ st.certificates.rows, row.revoked = true ∧ HoldsIssued c serial row then "revoked"
  else if ∃ row ∈ st.certificates.rows, row.revoked = false ∧ HoldsIssued c serial row then "good"
  else "unknown"

variable {hsm : ℕ → Option PublicKey} {st : Store} {ca : CA} {serial : ℤ}
  {nonce : Option String} {now : Time}

theorem tryGenerate_isError (result : (OcspDer × String) × Store) :
    OCSPService.tryGenerate hsm st ca serial nonce now ≠ .ok result := by
  intro h
  simp only [OCSPService.tryGenerate, bind_eq_ok] at h
  obtain ⟨_, _, _, _, rows, hrows, _⟩ := h
  cases hrows

@[simp] theorem generateResponse_eq :
    OCSPService.generateResponse hsm st ca serial nonce now =
      ((.unsuccessful .internalError, "error"), st) := by
  unfold OCSPService.generateResponse
  cases h : OCSPService.tryGenerate hsm st ca serial nonce now with
  | ok result => exact absurd h (tryGenerate_isError result)
  | error e => rfl

theorem error_ne_expectedStatus (c : CA) : "error" ≠ expectedStatus st c serial := by
  unfold expectedStatus
  split_ifs <;> decide

/-- For no store and no request is the status computed for the authority that was found the
status that the stored certificates call for. -/
theorem ocsp_status_ne_expected [X509Library] (hsm : ℕ → Option PublicKey) (st : Store) (c : CA)
    (request : OcspRequest) (now : Time) :
    ((OcspRoutes.findCaByIssuerHash st request).map fun ca =>
      (OCSPService.generateResponse hsm st ca request.serial request.nonce now).1.2) ≠
        some (expectedStatus st c request.serial) := by
  cases OcspRoutes.findCaByIssuerHash st request with
  | none => simp
  | some ca =>
    simp only [Option.map_some, generateResponse_eq, ne_eq, Option.some.injEq]
    exact error_ne_expectedStatus c

def revokedSample [X509Library] : Store :=
  run Store.apply sampleStore
    [.apiCreate { caId := 1, descr := "www", subject := sampleName "www", names := [] }
      (sampleDraw 255 "www" 100), .apiRevoke 1 "keyCompromise" "admin" 200]

/-- The revoked certificate gets no status: its authority is not found by its hash, and even
for that authority the computation fails. -/
theorem ocsp_revoked_unanswered :
    let _ := sampleLibrary
    let request : OcspRequest := ⟨"Root", "", .sha256, 255, none⟩
    X509Library.nameDigest .sha256 sampleCaCert.subject = request.issuerNameHash ∧
      expectedStatus revokedSample sampleCa 255 = "revoked" ∧
      OcspRoutes.findCaByIssuerHash revokedSample request = none ∧
      (OCSPService.generateResponse (fun _ => none) revokedSample sampleCa 255 none 300).1.2 =
        "error" := by
  decide

end Status

end CaManager

/-!
# The response cache

Runs that mix certificate operations with status requests. A response taken from the cache
should carry the status that a fresh one would carry, and a response should repeat the nonce
of its request. Since no response is ever computed successfully, nothing enters the cache;
and since failure responses carry no nonce, exactly the runs without nonces meet the demand.
-/

namespace CaManager

open Library

inductive OcspEvent
  | operation (op : Op)
  | request (parsed : Option OcspRequest) (now : Time)
  | cleanup (now : Time)
  deriving DecidableEq

/-- `cleanup_expired_responses` -/
def OCSPService.cleanupExpiredResponses (st : Store) (now : Time) : Store :=
  { st with ocspResponses := st.ocspResponses.deleteWhere fun r => r.nextUpdate < now }

def ocspStep [X509Library] (hsm : ℕ → Option PublicKey) (st : Store) : OcspEvent → Store
  | .operation op => st.apply op
  | .request parsed now => (OcspRoutes.processOcspRequest hsm st parsed now).2
  | .cleanup now => OCSPService.cleanupExpiredResponses st now

def OcspDer.certStatus : OcspDer → Option CertStatus
  | successful status _ _ _ _ _ _ _ _ => some status
  | unsuccessful _ => none

def OcspDer.nonce : OcspDer → Option String
  | successful _ _ _ _ _ _ _ nonce _ => nonce
  | unsuccessful _ => none

section Coherence

variable [X509Library] (hsm : ℕ → Option PublicKey)

/-- A response that this request would get from the cache has the status of a fresh one. -/
def CacheCoherent (st : Store) (request : OcspRequest) (now : Time) : Prop :=
  ∀ ca, OcspRoutes.findCaByIssuerHash st request = some ca → ca.ocspEnabled = true →
    ∀ der, OCSPService.getCachedResponse st ca.id (hexText request.serial) now = some der →
      der.certStatus = (OCSPService.generateResponse hsm st ca request.serial request.nonce
        now).1.1.certStatus

def EchoesNonce (st : Store) (request : OcspRequest) (now : Time) : Prop :=
  ∀ nonce, request.nonce = some nonce →
    (OcspRoutes.processOcspRequest hsm st (some request) now).1.der.nonce = some nonce

def Answered (st : Store) : OcspEvent → Prop
  | .request (some request) now => CacheCoherent hsm st request now ∧ EchoesNonce hsm st request now
  | _ => True

def WithoutNonce : OcspEvent → Prop
  | .request (some request) _ => request.nonce = none
  | _ => True

variable {hsm} {st : Store}

theorem ocspResponses_commitRules (cache : Table OcspResponse) :
    CommitRules (fun _ _ => True) fun st => st.ocspResponses = cache where
  countSerial _ h := h
  insert h _ hadd := by
    obtain ⟨_, rfl⟩ := CertificateService.addCertificate_eq_ok.mp hadd
    exact h
  sign h _ _ _ _ _ _ _ := h
  revoke _ h _ _ _ := h
  unhold h _ _ _ _ := h
  renew _ h _ _ _ := h
  delete h _ := h
  list h hcrl := by
    obtain ⟨_, _, _, _, _, _, rfl⟩ := CRLService.generateCrl_eq_ok hcrl
    exact h

omit [X509Library] in
theorem getCachedResponse_of_empty (h : st.ocspResponses = ∅) (caId : ℕ) (certSerial : String)
    (now : Time) : OCSPService.getCachedResponse st caId certSerial now = none := by
  unfold OCSPService.getCachedResponse
  rw [h]
  rfl

theorem processOcspRequest_of_empty (hsm : ℕ → Option PublicKey) (h : st.ocspResponses = ∅) (parsed : Option OcspRequest)
    (now : Time) :
    (∃ failure, (OcspRoutes.processOcspRequest hsm st parsed now).1.der = .unsuccessful failure) ∧
      (OcspRoutes.processOcspRequest hsm st parsed now).2 = st := by
  unfold OcspRoutes.processOcspRequest
  split
  next => exact ⟨⟨_, rfl⟩, rfl⟩
  next request =>
    split
    next => exact ⟨⟨_, rfl⟩, rfl⟩
    next ca hca =>
      split_ifs
      · exact ⟨⟨_, rfl⟩, rfl⟩
      · simp only [getCachedResponse_of_empty h, generateResponse_eq]
        refine ⟨⟨.internalError, ?_⟩, trivial⟩
        unfold OcspRoutes.cacheHeaders
        split_ifs <;> rfl

theorem ocspStep_empty (h : st.ocspResponses = ∅) (e : OcspEvent) :
    (ocspStep hsm st e).ocspResponses = ∅ := by
  cases e with
  | operation op => exact (ocspResponses_commitRules ∅).step op h (admits_true st op)
  | request parsed now =>
    obtain ⟨_, hst⟩ := processOcspRequest_of_empty hsm h parsed now
    exact (congrArg Store.ocspResponses hst).trans h
  | cleanup now =>
    simp only [ocspStep, OCSPService.cleanupExpiredResponses, h]
    rfl

theorem answered_iff (h : st.ocspResponses = ∅) (e : OcspEvent) :
    Answered hsm st e ↔ WithoutNonce e := by
  unfold Answered WithoutNonce
  split
  next request now =>
    constructor
    · rintro ⟨_, hecho⟩
      by_contra hnonce
      obtain ⟨nonce, hnonce⟩ := Option.ne_none_iff_exists'.mp hnonce
      obtain ⟨⟨failure, hder⟩, _⟩ := processOcspRequest_of_empty hsm h (some request) now
      have hnone := hecho nonce hnonce
      rw [hder] at hnone
      cases hnone
    · intro hnonce
      refine ⟨fun ca _ _ der hder => ?_, fun nonce hsome => ?_⟩
      · rw [getCachedResponse_of_empty h] at hder
        cases hder
      · rw [hnonce] at hsome
        cases hsome
  next => rfl

/-- A run that starts with an empty cache is answered as demanded throughout exactly if none
of its requests carries a nonce. -/
theorem answered_run_iff {events : List OcspEvent} (h : st.ocspResponses = ∅) :
    Meets (ocspStep hsm) (Answered hsm) st events ↔ ∀ e ∈ events, WithoutNonce e := by
  induction events generalizing st with
  | nil => simp
  | cons e es ih =>
    rw [meets_cons, answered_iff h, ih (ocspStep_empty h e), List.forall_mem_cons]

end Coherence

def plainEvents : List OcspEvent :=
  [.operation (.apiCreate { caId := 1, descr := "www", subject := sampleName "www", names := [] }
      (sampleDraw 255 "www" 100)),
   .operation (.apiRevoke 1 "keyCompromise" "admin" 200),
   .request (some ⟨"Root", "", .sha256, 255, none⟩) 300]

theorem answered_run_plain :
    let _ := sampleLibrary
    Meets (ocspStep fun _ => none) (Answered fun _ => none) sampleStore plainEvents ↔
      ∀ e ∈ plainEvents, WithoutNonce e := by
  let _ := sampleLibrary
  exact answered_run_iff rfl

/-- A request for the sample authority with a nonce is answered without it. -/
theorem nonce_not_echoed :
    let _ := sampleLibrary
    let request : OcspRequest := ⟨"Root", "", .sha256, 255, some "n"⟩
    X509Library.nameDigest .sha256 sampleCaCert.subject = request.issuerNameHash ∧
      ¬EchoesNonce (fun _ => none) sampleStore request 300 := by
  intro _ request
  refine ⟨by decide, fun h => ?_⟩
  cases h "n" rfl

end CaManager
