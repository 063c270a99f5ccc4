import CaManager.Store.Exports

/-!
# SCEP enrolment

The service that a request for the SCEP endpoint starts: it looks up the configured authority and
loads its key as it is stored. An enrolment message is opened with that key; its transaction is
answered from the request that is already there, or a new request is stored, and signed at once
where the configuration says so. Messages are modelled by what is in them.
-/

namespace CaManager

open Library

inductive ScepStatus
  | pending
  | approved
  | rejected
  deriving Repr, DecidableEq

structure ScepRequest where
  id : ℕ := 0
  transactionId : String
  csr : Csr
  status : ScepStatus := .pending
  approvedBy : Option String := none
  approvedAt : Option Time := none
  rejectionReason : Option String := none
  certRefid : Option String := none
  subject : Option String := none
  clientIp : Option String := none
  deriving Repr, DecidableEq

instance : Keyed ScepRequest :=
  ⟨ScepRequest.id, fun k r => { r with id := k }, fun _ _ => rfl, fun _ => rfl⟩

/-- The stored certificates, the enrolment requests and the settings. -/
structure ScepState where
  store : Store
  requests : Table ScepRequest
  config : List (String × Option String)
  deriving DecidableEq

/-- A request with the challenge that may stand among its attributes. -/
structure ScepCsr where
  csr : Csr
  challenge : Option String
  deriving Repr, DecidableEq

/-- What a message encapsulates: an envelope for the holder of a key, or something else that is
taken for the request itself. Reading the request may fail. -/
inductive ScepContent
  | enveloped (recipient : PublicKey) (request : Option ScepCsr)
  | bare (request : Option ScepCsr)
  deriving Repr, DecidableEq

/-- A PKCS#7 message and the signed attributes that are read from it. -/
structure ScepMessage where
  isSignedData : Bool
  content : ScepContent
  transactionId : Option String
  senderNonce : Option String
  challengePassword : Option String
  deriving Repr, DecidableEq

/-- A signed answer. A success carries the certificate and the authority's own, enveloped for the
key of the request. -/
structure CertRep where
  pkiStatus : ℕ
  failInfo : Option ℕ
  transactionId : Option String
  recipientNonce : Option String
  certificates : List X509
  recipient : Option PublicKey
  signedBy : PublicKey
  deriving Repr, DecidableEq

/-- What an enrolment comes to, before it is signed. -/
inductive ScepOutcome
  | success (x : X509) (csr : Csr)
  | pending
  | failure (failInfo : ℕ)
  deriving Repr, DecidableEq

namespace SCEPService

def statusSuccess : ℕ := 0

def statusFailure : ℕ := 2

def statusPending : ℕ := 3

def failBadMessageCheck : ℕ := 1

def failBadRequest : ℕ := 2

end SCEPService

/-- A started service: the authority with its certificate and key at hand. -/
structure SCEPService where
  ca : CA
  caCert : X509
  caKey : PublicKey
  challengePassword : Option String
  autoApprove : Bool
  deriving Repr, DecidableEq

def PublicKey.isRsa (key : PublicKey) : Bool :=
  match key.kind with
  | .rsa _ => true
  | _ => false

namespace SCEPService

/-- `SCEPService.__init__` -/
def start (st : Store) (caRefid : String) (challengePassword : Option String)
    (autoApprove : Bool) : Except PyError SCEPService := do
  let ca ← orThrow (st.cas.first fun c => c.refid = caRefid) (.valueError s!"CA not found: {caRefid}")
  let caCert ← ca.certificate
  let caKey ← ca.privateKey
  return { ca, caCert, caKey, challengePassword, autoApprove }

def openContent (svc : SCEPService) : ScepContent → Option ScepCsr
  | .enveloped recipient request => request.filter fun _ => svc.caKey.isRsa && recipient = svc.caKey
  | .bare request => request

/-- The challenge that is compared: from the message, or else from the request. -/
def challengeOf (message : ScepMessage) (request : ScepCsr) : Option String :=
  (CertificateService.nonEmpty message.challengePassword).or request.challenge

def challengePasses (svc : SCEPService) (challenge : Option String) : Bool :=
  match CertificateService.nonEmpty svc.challengePassword with
  | none => true
  | some expected => CertificateService.nonEmpty challenge = some expected

def requestedExtensions (requested : List Extension) : List Extension :=
  requested.filterMap fun e =>
    if e.oid = "2.5.29.17" then some ⟨e.value, false⟩
    else if e.oid = "2.5.29.15" then some ⟨e.value, true⟩
    else if e.oid = "2.5.29.37" then some ⟨e.value, false⟩
    else none

section Issuing

variable [X509Library]

def enrolledCommonName (subject : Name) (sanDns : List String) : Option String :=
  let cn := CertificateService.commonNameInText (X509Library.rfc4514String subject)
  (CertificateService.nonEmpty cn).or (sanDns.head?.or cn)

def enrolledRow (svc : SCEPService) (x : X509) (refid : String) : Certificate :=
  let names := alternativeNames x.extensions
  let sanDns := names.filterMap GeneralName.dnsName?
  { refid, caref := some svc.ca.refid, descr := "SCEP: " ++ X509Library.rfc4514String x.subject
    crt := some (.base64 ⟨x, []⟩), certType := some "server_cert"
    subject := some (X509Library.rfc4514String x.subject)
    subjectCn := enrolledCommonName x.subject sanDns
    issuer := some (X509Library.rfc4514String x.issuer)
    serialNumber := some (decimalText x.serial)
    validFrom := some x.notBefore, validTo := some x.notAfter
    sanDns := CertificateService.storedNames sanDns
    sanIp := CertificateService.storedNames (names.filterMap GeneralName.ipAddress?)
    sanEmail := CertificateService.storedNames (names.filterMap GeneralName.rfc822Name?)
    sanUri := CertificateService.storedNames (names.filterMap GeneralName.uri?)
    source := some "scep", createdBy := some "scep" }

/-- `_auto_approve_request` -/
def autoApproveRequest (svc : SCEPService) (st : Store) (csr : Csr) (d : Draw) :
    Except PyError (X509 × Store) := do
  let requested ← csr.extensions
  let builder : CertificateBuilder :=
    { subject := csr.subject, issuer := svc.caCert.subject, publicKey := csr.publicKey
      serial := d.serial.value, notBefore := d.now, notAfter := d.now + days 365
      extensions := requestedExtensions requested ++
        [⟨.basicConstraints false none, true⟩, ⟨.subjectKeyIdentifier csr.publicKey, false⟩,
         ⟨.authorityKeyIdentifier svc.caCert.publicKey, false⟩] }
  let x ← builder.sign svc.caKey
  let st ← st.addCertificate (enrolledRow svc x d.refid)
  return (x, st)

/-- The answer to a transaction that has a request. Where the certificate of an approved request
is gone, a second row with its identifier is tried and refused. -/
def existingOutcome (s : ScepState) (r : ScepRequest) : ScepOutcome :=
  match r.status with
  | .rejected => .failure failBadRequest
  | .pending => .pending
  | .approved =>
    match CertificateService.nonEmpty r.certRefid with
    | none => .pending
    | some refid =>
      match s.store.certificates.first fun c => c.refid = refid with
      | none => .failure failBadRequest
      | some c =>
        match c.x509 with
        | .ok x => .success x r.csr
        | .error _ => .failure failBadRequest

def newOutcome (svc : SCEPService) (s : ScepState) (transactionId : String) (csr : Csr)
    (clientIp : String) (d : Draw) : ScepOutcome × ScepState :=
  let row : ScepRequest :=
    { transactionId, csr, subject := some (X509Library.rfc4514String csr.subject)
      clientIp := some clientIp }
  if svc.autoApprove then
    match autoApproveRequest svc s.store csr d with
    | .ok (x, store) =>
      let row : ScepRequest :=
        { row with
          status := .approved, certRefid := some d.refid, approvedBy := some "auto"
          approvedAt := some d.now }
      (.success x csr, { s with store, requests := s.requests.insert row })
    | .error _ => (.failure failBadRequest, s)
  else (.pending, { s with requests := s.requests.insert row })

/-- `process_pkcs_req` up to its answer. Whatever is raised is a bad request. -/
def outcome (svc : SCEPService) (s : ScepState) (message : ScepMessage) (clientIp : String)
    (d : Draw) : ScepOutcome × ScepState :=
  if message.isSignedData = false then (.failure failBadRequest, s)
  else
    match openContent svc message.content with
    | none => (.failure failBadRequest, s)
    | some request =>
      match CertificateService.nonEmpty message.transactionId with
      | none => (.failure failBadRequest, s)
      | some transactionId =>
        if challengePasses svc (challengeOf message request) = false then
          (.failure failBadMessageCheck, s)
        else
          match s.requests.first fun r => r.transactionId = transactionId with
          | some r => (existingOutcome s r, s)
          | none => newOutcome svc s transactionId request.csr clientIp d

end Issuing

/-- `_create_cert_rep`; only an RSA key can sign it. -/
def createCertRep (svc : SCEPService) (rep : CertRep) : Except PyError CertRep :=
  if svc.caKey.isRsa then .ok rep
  else .error (.valueError "sign() takes no padding")

def errorResponse (svc : SCEPService) (failInfo : ℕ) : Except PyError CertRep :=
  createCertRep svc
    { pkiStatus := statusFailure, failInfo := some failInfo, transactionId := none
      recipientNonce := none, certificates := [], recipient := none, signedBy := svc.caKey }

/-- The answer to an outcome. A certificate cannot be enveloped for a key that is not RSA; that
is answered as a bad request, although the certificate is stored. -/
def respond (svc : SCEPService) (message : ScepMessage) : ScepOutcome → Except PyError CertRep
  | .failure failInfo => errorResponse svc failInfo
  | .pending =>
    createCertRep svc
      { pkiStatus := statusPending, failInfo := none, transactionId := message.transactionId
        recipientNonce := message.senderNonce, certificates := [], recipient := none
        signedBy := svc.caKey }
  | .success x csr =>
    if csr.publicKey.isRsa then
      createCertRep svc
        { pkiStatus := statusSuccess, failInfo := none, transactionId := message.transactionId
          recipientNonce := message.senderNonce, certificates := [x, svc.caCert]
          recipient := some csr.publicKey, signedBy := svc.caKey }
    else errorResponse svc failBadRequest

/-- `process_pkcs_req`; bytes that are no message are a bad request. -/
def processPkcsReq [X509Library] (svc : SCEPService) (s : ScepState) (bytes : Option ScepMessage)
    (clientIp : String) (d : Draw) : Except PyError CertRep × ScepState :=
  match bytes with
  | none => (errorResponse svc failBadRequest, s)
  | some message =>
    let (outcome, s) := outcome svc s message clientIp d
    (respond svc message outcome, s)

end SCEPService

namespace ScepRoutes

/-- `get_config` -/
def getConfig (s : ScepState) (key : String) (default : Option String) : Option String :=
  (s.config.lookup key).getD default

def configuredCa (st : Store) (caId : String) : Option CA :=
  let byNumber : Option CA := (readInt 10 caId.toList).bind fun n =>
    if 0 ≤ n then st.cas.get? n.toNat else none
  byNumber.or (st.cas.first fun c => c.refid = caId)

/-- `get_scep_service`: a service, or why there is none. -/
def getScepService (s : ScepState) : Except String SCEPService := do
  ensure (getConfig s "scep_enabled" (some "true") = some "true") "SCEP is disabled"
  let caId ← orThrow (CertificateService.nonEmpty (getConfig s "scep_ca_id" none))
    "No CA configured for SCEP"
  let ca ← orThrow (configuredCa s.store caId) "Configured CA not found"
  ensure (ca.prv.isSome = true) "CA does not have a private key"
  (SCEPService.start s.store ca.refid (getConfig s s!"scep_challenge_{ca.id}" none)
    (getConfig s "scep_auto_approve" (some "false") = some "true")).mapError PyError.text

/-- The message of a `PKIOperation`: in the body, or in a parameter that may be missing or no
base64. -/
inductive PkiMessage
  | missing
  | invalidBase64
  | empty
  | bytes (message : Option ScepMessage)
  deriving Repr, DecidableEq

inductive Operation
  | getCaCaps
  | getCaCert
  | pkiOperation (message : PkiMessage)
  | unknown (name : String)
  deriving Repr, DecidableEq

inductive Reply
  | text (status : ℕ) (body : String)
  | caCertificate (x : X509)
  | caChain (xs : List X509)
  | certRep (rep : CertRep)
  deriving Repr, DecidableEq

def capabilities : List String :=
  ["POSTPKIOperation", "SHA-1", "SHA-256", "SHA-512", "DES3", "AES", "SCEPStandard", "Renewal"]

/-- `get_ca_cert_chain`, for an authority that has a parent. -/
def caChain (st : Store) (svc : SCEPService) : Option (Except PyError (List X509)) :=
  (chainOf st (fun ca => ca.certificate) svc.ca.caref).map ((svc.caCert :: ·) <$> ·)

def handleGetCaCert (s : ScepState) : Option Reply :=
  match getScepService s with
  | .error e => some (.text 500 e)
  | .ok svc =>
    if CertificateService.nonEmpty svc.ca.caref = none then some (.caCertificate svc.caCert)
    else
      (caChain s.store svc).map fun result =>
        match result with
        | .ok xs => .caChain xs
        | .error _ => .text 500 "SCEP server error"

def handlePkiOperation [X509Library] (s : ScepState) (message : PkiMessage) (clientIp : String)
    (d : Draw) : Reply × ScepState :=
  match getScepService s with
  | .error e => (.text 500 e, s)
  | .ok svc =>
    match message with
    | .missing => (.text 400 "Missing 'message' parameter", s)
    | .invalidBase64 => (.text 400 "Invalid base64 in 'message' parameter", s)
    | .empty => (.text 400 "Empty PKCS#7 message", s)
    | .bytes bytes =>
      match svc.processPkcsReq s bytes clientIp d with
      | (.ok rep, s) => (.certRep rep, s)
      | (.error _, s) => (.text 500 "SCEP processing error", s)

/-- `scep_endpoint`; a chain that does not end is never answered. -/
def endpoint [X509Library] (s : ScepState) (operation : Operation) (clientIp : String)
    (d : Draw) : Option Reply × ScepState :=
  match operation with
  | .getCaCaps => (some (.text 200 ("\n".intercalate capabilities)), s)
  | .getCaCert => (handleGetCaCert s, s)
  | .pkiOperation message =>
    let (reply, s) := handlePkiOperation s message clientIp d
    (some reply, s)
  | .unknown name => (some (.text 400 s!"Unknown operation: {name}"), s)

end ScepRoutes

end CaManager
