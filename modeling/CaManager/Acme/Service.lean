import CaManager.Acme.Tables
import CaManager.Library.Texts
import CaManager.Store.Operations

/-!
# The automation service

Nonces, accounts, orders, challenge validation and finalization. Each function returns the
tables as its last commit leaves them. A random text that is already taken makes the
insertion fail, and with it everything since the last commit. What the network answers and
what is drawn at random are arguments. Answering a request also draws the nonce for the
next one; that is `generateNonce`, an operation of its own here.
-/

namespace CaManager

open Library

class Sha256 where
  digest : String → String

structure ChallengeDraw where
  challengeId : String
  token : String
  path : String
  deriving Repr, DecidableEq

structure AuthorizationDraw where
  authorizationId : String
  http : ChallengeDraw
  dns : ChallengeDraw
  deriving Repr, DecidableEq

/-- What is drawn for a certificate row and its signature, and whether its file can be written. -/
structure SignDraw where
  refid : String
  serial : RandomSerial
  now : Time
  certPathWritable : Bool
  deriving Repr, DecidableEq

/-- The tables as last committed, and as the open transaction sees them. -/
structure Session where
  committed : AcmeStore
  working : AcmeStore

/-- Why a finalization ends before it signs: it returns an error, or it raises. -/
inductive Stop
  | refused (message : String)
  | raised (e : PyError)
  deriving Repr, DecidableEq

inductive SignOutcome (σ : Type)
  | raised (e : PyError)
  | failed (message : String) (s : σ)
  | signed (certId : ℕ) (s : σ)

/-- `repr` of a list of texts. -/
def pyList (texts : List String) : String :=
  "[" ++ ", ".intercalate (texts.map fun t => "'" ++ t ++ "'") ++ "]"

def OrderStatus.text : OrderStatus → String
  | pending => "pending"
  | ready => "ready"
  | processing => "processing"
  | valid => "valid"
  | invalid => "invalid"

namespace AcmeService

section Accounts

def generateNonce (st : AcmeStore) (token : String) (now : Time) : Option AcmeStore := do
  let nonces ← st.nonces.insert? { token, expiresAt := now + 3600, used := false }
  return { st with nonces }

def validateNonce (st : AcmeStore) (token : String) (now : Time) : Bool × AcmeStore :=
  match st.nonces.find? token with
  | some n =>
    if n.used = false ∧ now < n.expiresAt then
      let spend (n : AcmeNonce) : AcmeNonce := { n with used := true }
      (true, { st with nonces := st.nonces.modify token spend (fun _ => rfl) })
    else (false, st)
  | none => (false, st)

def cleanupExpiredNonces (st : AcmeStore) (now : Time) : ℕ × AcmeStore :=
  ((st.nonces.select fun n => n.expiresAt < now).length,
    { st with nonces := st.nonces.deleteWhere fun n => n.expiresAt < now })

def computeJwkThumbprint [Sha256] : Jwk → Option String
  | .rsa e n _ =>
    some (Sha256.digest ("\x7b\"e\":\"" ++ e ++ "\",\"kty\":\"RSA\",\"n\":\"" ++ n ++ "\"\x7d"))
  | .ec crv x y _ =>
    some (Sha256.digest ("\x7b\"crv\":\"" ++ crv ++ "\",\"kty\":\"EC\",\"x\":\"" ++ x ++
      "\",\"y\":\"" ++ y ++ "\"\x7d"))
  | _ => none

def computeKeyAuthorization (token jwkThumbprint : String) : String :=
  token ++ "." ++ jwkThumbprint

def createAccount [Sha256] (st : AcmeStore) (jwk : Jwk) (contact : List String)
    (termsOfServiceAgreed : Bool) (accountId : String) : Except PyError (AcmeAccount × AcmeStore) := do
  let thumbprint ← orThrow (computeJwkThumbprint jwk) (.valueError "Unsupported key type")
  match st.accounts.first fun a => a.jwkThumbprint = thumbprint with
  | some existing => return (existing, st)
  | none =>
    let account : AcmeAccount :=
      { accountId, jwk, jwkThumbprint := thumbprint
        contact := if contact.isEmpty then none else some contact
        status := .valid, termsOfServiceAgreed }
    let accounts ← orThrow (st.accounts.insert? account) (.integrityError "acme_accounts.account_id")
    return (account, { st with accounts })

def getAccountByKid (st : AcmeStore) (accountId : String) : Option AcmeAccount :=
  st.accounts.find? accountId

end Accounts

section Orders

def insertOrder (st : AcmeStore) (orderId accountId : String) (identifiers : List Identifier)
    (notBefore notAfter : Option Time) (now : Time) : Option AcmeStore := do
  let orders ← st.orders.insert?
    { orderId, accountId, status := .pending, identifiers, notBefore, notAfter, error := none
      csr := none, certificateId := none, certificateUrl := none, expires := now + days 7 }
  return { st with orders }

def latest : List AcmeAuthorization → Option AcmeAuthorization
  | [] => none
  | a :: rest =>
    match latest rest with
    | some b => if a.expires < b.expires then some b else some a
    | none => some a

/-- The authorization whose result a new one for the same account and identifier takes over. -/
def reusableAuthorization (st : AcmeStore) (accountId : String) (identifier : Identifier)
    (now : Time) : Option AcmeAuthorization :=
  latest <| st.authorizations.select fun a =>
    (st.orderOf a).map AcmeOrder.accountId = some accountId && a.identifier = identifier &&
      a.status = .valid && now < a.expires

def newChallenge (st : AcmeStore) (authorizationId : String) (type : ChallengeType)
    (reused : Bool) (d : ChallengeDraw) (now : Time) : AcmeChallenge :=
  { challengeId := d.challengeId, authorizationId, type
    status := if reused then .valid else .pending, token := d.token
    url := some (st.baseUrl ++ "/acme/challenge/" ++ d.path)
    validated := if reused then some now else none, error := none }

def createChallenges (st : AcmeStore) (authorizationId : String) (reused : Bool)
    (d : AuthorizationDraw) (now : Time) : Option AcmeStore := do
  let challenges ← st.challenges.insert? (newChallenge st authorizationId .http01 reused d.http now)
  let challenges ← challenges.insert? (newChallenge st authorizationId .dns01 reused d.dns now)
  return { st with challenges }

def newAuthorization (st : AcmeStore) (orderId : String) (identifier : Identifier)
    (accountId : String) (d : AuthorizationDraw) (now : Time) : AcmeAuthorization :=
  match reusableAuthorization st accountId identifier now with
  | some validAuth =>
    { authorizationId := d.authorizationId, orderId, identifier
      status := .valid, expires := validAuth.expires }
  | none =>
    { authorizationId := d.authorizationId, orderId, identifier
      status := .pending, expires := now + days 7 }

def createAuthorization (st : AcmeStore) (orderId : String) (identifier : Identifier)
    (accountId : String) (d : AuthorizationDraw) (now : Time) : Option AcmeStore := do
  let auth := newAuthorization st orderId identifier accountId d now
  let authorizations ← st.authorizations.insert? auth
  createChallenges { st with authorizations } auth.authorizationId
    (auth.status = .valid) d now

/-- One authorization after the other. A pending one is committed when it is made, one that
takes over a result is not; a failure leaves what is committed. -/
def createAuthorizations (orderId accountId : String) (draw : ℕ → AuthorizationDraw) (now : Time) :
    ℕ → List Identifier → Session → Except AcmeStore Session
  | _, [], s => .ok s
  | i, identifier :: rest, s =>
    match createAuthorization s.working orderId identifier accountId (draw i) now with
    | none => .error s.committed
    | some working =>
      let reused := (reusableAuthorization s.working accountId identifier now).isSome
      createAuthorizations orderId accountId draw now (i + 1) rest
        ⟨if reused then s.committed else working, working⟩

/-- Mark the order ready if all its authorizations are valid. Its present status is not asked. -/
def readyIfAllValid (st : AcmeStore) (orderId : String) : AcmeStore :=
  if (st.authorizationsOf orderId).all (·.status = .valid) then
    st.setOrder orderId fun o => { o with status := .ready }
  else st

def finishOrder (st : AcmeStore) (orderId : String) : AcmeStore :=
  if st.authorizationsOf orderId = [] then st else readyIfAllValid st orderId

/-- Create an order; `false` when a drawn text was taken. -/
def createOrder (st : AcmeStore) (orderId accountId : String) (identifiers : List Identifier)
    (notBefore notAfter : Option Time) (draw : ℕ → AuthorizationDraw) (now : Time) :
    Bool × AcmeStore :=
  match insertOrder st orderId accountId identifiers notBefore notAfter now with
  | none => (false, st)
  | some working =>
    match createAuthorizations orderId accountId draw now 0 identifiers ⟨st, working⟩ with
    | .error committed => (false, committed)
    | .ok s => (true, finishOrder s.working orderId)

def getOrder (st : AcmeStore) (orderId : String) : Option AcmeOrder :=
  st.orders.find? orderId

end Orders

section Challenges

def validAuthorization (a : AcmeAuthorization) : AcmeAuthorization :=
  { a with status := .valid }

theorem authorizationId_valid (a : AcmeAuthorization) :
    (validAuthorization a).authorizationId = a.authorizationId := rfl

def validatedChallenge (now : Time) (c : AcmeChallenge) : AcmeChallenge :=
  { c with status := .valid, validated := some now }

theorem challengeId_validated (now : Time) (c : AcmeChallenge) :
    (validatedChallenge now c).challengeId = c.challengeId := rfl

def failedChallenge (problem : Problem) (c : AcmeChallenge) : AcmeChallenge :=
  { c with status := .invalid, error := some problem }

theorem challengeId_failed (problem : Problem) (c : AcmeChallenge) :
    (failedChallenge problem c).challengeId = c.challengeId := rfl

def withValid (st : AcmeStore) (auth : AcmeAuthorization) : AcmeStore :=
  st.setAuthorization auth.authorizationId validAuthorization authorizationId_valid

def withValidated (st : AcmeStore) (challenge : AcmeChallenge) (now : Time) : AcmeStore :=
  st.setChallenge challenge.challengeId (validatedChallenge now) (challengeId_validated now)

def withFailed (st : AcmeStore) (challenge : AcmeChallenge) (problem : Problem) : AcmeStore :=
  st.setChallenge challenge.challengeId (failedChallenge problem) (challengeId_failed problem)

/-- Make the authorization valid if one of its challenges is, and its order ready if that was
the last one missing. An order that does not resolve raises after the first of these. -/
def updateAuthorizationStatus (st : AcmeStore) (auth : AcmeAuthorization) :
    AcmeStore × Option PyError :=
  if (st.challenges.select fun c => c.authorizationId = auth.authorizationId).any
      (·.status = .valid) then
    let st := withValid st auth
    match st.orderOf auth with
    | some order => (readyIfAllValid st order.orderId, none)
    | none => (st, some (.attributeError "NoneType" "authorizations"))
  else (st, none)

/-- The common course of a validation: `check` compares what is found for a domain. -/
def validateChallenge (check : String → Except Problem Unit) (failureType : String)
    (st : AcmeStore) (challenge : AcmeChallenge) (now : Time) : Except PyError AcmeStore := do
  let auth ← orThrow (st.authorizationOf challenge) (.attributeError "NoneType" "identifier")
  match check (auth.identifier.value.getD "") with
  | .ok () =>
    match updateAuthorizationStatus (withValidated st challenge now) auth with
    | (st, none) => return st
    | (st, some e) => return withFailed st challenge ⟨failureType, e.text⟩
  | .error problem => return withFailed st challenge problem

def checkHttp01 (token jwkThumbprint : String) (response : Except String String) :
    String → Except Problem Unit := fun _ =>
  match response with
  | .ok text =>
    if strip text = computeKeyAuthorization token jwkThumbprint then .ok ()
    else .error ⟨"urn:ietf:params:acme:error:incorrectResponse", "Key authorization mismatch"⟩
  | .error detail => .error ⟨"urn:ietf:params:acme:error:connection", detail⟩

def checkDns01 [Sha256] (token jwkThumbprint : String) (answers : Except String (List String)) :
    String → Except Problem Unit := fun domain =>
  let txtValue := Sha256.digest (computeKeyAuthorization token jwkThumbprint)
  match answers with
  | .ok records =>
    if records.any (occursIn txtValue) then .ok ()
    else .error ⟨"urn:ietf:params:acme:error:incorrectResponse",
      "No matching TXT record found at _acme-challenge." ++ domain⟩
  | .error detail => .error ⟨"urn:ietf:params:acme:error:dns", detail⟩

def validateHttp01Challenge (st : AcmeStore) (challenge : AcmeChallenge) (jwkThumbprint : String)
    (response : Except String String) (now : Time) : Except PyError AcmeStore :=
  validateChallenge (checkHttp01 challenge.token jwkThumbprint response)
    "urn:ietf:params:acme:error:connection" st challenge now

def validateDns01Challenge [Sha256] (st : AcmeStore) (challenge : AcmeChallenge)
    (jwkThumbprint : String) (answers : Except String (List String)) (now : Time) :
    Except PyError AcmeStore :=
  validateChallenge (checkDns01 challenge.token jwkThumbprint answers)
    "urn:ietf:params:acme:error:dns" st challenge now

end Challenges

section Finalize

/-- The DNS names of the alternative names, read from the extension of that identifier. -/
def requestedDnsNames (csr : Csr) : List String :=
  match csr.extensions with
  | .ok es =>
    match extensionForOid es "2.5.29.17" with
    | some ⟨.subjectAlternativeName names, _⟩ => names.filterMap GeneralName.dnsName?
    | _ => []
  | .error _ => []

def extractDomainsFromCsr (csr : Csr) : List String :=
  (requestedDnsNames csr).foldl (fun domains d => if d ∈ domains then domains else domains ++ [d])
    (Name.commonNames csr.subject).head?.toList

def orderDomains (identifiers : List Identifier) : Except PyError (List String) :=
  (identifiers.filter fun i => i.type = some "dns").mapM fun i =>
    orThrow i.value (.keyError "value")

def checkFinalize (st : AcmeStore) (orderId : String) (csr : Option Csr) :
    Except Stop (AcmeOrder × Csr × List String) := do
  let order ← orThrow (getOrder st orderId) (.refused "Order not found")
  ensure (order.status = .ready)
    (.refused s!"Order status is {order.status.text}, must be 'ready'")
  let csr ← orThrow csr (.refused "Invalid CSR: Unable to load PEM file")
  let csrDomains := extractDomainsFromCsr csr
  let domains ← (orderDomains order.identifiers).mapError .raised
  ensure (csrDomains ⊆ domains ∧ domains ⊆ csrDomains)
    (.refused s!"CSR domains {pyList csrDomains} don't match order domains {pyList domains}")
  return (order, csr, domains)

def domainChain (domain : String) : List String :=
  let domain := lower (strip domain)
  let domain := match domain.toList with
    | '*' :: '.' :: rest => String.ofList rest
    | _ => domain
  ((splitText '.' domain).tails.filter (· ≠ [])).map (".".intercalate ·)

def findLocalDomainCa (st : AcmeStore) (domain : String) : Option ℕ :=
  (domainChain domain).findSome? (List.lookup · st.localDomains)

/-- The `issuing_ca_id` of `find_provider_for_domain`. -/
def findProviderCa (st : AcmeStore) (domain : String) : Option ℕ :=
  ((domainChain domain).findSome? (List.lookup · st.domains)).join

def refidOf (ca : Option CA) : Option String :=
  ca.bind fun ca => if ca.prv.isSome then some ca.refid else none

def resolveCaForDomains (st : AcmeStore) (domains : List String) : Option String :=
  let byId (id : ℕ) := refidOf (st.store.cas.get? id)
  ((domains.findSome? fun d => (findLocalDomainCa st d).bind byId).or
    (domains.findSome? fun d => (findProviderCa st d).bind byId)).or
    ((st.issuingCaId.filter (· ≠ "")).bind fun value =>
      refidOf ((st.store.cas.first fun ca => ca.refid = value).or
        ((readInt 10 value.toList).bind fun id =>
          if 0 ≤ id then st.store.cas.get? id.toNat else none)))

def acmeDescr (order : AcmeOrder) (csr : Csr) : String :=
  ((CertificateService.nonEmpty (Name.commonNames csr.subject).head?).or
    (CertificateService.nonEmpty (requestedDnsNames csr).head?)).getD
    s!"ACME Certificate - Order {order.orderId}"

def requestRow (order : AcmeOrder) (csr : Csr) (ca : CA) (refid : String) : Certificate :=
  { refid, descr := acmeDescr order csr, caref := some ca.refid
    csr := some (.base64 csr), certType := some "server_cert", source := some "acme"
    createdBy := some "acme" }

def signer (st : Store) (caRefid : Option String) : Option CA :=
  match caRefid with
  | some refid => st.cas.first fun ca => ca.refid = refid
  | none => st.cas.first fun ca => ca.prv.isSome

def signCertificateWithCa [X509Library] (st : Store) (order : AcmeOrder) (csr : Csr)
    (caRefid : Option String) (d : SignDraw) : SignOutcome Store :=
  match signer st caRefid with
  | none => .failed "No CA available for signing" st
  | some ca =>
    if ca.prv = none then .failed s!"CA {ca.refid} has no private key" st
    else
      match st.addCertificate (requestRow order csr ca d.refid) with
      | .error e => .raised e
      | .ok working =>
        match CertificateService.signCsr working st.certificates.nextKey ca.refid "server_cert" 90
          d.serial d.now with
        | .error e => .failed ("Certificate signing failed: " ++ e.text) st
        | .ok (_, signed) =>
          -- the certificate is committed before its file is written
          if d.certPathWritable then .signed st.certificates.nextKey signed
          else .failed "Certificate signing failed: certificate path is not writable" signed

def finalizeSign [X509Library] (st : AcmeStore) (order : AcmeOrder) (csr : Csr)
    (domains : List String) (d : SignDraw) : SignOutcome AcmeStore :=
  match signCertificateWithCa st.store order csr (resolveCaForDomains st domains) d with
  | .raised e => .raised e
  | .failed message store => .failed message { st with store }
  | .signed certId store => .signed certId { st with store }

def finalizeFail (st : AcmeStore) (orderId message : String) : AcmeStore :=
  st.setOrder orderId fun o =>
    { o with status := .invalid
             error := some ⟨"urn:ietf:params:acme:error:serverInternal", message⟩ }

/-- The last part of a finalization. The order's present status is not asked. -/
def finalizeCommit (st : AcmeStore) (orderId : String) (csr : Csr) (certId : ℕ) : AcmeStore :=
  st.setOrder orderId fun o =>
    { o with status := .valid, csr := some csr, certificateId := some certId
             certificateUrl := some (st.baseUrl ++ "/acme/cert/" ++ orderId) }

def finalizeOrder [X509Library] (st : AcmeStore) (orderId : String) (csr : Option Csr)
    (d : SignDraw) : Except PyError (Option String × AcmeStore) :=
  match checkFinalize st orderId csr with
  | .error (.refused message) => .ok (some message, st)
  | .error (.raised e) => .error e
  | .ok (order, csr, domains) =>
    match finalizeSign st order csr domains d with
    | .raised e => .error e
    | .failed message st => .ok (some message, finalizeFail st orderId message)
    | .signed certId st => .ok (none, finalizeCommit st orderId csr certId)

end Finalize

section Effects

variable {st : AcmeStore} {orderId : String}

theorem checkFinalize_eq_ok {csr : Option Csr} {order : AcmeOrder} {csr' : Csr}
    {domains : List String} :
    checkFinalize st orderId csr = .ok (order, csr', domains) ↔
      st.orders.find? orderId = some order ∧ order.status = .ready ∧ csr = some csr' ∧
        orderDomains order.identifiers = .ok domains ∧
        extractDomainsFromCsr csr' ⊆ domains ∧ domains ⊆ extractDomainsFromCsr csr' := by
  simp only [checkFinalize, getOrder, bind_eq_ok, orThrow_eq_ok, ensure_eq_ok, mapError_eq_ok,
    pure_eq_ok, Prod.mk.injEq]
  constructor
  · intro h
    obtain ⟨o, ho, _, hready, c, hc, ds, hds, _, hsub, hoo, hcc, hdd⟩ := h
    subst hoo hcc hdd
    exact ⟨ho, hready, hc, hds, hsub⟩
  · intro h
    obtain ⟨ho, hready, hc, hds, hsub⟩ := h
    exact ⟨order, ho, (), hready, csr', hc, domains, hds, (), hsub, rfl, rfl, rfl⟩

theorem insertOrder_eq_some {accountId : String} {identifiers : List Identifier}
    {notBefore notAfter : Option Time} {now : Time} {st' : AcmeStore} :
    insertOrder st orderId accountId identifiers notBefore notAfter now = some st' ↔
      ∃ orders, st.orders.insert?
        { orderId, accountId, status := .pending, identifiers, notBefore, notAfter, error := none
          csr := none, certificateId := none, certificateUrl := none, expires := now + days 7 } =
          some orders ∧ st' = { st with orders } := by
  constructor
  · intro h
    obtain ⟨orders, horders, h⟩ := Option.bind_eq_some_iff.mp h
    exact ⟨orders, horders, (Option.some.inj h).symm⟩
  · intro ⟨orders, horders, heq⟩
    exact Option.bind_eq_some_iff.mpr ⟨orders, horders, congrArg some heq.symm⟩

theorem createAuthorization_eq_some {identifier : Identifier} {accountId : String}
    {d : AuthorizationDraw} {now : Time} {st' : AcmeStore} :
    createAuthorization st orderId identifier accountId d now = some st' ↔
      let auth := newAuthorization st orderId identifier accountId d now
      ∃ authorizations challenges challenges', st.authorizations.insert? auth = some authorizations ∧
        st.challenges.insert? (newChallenge st auth.authorizationId .http01 (auth.status = .valid)
          d.http now) = some challenges ∧
        challenges.insert? (newChallenge st auth.authorizationId .dns01 (auth.status = .valid)
          d.dns now) = some challenges' ∧
        st' = { st with authorizations, challenges := challenges' } := by
  dsimp only
  constructor
  · intro h
    obtain ⟨authorizations, hauth, h⟩ := Option.bind_eq_some_iff.mp h
    obtain ⟨challenges, hhttp, h⟩ := Option.bind_eq_some_iff.mp h
    obtain ⟨challenges', hdns, h⟩ := Option.bind_eq_some_iff.mp h
    exact ⟨authorizations, challenges, challenges', hauth, hhttp, hdns, (Option.some.inj h).symm⟩
  · intro ⟨authorizations, challenges, challenges', hauth, hhttp, hdns, heq⟩
    refine Option.bind_eq_some_iff.mpr ⟨authorizations, hauth, ?_⟩
    refine Option.bind_eq_some_iff.mpr ⟨challenges, hhttp, ?_⟩
    exact Option.bind_eq_some_iff.mpr ⟨challenges', hdns, congrArg some heq.symm⟩

theorem mem_of_latest {rows : List AcmeAuthorization} {a : AcmeAuthorization}
    (h : latest rows = some a) : a ∈ rows := by
  induction rows generalizing a with
  | nil => cases h
  | cons b rest ih =>
    unfold latest at h
    cases hrest : latest rest with
    | none =>
      rw [hrest] at h
      cases h
      exact List.mem_cons_self
    | some c =>
      rw [hrest] at h
      dsimp only at h
      split_ifs at h <;> cases h
      · exact List.mem_cons_of_mem b (ih hrest)
      · exact List.mem_cons_self

theorem latest_eq_none_iff {rows : List AcmeAuthorization} : latest rows = none ↔ rows = [] := by
  cases rows with
  | nil => exact iff_of_true rfl rfl
  | cons b rest =>
    unfold latest
    refine iff_of_false (fun h => ?_) (List.cons_ne_nil b rest)
    split at h
    · split_ifs at h
    · cases h

/-- A valid, unexpired authorization of the account for the identifier. -/
structure Reusable (st : AcmeStore) (accountId : String) (identifier : Identifier) (now : Time)
    (a : AcmeAuthorization) : Prop where
  mem : a ∈ st.authorizations
  owner : (st.orderOf a).map AcmeOrder.accountId = some accountId
  identifier : a.identifier = identifier
  valid : a.status = .valid
  unexpired : now < a.expires

theorem reusable_iff_mem {accountId : String} {identifier : Identifier} {now : Time}
    {a : AcmeAuthorization} :
    Reusable st accountId identifier now a ↔ a ∈ st.authorizations.select fun a =>
      (st.orderOf a).map AcmeOrder.accountId = some accountId && a.identifier = identifier &&
        a.status = .valid && now < a.expires := by
  rw [Registry.mem_select]
  simp only [Bool.and_eq_true, decide_eq_true_eq]
  constructor
  · exact fun h => ⟨h.mem, ⟨⟨h.owner, h.identifier⟩, h.valid⟩, h.unexpired⟩
  · exact fun ⟨hmem, ⟨⟨howner, hidentifier⟩, hvalid⟩, hunexpired⟩ =>
      ⟨hmem, howner, hidentifier, hvalid, hunexpired⟩

theorem reusable_of_reusableAuthorization {accountId : String} {identifier : Identifier}
    {now : Time} {a : AcmeAuthorization}
    (h : reusableAuthorization st accountId identifier now = some a) :
    Reusable st accountId identifier now a :=
  reusable_iff_mem.mpr (mem_of_latest h)

theorem isSome_reusableAuthorization {accountId : String} {identifier : Identifier} {now : Time} :
    (reusableAuthorization st accountId identifier now).isSome ↔
      ∃ a, Reusable st accountId identifier now a := by
  rw [Option.isSome_iff_ne_none, reusableAuthorization, Ne, latest_eq_none_iff,
    ← List.isEmpty_iff, Bool.not_eq_true, List.isEmpty_eq_false_iff_exists_mem]
  exact exists_congr fun _ => reusable_iff_mem.symm

theorem newAuthorization_orderId {identifier : Identifier} {accountId : String}
    {d : AuthorizationDraw} {now : Time} :
    (newAuthorization st orderId identifier accountId d now).orderId = orderId := by
  unfold newAuthorization
  split <;> rfl

theorem readyIfAllValid_cases (st : AcmeStore) (orderId : String) :
    readyIfAllValid st orderId = st ∨
      readyIfAllValid st orderId = st.setOrder orderId fun o => { o with status := .ready } := by
  unfold readyIfAllValid
  split_ifs
  · exact .inr rfl
  · exact .inl rfl

theorem finishOrder_cases (st : AcmeStore) (orderId : String) :
    finishOrder st orderId = st ∨
      finishOrder st orderId = st.setOrder orderId fun o => { o with status := .ready } := by
  unfold finishOrder
  split_ifs
  · exact .inl rfl
  · exact readyIfAllValid_cases st orderId

theorem readyIfAllValid_kept (st : AcmeStore) (orderId : String) :
    (readyIfAllValid st orderId).store = st.store ∧
      (readyIfAllValid st orderId).accounts = st.accounts ∧
      (readyIfAllValid st orderId).authorizations = st.authorizations ∧
      (readyIfAllValid st orderId).challenges = st.challenges := by
  rcases readyIfAllValid_cases st orderId with h | h <;> rw [h] <;> exact ⟨rfl, rfl, rfl, rfl⟩

section Validation

variable {check : String → Except Problem Unit} {failureType : String} {now : Time}
  {challenge : AcmeChallenge} {auth : AcmeAuthorization}

theorem find?_withValidated (h : st.challenges.find? challenge.challengeId = some challenge)
    (id : String) : (withValidated st challenge now).challenges.find? id =
      if id = challenge.challengeId then some (validatedChallenge now challenge)
      else st.challenges.find? id :=
  Registry.find?_modify_eq (validatedChallenge now) (challengeId_validated now) h id

theorem find?_withFailed {problem : Problem} {c : AcmeChallenge}
    (h : st.challenges.find? challenge.challengeId = some c) (id : String) :
    (withFailed st challenge problem).challenges.find? id =
      if id = challenge.challengeId then some (failedChallenge problem c)
      else st.challenges.find? id :=
  Registry.find?_modify_eq (failedChallenge problem) (challengeId_failed problem) h id

theorem find?_withValid (h : st.authorizations.find? auth.authorizationId = some auth)
    (id : String) : (withValid st auth).authorizations.find? id =
      if id = auth.authorizationId then some (validAuthorization auth)
      else st.authorizations.find? id :=
  Registry.find?_modify_eq validAuthorization authorizationId_valid h id

theorem validateChallenge_of_error {problem : Problem}
    (hauth : st.authorizationOf challenge = some auth)
    (hcheck : check (auth.identifier.value.getD "") = .error problem) :
    validateChallenge check failureType st challenge now = .ok (withFailed st challenge problem) := by
  simp only [validateChallenge, hauth, orThrow_some, ok_bind, hcheck]
  rfl

theorem updateAuthorizationStatus_validated
    (hfind : st.challenges.find? challenge.challengeId = some challenge)
    (hauth : st.authorizationOf challenge = some auth) :
    updateAuthorizationStatus (withValidated st challenge now) auth =
      match st.orderOf auth with
      | some order => (readyIfAllValid (withValid (withValidated st challenge now) auth)
          order.orderId, none)
      | none => (withValid (withValidated st challenge now) auth,
          some (.attributeError "NoneType" "authorizations")) := by
  have hname : auth.authorizationId = challenge.authorizationId := Registry.name_of_find? hauth
  have hmem : validatedChallenge now challenge ∈ (withValidated st challenge now).challenges :=
    Registry.mem_of_find? ((find?_withValidated hfind challenge.challengeId).trans (if_pos rfl))
  have hany : ((withValidated st challenge now).challenges.select fun c =>
      c.authorizationId = auth.authorizationId).any (·.status = .valid) := by
    refine List.any_eq_true.mpr ⟨validatedChallenge now challenge, ?_, by simp [validatedChallenge]⟩
    exact Registry.mem_select.mpr ⟨hmem, by simp [validatedChallenge, hname]⟩
  unfold updateAuthorizationStatus
  rw [if_pos hany]
  rfl

theorem validateChallenge_of_ok (hfind : st.challenges.find? challenge.challengeId = some challenge)
    (hauth : st.authorizationOf challenge = some auth)
    (hcheck : check (auth.identifier.value.getD "") = .ok ()) :
    validateChallenge check failureType st challenge now =
      match st.orderOf auth with
      | some order => .ok (readyIfAllValid (withValid (withValidated st challenge now) auth)
          order.orderId)
      | none => .ok (withFailed (withValid (withValidated st challenge now) auth) challenge
          ⟨failureType, (PyError.attributeError "NoneType" "authorizations").text⟩) := by
  simp only [validateChallenge, hauth, orThrow_some, ok_bind, hcheck]
  rw [updateAuthorizationStatus_validated hfind hauth]
  cases st.orderOf auth with
  | some order => rfl
  | none => rfl

def LastMissing (st : AcmeStore) (auth : AcmeAuthorization) : Prop :=
  ∀ a ∈ st.authorizationsOf auth.orderId, a.authorizationId = auth.authorizationId ∨
    a.status = .valid

instance (st : AcmeStore) (auth : AcmeAuthorization) : Decidable (LastMissing st auth) :=
  inferInstanceAs (Decidable (∀ a ∈ st.authorizationsOf auth.orderId, _))

theorem all_valid_iff :
    ((withValid st auth).authorizationsOf auth.orderId).all (·.status = .valid) = true ↔
      LastMissing st auth := by
  rw [List.all_eq_true]
  constructor
  · intro h a ha
    obtain ⟨ha, horder⟩ := Registry.mem_select.mp ha
    by_cases hid : a.authorizationId = auth.authorizationId
    · exact .inl hid
    · have hmem : a ∈ (withValid st auth).authorizations :=
        (Registry.mem_modify validAuthorization authorizationId_valid).mpr ⟨a, ha, (if_neg hid).symm⟩
      exact .inr (by simpa using h a (Registry.mem_select.mpr ⟨hmem, horder⟩))
  · intro h a' ha'
    obtain ⟨ha', horder⟩ := Registry.mem_select.mp ha'
    obtain ⟨a, ha, rfl⟩ := (Registry.mem_modify validAuthorization authorizationId_valid).mp ha'
    split_ifs at horder ⊢ with hid
    · simp [validAuthorization]
    · have hlisted := h a (Registry.mem_select.mpr ⟨ha, horder⟩)
      simpa using hlisted.resolve_left hid

theorem find?_readyIfAllValid (hname : auth.orderId = orderId) (id : String) :
    (readyIfAllValid (withValid st auth) orderId).orders.find? id =
      if id = auth.orderId then (st.orders.find? id).map fun o =>
        if LastMissing st auth then { o with status := .ready } else o
      else st.orders.find? id := by
  subst hname
  unfold readyIfAllValid
  by_cases hlast : LastMissing st auth
  · rw [if_pos (all_valid_iff.mpr hlast)]
    simp only [if_pos hlast]
    exact Registry.find?_modify (fun o : AcmeOrder => { o with status := .ready }) (fun _ => rfl) id
  · rw [if_neg fun h => hlast (all_valid_iff.mp h)]
    simp only [if_neg hlast, Option.map_id', ite_self]
    rfl

end Validation

/-- The request was signed into a new row, and the other rows are as before. -/
structure SignedInto (s s' : Store) (csr : Csr) (d : SignDraw) : Prop where
  kept : ∀ k row, s.certificates.get? k = some row → s'.certificates.get? k = some row
  signed : ∃ row x caCert caPrivateKey,
    s'.certificates.get? s.certificates.nextKey = some row ∧ row.x509 = .ok x ∧
      TrustStoreService.signCsr csr caCert caPrivateKey 90 "server_cert" d.serial d.now = .ok x

theorem signedInto_of_signCsr [X509Library] {s working signed : Store} {row : Certificate}
    {csr : Csr} {caref : String} {d : SignDraw} {x : X509}
    (hadd : s.addCertificate row = .ok working) (hcsr : row.csr = some (.base64 csr))
    (hsign : CertificateService.signCsr working s.certificates.nextKey caref "server_cert" 90
      d.serial d.now = .ok (x, signed)) : SignedInto s signed csr d := by
  obtain ⟨-, rfl⟩ := CertificateService.addCertificate_eq_ok.mp hadd
  obtain ⟨row', signer, _, _, hrow, _, _, _, _, _, rfl⟩ := CertificateService.signCsr_eq_ok hsign
  cases hrow.symm.trans Table.get?_insert_nextKey
  obtain ⟨caCert, caPrivateKey, hx⟩ := CertificateService.request_of_signCsr hrow hcsr hsign
  refine ⟨fun k r hk => ?_, _, x, caCert, caPrivateKey, Table.get?_update_self hrow, rfl, hx⟩
  have hne : s.certificates.nextKey ≠ k := by
    have hlt := Table.key_lt_nextKey (Table.mem_of_get? hk)
    rw [Table.key_of_get? hk] at hlt
    omega
  exact (Table.get?_update_of_ne hne).trans (Table.get?_insert_of_get? hk)

theorem signCertificateWithCa_cases [X509Library] (s : Store) (order : AcmeOrder) (csr : Csr)
    (caRefid : Option String) (d : SignDraw) :
    match signCertificateWithCa s order csr caRefid d with
    | .raised _ => True
    | .failed _ s' => s' = s ∨ SignedInto s s' csr d
    | .signed certId s' => certId = s.certificates.nextKey ∧ SignedInto s s' csr d := by
  unfold signCertificateWithCa
  cases signer s caRefid with
  | none => exact .inl rfl
  | some ca =>
    dsimp only
    by_cases hkey : ca.prv = none
    · rw [if_pos hkey]
      exact .inl rfl
    · rw [if_neg hkey]
      cases hadd : s.addCertificate (requestRow order csr ca d.refid) with
      | error e => trivial
      | ok working =>
        dsimp only
        cases hsign : CertificateService.signCsr working s.certificates.nextKey ca.refid
            "server_cert" 90 d.serial d.now with
        | error e => exact .inl rfl
        | ok result =>
          have hsigned := signedInto_of_signCsr hadd rfl hsign
          by_cases hdisk : d.certPathWritable = true
          · rw [hdisk]
            exact ⟨rfl, hsigned⟩
          · rw [Bool.not_eq_true] at hdisk
            rw [hdisk]
            exact .inr hsigned

theorem signCertificateWithCa_ne_raised_iff [X509Library] {s : Store} {order : AcmeOrder}
    {csr : Csr} {caRefid : Option String} {d : SignDraw} :
    (∀ e, signCertificateWithCa s order csr caRefid d ≠ .raised e) ↔
      ∀ ca, signer s caRefid = some ca →
        ca.prv = none ∨ (s.certificates.first fun c => c.refid = d.refid) = none := by
  unfold signCertificateWithCa
  cases signer s caRefid with
  | none => simp
  | some ca =>
    simp only [Option.some.injEq, forall_eq']
    by_cases hkey : ca.prv = none
    · simp [hkey]
    · rw [if_neg hkey]
      cases hadd : s.addCertificate (requestRow order csr ca d.refid) with
      | error e =>
        have htaken : (s.certificates.first fun c => c.refid = d.refid) ≠ none := by
          intro hfree
          rw [CertificateService.addCertificate_eq_ok.mpr ⟨hfree, rfl⟩] at hadd
          cases hadd
        simp [hkey, htaken]
      | ok working =>
        obtain ⟨hfree, -⟩ := CertificateService.addCertificate_eq_ok.mp hadd
        refine ⟨fun _ => .inr hfree, fun _ e => ?_⟩
        dsimp only
        cases CertificateService.signCsr working s.certificates.nextKey ca.refid "server_cert" 90
            d.serial d.now with
        | error e' => exact fun h => nomatch h
        | ok result =>
          dsimp only
          split_ifs
          · exact fun h => nomatch h
          · exact fun h => nomatch h

theorem finalizeSign_store [X509Library] (st : AcmeStore) (order : AcmeOrder) (csr : Csr)
    (domains : List String) (d : SignDraw) :
    match finalizeSign st order csr domains d with
    | .raised _ => True
    | .failed _ st' => ∃ store, st' = { st with store }
    | .signed _ st' => ∃ store, st' = { st with store } := by
  unfold finalizeSign
  cases signCertificateWithCa st.store order csr (resolveCaForDomains st domains) d with
  | raised e => trivial
  | failed message store => exact ⟨store, rfl⟩
  | signed certId store => exact ⟨store, rfl⟩

theorem finalizeOrder_eq_none [X509Library] {csr : Option Csr} {d : SignDraw} {st' : AcmeStore}
    (h : finalizeOrder st orderId csr d = .ok (none, st')) :
    ∃ order csr' domains store, checkFinalize st orderId csr = .ok (order, csr', domains) ∧
      SignedInto st.store store csr' d ∧
      st' = finalizeCommit { st with store } orderId csr' st.store.certificates.nextKey := by
  unfold finalizeOrder at h
  split at h
  · cases h
  · cases h
  next order csr' domains hcheck =>
    have hcases := signCertificateWithCa_cases st.store order csr' (resolveCaForDomains st domains) d
    unfold finalizeSign at h
    split at h
    · cases h
    · cases h
    next certId signed hsigned =>
      split at hsigned
      · cases hsigned
      · cases hsigned
      next store hsign =>
        cases hsigned
        rw [hsign] at hcases
        obtain ⟨rfl, hinto⟩ := hcases
        cases h
        exact ⟨order, csr', domains, store, hcheck, hinto, rfl⟩

end Effects

end AcmeService

section Sample

def sampleAccount (accountId thumbprint : String) : AcmeAccount :=
  { accountId, jwk := .rsa "AQAB" thumbprint [], jwkThumbprint := thumbprint, contact := none
    status := .valid, termsOfServiceAgreed := true }

def sampleAcme : AcmeStore :=
  { store := sampleStore
    accounts := ⟨[sampleAccount "alice" "A", sampleAccount "bob" "B"], by decide⟩
    orders := ∅, authorizations := ∅, challenges := ∅
    nonces := ⟨[{ token := "n1", expiresAt := 3600, used := false }], by decide⟩
    localDomains := [], domains := [], issuingCaId := none, baseUrl := "https://ca" }

def readyOrder : AcmeOrder :=
  { orderId := "o1", accountId := "alice", status := .ready
    identifiers := [⟨some "dns", some "www"⟩], notBefore := none, notAfter := none, error := none
    csr := none, certificateId := none, certificateUrl := none, expires := days 7 }

def readyAcme : AcmeStore :=
  { sampleAcme with
    orders := ⟨[readyOrder], by decide⟩
    authorizations := ⟨[{ authorizationId := "a1", orderId := "o1"
                          identifier := ⟨some "dns", some "www"⟩, status := .valid
                          expires := days 7 }], by decide⟩ }

def plainRequest (name : String) : Csr :=
  { subject := [], publicKey := ⟨.rsa 2048, 7⟩, isSignatureValid := true
    encodedExtensions := [⟨.subjectAlternativeName [.dns name], false⟩] }

def sampleSignDraw : SignDraw :=
  { refid := "r1", serial := ⟨255, by decide⟩, now := 100, certPathWritable := true }

end Sample

end CaManager
