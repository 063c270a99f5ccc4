import CaManager.Acme.Service

/-!
# The automation endpoints

A request is a signed JSON message. Its texts are decoded and its signature is checked by
libraries, which stay parameters. Every handler calls the verifier without the key of the
account; then a message whose header names an account by `kid` is accepted as it is, and
only one that brings its own `jwk` is checked, against that key. What a handler then works
on is named by the path, the header or the payload, differently in each of them.
-/

namespace CaManager

open Library AcmeService

structure ProtectedHeader where
  url : Option String
  nonce : Option String
  jwk : Option Jwk
  kid : Option String
  alg : Option String
  deriving Repr, DecidableEq

/-- The members of payloads that handlers read. A member that is text in some encoding or a
date holds `none` inside where the text cannot be read; `others` says that there are more. -/
structure Payload where
  status : Option String := none
  contact : Option (List String) := none
  identifiers : List Identifier := []
  notBefore : Option (Option Time) := none
  notAfter : Option (Option Time) := none
  csr : Option (Option Csr) := none
  certificate : Option (Option X509) := none
  reason : ℤ := 0
  account : Option String := none
  oldKey : Option Jwk := none
  others : Bool := false
  deriving Repr, DecidableEq

def Payload.isEmpty (p : Payload) : Bool := p = {}

/-- A signed message, with its texts as they were sent. -/
structure Jws where
  header : Option String
  payload : Option String
  signature : String := ""
  deriving Repr, DecidableEq

inductive DecodeError
  | json
  | other
  deriving Repr, DecidableEq

def DecodeError.text : DecodeError → String
  | json => "Invalid JSON in JWS"
  | other => "JWS verification error"

inductive SignatureScheme
  | rs256 | rs384 | rs512 | es256 | es384 | es512
  deriving Repr, DecidableEq

class JoseLibrary extends Sha256 where
  decodeHeader : String → Except DecodeError ProtectedHeader
  decodePayload : String → Except DecodeError Payload
  decodeSignature : String → Option String
  loadsKey : Jwk → Bool
  verifies : Jwk → SignatureScheme → String → String → Bool

def schemeOf (alg : String) : Except String SignatureScheme :=
  match alg with
  | "RS256" => .ok .rs256
  | "RS384" => .ok .rs384
  | "RS512" => .ok .rs512
  | "ES256" => .ok .es256
  | "ES384" => .ok .es384
  | "ES512" => .ok .es512
  | _ =>
    match alg.toList with
    | 'R' :: 'S' :: _ => .error ("Unsupported RSA algorithm: " ++ alg)
    | 'E' :: 'S' :: _ => .error ("Unsupported EC algorithm: " ++ alg)
    | _ => .error ("Unsupported signature algorithm: " ++ alg)

def present (text : Option String) : Option String := text.filter (· ≠ "")

section Verify

variable [JoseLibrary]

def readHeader (jws : Jws) : Except String ProtectedHeader := do
  let text ← orThrow jws.header "Missing 'protected' field in JWS"
  (JoseLibrary.decodeHeader text).mapError DecodeError.text

def readPayload (jws : Jws) : Except String Payload := do
  let text ← orThrow jws.payload "Missing 'payload' field in JWS"
  if text = "" then return {} else (JoseLibrary.decodePayload text).mapError DecodeError.text

def checkKey : Jwk → Except String Unit
  | .unsupported kty => .error ("Unsupported key type: " ++ kty.getD "None")
  | .incomplete _ => .error "Signature verification error"
  | key => ensure (JoseLibrary.loadsKey key = true) "Signature verification error"

def verifySignature (key : Jwk) (header : ProtectedHeader) (jws : Jws) : Except String Unit := do
  checkKey key
  let signature ← orThrow (JoseLibrary.decodeSignature jws.signature) "Signature verification error"
  let alg ← orThrow (present header.alg) "Missing 'alg' in protected header"
  let scheme ← schemeOf alg
  ensure (JoseLibrary.verifies key scheme (jws.header.getD "" ++ "." ++ jws.payload.getD "")
    signature = true) "Signature verification failed"

/-- The part of the verification after the nonce has been spent. Without a key in the header
and without the account's key, nothing is verified. -/
def verifyContents (jws : Jws) (header : ProtectedHeader) (accountKey : Option Jwk) :
    Except String (Payload × Option Jwk) := do
  ensure (header.jwk.isSome ∨ (present header.kid).isSome)
    "Must provide either 'jwk' or 'kid' in protected header"
  let payload ← readPayload jws
  match header.jwk.or accountKey with
  | some key =>
    verifySignature key header jws
    return (payload, header.jwk)
  | none => return (payload, header.jwk)

def checkHeader (header : ProtectedHeader) (expectedUrl : String) : Except String String := do
  ensure (header.url = some expectedUrl)
    ("URL mismatch: expected " ++ expectedUrl ++ ", got " ++ header.url.getD "None")
  orThrow (present header.nonce) "Missing nonce in protected header"

/-- What a verified message says, its header and its own key. -/
structure Verified where
  payload : Payload
  jwk : Option Jwk
  header : ProtectedHeader
  deriving Repr, DecidableEq

def verifyJws (st : AcmeStore) (jws : Jws) (expectedUrl : String) (accountKey : Option Jwk)
    (now : Time) : Except String Verified × AcmeStore :=
  match readHeader jws with
  | .error e => (.error e, st)
  | .ok header =>
    match checkHeader header expectedUrl with
    | .error e => (.error e, st)
    | .ok nonce =>
      match validateNonce st nonce now with
      | (false, st) => (.error "Invalid or expired nonce", st)
      | (true, st) =>
        ((fun (payload, jwk) => ⟨payload, jwk, header⟩) <$> verifyContents jws header accountKey, st)

end Verify

structure OrderBody where
  status : OrderStatus
  expires : Time
  identifiers : List Identifier
  authorizations : List String
  finalize : String
  certificate : Option String
  notBefore : Option Time := none
  notAfter : Option Time := none
  location : String
  deriving Repr, DecidableEq

inductive AcmeResponse
  | problem (type detail : String) (status : ℕ)
  | account (status : AccountStatus) (contact : List String) (location : String)
  | order (body : OrderBody) (status : ℕ)
  | challenge (body : AcmeChallenge) (up : Option String)
  | done
  deriving Repr, DecidableEq

/-- What a request meets: the time, what is drawn, and what the network answers. -/
structure Surroundings where
  now : Time
  orderId : String
  authorization : ℕ → AuthorizationDraw
  http : Except String String
  dns : Except String (List String)
  sign : SignDraw

namespace AcmeApi

def serverInternal : AcmeResponse := .problem "serverInternal" "Internal server error" 500

def malformed (detail : String) : AcmeResponse := .problem "malformed" detail 400

def accountBody (st : AcmeStore) (account : AcmeAccount) : AcmeResponse :=
  .account account.status (account.contact.getD []) (st.baseUrl ++ "/acme/acct/" ++ account.accountId)

def orderBody (st : AcmeStore) (order : AcmeOrder) : OrderBody :=
  let url := st.baseUrl ++ "/acme/order/" ++ order.orderId
  { status := order.status, expires := order.expires, identifiers := order.identifiers
    authorizations := (st.authorizationsOf order.orderId).map fun a =>
      st.baseUrl ++ "/acme/authz/" ++ a.authorizationId
    finalize := url ++ "/finalize", certificate := order.certificateUrl, location := url }

def newOrderBody (st : AcmeStore) (order : AcmeOrder) : OrderBody :=
  { orderBody st order with notBefore := order.notBefore, notAfter := order.notAfter }

def orderAnswer (body : AcmeStore → AcmeOrder → OrderBody) (st : AcmeStore) (orderId : String)
    (status : ℕ) : AcmeResponse × AcmeStore :=
  match getOrder st orderId with
  | some order => (.order (body st order) status, st)
  | none => (serverInternal, st)

def lastSegment (url : Option String) : Option String :=
  (present url).bind fun url => (splitText '/' url).getLast?

/-- The common beginning of the handlers: a message is required and must be verified. -/
def withVerified [JoseLibrary] (st : AcmeStore) (body : Option Jws) (expectedUrl : String)
    (now : Time) (handle : AcmeStore → Verified → AcmeResponse × AcmeStore) :
    AcmeResponse × AcmeStore :=
  match body with
  | none => (malformed "Request body must be JWS", st)
  | some jws =>
    match verifyJws st jws expectedUrl none now with
    | (.error e, st) => (malformed ("Invalid JWS: " ++ e), st)
    | (.ok verified, st) => handle st verified

def updatedAccount (payload : Payload) (account : AcmeAccount) : AcmeAccount :=
  { account with
    status := if payload.status = some "deactivated" then .deactivated else account.status
    contact := payload.contact.or account.contact }

/-- The account is the one of the path. An empty body is answered without verification. -/
def accountInfo [JoseLibrary] (st : AcmeStore) (accountId : String) (body : Option Jws)
    (w : Surroundings) : AcmeResponse × AcmeStore :=
  match getAccountByKid st accountId with
  | none => (.problem "accountDoesNotExist" "Account not found" 404, st)
  | some account =>
    match body with
    | none => (accountBody st account, st)
    | some jws =>
      withVerified st (some jws) (st.baseUrl ++ "/acme/acct/" ++ accountId) w.now fun st v =>
        (accountBody st (updatedAccount v.payload account),
          st.setAccount accountId (updatedAccount v.payload))

def readDate (date : Option (Option Time)) : Option (Option Time) :=
  match date with
  | none => some none
  | some none => none
  | some (some t) => some (some t)

def createdAnswer (orderId : String) : Bool × AcmeStore → AcmeResponse × AcmeStore
  | (true, st) => orderAnswer newOrderBody st orderId 201
  | (false, st) => (serverInternal, st)

def newOrderVerified (w : Surroundings) (st : AcmeStore) (v : Verified) : AcmeResponse × AcmeStore :=
  match present (lastSegment v.header.kid) with
  | none => (malformed "Account kid required in protected header", st)
  | some accountId =>
    match getAccountByKid st accountId with
    | none => (.problem "accountDoesNotExist" "Account not found" 404, st)
    | some account =>
      if v.payload.identifiers = [] then (malformed "At least one identifier required", st)
      else
        match readDate v.payload.notBefore, readDate v.payload.notAfter with
        | some notBefore, some notAfter =>
          createdAnswer w.orderId <| createOrder st w.orderId account.accountId
            v.payload.identifiers notBefore notAfter w.authorization w.now
        | _, _ => (serverInternal, st)

def newOrder [JoseLibrary] (st : AcmeStore) (body : Option Jws) (w : Surroundings) :
    AcmeResponse × AcmeStore :=
  withVerified st body (st.baseUrl ++ "/acme/new-order") w.now (newOrderVerified w)

/-- Case-insensitive matching with `%` for any text and `_` for any character. -/
def like : List Char → List Char → Bool
  | [], cs => cs.isEmpty
  | '%' :: ps, cs => cs.tails.any fun rest => like ps rest
  | '_' :: ps, cs => match cs with
    | [] => false
    | _ :: cs => like ps cs
  | p :: ps, cs => match cs with
    | [] => false
    | c :: cs => p.toLower = c.toLower && like ps cs

/-- The challenge of a path: the first whose address ends like it, else the one of that name. -/
def findChallenge (st : AcmeStore) (challengeId : String) : Option AcmeChallenge :=
  (st.challenges.first fun c =>
    match c.url with
    | some url => like ('%' :: '/' :: challengeId.toList) url.toList
    | none => false).or (st.challenges.find? challengeId)

def validate [Sha256] (w : Surroundings) (st : AcmeStore) (challenge : AcmeChallenge)
    (jwkThumbprint : String) : Option (Except PyError AcmeStore) :=
  match challenge.type with
  | .http01 => some (validateHttp01Challenge st challenge jwkThumbprint w.http w.now)
  | .dns01 => some (validateDns01Challenge st challenge jwkThumbprint w.dns w.now)
  | .unsupported _ => none

/-- What is found when the challenge is checked with the key of the account. -/
def challengeResult [Sha256] (w : Surroundings) (challenge : AcmeChallenge) (account : AcmeAccount)
    (auth : AcmeAuthorization) : Option (Except Problem Unit) :=
  match challenge.type with
  | .http01 => some (checkHttp01 challenge.token account.jwkThumbprint w.http
      (auth.identifier.value.getD ""))
  | .dns01 => some (checkDns01 challenge.token account.jwkThumbprint w.dns
      (auth.identifier.value.getD ""))
  | .unsupported _ => none

def challengeTypeText : ChallengeType → String
  | .http01 => "http-01"
  | .dns01 => "dns-01"
  | .unsupported type => type

def challengeAnswer (st : AcmeStore) (challengeId : String) : AcmeResponse × AcmeStore :=
  match st.challenges.find? challengeId with
  | some c => (.challenge c ((st.authorizationOf c).map fun a =>
      st.baseUrl ++ "/acme/authz/" ++ a.authorizationId), st)
  | none => (serverInternal, st)

/-- The key that the response must show is the one of the account that the header names. -/
def respondVerified [Sha256] (w : Surroundings) (challenge : AcmeChallenge) (st : AcmeStore)
    (v : Verified) : AcmeResponse × AcmeStore :=
  match (lastSegment v.header.kid).bind (getAccountByKid st) with
  | none => (.problem "accountDoesNotExist" "Account not found" 404, st)
  | some account =>
    match validate w st challenge account.jwkThumbprint with
    | none =>
      (.problem "unsupportedType"
        s!"Challenge type {challengeTypeText challenge.type} not supported" 400, st)
    | some (.error _) => (serverInternal, st)
    | some (.ok st) => challengeAnswer st challenge.challengeId

def respondToChallenge [JoseLibrary] (st : AcmeStore) (challengeId : String) (body : Option Jws)
    (w : Surroundings) : AcmeResponse × AcmeStore :=
  match body with
  | none => (malformed "Request body must be JWS", st)
  | some jws =>
    match findChallenge st challengeId with
    | none => (.problem "challengeDoesNotExist" "Challenge not found" 404, st)
    | some challenge =>
      withVerified st (some jws)
        ((present challenge.url).getD (st.baseUrl ++ "/acme/challenge/" ++ challengeId)) w.now
        (respondVerified w challenge)

def finalizedAnswer (st : AcmeStore) (orderId : String) :
    Except PyError (Option String × AcmeStore) → AcmeResponse × AcmeStore
  | .error _ => (serverInternal, st)
  | .ok (some message, st) => (.problem "badCSR" message 400, st)
  | .ok (none, st) => orderAnswer orderBody st orderId 200

def finalizeVerified [X509Library] (w : Surroundings) (orderId : String) (st : AcmeStore)
    (v : Verified) : AcmeResponse × AcmeStore :=
  if v.payload.isEmpty then (malformed "Payload required for finalize", st)
  else
    match v.payload.csr with
    | none => (malformed "CSR required", st)
    | some none => (serverInternal, st)
    | some (some csr) =>
      finalizedAnswer st orderId (AcmeService.finalizeOrder st orderId (some csr) w.sign)

def finalizeOrder [JoseLibrary] [X509Library] (st : AcmeStore) (orderId : String)
    (body : Option Jws) (w : Surroundings) : AcmeResponse × AcmeStore :=
  withVerified st body (st.baseUrl ++ "/acme/order/" ++ orderId ++ "/finalize") w.now
    (finalizeVerified w orderId)

/-- The row is searched by its column `serial`. -/
def revokeVerified (w : Surroundings) (st : AcmeStore) (v : Verified) : AcmeResponse × AcmeStore :=
  if v.payload.isEmpty then (malformed "Payload required", st)
  else
    match v.payload.certificate with
    | none => (malformed "Certificate required in payload", st)
    | some none => (serverInternal, st)
    | some (some cert) =>
      match Certificate.textColumn "serial" with
      | none => (serverInternal, st)
      | some column =>
        match st.store.certificates.first fun row =>
          (column row).any fun text => occursIn (lower (hexText cert.serial)) (lower text) with
        | none => (.problem "serverInternal" "Certificate not found" 404, st)
        | some row =>
          match CertificateService.revokeCertificate st.store row.id
            (if v.payload.reason = 1 then "keyCompromise" else "unspecified") "acme" w.now with
          | .error _ => (.problem "serverInternal" "Revocation failed" 500, st)
          | .ok store => (.done, { st with store })

def revokeCert [JoseLibrary] (st : AcmeStore) (body : Option Jws) (w : Surroundings) :
    AcmeResponse × AcmeStore :=
  withVerified st body (st.baseUrl ++ "/acme/revoke-cert") w.now (revokeVerified w)

/-- The account is the one of the payload; its new key is the one in the header. -/
def keyChangeVerified [Sha256] (st : AcmeStore) (v : Verified) : AcmeResponse × AcmeStore :=
  if v.payload.isEmpty then (malformed "Payload required", st)
  else
    match present (lastSegment v.payload.account) with
    | none => (malformed "Account URL required", st)
    | some accountId =>
      match getAccountByKid st accountId with
      | none => (.problem "accountDoesNotExist" "Account not found" 404, st)
      | some account =>
        if v.payload.oldKey ≠ some account.jwk then
          (malformed "Old key does not match account key", st)
        else
          match v.jwk with
          | none => (accountBody st account, st)
          | some jwk =>
            match computeJwkThumbprint jwk with
            | none => (serverInternal, st)
            | some thumbprint =>
              -- the thumbprint column is unique
              if (st.accounts.first fun a =>
                  a.jwkThumbprint = thumbprint && a.accountId ≠ accountId).isSome then
                (serverInternal, st)
              else
                (accountBody st account, st.setAccount accountId fun a =>
                  { a with jwk, jwkThumbprint := thumbprint })

def keyChange [JoseLibrary] (st : AcmeStore) (body : Option Jws) (w : Surroundings) :
    AcmeResponse × AcmeStore :=
  withVerified st body (st.baseUrl ++ "/acme/key-change") w.now keyChangeVerified

end AcmeApi

inductive AcmeRequest
  | accountInfo (accountId : String) (body : Option Jws)
  | newOrder (body : Option Jws)
  | respondToChallenge (challengeId : String) (body : Option Jws)
  | finalizeOrder (orderId : String) (body : Option Jws)
  | revokeCert (body : Option Jws)
  | keyChange (body : Option Jws)
  deriving Repr, DecidableEq

def AcmeRequest.body : AcmeRequest → Option Jws
  | accountInfo _ body | newOrder body | respondToChallenge _ body | finalizeOrder _ body
  | revokeCert body | keyChange body => body

def AcmeStore.answer [JoseLibrary] [X509Library] (st : AcmeStore) (w : Surroundings) :
    AcmeRequest → AcmeResponse × AcmeStore
  | .accountInfo accountId body => AcmeApi.accountInfo st accountId body w
  | .newOrder body => AcmeApi.newOrder st body w
  | .respondToChallenge challengeId body => AcmeApi.respondToChallenge st challengeId body w
  | .finalizeOrder orderId body => AcmeApi.finalizeOrder st orderId body w
  | .revokeCert body => AcmeApi.revokeCert st body w
  | .keyChange body => AcmeApi.keyChange st body w

section Sample

@[reducible] def sampleJose : JoseLibrary where
  digest := id
  decodeHeader _ := .ok
    { url := some "https://ca/acme/acct/alice", nonce := some "n1", jwk := none
      kid := some "https://ca/acme/acct/alice", alg := some "RS256" }
  decodePayload _ := .ok { status := some "deactivated" }
  decodeSignature := some
  loadsKey _ := true
  verifies key _ _ signature := match key with
    | .rsa _ n _ => signature = n
    | _ => false

def sampleSurroundings : Surroundings :=
  { now := 100, orderId := "o1"
    authorization := fun _ =>
      { authorizationId := "a1", http := { challengeId := "h1", token := "t", path := "h1" }
        dns := { challengeId := "d1", token := "t", path := "d1" } }
    http := .error "", dns := .error "", sign := sampleSignDraw }

end Sample

end CaManager
