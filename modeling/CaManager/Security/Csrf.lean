import CaManager.Accounts.SignIns

/-!
# Tokens against forged requests

A browser sends a session's cookie with requests that other sites make it send as well. So a
request that changes something has to carry a token which the program made for the session's
user. The check runs before any route and after the client certificate was looked at. Which
credentials a request is authenticated by is decided later, and by other rules.
-/

namespace CaManager

open Library

/-- HMAC-SHA256 of a text, in lower-case hexadecimal. -/
class MacLibrary where
  hmacSha256 : String → String → String
  hexadecimal : ∀ secret message, ∀ c ∈ (hmacSha256 secret message).toList,
    '0' ≤ c ∧ c ≤ '9' ∨ 'a' ≤ c ∧ c ≤ 'f'

/-- A request. Its headers go by their names in lower case, and its body is what it reads as. -/
structure HttpRequest where
  method : String
  path : String
  header : String → Option String := fun _ => none
  isJson : Bool := false
  contentLength : ℕ := 0
  body : Json := .null

structure CsrfConfig where
  secretKey : String
  enabled : Bool := true

namespace Csrf

def tokenLifetime : ℤ := 3600 * 24

def protectedMethods : List String := ["POST", "PUT", "DELETE", "PATCH"]

def exemptPaths : List String :=
  ["/api/v2/auth/login", "/api/v2/auth/forgot", "/api/v2/auth/reset", "/api/v2/auth/methods",
   "/api/v2/sso/", "/acme/", "/scep/", "/.well-known/acme", "/ocsp", "/cdp/", "/api/health",
   "/api/v2/health", "/api/v2/mtls/"]

def isExempt (path : String) : Bool := exemptPaths.any (startsWith path)

def message (timestamp nonce : String) (userId : ℕ) : String :=
  timestamp ++ ":" ++ (nonce ++ ":" ++ decimalText userId)

section Tokens

variable [MacLibrary]

def signature (secretKey message : String) : String :=
  takeText 32 (MacLibrary.hmacSha256 secretKey message)

def generateToken (c : CsrfConfig) (now : Time) (nonce : String) (userId : ℕ) : String :=
  let timestamp := decimalText now
  timestamp ++ ":" ++
    (nonce ++ ":" ++ signature c.secretKey (message timestamp nonce userId))

/-- Whatever is raised on the way is answered alike. A missing token is `null`. -/
def validateToken (c : CsrfConfig) (now : Time) (token : Json) (userId : ℕ) :
    Except String Unit := do
  ensure (token.truthy = true) "Missing CSRF token"
  let token ← orThrow token.text? "Token validation failed"
  match splitText ':' token with
  | [timestamp, nonce, providedSig] =>
    let made ← orThrow (readInt 10 timestamp.toList) "Token validation failed"
    ensure (now - made ≤ tokenLifetime) "CSRF token expired"
    ensure (0 ≤ now - made) "Invalid token timestamp"
    -- texts are compared only if they are ASCII
    ensure (providedSig.toList.all (fun ch => ch.toNat < 128) = true) "Token validation failed"
    ensure (providedSig = signature c.secretKey (message timestamp nonce userId))
      "Invalid CSRF token"
  | _ => throw "Invalid token format"

/-- The token in the header, or else in the body. Looking for it in a body that is not an object
raises, and that is as if there were none. -/
def shownToken (q : HttpRequest) : Json :=
  match (q.header "x-csrf-token").filter (· ≠ "") with
  | some token => .text token
  | none =>
    if q.isJson && 0 < q.contentLength then
      match q.body with
      | .object members => (members.lookup "_csrf_token").getD .null
      | _ => .null
    else .null

def apiKey (q : HttpRequest) : Option String := (q.header "x-api-key").filter (· ≠ "")

/-- `check_csrf`. The user is the one that has been authenticated so far, or else the session's. -/
def checkCsrf (c : CsrfConfig) (now : Time) (q : HttpRequest) (authenticated : Option ℕ)
    (session : BrowserSession) : Except Refusal Unit :=
  if c.enabled = false then .ok ()
  else if q.method ∉ protectedMethods then .ok ()
  else if isExempt q.path then .ok ()
  else if (apiKey q).isSome then .ok ()
  else
    match authenticated.or session.userId with
    | none => .ok ()
    | some userId =>
      match validateToken c now (shownToken q) userId with
      | .ok () => .ok ()
      | .error error => .error ⟨403, "CSRF validation failed: " ++ error⟩

end Tokens

section Requests

variable [X509Library] [DigestLibrary] [HashLibrary]

/-- `g.user_id` after the client certificate was looked at: who a session was found valid for. -/
def authenticatedEarly (s : SessionState) (session : BrowserSession) (q : HttpRequest) :
    Option ℕ :=
  if session.userId.isSome && session.authMethod = some "certificate" then none
  else if session.userId.isSome then
    (AuthManager.authenticateRequest s.accounts s.keys s.now
      ⟨q.header "x-api-key", session⟩).1.map AuthResult.userId
  else none

/-- What becomes of a request before its route: the middleware may sign in, the token is checked,
and then the request is authenticated. -/
structure Reception where
  passed : Except Refusal Unit
  result : Option AuthResult

def receive [MacLibrary] (c : CsrfConfig) (s : SessionState) (session : BrowserSession)
    (p : Option Mtls.Presented) (q : HttpRequest) : Reception :=
  let early := s.processClientCertificate session (q.header "x-api-key") p
  let passed := checkCsrf c s.now q (authenticatedEarly s session q) early.session
  let (result, _, _) := AuthManager.authenticateRequest early.state.accounts early.state.keys s.now
    ⟨q.header "x-api-key", early.session⟩
  ⟨passed, result⟩

/-- A request that changes something, authenticated by the session of this user. -/
def BySession [MacLibrary] (c : CsrfConfig) (s : SessionState) (session : BrowserSession)
    (p : Option Mtls.Presented) (q : HttpRequest) (userId : ℕ) : Prop :=
  q.method ∈ protectedMethods ∧ isExempt q.path = false ∧
    ∃ result, (receive c s session p q).result = some result ∧ result.authMethod = .session ∧
      result.userId = userId

structure Minted where
  madeAt : Time
  nonce : String
  userId : ℕ
  deriving Repr, DecidableEq

variable [MacLibrary]

/-- The request carries a token that was made for the user and is still valid. -/
def CarriesToken (c : CsrfConfig) (minted : List Minted) (now : Time) (q : HttpRequest)
    (userId : ℕ) : Prop :=
  ∃ m ∈ minted, m.userId = userId ∧ m.madeAt ≤ now ∧ now ≤ m.madeAt + tokenLifetime ∧
    shownToken q = .text (generateToken c m.madeAt m.nonce m.userId)

/-- Nobody else can sign: where the token that is shown has the signature of a text, that text was
signed for a token that the program made. -/
def Unforged (c : CsrfConfig) (minted : List Minted) (q : HttpRequest) : Prop :=
  ∀ token timestamp nonce signed, shownToken q = .text token →
    splitText ':' token = [timestamp, nonce, signature c.secretKey signed] →
    ∃ m ∈ minted, signed = message (decimalText m.madeAt) m.nonce m.userId

def Guarded (c : CsrfConfig) (minted : List Minted) (s : SessionState) (session : BrowserSession)
    (p : Option Mtls.Presented) (q : HttpRequest) : Prop :=
  ∀ userId, BySession c s session p q userId → (receive c s session p q).passed = .ok () →
    CarriesToken c minted s.now q userId

end Requests

section Messages

variable {timestamp timestamp' nonce nonce' : String} {userId userId' : ℕ}

theorem notMem_decimalText (z : ℤ) : ':' ∉ (decimalText z).toList := by
  intro hmem
  rw [decimalText, String.toList_ofList,
    ← filter_writeInt (by decide) (by decide) z (c := ':') (by decide) (by decide)] at hmem
  simpa using (List.mem_filter.mp hmem).2

theorem message_inj (h : ':' ∉ timestamp.toList) (h' : ':' ∉ timestamp'.toList)
    (heq : message timestamp nonce userId = message timestamp' nonce' userId') :
    timestamp = timestamp' ∧ nonce = nonce' ∧ userId = userId' := by
  have hchars := congrArg String.toList heq
  simp only [message, String.toList_append, List.append_assoc,
    show ":".toList = [':'] from rfl, List.singleton_append] at hchars
  obtain ⟨htimestamp, hrest⟩ := eq_of_append_cons h h' hchars
  obtain ⟨hnonce, huser⟩ :=
    eq_of_append_cons_last (notMem_decimalText _) (notMem_decimalText _) hrest
  have hid := decimalText_injective (String.toList_injective huser)
  exact ⟨String.toList_injective htimestamp, String.toList_injective hnonce, Int.ofNat.inj hid⟩

end Messages

section Validation

variable [MacLibrary] {c : CsrfConfig} {now : Time} {q : HttpRequest} {userId : ℕ}
  {minted : List Minted}

theorem validateToken_eq_ok {token : Json} (h : validateToken c now token userId = .ok ()) :
    ∃ t timestamp nonce made, token = .text t ∧ splitText ':' t =
        [timestamp, nonce, signature c.secretKey (message timestamp nonce userId)] ∧
      readInt 10 timestamp.toList = some made ∧ made ≤ now ∧ now ≤ made + tokenLifetime := by
  simp only [validateToken, bind_eq_ok, orThrow_eq_ok] at h
  obtain ⟨_, _, t, htext, h⟩ := h
  split at h
  next timestamp nonce providedSig hsplit =>
    simp only [bind_eq_ok, orThrow_eq_ok, ensure_eq_ok] at h
    obtain ⟨made, hmade, _, hold, _, hyoung, _, _, hsig⟩ := h
    refine ⟨t, timestamp, nonce, made, ?_, hsig ▸ hsplit, hmade, sub_nonneg.mp hyoung, ?_⟩
    · cases token with
      | text t => exact congrArg Json.text (Option.some.inj htext)
      | _ => cases htext
    · exact sub_le_iff_le_add'.mp hold
  next => cases h

/-- The token that was just made is accepted, and so it is for its lifetime. -/
theorem validateToken_generateToken {made : Time} {nonce : String} (hnonce : ':' ∉ nonce.toList)
    (hmade : made ≤ now) (hnow : now ≤ made + tokenLifetime) :
    validateToken c now (.text (generateToken c made nonce userId)) userId = .ok () := by
  have hsig : ∀ ch ∈ (signature c.secretKey (message (decimalText made) nonce userId)).toList,
      '0' ≤ ch ∧ ch ≤ '9' ∨ 'a' ≤ ch ∧ ch ≤ 'f' := by
    intro ch hch
    rw [signature, takeText, String.toList_ofList] at hch
    exact MacLibrary.hexadecimal _ _ ch (List.mem_of_mem_take hch)
  have hsplit : splitText ':' (generateToken c made nonce userId) =
      [decimalText made, nonce,
        signature c.secretKey (message (decimalText made) nonce userId)] := by
    unfold generateToken
    rw [show ":" = String.singleton ':' from rfl, splitText_append (notMem_decimalText made),
      splitText_append hnonce, splitText_of_notMem]
    intro hmem
    exact absurd (hsig ':' hmem) (by decide)
  have htruthy : (Json.text (generateToken c made nonce userId)).truthy = true := by
    refine decide_eq_true fun h => ?_
    have hempty : splitText ':' "" = [""] := splitText_of_notMem (by decide)
    rw [h, hempty] at hsplit
    exact absurd (congrArg List.length hsplit) (by decide : (1 : ℕ) ≠ 3)
  have hascii : (signature c.secretKey (message (decimalText made) nonce userId)).toList.all
      (fun ch => ch.toNat < 128) = true := by
    rw [List.all_eq_true]
    intro ch hch
    rcases hsig ch hch with h | h
    · exact decide_eq_true (lt_of_le_of_lt h.2 (by decide))
    · exact decide_eq_true (lt_of_le_of_lt h.2 (by decide))
  unfold validateToken
  rw [ensure_of htruthy, ok_bind, Json.text?, orThrow_some, ok_bind, hsplit]
  dsimp only
  rw [readInt_decimalText, orThrow_some, ok_bind, ensure_of (sub_le_iff_le_add'.mpr hnow), ok_bind,
    ensure_of (sub_nonneg.mpr hmade), ok_bind, ensure_of hascii, ok_bind, ensure_of rfl]

theorem carriesToken_of_validateToken (hunforged : Unforged c minted q)
    (h : validateToken c now (shownToken q) userId = .ok ()) :
    CarriesToken c minted now q userId := by
  obtain ⟨t, timestamp, nonce, made, hshown, hsplit, hmade, hyoung, hold⟩ := validateToken_eq_ok h
  obtain ⟨m, hm, hsigned⟩ := hunforged t timestamp nonce _ hshown hsplit
  have htimestamp : ':' ∉ timestamp.toList :=
    notMem_of_mem_splitText (s := t) (by rw [hsplit]; exact List.mem_cons_self)
  obtain ⟨rfl, rfl, rfl⟩ := message_inj htimestamp (notMem_decimalText _) hsigned
  rw [readInt_decimalText, Option.some.injEq] at hmade
  subst hmade
  have htoken : t = generateToken c m.madeAt m.nonce m.userId := by
    unfold generateToken
    rw [show ":" = String.singleton ':' from rfl]
    exact eq_of_splitText_eq hsplit
  exact ⟨m, hm, rfl, hyoung, hold, hshown.trans (congrArg Json.text htoken)⟩

theorem checkCsrf_of_skipped {early : Option ℕ} {session : BrowserSession}
    (h : ¬(c.enabled = true ∧ apiKey q = none)) : checkCsrf c now q early session = .ok () := by
  unfold checkCsrf
  by_cases hon : c.enabled = false
  · rw [if_pos hon]
  · have hkey : (apiKey q).isSome = true := by
      rw [Option.isSome_iff_ne_none]
      exact fun hnone => h ⟨by simpa using hon, hnone⟩
    rw [if_neg hon, if_pos hkey, ite_self, ite_self]

theorem validateToken_of_checkCsrf {early : Option ℕ} {session : BrowserSession} (hon : c.enabled = true)
    (hkey : apiKey q = none) (hmethod : q.method ∈ protectedMethods)
    (hpath : isExempt q.path = false) (huser : early.or session.userId = some userId)
    (h : checkCsrf c now q early session = .ok ()) :
    validateToken c now (shownToken q) userId = .ok () := by
  unfold checkCsrf at h
  rw [if_neg (by simp [hon]), if_neg (by simpa using hmethod), if_neg (by simp [hpath]),
    if_neg (by simp [hkey]), huser] at h
  dsimp only at h
  split at h
  next hvalid => exact hvalid
  next => cases h

end Validation

section Sessions

variable [HashLibrary] {st : Accounts} {keys keys' : Table ApiKey} {now : Time}
  {key : Option String} {session session' : BrowserSession} {result : AuthResult}

theorem userId_of_authenticateRequest
    (h : AuthManager.authenticateRequest st keys now ⟨key, session⟩ = (some result, keys', session'))
    (hmethod : result.authMethod = .session) :
    session.userId = some result.userId ∧ session'.userId = session.userId := by
  unfold AuthManager.authenticateRequest at h
  split at h
  next found keys hkey =>
    cases h
    obtain ⟨shown, _, hverify⟩ := Option.bind_eq_some_iff.mp hkey
    obtain ⟨row, _, _, rfl, _⟩ := verifyApiKey_eq_some.mp hverify
    cases hmethod
  next =>
    have hverify : AuthManager.verifySession st session now = (some result, session') := by
      cases hv : AuthManager.verifySession st session now with
      | mk result' session'' =>
        rw [hv] at h
        cases h
        rfl
    obtain ⟨id, u, hid, hu, _, _, _, rfl, rfl⟩ := verifySession_eq_some.mp hverify
    exact ⟨hid.trans (congrArg some (Table.key_of_get? hu).symm), rfl⟩

theorem authMethod_of_noKey (hkey : key.filter (· ≠ "") = none)
    (h : AuthManager.authenticateRequest st keys now ⟨key, session⟩ =
      (some result, keys', session')) : result.authMethod = .session := by
  unfold AuthManager.authenticateRequest at h
  simp only [hkey, Option.bind_none] at h
  cases hv : AuthManager.verifySession st session now with
  | mk result' session'' =>
    rw [hv] at h
    cases h
    obtain ⟨_, _, _, _, _, _, _, rfl, _⟩ := verifySession_eq_some.mp hv
    rfl

end Sessions

section Receptions

variable [X509Library] [DigestLibrary] [HashLibrary] [MacLibrary] {c : CsrfConfig}
  {minted : List Minted} {s : SessionState} {session : BrowserSession}
  {p : Option Mtls.Presented} {q : HttpRequest} {userId : ℕ}

omit [MacLibrary] in
theorem session_of_authenticatedEarly (hkey : apiKey q = none)
    (h : authenticatedEarly s session q = some userId) :
    (s.processClientCertificate session (q.header "x-api-key") p).session.userId = some userId := by
  unfold authenticatedEarly at h
  unfold SessionState.processClientCertificate
  split_ifs at h ⊢
  obtain ⟨result, hresult, rfl⟩ := Option.map_eq_some_iff.mp h
  cases hauth : AuthManager.authenticateRequest s.accounts s.keys s.now
      ⟨q.header "x-api-key", session⟩ with
  | mk found rest =>
    rw [hauth] at hresult
    cases hresult
    have hsession := userId_of_authenticateRequest hauth (authMethod_of_noKey hkey hauth)
    exact hsession.2.trans hsession.1

theorem user_of_bySession (hkey : apiKey q = none) (h : BySession c s session p q userId) :
    (authenticatedEarly s session q).or
      (s.processClientCertificate session (q.header "x-api-key") p).session.userId =
        some userId := by
  obtain ⟨_, _, result, hresult, hmethod, rfl⟩ := h
  have hlate := (userId_of_authenticateRequest (Prod.ext hresult rfl) hmethod).1
  cases hearly : authenticatedEarly s session q with
  | none => exact hlate
  | some id => exact (session_of_authenticatedEarly hkey hearly).symm.trans hlate

/-- The requests that a session authenticates pass only with a token, as long as protection is on
and no key is shown, and otherwise where they happen to carry one. -/
theorem guarded_iff (hunforged : Unforged c minted q) :
    Guarded c minted s session p q ↔ ∀ userId, BySession c s session p q userId →
      c.enabled = true ∧ apiKey q = none ∨ CarriesToken c minted s.now q userId := by
  refine forall_congr' fun userId => forall_congr' fun hsession => ?_
  have hpassed : (receive c s session p q).passed = checkCsrf c s.now q
      (authenticatedEarly s session q)
      (s.processClientCertificate session (q.header "x-api-key") p).session := rfl
  rw [hpassed]
  constructor
  · intro hguarded
    by_cases hprotected : c.enabled = true ∧ apiKey q = none
    · exact .inl hprotected
    · exact .inr (hguarded (checkCsrf_of_skipped hprotected))
  · intro hholds hok
    rcases hholds with ⟨hon, hkey⟩ | hcarries
    · exact carriesToken_of_validateToken hunforged (validateToken_of_checkCsrf hon hkey
        hsession.1 hsession.2.1 (user_of_bySession hkey hsession) hok)
    · exact hcarries

end Receptions

section Sample

@[reducible] def sampleMac : MacLibrary where
  hmacSha256 _ message :=
    if message = "1000:0123456789abcdef0123456789abcdef:1" then
      "2104341e35e41685baced40300866328b6c70f48cdf889e872713174667839e5"
    else "ffffffffffffffffffffffffffffffffffffffffffffffffffffffffffffffff"
  hexadecimal _ message c hc := by
    have hall : ((if message = "1000:0123456789abcdef0123456789abcdef:1" then
        "2104341e35e41685baced40300866328b6c70f48cdf889e872713174667839e5"
      else "ffffffffffffffffffffffffffffffffffffffffffffffffffffffffffffffff").toList.all
        fun c => '0' ≤ c ∧ c ≤ '9' ∨ 'a' ≤ c ∧ c ≤ 'f') = true := by
      split
      · decide +kernel
      · decide +kernel
    exact of_decide_eq_true (List.all_eq_true.mp hall c hc)

def sampleConfig : CsrfConfig := { secretKey := "s3cret" }

def sampleMinted : List Minted := [⟨1000, "0123456789abcdef0123456789abcdef", 1⟩]

theorem validateToken_sample :
    let _ := sampleMac
    validateToken sampleConfig 2000 (.text (generateToken sampleConfig 1000 "n0nce" 1)) 1 =
      .ok () := by
  intro _
  exact validateToken_generateToken (by decide) (by decide) (by decide)

def annState : SessionState where
  mtls :=
    { store := ⟨∅, ∅, ∅, ∅, none⟩
      accounts :=
        { users := (∅ : Table User).insert
            { username := "ann", email := "ann@ca", passwordHash := "secret" } }
      now := 2000 }

def annSession : BrowserSession := { userId := some 1, username := some "ann" }

def tokenRequest : HttpRequest where
  method := "DELETE"
  path := "/api/v2/users/2"
  header name :=
    if name = "x-csrf-token" then
      some "1000:0123456789abcdef0123456789abcdef:2104341e35e41685baced40300866328"
    else none

def keyRequest : HttpRequest :=
  { tokenRequest with header := fun name => if name = "x-api-key" then some "x" else none }

theorem unforged_tokenRequest :
    let _ := sampleMac
    Unforged sampleConfig sampleMinted tokenRequest := by
  intro _ token timestamp nonce signed hshown hsplit
  have htoken : shownToken tokenRequest = .text
      "1000:0123456789abcdef0123456789abcdef:2104341e35e41685baced40300866328" := rfl
  obtain rfl := Json.text.inj (htoken.symm.trans hshown)
  have hparts : splitText ':'
      "1000:0123456789abcdef0123456789abcdef:2104341e35e41685baced40300866328" =
        ["1000", "0123456789abcdef0123456789abcdef", "2104341e35e41685baced40300866328"] := by
    decide +kernel
  rw [hparts] at hsplit
  have hsig : "2104341e35e41685baced40300866328" = signature sampleConfig.secretKey signed :=
    (List.cons.inj (List.cons.inj (List.cons.inj hsplit).2).2).1
  by_cases hsigned : signed = "1000:0123456789abcdef0123456789abcdef:1"
  · refine ⟨_, List.mem_singleton_self _, ?_⟩
    rw [hsigned]
    decide +kernel
  · have hother : signature sampleConfig.secretKey signed = "ffffffffffffffffffffffffffffffff" := by
      change takeText 32 (if signed = _ then _ else _) = _
      rw [if_neg hsigned]
      decide +kernel
    rw [hother] at hsig
    exact absurd hsig (by decide +kernel)

theorem guarded_tokenRequest :
    let _ := sampleLibrary
    let _ := Mtls.sampleDigests
    let _ := spelledHash
    let _ := sampleMac
    Guarded sampleConfig sampleMinted annState annSession none tokenRequest ↔
      ∀ userId, BySession sampleConfig annState annSession none tokenRequest userId →
        sampleConfig.enabled = true ∧ apiKey tokenRequest = none ∨
          CarriesToken sampleConfig sampleMinted annState.now tokenRequest userId := by
  intro _ _ _ _
  exact guarded_iff unforged_tokenRequest

/-- A key that nobody has makes the check pass, and the session authenticates the request. -/
theorem session_passes_beside_key :
    let _ := sampleLibrary
    let _ := Mtls.sampleDigests
    let _ := spelledHash
    let _ := sampleMac
    (receive sampleConfig annState annSession none keyRequest).passed = .ok () ∧
      BySession sampleConfig annState annSession none keyRequest 1 ∧
      ¬Guarded sampleConfig sampleMinted annState annSession none keyRequest := by
  intro _ _ _ _
  have hpassed : (receive sampleConfig annState annSession none keyRequest).passed = .ok () := rfl
  have hsession : BySession sampleConfig annState annSession none keyRequest 1 := by
    refine ⟨by decide +kernel, by decide +kernel, _, rfl, by decide +kernel, by decide +kernel⟩
  refine ⟨hpassed, hsession, fun hguarded => ?_⟩
  obtain ⟨m, _, _, _, _, hshown⟩ := hguarded 1 hsession hpassed
  have hnone : shownToken keyRequest = .null := rfl
  rw [hnone] at hshown
  cases hshown

end Sample

end Csrf

end CaManager
