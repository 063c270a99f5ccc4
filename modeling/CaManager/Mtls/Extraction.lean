import CaManager.Accounts.SignIns

/-!
# Where client certificates come from

A client certificate comes from the connection itself, or from headers that a proxy in front adds.
The middleware looks at the headers of trusted proxies only; the two routes that also look at them
do not ask where they come from. All of them look in a dictionary of the headers, in which the
framework has written the names its own way.
-/

namespace CaManager

open Library

class PemLibrary where
  loadPem : String → Option X509

namespace Mtls

/-- The headers of a request by name, as `dict(request.headers)` gives them. -/
abbrev HeaderDict := List (String × String)

/-- `parse_pem_certificate` -/
def parsePemCertificate [PemLibrary] (pem : String) : Option X509 :=
  let pem := replaceText "%0A" "\n" (replaceText "\\n" "\n" (stripSpaces pem))
  let pem :=
    if startsWith pem "-----BEGIN CERTIFICATE-----" then pem
    else "-----BEGIN CERTIFICATE-----\n" ++ pem
  PemLibrary.loadPem
    (if "-----END CERTIFICATE-----".toList.isSuffixOf pem.toList then pem
      else pem ++ "\n-----END CERTIFICATE-----")

def splitUnescaped : Char → List Char → List (List Char)
  | _, [] => [[]]
  | before, c :: cs =>
    if c = ',' ∧ before ≠ '\\' then [] :: splitUnescaped c cs
    else (splitUnescaped c cs).modifyHead (c :: ·)

/-- `parse_dn_string` -/
def parseDnString (dn : String) : List (String × String) :=
  (splitUnescaped ' ' dn.toList).filterMap fun part =>
    let part := (stripSpaces (String.ofList part)).toList
    if '=' ∈ part then
      some (upper (stripSpaces (String.ofList (part.takeWhile (· ≠ '=')))),
        replaceText "\\," "," (stripSpaces (String.ofList ((part.dropWhile (· ≠ '=')).drop 1))))
    else none

def dnComponent (dn key : String) : Option String := (parseDnString dn).reverse.lookup key

/-- What two kinds of proxies say about a certificate that they have verified. They differ in the
names of two headers. -/
def extractFromHeaders [PemLibrary] (serialName : String) (fingerprintName : Option String)
    (headers : HeaderDict) : Option Presented :=
  if upper ((headers.lookup "X-SSL-Client-Verify").getD "") ≠ "SUCCESS" then none
  else
    match ((headers.lookup "X-SSL-Client-Cert").filter (· ≠ "")).bind parsePemCertificate with
    | some x => some (.proxied x)
    | none =>
      ((headers.lookup "X-SSL-Client-S-DN").filter (· ≠ "")).map fun subjectDn =>
        .headers subjectDn (headers.lookup "X-SSL-Client-I-DN") (headers.lookup serialName)
          (fingerprintName.bind fun name => headers.lookup name) (dnComponent subjectDn "CN")

def extractFromNginxHeaders [PemLibrary] : HeaderDict → Option Presented :=
  extractFromHeaders "X-SSL-Client-Serial" (some "X-SSL-Client-Fingerprint")

def extractFromApacheHeaders [PemLibrary] : HeaderDict → Option Presented :=
  extractFromHeaders "X-SSL-Client-M-Serial" none

/-- `extract_from_flask_native`, of bytes that may not be a certificate. -/
def extractFromFlaskNative (peercert : Option X509) : Option Presented := peercert.map .native

/-- A request, with the certificate of its connection, if there is one, as far as it is one. -/
structure ClientRequest where
  remoteAddr : String
  headers : HeaderDict := []
  peercert : Option (Option X509) := none
  session : BrowserSession := {}

namespace ClientRequest

/-- `request.headers.get('X-API-Key')`, whichever way the name is written. -/
def apiKey (r : ClientRequest) : Option String :=
  (r.headers.find? fun h => lower h.1 = "x-api-key").map Prod.snd

/-- `dict(request.headers)`, with the names as the framework writes them. -/
def headerDict (spelled : String → String) (r : ClientRequest) : HeaderDict :=
  r.headers.map fun h => (spelled h.1, h.2)

/-- The requests differ at most in headers of a certificate. -/
structure SameBut (isCertificateHeader : String → Bool) (r r' : ClientRequest) : Prop where
  remoteAddr : r.remoteAddr = r'.remoteAddr
  peercert : r.peercert = r'.peercert
  session : r.session = r'.session
  headers : (r.headers.filter fun h => !isCertificateHeader h.1) =
    r'.headers.filter fun h => !isCertificateHeader h.1

end ClientRequest

/-- `_get_trusted_proxies`; `none` trusts everyone. -/
def trustedProxies (setting : String) : Option (List String) :=
  if setting = "" then some ["127.0.0.1", "::1"]
  else if setting = "*" then none
  else some (((splitText ',' setting).map stripSpaces).filter (· ≠ ""))

def extractFromProxy [PemLibrary] (headers : HeaderDict) : Option Presented :=
  (if (headers.lookup "X-SSL-Client-Verify").isSome then extractFromNginxHeaders headers
    else none).or
  (if (headers.lookup "X-SSL-Client-S-DN").isSome then extractFromApacheHeaders headers else none)

/-- `_extract_certificate` of the middleware. No list of proxies is checked if it is empty. -/
def extractCertificate [PemLibrary] (spelled : String → String) (setting : String)
    (r : ClientRequest) : Option Presented :=
  match r.peercert.bind extractFromFlaskNative with
  | some p => some p
  | none =>
    match trustedProxies setting with
    | some (proxy :: proxies) =>
      if r.remoteAddr ∈ proxy :: proxies then extractFromProxy (r.headerDict spelled) else none
    | _ => extractFromProxy (r.headerDict spelled)

/-- The certificate that `login_mtls` looks at. -/
def loginCertificate [PemLibrary] (spelled : String → String) (r : ClientRequest) :
    Option Presented :=
  let headers := r.headerDict spelled
  if (headers.lookup "X-SSL-Client-Verify").isSome then extractFromNginxHeaders headers
  else if (headers.lookup "X-SSL-Client-S-DN").isSome then extractFromApacheHeaders headers
  else r.peercert.bind extractFromFlaskNative

/-- The certificate that `enroll_presented_certificate` enrols. -/
def enrollCertificate [PemLibrary] (spelled : String → String) (r : ClientRequest) :
    Option Presented :=
  match r.peercert.bind extractFromFlaskNative with
  | some p => some p
  | none =>
    let headers := r.headerDict spelled
    if (headers.lookup "X-SSL-Client-Verify").isSome then extractFromNginxHeaders headers
    else if (headers.lookup "X-SSL-Client-S-DN").isSome then extractFromApacheHeaders headers
    else none

section Routes

variable [X509Library] [DigestLibrary] [HashLibrary] [PemLibrary] (spelled : String → String)
  (setting : String) (s : SessionState) (r : ClientRequest)

def middleware : SignInAnswer :=
  s.processClientCertificate r.session r.apiKey (extractCertificate spelled setting r)

/-- A request to `login_mtls`. -/
def mtlsLoginRoute : SignInAnswer :=
  let before := middleware spelled setting s r
  before.state.loginMtls before.session (loginCertificate spelled r)

def enrollRoute (name : Option String) : Except Refusal AuthCertificate × SignInAnswer :=
  let before := middleware spelled setting s r
  let (result, keys, session) := AuthManager.authenticateRequest before.state.accounts
    before.state.keys s.now ⟨r.apiKey, before.session⟩
  let state := { before.state with keys }
  let enrolled : Except Refusal AuthCertificate := do
    let result ← orThrow result ⟨401, "Authentication required"⟩
    let p ← orThrow (enrollCertificate spelled r)
      ⟨400, "No client certificate detected in this request"⟩
    let user ← orThrow result.user ⟨500, "Internal server error"⟩
    return (← enrollPresented state.mtls user (some p) name).2
  match enrolled with
  | .error e => (.error e, ⟨state, session, before.login⟩)
  | .ok a =>
    (.ok a, ⟨state.setAccounts ((state.accounts.addAuthCertificate a).getD state.accounts),
      session, before.login⟩)

end Routes

section Spelling

/-- No two capitals stand next to each other, as in names whose words are capitalized. -/
def Capitalized (name : String) : Prop :=
  name.toList.IsChain fun c c' => ¬(c.isUpper = true ∧ c'.isUpper = true)

instance (name : String) : Decidable (Capitalized name) :=
  inferInstanceAs (Decidable (List.IsChain _ _))

variable {spelled : String → String} {r r' : ClientRequest}

theorem lookup_headerDict (hspelled : ∀ name, Capitalized (spelled name)) {name : String}
    (hname : ¬Capitalized name) : (r.headerDict spelled).lookup name = none := by
  rw [List.lookup_eq_none_iff]
  intro h hmem
  obtain ⟨h', _, rfl⟩ := List.mem_map.mp hmem
  have hne : name ≠ spelled h'.1 := fun heq => hname (heq ▸ hspelled h'.1)
  simpa using hne

theorem apiKey_eq_of_sameBut {isCertificateHeader : String → Bool}
    (hkey : ∀ name, lower name = "x-api-key" → isCertificateHeader name = false)
    (h : r.SameBut isCertificateHeader r') : r.apiKey = r'.apiKey := by
  have hfiltered (headers : HeaderDict) : (headers.find? fun h => lower h.1 = "x-api-key") =
      (headers.filter fun h => !isCertificateHeader h.1).find? fun h =>
        lower h.1 = "x-api-key" := by
    rw [List.find?_filter]
    refine congrArg (fun p => headers.find? p) (funext fun h => ?_)
    by_cases hlower : lower h.1 = "x-api-key"
    · simp [hlower, hkey h.1 hlower]
    · simp [hlower]
  unfold ClientRequest.apiKey
  rw [hfiltered, hfiltered r'.headers, h.headers]

theorem lookup_verify (hspelled : ∀ name, Capitalized (spelled name)) :
    (r.headerDict spelled).lookup "X-SSL-Client-Verify" = none :=
  lookup_headerDict hspelled (by decide)

theorem lookup_subject (hspelled : ∀ name, Capitalized (spelled name)) :
    (r.headerDict spelled).lookup "X-SSL-Client-S-DN" = none :=
  lookup_headerDict hspelled (by decide)

theorem extractCertificate_of_capitalized [PemLibrary]
    (hspelled : ∀ name, Capitalized (spelled name)) (setting : String) :
    extractCertificate spelled setting r = r.peercert.bind extractFromFlaskNative := by
  have hproxy : extractFromProxy (r.headerDict spelled) = none := by
    unfold extractFromProxy
    rw [lookup_verify hspelled, lookup_subject hspelled]
    rfl
  unfold extractCertificate
  rw [hproxy]
  cases r.peercert.bind extractFromFlaskNative with
  | none =>
    dsimp only
    split
    · exact ite_self none
    · rfl
  | some p => rfl

theorem loginCertificate_of_capitalized [PemLibrary]
    (hspelled : ∀ name, Capitalized (spelled name)) :
    loginCertificate spelled r = r.peercert.bind extractFromFlaskNative := by
  unfold loginCertificate
  dsimp only
  rw [lookup_verify hspelled, lookup_subject hspelled]
  rfl

theorem enrollCertificate_of_capitalized [PemLibrary]
    (hspelled : ∀ name, Capitalized (spelled name)) :
    enrollCertificate spelled r = r.peercert.bind extractFromFlaskNative := by
  unfold enrollCertificate
  dsimp only
  rw [lookup_verify hspelled, lookup_subject hspelled]
  cases r.peercert.bind extractFromFlaskNative with
  | none => rfl
  | some p => rfl

end Spelling

section Requests

variable [X509Library] [DigestLibrary] [HashLibrary] [PemLibrary]

/-- Whoever sends them, and whichever proxies are trusted, headers about certificates change
neither who is signed in, nor the session, nor what is enrolled: the framework capitalizes the names
of headers, and the names that are looked for are not capitalized. -/
theorem certificate_headers_ignored (spelled : String → String)
    (hspelled : ∀ name, Capitalized (spelled name)) (isCertificateHeader : String → Bool)
    (hkey : ∀ name, lower name = "x-api-key" → isCertificateHeader name = false)
    (setting : String) (s : SessionState) (name : Option String) (r r' : ClientRequest)
    (hsame : r.SameBut isCertificateHeader r') :
    middleware spelled setting s r = middleware spelled setting s r' ∧
      mtlsLoginRoute spelled setting s r = mtlsLoginRoute spelled setting s r' ∧
      enrollRoute spelled setting s r name = enrollRoute spelled setting s r' name := by
  have hbefore : middleware spelled setting s r = middleware spelled setting s r' := by
    unfold middleware
    rw [extractCertificate_of_capitalized hspelled, extractCertificate_of_capitalized hspelled,
      apiKey_eq_of_sameBut hkey hsame, hsame.session, hsame.peercert]
  refine ⟨hbefore, ?_, ?_⟩
  · unfold mtlsLoginRoute
    rw [hbefore, loginCertificate_of_capitalized hspelled,
      loginCertificate_of_capitalized hspelled, hsame.peercert]
  · unfold enrollRoute
    rw [hbefore, enrollCertificate_of_capitalized hspelled,
      enrollCertificate_of_capitalized hspelled, apiKey_eq_of_sameBut hkey hsame, hsame.peercert]

end Requests

section Sample

def titleChars : Bool → List Char → List Char
  | _, [] => []
  | afterLetter, c :: cs =>
    (if afterLetter then c.toLower else c.toUpper) :: titleChars c.isAlpha cs

def titleName (name : String) : String := String.ofList (titleChars false name.toList)

theorem isUpper_toLower (c : Char) : c.toLower.isUpper = false := by
  by_cases h : c.val ≥ 'A'.val ∧ c.val ≤ 'Z'.val
  · have hval : c.toLower.val = c.val + 32 := congrArg Char.val (dif_pos h)
    refine decide_eq_false ?_
    rw [hval]
    grind [UInt32.toNat_add, Char.toNat_val]
  · have hsame : c.toLower = c := dif_neg h
    rw [hsame]
    exact decide_eq_false h

theorem isUpper_toUpper {c : Char} (h : c.isAlpha = false) : c.toUpper.isUpper = false := by
  have hsmall : c.isLower = false := by simpa using (Bool.or_eq_false_iff.mp h).2
  have hcapital : c.isUpper = false := (Bool.or_eq_false_iff.mp h).1
  have hsame : c.toUpper = c := by
    refine dif_neg fun hletter => ?_
    have htrue : c.isLower = true :=
      Bool.and_eq_true_iff.mpr ⟨decide_eq_true hletter.1, decide_eq_true hletter.2⟩
    rw [htrue] at hsmall
    cases hsmall
  rw [hsame, hcapital]

theorem capitalized_titleName (name : String) : Capitalized (titleName name) := by
  unfold Capitalized titleName
  rw [String.toList_ofList]
  generalize false = afterLetter
  induction name.toList generalizing afterLetter with
  | nil => exact List.IsChain.nil
  | cons c cs ih =>
    cases cs with
    | nil => exact List.IsChain.singleton _
    | cons c' cs =>
      refine List.IsChain.cons_cons ?_ (ih c.isAlpha)
      -- only letters have capitals, and after a letter comes a small one
      rintro ⟨hcapital, hnext⟩
      cases hletter : c.isAlpha with
      | false =>
        have hsmall : (if afterLetter then c.toLower else c.toUpper).isUpper = false := by
          split
          · exact isUpper_toLower c
          · exact isUpper_toUpper hletter
        rw [hsmall] at hcapital
        cases hcapital
      | true =>
        rw [hletter, if_pos rfl, isUpper_toLower] at hnext
        cases hnext

@[reducible] def samplePem : PemLibrary := ⟨fun _ => none⟩

def enrolledState : SessionState where
  mtls :=
    { store := ⟨∅, ∅, ∅, ∅, none⟩
      accounts :=
        { users := (∅ : Table User).insert
            { username := "ann", email := "ann@ca", passwordHash := "secret" }
          authCertificates := (∅ : Table AuthCertificate).insert
            { userId := 1, certSerial := "A1", certSubject := "CN=ann" } }
      now := 0 }

def forgedHeaders : ClientRequest where
  remoteAddr := "203.0.113.9"
  headers := [("X-SSL-Client-Verify", "SUCCESS"), ("X-SSL-Client-S-DN", "CN=ann"),
    ("X-SSL-Client-Serial", "A1")]

theorem forged_headers_ignored :
    let _ := sampleLibrary
    let _ := sampleDigests
    let _ := spelledHash
    let _ := samplePem
    middleware titleName "" enrolledState forgedHeaders =
        middleware titleName "" enrolledState { forgedHeaders with headers := [] } ∧
      mtlsLoginRoute titleName "" enrolledState forgedHeaders =
        mtlsLoginRoute titleName "" enrolledState { forgedHeaders with headers := [] } ∧
      enrollRoute titleName "" enrolledState forgedHeaders none =
        enrollRoute titleName "" enrolledState { forgedHeaders with headers := [] } none := by
  intro _ _ _ _
  refine certificate_headers_ignored titleName capitalized_titleName
    (fun name => startsWith (lower name) "x-ssl-") (fun name hname => ?_) "" enrolledState none _ _
    ⟨rfl, rfl, rfl, by decide⟩
  rw [hname]
  decide

-- nothing but the framework's way of writing the names keeps the route closed
example :
    let _ := sampleLibrary
    let _ := sampleDigests
    let _ := spelledHash
    let _ := samplePem
    (mtlsLoginRoute id "" enrolledState forgedHeaders).login = some 1 := by
  decide +kernel

end Sample

end Mtls

end CaManager
