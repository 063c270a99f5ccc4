import CaManager.Accounts.Authentication
import CaManager.Accounts.PasswordLogin
import CaManager.Mtls.Enrolment

/-!
# Signing in, and staying signed in

The routes that sign a user in without a password, beside those that ask for one: a client
certificate, shown to its own route or found before any request, a WebAuthn credential, and
the two sign-on callbacks. Each gives the browser's session to the user. Requests, the start of
a sign-on and logging out change sessions as well.
-/

namespace CaManager

open Library Sso Mtls

/-- The certificates, accounts and time, the API keys, the sessions by cookie, and the failed
second factors and credentials. -/
structure SessionState where
  mtls : MtlsState
  keys : Table ApiKey := ∅
  sessions : String → BrowserSession := fun _ => {}
  codeFailures : ℕ → Option CodeFailures := fun _ => none
  webauthnFailures : String → Option CodeFailures := fun _ => none

/-- A request to sign in. What a client certificate is, and whether a WebAuthn response is
verified, has been found out. -/
inductive SignIn
  | password (route : LoginRoute)
  | oauth2 (state code error : Option String) (exchange : OAuth2Exchange)
  | saml (outcome : SamlOutcome) (samlResponse : String)
  | mtls (p : Option Presented)
  | webauthn (username : String) (hasResponse verified : Bool)
  | clientCertificate (apiKey : Option String) (p : Option Presented)

/-- What a request to sign in leaves behind. `login` is the user that the session was given
to. -/
structure SignInAnswer where
  state : SessionState
  session : BrowserSession
  login : Option ℕ := none

namespace SessionState

def accounts (s : SessionState) : Accounts := s.mtls.accounts

def now (s : SessionState) : Time := s.mtls.now

def setAccounts (s : SessionState) (accounts : Accounts) : SessionState :=
  { s with mtls := { s.mtls with accounts } }

def elapse (s : SessionState) (seconds : ℕ) : SessionState :=
  { s with mtls := { s.mtls with now := s.mtls.now + seconds } }

def setSession (s : SessionState) (cookie : String) (session : BrowserSession) : SessionState :=
  { s with sessions := Function.update s.sessions cookie session }

section Routes

variable (s : SessionState) (session : BrowserSession)

def loginContext : LoginContext := ⟨s.accounts, session, s.codeFailures, s.now⟩

def passwordAnswer [AccountLibrary] : LoginRoute → LoginAnswer
  | .login username password => Login.login (s.loginContext session) username password
  | .loginPassword username password =>
    Login.loginPassword (s.loginContext session) username password
  | .login2fa code => Login.login2fa (s.loginContext session) code
  | .ldapLogin d username password providerId =>
    Login.ldapLogin d (s.loginContext session) username password providerId

def ofSsoAnswer (answer : SsoAnswer) : SignInAnswer :=
  ⟨s.setAccounts answer.accounts, answer.session, answer.login⟩

variable [X509Library] [DigestLibrary]

/-- `login_mtls` -/
def loginMtls (p : Option Presented) : SignInAnswer :=
  match p with
  | none => ⟨s, session, none⟩
  | some p =>
    match authenticateCertificate s.mtls p.info with
    | .error _ => ⟨s, session, none⟩
    | .ok (u, _, mtls) =>
      ⟨{ s with mtls }.setAccounts (mtls.accounts.setUser u.id (Login.signedInRow s.now)),
        { userId := some u.id, username := some u.username, authMethod := some "mtls" }, some u.id⟩

/-- `webauthn_verify` -/
def webauthnVerify (username : String) (hasResponse verified : Bool) : SignInAnswer :=
  if username = "" || !hasResponse then ⟨s, session, none⟩
  else
    let (locked, failures) := Login.check2faLockout s.webauthnFailures username s.now
    let s := { s with webauthnFailures := failures }
    if locked then ⟨s, session, none⟩
    else
      match (s.accounts.userNamed username).filter User.active with
      | none => ⟨s, session, none⟩
      | some u =>
        if verified then
          let s := { s with webauthnFailures := Function.update failures username none }
          ⟨s.setAccounts (s.accounts.setUser u.id (Login.signedInRow s.now)),
            { userId := some u.id, username := some u.username, authMethod := some "webauthn" },
            some u.id⟩
        else
          ⟨{ s with webauthnFailures := Login.record2faFailure failures username s.now }, session,
            none⟩

/-- `is_mtls_enabled` -/
def isMtlsEnabled (st : Accounts) : Bool :=
  ((st.settings "mtls_enabled").filter (· ≠ "")).any fun v => lower v ∈ ["true", "1", "yes"]

/-- The end of `process_client_certificate`: the certificate signs in whoever it belongs to. -/
def certificateLogin (p : Option Presented) : SignInAnswer :=
  if isMtlsEnabled s.accounts = false then ⟨s, session, none⟩
  else
    match p with
    | none => ⟨s, session, none⟩
    | some p =>
      match authenticateCertificate s.mtls p.info with
      | .error _ => ⟨s, session, none⟩
      | .ok (u, _, mtls) =>
        ⟨{ s with mtls },
          { session with
            userId := some u.id, username := some u.username, authMethod := some "certificate"
            loginTime := some s.now, lastActivity := some s.now },
          some u.id⟩

/-- `process_client_certificate`, which runs before every request: a session that is valid is
left alone, and one that is not is cleared first. -/
def processClientCertificate [HashLibrary] (apiKey : Option String) (p : Option Presented) :
    SignInAnswer :=
  if session.userId.isSome && session.authMethod = some "certificate" then ⟨s, session, none⟩
  else if session.userId.isSome then
    match AuthManager.authenticateRequest s.accounts s.keys s.now ⟨apiKey, session⟩ with
    | (some _, keys, session) => ⟨{ s with keys }, session, none⟩
    | (none, keys, _) => certificateLogin { s with keys } {} p
  else certificateLogin s session p

def signIn [AccountLibrary] [XmlLibrary] [HashLibrary] : SignIn → SignInAnswer
  | .password route =>
    let answer := s.passwordAnswer session route
    ⟨{ s.setAccounts answer.accounts with codeFailures := answer.codeFailures }, answer.session,
      answer.login⟩
  | .oauth2 state code error exchange =>
    s.ofSsoAnswer (oauth2Callback s.accounts session state code error exchange s.now)
  | .saml outcome samlResponse =>
    s.ofSsoAnswer (samlCallback s.accounts session outcome samlResponse s.now)
  | .mtls p => s.loginMtls session p
  | .webauthn username hasResponse verified => s.webauthnVerify session username hasResponse verified
  | .clientCertificate apiKey p => s.processClientCertificate session apiKey p

end Routes

end SessionState

namespace Sessions

/-- What a browser does with its session, or anything that the rest of the program does to the
accounts, certificates and keys. -/
inductive Action
  | signIn (route : SignIn)
  | startSso (providerType : ProviderType) (state : String)
  | request (apiKey : Option String)
  | logout (apiKey : Option String)
  | elsewhere (accounts : Accounts) (store : Store) (keys : Table ApiKey)

/-- An action, some time after the last one, of the browser with a cookie. -/
structure Event where
  elapsed : ℕ := 0
  cookie : String
  action : Action

/-- The state, and when the session of each cookie was last given to a user. -/
structure History where
  state : SessionState
  signedInAt : String → Option Time := fun _ => none

def History.arrived (h : History) (e : Event) : SessionState := h.state.elapse e.elapsed

variable [X509Library] [DigestLibrary] [AccountLibrary] [XmlLibrary] [HashLibrary]

def authenticate (s : SessionState) (cookie : String) (apiKey : Option String) :
    Option AuthResult × Table ApiKey × BrowserSession :=
  AuthManager.authenticateRequest s.accounts s.keys s.now ⟨apiKey, s.sessions cookie⟩

def step (h : History) (e : Event) : History :=
  let s := h.arrived e
  match e.action with
  | .signIn route =>
    let answer := s.signIn (s.sessions e.cookie) route
    { state := answer.state.setSession e.cookie answer.session
      signedInAt :=
        if answer.login.isSome then Function.update h.signedInAt e.cookie (some s.now)
        else h.signedInAt }
  | .startSso providerType state =>
    if (s.accounts.providers.first fun p => p.providerType = providerType && p.enabled).isSome then
      { h with
        state := s.setSession e.cookie { s.sessions e.cookie with ssoState := some state } }
    else { h with state := s }
  | .request apiKey =>
    let (_, keys, session) := authenticate s e.cookie apiKey
    { h with state := { s with keys }.setSession e.cookie session }
  | .logout apiKey =>
    let (result, keys, session) := authenticate s e.cookie apiKey
    { h with
      state := { s with keys }.setSession e.cookie (if result.isSome then {} else session) }
  | .elsewhere accounts store keys =>
    { h with state := { s with keys, mtls := { s.mtls with accounts, store } } }

end Sessions

end CaManager
