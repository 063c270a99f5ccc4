import CaManager.Accounts.SecondFactor
import CaManager.Accounts.SignIns
import CaManager.Library.Machines

/-!
# The lifetime of sessions

A session should end when the longest lifetime that is configured has passed since it was given
to its user, however active it is. Only two of the ways to sign in write down when that was, and
the others that leave the session as it is may find an earlier time in it.
-/

namespace CaManager

open Library

namespace SignIn

def writesLoginTime : SignIn → Bool
  | password (.login _ _) => true
  | clientCertificate _ _ => true
  | _ => false

def keepsSession : SignIn → Bool
  | password (.ldapLogin _ _ _ _) => true
  | oauth2 _ _ _ _ => true
  | saml _ _ => true
  | _ => false

def loginTime (route : SignIn) (session : BrowserSession) (now : Time) : Option Time :=
  if route.writesLoginTime then some now
  else if route.keepsSession then session.loginTime
  else none

end SignIn

namespace Sessions

/-- However active the session of a cookie is, whatever the accounts and settings are by then, it
is accepted at no time when the longest lifetime has passed since it was given to its user. -/
def Expires (h : History) : Prop :=
  ∀ cookie st now lastActivity,
    (AuthManager.verifySession st { h.state.sessions cookie with lastActivity } now).1.isSome →
    ∃ t, h.signedInAt cookie = some t ∧ now - t ≤ AuthManager.sessionMaxLifetime st

/-- A session that belongs to a user knows a login time, and not a later one than it has. -/
def Known (session : BrowserSession) (signedInAt : Option Time) : Prop :=
  session.userId ≠ none →
    ∃ loginTime t, session.loginTime = some loginTime ∧ signedInAt = some t ∧ loginTime ≤ t

section Verification

variable {h : History}

theorem Expires.of_accepted (hexpires : Expires h) {cookie : String} {st : Accounts} {now : Time}
    (haccepted : (AuthManager.verifySession st (h.state.sessions cookie) now).1.isSome) :
    ∃ t, h.signedInAt cookie = some t ∧ now - t ≤ AuthManager.sessionMaxLifetime st :=
  hexpires cookie st now (h.state.sessions cookie).lastActivity haccepted

def onlyUser (id : ℕ) : Accounts :=
  { users := ⟨[{ id, username := "", email := "", passwordHash := "" }], List.pairwise_singleton _ _⟩ }

theorem verifySession_onlyUser {id : ℕ} {session : BrowserSession} {now : Time}
    (huser : session.userId = some id) (hidle : session.lastActivity = none)
    (hold : ∀ t ∈ session.loginTime, now - t ≤ 86400) :
    (AuthManager.verifySession (onlyUser id) session now).1.isSome := by
  have hget : (onlyUser id).users.get? id =
      some { id, username := "", email := "", passwordHash := "" } :=
    Table.get?_eq_some_iff.mpr ⟨List.mem_singleton_self _, rfl⟩
  have hnever : ∀ t ∈ session.lastActivity, now - t ≤ AuthManager.sessionTimeout (onlyUser id) := by
    intro t ht
    rw [hidle] at ht
    cases ht
  have hverify := verifySession_eq_some.mpr
    ⟨id, _, huser, hget, rfl, hold, hnever, rfl, rfl⟩
  rw [hverify]
  rfl

theorem expires_iff : Expires h ↔
    ∀ cookie, Known (h.state.sessions cookie) (h.signedInAt cookie) := by
  constructor
  · intro hexpires cookie huser
    obtain ⟨id, hid⟩ := Option.ne_none_iff_exists'.mp huser
    have haccepted := fun (now : Time) (hold : ∀ t ∈ (h.state.sessions cookie).loginTime, now - t ≤ 86400) =>
      hexpires cookie (onlyUser id) now none
        (verifySession_onlyUser hid rfl hold)
    cases hlogin : (h.state.sessions cookie).loginTime with
    | none =>
      -- a session that knows no login time is accepted at any time
      have hany : ∀ now, ∃ t, h.signedInAt cookie = some t ∧ now - t ≤ 86400 := by
        intro now
        refine haccepted now fun t ht => ?_
        rw [hlogin] at ht
        cases ht
      obtain ⟨t, ht, _⟩ := hany 0
      obtain ⟨t', ht', hle⟩ := hany (t + 86401)
      rw [ht, Option.some.injEq] at ht'
      rw [← ht', add_sub_cancel_left] at hle
      exact absurd hle (by decide)
    | some loginTime =>
      obtain ⟨t, ht, hle⟩ := haccepted (loginTime + 86400) fun t ht => by
        rw [hlogin, Option.mem_some_iff] at ht
        rw [← ht, add_sub_cancel_left]
      refine ⟨loginTime, t, rfl, ht, ?_⟩
      have hmax : AuthManager.sessionMaxLifetime (onlyUser id) = 86400 := rfl
      rw [hmax, sub_le_iff_le_add, add_comm] at hle
      exact le_of_add_le_add_left hle
  · intro hknown cookie st now lastActivity haccepted
    obtain ⟨result, hresult⟩ := Option.isSome_iff_exists.mp haccepted
    obtain ⟨id, u, hid, _, _, hold, _⟩ := verifySession_eq_some.mp (Prod.ext hresult rfl)
    have huser : (h.state.sessions cookie).userId ≠ none := by
      intro hnone
      cases hid.symm.trans hnone
    obtain ⟨loginTime, t, hlogin, ht, hle⟩ := hknown cookie huser
    have hlifetime := hold loginTime hlogin
    exact ⟨t, ht, (sub_le_sub_left hle now).trans hlifetime⟩

end Verification

/-- What becomes of a session: it is left as it was but for its activity, it belongs to nobody, or
it was given to a user. -/
inductive Outcome (session : BrowserSession) (loginTime : Option Time) :
    BrowserSession → Option ℕ → Prop
  | kept {session' : BrowserSession} (huser : session'.userId = session.userId)
    (hlogin : session'.loginTime = session.loginTime) : Outcome session loginTime session' none
  | cleared {session' : BrowserSession} (huser : session'.userId = none)
    (hlogin : session'.loginTime = none) : Outcome session loginTime session' none
  | signedIn {session' : BrowserSession} (id : ℕ) (huser : session'.userId = some id)
    (hlogin : session'.loginTime = loginTime) : Outcome session loginTime session' (some id)

theorem Outcome.of_cleared {session session' : BrowserSession} {loginTime : Option Time}
    {login : Option ℕ} (h : Outcome {} loginTime session' login) :
    Outcome session loginTime session' login := by
  cases h with
  | kept huser hlogin => exact .cleared huser hlogin
  | cleared huser hlogin => exact .cleared huser hlogin
  | signedIn id huser hlogin => exact .signedIn id huser hlogin

theorem known_outcome_iff {session session' : BrowserSession} {loginTime signedInAt : Option Time}
    {login : Option ℕ} {now : Time} (hout : Outcome session loginTime session' login)
    (hknown : Known session signedInAt) (hpast : ∀ t ∈ loginTime, t ≤ now) :
    Known session' (if login.isSome then some now else signedInAt) ↔
      (login.isSome → loginTime.isSome) := by
  cases hout with
  | kept huser hlogin =>
    refine iff_of_true ?_ (by simp)
    intro hne
    rw [huser] at hne
    rw [hlogin]
    exact hknown hne
  | cleared huser hlogin => exact iff_of_true (fun hne => absurd huser hne) (by simp)
  | signedIn id huser hlogin =>
    constructor
    · intro hknown' _
      obtain ⟨t, _, ht, _⟩ := hknown' (huser ▸ Option.some_ne_none id)
      rw [← hlogin, ht]
      rfl
    · intro htimed _
      obtain ⟨t, ht⟩ := Option.isSome_iff_exists.mp (htimed rfl)
      exact ⟨t, now, hlogin.trans ht, rfl, hpast t ht⟩

section Routes

open Sso

variable {session : BrowserSession} {loginTime : Option Time}

theorem outcome_same : Outcome session loginTime session none := .kept rfl rfl

section Passwords

variable [AccountLibrary] {c : LoginContext}

theorem outcome_login (username password : String) :
    Outcome c.session (some c.now) (Login.login c username password).session
      (Login.login c username password).login := by
  unfold Login.login
  split_ifs
  · exact outcome_same
  · split
    · exact outcome_same
    · unfold Login.loginUnlocked
      split
      · exact outcome_same
      · split_ifs
        · exact .signedIn _ rfl rfl
        · exact outcome_same

theorem outcome_loginPassword (username password : String) :
    Outcome c.session none (Login.loginPassword c username password).session
      (Login.loginPassword c username password).login := by
  unfold Login.loginPassword
  split_ifs
  · exact outcome_same
  · split
    · exact outcome_same
    · split_ifs
      · exact outcome_same
      · exact outcome_same
      · exact .cleared rfl rfl
      · exact .signedIn _ rfl rfl

theorem outcome_login2fa (code : String) :
    Outcome c.session none (Login.login2fa c code).session (Login.login2fa c code).login := by
  unfold Login.login2fa
  split
  · exact outcome_same
  · dsimp only
    split_ifs
    · exact outcome_same
    · exact outcome_same
    · split
      · exact .cleared rfl rfl
      · split_ifs
        · exact .cleared rfl rfl
        · split
          · exact outcome_same
          · split_ifs
            · exact .signedIn _ rfl rfl
            · split
              · exact .signedIn _ rfl rfl
              · exact outcome_same
              · exact outcome_same

omit [AccountLibrary] in
theorem outcome_ldapLogin (d : LdapDirectory) (username password : String)
    (providerId : Option ℕ) :
    Outcome c.session c.session.loginTime (Login.ldapLogin d c username password providerId).session
      (Login.ldapLogin d c username password providerId).login := by
  unfold Login.ldapLogin
  split_ifs
  · exact outcome_same
  · split
    · exact outcome_same
    · unfold Login.ldapLoginUnlocked
      split
      · exact outcome_same
      · split_ifs
        · exact outcome_same
        · split
          · exact outcome_same
          · split
            · exact outcome_same
            · exact outcome_same
            · exact .signedIn _ rfl rfl

end Passwords

theorem outcome_oauth2Callback (st : Accounts) (state code error : Option String)
    (exchange : OAuth2Exchange) (now : Time) :
    Outcome session session.loginTime (oauth2Callback st session state code error exchange now).session
      (oauth2Callback st session state code error exchange now).login := by
  unfold oauth2Callback
  dsimp only
  split
  · exact outcome_same
  · split_ifs
    · exact outcome_same
    · exact outcome_same
    · split
      · exact outcome_same
      · exact outcome_same
      · exact outcome_same
      · exact outcome_same
      · split
        · exact outcome_same
        · split_ifs
          · exact outcome_same
          · split
            · split
              · exact .signedIn _ rfl rfl
              · exact outcome_same
            · exact outcome_same
            · exact outcome_same
      · exact outcome_same

theorem outcome_samlCallback [XmlLibrary] (st : Accounts) (outcome : SamlOutcome)
    (samlResponse : String) (now : Time) :
    Outcome session session.loginTime (samlCallback st session outcome samlResponse now).session
      (samlCallback st session outcome samlResponse now).login := by
  unfold samlCallback
  split
  · exact outcome_same
  · split
    · exact outcome_same
    · split
      · exact outcome_same
      · split_ifs
        · exact outcome_same
        · split
          · exact .signedIn _ rfl rfl
          · exact outcome_same
          · exact outcome_same

/-- A session that is accepted is left as it was but for its activity, and one that is not is left
or cleared. -/
theorem outcome_authenticateRequest [HashLibrary] (st : Accounts) (keys : Table ApiKey) (now : Time)
    (apiKey : Option String) :
    Outcome session loginTime
      (AuthManager.authenticateRequest st keys now ⟨apiKey, session⟩).2.2 none := by
  unfold AuthManager.authenticateRequest
  cases (apiKey.filter (· ≠ "")).bind (AuthManager.verifyApiKey st keys now) with
  | some found => exact outcome_same
  | none =>
    dsimp only
    unfold AuthManager.verifySession
    split
    · exact outcome_same
    · split_ifs
      · exact .cleared rfl rfl
      · exact .cleared rfl rfl
      · exact .kept rfl rfl

end Routes

section SignIns

theorem now_of_authenticateCertificate [X509Library] [DigestLibrary] {m m' : MtlsState}
    {info : CertInfo} {u : User} {a : AuthCertificate} (h : Mtls.authenticateCertificate m info = .ok (u, a, m')) :
    m'.now = m.now := by
  simp only [Mtls.authenticateCertificate, bind_eq_ok, pure_eq_ok, Prod.mk.injEq] at h
  obtain ⟨_, _, _, _, _, _, _, _, _, _, _, _, _, _, _, _, rfl⟩ := h
  rfl

variable [X509Library] [DigestLibrary] {s : SessionState} {session : BrowserSession}

theorem outcome_loginMtls (p : Option Mtls.Presented) :
    Outcome session none (s.loginMtls session p).session (s.loginMtls session p).login := by
  unfold SessionState.loginMtls
  split
  · exact outcome_same
  · split
    · exact outcome_same
    · exact .signedIn _ rfl rfl

omit [X509Library] [DigestLibrary] in
theorem outcome_webauthnVerify (username : String) (hasResponse verified : Bool) :
    Outcome session none (s.webauthnVerify session username hasResponse verified).session
      (s.webauthnVerify session username hasResponse verified).login := by
  unfold SessionState.webauthnVerify
  split
  · exact outcome_same
  · dsimp only
    split
    · exact outcome_same
    · split
      · exact outcome_same
      · split
        · exact .signedIn _ rfl rfl
        · exact outcome_same

theorem outcome_certificateLogin (p : Option Mtls.Presented) :
    Outcome session (some s.now) (s.certificateLogin session p).session
      (s.certificateLogin session p).login := by
  unfold SessionState.certificateLogin
  split_ifs
  · exact outcome_same
  · split
    · exact outcome_same
    · split
      · exact outcome_same
      · exact .signedIn _ rfl rfl

theorem outcome_processClientCertificate [HashLibrary] (apiKey : Option String)
    (p : Option Mtls.Presented) :
    Outcome session (some s.now) (s.processClientCertificate session apiKey p).session
      (s.processClientCertificate session apiKey p).login := by
  unfold SessionState.processClientCertificate
  split_ifs
  · exact outcome_same
  · have hauth : Outcome session (some s.now) _ none :=
      outcome_authenticateRequest s.accounts s.keys s.now apiKey
    split
    · next heq =>
      rw [heq] at hauth
      exact hauth
    · next keys _ _ =>
      exact (outcome_certificateLogin (s := { s with keys }) p).of_cleared
  · exact outcome_certificateLogin p

variable [AccountLibrary] [XmlLibrary] [HashLibrary]

theorem outcome_signIn (route : SignIn) :
    Outcome session (route.loginTime session s.now) (s.signIn session route).session
      (s.signIn session route).login := by
  unfold SessionState.signIn
  cases route with
  | password route =>
    cases route with
    | login username password => exact outcome_login (c := s.loginContext session) username password
    | loginPassword username password =>
      exact outcome_loginPassword (c := s.loginContext session) username password
    | login2fa code => exact outcome_login2fa (c := s.loginContext session) code
    | ldapLogin d username password providerId =>
      exact outcome_ldapLogin (c := s.loginContext session) d username password providerId
  | oauth2 state code error exchange => exact outcome_oauth2Callback _ state code error exchange _
  | saml outcome samlResponse => exact outcome_samlCallback _ outcome samlResponse _
  | mtls p => exact outcome_loginMtls p
  | webauthn username hasResponse verified =>
    exact outcome_webauthnVerify username hasResponse verified
  | clientCertificate apiKey p => exact outcome_processClientCertificate apiKey p

/-- The rest of a state after signing in: other sessions are as they were, and no time passed. -/
structure SameTimes (s s' : SessionState) : Prop where
  sessions : s'.sessions = s.sessions
  now : s'.now = s.now

omit [AccountLibrary] [XmlLibrary] [HashLibrary] in
theorem sameTimes_loginMtls (p : Option Mtls.Presented) :
    SameTimes s (s.loginMtls session p).state := by
  unfold SessionState.loginMtls
  split
  · exact ⟨rfl, rfl⟩
  · split
    · exact ⟨rfl, rfl⟩
    · next heq =>
        have hnow := now_of_authenticateCertificate heq
        exact ⟨rfl, hnow⟩

omit [AccountLibrary] [XmlLibrary] [HashLibrary] in
theorem sameTimes_certificateLogin (p : Option Mtls.Presented) :
    SameTimes s (s.certificateLogin session p).state := by
  unfold SessionState.certificateLogin
  split
  · exact ⟨rfl, rfl⟩
  · split
    · exact ⟨rfl, rfl⟩
    · split
      · exact ⟨rfl, rfl⟩
      · next heq =>
          have hnow := now_of_authenticateCertificate heq
          exact ⟨rfl, hnow⟩

theorem sameTimes_signIn (route : SignIn) : SameTimes s (s.signIn session route).state := by
  unfold SessionState.signIn
  cases route with
  | password | oauth2 | saml => exact ⟨rfl, rfl⟩
  | mtls p => exact sameTimes_loginMtls p
  | webauthn username hasResponse verified =>
    change SameTimes s (s.webauthnVerify session username hasResponse verified).state
    unfold SessionState.webauthnVerify
    split
    · exact ⟨rfl, rfl⟩
    · dsimp only
      split
      · exact ⟨rfl, rfl⟩
      · split
        · exact ⟨rfl, rfl⟩
        · split <;> exact ⟨rfl, rfl⟩
  | clientCertificate apiKey p =>
    change SameTimes s (s.processClientCertificate session apiKey p).state
    unfold SessionState.processClientCertificate
    split
    · exact ⟨rfl, rfl⟩
    · split
      · split
        · exact ⟨rfl, rfl⟩
        · next keys _ _ =>
          have hlogin : SameTimes { s with keys }
              (SessionState.certificateLogin { s with keys } {} p).state :=
            sameTimes_certificateLogin p
          exact ⟨hlogin.sessions, hlogin.now⟩
      · exact sameTimes_certificateLogin p

end SignIns

section Steps

def History.session (h : History) (e : Event) : BrowserSession := h.state.sessions e.cookie

def History.time (h : History) (e : Event) : Time := (h.arrived e).now

theorem le_time (h : History) (e : Event) : h.state.now ≤ h.time e := Int.le.intro e.elapsed rfl

def newLoginTime (h : History) (e : Event) : Option Time :=
  match e.action with
  | .signIn route => route.loginTime (h.session e) (h.time e)
  | _ => none

def Past (h : History) : Prop :=
  ∀ cookie, ∀ t ∈ (h.state.sessions cookie).loginTime, t ≤ h.state.now

theorem past_newLoginTime {h : History} (hpast : Past h) (e : Event) :
    ∀ t ∈ newLoginTime h e, t ≤ h.time e := by
  intro t ht
  unfold newLoginTime at ht
  cases haction : e.action with
  | signIn route =>
    rw [haction] at ht
    simp only [SignIn.loginTime] at ht
    split_ifs at ht
    · exact (Option.some.inj ht).symm.le
    · exact (hpast e.cookie t ht).trans (le_time h e)
    · cases ht
  | startSso | request | logout | elsewhere =>
    rw [haction] at ht
    cases ht

variable [X509Library] [DigestLibrary] [AccountLibrary] [XmlLibrary] [HashLibrary] {h : History}

def login (h : History) (e : Event) : Option ℕ :=
  match e.action with
  | .signIn route => ((h.arrived e).signIn (h.session e) route).login
  | _ => none

/-- Signing in writes a login time into the session, or keeps the one that is there. -/
def Timed (h : History) (e : Event) : Prop :=
  (login h e).isSome → (newLoginTime h e).isSome

instance (h : History) (e : Event) : Decidable (Timed h e) :=
  inferInstanceAs (Decidable (_ → _))

theorem step_spec (h : History) (e : Event) : ∃ session',
    Outcome (h.session e) (newLoginTime h e) session' (login h e) ∧
      (step h e).state.sessions = Function.update h.state.sessions e.cookie session' ∧
      (step h e).state.now = h.time e ∧
      (step h e).signedInAt = if (login h e).isSome then
        Function.update h.signedInAt e.cookie (some (h.time e)) else h.signedInAt := by
  obtain ⟨elapsed, cookie, action⟩ := e
  cases action with
  | signIn route =>
    have hsame : SameTimes (h.state.elapse elapsed)
        ((h.state.elapse elapsed).signIn (h.state.sessions cookie) route).state :=
      sameTimes_signIn route
    refine ⟨_, outcome_signIn route, ?_, hsame.now, rfl⟩
    exact congrArg (Function.update · cookie _) hsame.sessions
  | startSso providerType state =>
    simp only [step, login]
    split
    · exact ⟨{ h.state.sessions cookie with ssoState := some state }, .kept rfl rfl, rfl, rfl, rfl⟩
    · exact ⟨h.state.sessions cookie, outcome_same, (Function.update_eq_self _ _).symm, rfl, rfl⟩
  | request apiKey =>
    exact ⟨_, outcome_authenticateRequest _ _ _ apiKey, rfl, rfl, rfl⟩
  | logout apiKey =>
    simp only [step, login]
    split
    · exact ⟨{}, .cleared rfl rfl, rfl, rfl, rfl⟩
    · exact ⟨_, outcome_authenticateRequest _ _ _ apiKey, rfl, rfl, rfl⟩
  | elsewhere accounts store keys =>
    exact ⟨h.state.sessions cookie, outcome_same, (Function.update_eq_self _ _).symm, rfl, rfl⟩

theorem past_step (hpast : Past h) (e : Event) : Past (step h e) := by
  obtain ⟨session', hout, hsessions, hnow, _⟩ := step_spec h e
  intro cookie t ht
  rw [hsessions] at ht
  rw [hnow]
  by_cases hcookie : cookie = e.cookie
  · subst hcookie
    rw [Function.update_self] at ht
    cases hlogin : login h e with
    | none =>
      rw [hlogin] at hout
      cases hout with
      | kept _ hsame =>
        rw [hsame] at ht
        exact (hpast e.cookie t ht).trans (le_time h e)
      | cleared _ hnone =>
        rw [hnone] at ht
        cases ht
    | some id =>
      rw [hlogin] at hout
      cases hout with
      | signedIn _ _ hnew =>
        rw [hnew] at ht
        exact past_newLoginTime hpast e t ht
  · rw [Function.update_of_ne hcookie] at ht
    exact (hpast cookie t ht).trans (le_time h e)

theorem expires_step_iff (hpast : Past h) (hexpires : Expires h) (e : Event) :
    Expires (step h e) ↔ Timed h e := by
  obtain ⟨session', hout, hsessions, _, hsigned⟩ := step_spec h e
  have hknown := expires_iff.mp hexpires
  have hself := known_outcome_iff hout (hknown e.cookie) (past_newLoginTime hpast e)
  have hat : (step h e).signedInAt e.cookie =
      if (login h e).isSome then some (h.time e) else h.signedInAt e.cookie := by
    rw [hsigned]
    split_ifs
    · exact Function.update_self _ _ _
    · rfl
  rw [expires_iff]
  constructor
  · intro hall
    have hcookie := hall e.cookie
    rw [hsessions, Function.update_self, hat] at hcookie
    exact hself.mp hcookie
  · intro htimed cookie
    by_cases hcookie : cookie = e.cookie
    · rw [hcookie, hsessions, Function.update_self, hat]
      exact hself.mpr htimed
    · have hother : (step h e).signedInAt cookie = h.signedInAt cookie := by
        rw [hsigned]
        split_ifs
        · exact Function.update_of_ne hcookie _ _
        · rfl
      rw [hsessions, Function.update_of_ne hcookie, hother]
      exact hknown cookie

end Steps

/-- From any state in which nobody is signed in, in every state that a run reaches each session
ends with the longest lifetime, however active it is, exactly if every sign-in of the run is
timed. -/
theorem expires_run_iff [X509Library] [DigestLibrary] [AccountLibrary] [XmlLibrary] [HashLibrary]
    (mtls : MtlsState) (keys : Table ApiKey) (codeFailures : ℕ → Option CodeFailures)
    (webauthnFailures : String → Option CodeFailures) (es : List Event) :
    (∀ pre, pre <+: es → Expires
      (run step { state := ⟨mtls, keys, fun _ => {}, codeFailures, webauthnFailures⟩ } pre)) ↔
      Meets step Timed { state := ⟨mtls, keys, fun _ => {}, codeFailures, webauthnFailures⟩ } es := by
  refine forall_prefix_iff_meets (P := Expires) (I := Past)
    (fun h e hpast hexpires => expires_step_iff hpast hexpires e)
    (fun h e hpast _ _ => past_step hpast e) es (fun cookie t ht => ?_)
    (expires_iff.mpr fun cookie hne => absurd rfl hne)
  cases ht

section Sample

def oneUser : History where
  state :=
    { mtls :=
        { store := ⟨∅, ∅, ∅, ∅, none⟩
          accounts :=
            { users := (∅ : Table User).insert
                { username := "ann", email := "ann@ca", passwordHash := "secret" } }
          now := 0 } }

def activeRun : List Event :=
  ⟨0, "c", .signIn (.password (.loginPassword "ann" "secret"))⟩ ::
    List.replicate 4 ⟨25200, "c", .request none⟩

def stillActive : History :=
  let _ := sampleLibrary
  let _ := Mtls.sampleDigests
  let _ := SecondFactor.sampleAccountLibrary
  let _ := Sso.sampleXml
  let _ := spelledHash
  run step oneUser activeRun

/-- The session that is still accepted after 28 hours has outlived its 24 hours. -/
theorem active_session_outlives_limit :
    (AuthManager.verifySession stillActive.state.accounts (stillActive.state.sessions "c")
        stillActive.state.now).1.isSome ∧
      stillActive.signedInAt "c" = some 0 ∧ stillActive.state.now = 100800 ∧
      AuthManager.sessionMaxLifetime stillActive.state.accounts = 86400 ∧
      ¬Expires stillActive := by
  have haccepted : (AuthManager.verifySession stillActive.state.accounts
      (stillActive.state.sessions "c") stillActive.state.now).1.isSome := by decide +kernel
  have hsigned : stillActive.signedInAt "c" = some 0 := by decide +kernel
  have hmax : AuthManager.sessionMaxLifetime stillActive.state.accounts = 86400 := by decide +kernel
  have hnow : stillActive.state.now = 100800 := by decide +kernel
  refine ⟨haccepted, hsigned, hnow, hmax, fun hexpires => ?_⟩
  obtain ⟨t, ht, hle⟩ := hexpires.of_accepted haccepted
  rw [hsigned, Option.some.injEq] at ht
  rw [← ht, hnow, hmax] at hle
  exact absurd hle (by decide)

end Sample

end Sessions

end CaManager
