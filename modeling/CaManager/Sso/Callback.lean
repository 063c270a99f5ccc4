import CaManager.Sso.Users

/-!
# The sign-on callback

What a provider's answer does when the browser brings it back. For a token provider the
program asks the provider itself, for a SAML provider it asks its SAML library about the
response in the form; when that library raises, the program reads the response's XML on its
own. What the library and the provider say is an argument here, whatever it is.
-/

namespace CaManager

open Library

inductive Xml
  | element (tag : String) (attributes : List (String × String)) (text : Option String)
      (children : List Xml)

namespace Xml

def tag : Xml → String
  | element tag _ _ _ => tag

def attribute? (name : String) : Xml → Option String
  | element _ attributes _ _ => attributes.lookup name

def text : Xml → Option String
  | element _ _ text _ => text

def children : Xml → List Xml
  | element _ _ _ children => children

mutual

def descendants : Xml → List Xml
  | element _ _ _ children => descendantsAmong children

def descendantsAmong : List Xml → List Xml
  | [] => []
  | x :: xs => x :: descendants x ++ descendantsAmong xs

end

/-- `root.find('.//…')` -/
def findBelow (root : Xml) (tag : String) : Option Xml :=
  root.descendants.find? fun x => x.tag = tag

/-- `root.findall('.//…')` -/
def findAllBelow (root : Xml) (tag : String) : List Xml :=
  root.descendants.filter fun x => x.tag = tag

end Xml

/-- Decoding and parsing of the XML in a form field. -/
class XmlLibrary where
  readXml : String → Option Xml

abbrev SamlAttributes := List (String × List String)

/-- What the SAML library makes of a response. It may raise before or after it has given the
attributes; a response that it processes without an error is accepted. -/
inductive SamlOutcome
  | unavailable
  | raised (attributes : SamlAttributes)
  | processed (errors : List String) (attributes : SamlAttributes) (nameId : Option String)
  deriving Repr, DecidableEq

/-- How the exchange of an authorization code ends. -/
inductive OAuth2Exchange
  | raised
  | tokenRefused
  | noAccessToken
  | userinfoRefused
  | userinfo (value : Json)

/-- A redirection, and what it leaves behind. `login` is the user the session was given to. -/
structure SsoAnswer where
  redirect : String
  accounts : Accounts
  session : BrowserSession
  login : Option ℕ := none

namespace Sso

def assertionTag (name : String) : String := "\x7burn:oasis:names:tc:SAML:2.0:assertion\x7d" ++ name

/-- Add the attributes of an XML response to those there are, each name once. -/
def addAttributes (attributes : SamlAttributes) (elements : List Xml) : SamlAttributes :=
  elements.foldl
    (fun attributes x =>
      let name := (x.attribute? "Name").getD ""
      if name = "" || (attributes.lookup name).isSome then attributes
      else
        attributes ++
          [(name, (x.children.filter fun v => v.tag = assertionTag "AttributeValue").map
            fun v => v.text.getD "")])
    attributes

/-- What the fall-back reads from the XML of a response: the first name in it, and its
attributes. No signature is looked at. -/
def readUnvalidated [XmlLibrary] (attributes : SamlAttributes) (samlResponse : String) :
    Option (SamlAttributes × Option String) := do
  let root ← XmlLibrary.readXml samlResponse
  let nameId :=
    match root.findBelow (assertionTag "NameID") with
    | some x => x.text
    | none => some ""
  return (addAttributes attributes (root.findAllBelow (assertionTag "Attribute")), nameId)

/-- The attributes and the name that the callback works with, or where it redirects to. -/
def samlAssertion [XmlLibrary] (outcome : SamlOutcome) (samlResponse : String) :
    Except String (SamlAttributes × Option String) :=
  match outcome with
  | .unavailable => .error "/login?error=callback_error"
  | .processed errors attributes nameId =>
    if errors.isEmpty then .ok (attributes, nameId)
    else .error "/login?error=saml_validation_failed"
  | .raised attributes =>
    match readUnvalidated attributes samlResponse with
    | some assertion => .ok assertion
    | none => .error "/login?error=callback_error"

/-- `attrs.get(key, [None])[0]`: a key that cannot be looked up, and an empty list of values,
raise. -/
def firstValue (attributes : SamlAttributes) (key : Json) : Option (Option String) :=
  match key with
  | .text name =>
    match attributes.lookup name with
    | some [] => none
    | some (value :: _) => some (some value)
    | none => some none
  | key => if key.hashable then some none else none

/-- The name, the address and the full name that an assertion gives its user. -/
structure Identity where
  username : String
  email : String
  fullname : String
  deriving Repr, DecidableEq

def mappedKey (mapping : Members) (field default : String) : Json :=
  (mapping.lookup field).getD (.text default)

def samlIdentity (p : SsoProvider) (attributes : SamlAttributes)
    (nameId : Option String) : Option Identity := do
  let mapping := parseJsonField p.attributeMapping
  let username ← firstValue attributes (mappedKey mapping "username" "username")
  let email ← firstValue attributes (mappedKey mapping "email" "email")
  let fullname ← firstValue attributes (mappedKey mapping "fullname" "name")
  return { username := strip (((username.filter (· ≠ "")).or nameId).getD "")
           email := strip (email.getD ""), fullname := strip (fullname.getD "") }

def samlExternalData (attributes : SamlAttributes) (nameId : Option String) : Members :=
  [("name_id", nameId.elim .null .text),
   ("attributes", .object (attributes.map fun a => (a.1, .array (a.2.map .text))))]

def trackSession (st : Accounts) (userId providerId : ℕ) (sessionId : Option String)
    (now : Time) : Accounts :=
  let expiresAt := now + 8 * 3600
  match st.ssoSessions.first fun s => s.sessionId = sessionId with
  | some s => { st with ssoSessions := st.ssoSessions.update s.id fun s => { s with expiresAt } }
  | none =>
    let row : SsoSession := { userId, providerId, sessionId, ssoNameId := sessionId, expiresAt }
    { st with ssoSessions := st.ssoSessions.insert row }

def signIn (st : Accounts) (session : BrowserSession) (userId providerId : ℕ)
    (sessionId : Option String) (method : String) (now : Time) : SsoAnswer :=
  { redirect := "/login/sso-complete"
    accounts := trackSession st userId providerId sessionId now
    session :=
      { session with
        userId := some userId, username := (st.users.get? userId).map User.username
        authMethod := some method }
    login := some userId }

def samlCallback [XmlLibrary] (st : Accounts) (session : BrowserSession)
    (outcome : SamlOutcome) (samlResponse : String) (now : Time) : SsoAnswer :=
  match st.providers.first fun p => p.providerType = .saml && p.enabled with
  | none => ⟨"/login?error=provider_not_found", st, session, none⟩
  | some p =>
    match samlAssertion outcome samlResponse with
    | .error redirect => ⟨redirect, st, session, none⟩
    | .ok (attributes, nameId) =>
      match samlIdentity p attributes nameId with
      | none => ⟨"/login?error=callback_error", st, session, none⟩
      | some who =>
        if who.username = "" then ⟨"/login?error=no_username", st, session, none⟩
        else
          match getOrCreateSsoUser st p who.username who.email who.fullname
              (samlExternalData attributes nameId) now with
          | .user id st' => signIn st' session id p.id nameId "sso" now
          | .refused code => ⟨"/login?error=" ++ code, st, session, none⟩
          -- the audit entry commits what the exception left behind
          | .raised pending => ⟨"/login?error=callback_error", pending, session, none⟩

/-- A member as text: a value that counts as false is no text, and any other raises. -/
def memberText (value : Json) : Option String :=
  match value with
  | .text s => some s
  | value => if value.truthy then none else some ""

/-- `userinfo.get(key)` -/
def member? (userinfo : Members) (key : Json) : Option (Option Json) :=
  match key with
  | .text name => some (userinfo.lookup name)
  | key => if key.hashable then some none else none

def oauth2Identity (p : SsoProvider) (userinfo : Members) : Option Identity := do
  let mapping := parseJsonField p.attributeMapping
  let preferred ← member? userinfo (mappedKey mapping "username" "preferred_username")
  let name ← memberText (preferred.getD .null)
  let username ←
    if name = "" then
      match userinfo.lookup "email" with
      | none => some ""
      | some (.text email) => some ((splitText '@' email).headD "")
      | some _ => none
    else some name
  let email ← member? userinfo (mappedKey mapping "email" "email")
  let email ← memberText (email.getD .null)
  let fullname ← member? userinfo (mappedKey mapping "fullname" "name")
  let fullname ← memberText (fullname.getD .null)
  return { username, email, fullname }

def oauth2Callback (st : Accounts) (session : BrowserSession)
    (state code error : Option String) (exchange : OAuth2Exchange) (now : Time) : SsoAnswer :=
  let failed (redirect : String) : SsoAnswer := ⟨redirect, st, session, none⟩
  match st.providers.first fun p => p.providerType = .oauth2 && p.enabled with
  | none => failed "/login?error=provider_not_found"
  | some p =>
    if state.getD "" = "" || state ≠ some (session.ssoState.getD "") then
      failed "/login?error=invalid_state"
    else if code.getD "" = "" then failed ("/login?error=" ++ error.getD "no_code")
    else
      match exchange with
      | .raised => failed "/login?error=callback_error"
      | .tokenRefused => failed "/login?error=token_exchange_failed"
      | .noAccessToken => failed "/login?error=no_access_token"
      | .userinfoRefused => failed "/login?error=userinfo_failed"
      | .userinfo (.object userinfo) =>
        match oauth2Identity p userinfo with
        | none => failed "/login?error=callback_error"
        | some who =>
          if who.username = "" then failed "/login?error=no_username"
          else
            match getOrCreateSsoUser st p who.username who.email who.fullname userinfo now with
            | .user id st' =>
              match memberText ((userinfo.lookup "sub").getD (.text who.username)) with
              | some sub => signIn st' session id p.id (some sub) "sso" now
              | none => ⟨"/login?error=callback_error", st', session, none⟩
            | .refused code => failed ("/login?error=" ++ code)
            | .raised pending => ⟨"/login?error=callback_error", pending, session, none⟩
      | .userinfo _ => failed "/login?error=callback_error"

section SamlLogin

def samlProvider (st : Accounts) : Option SsoProvider :=
  st.providers.first fun p => p.providerType = .saml && p.enabled

def NamesUser (p : SsoProvider) (attributes : SamlAttributes) (nameId : Option String)
    (u : User) : Prop :=
  ∃ who, samlIdentity p attributes nameId = some who ∧ u.username = who.username

/-- A sign-on that was given to a user was accepted by the library, and the accepted
assertion names that user. -/
def OnlyValidated (st : Accounts) (outcome : SamlOutcome) (answer : SsoAnswer) : Prop :=
  ∀ id, answer.login = some id →
    ∃ p attributes nameId u, samlProvider st = some p ∧ outcome = .processed [] attributes nameId ∧
      answer.accounts.users.get? id = some u ∧ NamesUser p attributes nameId u

/-- The library raises, and the XML it raised on can be read and names a user that a sign-on
admits. -/
def FallsBackToUser [XmlLibrary] (st : Accounts) (outcome : SamlOutcome)
    (samlResponse : String) (now : Time) : Prop :=
  ∃ p attributes assertion who, samlProvider st = some p ∧ outcome = .raised attributes ∧
    readUnvalidated attributes samlResponse = some assertion ∧
    samlIdentity p assertion.1 assertion.2 = some who ∧ who.username ≠ "" ∧
    Admits st p who.username who.email who.fullname
      (samlExternalData assertion.1 assertion.2) now

variable {st : Accounts} {session : BrowserSession} {outcome : SamlOutcome}
  {samlResponse : String} {now : Time}

@[simp] theorem users_trackSession (userId providerId : ℕ) (sessionId : Option String) :
    (trackSession st userId providerId sessionId now).users = st.users := by
  unfold trackSession
  dsimp only
  split
  · rfl
  · rfl

section Callback

variable [XmlLibrary]

/-- The callback signs a user in exactly when an assertion is read, names somebody, and the
sign-on admits who it names. -/
theorem login_samlCallback_iff {id : ℕ} :
    (samlCallback st session outcome samlResponse now).login = some id ↔
      ∃ p assertion who st', samlProvider st = some p ∧
        samlAssertion outcome samlResponse = .ok assertion ∧
        samlIdentity p assertion.1 assertion.2 = some who ∧ who.username ≠ "" ∧
        getOrCreateSsoUser st p who.username who.email who.fullname
          (samlExternalData assertion.1 assertion.2) now = .user id st' := by
  unfold samlCallback samlProvider
  cases st.providers.first fun p => p.providerType = .saml && p.enabled with
  | none => simp
  | some p =>
    cases samlAssertion outcome samlResponse with
    | error redirect => simp
    | ok assertion =>
      obtain ⟨attributes, nameId⟩ := assertion
      cases hwho : samlIdentity p attributes nameId with
      | none => simp [hwho]
      | some who =>
        by_cases hname : who.username = ""
        · simp [hwho, hname]
        · cases hresult : getOrCreateSsoUser st p who.username who.email who.fullname
              (samlExternalData attributes nameId) now with
          | user id' st' => simp [hwho, hname, hresult, signIn]
          | refused code => simp [hwho, hname, hresult]
          | raised pending => simp [hwho, hname, hresult]

theorem user_of_login_samlCallback {id : ℕ} {p : SsoProvider}
    {assertion : SamlAttributes × Option String} {who : Identity} {st' : Accounts}
    (hp : samlProvider st = some p) (hassertion : samlAssertion outcome samlResponse = .ok assertion)
    (hwho : samlIdentity p assertion.1 assertion.2 = some who) (hname : who.username ≠ "")
    (hresult : getOrCreateSsoUser st p who.username who.email who.fullname
      (samlExternalData assertion.1 assertion.2) now = .user id st') :
    ∃ u, (samlCallback st session outcome samlResponse now).accounts.users.get? id = some u ∧
      u.username = who.username := by
  obtain ⟨u, hu, hun⟩ := username_of_getOrCreateSsoUser hresult
  unfold samlProvider at hp
  have haccounts : (samlCallback st session outcome samlResponse now).accounts.users = st'.users := by
    simp [samlCallback, hp, hassertion, hwho, hname, hresult, signIn]
  exact ⟨u, haccounts ▸ hu, hun⟩

end Callback

/-- One response: unsigned XML that names `root`. -/
@[reducible] def sampleXml : XmlLibrary where
  readXml response :=
    if response = "forged" then
      some (.element "Response" [] none
        [.element (assertionTag "Assertion") [] none
          [.element (assertionTag "NameID") [] (some "root") []]])
    else none

def sampleAccounts : Accounts :=
  { users := (∅ : Table User).insert { username := "root", email := "root@ca", passwordHash := "" }
    providers := (∅ : Table SsoProvider).insert
      { name := "idp", providerType := .saml, enabled := true } }

end SamlLogin

end Sso

end CaManager
