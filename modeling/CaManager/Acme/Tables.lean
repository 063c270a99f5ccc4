import CaManager.Library.Registry
import CaManager.Store.Rows

/-!
# The rows of the certificate automation server

Accounts, orders, authorizations, challenges and nonces, each under the random text that
names it and that other rows refer to. A reference need not resolve. Columns that hold JSON
are modelled by the values they hold.
-/

namespace CaManager

open Library

/-- A public key as a JSON object. A known key type that lacks one of its members is
`incomplete`. -/
inductive Jwk
  | rsa (e n : String) (others : List (String × String))
  | ec (crv x y : String) (others : List (String × String))
  | incomplete (kty : String)
  | unsupported (kty : Option String)
  deriving Repr, DecidableEq

/-- What an order asks a name for, its members in this order. Either may be missing. -/
structure Identifier where
  type : Option String
  value : Option String
  deriving Repr, DecidableEq

/-- An error object as orders and challenges store it. -/
structure Problem where
  type : String
  detail : String
  deriving Repr, DecidableEq

inductive AccountStatus
  | valid
  | deactivated
  | revoked
  deriving Repr, DecidableEq

structure AcmeAccount where
  accountId : String
  jwk : Jwk
  jwkThumbprint : String
  contact : Option (List String)
  status : AccountStatus
  termsOfServiceAgreed : Bool
  deriving Repr, DecidableEq

inductive OrderStatus
  | pending
  | ready
  | processing
  | valid
  | invalid
  deriving Repr, DecidableEq

structure AcmeOrder where
  orderId : String
  accountId : String
  status : OrderStatus
  identifiers : List Identifier
  notBefore : Option Time
  notAfter : Option Time
  error : Option Problem
  csr : Option Csr
  certificateId : Option ℕ
  certificateUrl : Option String
  expires : Time
  deriving Repr, DecidableEq

inductive AuthorizationStatus
  | pending
  | valid
  | invalid
  | deactivated
  | expired
  | revoked
  deriving Repr, DecidableEq

structure AcmeAuthorization where
  authorizationId : String
  orderId : String
  identifier : Identifier
  status : AuthorizationStatus
  expires : Time
  deriving Repr, DecidableEq

inductive ChallengeType
  | http01
  | dns01
  | unsupported (type : String)
  deriving Repr, DecidableEq

inductive ChallengeStatus
  | pending
  | processing
  | valid
  | invalid
  deriving Repr, DecidableEq

structure AcmeChallenge where
  challengeId : String
  authorizationId : String
  type : ChallengeType
  status : ChallengeStatus
  token : String
  url : Option String
  validated : Option Time
  error : Option Problem
  deriving Repr, DecidableEq

structure AcmeNonce where
  token : String
  expiresAt : Time
  used : Bool
  deriving Repr, DecidableEq

instance : Named AcmeAccount := ⟨AcmeAccount.accountId⟩

instance : Named AcmeOrder := ⟨AcmeOrder.orderId⟩

instance : Named AcmeAuthorization := ⟨AcmeAuthorization.authorizationId⟩

instance : Named AcmeChallenge := ⟨AcmeChallenge.challengeId⟩

instance : Named AcmeNonce := ⟨AcmeNonce.token⟩

/-- The tables of the server, beside the certificate store it issues into and the settings
that name the issuing authority of a domain. -/
structure AcmeStore where
  store : Store
  accounts : Registry AcmeAccount
  orders : Registry AcmeOrder
  authorizations : Registry AcmeAuthorization
  challenges : Registry AcmeChallenge
  nonces : Registry AcmeNonce
  localDomains : List (String × ℕ)
  domains : List (String × Option ℕ)
  issuingCaId : Option String
  baseUrl : String

namespace AcmeStore

variable (st : AcmeStore)

/-- The `authorizations` of an order. -/
def authorizationsOf (orderId : String) : List AcmeAuthorization :=
  st.authorizations.select fun a => a.orderId = orderId

/-- The `order` of an authorization. -/
def orderOf (a : AcmeAuthorization) : Option AcmeOrder :=
  st.orders.find? a.orderId

/-- The `authorization` of a challenge. -/
def authorizationOf (c : AcmeChallenge) : Option AcmeAuthorization :=
  st.authorizations.find? c.authorizationId

def orderOwner (orderId : String) : Option String :=
  (st.orders.find? orderId).map AcmeOrder.accountId

def authorizationOwner (authorizationId : String) : Option String :=
  (st.authorizations.find? authorizationId).bind fun a => st.orderOwner a.orderId

def challengeOwner (challengeId : String) : Option String :=
  (st.challenges.find? challengeId).bind fun c => st.authorizationOwner c.authorizationId

def setAccount (accountId : String) (f : AcmeAccount → AcmeAccount)
    (hf : ∀ r, (f r).accountId = r.accountId := by intro; rfl) : AcmeStore :=
  { st with accounts := st.accounts.modify accountId f hf }

def setOrder (orderId : String) (f : AcmeOrder → AcmeOrder)
    (hf : ∀ r, (f r).orderId = r.orderId := by intro; rfl) : AcmeStore :=
  { st with orders := st.orders.modify orderId f hf }

def setAuthorization (authorizationId : String) (f : AcmeAuthorization → AcmeAuthorization)
    (hf : ∀ r, (f r).authorizationId = r.authorizationId := by intro; rfl) : AcmeStore :=
  { st with authorizations := st.authorizations.modify authorizationId f hf }

def setChallenge (challengeId : String) (f : AcmeChallenge → AcmeChallenge)
    (hf : ∀ r, (f r).challengeId = r.challengeId := by intro; rfl) : AcmeStore :=
  { st with challenges := st.challenges.modify challengeId f hf }

section Updates

variable {st}

theorem find?_setAccount {accountId : String} {f : AcmeAccount → AcmeAccount}
    {hf : ∀ r, (f r).accountId = r.accountId} {r : AcmeAccount}
    (h : st.accounts.find? accountId = some r) :
    (st.setAccount accountId f hf).accounts.find? accountId = some (f r) :=
  Registry.find?_modify_of_some f hf h

theorem find?_setOrder {orderId : String} {f : AcmeOrder → AcmeOrder}
    {hf : ∀ r, (f r).orderId = r.orderId} {r : AcmeOrder} (h : st.orders.find? orderId = some r) :
    (st.setOrder orderId f hf).orders.find? orderId = some (f r) :=
  Registry.find?_modify_of_some f hf h

theorem find?_setOrder_of_ne {orderId id : String} {f : AcmeOrder → AcmeOrder}
    {hf : ∀ r, (f r).orderId = r.orderId} (h : id ≠ orderId) :
    (st.setOrder orderId f hf).orders.find? id = st.orders.find? id :=
  Registry.find?_modify_of_ne f hf h

end Updates

end AcmeStore

end CaManager
