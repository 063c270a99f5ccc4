import CaManager.Accounts.Rows
import CaManager.Library.Base64
import CaManager.Library.JsonTrees

/-!
# WebAuthn

A user's security keys, and the challenges that are handed out for registering a key and for
signing in with one. A response names its challenge, which is deleted when the response is
verified; whatever raises is rolled back. What verifies a response is a package, and the texts of
exceptions are left out, as is what only the browser uses of a key.
-/

namespace CaManager

open Library

structure WebAuthnCredential where
  id : ℕ := 0
  userId : ℕ
  credentialId : Bytes
  publicKey : Bytes
  signCount : ℕ := 0
  name : String
  userVerified : Bool := false
  enabled : Bool := true
  lastUsedAt : Option Time := none
  deriving Repr, DecidableEq

instance : Keyed WebAuthnCredential where
  key := WebAuthnCredential.id
  withKey k c := { c with id := k }
  key_withKey _ _ := rfl
  withKey_key _ := rfl

structure WebAuthnChallenge where
  id : ℕ := 0
  userId : ℕ
  challenge : String
  challengeType : String
  expiresAt : Time
  used : Bool := false
  deriving Repr, DecidableEq

instance : Keyed WebAuthnChallenge where
  key := WebAuthnChallenge.id
  withKey k c := { c with id := k }
  key_withKey _ _ := rfl
  withKey_key _ := rfl

def WebAuthnChallenge.isValid (c : WebAuthnChallenge) (now : Time) : Bool :=
  !c.used && now < c.expiresAt

/-- What the package finds in a response to a registration. -/
structure VerifiedRegistration where
  credentialId : Bytes
  credentialPublicKey : Bytes
  signCount : ℕ
  deriving Repr, DecidableEq

/-- The package, which raises where a response is not what is expected. Of an authentication it
returns the counter of the key. -/
class WebAuthnLibrary (F : Type) where
  verifyRegistrationResponse (credential : JsonTree F) (expectedChallenge : Bytes)
    (expectedRpId expectedOrigin : String) : Option VerifiedRegistration
  verifyAuthenticationResponse (credential : JsonTree F) (expectedChallenge : Bytes)
    (expectedRpId expectedOrigin : String) (credentialPublicKey : Bytes)
    (credentialCurrentSignCount : ℕ) : Option ℕ

namespace WebAuthnService

structure Database where
  users : Table User := ∅
  challenges : Table WebAuthnChallenge := ∅
  credentials : Table WebAuthnCredential := ∅

inductive Outcome (α : Type)
  | verified (message : String) (result : α)
  | refused (message : String)
  | raised
  deriving Repr, DecidableEq

def Outcome.isVerified {α : Type} : Outcome α → Bool
  | verified _ _ => true
  | _ => false

structure Options where
  rpId : String
  challenge : Bytes
  credentials : List Bytes
  deriving Repr, DecidableEq

def base64urlDecode (data : String) : Option Bytes :=
  (Base64.urlsafeB64decode
    (String.ofList (data.toList ++ Base64.pads ((4 - data.toList.length % 4) % 4)))).toOption

def base64urlEncode (data : Bytes) : String := Base64.unpadded data

def getRpId (hostname : String) : String :=
  if ':' ∈ hostname.toList then (splitText ':' hostname).headD "" else hostname

def challengeTimeout : Time := 5 * 60

/-- The challenges of the user and the type, without those that are used or expired. -/
def cleanUp (challenges : Table WebAuthnChallenge) (userId : ℕ) (challengeType : String)
    (now : Time) : Table WebAuthnChallenge :=
  challenges.deleteWhere fun c =>
    c.userId = userId && c.challengeType = challengeType && (c.used || c.expiresAt < now)

/-- Clean up and store a new challenge. The texts of the table are unique. The clock is read for
the one and for the other. -/
def storeChallenge (db : Database) (userId : ℕ) (challengeType : String) (challenge : Bytes)
    (cleanedAt now : Time) : Option Database :=
  let challenges := cleanUp db.challenges userId challengeType cleanedAt
  let record : WebAuthnChallenge :=
    { userId, challengeType, challenge := base64urlEncode challenge,
      expiresAt := now + challengeTimeout }
  if challenges.rows.any fun c => c.challenge = record.challenge then none
  else some { db with challenges := challenges.insert record }

def enabledCredentials (db : Database) (userId : ℕ) : List Bytes :=
  (db.credentials.select fun c => c.userId = userId && c.enabled).map fun c => c.credentialId

def generateRegistrationOptions (db : Database) (user : User) (hostname : String)
    (challenge : Bytes) (cleanedAt now : Time) : Option Options × Database :=
  match storeChallenge db user.id "registration" challenge cleanedAt now with
  | none => (none, db)
  | some db => (some ⟨getRpId hostname, challenge, enabledCredentials db user.id⟩, db)

/-- There are none for users who do not exist or have no key; but these have a challenge then. -/
def generateAuthenticationOptions (db : Database) (username hostname : String) (challenge : Bytes)
    (cleanedAt now : Time) : Option (Options × ℕ) × Database :=
  match db.users.first fun u => u.username = username with
  | none => (none, db)
  | some user =>
    match storeChallenge db user.id "authentication" challenge cleanedAt now with
    | none => (none, db)
    | some db =>
      if (enabledCredentials db user.id).isEmpty then (none, db)
      else (some (⟨getRpId hostname, challenge, enabledCredentials db user.id⟩, user.id), db)

section Verification

variable {F : Type}

def textMember (name : String) : JsonTree F → Option String
  | .object members =>
    match JsonTree.lookup name members with
    | some (.text value) => some value
    | _ => none
  | _ => none

variable [FloatText F]

def clientChallenge (credential : JsonTree F) : Option String := do
  let response ← match credential with
    | .object members => JsonTree.lookup "response" members
    | _ => none
  let clientDataJson ← (textMember "clientDataJSON" response).bind base64urlDecode
  let text ← decodeText clientDataJson
  let clientData : JsonTree F ← JsonTree.loads text
  textMember "challenge" clientData

/-- The stored challenge of that text, of the user and the type, while it is good. -/
def findChallenge (db : Database) (challenge : String) (userId : ℕ) (challengeType : String)
    (now : Time) : Option WebAuthnChallenge :=
  (db.challenges.first fun c => c.challenge = challenge && c.userId = userId &&
    c.challengeType = challengeType && !c.used).filter fun c => c.isValid now

variable [WebAuthnLibrary F]

def verifyRegistration (db : Database) (userId : ℕ) (credential : JsonTree F) (hostname : String)
    (credentialName : Option String) (now : Time) : Outcome WebAuthnCredential × Database :=
  match clientChallenge credential with
  | none => (.raised, db)
  | some challenge =>
    match findChallenge db challenge userId "registration" now with
    | none => (.refused "Invalid or expired challenge", db)
    | some record =>
      let verification := (base64urlDecode record.challenge).bind fun expectedChallenge =>
        WebAuthnLibrary.verifyRegistrationResponse credential expectedChallenge
          (getRpId hostname) ("https://" ++ hostname)
      match verification with
      | none => (.raised, db)
      | some verification =>
        let row : WebAuthnCredential :=
          { userId
            credentialId := verification.credentialId
            publicKey := verification.credentialPublicKey
            signCount := verification.signCount
            name := (credentialName.filter (· ≠ "")).getD "Security Key"
            userVerified := true }
        -- the identifiers of the keys are unique
        if db.credentials.rows.any fun c => c.credentialId = row.credentialId then (.raised, db)
        else
          (.verified "Credential registered successfully"
              (Keyed.withKey db.credentials.nextKey row),
            { db with
              challenges := db.challenges.delete record.id
              credentials := db.credentials.insert row })

def findCredential (db : Database) (credId : Bytes) (userId : ℕ) : Option WebAuthnCredential :=
  db.credentials.first fun c => c.credentialId = credId && c.userId = userId && c.enabled

def countUse (c : WebAuthnCredential) (newSignCount : ℕ) (now : Time) : WebAuthnCredential :=
  { c with signCount := max newSignCount (c.signCount + 1), lastUsedAt := some now }

def verifyAuthentication (db : Database) (userId : ℕ) (credential : JsonTree F) (hostname : String)
    (now usedAt : Time) : Outcome User × Database :=
  match (textMember "id" credential).bind base64urlDecode with
  | none => (.raised, db)
  | some credId =>
    match findCredential db credId userId with
    | none => (.refused "Credential not found", db)
    | some row =>
      match clientChallenge credential with
      | none => (.raised, db)
      | some challenge =>
        match findChallenge db challenge userId "authentication" now with
        | none => (.refused "Invalid or expired challenge", db)
        | some record =>
          let newSignCount := (base64urlDecode record.challenge).bind fun expectedChallenge =>
            WebAuthnLibrary.verifyAuthenticationResponse credential expectedChallenge
              (getRpId hostname) ("https://" ++ hostname) row.publicKey 0
          match newSignCount with
          | none => (.raised, db)
          | some newSignCount =>
            let db := { db with
              credentials := db.credentials.update row.id (countUse · newSignCount usedAt)
              challenges := db.challenges.delete record.id }
            match db.users.get? userId with
            | none => (.raised, db)
            | some user => (.verified "Authentication successful" user, db)

end Verification

def mayChange (db : Database) (credential : WebAuthnCredential) (userId : ℕ) : Bool :=
  credential.userId = userId || (db.users.get? userId).any fun u => u.role = "admin"

def deleteCredential (db : Database) (credentialId userId : ℕ) : Outcome Unit × Database :=
  match db.credentials.get? credentialId with
  | none => (.refused "Credential not found", db)
  | some credential =>
    if mayChange db credential userId then
      (.verified "Credential deleted successfully" (),
        { db with credentials := db.credentials.delete credentialId })
    else (.refused "Not authorized", db)

def toggleCredential (db : Database) (credentialId userId : ℕ) (enabled : Bool) :
    Outcome Unit × Database :=
  match db.credentials.get? credentialId with
  | none => (.refused "Credential not found", db)
  | some credential =>
    if mayChange db credential userId then
      (.verified ("Credential " ++ (if enabled then "enabled" else "disabled") ++ " successfully")
          (),
        { db with credentials := db.credentials.update credentialId ({ · with enabled }) })
    else (.refused "Not authorized", db)

end WebAuthnService

end CaManager
