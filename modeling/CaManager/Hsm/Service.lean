import CaManager.Library.Machines
import CaManager.Library.Tables
import Mathlib.Data.List.Nodup

/-!
# Keys in hardware modules

A provider is a hardware module with keys of its own, and a table of keys stands beside it. A key
is generated or deleted in the module first and then in the table, so a commit that fails leaves
the two apart; a synchronization brings the table in line with the module. What a module and the
database do on a call is an argument, and the keys of a module may change by other hands.
-/

namespace CaManager

open Library

structure HsmProvider where
  id : ℕ := 0
  name : String
  type : String
  deriving Repr, DecidableEq

structure HsmKeyInfo where
  keyIdentifier : String
  label : String
  algorithm : String
  keyType : String
  purpose : String
  publicKeyPem : Option String := none
  isExtractable : Bool := false
  deriving Repr, DecidableEq

structure HsmKey extends HsmKeyInfo where
  id : ℕ := 0
  providerId : ℕ
  deriving Repr, DecidableEq

instance : Keyed HsmProvider where
  key := HsmProvider.id
  withKey id p := { p with id }
  key_withKey _ _ := rfl
  withKey_key _ := rfl

instance : Keyed HsmKey where
  key := HsmKey.id
  withKey id k := { k with id }
  key_withKey _ _ := rfl
  withKey_key _ := rfl

/-- The module's own exceptions pass, any other is wrapped with what was tried. -/
inductive HsmError
  | value (message : String)
  | hsm (message : String)
  | other (message : String)
  deriving Repr, DecidableEq

def HsmError.during (doing : String) : HsmError → HsmError
  | .hsm message => .hsm message
  | .value message | .other message => .hsm ("Failed to " ++ doing ++ ": " ++ message)

/-- A call fails before the module has done anything, or after it, or when the table is
committed, or not at all. -/
inductive HsmCall
  | refused (e : HsmError)
  | broken (e : HsmError)
  | uncommitted (message : String)
  | done
  deriving Repr, DecidableEq

structure KeyRequest where
  label : String
  algorithm : String
  purpose : String := "signing"
  extractable : Bool := false
  deriving Repr, DecidableEq

/-- The tables, and the keys that the module of each provider holds. -/
structure HsmSite where
  providers : Table HsmProvider
  keys : Table HsmKey
  modules : ℕ → List HsmKeyInfo

structure SyncCounts where
  added : ℕ
  removed : ℕ
  unchanged : ℕ
  deriving Repr, DecidableEq

namespace HsmService

def validTypes : List String := ["pkcs11", "aws-cloudhsm", "azure-keyvault", "google-kms"]

def validAlgorithms : List String :=
  ["RSA-2048", "RSA-3072", "RSA-4096", "EC-P256", "EC-P384", "EC-P521", "AES-128", "AES-256"]

def validPurposes : List String := ["signing", "encryption", "wrapping", "all"]

def providerNotFound (providerId : ℕ) : HsmError :=
  .value ("Provider not found: " ++ toString providerId)

def keyNotFound (keyId : ℕ) : HsmError := .value ("Key not found: " ++ toString keyId)

def uniqueFailed : HsmError :=
  .other "UNIQUE constraint failed: hsm_keys.provider_id, hsm_keys.key_identifier"

def setModule (s : HsmSite) (providerId : ℕ) (infos : List HsmKeyInfo) : HsmSite :=
  { s with modules := Function.update s.modules providerId infos }

def addKey (providerId : ℕ) (keys : Table HsmKey) (info : HsmKeyInfo) : Table HsmKey :=
  keys.insert { info with providerId }

def keysOf (s : HsmSite) (providerId : ℕ) : List HsmKey :=
  s.keys.select fun key => key.providerId = providerId

def identifiers (infos : List HsmKeyInfo) : List String := infos.map HsmKeyInfo.keyIdentifier

/-- The identifiers of the rows of a provider. -/
def recorded (s : HsmSite) (providerId : ℕ) : List String :=
  (keysOf s providerId).map fun key => key.keyIdentifier

def createProvider (s : HsmSite) (name type : String) : Except HsmError HsmProvider × HsmSite :=
  if type ∉ validTypes then (.error (.value ("Invalid provider type: " ++ type)), s)
  else if (s.providers.first fun p => p.name = name).isSome then
    (.error (.value ("Provider with name '" ++ name ++ "' already exists")), s)
  else
    let provider : HsmProvider := { name, type }
    (.ok { provider with id := s.providers.nextKey },
      { s with providers := s.providers.insert provider })

/-- The keys of the provider go with it, those in its module stay. -/
def deleteProvider (s : HsmSite) (providerId : ℕ) : Except HsmError Unit × HsmSite :=
  match s.providers.get? providerId with
  | none => (.error (providerNotFound providerId), s)
  | some _ => (.ok (),
      { s with
        providers := s.providers.delete providerId
        keys := s.keys.deleteWhere fun key => key.providerId = providerId })

def generateKey (s : HsmSite) (providerId : ℕ) (r : KeyRequest)
    (answer : KeyRequest → HsmKeyInfo) (call : HsmCall) : Except HsmError Unit × HsmSite :=
  match s.providers.get? providerId with
  | none => (.error (providerNotFound providerId), s)
  | some _ =>
    if r.algorithm ∉ validAlgorithms then
      (.error (.value ("Invalid algorithm: " ++ r.algorithm)), s)
    else if r.purpose ∉ validPurposes then
      (.error (.value ("Invalid purpose: " ++ r.purpose)), s)
    else
      let info := answer r
      let made := setModule s providerId (s.modules providerId ++ [info])
      match call with
      | .refused e => (.error (e.during "generate key"), s)
      | .broken e => (.error (e.during "generate key"), made)
      | .uncommitted message => (.error (HsmError.during "generate key" (.other message)), made)
      | .done =>
        if info.keyIdentifier ∈ recorded s providerId then
          (.error (uniqueFailed.during "generate key"), made)
        else (.ok (), { made with keys := addKey providerId s.keys info })

def deleteKey (s : HsmSite) (keyId : ℕ) (call : HsmCall) : Except HsmError Unit × HsmSite :=
  match s.keys.get? keyId with
  | none => (.error (keyNotFound keyId), s)
  | some key =>
    let destroyed := setModule s key.providerId
      ((s.modules key.providerId).filter fun info => info.keyIdentifier ≠ key.keyIdentifier)
    match call with
    | .refused e => (.error (e.during "delete key"), s)
    | .broken e => (.error (e.during "delete key"), destroyed)
    | .uncommitted message => (.error (HsmError.during "delete key" (.other message)), destroyed)
    | .done => (.ok (), { destroyed with keys := s.keys.delete keyId })

/-- A public key that the module has to be asked for is kept in its row. -/
def getPublicKey (s : HsmSite) (keyId : ℕ) (pem : String) (call : HsmCall) :
    Except HsmError String × HsmSite :=
  match s.keys.get? keyId with
  | none => (.error (keyNotFound keyId), s)
  | some key =>
    match key.publicKeyPem.filter (· ≠ "") with
    | some cached => (.ok cached, s)
    | none =>
      match call with
      | .refused e | .broken e => (.error (e.during "get public key"), s)
      | .uncommitted message => (.error (HsmError.during "get public key" (.other message)), s)
      | .done => (.ok pem,
          { s with keys := s.keys.update keyId fun key => { key with publicKeyPem := some pem } })

/-- The keys of the module without a row. -/
def newKeys (s : HsmSite) (providerId : ℕ) : List HsmKeyInfo :=
  (s.modules providerId).filter fun info => info.keyIdentifier ∉ recorded s providerId

/-- The rows without a key in the module. -/
def goneKeys (s : HsmSite) (providerId : ℕ) : List HsmKey :=
  (keysOf s providerId).filter fun key =>
    key.keyIdentifier ∉ identifiers (s.modules providerId)

def synced (s : HsmSite) (providerId : ℕ) : HsmSite :=
  { s with
    keys := ((newKeys s providerId).foldl (addKey providerId) s.keys).deleteWhere fun key =>
      key ∈ goneKeys s providerId }

def syncKeys (s : HsmSite) (providerId : ℕ) (call : HsmCall) :
    Except HsmError SyncCounts × HsmSite :=
  match s.providers.get? providerId with
  | none => (.error (providerNotFound providerId), s)
  | some _ =>
    match call with
    | .refused e | .broken e => (.error (e.during "sync keys"), s)
    | .uncommitted message => (.error (HsmError.during "sync keys" (.other message)), s)
    | .done =>
      if (identifiers (newKeys s providerId)).Nodup then
        (.ok
          { added := (newKeys s providerId).length
            removed := (goneKeys s providerId).length
            unchanged := (s.modules providerId).length - (newKeys s providerId).length },
          synced s providerId)
      else (.error (uniqueFailed.during "sync keys"), s)

end HsmService

inductive HsmEvent
  | createProvider (name type : String)
  | deleteProvider (providerId : ℕ)
  | generateKey (providerId : ℕ) (r : KeyRequest) (answer : KeyRequest → HsmKeyInfo)
      (call : HsmCall)
  | deleteKey (keyId : ℕ) (call : HsmCall)
  | getPublicKey (keyId : ℕ) (pem : String) (call : HsmCall)
  | syncKeys (providerId : ℕ) (call : HsmCall)
  | otherHands (providerId : ℕ) (infos : List HsmKeyInfo)

namespace HsmService

def step (s : HsmSite) : HsmEvent → HsmSite
  | .createProvider name type => (createProvider s name type).2
  | .deleteProvider providerId => (deleteProvider s providerId).2
  | .generateKey providerId r answer call => (generateKey s providerId r answer call).2
  | .deleteKey keyId call => (deleteKey s keyId call).2
  | .getPublicKey keyId pem call => (getPublicKey s keyId pem call).2
  | .syncKeys providerId call => (syncKeys s providerId call).2
  | .otherHands providerId infos => setModule s providerId infos

/-- No provider has two rows for one of its keys. -/
def Unique (keys : Table HsmKey) : Prop :=
  ∀ key ∈ keys, ∀ key' ∈ keys, key.providerId = key'.providerId →
    key.keyIdentifier = key'.keyIdentifier → key = key'

instance (keys : Table HsmKey) : Decidable (Unique keys) :=
  inferInstanceAs (Decidable (∀ key ∈ keys.rows, _))

/-- The provider exists, and its rows are for the keys of its module. -/
structure Mirrors (s : HsmSite) (providerId : ℕ) : Prop where
  provider : (s.providers.get? providerId).isSome = true
  rows : ∀ identifier, identifier ∈ recorded s providerId ↔
    identifier ∈ identifiers (s.modules providerId)

/-- The event does not part the table from the module of the provider: the call does not stop
between the two, and nobody else changes the module. -/
def KeepsTogether (providerId : ℕ) (s : HsmSite) : HsmEvent → Prop
  | .deleteProvider other => other ≠ providerId
  | .generateKey other _ _ call =>
    other = providerId → call = .done ∨ ∃ e, call = .refused e
  | .deleteKey keyId call => ∀ key, s.keys.get? keyId = some key → key.providerId = providerId →
      call = .done ∨ ∃ e, call = .refused e
  | .otherHands other _ => other ≠ providerId
  | .createProvider _ _ | .getPublicKey _ _ _ | .syncKeys _ _ => True

end HsmService

end CaManager
