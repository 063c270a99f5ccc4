import CaManager.Library.Base64
import CaManager.Library.Encoding
import CaManager.Library.Texts

/-!
# The object that encrypts key columns

It takes its key from the master key file or from the environment, and reads and writes the texts
of the columns: base64 of a private key, or of a marker and a token. Which of these a text is only
its first bytes say. `Rendered` ties the texts to the columns of the store's rows.
-/

namespace CaManager

open Library Base64

/-- Symmetric encryption under a key that is a text. Encrypting draws some bits. -/
class FernetLibrary where
  accepts : String → Bool
  encrypt : String → ℕ → Bytes → Bytes
  decrypt : String → Bytes → Option Bytes

namespace MasterKey

/-- `ENCRYPTED_MARKER` -/
def encryptedMarker : Bytes := [69, 78, 67, 58]

inductive KeySource
  | file
  | env
  deriving Repr, DecidableEq

/-- The one object, with the key that it has loaded. -/
structure KeyEncryption where
  fernet : Option String := none
  keySource : Option KeySource := none
  deriving Repr, DecidableEq

namespace KeyEncryption

def isEnabled (k : KeyEncryption) : Bool := k.fernet.isSome

def load [FernetLibrary] (key : String) (source : KeySource) : KeyEncryption :=
  { fernet := if FernetLibrary.accepts key then some key else none
    keySource := some source }

/-- `reload`, from what was read of the key file, if anything, and the environment. -/
def reload [FernetLibrary] (file env : Option String) : KeyEncryption :=
  match (file.map stripSpaces).filter (· ≠ "") with
  | some key => load key .file
  | none =>
    match env.filter (· ≠ "") with
    | some key => load key .env
    | none => {}

end KeyEncryption

/-- `is_encrypted` -/
def isEncrypted (data : String) : Bool :=
  if data = "" then false
  else
    match b64decode data with
    | .ok decoded => encryptedMarker.isPrefixOf decoded
    | .error _ => false

variable [FernetLibrary]

namespace KeyEncryption

variable (k : KeyEncryption)

/-- `encrypt`: what cannot be encrypted stays as it is. -/
def encrypt (draw : ℕ) (data : String) : String :=
  match k.fernet with
  | none => data
  | some key =>
    if data = "" ∨ isEncrypted data = true then data
    else
      match b64decode data with
      | .ok rawData => b64encode (encryptedMarker ++ FernetLibrary.encrypt key draw rawData)
      | .error _ => data

/-- `decrypt` -/
def decrypt (data : String) : Except String String :=
  if data = "" then .ok data
  else
    match b64decode data with
    | .error e => .error e
    | .ok decoded =>
      if encryptedMarker.isPrefixOf decoded then
        match k.fernet with
        | none => .error "Encryption key not configured"
        | some key =>
          match FernetLibrary.decrypt key (decoded.drop encryptedMarker.length) with
          | some decrypted => .ok (b64encode decrypted)
          | none => .error "Failed to decrypt private key - wrong encryption key"
      else .ok data

end KeyEncryption

def EncryptedUnder (key data : String) : Prop :=
  FernetLibrary.accepts key = true ∧ ∃ token,
    b64decode data = .ok (encryptedMarker ++ token) ∧ (FernetLibrary.decrypt key token).isSome

def Sealed (data : String) : Prop := data = "" ∨ isEncrypted data = true

def Open (data : String) : Prop := isEncrypted data = false

instance (data : String) : Decidable (Sealed data) := inferInstanceAs (Decidable (_ ∨ _))

instance (data : String) : Decidable (Open data) := inferInstanceAs (Decidable (_ = _))

section Texts

variable {k : KeyEncryption} {data : String}

omit [FernetLibrary] in
theorem b64encode_ne_empty {token : Bytes} : b64encode (encryptedMarker ++ token) ≠ "" := by
  intro hempty
  have hdecoded := b64decode_b64encode (encryptedMarker ++ token)
  rw [hempty] at hdecoded
  cases hdecoded

omit [FernetLibrary] in
theorem isEncrypted_of_decode {token : Bytes}
    (h : b64decode data = .ok (encryptedMarker ++ token)) : isEncrypted data = true := by
  have hne : data ≠ "" := by
    rintro rfl
    cases h
  unfold isEncrypted
  rw [if_neg hne, h]
  exact List.isPrefixOf_iff_prefix.mpr ⟨token, rfl⟩

theorem not_encryptedUnder {key : String} (h : Open data) : ¬EncryptedUnder key data := by
  intro ⟨_, token, hdecode, _⟩
  have hmarked := isEncrypted_of_decode hdecode
  rw [h] at hmarked
  cases hmarked

theorem sealed_encrypt (hk : k.isEnabled = true) (draw : ℕ) {rawData : Bytes}
    (h : b64decode data = .ok rawData) : Sealed (k.encrypt draw data) := by
  obtain ⟨key, hkey⟩ := Option.isSome_iff_exists.mp hk
  unfold KeyEncryption.encrypt
  rw [hkey]
  dsimp only
  split_ifs with hdone
  · exact hdone
  · rw [h]
    exact .inr (isEncrypted_of_decode (b64decode_b64encode _))

end Texts

section Columns

variable {α : Type*} (keyText : ℕ → String) (contents : α → Bytes)

/-- The texts that a column of the store stands for. -/
inductive Rendered : Encoded α → String → Prop
  | base64 (a : α) : Rendered (.base64 a) (b64encode (contents a))
  | sealed (key : ℕ) (draw : ℕ) (a : α) : Rendered (.sealed key a)
      (b64encode (encryptedMarker ++ FernetLibrary.encrypt (keyText key) draw (contents a)))

/-- A token is opened with the key that it was made with, and with no other. -/
structure Opens : Prop where
  own : ∀ key draw data, FernetLibrary.decrypt (keyText key)
    (FernetLibrary.encrypt (keyText key) draw data) = some data
  other : ∀ key key' draw data, key ≠ key' →
    FernetLibrary.decrypt (keyText key') (FernetLibrary.encrypt (keyText key) draw data) = none

variable {keyText contents} {e : Encoded α} {data : String}

theorem Rendered.encrypt (hcontents : ∀ a, contents a ≠ [] ∧ ¬encryptedMarker <+: contents a)
    (h : Rendered keyText contents e data) (configured : Option ℕ) (source : Option KeySource)
    (draw : ℕ) : Rendered keyText contents (e.encrypt configured)
      (KeyEncryption.encrypt ⟨configured.map keyText, source⟩ draw data) := by
  cases h with
  | base64 a =>
    cases configured with
    | none => exact .base64 a
    | some key =>
      have hdecode := b64decode_b64encode (contents a)
      have hne : b64encode (contents a) ≠ "" := by
        intro hempty
        rw [hempty] at hdecode
        exact (hcontents a).1 (Except.ok.inj hdecode).symm
      have hplain : isEncrypted (b64encode (contents a)) = false := by
        unfold isEncrypted
        rw [if_neg hne, hdecode]
        exact Bool.eq_false_iff.mpr fun hmarked =>
          (hcontents a).2 (List.isPrefixOf_iff_prefix.mp hmarked)
      have hnot : ¬(b64encode (contents a) = "" ∨ isEncrypted (b64encode (contents a)) = true) := by
        simp [hne, hplain]
      unfold KeyEncryption.encrypt
      rw [Option.map_some]
      dsimp only
      rw [if_neg hnot, hdecode]
      exact .sealed key draw a
  | sealed key draw' a =>
    have hmarked := isEncrypted_of_decode (b64decode_b64encode (encryptedMarker ++
      FernetLibrary.encrypt (keyText key) draw' (contents a)))
    unfold KeyEncryption.encrypt
    cases configured with
    | none => exact .sealed key draw' a
    | some key' =>
      rw [Option.map_some]
      dsimp only
      rw [if_pos (.inr hmarked)]
      exact .sealed key draw' a

theorem Rendered.decrypt (hopens : Opens keyText)
    (hcontents : ∀ a, contents a ≠ [] ∧ ¬encryptedMarker <+: contents a)
    (h : Rendered keyText contents e data) (configured : Option ℕ) (source : Option KeySource) :
    match e.decrypt configured with
    | some e' => ∃ data', KeyEncryption.decrypt ⟨configured.map keyText, source⟩ data = .ok data' ∧
        Rendered keyText contents e' data'
    | none => ∃ error, KeyEncryption.decrypt ⟨configured.map keyText, source⟩ data =
        .error error := by
  cases h with
  | base64 a =>
    have hplain : ¬encryptedMarker.isPrefixOf (contents a) = true := fun hmarked =>
      (hcontents a).2 (List.isPrefixOf_iff_prefix.mp hmarked)
    refine ⟨_, ?_, .base64 a⟩
    unfold KeyEncryption.decrypt
    rw [b64decode_b64encode]
    dsimp only
    rw [if_neg hplain, ite_self]
  | sealed key draw a =>
    have hmarked : encryptedMarker.isPrefixOf
        (encryptedMarker ++ FernetLibrary.encrypt (keyText key) draw (contents a)) = true :=
      List.isPrefixOf_iff_prefix.mpr ⟨_, rfl⟩
    unfold KeyEncryption.decrypt
    rw [if_neg b64encode_ne_empty, b64decode_b64encode]
    dsimp only
    rw [if_pos hmarked, List.drop_left]
    by_cases hkey : configured = some key
    · subst hkey
      rw [Option.map_some]
      dsimp only
      rw [hopens.own, Encoded.decrypt, if_pos rfl]
      exact ⟨_, rfl, .base64 a⟩
    · rw [Encoded.decrypt, if_neg hkey]
      cases configured with
      | none => exact ⟨_, rfl⟩
      | some key' =>
        rw [Option.map_some]
        dsimp only
        rw [hopens.other key key' draw _ fun heq => hkey (congrArg some heq.symm)]
        exact ⟨_, rfl⟩

/-- The texts follow their columns: what encrypting and decrypting make of a text stands for what
they make of the column, and a text is refused exactly where the column cannot be opened. -/
theorem keyEncryption_simulates (hopens : Opens keyText)
    (hcontents : ∀ a, contents a ≠ [] ∧ ¬encryptedMarker <+: contents a)
    (h : Rendered keyText contents e data) (configured : Option ℕ) (source : Option KeySource)
    (draw : ℕ) :
    Rendered keyText contents (e.encrypt configured)
        (KeyEncryption.encrypt ⟨configured.map keyText, source⟩ draw data) ∧
      match e.decrypt configured with
      | some e' => ∃ data',
          KeyEncryption.decrypt ⟨configured.map keyText, source⟩ data = .ok data' ∧
            Rendered keyText contents e' data'
      | none => ∃ error,
          KeyEncryption.decrypt ⟨configured.map keyText, source⟩ data = .error error :=
  ⟨h.encrypt hcontents configured source draw, h.decrypt hopens hcontents configured source⟩

end Columns

section Sample

/-- A token begins with as many zeros as its key has characters. -/
@[reducible] def countedFernet : FernetLibrary where
  accepts _ := true
  encrypt key _ data := List.replicate key.length 0 ++ 1 :: data
  decrypt key token :=
    if token.takeWhile (· = 0) = List.replicate key.length 0 then
      some (token.drop (key.length + 1))
    else none

def markKey (key : ℕ) : String := String.ofList (List.replicate key 'k')

omit [FernetLibrary] in
theorem opens_markKey : @Opens countedFernet markKey := by
  let _ := countedFernet
  have hlength (key : ℕ) : (markKey key).length = key := by
    simp [markKey]
  constructor
  · intro key draw data
    simp [FernetLibrary.decrypt, FernetLibrary.encrypt, List.drop_append]
  · intro key key' draw data hne
    simp [FernetLibrary.decrypt, FernetLibrary.encrypt, hlength, hne]

omit [FernetLibrary] in
theorem keyEncryption_simulates_byte : let _ := countedFernet
    Rendered markKey (fun _ : Unit => [7]) (Encoded.encrypt (some 1) (.base64 ()))
      (KeyEncryption.encrypt ⟨some (markKey 1), none⟩ 0 (b64encode [7])) := by
  intro _
  exact (keyEncryption_simulates opens_markKey (fun _ => by decide) (.base64 ()) (some 1) none 0).1

end Sample

end MasterKey

end CaManager
