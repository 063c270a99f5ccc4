import Mathlib.Data.Nat.Notation

/-!
# Text columns that hold encoded objects

A text column may hold the text of an object, that text in base64, or a sealed form of it:
base64 of a marker and a ciphertext under some key. Which of these is there decides what the
two ways of reading the column give.

A codec may also have to guess from a value whether it is encoded. It gives back just the values
that do not look encoded to begin with.
-/

namespace CaManager.Library

/-- The content of a text column, by how the object in it is encoded. -/
inductive Encoded (α : Type*)
  | plain (a : α)
  | base64 (a : α)
  | sealed (key : ℕ) (a : α)
  deriving Repr, DecidableEq

namespace Encoded

variable {α : Type*}

def decoded : Encoded α → Option α
  | base64 a => some a
  | _ => none

def asText : Encoded α → Option α
  | plain a => some a
  | _ => none

/-- Decrypt with the configured key. Content that is not sealed passes through. -/
def decrypt (configured : Option ℕ) : Encoded α → Option (Encoded α)
  | sealed key a => if configured = some key then some (base64 a) else none
  | e => some e

/-- Encrypt with the configured key, if there is one. Sealed content stays as it is. -/
def encrypt (configured : Option ℕ) : Encoded α → Encoded α
  | base64 a =>
    match configured with
    | some key => sealed key a
    | none => base64 a
  | e => e

def content : Encoded α → α
  | plain a => a
  | base64 a => a
  | sealed _ a => a

theorem content_of_decoded {e : Encoded α} {a : α} (h : e.decoded = some a) : e.content = a := by
  cases e with
  | plain b => cases h
  | base64 b => exact Option.some.inj h
  | sealed key b => cases h

theorem content_of_asText {e : Encoded α} {a : α} (h : e.asText = some a) : e.content = a := by
  cases e with
  | plain b => exact Option.some.inj h
  | base64 b => cases h
  | sealed key b => cases h

theorem content_of_decrypt {configured : Option ℕ} {e e' : Encoded α}
    (h : e.decrypt configured = some e') : e'.content = e.content := by
  cases e with
  | plain b => exact congrArg content (Option.some.inj h).symm
  | base64 b => exact congrArg content (Option.some.inj h).symm
  | sealed key b =>
    change (if configured = some key then some (base64 b) else none) = some e' at h
    split at h
    · rw [← Option.some.inj h]
      rfl
    · cases h

@[simp] theorem content_encrypt (configured : Option ℕ) (e : Encoded α) :
    (e.encrypt configured).content = e.content := by
  cases e with
  | plain b => rfl
  | base64 b => cases configured <;> rfl
  | sealed key b => rfl

def isSealed : Encoded α → Bool
  | sealed _ _ => true
  | _ => false

@[simp] theorem isSealed_encrypt (key : ℕ) (a : α) :
    ((base64 a).encrypt (some key)).isSealed = true := rfl

theorem decoded_of_isSealed {e : Encoded α} (h : e.isSealed = true) : e.decoded = none := by
  cases e with
  | plain a => cases h
  | base64 a => cases h
  | sealed key a => rfl

/-- The bytes that decoding a column as base64 gives: the text of the object, a marker and a
ciphertext, or nothing that can be read. -/
inductive Bytes (α : Type*)
  | text (a : α)
  | ciphertext (key : ℕ) (a : α)
  | garbage
  deriving Repr, DecidableEq

def Bytes.load : Bytes α → Option α
  | text a => some a
  | _ => none

def bytes : Encoded α → Bytes α
  | plain _ => .garbage
  | base64 a => .text a
  | sealed key a => .ciphertext key a

@[simp] theorem load_bytes (e : Encoded α) : e.bytes.load = e.decoded := by
  cases e with
  | plain a => rfl
  | base64 a => rfl
  | sealed key a => rfl

theorem decrypt_encrypt (configured : Option ℕ) (a : α) :
    (encrypt configured (base64 a)).decrypt configured = some (base64 a) := by
  cases configured with
  | none => rfl
  | some key => simp [encrypt, decrypt]

end Encoded

/-- A codec that tells encoded values by their looks. Encoding draws some bits. -/
structure GuessingCodec (α : Type*) where
  looksEncoded : α → Bool
  encode : ℕ → α → α
  decode : α → Option α

namespace GuessingCodec

variable {α : Type*} (c : GuessingCodec α)

def encodeIfNeeded (draw : ℕ) (a : α) : α :=
  if c.looksEncoded a then a else c.encode draw a

def decodeIfNeeded (a : α) : Option α :=
  if c.looksEncoded a then c.decode a else some a

/-- What is encoded looks so and can be decoded, and nothing decodes to itself. -/
structure Lawful : Prop where
  looksEncoded_encode : ∀ draw a, c.looksEncoded a = false → c.looksEncoded (c.encode draw a) = true
  decode_encode : ∀ draw a, c.looksEncoded a = false → c.decode (c.encode draw a) = some a
  decode_ne : ∀ a, c.decode a ≠ some a

variable {c}

theorem decodeIfNeeded_encodeIfNeeded_iff (h : c.Lawful) (draw : ℕ) (a : α) :
    c.decodeIfNeeded (c.encodeIfNeeded draw a) = some a ↔ c.looksEncoded a = false := by
  unfold encodeIfNeeded
  cases ha : c.looksEncoded a with
  | true => simp [decodeIfNeeded, ha, h.decode_ne]
  | false => simp [decodeIfNeeded, h.looksEncoded_encode draw a ha, h.decode_encode draw a ha]

end GuessingCodec

end CaManager.Library
