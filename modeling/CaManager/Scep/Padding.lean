import CaManager.Library.Base64
import CaManager.Library.Texts
import Mathlib.Data.List.TakeDrop

/-!
# The padding of enveloped contents

A block cipher takes whole blocks, so a content is filled up before it is enciphered: by bytes that
each say how many of them there are, a whole block of them where the content already fills its
blocks. The answer to a client is padded so, and the padding of what a client sent is removed by
its last byte.
-/

namespace CaManager

open Library

section BlockPadding

def paddingLen (blockSize : ℕ) (data : Bytes) : ℕ := blockSize - data.length % blockSize

def padded (blockSize : ℕ) (data : Bytes) : Bytes :=
  data ++ List.replicate (paddingLen blockSize data) (UInt8.ofNat (paddingLen blockSize data))

def ValidlyPadded (blockSize : ℕ) (data : Bytes) : Prop :=
  ∃ content, padded blockSize content = data

variable {blockSize : ℕ}

theorem paddingLen_pos (h : 0 < blockSize) (data : Bytes) : 0 < paddingLen blockSize data := by
  have hlt : data.length % blockSize < blockSize := Nat.mod_lt _ h
  unfold paddingLen
  omega

theorem paddingLen_le (data : Bytes) : paddingLen blockSize data ≤ blockSize := Nat.sub_le _ _

theorem getLast?_padded (h : 0 < blockSize) (data : Bytes) :
    (padded blockSize data).getLast? = some (UInt8.ofNat (paddingLen blockSize data)) := by
  have hpos := paddingLen_pos h data
  rw [padded, List.getLast?_append, List.getLast?_replicate, if_neg (by omega)]
  rfl

theorem lastByte_of_validlyPadded (h : 0 < blockSize) {data : Bytes}
    (hvalid : ValidlyPadded blockSize data) :
    ∃ n, 0 < n ∧ n ≤ blockSize ∧ data.getLast? = some (UInt8.ofNat n) := by
  obtain ⟨content, rfl⟩ := hvalid
  exact ⟨_, paddingLen_pos h content, paddingLen_le content, getLast?_padded h content⟩

end BlockPadding

/-- The ciphers that an enveloped content is opened with. -/
inductive ContentCipher
  | des
  | tripleDes
  | aes
  deriving Repr, DecidableEq

namespace ContentCipher

def blockSize : ContentCipher → ℕ
  | des => 8
  | tripleDes => 8
  | aes => 16

def ofOid (algOid : String) : Option ContentCipher :=
  if occursIn "1.3.14.3.2.7" algOid then some des
  else if occursIn "1.2.840.113549.3.7" algOid then some tripleDes
  else if occursIn "2.16.840.1.101.3.4.1" algOid then some aes
  else none

theorem blockSize_pos (c : ContentCipher) : 0 < c.blockSize := by
  cases c <;> decide

theorem blockSize_le (c : ContentCipher) : c.blockSize ≤ 16 := by
  cases c <;> decide

end ContentCipher

section Unpadding

/-- The data without its last `n` bytes. A slice that ends `n` bytes before the end is empty where
`n` is zero, for then it ends at the beginning. -/
def withoutLast (n : ℕ) (data : Bytes) : Bytes := if n = 0 then [] else data.take (data.length - n)

/-- The last byte says how much is cut off; data without a last byte are an error. -/
def removePadding (csrData : Bytes) : Option Bytes :=
  csrData.getLast?.map fun padLen => withoutLast padLen.toNat csrData

/-- What is left of a deciphered content; every failure becomes one and the same error. -/
def openedContent (algOid : String) (csrData : Bytes) : Except String Bytes :=
  match (ContentCipher.ofOid algOid).bind fun _ => removePadding csrData with
  | some content => .ok content
  | none => .error "Failed to decrypt SCEP message envelope"

/-- The content of an answer is padded to the blocks of the cipher that it goes out with. -/
def paddedForClient (data : Bytes) : Bytes := padded 16 data

variable {algOid : String} {cipher : ContentCipher} {data : Bytes}

theorem openedContent_eq (h : ContentCipher.ofOid algOid = some cipher) :
    openedContent algOid data =
      match removePadding data with
      | some content => .ok content
      | none => .error "Failed to decrypt SCEP message envelope" := by
  rw [openedContent, h]
  rfl

theorem removePadding_padded {blockSize : ℕ} (hpos : 0 < blockSize) (hle : blockSize ≤ 255)
    (content : Bytes) : removePadding (padded blockSize content) = some content := by
  have hn := paddingLen_pos hpos content
  have hlt : paddingLen blockSize content < 2 ^ 8 := by
    have hbound : paddingLen blockSize content ≤ blockSize := paddingLen_le content
    omega
  rw [removePadding, getLast?_padded hpos, Option.map_some, withoutLast,
    UInt8.toNat_ofNat_of_lt' hlt, if_neg (by omega)]
  simp [padded]

theorem length_withoutLast_lt (n : ℕ) (h : data ≠ []) :
    (withoutLast n data).length < data.length := by
  have hpos : 0 < data.length := List.length_pos_iff.mpr h
  unfold withoutLast
  split
  · exact hpos
  · rw [List.length_take]
    omega

theorem removePadding_ne (h : data ≠ []) : ∃ content, removePadding data = some content ∧
    content.length < data.length := by
  have hlast := List.getLast?_eq_some_getLast h
  exact ⟨_, by rw [removePadding, hlast]; rfl, length_withoutLast_lt _ h⟩

def KeepsUnpadded (algOid : String) (cipher : ContentCipher) (data : Bytes) : Prop :=
  ¬ ValidlyPadded cipher.blockSize data →
    openedContent algOid data = .error "Failed to decrypt SCEP message envelope" ∨
      openedContent algOid data = .ok data

theorem keepsUnpadded_iff (h : ContentCipher.ofOid algOid = some cipher) :
    KeepsUnpadded algOid cipher data ↔ data = [] ∨ ValidlyPadded cipher.blockSize data := by
  constructor
  · intro hkeeps
    by_contra hneither
    rw [not_or] at hneither
    obtain ⟨content, hcontent, hlt⟩ := removePadding_ne hneither.1
    have hopened : openedContent algOid data = .ok content := by
      rw [openedContent_eq h, hcontent]
    rw [KeepsUnpadded, hopened] at hkeeps
    rcases hkeeps hneither.2 with herror | hwhole
    · cases herror
    · cases hwhole
      omega
  · intro heither hinvalid
    have hempty : data = [] := heither.resolve_right hinvalid
    left
    rw [openedContent_eq h, hempty]
    rfl

/-- Every content comes back as it was before its padding, whatever the cipher. Data that are not
padded are kept from a cut only where they are empty. -/
theorem unpadding_lawful_iff (h : ContentCipher.ofOid algOid = some cipher) (message : Bytes) :
    (openedContent algOid (paddedForClient message) = .ok message ∧
      openedContent algOid (padded cipher.blockSize message) = .ok message ∧
      KeepsUnpadded algOid cipher data) ↔
    (data = [] ∨ ValidlyPadded cipher.blockSize data) := by
  have hclient : openedContent algOid (paddedForClient message) = .ok message := by
    rw [openedContent_eq h, paddedForClient, removePadding_padded (by omega) (by omega)]
  have hcipher : openedContent algOid (padded cipher.blockSize message) = .ok message := by
    have hle := cipher.blockSize_le
    rw [openedContent_eq h, removePadding_padded cipher.blockSize_pos (by omega)]
  rw [← keepsUnpadded_iff h]
  exact ⟨fun hall => hall.2.2, fun hkeeps => ⟨hclient, hcipher, hkeeps⟩⟩

/-- A message that already fills its only block. -/
theorem unpadding_lawful_wholeBlock :
    (openedContent "2.16.840.1.101.3.4.1.42" (paddedForClient (List.replicate 16 7)) =
        .ok (List.replicate 16 7) ∧
      openedContent "2.16.840.1.101.3.4.1.42"
          (padded ContentCipher.aes.blockSize (List.replicate 16 7)) =
        .ok (List.replicate 16 7) ∧
      KeepsUnpadded "2.16.840.1.101.3.4.1.42" .aes []) ↔
    (([] : Bytes) = [] ∨ ValidlyPadded ContentCipher.aes.blockSize []) := by
  have hcipher : ContentCipher.ofOid "2.16.840.1.101.3.4.1.42" = some .aes := by decide +kernel
  exact unpadding_lawful_iff hcipher _

/-- A block that ends with a zero is not padded, and all of it is lost. -/
theorem unpadding_loses_block :
    ContentCipher.ofOid "2.16.840.1.101.3.4.1.42" = some .aes ∧
      openedContent "2.16.840.1.101.3.4.1.42" (List.replicate 15 1 ++ [0]) = .ok [] ∧
      ¬ KeepsUnpadded "2.16.840.1.101.3.4.1.42" .aes (List.replicate 15 1 ++ [0]) := by
  have hcipher : ContentCipher.ofOid "2.16.840.1.101.3.4.1.42" = some .aes := by decide +kernel
  have hinvalid : ¬ ValidlyPadded 16 (List.replicate 15 1 ++ [0]) := by
    intro hvalid
    obtain ⟨n, hpos, hle, hlast⟩ := lastByte_of_validlyPadded (by omega) hvalid
    have hzero : (0 : UInt8) = UInt8.ofNat n := by simpa using hlast
    have hnat := congrArg UInt8.toNat hzero
    have hlt : n < 2 ^ 8 := by omega
    rw [UInt8.toNat_ofNat_of_lt' hlt] at hnat
    exact hpos.ne hnat
  rw [keepsUnpadded_iff hcipher]
  refine ⟨hcipher, by decide +kernel, ?_⟩
  intro heither
  exact hinvalid (heither.resolve_left (by simp))

end Unpadding

end CaManager
