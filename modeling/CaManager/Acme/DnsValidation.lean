import CaManager.Acme.DomainResolution
import CaManager.Acme.Service
import CaManager.Library.Base64

/-!
# Records for a challenge

The record that proves control of a domain holds a digest, and a record is several strings one
after the other. What is compared is the text that the library writes for a record, with each
string in quotes, and what is asked for is the name of the identifier as it is. A value that is
split over two strings is therefore not found, one that stands inside a longer string is, and a
wildcard is looked for below its own star.
-/

namespace CaManager

open Library AcmeService
open Library.Base64 (isUrlDigit unpadded isUrlDigit_of_mem_unpadded length_le_unpadded)
open DomainStore (base IsWildcard base_of_not_wildcard)

class BinarySha256 where
  sha256 : Bytes → Bytes
  length_sha256 : ∀ message, (sha256 message).length = 32

/-- `urlsafe_b64encode` of a digest, without the padding. -/
instance [BinarySha256] : Sha256 where
  digest text := unpadded (BinarySha256.sha256 (encodeText text))

abbrev TxtStrings := List Bytes

def isPlainByte (b : UInt8) : Bool := 0x20 ≤ b && b < 0x7f && b ≠ 0x22 && b ≠ 0x5c

/-- The library that asks for records and writes them as texts. -/
class TxtLibrary where
  escapify : Bytes → String
  escapify_plain : ∀ string, (∀ b ∈ string, isPlainByte b) →
    (escapify string).toList = string.map fun b => Char.ofNat b.toNat
  toText : TxtStrings → String
  toText_eq : ∀ strings,
    toText strings = " ".intercalate (strings.map fun string => "\"" ++ escapify string ++ "\"")

abbrev Zone := String → Except String (List TxtStrings)

def Zone.records (zone : Zone) (name : String) : List TxtStrings :=
  match zone name with
  | .ok found => found
  | .error _ => []

def txtRecord (domain : String) : String := "_acme-challenge." ++ domain

def txtValue [Sha256] (token jwkThumbprint : String) : String :=
  Sha256.digest (computeKeyAuthorization token jwkThumbprint)

def Zone.answers [TxtLibrary] (zone : Zone) (domain : String) : Except String (List String) :=
  (zone (txtRecord domain)).map fun found => found.map TxtLibrary.toText

section Values

def HasValue (value : String) (strings : TxtStrings) : Prop := strings.flatten = encodeText value

def Whole (value : String) (strings : TxtStrings) : Prop :=
  HasValue value strings ∧ encodeText value ∈ strings

def IsSplit (value : String) (strings : TxtStrings) : Prop :=
  HasValue value strings ∧ encodeText value ∉ strings

def Shows [TxtLibrary] (value : String) (strings : TxtStrings) : Prop :=
  ∃ string ∈ strings, occursIn value (TxtLibrary.escapify string)

def Longer [TxtLibrary] (value : String) (strings : TxtStrings) : Prop :=
  ¬ HasValue value strings ∧ Shows value strings

variable {value : String} {strings : TxtStrings} {c : Char}

theorem hasValue_iff : HasValue value strings ↔ Whole value strings ∨ IsSplit value strings := by
  unfold Whole IsSplit
  tauto

theorem isPlainByte_of_isUrlDigit (h : isUrlDigit c = true) :
    isPlainByte (UInt8.ofNat c.toNat) = true ∧ Char.ofNat (UInt8.ofNat c.toNat).toNat = c := by
  have hascii : ∀ n : Fin 128, isUrlDigit (Char.ofNat n) = true →
      isPlainByte (UInt8.ofNat n) = true := by decide +kernel
  have hlt := Base64.ascii_of_isUrlDigit h
  constructor
  · refine hascii ⟨c.toNat, hlt⟩ ?_
    rwa [Char.ofNat_toNat]
  · rw [UInt8.toNat_ofNat_of_lt' (by exact Nat.lt_trans hlt (by decide)), Char.ofNat_toNat]

/-- A value that is written in digits of base64url. -/
structure IsUrlText (value : String) : Prop where
  ne_empty : value.toList ≠ []
  digits : ∀ c ∈ value.toList, isUrlDigit c = true

namespace IsUrlText

theorem encodeText_eq (h : IsUrlText value) :
    encodeText value = value.toList.map fun c => UInt8.ofNat c.toNat := by
  have hascii : ∀ c ∈ value.toList, c.toNat < 0x80 := fun c hc =>
    Base64.ascii_of_isUrlDigit (h.digits c hc)
  rw [← encodeText_ascii hascii, String.ofList_toList]

theorem isPlainByte (h : IsUrlText value) {b : UInt8} (hb : b ∈ encodeText value) :
    isPlainByte b = true := by
  rw [h.encodeText_eq] at hb
  obtain ⟨c, hc, rfl⟩ := List.mem_map.mp hb
  exact (isPlainByte_of_isUrlDigit (h.digits c hc)).1

theorem notMem (h : IsUrlText value) {c : Char} (hc : isUrlDigit c = false) :
    c ∉ value.toList := by
  intro hmem
  exact absurd (h.digits c hmem) (by simp [hc])

variable [TxtLibrary]

theorem toList_escapify (h : IsUrlText value) :
    TxtLibrary.escapify (encodeText value) = value := by
  refine String.toList_injective ?_
  rw [TxtLibrary.escapify_plain _ fun b hb => h.isPlainByte hb, h.encodeText_eq, List.map_map]
  refine (List.map_congr_left fun c hc => ?_).trans (List.map_id _)
  exact (isPlainByte_of_isUrlDigit (h.digits c hc)).2

theorem occursIn_toText_iff (h : IsUrlText value) :
    occursIn value (TxtLibrary.toText strings) = true ↔ Shows value strings := by
  have hblank : ' ' ∉ value.toList := h.notMem (by decide)
  have hquote : '"' ∉ value.toList := h.notMem (by decide)
  have htext : (TxtLibrary.toText strings).toList =
      [' '].intercalate (strings.map fun string =>
        [] ++ '"' :: ((TxtLibrary.escapify string).toList ++ '"' :: [])) := by
    rw [TxtLibrary.toText_eq]
    simp [String.toList_intercalate, Function.comp_def]
  unfold occursIn Shows
  rw [decide_eq_true_eq, htext, infix_intercalate_iff h.ne_empty hblank]
  simp only [List.mem_map, exists_exists_and_eq_and, infix_append_cons_iff hquote, List.infix_nil,
    h.ne_empty, false_or, or_false, occursIn, decide_eq_true_eq]

theorem shows_iff_mem (h : IsUrlText value) (hvalue : HasValue value strings) :
    Shows value strings ↔ encodeText value ∈ strings := by
  constructor
  · rintro ⟨string, hstring, hoccurs⟩
    have hpart : string <:+: encodeText value := hvalue ▸ List.infix_of_mem_flatten hstring
    have hplain : ∀ b ∈ string, CaManager.isPlainByte b = true := fun b hb =>
      h.isPlainByte (hpart.subset hb)
    have hshown := (of_decide_eq_true hoccurs).length_le
    rw [TxtLibrary.escapify_plain string hplain, List.length_map] at hshown
    have hlength : (encodeText value).length ≤ string.length := by
      rw [h.encodeText_eq, List.length_map]
      exact hshown
    rwa [← hpart.eq_of_length_le hlength]
  · intro hmem
    refine ⟨_, hmem, decide_eq_true ?_⟩
    rw [h.toList_escapify]

theorem shows_iff (h : IsUrlText value) :
    Shows value strings ↔ Whole value strings ∨ Longer value strings := by
  unfold Whole Longer
  by_cases hvalue : HasValue value strings
  · simp [hvalue, h.shows_iff_mem hvalue]
  · simp [hvalue]

end IsUrlText

end Values

/-- A challenge whose rows are there: the references to its authorization and from there to its
order are not null. -/
structure ChallengeRows (st : AcmeStore) where
  challenge : AcmeChallenge
  auth : AcmeAuthorization
  order : AcmeOrder
  stored : st.challenges.find? challenge.challengeId = some challenge
  authorization : st.authorizationOf challenge = some auth
  ofOrder : st.orderOf auth = some order

namespace ChallengeRows

variable {st : AcmeStore} (c : ChallengeRows st) (zone : Zone) (jwkThumbprint : String)
  (now : Time)

def domain : String := c.auth.identifier.value.getD ""

section Definitions

variable [BinarySha256]

def value : String := txtValue c.challenge.token jwkThumbprint

def Succeeds [TxtLibrary] : Prop :=
  ∃ st', validateDns01Challenge st c.challenge jwkThumbprint (zone.answers c.domain) now = .ok st' ∧
    ∃ after, st'.challenges.find? c.challenge.challengeId = some after ∧ after.status = .valid

/-- The check succeeds just where a record has the value, at the name without the star. -/
def Agrees [TxtLibrary] : Prop :=
  c.Succeeds zone jwkThumbprint now ↔
    ∃ strings ∈ zone.records (txtRecord (base c.domain)), HasValue (c.value jwkThumbprint) strings

end Definitions

variable {c zone jwkThumbprint now}

theorem isUrlText_value [BinarySha256] : IsUrlText (c.value jwkThumbprint) where
  ne_empty := by
    intro hempty
    have hlength := length_le_unpadded (BinarySha256.sha256
      (encodeText (computeKeyAuthorization c.challenge.token jwkThumbprint)))
    rw [BinarySha256.length_sha256] at hlength
    change _ ≤ (c.value jwkThumbprint).toList.length at hlength
    rw [hempty] at hlength
    cases hlength
  digits _ := isUrlDigit_of_mem_unpadded

variable [BinarySha256] [TxtLibrary]

theorem checkDns01_eq_ok_iff :
    checkDns01 c.challenge.token jwkThumbprint (zone.answers c.domain) c.domain = .ok () ↔
      ∃ strings ∈ zone.records (txtRecord c.domain), Shows (c.value jwkThumbprint) strings := by
  have hshows : ∀ strings, occursIn (c.value jwkThumbprint) (TxtLibrary.toText strings) = true ↔
      Shows (c.value jwkThumbprint) strings :=
    fun strings => isUrlText_value.occursIn_toText_iff
  unfold checkDns01 Zone.answers Zone.records
  cases zone (txtRecord c.domain) with
  | error detail => simp [Except.map]
  | ok found =>
    have hany : (found.map TxtLibrary.toText).any (occursIn (c.value jwkThumbprint)) = true ↔
        ∃ strings ∈ found, Shows (c.value jwkThumbprint) strings := by
      simp only [List.any_map, List.any_eq_true, Function.comp_apply, hshows]
    refine Iff.trans ?_ hany
    by_cases hfound : (found.map TxtLibrary.toText).any (occursIn (c.value jwkThumbprint)) = true
    · exact iff_of_true (if_pos hfound) hfound
    · refine iff_of_false (fun hok => ?_) hfound
      cases (if_neg hfound).symm.trans hok

theorem succeeds_iff : c.Succeeds zone jwkThumbprint now ↔
    ∃ strings ∈ zone.records (txtRecord c.domain), Shows (c.value jwkThumbprint) strings := by
  rw [← checkDns01_eq_ok_iff]
  unfold Succeeds validateDns01Challenge
  cases hcheck : checkDns01 c.challenge.token jwkThumbprint (zone.answers c.domain) c.domain with
  | error problem =>
    rw [validateChallenge_of_error c.authorization hcheck]
    simp only [Except.ok.injEq, exists_eq_left', find?_withFailed c.stored, if_true,
      Option.some.injEq, failedChallenge]
    simp
  | ok u =>
    rw [validateChallenge_of_ok c.stored c.authorization hcheck, c.ofOrder]
    have hkept := (readyIfAllValid_kept (withValid (withValidated st c.challenge now) c.auth)
      c.order.orderId).2.2.2
    refine iff_of_true ⟨_, rfl, validatedChallenge now c.challenge, ?_, rfl⟩ rfl
    rw [hkept]
    exact (find?_withValidated c.stored _).trans (if_pos rfl)

variable (c zone jwkThumbprint) in
def AnyRecord (kind : String → TxtStrings → Prop) (domain : String) : Prop :=
  ∃ strings ∈ zone.records (txtRecord domain), kind (c.value jwkThumbprint) strings

/-- Below a wildcard nothing but what stands at the name with the star counts. Otherwise a record
that has the value in one string is enough; without one, records that have it in several strings
and longer ones do not make up for each other. -/
theorem challenge_agrees_iff : c.Agrees zone jwkThumbprint now ↔
    (IsWildcard c.domain →
      (c.AnyRecord zone jwkThumbprint Whole c.domain ∨
          c.AnyRecord zone jwkThumbprint Longer c.domain ↔
        c.AnyRecord zone jwkThumbprint Whole (base c.domain) ∨
          c.AnyRecord zone jwkThumbprint IsSplit (base c.domain))) ∧
    (¬ IsWildcard c.domain →
      c.AnyRecord zone jwkThumbprint Whole c.domain ∨
        (c.AnyRecord zone jwkThumbprint Longer c.domain ↔
          c.AnyRecord zone jwkThumbprint IsSplit c.domain)) := by
  have hsucceeds : c.Succeeds zone jwkThumbprint now ↔
      c.AnyRecord zone jwkThumbprint Whole c.domain ∨
        c.AnyRecord zone jwkThumbprint Longer c.domain := by
    rw [succeeds_iff]
    simp only [isUrlText_value.shows_iff, AnyRecord, and_or_left, exists_or]
  have hvalue : (∃ strings ∈ zone.records (txtRecord (base c.domain)),
      HasValue (c.value jwkThumbprint) strings) ↔
      c.AnyRecord zone jwkThumbprint Whole (base c.domain) ∨
        c.AnyRecord zone jwkThumbprint IsSplit (base c.domain) := by
    simp only [hasValue_iff, AnyRecord, and_or_left, exists_or]
  unfold Agrees
  rw [hsucceeds, hvalue]
  by_cases hwild : IsWildcard c.domain
  · simp [hwild]
  · rw [base_of_not_wildcard hwild]
    by_cases hwhole : c.AnyRecord zone jwkThumbprint Whole c.domain
    · simp [hwild, hwhole]
    · simp [hwild, hwhole]

end ChallengeRows

section Sample

open ChallengeRows

/-- The digest of `token.thumb`. -/
@[reducible] def sampleDigest : BinarySha256 where
  sha256 _ := [148, 39, 95, 182, 146, 66, 93, 170, 90, 100, 121, 1, 24, 134, 91, 114,
    230, 222, 41, 111, 17, 152, 13, 35, 72, 111, 218, 100, 221, 53, 205, 181]
  length_sha256 _ := rfl

/-- A quote and a backslash have a backslash in front, a byte that cannot be seen is a number. -/
def escapeByte (b : UInt8) : List Char :=
  if isPlainByte b then [Char.ofNat b.toNat]
  else if b = 0x22 || b = 0x5c then ['\\', Char.ofNat b.toNat]
  else ['\\', Nat.digitChar (b.toNat / 100), Nat.digitChar (b.toNat / 10 % 10),
    Nat.digitChar (b.toNat % 10)]

def escapeText (string : Bytes) : String := String.ofList (string.flatMap escapeByte)

def quoteStrings (strings : TxtStrings) : String :=
  " ".intercalate (strings.map fun string => "\"" ++ escapeText string ++ "\"")

@[reducible] def sampleTxt : TxtLibrary where
  escapify := escapeText
  escapify_plain string h := by
    rw [escapeText, String.toList_ofList]
    induction string with
    | nil => rfl
    | cons b string ih =>
      have hb : escapeByte b = [Char.ofNat b.toNat] := if_pos (h b List.mem_cons_self)
      rw [List.flatMap_cons, hb, ih fun b' hb' => h b' (List.mem_cons_of_mem _ hb')]
      rfl
  toText := quoteStrings
  toText_eq strings := by rw [quoteStrings]

def dnsChallenge : AcmeChallenge :=
  { challengeId := "c1", authorizationId := "a1", type := .dns01, status := .pending
    token := "token", url := none, validated := none, error := none }

def dnsAuthorization (domain : String) : AcmeAuthorization :=
  { authorizationId := "a1", orderId := "o1", identifier := ⟨some "dns", some domain⟩
    status := .pending, expires := days 7 }

def dnsAcme (domain : String) : AcmeStore :=
  { readyAcme with
    authorizations := ⟨[dnsAuthorization domain], by simp⟩
    challenges := ⟨[dnsChallenge], by decide⟩ }

def dnsRows (domain : String) : ChallengeRows (dnsAcme domain) where
  challenge := dnsChallenge
  auth := dnsAuthorization domain
  order := readyOrder
  stored := rfl
  authorization := rfl
  ofOrder := rfl

def plainZone : Zone := fun name =>
  if name = "_acme-challenge.example.com" then
    .ok [[encodeText "lCdftpJCXapaZHkBGIZbcubeKW8RmA0jSG_aZN01zbU"]]
  else .error "NXDOMAIN"

/-- The value of a challenge for a wildcard stands where it belongs, and is not found. -/
theorem wildcard_not_agrees : let _ := sampleDigest
    let _ := sampleTxt
    ¬ (dnsRows "*.example.com").Agrees plainZone "thumb" 0 := by
  intro _ _ hagrees
  have hnone : plainZone.records (txtRecord (dnsRows "*.example.com").domain) = [] := by decide
  have hrecord : plainZone.records (txtRecord (base (dnsRows "*.example.com").domain)) =
      [[encodeText "lCdftpJCXapaZHkBGIZbcubeKW8RmA0jSG_aZN01zbU"]] := by rfl
  have hvalue : (dnsRows "*.example.com").value "thumb" =
      "lCdftpJCXapaZHkBGIZbcubeKW8RmA0jSG_aZN01zbU" := by decide +kernel
  unfold Agrees at hagrees
  rw [succeeds_iff, hnone, hrecord, hvalue] at hagrees
  obtain ⟨strings, hmem, _⟩ := hagrees.mpr ⟨_, List.mem_singleton_self _, List.flatten_singleton⟩
  cases hmem

end Sample

end CaManager
