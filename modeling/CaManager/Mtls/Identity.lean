import CaManager.Mtls.Extraction
import CaManager.Mtls.Revocation

/-!
# Whose certificate it is

An enrolment is of one certificate, which an issuer and a serial number tell from all others. What
is compared when a certificate is presented are texts: of the serial number, which is written in
one of two bases, and of the fingerprint. Texts of different numbers can be the same, and texts of
one number different; the issuer is not looked at.
-/

namespace CaManager

open Library

namespace Mtls

/-- A text for a serial number: in decimal, or in hexadecimal with or without colons. -/
def Denotes (text : String) (serial : ℤ) : Prop :=
  readInt 10 text.toList = some serial ∨
    readInt 16 (text.toList.filter (· ≠ ':')) = some serial

/-- The certificate is presented on the connection, or as PEM, or by headers with a text for its
serial number. -/
def Presents (x : X509) : Presented → Prop
  | .native y => y = x
  | .proxied y => y = x
  | .headers _ _ serial _ _ => ∃ text, serial = some text ∧ Denotes text x.serial

def Presented.dated : Presented → Bool
  | .headers _ _ _ _ _ => false
  | _ => true

/-- The accounts and the time, with the certificate that each enrolment is of. -/
structure Enrolled where
  state : MtlsState
  certOf : ℕ → X509
  denotes : ∀ a ∈ state.accounts.authCertificates, Denotes a.certSerial (certOf a.id).serial

namespace Enrolled

variable (e : Enrolled) (x : X509)

/-- The enrolment is of the certificate: issuer and serial number are the same. -/
def IsOf (a : AuthCertificate) : Prop :=
  (e.certOf a.id).issuer = x.issuer ∧ (e.certOf a.id).serial = x.serial

def InDate : Prop := x.notBefore ≤ e.state.now ∧ e.state.now ≤ x.notAfter

def LetsIn (a : AuthCertificate) (userId : ℕ) : Prop :=
  a.userId = userId ∧ a.enabled = true ∧ MayEnter e.state.accounts userId

variable [X509Library] [DigestLibrary] (p : Presented)

def SignsIn (userId : ℕ) : Prop :=
  ∃ u a s, authenticateCertificate e.state p.info = .ok (u, a, s) ∧ u.id = userId

def Found (a : AuthCertificate) : Prop :=
  ∃ serial, p.info.serial = some serial ∧ serial ≠ "" ∧
    findEnrolment e.state.accounts serial p.info.fingerprint = some a

/-- A user is signed in exactly if the certificate is one that the user has enrolled, and
everything about it is valid. -/
def Identifies : Prop :=
  ∀ userId, e.SignsIn p userId ↔
    e.InDate x ∧ ∃ a ∈ e.state.accounts.authCertificates, e.IsOf x a ∧ e.LetsIn a userId

/-- The texts lead to no stranger, miss no enrolment, and say what has to be known of the
validity. -/
structure Recognized : Prop where
  stranger : e.InDate x → ∀ a userId, e.Found p a → e.LetsIn a userId →
    ∃ a' ∈ e.state.accounts.authCertificates, e.IsOf x a' ∧ e.LetsIn a' userId
  missed : e.InDate x → ∀ a' ∈ e.state.accounts.authCertificates, e.IsOf x a' →
    ∀ userId, e.LetsIn a' userId → ∃ a, e.Found p a ∧ e.LetsIn a userId
  undated : ¬e.InDate x → p.dated = true ∨ ∀ a userId, e.Found p a → ¬e.LetsIn a userId

variable {e x p}

theorem signsIn_iff {userId : ℕ} : e.SignsIn p userId ↔
    (∃ a, e.Found p a ∧ e.LetsIn a userId) ∧ (∀ t ∈ p.info.validUntil, e.state.now ≤ t) ∧
      ∀ t ∈ p.info.validFrom, t ≤ e.state.now := by
  simp only [SignsIn, authenticateCertificate, bind_eq_ok, ensure_eq_ok, orThrow_eq_ok, pure_eq_ok,
    exists_const, Prod.mk.injEq, Option.filter_eq_some_iff, decide_eq_true_eq]
  constructor
  · rintro ⟨_, _, _, ⟨serial, ⟨hserial, hne⟩, a, hfind, henabled, huntil, hfrom, u, huser, hactive,
      rfl, rfl, _⟩, hid⟩
    have hkey : u.id = a.userId := Table.key_of_get? huser
    subst hid
    exact ⟨⟨a, ⟨serial, hserial, hne, hfind⟩, hkey.symm, henabled, u, hkey ▸ huser, hactive⟩,
      huntil, hfrom⟩
  · rintro ⟨⟨a, ⟨serial, hserial, hne, hfind⟩, rfl, henabled, u, huser, hactive⟩, huntil, hfrom⟩
    exact ⟨u, a, _, ⟨serial, ⟨hserial, hne⟩, a, hfind, henabled, huntil, hfrom, u, huser, hactive,
      rfl, rfl, rfl⟩, Table.key_of_get? huser⟩

theorem dates_of_undated (h : p.dated = false) :
    (∀ t ∈ p.info.validUntil, e.state.now ≤ t) ∧ ∀ t ∈ p.info.validFrom, t ≤ e.state.now := by
  cases p with
  | headers _ _ _ _ _ =>
    constructor
    · intro t ht
      cases ht
    · intro t ht
      cases ht
  | native y => cases h
  | proxied y => cases h

theorem dates_iff (hp : Presents x p) (hdated : p.dated = true ∨ e.InDate x) :
    ((∀ t ∈ p.info.validUntil, e.state.now ≤ t) ∧ ∀ t ∈ p.info.validFrom, t ≤ e.state.now) ↔
      e.InDate x := by
  cases p with
  | native y =>
    cases hp
    simp [Presented.info, InDate, and_comm]
  | proxied y =>
    cases hp
    simp [Presented.info, InDate, and_comm]
  | headers subjectDn issuerDn serial fingerprint commonName =>
    have hin := hdated.resolve_left Bool.false_ne_true
    exact iff_of_true (dates_of_undated rfl) hin

end Enrolled

section Texts

variable {serial : ℤ}

theorem denotes_decimalText (serial : ℤ) : Denotes (decimalText serial) serial :=
  .inl (readInt_decimalText serial)

theorem readInt_upperHexText (hserial : 0 ≤ serial) :
    readInt 16 (upperHexText serial).toList = some serial := by
  obtain ⟨n, rfl⟩ := Int.eq_ofNat_of_zero_le hserial
  rw [upperHexText, String.toList_ofList]
  exact readInt_map_toUpper n

theorem isHexDigit_of_mem_upperHexText (hserial : 0 ≤ serial) {c : Char}
    (hc : c ∈ (upperHexText serial).toList) : isHexDigit c = true := by
  obtain ⟨n, rfl⟩ := Int.eq_ofNat_of_zero_le hserial
  rw [upperHexText, String.toList_ofList] at hc
  obtain ⟨c', hc', rfl⟩ := List.mem_map.mp hc
  have hdigit : c' ∈ Nat.toDigits 16 n := hc'
  obtain ⟨d, hd, rfl⟩ := exists_digit_of_mem_toDigits (by decide) hdigit
  have hall : ∀ d < 16, isHexDigit (Nat.digitChar d).toUpper = true := by decide
  exact hall d hd

theorem denotes_upperHexText (hserial : 0 ≤ serial) : Denotes (upperHexText serial) serial := by
  refine .inr ?_
  have hkept : ((upperHexText serial).toList.filter (· ≠ ':')) = (upperHexText serial).toList := by
    rw [List.filter_eq_self]
    intro c hc
    have hdigit := isHexDigit_of_mem_upperHexText hserial hc
    refine decide_eq_true fun hcolon => ?_
    rw [hcolon] at hdigit
    exact absurd hdigit (by decide)
  rw [hkept, readInt_upperHexText hserial]

theorem decimalText_mem_convertedSerials (hserial : 0 ≤ serial) :
    decimalText serial ∈ convertedSerials (upperHexText serial) := by
  have hall : (upperHexText serial).toList.all isHexDigit = true :=
    List.all_eq_true.mpr fun c hc => isHexDigit_of_mem_upperHexText hserial hc
  unfold convertedSerials
  rw [if_pos hall, readInt_upperHexText hserial]
  exact List.mem_append_left _ (List.mem_singleton_self _)

end Texts

namespace Enrolled

variable [X509Library] [DigestLibrary] {e : Enrolled} {x : X509} {p : Presented}

theorem info_of_dated (hp : Presents x p) (hdated : p.dated = true) :
    p.info.serial = some (upperHexText x.serial) ∧
      p.info.fingerprint = some (DigestLibrary.fingerprint x) := by
  cases p with
  | native y =>
    cases hp
    exact ⟨rfl, rfl⟩
  | proxied y =>
    cases hp
    exact ⟨rfl, rfl⟩
  | headers _ _ _ _ _ => cases hdated

theorem Found.texts {a : AuthCertificate} (hp : Presents x p) (hdated : p.dated = true)
    (hfound : e.Found p a) : a ∈ e.state.accounts.authCertificates ∧
      (a.certSerial ∈ upperHexText x.serial :: convertedSerials (upperHexText x.serial) ∨
        a.certFingerprint = some (DigestLibrary.fingerprint x)) := by
  obtain ⟨serial, hserial, _, hfind⟩ := hfound
  obtain ⟨hinfo, hprint⟩ := info_of_dated hp hdated
  cases hserial.symm.trans hinfo
  rw [hprint] at hfind
  unfold findEnrolment at hfind
  rcases Option.or_eq_some_iff.mp hfind with htext | ⟨_, hprint⟩
  · obtain ⟨text, htext, ha⟩ := List.exists_of_findSome?_eq_some htext
    have heq : a.certSerial = text := by simpa using Table.holds_of_first ha
    exact ⟨Table.mem_of_first ha, .inl (heq ▸ htext)⟩
  · obtain ⟨f, hf, ha⟩ := Option.bind_eq_some_iff.mp hprint
    cases (Option.filter_eq_some_iff.mp hf).1
    exact ⟨Table.mem_of_first ha, .inr (by simpa using Table.holds_of_first ha)⟩

theorem exists_found {a : AuthCertificate} (hp : Presents x p) (hdated : p.dated = true)
    (hmem : a ∈ e.state.accounts.authCertificates)
    (htried : a.certSerial ∈ upperHexText x.serial :: convertedSerials (upperHexText x.serial)) :
    ∃ a', e.Found p a' := by
  have hnamed : (e.state.accounts.enrolledAs a.certSerial).isSome :=
    List.find?_isSome.mpr ⟨a, hmem, decide_eq_true rfl⟩
  obtain ⟨a', ha'⟩ := Option.isSome_iff_exists.mp
    (List.findSome?_isSome_iff.mpr ⟨a.certSerial, htried, hnamed⟩)
  refine ⟨a', upperHexText x.serial, (info_of_dated hp hdated).1, upperHexText_ne_empty _, ?_⟩
  unfold findEnrolment
  rw [ha', Option.some_or]

end Enrolled

section Sample

/-- Users `ann` and `bob`, and a certificate of `ann` that was enrolled from a PEM file. -/
def annEnrolled : Enrolled where
  state :=
    { store := ⟨∅, ∅, ∅, ∅, none⟩
      accounts :=
        { users := ((∅ : Table User).insert
              { username := "ann", email := "ann@ca", passwordHash := "secret" }).insert
            { username := "bob", email := "bob@ca", passwordHash := "secret" }
          authCertificates := (∅ : Table AuthCertificate).insert
            { userId := 1, certSerial := decimalText 10, certSubject := "CN=ann" } }
      now := 0 }
  certOf _ := { sampleCaCert with serial := 10 }
  denotes a ha := by
    rcases Table.mem_insert.mp ha with ha | rfl
    · cases ha
    · exact denotes_decimalText 10

def annCertificate : X509 := { sampleCaCert with serial := 10 }

/-- Another certificate, whose number is written in hexadecimal like the other's in decimal. -/
def otherCertificate : X509 := { sampleCaCert with serial := 16 }

end Sample

end Mtls

end CaManager
