import CaManager.Library.Fallible
import CaManager.Store.Rows

/-!
# Revocation lists

`generateCrl` lists the revoked rows linked to an authority, `generateDeltaCrl` those that were
revoked after the latest full list. Every serial number is read back from its text column, in
base 16 whatever base it was written in. A text that is no number drops its row; a number the
builder refuses fails the whole list.
-/

namespace CaManager

open Library

namespace CRLService

def defaultValidityDays : ℤ := 7

/-- `REASON_MAP` -/
def reasonMap : List (String × ReasonFlag) :=
  [("unspecified", .unspecified), ("keyCompromise", .keyCompromise),
   ("CACompromise", .caCompromise), ("affiliationChanged", .affiliationChanged),
   ("superseded", .superseded), ("cessationOfOperation", .cessationOfOperation),
   ("certificateHold", .certificateHold), ("removeFromCRL", .removeFromCrl),
   ("privilegeWithdrawn", .privilegeWithdrawn), ("aACompromise", .aaCompromise)]

def revokedRows (st : Store) (ca : CA) : List Certificate :=
  st.certificates.select fun c => c.caref = some ca.refid && c.revoked

def getRevokedCertificates (st : Store) (caId : ℕ) : Except PyError (List Certificate) := do
  let ca ← orThrow (st.cas.get? caId) (.valueError s!"CA with id {caId} not found")
  return revokedRows st ca

def truncateSerial (serial : ℤ) : ℤ :=
  if 2 ^ maxSerialBits ≤ serial.natAbs then serial % 2 ^ maxSerialBits else serial

/-- The serial number that goes on the list for a row, if its text is a number. -/
def listedSerial (c : Certificate) : Option ℤ :=
  match c.serialNumber with
  | none => none
  | some "" => none
  | some text => (readInt 16 (text.toList.filter (· ≠ ':'))).map truncateSerial

def listedReason (c : Certificate) : Option ReasonFlag :=
  match c.revokeReason with
  | none => none
  | some "" => none
  | some reason => some ((reasonMap.lookup reason).getD .unspecified)

def revokedEntry (now : Time) (c : Certificate) (serial : ℤ) : Except PyError RevokedEntry := do
  let serial ← checkSerial serial
  return { serial, revocationDate := c.revokedAt.getD now, reason := listedReason c }

/-- The entries of the rows, in order; rows without a readable serial number are skipped. -/
def revokedEntries (now : Time) : List Certificate → Except PyError (List RevokedEntry)
  | [] => .ok []
  | c :: cs =>
    match listedSerial c with
    | none => revokedEntries now cs
    | some serial => do
      let entry ← revokedEntry now c serial
      let entries ← revokedEntries now cs
      return entry :: entries

def nextCrlNumber (st : Store) (caId : ℕ) : ℕ :=
  match (st.crls.select fun m => m.caId = caId).map CrlMetadata.crlNumber with
  | [] => 1
  | n :: ns => ns.foldl max n + 1

/-- The authority key identifier of a list: the certificate's own, or its subject key. -/
def authorityKey (caCert : X509) : Option PublicKey :=
  match extensionForOid caCert.extensions "2.5.29.35" with
  | some ⟨.authorityKeyIdentifier key, _⟩ => some key
  | _ =>
    match extensionForOid caCert.extensions "2.5.29.14" with
    | some ⟨.subjectKeyIdentifier key, _⟩ => some key
    | _ => none

def urlOrigin (url : String) : String :=
  match url.splitOn "://" with
  | scheme :: rest :: _ =>
    scheme ++ "://" ++ String.ofList (rest.toList.takeWhile fun c => !(c ∈ ['/', '?', '#']))
  | _ => "://"

def cdpUrlOf (ca : CA) : Option String :=
  ca.cdpUrl.map fun url => url.replace "\x7bca_refid\x7d" ca.refid

def freshestCrl (ca : CA) : Option String :=
  if ca.deltaCrlEnabled then
    (cdpUrlOf ca).map fun url => s!"{urlOrigin url}/cdp/{ca.id}-delta.crl"
  else none

/-- The list that `generate_crl` signs. -/
def buildCrl (st : Store) (ca : CA) (validityDays : ℤ) (now : Time) : Except PyError Crl := do
  let caCert ← ca.certificate
  let caPrivateKey ← ca.decryptedPrivateKey st.keyEncryptionKey
  let entries ← revokedEntries now (revokedRows st ca)
  return { issuer := caCert.subject, lastUpdate := now, nextUpdate := now + days validityDays
           entries, crlNumber := nextCrlNumber st ca.id, authorityKey := authorityKey caCert
           freshest := freshestCrl ca, signedBy := caPrivateKey }

def generateCrl (st : Store) (caId : ℕ) (validityDays : ℤ) (username : String) (now : Time) :
    Except PyError (CrlMetadata × Store) := do
  let ca ← orThrow (st.cas.get? caId) (.valueError s!"CA with id {caId} not found")
  ensure (ca.hasPrivateKey = true)
    (.valueError s!"CA {ca.descr} does not have a private key - cannot sign CRL")
  let crl ← buildCrl st ca validityDays now
  let row : CrlMetadata :=
    { id := st.crls.nextKey, caId, crlNumber := crl.crlNumber
      thisUpdate := now, nextUpdate := now + days validityDays, crl
      revokedCount := (revokedRows st ca).length, generatedBy := username
      isDelta := false, baseCrlNumber := none }
  return (row, { st with crls := st.crls.insert row })

def latestBase (st : Store) (caId : ℕ) : Option CrlMetadata :=
  (st.crls.select fun m => m.caId = caId && !m.isDelta).foldl
    (fun latest m =>
      match latest with
      | none => some m
      | some l => if l.crlNumber < m.crlNumber then some m else some l) none

def revokedSince (st : Store) (ca : CA) (base : CrlMetadata) : List Certificate :=
  (revokedRows st ca).filter fun c => c.revokedAt.any (base.thisUpdate < ·)

def generateDeltaCrl (st : Store) (caId : ℕ) (validityHours : ℤ) (username : String)
    (now : Time) : Except PyError (CrlMetadata × Store) := do
  let ca ← orThrow (st.cas.get? caId) (.valueError s!"CA with id {caId} not found")
  ensure (ca.hasPrivateKey = true) (.valueError s!"CA {ca.descr} does not have a private key")
  ensure (ca.cdpEnabled = true) (.valueError "CDP is not enabled for this CA")
  ensure (ca.deltaCrlEnabled = true) (.valueError "Delta CRL is not enabled for this CA")
  ensure (1 ≤ validityHours ∧ validityHours ≤ 720)
    (.valueError "validity_hours must be between 1 and 720")
  let base ← orThrow (latestBase st caId)
    (.valueError s!"No base CRL exists for CA {ca.descr} — generate a full CRL first")
  let caCert ← ca.certificate
  let caPrivateKey ← ca.decryptedPrivateKey st.keyEncryptionKey
  let rows := revokedSince st ca base
  let entries ← revokedEntries now rows
  let crl : Crl :=
    { issuer := caCert.subject, lastUpdate := now, nextUpdate := now + validityHours * 3600
      entries, crlNumber := nextCrlNumber st caId, authorityKey := authorityKey caCert
      freshest := none, signedBy := caPrivateKey, deltaBase := some base.crlNumber }
  let row : CrlMetadata :=
    { id := st.crls.nextKey, caId, crlNumber := crl.crlNumber
      thisUpdate := now, nextUpdate := now + validityHours * 3600, crl
      revokedCount := rows.length, generatedBy := username
      isDelta := true, baseCrlNumber := some base.crlNumber }
  return (row, { st with crls := st.crls.insert row })

section Lists

variable {st : Store} {ca : CA} {now : Time}

theorem mem_revokedRows {c : Certificate} :
    c ∈ revokedRows st ca ↔ c ∈ st.certificates ∧ c.caref = some ca.refid ∧ c.revoked = true := by
  simp [revokedRows, Table.mem_select]

def entryOf (now : Time) (c : Certificate) : Option RevokedEntry :=
  (listedSerial c).map fun serial =>
    { serial, revocationDate := c.revokedAt.getD now, reason := listedReason c }

theorem revokedEntries_eq {cs : List Certificate} {entries : List RevokedEntry}
    (h : revokedEntries now cs = .ok entries) : entries = cs.filterMap (entryOf now) := by
  induction cs generalizing entries with
  | nil =>
    cases h
    rfl
  | cons c cs ih =>
    unfold revokedEntries at h
    rw [List.filterMap_cons]
    cases hc : listedSerial c with
    | none =>
      rw [hc] at h
      have hentry : entryOf now c = none := by simp [entryOf, hc]
      rw [hentry]
      exact ih h
    | some serial =>
      rw [hc] at h
      simp only [bind_eq_ok, revokedEntry, pure_eq_ok, checkSerial_eq_ok_iff] at h
      obtain ⟨entry, ⟨s, ⟨rfl, _, _⟩, rfl⟩, rest, hrest, rfl⟩ := h
      simp [entryOf, hc, ih hrest]

theorem serials_revokedEntries {cs : List Certificate} {entries : List RevokedEntry}
    (h : revokedEntries now cs = .ok entries) :
    entries.map RevokedEntry.serial = cs.filterMap listedSerial := by
  have hserial : ∀ c, (entryOf now c).map RevokedEntry.serial = listedSerial c := by
    intro c
    cases hc : listedSerial c with
    | none => simp [entryOf, hc]
    | some serial => simp [entryOf, hc]
  rw [revokedEntries_eq h, List.map_filterMap]
  exact List.filterMap_congr fun c _ => hserial c

theorem exists_revokedEntries {cs : List Certificate}
    (h : ∀ c ∈ cs, ∀ s, listedSerial c = some s → 0 < s ∧ s < 2 ^ maxSerialBits) :
    ∃ entries, revokedEntries now cs = .ok entries := by
  induction cs with
  | nil => exact ⟨[], rfl⟩
  | cons c cs ih =>
    obtain ⟨rest, hrest⟩ := ih fun c' hc' => h c' (List.mem_cons_of_mem _ hc')
    unfold revokedEntries
    cases hc : listedSerial c with
    | none => exact ⟨rest, hrest⟩
    | some serial =>
      obtain ⟨hpos, hlt⟩ := h c List.mem_cons_self serial hc
      have hentry : checkSerial serial = .ok serial := checkSerial_eq_ok_iff.mpr ⟨rfl, hpos, hlt⟩
      simp only [revokedEntry, hentry, hrest]
      exact ⟨_, rfl⟩

theorem mem_serials_buildCrl {validityDays : ℤ} {crl : Crl}
    (h : buildCrl st ca validityDays now = .ok crl) (s : ℤ) :
    s ∈ crl.serials ↔ ∃ c ∈ st.certificates, c.caref = some ca.refid ∧ c.revoked = true ∧
      listedSerial c = some s := by
  simp only [buildCrl, bind_eq_ok, pure_eq_ok] at h
  obtain ⟨_, _, _, _, entries, hentries, rfl⟩ := h
  simp only [Crl.serials, serials_revokedEntries hentries, List.mem_filterMap, mem_revokedRows]
  constructor
  · rintro ⟨c, ⟨hc, hlink, hrev⟩, hs⟩
    exact ⟨c, hc, hlink, hrev, hs⟩
  · rintro ⟨c, hc, hlink, hrev, hs⟩
    exact ⟨c, ⟨hc, hlink, hrev⟩, hs⟩

theorem generateCrl_eq_ok {caId : ℕ} {validityDays : ℤ} {username : String} {row : CrlMetadata}
    {st' : Store} (h : generateCrl st caId validityDays username now = .ok (row, st')) :
    ∃ ca, st.cas.get? caId = some ca ∧ ca.hasPrivateKey = true ∧
      buildCrl st ca validityDays now = .ok row.crl ∧ row.caId = caId ∧ row.isDelta = false ∧
      st' = { st with crls := st.crls.insert row } := by
  simp only [generateCrl, bind_eq_ok, orThrow_eq_ok, ensure_eq_ok, pure_eq_ok, Prod.mk.injEq] at h
  obtain ⟨ca, hca, _, hkey, crl, hcrl, rfl, rfl⟩ := h
  exact ⟨ca, hca, hkey, hcrl, rfl, rfl, rfl⟩

theorem listedSerial_hexText {c : Certificate} {serial : ℤ} (hpos : 0 < serial)
    (hlt : serial < 2 ^ maxSerialBits) (h : c.serialNumber = some (hexText serial)) :
    listedSerial c = some serial := by
  have htext : (hexText serial).toList = writeInt 16 serial := String.toList_ofList
  have hne : hexText serial ≠ "" := by
    intro hempty
    have hread : readInt 16 (writeInt 16 serial) = some serial :=
      readInt_writeInt (by decide) (by decide) serial
    rw [← htext, hempty] at hread
    cases hread
  have hcolon : (writeInt 16 serial).filter (· ≠ ':') = writeInt 16 serial :=
    filter_writeInt (by decide) (by decide) serial (by decide) (by decide)
  have hsmall : ¬(2 ^ maxSerialBits ≤ serial.natAbs) := by
    have hcast : (serial.natAbs : ℤ) = serial := Int.natAbs_of_nonneg hpos.le
    have hlt' : (serial.natAbs : ℤ) < ((2 ^ maxSerialBits : ℕ) : ℤ) := by
      rw [hcast]
      exact_mod_cast hlt
    exact not_le.mpr (Int.ofNat_lt.mp hlt')
  unfold listedSerial
  rw [h]
  split
  · contradiction
  · next heq => exact absurd (Option.some.inj heq) hne
  · next text _ heq =>
    cases heq
    rw [htext, hcolon, readInt_writeInt (by decide) (by decide)]
    simp [truncateSerial, hsmall]

end Lists

end CRLService

end CaManager
