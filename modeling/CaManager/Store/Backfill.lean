import CaManager.Library.Texts
import CaManager.Store.Imports
import Mathlib.Data.List.Dedup

/-!
# Back-fill of key identifiers and chain repair

The task that runs at the start and every hour: it fills in key identifiers from the stored
certificates, links authorities and certificates without an issuer to the authority whose key
identifier their authority key identifier names, merges authorities with the same key identifier
into one of them, and fills in missing common names.
-/

namespace CaManager

open Library

namespace SkiAkiBackfill

structure Stats where
  updatedCas : ℕ
  updatedCerts : ℕ
  rechainedCas : ℕ
  rechainedCerts : ℕ
  deduplicated : ℕ
  orphanCas : ℕ
  orphanCerts : ℕ
  totalCas : ℕ
  totalCerts : ℕ
  populatedCn : Option ℕ
  deriving Repr, DecidableEq

def isBlankText (text : Option String) : Bool := (text.filter (· ≠ "")).isNone

section Identifiers

variable [KeyIdLibrary]

def certificateSki (ca : CA) : Option String :=
  ca.crt.decoded.bind fun pem => subjectKeyId pem.leaf

def certificateAki (ca : CA) : Option String :=
  ca.crt.decoded.bind fun pem => authorityKeyId pem.leaf

def populateCa (ca : CA) : CA := { ca with ski := ca.ski.or (certificateSki ca) }

def unidentified (c : Certificate) : Option CertPem :=
  if c.aki.isNone then c.crt.bind Encoded.decoded else none

/-- A certificate without an authority key identifier gets both identifiers, where it has them. -/
def populateCertificate (c : Certificate) : Certificate :=
  match unidentified c with
  | none => c
  | some pem =>
    { c with aki := authorityKeyId pem.leaf, ski := (subjectKeyId pem.leaf).or c.ski }

def populateIdentifiers (st : Store) : Store :=
  { st with
    cas := st.cas.map populateCa fun _ _ => rfl
    certificates := st.certificates.map populateCertificate fun k c => by
      unfold populateCertificate
      change (match unidentified c with | none => _ | some pem => _) = _
      cases unidentified c <;> rfl }

/-- The authority whose key identifier is the authority key identifier of another. -/
def parentByAki (st : Store) (ca : CA) : Option CA :=
  (certificateAki ca).bind fun aki =>
    if some aki = ca.ski then none
    else st.cas.first fun c => c.ski = some aki && c.id ≠ ca.id

def rechainCa (st : Store) (ca : CA) : Store :=
  match parentByAki st ca with
  | none => st
  | some parent => st.setCa ca.id fun row => { row with caref := some parent.refid }

def orphanCas (st : Store) : List CA := st.cas.select fun ca => isBlankText ca.caref

def rechainCas (st : Store) : Store := (orphanCas st).foldl rechainCa st

end Identifiers

/-- The authority whose key identifier is the authority key identifier of a certificate. -/
def issuerByAki (st : Store) (c : Certificate) : Option CA :=
  c.aki.bind fun aki => st.cas.first fun ca => ca.ski = some aki

def rechainCertificate (st : Store) (c : Certificate) : Store :=
  match issuerByAki st c with
  | none => st
  | some parent => st.setCertificate c.id fun row => { row with caref := some parent.refid }

/-- The certificates with an authority key identifier and without an issuer. -/
def orphanCertificates (st : Store) : List Certificate :=
  st.certificates.select fun c => isBlankText c.caref && c.aki.isSome

def rechainCertificates (st : Store) : Store :=
  (orphanCertificates st).foldl rechainCertificate st

def duplicateSkis (st : Store) : List String :=
  (st.cas.rows.filterMap CA.ski).dedup.filter fun ski =>
    1 < (st.cas.select fun c => c.ski = some ski).length

/-- The authorities with the same key identifier, in the order of their numbers. Merging some of
them leaves every column that choosing among others depends on. -/
def duplicateGroups (st : Store) : List (List CA) :=
  (duplicateSkis st).map fun ski => st.cas.select fun c => c.ski = some ski

/-- The authority that the others are merged into: one with a parent and a key if there is one,
else one with a parent, else one with a key, else the first. -/
def keeperOf (group : List CA) : Option CA :=
  (group.find? fun c => !isBlankText c.caref && c.prv.isSome).or <|
    (group.find? fun c => !isBlankText c.caref).or <|
      (group.find? fun c => c.prv.isSome).or group.head?

/-- The keeper takes the name of the latest of its group, and a parent and a key from the others
if it has none. -/
def keeperRow (group : List CA) (keeper row : CA) : CA :=
  { row with
    descr := (group.getLast?.map CA.descr).getD row.descr
    caref :=
      if isBlankText keeper.caref then
        (group.findSome? fun c => c.caref.filter (· ≠ "")).or row.caref
      else row.caref
    prv := row.prv.or (group.findSome? CA.prv) }

/-- `SET caref = :new_ref WHERE caref = :old_ref` -/
def redirect (newRef oldRef : String) (caref : Option String) : Option String :=
  if caref = some oldRef then some newRef else caref

def mergeInto (keeper : CA) (st : Store) (c : CA) : Store :=
  { st with
    certificates := st.certificates.map
      (fun row => { row with caref := redirect keeper.refid c.refid row.caref }) fun _ _ => rfl
    cas := (st.cas.map
      (fun row => { row with caref := redirect keeper.refid c.refid row.caref })
      fun _ _ => rfl).delete c.id }

def mergedAway (group : List CA) (keeper : CA) : List CA := group.filter fun c => c.id ≠ keeper.id

def mergeGroup (st : Store) (group : List CA) : Store :=
  match keeperOf group with
  | none => st
  | some keeper =>
    (mergedAway group keeper).foldl (mergeInto keeper) (st.setCa keeper.id (keeperRow group keeper))

def mergeDuplicates (st : Store) : Store := (duplicateGroups st).foldl mergeGroup st

/-- `CN=([^,]+)`, searched for from the left. -/
def searchCn : List Char → Option (List Char)
  | [] => none
  | c :: cs =>
    match (['C', 'N', '=']).isPrefixOf? (c :: cs) with
    | some rest => if rest.head?.all (· = ',') then searchCn cs else some (rest.takeWhile (· ≠ ','))
    | none => searchCn cs

/-- The common name of a row: in its subject, in its certificate, or else its name. -/
def commonNameFor (c : Certificate) : String :=
  let fromSubject := ((c.subject.bind fun s => searchCn s.toList).map fun cn =>
    stripSpaces (String.ofList cn)).filter (· ≠ "")
  let fromCertificate := (c.crt.bind Encoded.decoded).bind fun pem =>
    (Name.commonNames pem.leaf.subject).head?
  (fromSubject.or (fromCertificate.filter (· ≠ ""))).getD c.descr

/-- A certificate without a common name gets one, unless there is none to be found. -/
def populateCn (c : Certificate) : Certificate :=
  if isBlankText c.subjectCn && commonNameFor c ≠ "" then
    { c with subjectCn := some (commonNameFor c) }
  else c

def populateSubjectCns (st : Store) : Store :=
  { st with
    certificates := st.certificates.map populateCn fun k c => by
      change populateCn { c with id := k } = { populateCn c with id := k }
      change (if isBlankText c.subjectCn && commonNameFor c ≠ "" then _ else _) = _
      unfold populateCn
      split_ifs <;> rfl }

section Names

variable (st : Store)

@[simp] theorem cas_populateSubjectCns : (populateSubjectCns st).cas = st.cas := rfl

@[simp] theorem crls_populateSubjectCns : (populateSubjectCns st).crls = st.crls := rfl

@[simp] theorem ocspResponses_populateSubjectCns :
    (populateSubjectCns st).ocspResponses = st.ocspResponses := rfl

theorem exists_mem_of_populateSubjectCns {row : Certificate}
    (h : row ∈ (populateSubjectCns st).certificates) :
    ∃ c ∈ st.certificates, row.caref = c.caref := by
  obtain ⟨c, hc, rfl⟩ := List.mem_map.mp h
  refine ⟨c, hc, ?_⟩
  unfold populateCn
  split_ifs <;> rfl

end Names

section Run

variable [KeyIdLibrary]

def prepared (st : Store) : Store := rechainCertificates (rechainCas (populateIdentifiers st))

def backfillSkiAki (st : Store) : Store × Stats :=
  let identified := populateIdentifiers st
  let chained := rechainCas identified
  let rechained := rechainCertificates chained
  let merged := mergeDuplicates rechained
  let populated := populateSubjectCns merged
  let named := (merged.certificates.select fun c =>
    isBlankText c.subjectCn && commonNameFor c ≠ "").length
  (populated,
    { updatedCas := (st.cas.select fun ca => ca.ski.isNone && (certificateSki ca).isSome).length
      updatedCerts := (st.certificates.select fun c => (unidentified c).isSome).length
      rechainedCas := ((orphanCas identified).filter fun ca =>
        (parentByAki identified ca).isSome).length
      rechainedCerts := ((orphanCertificates chained).filter fun c =>
        (issuerByAki chained c).isSome).length
      deduplicated := rechained.cas.rows.length - merged.cas.rows.length
      orphanCas := (populated.cas.select fun ca => isBlankText ca.caref && ca.ski.isSome &&
        ca.subject.isSome && ca.issuer.isSome && ca.subject ≠ ca.issuer).length
      orphanCerts := (orphanCertificates populated).length
      totalCas := st.cas.rows.length
      totalCerts := st.certificates.rows.length
      populatedCn := if named = 0 then none else some named })

theorem store_backfillSkiAki (st : Store) :
    (backfillSkiAki st).1 = populateSubjectCns (mergeDuplicates (prepared st)) := rfl

end Run

end SkiAkiBackfill

end CaManager
