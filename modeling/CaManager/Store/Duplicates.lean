import CaManager.Acme.Tables
import CaManager.Store.Linking
import CaManager.Store.Operations

/-!
# Merging duplicate authorities

After the back-fill nothing should refer to an authority that it deleted, no authority should have
become its own parent, and a key that one of several duplicates had should not be lost.
-/

namespace CaManager

open Library

structure CertificatePolicy where
  name : String
  caId : Option ℕ := none
  deriving Repr, DecidableEq

structure Database where
  acme : AcmeStore
  policies : List CertificatePolicy
  distinct : acme.store.DistinctRefids

namespace Database

def cas (db : Database) : Table CA := db.acme.store.cas

def refidReferences (db : Database) : List String := SkiAkiBackfill.references db.acme.store

/-- The references of revocation lists, status responses, domains and policies. -/
def idReferences (db : Database) : List ℕ :=
  db.acme.store.crls.rows.map CrlMetadata.caId ++
    db.acme.store.ocspResponses.rows.map OcspResponse.caId ++
    db.acme.domains.filterMap Prod.snd ++ db.acme.localDomains.map Prod.snd ++
    db.policies.filterMap CertificatePolicy.caId

def backfill [KeyIdLibrary] (db : Database) : Database where
  acme := { db.acme with store := (SkiAkiBackfill.backfillSkiAki db.acme.store).1 }
  policies := db.policies
  distinct := SkiAkiBackfill.distinctRefids_backfill db.distinct

end Database

namespace SkiAkiBackfill

section Claims

variable [KeyIdLibrary]

/-- What merging duplicates should do to the database: no reference to an authority that is
deleted is left, no authority becomes its own parent, and where an authority had a key, the one
with its key identifier has one. -/
structure Clean (before after : Database) : Prop where
  references : ∀ ca ∈ before.cas, after.cas.get? ca.id = none →
    ca.id ∉ after.idReferences ∧ ca.refid ∉ after.refidReferences
  parents : ∀ row ∈ after.cas, row.caref = some row.refid →
    ∀ ca ∈ before.cas, ca.id = row.id → ca.caref = some ca.refid
  keys : ∀ ca ∈ before.cas, keyId ca ≠ none → ca.hasPrivateKey = true →
    ∃ k ∈ after.cas, k.ski = keyId ca ∧ k.hasPrivateKey = true

/-- The duplicates can be merged: only certificates and authorities refer to those that do not
stay, none of these is the parent of the one that stays, and a group with a key has one outside
of the hardware, or the one that stays has it. -/
structure Mergeable (db : Database) : Prop where
  references : ∀ ca ∈ db.cas, ¬Stays db.acme.store ca → ca.id ∉ db.idReferences
  parents : ∀ k ∈ db.cas, Stays db.acme.store k → ∀ ca ∈ db.cas, ¬Stays db.acme.store ca → keyId k = keyId ca →
    parentRef db.acme.store k ≠ some ca.refid
  keys : ∀ ca ∈ db.cas, keyId ca ≠ none → ca.hasPrivateKey = true →
    ∀ k ∈ db.cas, Stays db.acme.store k → keyId k = keyId ca →
      k.hsmKeyId.isSome = true ∨ ∃ d ∈ db.cas, keyId d = keyId ca ∧ d.prv.isSome = true

variable {db : Database} {ca : CA}

theorem cas_backfill (db : Database) :
    db.backfill.cas = (backfillSkiAki db.acme.store).1.cas := by
  rw [Database.cas, Database.backfill]

theorem mem_backfill_of_stays (hca : ca ∈ db.cas) (hstays : Stays db.acme.store ca) :
    ∃ row ∈ db.backfill.cas,
      Survives (prepared db.acme.store) (linkedRow db.acme.store ca) row := by
  rw [cas_backfill]
  exact exists_mem_backfill hca hstays

theorem of_mem_backfill {row : CA} (h : row ∈ db.backfill.cas) :
    ∃ ca ∈ db.cas, Stays db.acme.store ca ∧
      Survives (prepared db.acme.store) (linkedRow db.acme.store ca) row := by
  rw [cas_backfill] at h
  exact exists_of_mem_backfill h

theorem deleted_iff (hca : ca ∈ db.cas) :
    db.backfill.cas.get? ca.id = none ↔ ¬Stays db.acme.store ca := by
  rw [cas_backfill]
  exact get?_backfill_eq_none_iff hca

theorem store_backfill (db : Database) : db.backfill.acme.store =
    populateSubjectCns (mergeDuplicates (prepared db.acme.store)) := by
  rw [Database.backfill]
  exact store_backfillSkiAki db.acme.store

theorem idReferences_backfill (db : Database) : db.backfill.idReferences = db.idReferences := by
  have hmerged := merged_mergeDuplicates (prepared db.acme.store)
  obtain ⟨_, hprepared⟩ := prepared_eq db.acme.store
  have hcrls : db.backfill.acme.store.crls = db.acme.store.crls := by
    rw [store_backfill, crls_populateSubjectCns, hmerged.crls, hprepared]
  have hresponses : db.backfill.acme.store.ocspResponses = db.acme.store.ocspResponses := by
    rw [store_backfill, ocspResponses_populateSubjectCns, hmerged.ocspResponses, hprepared]
  have hdomains : db.backfill.acme.domains = db.acme.domains := by rw [Database.backfill]
  have hlocal : db.backfill.acme.localDomains = db.acme.localDomains := by rw [Database.backfill]
  have hpolicies : db.backfill.policies = db.policies := by rw [Database.backfill]
  rw [Database.idReferences, hcrls, hresponses, hdomains, hlocal, hpolicies,
    Database.idReferences]

theorem exists_of_mem_refidReferences {r : String} (h : r ∈ db.backfill.refidReferences) :
    ∃ caref, redirectAll (merges (prepared db.acme.store)) caref = some r := by
  rw [Database.refidReferences, store_backfill] at h
  exact (merged_mergeDuplicates _).exists_of_mem_references h

omit [KeyIdLibrary] in
theorem hasPrivateKey_iff (ca : CA) :
    ca.hasPrivateKey = true ↔ ca.prv.isSome = true ∨ ca.hsmKeyId.isSome = true := by
  rw [CA.hasPrivateKey, Bool.or_eq_true]

section Survivor

variable {row : CA} (hsurvives : Survives (prepared db.acme.store) (linkedRow db.acme.store ca) row)

include hsurvives

/-- An authority that stays has a key afterwards exactly if it had one, or another of its group
had one outside of the hardware. -/
theorem hasPrivateKey_survivor_iff (hca : ca ∈ db.cas) (hstays : Stays db.acme.store ca) :
    row.hasPrivateKey = true ↔ ca.hasPrivateKey = true ∨
      keyId ca ≠ none ∧ ∃ d ∈ db.cas, keyId d = keyId ca ∧ d.prv.isSome = true := by
  have hprv := hsurvives.isSome_prv_iff (linkedRow_mem_prepared hca) (stays_iff.mp hstays)
  have hgroup : (∃ d ∈ (prepared db.acme.store).cas, d.ski = keyId ca ∧ d.prv.isSome = true) ↔
      ∃ d ∈ db.cas, keyId d = keyId ca ∧ d.prv.isSome = true := by
    constructor
    · rintro ⟨c, hc, hski, hkey⟩
      obtain ⟨d, hd, rfl⟩ := mem_linkedRows.mp (mem_prepared.mp hc)
      exact ⟨d, hd, hski, hkey⟩
    · rintro ⟨d, hd, hski, hkey⟩
      exact ⟨linkedRow db.acme.store d, linkedRow_mem_prepared hd, hski, hkey⟩
  rw [hasPrivateKey_iff, hasPrivateKey_iff, hprv, hsurvives.hsmKeyId, or_right_comm, ← hgroup]
  exact Iff.rfl

/-- An authority that stays is its own parent afterwards exactly if it was before, or its parent
is merged into it. -/
theorem caref_self_survivor_iff (hca : ca ∈ db.cas) (hstays : Stays db.acme.store ca) :
    row.caref = some row.refid ↔ parentRef db.acme.store ca = some ca.refid ∨
      ∃ c ∈ db.cas, ¬Stays db.acme.store c ∧ keyId ca = keyId c ∧
        parentRef db.acme.store ca = some c.refid := by
  rw [hsurvives.caref_self_iff (distinctRefids_prepared db.distinct) (linkedRow_mem_prepared hca)
    (stays_iff.mp hstays)]
  refine or_congr Iff.rfl ?_
  constructor
  · rintro ⟨c, hc, hsup, hski, hcaref⟩
    obtain ⟨d, hd, rfl⟩ := mem_linkedRows.mp (mem_prepared.mp hc)
    exact ⟨d, hd, fun hstays' => stays_iff.mp hstays' hsup, hski, hcaref⟩
  · rintro ⟨d, hd, hnot, hski, hcaref⟩
    rw [stays_iff, not_not] at hnot
    exact ⟨linkedRow db.acme.store d, linkedRow_mem_prepared hd, hnot, hski, hcaref⟩

end Survivor

theorem mergeable_of_clean (h : Clean db db.backfill) : Mergeable db where
  references ca hca hnot := by
    rw [← idReferences_backfill db]
    exact (h.references ca hca ((deleted_iff hca).mpr hnot)).1
  parents k hk hstays ca hca hnot hski hcaref := by
    obtain ⟨row, hrow, hsurvives⟩ := mem_backfill_of_stays hk hstays
    have hself := (caref_self_survivor_iff hsurvives hk hstays).mpr
      (.inr ⟨ca, hca, hnot, hski, hcaref⟩)
    have hown := h.parents row hrow hself k hk hsurvives.id.symm
    have hstored := caref_of_parentRef db.distinct hca hski hcaref
    rw [hown, Option.some.injEq] at hstored
    rw [db.distinct.eq_of_refid hk hca hstored] at hstays
    exact hnot hstays
  keys ca hca hski hkey k hk hstays hsame := by
    obtain ⟨row, hrow, hrowski, hrowkey⟩ := h.keys ca hca hski hkey
    obtain ⟨k', hk', hstays', hsurvives⟩ := of_mem_backfill hrow
    have hsame' : keyId k' = keyId ca := hsurvives.ski.symm.trans hrowski
    have hne : keyId k' ≠ none := hsame' ▸ hski
    obtain rfl := eq_of_stays hk' hk hne (hsame'.trans hsame.symm) hstays' hstays
    rcases (hasPrivateKey_survivor_iff hsurvives hk hstays).mp hrowkey with hown | ⟨_, hgroup⟩
    · rcases (hasPrivateKey_iff k').mp hown with hprv | hhsm
      · exact .inr ⟨k', hk, hsame, hprv⟩
      · exact .inl hhsm
    · rw [hsame] at hgroup
      exact .inr hgroup

theorem clean_of_mergeable (h : Mergeable db) : Clean db db.backfill where
  references ca hca hnone := by
    have hnot := (deleted_iff hca).mp hnone
    constructor
    · rw [idReferences_backfill]
      exact h.references ca hca hnot
    · intro hrefers
      obtain ⟨caref, hcaref⟩ := exists_of_mem_refidReferences hrefers
      rw [stays_iff, not_not] at hnot
      exact not_refers_of_superseded (distinctRefids_prepared db.distinct)
        (linkedRow_mem_prepared hca) hnot caref hcaref
  parents row hrow hself ca hca hid := by
    obtain ⟨ca', hca', hstays, hsurvives⟩ := of_mem_backfill hrow
    obtain rfl := Table.eq_of_key_eq hca hca' (hid.trans hsurvives.id)
    rcases (caref_self_survivor_iff hsurvives hca hstays).mp hself with hown | hmerged
    · exact caref_of_parentRef db.distinct hca rfl hown
    · obtain ⟨c, hc, hnot, hski, hcaref⟩ := hmerged
      exact absurd hcaref (h.parents ca hca hstays c hc hnot hski)
  keys ca hca hski hkey := by
    obtain ⟨k, hk, hsame, hstays⟩ := exists_stays hca hski
    obtain ⟨row, hrow, hsurvives⟩ := mem_backfill_of_stays hk hstays
    refine ⟨row, hrow, hsurvives.ski.trans hsame, ?_⟩
    rw [hasPrivateKey_survivor_iff hsurvives hk hstays]
    rcases h.keys ca hca hski hkey k hk hstays hsame with hhsm | hgroup
    · exact .inl ((hasPrivateKey_iff k).mpr (.inr hhsm))
    · refine .inr ⟨hsame ▸ hski, ?_⟩
      rw [hsame]
      exact hgroup

/-- The back-fill leaves the database clean exactly if the duplicates can be merged. -/
theorem clean_backfill_iff (db : Database) : Clean db db.backfill ↔ Mergeable db :=
  ⟨mergeable_of_clean, clean_of_mergeable⟩

end Claims

end SkiAkiBackfill

namespace SkiAkiBackfill

section Sample

/-- Two authorities with the same key identifier. The first has the second as its parent and no
key, the second has its key in the hardware and a revocation list. -/
def duplicatedStore : Store where
  cas :=
    ⟨[{ newCa "old" "Root" (.base64 ⟨sampleCaCert, []⟩) none with
          id := 1, ski := some "AB", caref := some "new" },
      { newCa "new" "Root" (.base64 ⟨sampleCaCert, []⟩) none with
          id := 2, ski := some "AB", hsmKeyId := some 7 }], by decide⟩
  certificates := ∅
  crls := (∅ : Table CrlMetadata).insert
    { caId := 2, crlNumber := 1, thisUpdate := 0, nextUpdate := days 7
      crl :=
        { issuer := sampleName "Root", lastUpdate := 0, nextUpdate := days 7, entries := []
          crlNumber := 1, authorityKey := none, freshest := none, signedBy := sampleKey }
      revokedCount := 0, generatedBy := "system", isDelta := false, baseCrlNumber := none }
  ocspResponses := ∅
  keyEncryptionKey := none

def duplicatedDatabase : Database where
  acme :=
    { store := duplicatedStore, accounts := ∅, orders := ∅, authorizations := ∅, challenges := ∅
      nonces := ∅, localDomains := [], domains := [], issuingCaId := none
      baseUrl := "https://ca" }
  policies := []
  distinct := by decide

/-- The second authority is merged into the first, which becomes its own parent and is left
without a key, and the list still refers to the second. -/
theorem backfill_not_clean :
    let _ := numberedKeyIds
    duplicatedDatabase.backfill.cas.get? 2 = none ∧
      2 ∈ duplicatedDatabase.backfill.idReferences ∧
      (∃ row ∈ duplicatedDatabase.backfill.cas,
        row.caref = some row.refid ∧ row.hasPrivateKey = false) ∧
      ¬Clean duplicatedDatabase duplicatedDatabase.backfill := by
  intro _
  have hnone : duplicatedDatabase.backfill.cas.get? 2 = none := by decide +kernel
  have hreferred : 2 ∈ duplicatedDatabase.backfill.idReferences := by decide +kernel
  refine ⟨hnone, hreferred, by decide +kernel, fun hclean => ?_⟩
  have hgone : ∃ ca ∈ duplicatedDatabase.cas, ca.id = 2 := by decide +kernel
  obtain ⟨ca, hca, hid⟩ := hgone
  have hdeleted : duplicatedDatabase.backfill.cas.get? ca.id = none := by
    rw [hid]
    exact hnone
  have hunreferred := (hclean.references ca hca hdeleted).1
  rw [hid] at hunreferred
  exact hunreferred hreferred

end Sample

end SkiAkiBackfill

end CaManager
