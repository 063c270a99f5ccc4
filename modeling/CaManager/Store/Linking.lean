import CaManager.Store.Merging

/-!
# Linking authorities

What the first three phases of the back-fill make of the authorities, and with the merges after
them, what becomes of each.
-/

namespace CaManager

open Library

namespace SkiAkiBackfill

section Linking

variable [KeyIdLibrary]

def keyId (ca : CA) : Option String := ca.ski.or (certificateSki ca)

/-- The first other authority whose key identifier the certificate of an authority names. -/
def foundParent (st : Store) (ca : CA) : Option CA :=
  (certificateAki ca).bind fun aki =>
    if some aki = keyId ca then none
    else st.cas.first fun c => keyId c = some aki && c.id ≠ ca.id

/-- The reference to the parent: the stored one, or else to the one that is found. -/
def parentRef (st : Store) (ca : CA) : Option String :=
  if isBlankText ca.caref then ((foundParent st ca).map CA.refid).or ca.caref else ca.caref

def linkedRow (st : Store) (ca : CA) : CA := { ca with ski := keyId ca, caref := parentRef st ca }

def linkedRows (st : Store) : List CA := st.cas.rows.map (linkedRow st)

def unlinked (ca : CA) : CA := { ca with caref := none }

variable {s t : Store}

def SameButParents (s t : Store) : Prop :=
  (t.cas.map unlinked fun _ _ => rfl) = s.cas.map unlinked fun _ _ => rfl

theorem parentByAki_congr (h : SameButParents s t) (ca : CA) :
    (parentByAki t ca).map CA.refid = (parentByAki s ca).map CA.refid := by
  have hfirst : ∀ (u : Store) (p : CA → Bool), (∀ c, p (unlinked c) = p c) →
      (u.cas.first p).map CA.refid =
        ((u.cas.map unlinked fun _ _ => rfl).first p).map CA.refid := by
    intro u p hp
    rw [Table.first_map (f := unlinked) (fun _ _ => rfl) hp, Option.map_map]
    rfl
  unfold parentByAki
  cases certificateAki ca with
  | none => rfl
  | some aki =>
    rw [Option.bind_some, Option.bind_some]
    split_ifs
    · rfl
    · rw [hfirst s _ fun _ => rfl, hfirst t _ fun _ => rfl, h]

def linkTo (s : Store) (ca row : CA) : CA :=
  { row with caref := ((parentByAki s ca).map CA.refid).or row.caref }

theorem rechainCa_eq (h : SameButParents s t) (ca : CA) :
    rechainCa t ca = t.setCa ca.id (linkTo s ca) := by
  have hsame := parentByAki_congr h ca
  unfold rechainCa
  cases hparent : parentByAki t ca with
  | none =>
    rw [hparent, Option.map_none] at hsame
    have hfixed : ∀ row, linkTo s ca row = row := by
      intro row
      rw [linkTo, ← hsame, Option.none_or]
    change t = { t with cas := t.cas.update ca.id (linkTo s ca) }
    rw [Table.update_of_fixed hfixed]
  | some parent =>
    rw [hparent, Option.map_some] at hsame
    have hlink : linkTo s ca = fun row => { row with caref := some parent.refid } := by
      funext row
      rw [linkTo, ← hsame, Option.some_or]
    rw [hlink]

theorem SameButParents.setCa (h : SameButParents s t) (id : ℕ) (ca : CA) :
    SameButParents s (t.setCa id (linkTo s ca)) := by
  have hmap : (t.cas.update id (linkTo s ca)).map unlinked (fun _ _ => rfl) =
      (t.cas.map unlinked fun _ _ => rfl).update id fun row => row :=
    Table.map_update (fun _ _ => rfl) fun _ => rfl
  exact hmap.trans ((Table.update_of_fixed fun _ => rfl).trans h)

theorem foldl_rechainCa (h : SameButParents s t) (cas : List CA) :
    cas.foldl rechainCa t =
      { t with cas := cas.foldl (fun u ca => u.update ca.id (linkTo s ca)) t.cas } := by
  induction cas generalizing t with
  | nil => rfl
  | cons ca cas ih =>
    rw [List.foldl_cons, rechainCa_eq h ca, ih (h.setCa ca.id ca)]
    rfl

omit [KeyIdLibrary] in
theorem foldl_rechainCertificate (cs : List Certificate) :
    ∃ certificates, cs.foldl rechainCertificate t = { t with certificates } := by
  induction cs generalizing t with
  | nil => exact ⟨t.certificates, rfl⟩
  | cons c cs ih =>
    obtain ⟨certificates, hrest⟩ := ih (t := rechainCertificate t c)
    refine ⟨certificates, ?_⟩
    rw [List.foldl_cons, hrest]
    unfold rechainCertificate
    cases issuerByAki t c <;> rfl

theorem parentByAki_populateIdentifiers (st : Store) (ca : CA) :
    (parentByAki (populateIdentifiers st) (populateCa ca)).map CA.refid =
      (foundParent st ca).map CA.refid := by
  change ((certificateAki ca).bind fun aki => if some aki = keyId ca then none
    else (st.cas.map populateCa fun _ _ => rfl).first _).map CA.refid = _
  unfold foundParent
  cases certificateAki ca with
  | none => rfl
  | some aki =>
    rw [Option.bind_some, Option.bind_some]
    split_ifs
    · rfl
    · rw [Table.first_map (f := populateCa) (fun _ _ => rfl) fun _ => rfl, Option.map_map]
      rfl

theorem prepared_eq (st : Store) : ∃ certificates, prepared st =
    { st with
      cas := (orphanCas (populateIdentifiers st)).foldl
        (fun u ca => u.update ca.id (linkTo (populateIdentifiers st) ca))
          (populateIdentifiers st).cas
      certificates } := by
  have hloop := foldl_rechainCa (s := populateIdentifiers st) (t := populateIdentifiers st) rfl
    (orphanCas (populateIdentifiers st))
  obtain ⟨certificates, hcertificates⟩ := foldl_rechainCertificate
    (t := rechainCas (populateIdentifiers st))
    (orphanCertificates (rechainCas (populateIdentifiers st)))
  refine ⟨certificates, ?_⟩
  rw [prepared, rechainCertificates, hcertificates, rechainCas, hloop]
  rfl

theorem rows_prepared (st : Store) : (prepared st).cas.rows = linkedRows st := by
  obtain ⟨_, hprepared⟩ := prepared_eq st
  rw [hprepared]
  refine (Table.rows_foldl_update_select
    (g := fun ca row => linkTo (populateIdentifiers st) ca row)).trans ?_
  change (st.cas.rows.map populateCa).map _ = _
  rw [List.map_map]
  refine List.map_congr_left fun ca _ => ?_
  change (if isBlankText ca.caref then Keyed.withKey ca.id (linkTo _ (populateCa ca)
    (populateCa ca)) else populateCa ca) = linkedRow st ca
  unfold linkedRow parentRef
  split_ifs
  · change CA.mk .. = _
    rw [linkTo, parentByAki_populateIdentifiers]
    rfl
  · rfl

theorem distinctRefids_prepared {st : Store} (h : st.DistinctRefids) :
    (prepared st).DistinctRefids := by
  unfold Store.DistinctRefids
  rw [rows_prepared, linkedRows, List.map_map]
  exact h

theorem distinctRefids_backfill {st : Store} (h : st.DistinctRefids) :
    (backfillSkiAki st).1.DistinctRefids := by
  rw [store_backfillSkiAki, distinctRefids_populateSubjectCns]
  exact distinctRefids_mergeDuplicates (distinctRefids_prepared h)

theorem mem_linkedRows {st : Store} {c : CA} :
    c ∈ linkedRows st ↔ ∃ ca ∈ st.cas, linkedRow st ca = c := List.mem_map

theorem mem_prepared {st : Store} {c : CA} : c ∈ (prepared st).cas ↔ c ∈ linkedRows st := by
  rw [Table.mem_def, rows_prepared]

theorem keyId_foundParent {st : Store} {ca parent : CA} (h : foundParent st ca = some parent) :
    parent ∈ st.cas ∧ keyId parent ≠ keyId ca := by
  obtain ⟨aki, _, hfound⟩ := Option.bind_eq_some_iff.mp h
  split_ifs at hfound with hself
  have htest := Table.holds_of_first hfound
  rw [Bool.and_eq_true, decide_eq_true_eq] at htest
  exact ⟨Table.mem_of_first hfound, fun heq => hself (htest.1.symm.trans heq)⟩

end Linking

section Survivors

variable [KeyIdLibrary] {st : Store} {ca : CA}

def Stays (st : Store) (ca : CA) : Prop := ¬Superseded (linkedRows st) (linkedRow st ca)

theorem cas_backfillSkiAki (st : Store) :
    (backfillSkiAki st).1.cas = (mergeDuplicates (prepared st)).cas := by
  rw [store_backfillSkiAki, cas_populateSubjectCns]

theorem caref_of_parentRef (hdistinct : st.DistinctRefids) {c : CA} (hc : c ∈ st.cas)
    (hsame : keyId ca = keyId c) (h : parentRef st ca = some c.refid) : ca.caref = some c.refid := by
  unfold parentRef at h
  split_ifs at h
  · rcases Option.or_eq_some_iff.mp h with hfound | ⟨_, hstored⟩
    · obtain ⟨parent, hparent, hrefid⟩ := Option.map_eq_some_iff.mp hfound
      obtain ⟨hmem, hne⟩ := keyId_foundParent hparent
      rw [hdistinct.eq_of_refid hmem hc hrefid] at hne
      exact absurd hsame.symm hne
    · exact hstored
  · exact h

theorem linkedRow_mem_prepared (hca : ca ∈ st.cas) : linkedRow st ca ∈ (prepared st).cas :=
  mem_prepared.mpr (mem_linkedRows.mpr ⟨ca, hca, rfl⟩)

theorem stays_iff : Stays st ca ↔ ¬Superseded (prepared st).cas.rows (linkedRow st ca) := by
  rw [rows_prepared]
  exact Iff.rfl

theorem get?_backfill_eq_none_iff (hca : ca ∈ st.cas) :
    (backfillSkiAki st).1.cas.get? ca.id = none ↔ ¬Stays st ca := by
  rw [cas_backfillSkiAki, stays_iff, not_not]
  constructor
  · intro hnone
    by_contra hbest
    obtain ⟨row, hrow, hsurvives⟩ := exists_mem_mergeDuplicates (linkedRow_mem_prepared hca) hbest
    exact Table.get?_eq_none_iff.mp hnone row hrow hsurvives.id
  · exact get?_mergeDuplicates_of_superseded (linkedRow_mem_prepared hca)

theorem exists_of_mem_backfill {row : CA} (h : row ∈ (backfillSkiAki st).1.cas) :
    ∃ ca ∈ st.cas, Stays st ca ∧ Survives (prepared st) (linkedRow st ca) row := by
  rw [cas_backfillSkiAki] at h
  obtain ⟨c, hc, hbest, hsurvives⟩ := of_mem_mergeDuplicates h
  obtain ⟨ca, hca, rfl⟩ := mem_linkedRows.mp (mem_prepared.mp hc)
  exact ⟨ca, hca, stays_iff.mpr hbest, hsurvives⟩

theorem exists_mem_backfill (hca : ca ∈ st.cas) (hstays : Stays st ca) :
    ∃ row ∈ (backfillSkiAki st).1.cas, Survives (prepared st) (linkedRow st ca) row := by
  rw [cas_backfillSkiAki]
  exact exists_mem_mergeDuplicates (linkedRow_mem_prepared hca) (stays_iff.mp hstays)

theorem exists_stays (hca : ca ∈ st.cas) (hski : keyId ca ≠ none) :
    ∃ k ∈ st.cas, keyId k = keyId ca ∧ Stays st k := by
  obtain ⟨c, hc, hsame, hbest⟩ := exists_survivor (linkedRow_mem_prepared hca) hski
  obtain ⟨k, hk, rfl⟩ := mem_linkedRows.mp (mem_prepared.mp hc)
  exact ⟨k, hk, hsame, stays_iff.mpr hbest⟩

theorem eq_of_stays {k k' : CA} (hk : k ∈ st.cas) (hk' : k' ∈ st.cas) (hski : keyId k ≠ none)
    (hsame : keyId k = keyId k') (hstays : Stays st k) (hstays' : Stays st k') : k = k' := by
  have hlinked := eq_of_survive (linkedRow_mem_prepared hk) (linkedRow_mem_prepared hk') hski hsame
    (stays_iff.mp hstays) (stays_iff.mp hstays')
  have hid := congrArg CA.id hlinked
  exact Table.eq_of_key_eq hk hk' hid

end Survivors

@[reducible] def numberedKeyIds : KeyIdLibrary := ⟨fun key => decimalText key.id⟩

end SkiAkiBackfill

end CaManager
