import CaManager.Store.Backfill

/-!
# What merging duplicates comes to

Of the authorities with the same key identifier the one that is preferred stays, and each
reference to another of them becomes a reference to it.
-/

namespace CaManager

open Library

def Store.DistinctRefids (st : Store) : Prop := (st.cas.rows.map CA.refid).Nodup

instance (st : Store) : Decidable st.DistinctRefids := inferInstanceAs (Decidable (List.Nodup _))

theorem Store.DistinctRefids.eq_of_refid {st : Store} (h : st.DistinctRefids) {a b : CA}
    (ha : a ∈ st.cas) (hb : b ∈ st.cas) (hrefid : a.refid = b.refid) : a = b :=
  List.inj_on_of_nodup_map h ha hb hrefid

namespace SkiAkiBackfill

theorem distinctRefids_populateSubjectCns {st : Store} :
    (populateSubjectCns st).DistinctRefids ↔ st.DistinctRefids := Iff.rfl

section Preference

def rank (ca : CA) : ℕ := (if isBlankText ca.caref then 0 else 2) + if ca.prv.isSome then 1 else 0

/-- The first authority stays rather than the second: it has the higher rank, or the same rank
and the lower number. -/
def Preferred (a b : CA) : Prop := rank b < rank a ∨ rank a = rank b ∧ a.id < b.id

theorem Preferred.asymm {a b : CA} (h : Preferred a b) : ¬Preferred b a := by
  intro h'
  unfold Preferred at h h'
  omega

theorem find?_sorted {group : List CA} (hsorted : group.Pairwise fun a b => a.id < b.id)
    {p : CA → Bool} {k c : CA} (hk : group.find? p = some k) (hc : c ∈ group) (hp : p c = true) :
    c = k ∨ k.id < c.id := by
  obtain ⟨_, before, after, rfl, hbefore⟩ := List.find?_eq_some_iff_append.mp hk
  rcases List.mem_append.mp hc with hmem | hmem
  · have hfails := hbefore c hmem
    rw [hp] at hfails
    cases hfails
  · rcases List.mem_cons.mp hmem with rfl | hafter
    · exact .inl rfl
    · have hpair := (List.pairwise_append.mp hsorted).2.1
      exact .inr (List.rel_of_pairwise_cons hpair hafter)

/-- The first member that passes a test is preferred to every other, when all that pass it have
the same rank and the rest a lower one. -/
theorem preferred_of_find? {group : List CA} (hsorted : group.Pairwise fun a b => a.id < b.id)
    {p : CA → Bool} {k : CA} (hk : group.find? p = some k)
    (hsame : ∀ c ∈ group, p c = true → rank k = rank c)
    (hlower : ∀ c ∈ group, p c = false → rank c < rank k) :
    k ∈ group ∧ ∀ c ∈ group, c = k ∨ Preferred k c := by
  refine ⟨List.mem_of_find?_eq_some hk, fun c hc => ?_⟩
  cases hp : p c with
  | true =>
    rcases find?_sorted hsorted hk hc hp with rfl | hlt
    · exact .inl rfl
    · exact .inr (.inr ⟨hsame c hc hp, hlt⟩)
  | false => exact .inr (.inl (hlower c hc hp))

theorem rank_le (ca : CA) : rank ca ≤ 3 := by
  unfold rank
  split_ifs <;> omega

theorem not_isBlankText_caref (ca : CA) : (!isBlankText ca.caref) = true ↔ 2 ≤ rank ca := by
  unfold rank
  cases isBlankText ca.caref <;> cases ca.prv.isSome <;> simp

theorem isSome_prv (ca : CA) : ca.prv.isSome = true ↔ rank ca = 1 ∨ rank ca = 3 := by
  unfold rank
  cases isBlankText ca.caref <;> cases ca.prv.isSome <;> simp

theorem keeperOf_spec {group : List CA} (hsorted : group.Pairwise fun a b => a.id < b.id) {k : CA}
    (hk : keeperOf group = some k) : k ∈ group ∧ ∀ c ∈ group, c = k ∨ Preferred k c := by
  unfold keeperOf at hk
  simp only [Option.or_eq_some_iff, List.find?_eq_none, Bool.and_eq_true, not_isBlankText_caref,
    isSome_prv] at hk
  -- the tests are tried in the order of the ranks
  rcases hk with hk | ⟨hnoboth, hk | ⟨hnoparent, hk | ⟨hnokey, hk⟩⟩⟩
  · have htest := List.find?_some hk
    rw [Bool.and_eq_true, not_isBlankText_caref, isSome_prv] at htest
    refine preferred_of_find? hsorted hk (fun c hc hp => ?_) fun c hc hp => ?_
    · rw [Bool.and_eq_true, not_isBlankText_caref, isSome_prv] at hp
      omega
    · rw [Bool.eq_false_iff, Ne, Bool.and_eq_true, not_isBlankText_caref, isSome_prv] at hp
      have hle := rank_le c
      omega
  · have htest := List.find?_some hk
    rw [not_isBlankText_caref] at htest
    have hnot := hnoboth k (List.mem_of_find?_eq_some hk)
    have hle := rank_le k
    refine preferred_of_find? hsorted hk (fun c hc hp => ?_) fun c hc hp => ?_
    · have hc' := hnoboth c hc
      have hle' := rank_le c
      rw [not_isBlankText_caref] at hp
      omega
    · rw [Bool.eq_false_iff, Ne, not_isBlankText_caref] at hp
      omega
  · have htest := List.find?_some hk
    rw [isSome_prv] at htest
    have hnot := hnoparent k (List.mem_of_find?_eq_some hk)
    refine preferred_of_find? hsorted hk (fun c hc hp => ?_) fun c hc hp => ?_
    · have hc' := hnoparent c hc
      rw [isSome_prv] at hp
      omega
    · have hc' := hnoparent c hc
      rw [Bool.eq_false_iff, Ne, isSome_prv] at hp
      omega
  · -- none has a parent or a key
    obtain ⟨rest, rfl⟩ := List.head?_eq_some_iff.mp hk
    have hnot := hnoparent k List.mem_cons_self
    have hnot' := hnokey k List.mem_cons_self
    refine preferred_of_find? (p := fun _ => true) hsorted rfl (fun c hc _ => ?_) fun c _ hp => ?_
    · have hc' := hnoparent c hc
      have hc'' := hnokey c hc
      omega
    · cases hp

theorem exists_keeperOf {group : List CA} {c : CA} (hc : c ∈ group) :
    ∃ k, keeperOf group = some k := by
  obtain ⟨a, rest, rfl⟩ := List.exists_cons_of_ne_nil (List.ne_nil_of_mem hc)
  rw [← Option.isSome_iff_exists]
  simp [keeperOf]

end Preference

section Merges

def mergesOf (group : List CA) : List (CA × CA) :=
  match keeperOf group with
  | none => []
  | some keeper => (mergedAway group keeper).map fun c => (keeper, c)

def merges (s : Store) : List (CA × CA) := (duplicateGroups s).flatMap mergesOf

def redirectAll (ps : List (CA × CA)) (caref : Option String) : Option String :=
  ps.foldl (fun caref p => redirect p.1.refid p.2.refid caref) caref

theorem redirectAll_append_singleton (ps : List (CA × CA)) (p : CA × CA) (caref : Option String) :
    redirectAll (ps ++ [p]) caref = redirect p.1.refid p.2.refid (redirectAll ps caref) :=
  List.foldl_append

@[simp] theorem redirectAll_none (ps : List (CA × CA)) : redirectAll ps none = none := by
  induction ps with
  | nil => rfl
  | cons p ps ih => exact ih

def keyFor (gs : List (List CA)) (id : ℕ) : Option (Encoded KeyPem) :=
  gs.findSome? fun g => if (keeperOf g).map CA.id = some id then g.findSome? CA.prv else none

theorem keyFor_append_singleton (gs : List (List CA)) (g : List CA) (id : ℕ) :
    keyFor (gs ++ [g]) id =
      (keyFor gs id).or (if (keeperOf g).map CA.id = some id then g.findSome? CA.prv else none) := by
  unfold keyFor
  rw [List.findSome?_append, List.findSome?_cons, List.findSome?_nil]
  refine congrArg (Option.or _) ?_
  generalize (if (keeperOf g).map CA.id = some id then g.findSome? CA.prv else none) = key
  cases key <;> rfl

def unnamed (ca : CA) : CA := { ca with descr := "" }

/-- What the merging of groups makes of a row that stays, but for its name. -/
def mergedRow (gs : List (List CA)) (ps : List (CA × CA)) (ca : CA) : CA :=
  { ca with descr := "", caref := redirectAll ps ca.caref, prv := ca.prv.or (keyFor gs ca.id) }

/-- The second store comes from the first by merging these groups with these merges. -/
structure Merged (gs : List (List CA)) (ps : List (CA × CA)) (s t : Store) : Prop where
  row : ∀ id, (t.cas.get? id).map unnamed =
    if id ∈ ps.map (fun p => p.2.id) then none else (s.cas.get? id).map (mergedRow gs ps)
  certificates : t.certificates.rows =
    s.certificates.rows.map fun c => { c with caref := redirectAll ps c.caref }
  refids : (t.cas.rows.map CA.refid).Sublist (s.cas.rows.map CA.refid)
  crls : t.crls = s.crls
  ocspResponses : t.ocspResponses = s.ocspResponses

theorem merged_refl (s : Store) : Merged [] [] s s where
  row id := by
    rw [List.map_nil, if_neg List.not_mem_nil]
    refine congrArg (Option.map · _) (funext fun ca => ?_)
    change unnamed ca = { ca with descr := "", caref := ca.caref, prv := ca.prv.or none }
    rw [Option.or_none]
    rfl
  certificates := (List.map_id _).symm
  refids := List.Sublist.refl _
  crls := rfl
  ocspResponses := rfl

variable {gs : List (List CA)} {ps : List (CA × CA)} {s t : Store}

theorem Merged.mergeInto (h : Merged gs ps s t) (keeper c : CA) :
    Merged gs (ps ++ [(keeper, c)]) s (mergeInto keeper t c) where
  row id := by
    simp only [List.map_append, List.map_singleton, List.mem_append, List.mem_singleton]
    change (((t.cas.map _ _).delete c.id).get? id).map unnamed = _
    by_cases hid : id = c.id
    · rw [if_pos (.inr hid), hid, Table.get?_delete_self, Option.map_none]
    · have hcomm : unnamed ∘ (fun row : CA => { row with
            caref := redirect keeper.refid c.refid row.caref }) =
          (fun row : CA => { row with caref := redirect keeper.refid c.refid row.caref }) ∘
            unnamed := rfl
      rw [Table.get?_delete_of_ne (Ne.symm hid), Table.get?_map, Option.map_map, hcomm,
        ← Option.map_map, h.row id]
      simp only [hid, or_false]
      split_ifs
      · rfl
      · rw [Option.map_map]
        refine congrArg (Option.map · _) (funext fun ca => ?_)
        simp only [Function.comp_apply, mergedRow, redirectAll_append_singleton]
  certificates := by
    change t.certificates.rows.map _ = _
    rw [h.certificates, List.map_map]
    refine List.map_congr_left fun row _ => ?_
    simp only [Function.comp_apply, redirectAll_append_singleton]
  refids := by
    refine List.Sublist.trans ?_ h.refids
    have hsub : (((t.cas.map (fun row => { row with
        caref := redirect keeper.refid c.refid row.caref }) fun _ _ => rfl).delete c.id).rows).Sublist
          (t.cas.rows.map fun row => { row with
            caref := redirect keeper.refid c.refid row.caref }) := List.filter_sublist
    have hmap := hsub.map CA.refid
    rw [List.map_map] at hmap
    exact hmap
  crls := h.crls
  ocspResponses := h.ocspResponses

theorem Merged.foldl_mergeInto (h : Merged gs ps s t) (keeper : CA) (cs : List CA) :
    Merged gs (ps ++ cs.map fun c => (keeper, c)) s (cs.foldl (SkiAkiBackfill.mergeInto keeper) t) := by
  induction cs generalizing ps t with
  | nil =>
    rw [List.map_nil, List.append_nil]
    exact h
  | cons c cs ih =>
    have hrest := ih (h.mergeInto keeper c)
    rw [List.append_assoc, List.singleton_append] at hrest
    exact hrest

theorem keeperRow_eq {group : List CA} {keeper : CA} (h : keeperOf group = some keeper) (row : CA) :
    keeperRow group keeper row =
      { row with
        descr := (group.getLast?.map CA.descr).getD row.descr
        prv := row.prv.or (group.findSome? CA.prv) } := by
  unfold keeperRow
  split
  · next hblank =>
    have hnone : group.findSome? (fun c => c.caref.filter (· ≠ "")) = none := by
      rw [List.findSome?_eq_none_iff]
      intro c hc
      by_contra hne
      have hparent : (!isBlankText c.caref) = true := by
        unfold isBlankText
        cases hfilter : c.caref.filter (· ≠ "") with
        | none => exact absurd hfilter hne
        | some _ => rfl
      obtain ⟨k, hk⟩ : ∃ k, group.find? (fun c => !isBlankText c.caref) = some k := by
        rw [← Option.isSome_iff_exists, List.find?_isSome]
        exact ⟨c, hc, hparent⟩
      unfold keeperOf at h
      rw [Option.or_eq_some_iff, hk, Option.some_or] at h
      rcases h with hboth | ⟨_, hsame⟩
      · have htest := List.find?_some hboth
        simp [hblank] at htest
      · have htest := List.find?_some hk
        rw [Option.some.inj hsame, hblank] at htest
        cases htest
    rw [hnone, Option.none_or]
  · rfl

def takeKey (group : List CA) (keeper ca : CA) : CA :=
  if ca.id = keeper.id then { ca with prv := ca.prv.or (group.findSome? CA.prv) } else ca

theorem unnamed_keeperRow {group : List CA} {keeper : CA} (hk : keeperOf group = some keeper)
    (row : CA) :
    unnamed (if Keyed.key row = keeper.id then
        Keyed.withKey keeper.id (keeperRow group keeper row) else row) =
      takeKey group keeper (unnamed row) := by
  unfold takeKey
  by_cases hid : row.id = keeper.id
  · rw [if_pos (show Keyed.key row = keeper.id from hid), if_pos (show (unnamed row).id = _ from hid),
      keeperRow_eq hk, ← hid]
    rfl
  · rw [if_neg (show ¬Keyed.key row = keeper.id from hid),
      if_neg (show ¬(unnamed row).id = _ from hid)]

theorem mergedRow_append {group : List CA} {keeper : CA} (hk : keeperOf group = some keeper)
    (ca : CA) : mergedRow (gs ++ [group]) ps ca = takeKey group keeper (mergedRow gs ps ca) := by
  unfold takeKey
  by_cases hid : ca.id = keeper.id
  · have hsame : (mergedRow gs ps ca).id = keeper.id := hid
    rw [if_pos hsame]
    simp only [mergedRow, keyFor_append_singleton, hk, Option.map_some, hid, if_true,
      Option.or_assoc]
  · have hother : ¬(mergedRow gs ps ca).id = keeper.id := hid
    have hne : (keeperOf group).map CA.id ≠ some ca.id := by
      rw [hk, Option.map_some, Ne, Option.some.injEq]
      exact Ne.symm hid
    rw [if_neg hother]
    simp only [mergedRow, keyFor_append_singleton, if_neg hne, Option.or_none]

theorem Merged.setKeeper (h : Merged gs ps s t) {group : List CA} {keeper : CA}
    (hk : keeperOf group = some keeper) :
    Merged (gs ++ [group]) ps s (t.setCa keeper.id (keeperRow group keeper)) where
  row id := by
    change ((t.cas.update keeper.id (keeperRow group keeper)).get? id).map unnamed = _
    have hcompose : mergedRow (gs ++ [group]) ps = takeKey group keeper ∘ mergedRow gs ps :=
      funext fun ca => mergedRow_append hk ca
    have hrow := congrArg (Option.map (takeKey group keeper)) (h.row id)
    rw [Option.map_map] at hrow
    rw [Table.get?_update, Option.map_map, hcompose]
    refine (Option.map_congr fun row _ => unnamed_keeperRow hk row).trans (hrow.trans ?_)
    split_ifs
    · rfl
    · rw [Option.map_map]
  certificates := h.certificates
  refids := by
    have hsame : (t.setCa keeper.id (keeperRow group keeper)).cas.rows.map CA.refid =
        t.cas.rows.map CA.refid := by
      change (t.cas.rows.map _).map CA.refid = _
      rw [List.map_map]
      refine List.map_congr_left fun row _ => ?_
      rw [Function.comp_apply]
      split_ifs
      · rfl
      · rfl
    exact hsame ▸ h.refids
  crls := h.crls
  ocspResponses := h.ocspResponses

theorem Merged.mergeGroup (h : Merged gs ps s t) (group : List CA) :
    Merged (gs ++ [group]) (ps ++ mergesOf group) s (mergeGroup t group) := by
  unfold SkiAkiBackfill.mergeGroup mergesOf
  cases hk : keeperOf group with
  | none =>
    rw [List.append_nil]
    refine { h with row := fun id => ?_ }
    have hsame : mergedRow (gs ++ [group]) ps = mergedRow gs ps := by
      funext ca
      simp [mergedRow, keyFor_append_singleton, hk]
    rw [hsame]
    exact h.row id
  | some keeper => exact (h.setKeeper hk).foldl_mergeInto keeper _

theorem Merged.foldl_mergeGroup (h : Merged gs ps s t) (groups : List (List CA)) :
    Merged (gs ++ groups) (ps ++ groups.flatMap mergesOf) s (groups.foldl SkiAkiBackfill.mergeGroup t) := by
  induction groups generalizing gs ps t with
  | nil =>
    rw [List.append_nil, List.flatMap_nil, List.append_nil]
    exact h
  | cons group groups ih =>
    have hrest := ih (h.mergeGroup group)
    rw [List.append_assoc, List.singleton_append, List.append_assoc] at hrest
    exact hrest

theorem merged_mergeDuplicates (s : Store) :
    Merged (duplicateGroups s) (merges s) s (mergeDuplicates s) := by
  have h := (merged_refl s).foldl_mergeGroup (duplicateGroups s)
  rw [List.nil_append, List.nil_append] at h
  exact h

def references (st : Store) : List String :=
  st.certificates.rows.filterMap Certificate.caref ++ st.cas.rows.filterMap CA.caref

theorem Merged.exists_of_mem_references (h : Merged gs ps s t) {r : String}
    (hr : r ∈ references (populateSubjectCns t)) : ∃ caref, redirectAll ps caref = some r := by
  rcases List.mem_append.mp hr with hcertificate | hca
  · obtain ⟨row, hrow, hcaref⟩ := List.mem_filterMap.mp hcertificate
    obtain ⟨c, hc, hsame⟩ := exists_mem_of_populateSubjectCns _ hrow
    rw [Table.mem_def, h.certificates] at hc
    obtain ⟨c', _, rfl⟩ := List.mem_map.mp hc
    exact ⟨c'.caref, hsame.symm.trans hcaref⟩
  · obtain ⟨row, hrow, hcaref⟩ := List.mem_filterMap.mp hca
    have hget : t.cas.get? row.id = some row := Table.get?_eq_some_iff.mpr ⟨hrow, rfl⟩
    have hmerged := h.row row.id
    rw [hget, Option.map_some] at hmerged
    split_ifs at hmerged
    obtain ⟨ca, _, heq⟩ := Option.map_eq_some_iff.mp hmerged.symm
    have hsame : redirectAll ps ca.caref = row.caref := congrArg CA.caref heq
    exact ⟨ca.caref, hsame.trans hcaref⟩

end Merges

section Survivors

def Superseded (rows : List CA) (c : CA) : Prop :=
  c.ski ≠ none ∧ ∃ d ∈ rows, d.ski = c.ski ∧ Preferred d c

variable {s : Store} {k c : CA}

def sameSki (s : Store) (ski : String) : List CA := s.cas.select fun c => c.ski = some ski

theorem mem_sameSki {ski : String} : c ∈ sameSki s ski ↔ c ∈ s.cas ∧ c.ski = some ski := by
  simp [sameSki, Table.mem_select]

theorem sorted_sameSki (ski : String) : (sameSki s ski).Pairwise fun a b => a.id < b.id :=
  (List.pairwise_map.mp s.cas.sorted).sublist List.filter_sublist

theorem mem_duplicateGroups {group : List CA} : group ∈ duplicateGroups s ↔
    ∃ ski, group = sameSki s ski ∧ 1 < group.length := by
  simp only [duplicateGroups, duplicateSkis, List.mem_map, List.mem_filter, List.mem_dedup,
    List.mem_filterMap, decide_eq_true_eq]
  constructor
  · rintro ⟨ski, ⟨_, hlength⟩, rfl⟩
    exact ⟨ski, rfl, hlength⟩
  · rintro ⟨ski, rfl, hlength⟩
    obtain ⟨c, hc⟩ := List.exists_mem_of_length_pos (Nat.zero_lt_of_lt hlength)
    exact ⟨ski, ⟨⟨c, mem_sameSki.mp hc⟩, hlength⟩, rfl⟩

theorem mem_mergesOf {group : List CA} : (k, c) ∈ mergesOf group ↔
    keeperOf group = some k ∧ c ∈ group ∧ c.id ≠ k.id := by
  unfold mergesOf mergedAway
  cases hk : keeperOf group with
  | none => simp
  | some keeper =>
    simp only [List.mem_map, List.mem_filter, Prod.mk.injEq, Option.some.injEq,
      decide_eq_true_eq]
    constructor
    · rintro ⟨c', ⟨hc', hid⟩, rfl, rfl⟩
      exact ⟨rfl, hc', hid⟩
    · rintro ⟨rfl, hc, hid⟩
      exact ⟨c, ⟨hc, hid⟩, rfl, rfl⟩

theorem not_preferred_self (c : CA) : ¬Preferred c c := fun h => h.asymm h

theorem keeperOf_sameSki {ski : String} : keeperOf (sameSki s ski) = some k ↔
    k ∈ sameSki s ski ∧ ¬Superseded s.cas.rows k := by
  constructor
  · intro hk
    obtain ⟨hmem, hbest⟩ := keeperOf_spec (sorted_sameSki ski) hk
    refine ⟨hmem, ?_⟩
    rintro ⟨_, d, hd, hdski, hpreferred⟩
    rcases hbest d (mem_sameSki.mpr ⟨hd, hdski.trans (mem_sameSki.mp hmem).2⟩) with rfl | h
    · exact not_preferred_self d hpreferred
    · exact hpreferred.asymm h
  · rintro ⟨hmem, hbest⟩
    obtain ⟨k', hk'⟩ := exists_keeperOf hmem
    obtain ⟨hmem', hbest'⟩ := keeperOf_spec (sorted_sameSki ski) hk'
    rcases hbest' k hmem with rfl | hpreferred
    · exact hk'
    · obtain ⟨hcas, hski⟩ := mem_sameSki.mp hmem
      obtain ⟨hcas', hski'⟩ := mem_sameSki.mp hmem'
      exact absurd ⟨hski ▸ Option.some_ne_none ski, k', hcas', hski'.trans hski.symm, hpreferred⟩
        hbest

theorem one_lt_length {l : List CA} {a b : CA} (ha : a ∈ l) (hb : b ∈ l) (hne : a ≠ b) :
    1 < l.length := by
  match l with
  | [] => cases ha
  | [x] =>
    rw [List.mem_singleton] at ha hb
    exact absurd (ha.trans hb.symm) hne
  | _ :: _ :: l => exact Nat.lt_add_of_pos_left (Nat.succ_pos _)

/-- An authority is merged into another with its key identifier if that one is preferred to it,
and no third one to that. -/
theorem mem_merges : (k, c) ∈ merges s ↔
    c ∈ s.cas ∧ Superseded s.cas.rows c ∧ k ∈ s.cas ∧ k.ski = c.ski ∧
      ¬Superseded s.cas.rows k := by
  simp only [merges, List.mem_flatMap, mem_duplicateGroups]
  constructor
  · rintro ⟨_, ⟨ski, rfl, _⟩, hmem⟩
    obtain ⟨hkeeper, hc, hid⟩ := mem_mergesOf.mp hmem
    obtain ⟨hk, hbest⟩ := keeperOf_spec (sorted_sameSki ski) hkeeper
    obtain ⟨hcmem, hcski⟩ := mem_sameSki.mp hc
    obtain ⟨hkmem, hkski⟩ := mem_sameSki.mp hk
    have hsame : k.ski = c.ski := hkski.trans hcski.symm
    refine ⟨hcmem, ⟨hcski ▸ Option.some_ne_none ski, k, hkmem, hsame, ?_⟩, hkmem, hsame,
      (keeperOf_sameSki.mp hkeeper).2⟩
    rcases hbest c hc with rfl | hpreferred
    · exact absurd rfl hid
    · exact hpreferred
  · rintro ⟨hcmem, ⟨hski, d, hd, hdski, hpreferred⟩, hkmem, hsame, hbest⟩
    obtain ⟨ski, hsome⟩ := Option.ne_none_iff_exists'.mp hski
    have hc : c ∈ sameSki s ski := mem_sameSki.mpr ⟨hcmem, hsome⟩
    have hd' : d ∈ sameSki s ski := mem_sameSki.mpr ⟨hd, hdski.trans hsome⟩
    have hk : k ∈ sameSki s ski := mem_sameSki.mpr ⟨hkmem, hsame.trans hsome⟩
    have hne : c ≠ d := by
      rintro rfl
      exact not_preferred_self c hpreferred
    refine ⟨_, ⟨ski, rfl, one_lt_length hc hd' hne⟩,
      mem_mergesOf.mpr ⟨keeperOf_sameSki.mpr ⟨hk, hbest⟩, hc, fun hid => ?_⟩⟩
    obtain rfl := Table.eq_of_key_eq hcmem hkmem hid
    exact hbest ⟨hski, d, hd, hdski, hpreferred⟩

theorem exists_survivor (hc : c ∈ s.cas) (hski : c.ski ≠ none) :
    ∃ k ∈ s.cas, k.ski = c.ski ∧ ¬Superseded s.cas.rows k := by
  obtain ⟨ski, hsome⟩ := Option.ne_none_iff_exists'.mp hski
  obtain ⟨k, hk⟩ := exists_keeperOf (mem_sameSki.mpr ⟨hc, hsome⟩)
  obtain ⟨hmem, hbest⟩ := keeperOf_sameSki.mp hk
  obtain ⟨hkmem, hkski⟩ := mem_sameSki.mp hmem
  exact ⟨k, hkmem, hkski.trans hsome.symm, hbest⟩

theorem eq_of_survive {k' : CA} (hk : k ∈ s.cas) (hk' : k' ∈ s.cas) (hski : k.ski ≠ none)
    (hsame : k.ski = k'.ski) (hbest : ¬Superseded s.cas.rows k)
    (hbest' : ¬Superseded s.cas.rows k') : k = k' := by
  obtain ⟨ski, hsome⟩ := Option.ne_none_iff_exists'.mp hski
  have hkeeper := keeperOf_sameSki.mpr ⟨mem_sameSki.mpr ⟨hk, hsome⟩, hbest⟩
  have hkeeper' := keeperOf_sameSki.mpr ⟨mem_sameSki.mpr ⟨hk', hsame.symm.trans hsome⟩, hbest'⟩
  exact Option.some.inj (hkeeper.symm.trans hkeeper')

end Survivors

section Results

variable {s : Store} {k c ca row : CA}

theorem redirectAll_of_forall_ne {ps : List (CA × CA)} {r : String}
    (h : ∀ p ∈ ps, p.2.refid ≠ r) : redirectAll ps (some r) = some r := by
  induction ps with
  | nil => rfl
  | cons p ps ih =>
    rw [List.forall_mem_cons] at h
    have hhead : redirect p.1.refid p.2.refid (some r) = some r :=
      if_neg fun heq => h.1 (Option.some.inj heq).symm
    change redirectAll ps (redirect p.1.refid p.2.refid (some r)) = _
    rw [hhead]
    exact ih h.2

theorem redirectAll_of_mem {ps : List (CA × CA)} (hmem : (k, c) ∈ ps)
    (hsame : ∀ p ∈ ps, p.2.refid = c.refid → p.1.refid = k.refid)
    (hstays : ∀ p ∈ ps, p.2.refid ≠ k.refid) :
    redirectAll ps (some c.refid) = some k.refid := by
  induction ps with
  | nil => cases hmem
  | cons p ps ih =>
    rw [List.forall_mem_cons] at hsame hstays
    change redirectAll ps (redirect p.1.refid p.2.refid (some c.refid)) = _
    by_cases hp : p.2.refid = c.refid
    · have hhead : redirect p.1.refid p.2.refid (some c.refid) = some k.refid := by
        rw [redirect, if_pos (congrArg some hp.symm), hsame.1 hp]
      rw [hhead]
      exact redirectAll_of_forall_ne hstays.2
    · have hhead : redirect p.1.refid p.2.refid (some c.refid) = some c.refid :=
        if_neg fun heq => hp (Option.some.inj heq).symm
      rw [hhead]
      rcases List.mem_cons.mp hmem with rfl | hmem
      · exact absurd rfl hp
      · exact ih hmem hsame.2 hstays.2

theorem redirectAll_superseded (hdistinct : s.DistinctRefids) (h : (k, c) ∈ merges s) :
    redirectAll (merges s) (some c.refid) = some k.refid := by
  obtain ⟨hc, _, hk, hski, hbest⟩ := mem_merges.mp h
  refine redirectAll_of_mem h (fun p hp hrefid => ?_) (fun p hp hrefid => ?_)
  · obtain ⟨hc', hsup', hk', hski', hbest'⟩ := mem_merges.mp (show (p.1, p.2) ∈ merges s from hp)
    have hsame : p.2 = c := hdistinct.eq_of_refid hc' hc hrefid
    rw [hsame] at hski' hsup'
    have hnone : k.ski ≠ none := hski ▸ hsup'.1
    rw [eq_of_survive hk hk' hnone (hski.trans hski'.symm) hbest hbest']
  · obtain ⟨hc', hsup', _⟩ := mem_merges.mp (show (p.1, p.2) ∈ merges s from hp)
    rw [hdistinct.eq_of_refid hc' hk hrefid] at hsup'
    exact hbest hsup'

theorem redirectAll_other {r : String}
    (h : ∀ c ∈ s.cas, Superseded s.cas.rows c → c.refid ≠ r) :
    redirectAll (merges s) (some r) = some r := by
  refine redirectAll_of_forall_ne fun p hp => ?_
  obtain ⟨hc, hsup, _⟩ := mem_merges.mp (show (p.1, p.2) ∈ merges s from hp)
  exact h p.2 hc hsup

theorem mem_mergedIds (hca : ca ∈ s.cas) :
    ca.id ∈ (merges s).map (fun p => p.2.id) ↔ Superseded s.cas.rows ca := by
  rw [List.mem_map]
  constructor
  · rintro ⟨p, hp, hid⟩
    obtain ⟨hc, hsup, _⟩ := mem_merges.mp (show (p.1, p.2) ∈ merges s from hp)
    rw [Table.eq_of_key_eq hc hca hid] at hsup
    exact hsup
  · intro hsup
    obtain ⟨k, hk, hski, hbest⟩ := exists_survivor hca hsup.1
    exact ⟨(k, ca), mem_merges.mpr ⟨hca, hsup, hk, hski, hbest⟩, rfl⟩

/-- What merging makes of an authority that stays. -/
structure Survives (s : Store) (ca row : CA) : Prop where
  id : row.id = ca.id
  refid : row.refid = ca.refid
  ski : row.ski = ca.ski
  hsmKeyId : row.hsmKeyId = ca.hsmKeyId
  caref : row.caref = redirectAll (merges s) ca.caref
  prv : row.prv = ca.prv.or (keyFor (duplicateGroups s) ca.id)

theorem survives_of_mergedRow
    (h : mergedRow (duplicateGroups s) (merges s) ca = unnamed row) : Survives s ca row := by
  have hid := congrArg CA.id h
  have hrefid := congrArg CA.refid h
  have hski := congrArg CA.ski h
  have hhsm := congrArg CA.hsmKeyId h
  have hcaref := congrArg CA.caref h
  have hprv := congrArg CA.prv h
  exact ⟨hid.symm, hrefid.symm, hski.symm, hhsm.symm, hcaref.symm, hprv.symm⟩

theorem get?_mergeDuplicates_of_superseded (hca : ca ∈ s.cas)
    (h : Superseded s.cas.rows ca) : (mergeDuplicates s).cas.get? ca.id = none := by
  have hrow := (merged_mergeDuplicates s).row ca.id
  rw [if_pos ((mem_mergedIds hca).mpr h), Option.map_eq_none_iff] at hrow
  exact hrow

theorem exists_mem_mergeDuplicates (hca : ca ∈ s.cas) (h : ¬Superseded s.cas.rows ca) :
    ∃ row ∈ (mergeDuplicates s).cas, Survives s ca row := by
  have hget : s.cas.get? ca.id = some ca := Table.get?_eq_some_iff.mpr ⟨hca, rfl⟩
  have hrow := (merged_mergeDuplicates s).row ca.id
  rw [if_neg (mt (mem_mergedIds hca).mp h), hget, Option.map_some,
    Option.map_eq_some_iff] at hrow
  obtain ⟨row, hget, heq⟩ := hrow
  exact ⟨row, Table.mem_of_get? hget, survives_of_mergedRow heq.symm⟩

theorem of_mem_mergeDuplicates (h : row ∈ (mergeDuplicates s).cas) :
    ∃ ca ∈ s.cas, ¬Superseded s.cas.rows ca ∧ Survives s ca row := by
  have hget : (mergeDuplicates s).cas.get? row.id = some row :=
    Table.get?_eq_some_iff.mpr ⟨h, rfl⟩
  have hrow := (merged_mergeDuplicates s).row row.id
  rw [hget, Option.map_some] at hrow
  split_ifs at hrow with hid
  obtain ⟨ca, hget, heq⟩ := Option.map_eq_some_iff.mp hrow.symm
  have hca := Table.mem_of_get? hget
  have hkey : ca.id = row.id := Table.key_of_get? hget
  exact ⟨ca, hca, fun hsup => hid (hkey ▸ (mem_mergedIds hca).mpr hsup),
    survives_of_mergedRow heq⟩

theorem distinctRefids_mergeDuplicates (h : s.DistinctRefids) :
    (mergeDuplicates s).DistinctRefids :=
  h.sublist (merged_mergeDuplicates s).refids

theorem Survives.isSome_prv_iff (h : Survives s ca row) (hca : ca ∈ s.cas)
    (hbest : ¬Superseded s.cas.rows ca) :
    row.prv.isSome = true ↔ ca.prv.isSome = true ∨
      ca.ski ≠ none ∧ ∃ d ∈ s.cas, d.ski = ca.ski ∧ d.prv.isSome = true := by
  rw [h.prv, Option.isSome_or, Bool.or_eq_true]
  constructor
  · rintro (hown | hbrought)
    · exact .inl hown
    · obtain ⟨key, hkey⟩ := Option.isSome_iff_exists.mp hbrought
      obtain ⟨group, hgroup, hfound⟩ := List.exists_of_findSome?_eq_some hkey
      obtain ⟨ski, rfl, _⟩ := mem_duplicateGroups.mp hgroup
      split_ifs at hfound with hid
      obtain ⟨k, hk, hkid⟩ := Option.map_eq_some_iff.mp hid
      obtain ⟨hkmem, hkski⟩ := mem_sameSki.mp (keeperOf_sameSki.mp hk).1
      obtain rfl := Table.eq_of_key_eq hkmem hca hkid
      obtain ⟨d, hd, hprv⟩ := List.exists_of_findSome?_eq_some hfound
      obtain ⟨hdmem, hdski⟩ := mem_sameSki.mp hd
      exact .inr ⟨hkski ▸ Option.some_ne_none ski, d, hdmem, hdski.trans hkski.symm,
        Option.isSome_iff_exists.mpr ⟨key, hprv⟩⟩
  · rintro (hown | ⟨hski, d, hd, hdski, hprv⟩)
    · exact .inl hown
    · by_cases hsame : ca = d
      · exact .inl (hsame ▸ hprv)
      · refine .inr ?_
        obtain ⟨ski, hsome⟩ := Option.ne_none_iff_exists'.mp hski
        have hca' : ca ∈ sameSki s ski := mem_sameSki.mpr ⟨hca, hsome⟩
        have hd' : d ∈ sameSki s ski := mem_sameSki.mpr ⟨hd, hdski.trans hsome⟩
        have hgroup : sameSki s ski ∈ duplicateGroups s :=
          mem_duplicateGroups.mpr ⟨ski, rfl, one_lt_length hca' hd' hsame⟩
        have hkeeper : (keeperOf (sameSki s ski)).map CA.id = some ca.id := by
          rw [keeperOf_sameSki.mpr ⟨hca', hbest⟩, Option.map_some]
        unfold keyFor
        rw [List.findSome?_isSome_iff]
        refine ⟨sameSki s ski, hgroup, ?_⟩
        rw [if_pos hkeeper, List.findSome?_isSome_iff]
        exact ⟨d, hd', hprv⟩

theorem not_refers_of_superseded (hdistinct : s.DistinctRefids) (hca : ca ∈ s.cas)
    (h : Superseded s.cas.rows ca) (caref : Option String) :
    redirectAll (merges s) caref ≠ some ca.refid := by
  intro heq
  cases caref with
  | none =>
    rw [redirectAll_none] at heq
    cases heq
  | some r =>
    by_cases hmerged : ∃ c ∈ s.cas, Superseded s.cas.rows c ∧ c.refid = r
    · obtain ⟨c, hc, hsup, rfl⟩ := hmerged
      obtain ⟨k, hk, hski, hbest⟩ := exists_survivor hc hsup.1
      rw [redirectAll_superseded hdistinct (mem_merges.mpr ⟨hc, hsup, hk, hski, hbest⟩),
        Option.some.injEq] at heq
      rw [hdistinct.eq_of_refid hk hca heq] at hbest
      exact hbest h
    · push Not at hmerged
      rw [redirectAll_other hmerged, Option.some.injEq] at heq
      exact hmerged ca hca h heq.symm

/-- An authority that stays is its own parent afterwards if it was before, or if its parent is
merged into it. -/
theorem Survives.caref_self_iff (h : Survives s ca row) (hdistinct : s.DistinctRefids)
    (hca : ca ∈ s.cas) (hbest : ¬Superseded s.cas.rows ca) :
    row.caref = some row.refid ↔ ca.caref = some ca.refid ∨
      ∃ c ∈ s.cas, Superseded s.cas.rows c ∧ ca.ski = c.ski ∧ ca.caref = some c.refid := by
  rw [h.caref, h.refid]
  cases hcaref : ca.caref with
  | none => simp
  | some r =>
    by_cases hmerged : ∃ c ∈ s.cas, Superseded s.cas.rows c ∧ c.refid = r
    · obtain ⟨c, hc, hsup, rfl⟩ := hmerged
      obtain ⟨k, hk, hski, hkbest⟩ := exists_survivor hc hsup.1
      rw [redirectAll_superseded hdistinct (mem_merges.mpr ⟨hc, hsup, hk, hski, hkbest⟩)]
      constructor
      · intro heq
        obtain rfl := hdistinct.eq_of_refid hk hca (Option.some.inj heq)
        exact .inr ⟨c, hc, hsup, hski, rfl⟩
      · rintro (heq | ⟨c', hc', hsup', hski', heq⟩)
        · rw [hdistinct.eq_of_refid hc hca (Option.some.inj heq)] at hsup
          exact absurd hsup hbest
        · obtain rfl := hdistinct.eq_of_refid hc hc' (Option.some.inj heq)
          have hnone : k.ski ≠ none := hski ▸ hsup.1
          rw [eq_of_survive hk hca hnone (hski.trans hski'.symm) hkbest hbest]
    · push Not at hmerged
      rw [redirectAll_other hmerged]
      constructor
      · exact .inl
      · rintro (heq | ⟨c, hc, hsup, _, heq⟩)
        · exact heq
        · exact absurd (Option.some.inj heq).symm (hmerged c hc hsup)

end Results

end SkiAkiBackfill

end CaManager
