import CaManager.Library.Deduplication
import CaManager.Store.ImportWriters

/-!
# Duplicates of a bundle

The importer passes over an authority if one with its key identifier or with its serial number is
stored, and over a certificate if one with its serial number is. Serial numbers are compared as
texts, and the parser writes them in decimal; some writers of rows write them in hexadecimal, and
some not at all. Two certificates of different issuers may have the same serial number.
-/

namespace CaManager

open Library RowConsistency

namespace SmartImporter

def SameCertificate (x y : X509) : Prop := x.issuer = y.issuer ∧ x.serial = y.serial

def Stored (st : Store) (x : X509) : Prop :=
  (∃ ca ∈ st.cas, SameCertificate ca.held x) ∨
    ∃ c ∈ st.certificates, ∃ y ∈ c.held, SameCertificate y x

def HasCaKey (st : Store) (o : ParsedObject CertPem) : Prop :=
  ∃ ca ∈ st.cas, (∃ ski ∈ nonEmpty o.ski, ca.ski = some ski) ∨
    ca.serialNumber = some o.serialNumber

def HasSerial (st : Store) (o : ParsedObject CertPem) : Prop :=
  ∃ c ∈ st.certificates, c.serialNumber = some o.serialNumber

def SharesCaKey (o o' : ParsedObject CertPem) : Prop :=
  (∃ ski ∈ nonEmpty o'.ski, o.ski = some ski) ∨ o.serialNumber = o'.serialNumber

def SharesSerial (o o' : ParsedObject CertPem) : Prop := o.serialNumber = o'.serialNumber

/-! ### What is passed over -/

def SkipsCa (b : Bundle) (options : ImportOptions) (p : Progress)
    (entry : ParsedObject CertPem × String) : Prop :=
  ∃ p', importCa b options p entry = .ok p' ∧ p'.store = p.store

def SkipsCertificate (b : Bundle) (options : ImportOptions) (st : Store)
    (entry : ParsedObject CertPem × String) : Prop :=
  importCertificate b options st entry = .ok st

def skipping (options : ImportOptions) : ImportOptions := { options with skipDuplicates := true }

def CaReached (st : Store) (b : Bundle) (options : ImportOptions) (refids : ℕ → String) :=
  Reached (importCa b options) { store := st } (caEntries b refids)

def CertificateReached (st : Store) (b : Bundle) (options : ImportOptions) (refids : ℕ → String) :=
  Reached (importCertificate b options) st (certificateEntries b refids)

/-- An object is passed over exactly if the same certificate is stored already, and importing the
bundle again adds nothing. -/
structure Deduplicates (st : Store) (b : Bundle) (options : ImportOptions)
    (caRefids certRefids : ℕ → String) : Prop where
  cas : ∀ before entry p, CaReached st b options caRefids before entry p →
    (SkipsCa b options p entry ↔ Stored p.store entry.1.raw.leaf)
  certificates : ∀ before entry st', CertificateReached st b options certRefids before entry st' →
    (SkipsCertificate b options st' entry ↔ Stored st' entry.1.raw.leaf)
  again : ∀ st₁ st₂, importCas st b options caRefids = .ok st₁ →
    importCertificates st₁ b options certRefids = .ok st₂ → ∀ caRefids' certRefids',
      importCas st₂ b options caRefids' = .ok st₂ ∧
        importCertificates st₂ b options certRefids' = .ok st₂

/-! ### When the texts tell certificates apart -/

def sameEntry (entry entry' : ParsedObject CertPem × String) : Prop :=
  SameCertificate entry.1.raw.leaf entry'.1.raw.leaf

/-- An authority of the bundle is taken for another: an authority or one before it in the bundle
that is new has its key identifier or its serial number, and it is neither stored nor in the
bundle before. -/
def MistakenCa (st : Store) (before : List (ParsedObject CertPem × String))
    (entry : ParsedObject CertPem × String) : Prop :=
  Mistaken (fun s e => HasCaKey s e.1) (fun s e => Stored s e.1.raw.leaf)
    (fun e e' => SharesCaKey e.1 e'.1) sameEntry st before entry

/-- An authority of the bundle is stored, and no authority or new one before it in the bundle has
its key identifier or its serial number. -/
def OverlookedCa (st : Store) (before : List (ParsedObject CertPem × String))
    (entry : ParsedObject CertPem × String) : Prop :=
  Overlooked (fun s e => HasCaKey s e.1) (fun s e => Stored s e.1.raw.leaf)
    (fun e e' => SharesCaKey e.1 e'.1) sameEntry st before entry

/-- A certificate of the bundle is taken for another with its serial number. -/
def MistakenCertificate (st : Store) (before : List (ParsedObject CertPem × String))
    (entry : ParsedObject CertPem × String) : Prop :=
  Mistaken (fun s e => HasSerial s e.1) (fun s e => Stored s e.1.raw.leaf)
    (fun e e' => SharesSerial e.1 e'.1) sameEntry st before entry

/-- A certificate of the bundle is stored, and no certificate or new one before it in the bundle
has its serial number. -/
def OverlookedCertificate (st : Store) (before : List (ParsedObject CertPem × String))
    (entry : ParsedObject CertPem × String) : Prop :=
  Overlooked (fun s e => HasSerial s e.1) (fun s e => Stored s e.1.raw.leaf)
    (fun e e' => SharesSerial e.1 e'.1) sameEntry st before entry

/-- No object that the import comes to is taken for another, and none is overlooked. -/
structure Telling (st : Store) (b : Bundle) (options : ImportOptions)
    (caRefids certRefids : ℕ → String) : Prop where
  cas : ∀ before entry p, CaReached st b options caRefids before entry p →
    ¬MistakenCa st before entry ∧ ¬OverlookedCa st before entry
  certificates : ∀ before entry st', CertificateReached st b options certRefids before entry st' →
    ¬MistakenCertificate st before entry ∧ ¬OverlookedCertificate st before entry

/-! ### The loops -/

section Loops

variable {st st' : Store} {b : Bundle} {options : ImportOptions} {p p' : Progress}
  {o : ParsedObject CertPem} {entry : ParsedObject CertPem × String} {refids : ℕ → String}

theorem decimalText_ne_empty (serial : ℤ) : decimalText serial ≠ "" := fun hempty =>
  writeInt_ne_nil serial (String.ofList_eq_empty_iff.mp hempty)

theorem exists_duplicateCa_iff (ho : o.serialNumber ≠ "") :
    (∃ ca, duplicateCa st o = some ca) ↔ HasCaKey st o := by
  have hserial : nonEmpty (some o.serialNumber) = some o.serialNumber :=
    Option.filter_some_pos (decide_eq_true ho)
  rw [← Option.isSome_iff_exists, duplicateCa, hserial, Option.bind_some, Option.isSome_or,
    Bool.or_eq_true, Option.isSome_bind, HasCaKey]
  simp only [Table.first, List.find?_isSome, decide_eq_true_eq, Option.any_eq_true, and_or_left,
    exists_or, Table.mem_def]
  refine or_congr_left ⟨?_, ?_⟩
  · rintro ⟨ski, hski, ca, hca, heq⟩
    exact ⟨ca, hca, ski, hski, heq⟩
  · rintro ⟨ca, hca, ski, hski, heq⟩
    exact ⟨ski, hski, ca, hca, heq⟩

variable (b options) in
theorem importCa_of_hasKey (ho : entry.1.serialNumber ≠ "") (h : HasCaKey p.store entry.1) :
    ∃ p', importCa b (skipping options) p entry = .ok p' ∧ p'.store = p.store := by
  obtain ⟨o, refid⟩ := entry
  obtain ⟨ca, hca⟩ := (exists_duplicateCa_iff ho).mpr h
  refine ⟨p.remember o.subject ca.ski ca.refid, ?_, rfl⟩
  dsimp only at hca
  rw [importCa, hca]
  rfl

theorem importCa_of_not_hasKey (ho : entry.1.serialNumber ≠ "") (h : ¬HasCaKey p.store entry.1)
    (hok : importCa b (skipping options) p entry = .ok p') :
    p'.store = { p.store with
      cas := p.store.cas.insert (caRow b p entry.1 options.username entry.2) } := by
  obtain ⟨o, refid⟩ := entry
  have hnone : duplicateCa p.store o = none := by
    rw [Option.eq_none_iff_forall_ne_some]
    exact fun ca hca => h ((exists_duplicateCa_iff ho).mp ⟨ca, hca⟩)
  unfold importCa at hok
  simp only [hnone, Option.filter_none, bind_eq_ok, pure_eq_ok] at hok
  obtain ⟨store, hadd, rfl⟩ := hok
  exact (Store.addCa_eq_ok hadd).2

theorem insert_ne {Row : Type} [Keyed Row] (t : Table Row) (r : Row) : t.insert r ≠ t := by
  intro heq
  have hmem : Keyed.withKey t.nextKey r ∈ t := by
    rw [← heq]
    exact Table.mem_insert.mpr (.inr (by rw [heq]))
  have hlt := Table.key_lt_nextKey hmem
  rw [Keyed.key_withKey] at hlt
  exact absurd hlt (lt_irrefl _)

theorem skipsCa_iff (ho : entry.1.serialNumber ≠ "") :
    SkipsCa b (skipping options) p entry ↔ HasCaKey p.store entry.1 := by
  constructor
  · rintro ⟨p', hok, hstore⟩
    by_contra hkey
    have hinserted := importCa_of_not_hasKey ho hkey hok
    rw [hstore] at hinserted
    exact insert_ne _ _ (congrArg Store.cas hinserted).symm
  · exact importCa_of_hasKey b options ho

theorem importCertificate_of_hasSerial (h : HasSerial st entry.1) :
    importCertificate b (skipping options) st entry = .ok st := by
  obtain ⟨o, refid⟩ := entry
  obtain ⟨c, hc, hserial⟩ := h
  have hfound : (st.certificates.first fun c => c.serialNumber = some o.serialNumber).isSome =
      true := by
    rw [Table.first, List.find?_isSome]
    exact ⟨c, hc, decide_eq_true hserial⟩
  simp [importCertificate, skipping, hfound]

theorem importCertificate_of_not_hasSerial (h : ¬HasSerial st entry.1)
    (hok : importCertificate b (skipping options) st entry = .ok st') :
    st' = { st with certificates :=
      st.certificates.insert (certificateRow b st entry.1 options.username entry.2) } := by
  obtain ⟨o, refid⟩ := entry
  have hnone : (st.certificates.first fun c => c.serialNumber = some o.serialNumber).isSome =
      false := by
    rw [Bool.eq_false_iff, ne_eq, Table.first, List.find?_isSome]
    rintro ⟨c, hc, hserial⟩
    exact h ⟨c, hc, of_decide_eq_true hserial⟩
  unfold importCertificate at hok
  simp only [hnone, Bool.and_false, Bool.false_eq_true, if_false] at hok
  exact (CertificateService.addCertificate_eq_ok.mp hok).2

variable (b options) in
theorem skipsCertificate_iff :
    SkipsCertificate b (skipping options) st entry ↔ HasSerial st entry.1 := by
  constructor
  · intro hok
    by_contra hkey
    have hinserted := importCertificate_of_not_hasSerial hkey hok
    exact insert_ne _ _ (congrArg Store.certificates hinserted).symm
  · exact importCertificate_of_hasSerial

theorem SameCertificate.trans {x y z : X509} (h : SameCertificate x y) (h' : SameCertificate y z) :
    SameCertificate x z := ⟨h.1.trans h'.1, h.2.trans h'.2⟩

theorem Stored.trans {x y : X509} (h : Stored st x) (hxy : SameCertificate x y) : Stored st y := by
  rcases h with ⟨ca, hca, hsame⟩ | ⟨c, hc, z, hz, hsame⟩
  · exact .inl ⟨ca, hca, hsame.trans hxy⟩
  · exact .inr ⟨c, hc, z, hz, hsame.trans hxy⟩

theorem stored_insert_ca {row : CA} {x : X509} :
    Stored { st with cas := st.cas.insert row } x ↔ Stored st x ∨ SameCertificate row.held x := by
  have hheld : (Keyed.withKey st.cas.nextKey row).held = row.held := rfl
  simp only [Stored, Table.mem_insert, or_and_right, exists_or, exists_eq_left, hheld]
  exact or_right_comm

theorem stored_insert_certificate {row : Certificate} {x y : X509} (hrow : row.held = some y) :
    Stored { st with certificates := st.certificates.insert row } x ↔
      Stored st x ∨ SameCertificate y x := by
  have hheld : (Keyed.withKey st.certificates.nextKey row).held = some y := hrow
  simp only [Stored, Table.mem_insert, or_and_right, exists_or, exists_eq_left, hheld,
    Option.mem_some_iff, exists_eq_left', or_assoc]

theorem hasCaKey_insert {row : CA} (hski : row.ski = entry.1.ski)
    (hserial : row.serialNumber = some entry.1.serialNumber) :
    HasCaKey { st with cas := st.cas.insert row } o ↔
      HasCaKey st o ∨ SharesCaKey entry.1 o := by
  have hwithSki : (Keyed.withKey st.cas.nextKey row).ski = entry.1.ski := hski
  have hwithSerial : (Keyed.withKey st.cas.nextKey row).serialNumber =
      some entry.1.serialNumber := hserial
  simp only [HasCaKey, SharesCaKey, Table.mem_insert, or_and_right, exists_or, exists_eq_left,
    hwithSki, hwithSerial, Option.some.injEq]

theorem hasSerial_insert {row : Certificate}
    (hserial : row.serialNumber = some entry.1.serialNumber) :
    HasSerial { st with certificates := st.certificates.insert row } o ↔
      HasSerial st o ∨ SharesSerial entry.1 o := by
  have hwithSerial : (Keyed.withKey st.certificates.nextKey row).serialNumber =
      some entry.1.serialNumber := hserial
  simp only [HasSerial, SharesSerial, Table.mem_insert, or_and_right, exists_or, exists_eq_left,
    hwithSerial, Option.some.injEq]

theorem mem_of_mem_caEntries (h : entry ∈ caEntries b refids) :
    entry.1 ∈ b.certificates :=
  (List.mem_filter.mp (List.mem_mergeSort.mp (mem_of_mem_withRefids h))).1

theorem mem_of_mem_certificateEntries (h : entry ∈ certificateEntries b refids) :
    entry.1 ∈ b.certificates :=
  (List.mem_filter.mp (mem_of_mem_withRefids h)).1

theorem exists_mem_withRefids {α : Type} {objects : List α} (refids : ℕ → String)
    {refids' : ℕ → String} {a : α × String} (h : a ∈ withRefids objects refids') :
    ∃ refid, (a.1, refid) ∈ withRefids objects refids := by
  obtain ⟨⟨o, i⟩, hmem, rfl⟩ := List.mem_map.mp h
  exact ⟨refids i, List.mem_map.mpr ⟨(o, i), hmem, rfl⟩⟩

theorem importCas_again (hserial : ∀ o ∈ b.certificates, o.serialNumber ≠ "")
    (hkeyed : ∀ e ∈ caEntries b refids, HasCaKey st e.1) :
    importCas st b (skipping options) refids = .ok st := by
  unfold importCas
  split_ifs
  · have hstep : ∀ e ∈ caEntries b refids, ∀ p : Progress, p.store = st →
        ∃ p', importCa b (skipping options) p e = .ok p' ∧ p'.store = st := by
      intro e he p hp
      obtain ⟨p', hok, hstore⟩ := importCa_of_hasKey b options
        (hserial e.1 (mem_of_mem_caEntries he)) (hp ▸ hkeyed e he)
      exact ⟨p', hok, hstore.trans hp⟩
    obtain ⟨p, hrun, hstore⟩ := foldlM_passes Progress.store { store := st } hstep
    exact map_eq_ok.mpr ⟨p, hrun, hstore⟩
  · rfl

theorem importCertificates_again (hkeyed : ∀ e ∈ certificateEntries b refids, HasSerial st e.1) :
    importCertificates st b (skipping options) refids = .ok st := by
  unfold importCertificates
  split_ifs
  · have hstep : ∀ e ∈ certificateEntries b refids, ∀ st', st' = st →
        ∃ st'', importCertificate b (skipping options) st' e = .ok st'' ∧ st'' = st := by
      rintro e he st' rfl
      exact ⟨st', importCertificate_of_hasSerial (hkeyed e he), rfl⟩
    obtain ⟨st', hrun, hsame⟩ := foldlM_passes id st hstep
    cases hsame
    exact hrun
  · rfl

theorem cas_importCertificates (hok : importCertificates st b (skipping options) refids = .ok st') :
    st'.cas = st.cas := by
  unfold importCertificates at hok
  split_ifs at hok
  · refine foldlM_invariant (I := fun s => s.cas = st.cas) (fun s e s' hs hstep => ?_) rfl hok
    by_cases hkey : HasSerial s e.1
    · cases hstep.symm.trans (importCertificate_of_hasSerial hkey)
      exact hs
    · rw [importCertificate_of_not_hasSerial hkey hstep]
      exact hs
  · cases hok
    rfl

end Loops

section Bundles

variable [X509Library] [KeyIdLibrary] {c : Contents} {options : ImportOptions}
  {refids : ℕ → String} {st st' : Store}

theorem serialNumber_ne_empty {o : ParsedObject CertPem}
    (h : o ∈ (Contents.bundle c).certificates) : o.serialNumber ≠ "" := by
  rw [(described_of_mem h).serialNumber]
  exact decimalText_ne_empty _

theorem serialNumber_eq {o o' : ParsedObject CertPem} (h : o ∈ (Contents.bundle c).certificates)
    (h' : o' ∈ (Contents.bundle c).certificates) (hsame : SameCertificate o.raw.leaf o'.raw.leaf) :
    o.serialNumber = o'.serialNumber := by
  rw [(described_of_mem h).serialNumber, (described_of_mem h').serialNumber, hsame.2]

theorem takesNew_importCa (c : Contents) (options : ImportOptions) (refids : ℕ → String) :
    TakesNew (importCa (Contents.bundle c) (skipping options)) (fun p e => HasCaKey p.store e.1)
      (fun p e => Stored p.store e.1.raw.leaf) (fun e e' => SharesCaKey e.1 e'.1) sameEntry
      (caEntries (Contents.bundle c) refids) where
  skip p entry p' hentry hok hkeyed x hx := by
    have ho := serialNumber_ne_empty (mem_of_mem_caEntries hentry)
    obtain ⟨p'', hok', hstore⟩ := importCa_of_hasKey (Contents.bundle c) options ho hkeyed
    cases hok.symm.trans hok'
    rw [hstore]
    exact ⟨Iff.rfl, Iff.rfl⟩
  take p entry p' hentry hok hkeyed x hx := by
    have ho := serialNumber_ne_empty (mem_of_mem_caEntries hentry)
    rw [importCa_of_not_hasKey ho hkeyed hok]
    exact ⟨hasCaKey_insert rfl rfl, stored_insert_ca⟩
  trans p entry x hstored hsame := hstored.trans hsame
  sameTrans e e' e'' h h' := h.trans h'
  shares e e' he he' hsame :=
    .inr (serialNumber_eq (mem_of_mem_caEntries he) (mem_of_mem_caEntries he') hsame)

theorem takesNew_importCertificate (c : Contents) (options : ImportOptions) (refids : ℕ → String) :
    TakesNew (importCertificate (Contents.bundle c) (skipping options))
      (fun st e => HasSerial st e.1) (fun st e => Stored st e.1.raw.leaf)
      (fun e e' => SharesSerial e.1 e'.1) sameEntry
      (certificateEntries (Contents.bundle c) refids) where
  skip st entry st' hentry hok hkeyed x hx := by
    cases hok.symm.trans (importCertificate_of_hasSerial hkeyed)
    exact ⟨Iff.rfl, Iff.rfl⟩
  take st entry st' hentry hok hkeyed x hx := by
    rw [importCertificate_of_not_hasSerial hkeyed hok]
    exact ⟨hasSerial_insert rfl, stored_insert_certificate rfl⟩
  trans st entry x hstored hsame := hstored.trans hsame
  sameTrans e e' e'' h h' := h.trans h'
  shares e e' he he' hsame :=
    serialNumber_eq (mem_of_mem_certificateEntries he) (mem_of_mem_certificateEntries he') hsame

theorem hasCaKey_of_importCas {refids' : ℕ → String} (himport : (skipping options).importCas = true)
    (hok : importCas st (Contents.bundle c) (skipping options) refids = .ok st') :
    ∀ e ∈ caEntries (Contents.bundle c) refids', HasCaKey st' e.1 := by
  rw [importCas, if_pos himport] at hok
  obtain ⟨p, hrun, rfl⟩ := map_eq_ok.mp hok
  have hkeyed := (takesNew_importCa c options refids).keyed_of_finished (fun _ => .inr rfl)
    (fun _ h => h) hrun
  intro e he
  obtain ⟨refid, hmem⟩ := exists_mem_withRefids refids he
  exact hkeyed (e.1, refid) hmem

theorem hasSerial_of_importCertificates {refids' : ℕ → String}
    (himport : (skipping options).importCerts = true)
    (hok : importCertificates st (Contents.bundle c) (skipping options) refids = .ok st') :
    ∀ e ∈ certificateEntries (Contents.bundle c) refids', HasSerial st' e.1 := by
  rw [importCertificates, if_pos himport] at hok
  have hkeyed := (takesNew_importCertificate c options refids).keyed_of_finished (fun _ => rfl)
    (fun _ h => h) hok
  intro e he
  obtain ⟨refid, hmem⟩ := exists_mem_withRefids refids he
  exact hkeyed (e.1, refid) hmem

theorem importCas_twice {st₁ st₂ : Store} {caRefids certRefids refids' : ℕ → String}
    (hcas : importCas st (Contents.bundle c) (skipping options) caRefids = .ok st₁)
    (hcertificates : importCertificates st₁ (Contents.bundle c) (skipping options) certRefids =
      .ok st₂) :
    importCas st₂ (Contents.bundle c) (skipping options) refids' = .ok st₂ := by
  cases himport : (skipping options).importCas with
  | false =>
    rw [importCas, if_neg]
    exact fun h => Bool.false_ne_true (himport.symm.trans h)
  | true =>
    apply importCas_again fun o ho => serialNumber_ne_empty ho
    intro e he
    obtain ⟨ca, hca, hkey⟩ := hasCaKey_of_importCas himport hcas e he
    exact ⟨ca, cas_importCertificates hcertificates ▸ hca, hkey⟩

theorem importCertificates_twice {st₂ : Store} {refids' : ℕ → String}
    (hok : importCertificates st (Contents.bundle c) (skipping options) refids = .ok st₂) :
    importCertificates st₂ (Contents.bundle c) (skipping options) refids' = .ok st₂ := by
  cases himport : (skipping options).importCerts with
  | false =>
    rw [importCertificates, if_neg]
    exact fun h => Bool.false_ne_true (himport.symm.trans h)
  | true => exact importCertificates_again (hasSerial_of_importCertificates himport hok)

/-- The import passes over exactly what is stored if and only if it tells the certificates of the
bundle from the stored ones and from each other. -/
theorem deduplicates_iff (st : Store) (c : Contents) (options : ImportOptions)
    (caRefids certRefids : ℕ → String) :
    Deduplicates st (Contents.bundle c) (skipping options) caRefids certRefids ↔
      Telling st (Contents.bundle c) (skipping options) caRefids certRefids := by
  have hcas := (takesNew_importCa c options caRefids).exact_iff { store := st }
  have hcertificates := (takesNew_importCertificate c options certRefids).exact_iff st
  have hskips : ∀ before e p,
      CaReached st (Contents.bundle c) (skipping options) caRefids before e p →
        (SkipsCa (Contents.bundle c) (skipping options) p e ↔ HasCaKey p.store e.1) :=
    fun before e p hreached =>
      skipsCa_iff (serialNumber_ne_empty (mem_of_mem_caEntries hreached.mem))
  constructor
  · intro hdeduplicates
    refine ⟨hcas.mp fun before e p hreached => ?_, hcertificates.mp fun before e s hreached => ?_⟩
    · rw [← hskips before e p hreached]
      exact hdeduplicates.cas before e p hreached
    · rw [← skipsCertificate_iff (Contents.bundle c) options]
      exact hdeduplicates.certificates before e s hreached
  · intro htelling
    refine ⟨fun before e p hreached => ?_, fun before e s hreached => ?_, ?_⟩
    · rw [hskips before e p hreached]
      exact hcas.mpr htelling.cas before e p hreached
    · rw [skipsCertificate_iff]
      exact hcertificates.mpr htelling.certificates before e s hreached
    · intro st₁ st₂ hfirst hsecond caRefids' certRefids'
      exact ⟨importCas_twice hfirst hsecond, importCertificates_twice hsecond⟩

end Bundles

/-- A certificate of another authority, with the serial number of a stored one. -/
def ofOther (issuer : String) : X509 :=
  { sampleCaCert with
    serial := 7, subject := sampleName "leaf", issuer := sampleName issuer, extensions := [] }

def storedLeaf : Certificate where
  refid := "stored"
  descr := "leaf"
  crt := some (.base64 ⟨ofOther "Root", []⟩)
  serialNumber := some "7"

def leafStore : Store := ⟨∅, Table.empty.insert storedLeaf, ∅, ∅, none⟩

/-- A certificate of another issuer is lost. -/
theorem otherIssuer_not_deduplicated :
    let _ := sampleLibrary
    let _ := SkiAkiBackfill.numberedKeyIds
    ¬Deduplicates leafStore (Contents.bundle ⟨[(⟨ofOther "Other root", []⟩, 0, 0)], [], []⟩)
      (skipping {}) (fun _ => "new") (fun _ => "new") := by
  let _ := sampleLibrary
  let _ := SkiAkiBackfill.numberedKeyIds
  intro _ _ hdeduplicates
  let o : ParsedObject CertPem :=
    { raw := ⟨ofOther "Other root", []⟩, subject := "CN=leaf", issuer := "CN=Other root"
      serialNumber := "7", notBefore := some 0, notAfter := some (days 3650) }
  have hentries : certificateEntries
      (Contents.bundle ⟨[(⟨ofOther "Other root", []⟩, 0, 0)], [], []⟩) (fun _ => "new") =
        [(o, "new")] := by decide +kernel
  have hreached : CertificateReached leafStore
      (Contents.bundle ⟨[(⟨ofOther "Other root", []⟩, 0, 0)], [], []⟩) (skipping {})
      (fun _ => "new") [] (o, "new") leafStore := ⟨⟨[], hentries⟩, rfl⟩
  have hserial : HasSerial leafStore o := ⟨_, Table.mem_insert.mpr (.inr rfl), rfl⟩
  have hstored := (hdeduplicates.certificates [] (o, "new") leafStore hreached).mp
    (importCertificate_of_hasSerial hserial)
  rcases hstored with ⟨ca, hca, _⟩ | ⟨c, hc, y, hy, hissuer, _⟩
  · cases hca
  · rcases List.mem_singleton.mp hc with rfl
    cases hy
    revert hissuer
    decide

end SmartImporter

end CaManager
