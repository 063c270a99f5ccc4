import CaManager.Library.Ancestry
import CaManager.Library.Machines
import CaManager.Scep.Service
import CaManager.Store.Linking
import CaManager.Store.Operations

/-!
# The graph of issuers

The loops that climb from an authority to the root have no other end than an authority without a
parent. Authorities that are created or imported refer to older ones only; the back-fill links
older ones to each other, and merges them.
-/

namespace CaManager

open Library

def Store.links (st : Store) : List (String × Option String) :=
  st.cas.rows.map fun c => (c.refid, c.caref)

namespace IssuerGraph

section Links

variable {ls ls' : List (String × Option String)}

def parentIn (ls : List (String × Option String)) (refid : String) : Option String :=
  (ls.find? fun l => l.1 = refid).bind fun l => l.2.filter (· ≠ "")

/-- References are distinct, and parents are there. -/
structure Rooted (ls : List (String × Option String)) : Prop where
  distinct : (ls.map Prod.fst).Nodup
  named : ∀ l ∈ ls, ∀ r ∈ l.2.filter (· ≠ ""), r ∈ ls.map Prod.fst

theorem exists_of_parentIn {x y : String} (h : parentIn ls x = some y) :
    ∃ caref, (x, caref) ∈ ls ∧ caref.filter (· ≠ "") = some y := by
  obtain ⟨⟨x', caref⟩, hfound, hcaref⟩ := Option.bind_eq_some_iff.mp h
  have hx : x' = x := by simpa using List.find?_some hfound
  exact ⟨caref, hx ▸ List.mem_of_find?_eq_some hfound, hcaref⟩

theorem Rooted.parentIn_of_mem (h : (ls.map Prod.fst).Nodup) {x : String} {caref : Option String}
    (hmem : (x, caref) ∈ ls) : parentIn ls x = caref.filter (· ≠ "") := by
  obtain ⟨l, hl⟩ : ∃ l, ls.find? (fun l => l.1 = x) = some l := by
    rw [← Option.isSome_iff_exists, List.find?_isSome]
    exact ⟨_, hmem, decide_eq_true rfl⟩
  have hx : l.1 = x := by simpa using List.find?_some hl
  have hsame : l = (x, caref) :=
    List.inj_on_of_nodup_map h (List.mem_of_find?_eq_some hl) hmem hx
  rw [parentIn, hl, hsame]
  rfl

/-- An authority with a new reference, under one that is there. -/
inductive Grows : List (String × Option String) → List (String × Option String) → Prop
  | refl (ls : List (String × Option String)) : Grows ls ls
  | add {ls ls' : List (String × Option String)} {x : String} {caref : Option String}
      (h : Grows ls ls') (hfresh : x ∉ ls'.map Prod.fst)
      (hknown : ∀ r ∈ caref.filter (· ≠ ""), r ∈ ls'.map Prod.fst) :
      Grows ls (ls' ++ [(x, caref)])

theorem Grows.trans {ls'' : List (String × Option String)} (h : Grows ls ls')
    (h' : Grows ls' ls'') : Grows ls ls'' := by
  induction h' with
  | refl => exact h
  | add _ hfresh hknown ih => exact ih.add hfresh hknown

theorem Grows.rooted (h : Grows ls ls') (hrooted : Rooted ls) : Rooted ls' := by
  induction h with
  | refl => exact hrooted
  | @add ls' x caref _ hfresh hknown ih =>
    have hmem : ∀ r, r ∈ ls'.map Prod.fst → r ∈ (ls' ++ [(x, caref)]).map Prod.fst := by
      intro r hr
      rw [List.map_append]
      exact List.mem_append_left _ hr
    constructor
    · rw [List.map_append, List.map_singleton, (List.perm_append_singleton _ _).nodup_iff]
      exact List.nodup_cons.mpr ⟨hfresh, ih.distinct⟩
    · intro l hl r hr
      rcases List.mem_append.mp hl with hl | hl
      · exact hmem r (ih.named l hl r hr)
      · rw [List.mem_singleton.mp hl] at hr
        exact hmem r (hknown r hr)

theorem Grows.acyclic (h : Grows ls ls') (hrooted : Rooted ls) (hacyclic : Acyclic (parentIn ls)) :
    Acyclic (parentIn ls') := by
  induction h with
  | refl => exact hacyclic
  | @add ls' x caref hgrows hfresh hknown ih =>
    have hrooted' := hgrows.rooted hrooted
    refine @Acyclic.of_leaf _ _ _ ih x (fun a ha => ?_) (fun a ha => ?_)
    · obtain ⟨caref', hmem, hparent⟩ := exists_of_parentIn ha
      rcases List.mem_append.mp hmem with hmem | hmem
      · exact hfresh (hrooted'.named _ hmem x hparent)
      · obtain ⟨rfl, rfl⟩ := Prod.mk.inj (List.mem_singleton.mp hmem)
        exact hfresh (hknown a hparent)
    · have hnot : ¬x = a := Ne.symm ha
      unfold parentIn
      rw [List.find?_append]
      simp [hnot]

end Links

section Operations

variable {st st' : Store}

theorem links_refids (st : Store) : st.links.map Prod.fst = st.cas.rows.map CA.refid := by
  rw [Store.links, List.map_map]
  rfl

theorem mem_links_refids {r : String} : r ∈ st.links.map Prod.fst ↔ ∃ ca ∈ st.cas, ca.refid = r := by
  rw [links_refids]
  exact List.mem_map

theorem links_update {id : ℕ} {f : CA → CA}
    (hf : ∀ c, (f c).refid = c.refid ∧ (f c).caref = c.caref) :
    (st.setCa id f).links = st.links := by
  change (st.cas.rows.map _).map _ = st.cas.rows.map _
  rw [List.map_map]
  refine List.map_congr_left fun c _ => ?_
  rw [Function.comp_apply]
  split_ifs
  · exact Prod.ext (hf c).1 (hf c).2
  · rfl

theorem links_countSerial (ca : CA) : (st.countSerial ca).links = st.links :=
  links_update fun _ => ⟨rfl, rfl⟩

theorem grows_addCa {row : CA} (hadd : st.addCa row = .ok st')
    (hknown : ∀ r ∈ row.caref.filter (· ≠ ""), ∃ ca ∈ st.cas, ca.refid = r) :
    Grows st.links st'.links := by
  obtain ⟨hnone, rfl⟩ := Store.addCa_eq_ok hadd
  have hlinks : ({ st with cas := st.cas.insert row } : Store).links =
      st.links ++ [(row.refid, row.caref)] := by
    change (st.cas.rows ++ [_]).map _ = _
    rw [List.map_append]
    rfl
  rw [hlinks]
  refine (Grows.refl st.links).add ?_ fun r hr => mem_links_refids.mpr (hknown r hr)
  intro hmem
  obtain ⟨ca, hca, hrefid⟩ := mem_links_refids.mp hmem
  exact List.find?_eq_none.mp hnone ca hca (decide_eq_true hrefid)

theorem links_addCertificate {row : Certificate} (hadd : st.addCertificate row = .ok st') :
    st'.links = st.links := by
  obtain ⟨_, rfl⟩ := CertificateService.addCertificate_eq_ok.mp hadd
  rfl

theorem grows_importAnswer {invalid : String} {result : Except PyError (Response × Store)}
    (h : ∀ answer, result = .ok answer → Grows st.links answer.2.links) :
    Grows st.links (Routes.importAnswer st invalid result).2.links := by
  unfold Routes.importAnswer
  split
  next answer => exact h answer rfl
  next => exact Grows.refl _
  next => exact Grows.refl _

section Authorities

variable [X509Library]

theorem grows_createInternalCa [KeyIdLibrary] {r : CAService.CreateRequest} {d : Draw}
    (hok : CAService.createInternalCa st r d = .ok st') : Grows st.links st'.links := by
  simp only [CAService.createInternalCa, bind_eq_ok] at hok
  obtain ⟨privateKey, _, hok⟩ := hok
  split at hok
  next hnone =>
    simp only [bind_eq_ok] at hok
    obtain ⟨x, _, hadd⟩ := hok
    refine grows_addCa hadd fun caref hcaref => ?_
    rw [show (CAService.createdCa st r x privateKey d).caref = r.caref from rfl, hnone] at hcaref
    cases hcaref
  next caref hsome =>
    simp only [bind_eq_ok] at hok
    obtain ⟨parent, hparent, _, _, x, _, hadd⟩ := hok
    have hfound := orThrow_eq_ok.mp hparent
    have hrefid : parent.refid = caref := by simpa using Table.holds_of_first hfound
    have hgrows : Grows (st.countSerial parent).links st'.links := by
      refine grows_addCa hadd fun caref' hcaref' => mem_links_refids.mp ?_
      rw [show (CAService.createdCa st r x privateKey d).caref = r.caref from rfl, hsome] at hcaref'
      rw [links_countSerial, ← Option.some.inj hcaref']
      exact mem_links_refids.mpr ⟨parent, Table.mem_of_first hfound, hrefid⟩
    rw [links_countSerial] at hgrows
    exact hgrows

theorem grows_importCa {descr username refid : String} {pem : CertPem} {key : Option KeyPem}
    (hok : CAService.importCa st descr pem key username refid = .ok st') :
    Grows st.links st'.links := by
  simp only [CAService.importCa, bind_eq_ok] at hok
  obtain ⟨extensions, _, hok⟩ := hok
  split at hok
  next => cases hok
  next e he =>
    simp only [bind_eq_ok, ensure_eq_ok, exists_const] at hok
    refine grows_addCa hok.2 fun r hr => ?_
    cases hr

theorem grows_storeCa [KeyIdLibrary] {u : Upload} {parsed : ParsedFile}
    {fallback : Except PyError String} {update : CA → CA} {what imported refid : String}
    {answer : Response × Store}
    (hok : Routes.storeCa st u parsed fallback update what imported refid = .ok answer)
    (hupdate : ∀ c, (update c).refid = c.refid ∧ (update c).caref = c.caref) :
    Grows st.links answer.2.links := by
  unfold Routes.storeCa at hok
  split at hok
  next row _ =>
    split_ifs at hok
    · cases hok
      exact Grows.refl _
    · cases hok
      rw [links_update hupdate]
      exact Grows.refl _
  next =>
    simp only [bind_eq_ok, pure_eq_ok] at hok
    obtain ⟨descr, _, st', hadd, rfl⟩ := hok
    refine grows_addCa hadd fun r hr => ?_
    cases hr

theorem grows_uploadCa [KeyIdLibrary] (u : Upload) (refid : String) :
    Grows st.links (Routes.importCa st u refid).2.links := by
  refine grows_importAnswer fun answer hok => ?_
  obtain ⟨parsed, _, hok⟩ := bind_eq_ok.mp hok
  exact grows_storeCa hok fun _ => ⟨rfl, rfl⟩

theorem grows_uploadCertificate [KeyIdLibrary] (u : Upload) (refid : String) :
    Grows st.links (Routes.importCertificate st u refid).2.links := by
  refine grows_importAnswer fun answer hok => ?_
  simp only [bind_eq_ok] at hok
  obtain ⟨parsed, _, isCa, _, hok⟩ := hok
  split at hok
  next => exact grows_storeCa hok fun _ => ⟨rfl, rfl⟩
  next =>
    unfold Routes.storeCertificate at hok
    split at hok
    next row _ =>
      split_ifs at hok
      · cases hok
        exact Grows.refl _
      · cases hok
        exact Grows.refl _
    next =>
      simp only [bind_eq_ok, pure_eq_ok] at hok
      obtain ⟨descr, _, st', hadd, rfl⟩ := hok
      rw [links_addCertificate hadd]
      exact Grows.refl _

end Authorities

section Bundles

/-- The store has only grown, and every reference that is remembered is there. -/
structure Known (st : Store) (p : SmartImporter.Progress) : Prop where
  grows : Grows st.links p.store.links
  subjects : ∀ entry ∈ p.subjectToRefid, ∃ ca ∈ p.store.cas, ca.refid = entry.2
  skis : ∀ entry ∈ p.skiToRefid, ∃ ca ∈ p.store.cas, ca.refid = entry.2

variable {p p' : SmartImporter.Progress}

theorem exists_of_lookup {l : List (String × String)} {k r : String}
    (hl : ∀ entry ∈ l, ∃ ca ∈ st.cas, ca.refid = entry.2)
    (h : SmartImporter.nonEmpty (l.lookup k) = some r) : ∃ ca ∈ st.cas, ca.refid = r := by
  obtain ⟨hlookup, _⟩ := Option.filter_eq_some_iff.mp h
  obtain ⟨before, after, rfl, _⟩ := List.lookup_eq_some_iff.mp hlookup
  exact hl (k, r) (List.mem_append_right _ List.mem_cons_self)

theorem exists_of_first {q : CA → Bool} {r : String} (h : (st.cas.first q).map CA.refid = some r) :
    ∃ ca ∈ st.cas, ca.refid = r := by
  obtain ⟨ca, hfirst, hrefid⟩ := Option.map_eq_some_iff.mp h
  exact ⟨ca, Table.mem_of_first hfirst, hrefid⟩

theorem Known.parentRefid (h : Known st p) {o : ParsedObject CertPem} {r : String}
    (hparent : SmartImporter.parentRefid p o = some r) : ∃ ca ∈ p.store.cas, ca.refid = r := by
  unfold SmartImporter.parentRefid at hparent
  split_ifs at hparent
  rcases Option.or_eq_some_iff.mp hparent with haki | ⟨_, hsubject⟩
  · obtain ⟨aki, _, hfound⟩ := Option.bind_eq_some_iff.mp haki
    rcases Option.or_eq_some_iff.mp hfound with hremembered | ⟨_, hstored⟩
    · exact exists_of_lookup h.skis hremembered
    · exact exists_of_first hstored
  · rcases Option.or_eq_some_iff.mp hsubject with hremembered | ⟨_, hstored⟩
    · exact exists_of_lookup h.subjects hremembered
    · exact exists_of_first hstored

theorem Known.remember (h : Known st p) {subject refid : String} (ski : Option String)
    (hrefid : ∃ ca ∈ p.store.cas, ca.refid = refid) :
    Known st (p.remember subject ski refid) where
  grows := h.grows
  subjects entry hentry := by
    rcases List.mem_cons.mp hentry with rfl | hentry
    · exact hrefid
    · exact h.subjects entry hentry
  skis entry hentry := by
    rcases List.mem_append.mp hentry with hentry | hentry
    · obtain ⟨ski, _, rfl⟩ := Option.map_eq_some_iff.mp (Option.mem_toList.mp hentry)
      exact hrefid
    · exact h.skis entry hentry

theorem Known.importCa (h : Known st p) {b : Bundle} {options : ImportOptions}
    {entry : ParsedObject CertPem × String}
    (hok : SmartImporter.importCa b options p entry = .ok p') : Known st p' := by
  obtain ⟨o, refid⟩ := entry
  unfold SmartImporter.importCa at hok
  dsimp only at hok
  split at hok
  next existing hexisting =>
    cases hok
    obtain ⟨hduplicate, _⟩ := Option.filter_eq_some_iff.mp hexisting
    have hmem : existing ∈ p.store.cas := by
      rcases Option.or_eq_some_iff.mp hduplicate with hski | ⟨_, hserial⟩
      · obtain ⟨_, _, hfirst⟩ := Option.bind_eq_some_iff.mp hski
        exact Table.mem_of_first hfirst
      · obtain ⟨_, _, hfirst⟩ := Option.bind_eq_some_iff.mp hserial
        exact Table.mem_of_first hfirst
    exact h.remember _ ⟨existing, hmem, rfl⟩
  next =>
    simp only [bind_eq_ok, pure_eq_ok] at hok
    obtain ⟨store, hadd, rfl⟩ := hok
    have hgrows : Grows p.store.links store.links :=
      grows_addCa hadd fun r hr => h.parentRefid (Option.filter_eq_some_iff.mp hr).1
    obtain ⟨_, rfl⟩ := Store.addCa_eq_ok hadd
    have hkept : ∀ r, (∃ ca ∈ p.store.cas, ca.refid = r) →
        ∃ ca ∈ p.store.cas.insert (SmartImporter.caRow b p o options.username refid),
          ca.refid = r := by
      rintro r ⟨ca, hca, hrefid⟩
      exact ⟨ca, Table.mem_insert.mpr (.inl hca), hrefid⟩
    have hadded : Known st { p with store :=
        { p.store with
          cas := p.store.cas.insert (SmartImporter.caRow b p o options.username refid) } } :=
      ⟨h.grows.trans hgrows, fun entry hentry => hkept _ (h.subjects entry hentry),
        fun entry hentry => hkept _ (h.skis entry hentry)⟩
    exact hadded.remember _ ⟨_, Table.mem_insert.mpr (.inr rfl), rfl⟩

theorem grows_execute {b : Bundle} {options : ImportOptions}
    {caRefids certRefids csrRefids : ℕ → String}
    (hok : SmartImporter.execute st b options caRefids certRefids csrRefids = .ok st') :
    Grows st.links st'.links := by
  simp only [SmartImporter.execute, bind_eq_ok] at hok
  obtain ⟨st₁, hcas, st₂, hcertificates, hcsrs⟩ := hok
  have h₁ : Grows st.links st₁.links := by
    unfold SmartImporter.importCas at hcas
    split_ifs at hcas
    · obtain ⟨p, hp, rfl⟩ := map_eq_ok.mp hcas
      have hempty : Known st { store := st } :=
        ⟨Grows.refl _, fun _ h => absurd h List.not_mem_nil, fun _ h => absurd h List.not_mem_nil⟩
      exact (foldlM_invariant (I := Known st) (fun _ _ _ hp hstep => hp.importCa hstep)
        hempty hp).grows
    · cases hcas
      exact Grows.refl _
  have h₂ : st₂.links = st₁.links := by
    unfold SmartImporter.importCertificates at hcertificates
    split_ifs at hcertificates
    · refine foldlM_invariant (I := fun s => s.links = st₁.links) (fun s entry s' hs hstep => ?_)
        rfl hcertificates
      unfold SmartImporter.importCertificate at hstep
      dsimp only at hstep
      split_ifs at hstep
      · cases hstep
        exact hs
      · exact (links_addCertificate hstep).trans hs
    · cases hcertificates
      rfl
  have h₃ : st'.links = st₂.links := by
    unfold SmartImporter.importCsrs at hcsrs
    split_ifs at hcsrs
    · exact foldlM_invariant (I := fun s => s.links = st₂.links)
        (fun _ _ _ hs hstep => (links_addCertificate hstep).trans hs) rfl hcsrs
    · cases hcsrs
      rfl
  rw [h₃, h₂]
  exact h₁

end Bundles

end Operations

section Chains

variable {st : Store} {ε α : Type}

def parentOf (st : Store) (ca : CA) : Option CA := st.authorityOf ca.caref

theorem climb_of_ascend (visit : CA → Except ε α) {n : ℕ} {o : Option CA} {cas : List CA}
    (h : ascend (parentOf st) n o = some cas) : climb st visit n o = some (cas.mapM visit) := by
  induction n generalizing o cas with
  | zero =>
    cases o with
    | none =>
      cases h
      rfl
    | some ca => cases h
  | succ n ih =>
    cases o with
    | none =>
      cases h
      rfl
    | some ca =>
      obtain ⟨rest, hrest, rfl⟩ := Option.map_eq_some_iff.mp h
      rw [List.mapM_cons]
      cases hvisit : visit ca with
      | error e =>
        simp only [climb, hvisit]
        rfl
      | ok a =>
        have hclimb := ih hrest
        unfold parentOf at hclimb
        simp only [climb, hvisit, hclimb, Option.map_some]
        rfl

theorem climb_eq_none {S : CA → Prop} (hS : ∀ ca, S ca → ∃ b, parentOf st ca = some b ∧ S b)
    {ca : CA} (hca : S ca) (n : ℕ) :
    (climb st certificateBytes n (some ca) : Option (Except ε _)) = none := by
  induction n generalizing ca with
  | zero => rfl
  | succ n ih =>
    obtain ⟨b, hb, hSb⟩ := hS ca hca
    have hparent : st.authorityOf ca.caref = some b := hb
    simp only [climb, certificateBytes, hparent]
    rw [ih hSb, Option.map_none]

variable (hrooted : Rooted st.links)

include hrooted

theorem authorityOf_refid {ca b : CA} (hca : ca ∈ st.cas) (h : parentOf st ca = some b) :
    parentIn st.links ca.refid = some b.refid := by
  obtain ⟨r, hr, hfound⟩ := Option.bind_eq_some_iff.mp h
  have hrefid : b.refid = r := by simpa using Table.holds_of_first hfound
  have hmem : (ca.refid, ca.caref) ∈ st.links := List.mem_map.mpr ⟨ca, hca, rfl⟩
  rw [Rooted.parentIn_of_mem hrooted.distinct hmem, hr, hrefid]

theorem acyclic_parentOf (h : Acyclic (parentIn st.links)) : Acyclic (parentOf st) := by
  intro ca hca
  have hmem : ∀ a b, parentOf st a = some b → b ∈ st.cas := by
    intro a b hab
    obtain ⟨_, _, hfound⟩ := Option.bind_eq_some_iff.mp hab
    exact Table.mem_of_first hfound
  exact h ca.refid (transGen_map hmem (fun a b ha hab => authorityOf_refid hrooted ha hab)
    (target_of_transGen hmem hca) hca)

theorem exists_ascend (h : Acyclic (parentIn st.links)) {o : Option CA}
    (ho : ∀ ca ∈ o, ca ∈ st.cas) :
    ∃ cas, ascend (parentOf st) st.cas.rows.length o = some cas ∧ cas.Nodup := by
  refine (acyclic_parentOf hrooted h).exists_ascend (fun a b hab => ?_) ho
  obtain ⟨_, _, hfound⟩ := Option.bind_eq_some_iff.mp hab
  exact Table.mem_of_first hfound

end Chains

/-- The parents form no circle, and the loops that climb end and meet each authority at most once:
that of `get_ca_chain`, that of `get_ca_cert_chain`, and those of the exports of certificates and
authorities. -/
structure Sound (st : Store) : Prop where
  acyclic : Acyclic (parentIn st.links)
  caChain : ∀ caId, ∃ cas : List CA, cas.Nodup ∧
    CAService.getCaChain st caId = some (cas.mapM certificateBytes)
  scepChain : ∀ svc : SCEPService, svc.ca ∈ st.cas → ∃ cas : List CA, (svc.ca :: cas).Nodup ∧
    ScepRoutes.caChain st svc = some ((svc.caCert :: ·) <$> cas.mapM CA.certificate)
  certificateChain : ∀ caref, ∃ cas : List CA, cas.Nodup ∧
    ∀ {ε α : Type} (visit : CA → Except ε α), chainOf st visit caref = some (cas.mapM visit)
  authorityChain : ∀ ca ∈ st.cas, ∃ cas : List CA, (ca :: cas).Nodup ∧
    ∀ {ε α : Type} (visit : CA → Except ε α), chainOf st visit ca.caref = some (cas.mapM visit)

theorem sound_iff {st : Store} (hrooted : Rooted st.links) :
    Sound st ↔ Acyclic (parentIn st.links) := by
  refine ⟨Sound.acyclic, fun hacyclic => ?_⟩
  have hmem : ∀ caref, ∀ ca ∈ st.authorityOf caref, ca ∈ st.cas := by
    intro caref ca hca
    obtain ⟨_, _, hfound⟩ := Option.bind_eq_some_iff.mp hca
    exact Table.mem_of_first hfound
  have habove : ∀ ca ∈ st.cas, ∃ cas : List CA, (ca :: cas).Nodup ∧
      ascend (parentOf st) st.cas.rows.length (st.authorityOf ca.caref) = some cas := by
    intro ca hca
    obtain ⟨cas, hcas, hnodup⟩ := exists_ascend hrooted hacyclic (hmem ca.caref)
    refine ⟨cas, List.nodup_cons.mpr ⟨fun hself => ?_, hnodup⟩, hcas⟩
    exact acyclic_parentOf hrooted hacyclic ca (transGen_of_mem_ascend (f := parentOf st) hcas hself)
  constructor
  · exact hacyclic
  · intro caId
    obtain ⟨cas, hcas, hnodup⟩ := exists_ascend hrooted hacyclic (o := st.cas.get? caId)
      fun ca hca => Table.mem_of_get? hca
    exact ⟨cas, hnodup, climb_of_ascend _ hcas⟩
  · intro svc hsvc
    obtain ⟨cas, hnodup, hcas⟩ := habove svc.ca hsvc
    refine ⟨cas, hnodup, ?_⟩
    rw [ScepRoutes.caChain, chainOf, climb_of_ascend _ hcas, Option.map_some]
  · intro caref
    obtain ⟨cas, hcas, hnodup⟩ := exists_ascend hrooted hacyclic (hmem caref)
    exact ⟨cas, hnodup, fun visit => climb_of_ascend visit hcas⟩
  · intro ca hca
    obtain ⟨cas, hnodup, hcas⟩ := habove ca hca
    exact ⟨cas, hnodup, fun visit => climb_of_ascend visit hcas⟩

theorem Rooted.distinctRefids {st : Store} (h : Rooted st.links) : st.DistinctRefids := by
  rw [Store.DistinctRefids, ← links_refids]
  exact h.distinct

section Backfill

open SkiAkiBackfill Relation

variable [KeyIdLibrary] {st : Store}

/-- The second authority takes the place of the parent of the first: the parent is the one that is
stored, or else the one that is found by its key identifier, and of the authorities with the
parent's key identifier the second is preferred. The first is preferred to its own duplicates,
too. An empty reference names nobody. -/
structure Above (st : Store) (k k' : CA) : Prop where
  mem : k ∈ st.cas
  stays : Stays st k
  mem' : k' ∈ st.cas
  stays' : Stays st k'
  nonempty : k'.refid ≠ ""
  parent : ∃ c ∈ st.cas, parentRef st k = some c.refid ∧
    (c = k' ∨ keyId c ≠ none ∧ keyId c = keyId k')

def Grounded (st : Store) : Prop := ∀ k, ¬TransGen (Above st) k k

theorem redirectAll_parent (hdistinct : st.DistinctRefids) {c k' : CA} (hc : c ∈ st.cas)
    (hk' : k' ∈ st.cas) (hstays : Stays st k')
    (hsame : c = k' ∨ keyId c ≠ none ∧ keyId c = keyId k') :
    redirectAll (merges (prepared st)) (some c.refid) = some k'.refid := by
  by_cases hcstays : Stays st c
  · have heq : c = k' := by
      rcases hsame with rfl | ⟨hski, hsame⟩
      · rfl
      · exact eq_of_stays hc hk' hski hsame hcstays hstays
    subst heq
    refine redirectAll_other fun d hd hsup hrefid => ?_
    obtain rfl := (distinctRefids_prepared hdistinct).eq_of_refid hd (linkedRow_mem_prepared hc)
      hrefid
    exact stays_iff.mp hcstays hsup
  · rcases hsame with rfl | ⟨_, hsame⟩
    · exact absurd hstays hcstays
    · rw [stays_iff, not_not] at hcstays
      refine redirectAll_superseded (k := linkedRow st k') (c := linkedRow st c)
        (distinctRefids_prepared hdistinct) (mem_merges.mpr ?_)
      exact ⟨linkedRow_mem_prepared hc, hcstays, linkedRow_mem_prepared hk', hsame.symm,
        stays_iff.mp hstays⟩

theorem exists_of_parentRef (hrooted : Rooted st.links) {k : CA} (hk : k ∈ st.cas) {r : String}
    (h : parentRef st k = some r) (hne : r ≠ "") : ∃ c ∈ st.cas, c.refid = r := by
  have hstored : k.caref = some r → ∃ c ∈ st.cas, c.refid = r := by
    intro hcaref
    refine mem_links_refids.mp (hrooted.named (k.refid, k.caref) ?_ r ?_)
    · exact List.mem_map.mpr ⟨k, hk, rfl⟩
    · rw [hcaref]
      exact Option.filter_eq_some_iff.mpr ⟨rfl, decide_eq_true hne⟩
  unfold parentRef at h
  split_ifs at h
  · rcases Option.or_eq_some_iff.mp h with hfound | ⟨_, hcaref⟩
    · obtain ⟨parent, hparent, hrefid⟩ := Option.map_eq_some_iff.mp hfound
      exact ⟨parent, (keyId_foundParent hparent).1, hrefid⟩
    · exact hstored hcaref
  · exact hstored h

theorem above_of_row (hrooted : Rooted st.links) {row : CA}
    (hrow : row ∈ (backfillSkiAki st).1.cas) {y : String}
    (h : row.caref.filter (· ≠ "") = some y) :
    ∃ k k', Above st k k' ∧ k.refid = row.refid ∧ k'.refid = y := by
  have hdistinct := hrooted.distinctRefids
  obtain ⟨k, hk, hstays, hsurvives⟩ := exists_of_mem_backfill hrow
  obtain ⟨hcaref, hy⟩ := Option.filter_eq_some_iff.mp h
  have hne : y ≠ "" := of_decide_eq_true hy
  rw [hsurvives.caref] at hcaref
  have hparent : (linkedRow st k).caref = parentRef st k := rfl
  rw [hparent] at hcaref
  cases href : parentRef st k with
  | none =>
    rw [href, redirectAll_none] at hcaref
    cases hcaref
  | some r =>
    rw [href] at hcaref
    -- the parent is superseded, or the reference stays
    by_cases hsup : ∃ c ∈ st.cas, ¬Stays st c ∧ c.refid = r
    · obtain ⟨c, hc, hnot, rfl⟩ := hsup
      have hski : keyId c ≠ none := by
        rw [stays_iff, not_not] at hnot
        exact hnot.1
      obtain ⟨k', hk', hsame, hstays'⟩ := exists_stays hc hski
      have hplace : c = k' ∨ keyId c ≠ none ∧ keyId c = keyId k' := .inr ⟨hski, hsame.symm⟩
      rw [redirectAll_parent hdistinct hc hk' hstays' hplace, Option.some.injEq] at hcaref
      exact ⟨k, k', ⟨hk, hstays, hk', hstays', hcaref ▸ hne, c, hc, href, hplace⟩,
        hsurvives.refid.symm, hcaref⟩
    · have hother : redirectAll (merges (prepared st)) (some r) = some r := by
        refine redirectAll_other fun d hd hdsup hrefid => hsup ?_
        obtain ⟨c, hc, rfl⟩ := mem_linkedRows.mp (mem_prepared.mp hd)
        exact ⟨c, hc, fun hstays' => stays_iff.mp hstays' hdsup, hrefid⟩
      rw [hother, Option.some.injEq] at hcaref
      subst hcaref
      obtain ⟨c, hc, rfl⟩ := exists_of_parentRef hrooted hk href hne
      have hcstays : Stays st c := by
        by_contra hnot
        exact hsup ⟨c, hc, hnot, rfl⟩
      exact ⟨k, c, ⟨hk, hstays, hc, hcstays, hne, c, hc, href, .inl rfl⟩,
        hsurvives.refid.symm, rfl⟩

theorem rooted_backfill (hrooted : Rooted st.links) : Rooted (backfillSkiAki st).1.links where
  distinct := by
    rw [links_refids]
    exact distinctRefids_backfill hrooted.distinctRefids
  named l hl r hr := by
    obtain ⟨row, hrow, rfl⟩ := List.mem_map.mp hl
    obtain ⟨_, k', habove, _, hrefid⟩ := above_of_row hrooted hrow hr
    obtain ⟨row', hrow', hsurvives⟩ := exists_mem_backfill habove.mem' habove.stays'
    exact mem_links_refids.mpr ⟨row', hrow', hsurvives.refid.trans hrefid⟩

theorem parentIn_backfill_iff (hrooted : Rooted st.links) {x y : String} :
    parentIn (backfillSkiAki st).1.links x = some y ↔
      ∃ k k', Above st k k' ∧ k.refid = x ∧ k'.refid = y := by
  constructor
  · intro h
    obtain ⟨caref, hmem, hcaref⟩ := exists_of_parentIn h
    obtain ⟨row, hrow, heq⟩ := List.mem_map.mp hmem
    obtain ⟨rfl, rfl⟩ := Prod.mk.inj heq
    exact above_of_row hrooted hrow hcaref
  · rintro ⟨k, k', habove, rfl, rfl⟩
    have hdistinct := hrooted.distinctRefids
    obtain ⟨row, hrow, hsurvives⟩ := exists_mem_backfill habove.mem habove.stays
    obtain ⟨c, hc, href, hplace⟩ := habove.parent
    have hparent : (linkedRow st k).caref = some c.refid := href
    have hcaref : row.caref = some k'.refid := by
      rw [hsurvives.caref, hparent]
      exact redirectAll_parent hdistinct hc habove.mem' habove.stays' hplace
    have hmem : (k.refid, some k'.refid) ∈ (backfillSkiAki st).1.links :=
      List.mem_map.mpr ⟨row, hrow, Prod.ext hsurvives.refid hcaref⟩
    rw [Rooted.parentIn_of_mem (rooted_backfill hrooted).distinct hmem]
    exact Option.filter_eq_some_iff.mpr ⟨rfl, decide_eq_true habove.nonempty⟩

theorem acyclic_backfill_iff (hrooted : Rooted st.links) :
    Acyclic (parentIn (backfillSkiAki st).1.links) ↔ Grounded st := by
  have hdistinct := hrooted.distinctRefids
  constructor
  · intro hacyclic k hk
    have hedge : ∀ a b, Above st a b →
        parentIn (backfillSkiAki st).1.links a.refid = some b.refid :=
      fun a b hab => (parentIn_backfill_iff hrooted).mpr ⟨a, b, hab, rfl, rfl⟩
    exact hacyclic k.refid (hk.lift CA.refid hedge)
  · intro hgrounded x hx
    have hup : ∀ y, TransGen (fun a b => parentIn (backfillSkiAki st).1.links a = some b) x y →
        ∃ k k', TransGen (Above st) k k' ∧ k ∈ st.cas ∧ k' ∈ st.cas ∧ k.refid = x ∧
          k'.refid = y := by
      intro y hy
      induction hy with
      | single hstep =>
        obtain ⟨k, k', habove, hx, hy⟩ := (parentIn_backfill_iff hrooted).mp hstep
        exact ⟨k, k', .single habove, habove.mem, habove.mem', hx, hy⟩
      | tail _ hstep ih =>
        obtain ⟨k, k', hway, hk, hk', hx, hy⟩ := ih
        obtain ⟨m, m', habove, hm, hm'⟩ := (parentIn_backfill_iff hrooted).mp hstep
        obtain rfl := hdistinct.eq_of_refid hk' habove.mem (hy.trans hm.symm)
        exact ⟨k, m', hway.tail habove, hk, habove.mem', hx, hm'⟩
    obtain ⟨k, k', hway, hk, hk', hkx, hk'x⟩ := hup x hx
    obtain rfl := hdistinct.eq_of_refid hk hk' (hkx.trans hk'x.symm)
    exact hgrounded k hway

end Backfill

/-- What adds authorities or changes their parents. -/
inductive Event
  | createCa (r : CAService.CreateRequest) (d : Draw)
  | importCa (descr : String) (pem : CertPem) (key : Option KeyPem) (username refid : String)
  | uploadCa (u : Upload) (refid : String)
  | uploadCertificate (u : Upload) (refid : String)
  | smartImport (b : Bundle) (options : ImportOptions) (caRefids certRefids csrRefids : ℕ → String)
  | backfill

section Runs

variable [X509Library] [KeyIdLibrary]

def serve (st : Store) : Event → Store
  | .createCa r d => committed st (CAService.createInternalCa st r d)
  | .importCa descr pem key username refid =>
    committed st (CAService.importCa st descr pem key username refid)
  | .uploadCa u refid => (Routes.importCa st u refid).2
  | .uploadCertificate u refid => (Routes.importCertificate st u refid).2
  | .smartImport b options caRefids certRefids csrRefids =>
    committed st (SmartImporter.execute st b options caRefids certRefids csrRefids)
  | .backfill => (SkiAkiBackfill.backfillSkiAki st).1

def Condition (st : Store) : Event → Prop
  | .backfill => Grounded st
  | _ => True

variable {st : Store}

theorem grows_or_backfill (st : Store) (e : Event) :
    Grows st.links (serve st e).links ∧ (Condition st e ↔ True) ∨ e = .backfill := by
  have hcommitted : ∀ result : Except PyError Store,
      (∀ st', result = .ok st' → Grows st.links st'.links) →
        Grows st.links (committed st result).links := fun _ hok =>
    holds_of_committed (P := fun s => Grows st.links s.links) (Grows.refl _) hok
  cases e with
  | createCa r d => exact .inl ⟨hcommitted _ fun _ => grows_createInternalCa, Iff.rfl⟩
  | importCa descr pem key username refid =>
    exact .inl ⟨hcommitted _ fun _ => grows_importCa, Iff.rfl⟩
  | uploadCa u refid => exact .inl ⟨grows_uploadCa u refid, Iff.rfl⟩
  | uploadCertificate u refid => exact .inl ⟨grows_uploadCertificate u refid, Iff.rfl⟩
  | smartImport b options caRefids certRefids csrRefids =>
    exact .inl ⟨hcommitted _ fun _ => grows_execute, Iff.rfl⟩
  | backfill => exact .inr rfl

theorem rooted_serve (h : Rooted st.links) (e : Event) : Rooted (serve st e).links := by
  rcases grows_or_backfill st e with ⟨hgrows, _⟩ | rfl
  · exact hgrows.rooted h
  · exact rooted_backfill h

theorem sound_serve_iff (h : Rooted st.links) (hsound : Sound st) (e : Event) :
    Sound (serve st e) ↔ Condition st e := by
  rw [sound_iff (rooted_serve h e)]
  rcases grows_or_backfill st e with ⟨hgrows, hcondition⟩ | rfl
  · rw [hcondition]
    exact iff_of_true (hgrows.acyclic h hsound.acyclic) trivial
  · exact acyclic_backfill_iff h

end Runs

/-- From any store without authorities, in every state that a run reaches the parents form no
circle and every climb ends, exactly if every back-fill of the run finds no authority above
itself. -/
theorem issuers_sound_run_iff [X509Library] [KeyIdLibrary] (certificates : Table Certificate)
    (crls : Table CrlMetadata) (ocspResponses : Table OcspResponse)
    (keyEncryptionKey : Option ℕ) (es : List Event) :
    (∀ pre, pre <+: es →
      Sound (run serve ⟨∅, certificates, crls, ocspResponses, keyEncryptionKey⟩ pre)) ↔
      Meets serve Condition ⟨∅, certificates, crls, ocspResponses, keyEncryptionKey⟩ es := by
  have hrooted : Rooted
      (Store.links ⟨∅, certificates, crls, ocspResponses, keyEncryptionKey⟩) :=
    ⟨List.nodup_nil, fun l hl => absurd hl List.not_mem_nil⟩
  have hsound : Sound ⟨∅, certificates, crls, ocspResponses, keyEncryptionKey⟩ := by
    refine (sound_iff hrooted).mpr fun x hx => ?_
    have hnone : ∀ a b,
        parentIn (Store.links ⟨∅, certificates, crls, ocspResponses, keyEncryptionKey⟩) a =
          some b → False := by
      intro a b hab
      cases hab
    exact target_of_transGen hnone hx
  exact forall_prefix_iff_meets (P := Sound) (I := fun st => Rooted st.links)
    (fun st e h hsound => sound_serve_iff h hsound e) (fun st e h _ _ => rooted_serve h e) es
    hrooted hsound

section Sample

def keyOf (id : ℕ) : PublicKey := ⟨.rsa 2048, id⟩

def crossCert (name : String) (key signer : PublicKey) : X509 :=
  { serial := 1, subject := sampleName name, issuer := sampleName name, publicKey := key
    signedBy := signer, notBefore := 0, notAfter := days 3650
    extensions := [⟨.basicConstraints true none, true⟩, ⟨.subjectKeyIdentifier key, false⟩,
      ⟨.authorityKeyIdentifier signer, false⟩] }

/-- Two authorities that certify each other are imported, and the back-fill runs. -/
def crossImports : List Event :=
  [.importCa "A" ⟨crossCert "A" (keyOf 1) (keyOf 2), []⟩ none "admin" "a",
    .importCa "B" ⟨crossCert "B" (keyOf 2) (keyOf 1), []⟩ none "admin" "b", .backfill]

def crossSigned : Store :=
  let _ := sampleLibrary
  let _ := SkiAkiBackfill.numberedKeyIds
  run serve ⟨∅, ∅, ∅, ∅, none⟩ crossImports

/-- Each becomes the parent of the other, and the chain of the first never ends. -/
theorem crossSigned_circle :
    ¬Sound crossSigned ∧ (crossSigned.cas.get? 1).isSome ∧
      ¬∃ (n : ℕ) (chain : Except PyError (List (Encoded.Bytes CertPem))),
        climb crossSigned certificateBytes n (crossSigned.cas.get? 1) = some chain := by
  have hchain : CAService.getCaChain crossSigned 1 = none := by decide +kernel
  have hsome : (crossSigned.cas.get? 1).isSome := by decide +kernel
  have hparents : ∀ ca ∈ crossSigned.cas.rows,
      ∃ b ∈ crossSigned.cas.rows, crossSigned.authorityOf ca.caref = some b := by decide +kernel
  refine ⟨fun hsound => ?_, hsome, ?_⟩
  · obtain ⟨_, _, hends⟩ := hsound.caChain 1
    rw [hchain] at hends
    cases hends
  · rintro ⟨n, chain, hends⟩
    obtain ⟨ca, hca⟩ := Option.isSome_iff_exists.mp hsome
    have hclosed : ∀ a, a ∈ crossSigned.cas.rows →
        ∃ b, parentOf crossSigned a = some b ∧ b ∈ crossSigned.cas.rows := by
      intro a ha
      obtain ⟨b, hb, hparent⟩ := hparents a ha
      exact ⟨b, hparent, hb⟩
    rw [hca, climb_eq_none hclosed (Table.mem_of_get? hca)] at hends
    cases hends

end Sample

end IssuerGraph

end CaManager
