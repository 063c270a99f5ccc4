import CaManager.Store.Operations
import CaManager.Store.Rows
import CaManager.Store.SubjectFields

/-!
# The chain of a certificate

What is shown about the chain of a certificate. One that refers to an authority is followed from
parent to parent, over eleven authorities at most, and then to the trust store. One that refers to
none is only looked up: its authority is named, but not followed.
-/

namespace CaManager

open Library

structure TrustedCertificate where
  id : ℕ := 0
  name : String
  subject : Option String := none
  deriving Repr, DecidableEq

instance : Keyed TrustedCertificate :=
  ⟨TrustedCertificate.id, fun k t => { t with id := k }, fun _ _ => rfl, fun _ => rfl⟩

inductive ChainState
  | complete
  | incomplete
  | partially
  | unknown
  deriving Repr, DecidableEq

inductive TrustSource
  | managedCa
  | trustStore
  deriving Repr, DecidableEq

structure ChainEntry where
  name : String
  type : TrustSource
  deriving Repr, DecidableEq

structure ChainStatus where
  status : ChainState := .unknown
  trustSource : Option TrustSource := none
  trustAnchor : Option String := none
  chain : List ChainEntry := []
  deriving Repr, DecidableEq

def ChainStatus.chainLength (s : ChainStatus) : ℕ := s.chain.length

def filled (text : Option String) : Option String := text.filter (· ≠ "")

namespace CA

def isRoot (ca : CA) : Bool :=
  (filled ca.subject).isSome && (filled ca.issuer).isSome && ca.subject = ca.issuer

def shownName (ca : CA) : String := if ca.dnField .cn = "" then ca.descr else ca.dnField .cn

def entry (ca : CA) : ChainEntry := ⟨ca.shownName, .managedCa⟩

end CA

namespace Routes

def endInTrustStore (trusted : Table TrustedCertificate) (issuer : Option String)
    (chain : List ChainEntry) : ChainStatus :=
  match trusted.first fun t => t.subject = issuer with
  | some t => ⟨.complete, some .trustStore, some t.name, chain ++ [⟨t.name, .trustStore⟩]⟩
  | none => ⟨.incomplete, none, none, chain⟩

def showIssuer (found : Option CA) (trusted : Table TrustedCertificate)
    (issuer : Option String) : ChainStatus :=
  match found with
  | some ca => ⟨.partially, some .managedCa, none, [ca.entry]⟩
  | none => endInTrustStore trusted issuer []

/-- The walk from the issuing authority up: whether it found a root, and over what it went. -/
def walkToRoot (st : Store) (ca : CA) : Bool × List CA := climbTo st.parentCa CA.isRoot 10 ca

/-- `_validate_cert_chain` -/
def validateCertChain (st : Store) (trusted : Table TrustedCertificate) (cert : Certificate) :
    ChainStatus :=
  match filled cert.caref with
  | some refid =>
    match st.caByRef refid with
    | none => {}
    | some ca =>
      let walk := walkToRoot st ca
      let top := walk.2.getLast?.getD ca
      if walk.1 then
        ⟨.complete, some .managedCa, some top.shownName, walk.2.map CA.entry⟩
      else endInTrustStore trusted top.issuer (walk.2.map CA.entry)
  | none =>
    match filled cert.aki with
    | some aki => showIssuer (st.cas.first fun ca => ca.ski = some aki) trusted cert.issuer
    | none =>
      match filled cert.issuer with
      | some issuer =>
        showIssuer (st.cas.first fun ca => ca.subject = some issuer) trusted cert.issuer
      | none => {}

section ChainStatus

variable {st : Store} {trusted : Table TrustedCertificate} {cert : Certificate} {ca top : CA}
  {cas : List CA} {issuer : Option String} {next : Option CA}

/-- The authority that a certificate without a reference is looked up by: by the key identifier, if
it has one, and else by the name of its issuer. -/
def lookUpIssuer (st : Store) (cert : Certificate) : Option CA :=
  match filled cert.aki with
  | some aki => st.cas.first fun ca => ca.ski = some aki
  | none => (filled cert.issuer).bind fun issuer => st.cas.first fun ca => ca.subject = some issuer

def firstIssuer (st : Store) (cert : Certificate) : Option CA :=
  match filled cert.caref with
  | some refid => st.caByRef refid
  | none => lookUpIssuer st cert

/-- The path of a certificate comes to a self-signed authority, or to a trusted certificate. -/
def ReachesAnchor (st : Store) (trusted : Table TrustedCertificate) (cert : Certificate) : Prop :=
  (firstIssuer st cert = none ∧ ∃ t ∈ trusted.rows, t.subject = cert.issuer) ∨
    ∃ cas top next, Climb st.parentCa (firstIssuer st cert) cas next ∧
      cas.getLast? = some top ∧
        (top.isRoot = true ∨ ∃ t ∈ trusted.rows, t.subject = top.issuer)

/-- What is shown of a path of authorities: it is complete exactly if one of its first ten is
self-signed, or the issuer of the last is trusted; that is the anchor. -/
structure ShowsPath (trusted : Table TrustedCertificate) (cas : List CA) (issuer : Option String)
    (s : ChainStatus) : Prop where
  complete : s.status = .complete ↔
    (∃ ca ∈ cas.take 10, ca.isRoot = true) ∨ ∃ t ∈ trusted.rows, t.subject = issuer
  root : ∀ ca ∈ cas.take 10, ca.isRoot = true →
    s = ⟨.complete, some .managedCa, some ca.shownName, cas.map CA.entry⟩
  stored : (∀ ca ∈ cas.take 10, ca.isRoot = false) → s.status = .complete →
    ∃ t ∈ trusted.rows, t.subject = issuer ∧
      s = ⟨.complete, some .trustStore, some t.name, cas.map CA.entry ++ [⟨t.name, .trustStore⟩]⟩
  incomplete : s.status ≠ .complete → s = ⟨.incomplete, none, none, cas.map CA.entry⟩

/-- What is shown of a certificate. Where it has a reference, that alone counts. -/
structure ShowsChain (st : Store) (trusted : Table TrustedCertificate) (cert : Certificate)
    (s : ChainStatus) : Prop where
  linked : ∀ ca, st.issuerOf cert.caref = some ca → ∃ cas top next,
    BoundedClimb st.parentCa CA.isRoot 10 (some ca) cas top next ∧
      ShowsPath trusted cas top.issuer s ∧ (Acyclic st.parentCa → cas.Nodup)
  dangling : filled cert.caref ≠ none → st.issuerOf cert.caref = none → s = {}
  lookedUp : ∀ ca, filled cert.caref = none → lookUpIssuer st cert = some ca →
    s = ⟨.partially, some .managedCa, none, [ca.entry]⟩
  notFound : filled cert.caref = none → lookUpIssuer st cert = none →
    filled cert.aki ≠ none ∨ filled cert.issuer ≠ none → ShowsPath trusted [] cert.issuer s
  unknown : filled cert.caref = none → filled cert.aki = none → filled cert.issuer = none → s = {}
  sound : s.status = .complete → ReachesAnchor st trusted cert

theorem endInTrustStore_shows (hroot : ∀ ca ∈ cas.take 10, ca.isRoot = false) :
    ShowsPath trusted cas issuer (endInTrustStore trusted issuer (cas.map CA.entry)) := by
  have hnone : ¬∃ ca ∈ cas.take 10, ca.isRoot = true := by
    rintro ⟨ca, hca, htrue⟩
    rw [hroot ca hca] at htrue
    cases htrue
  unfold endInTrustStore
  cases hfound : trusted.first fun t => t.subject = issuer with
  | none =>
    have huntrusted : ¬∃ t ∈ trusted.rows, t.subject = issuer := by
      rintro ⟨t, ht, hsubject⟩
      have hmiss := List.find?_eq_none.mp hfound t ht
      simp [hsubject] at hmiss
    constructor
    case complete => simp [hnone, huntrusted]
    case root => exact fun ca hca htrue => absurd ⟨ca, hca, htrue⟩ hnone
    case stored => intro _ h; cases h
    case incomplete => exact fun _ => rfl
  | some t =>
    have hsubject : t.subject = issuer := by simpa using Table.holds_of_first hfound
    have ht : t ∈ trusted.rows := Table.mem_of_first hfound
    constructor
    case complete => exact ⟨fun _ => .inr ⟨t, ht, hsubject⟩, fun _ => rfl⟩
    case root => exact fun ca hca htrue => absurd ⟨ca, hca, htrue⟩ hnone
    case stored => exact fun _ _ => ⟨t, ht, hsubject, rfl⟩
    case incomplete => exact fun h => absurd rfl h

theorem isRoot_of_mem_take {o : Option CA}
    (h : BoundedClimb st.parentCa CA.isRoot 10 o cas top next) (hca : ca ∈ cas.take 10)
    (hroot : ca.isRoot = true) : ca = top ∧ cas.length ≤ 10 := by
  have hlast : cas.dropLast ++ [top] = cas := by
    apply List.dropLast_append_getLast?
    exact h.last
  have hlength : cas.length = cas.dropLast.length + 1 := by
    rw [← hlast]
    simp
  have hnotBefore : ca ∉ cas.dropLast := by
    intro hmem
    rw [h.before ca hmem] at hroot
    cases hroot
  by_cases hshort : cas.length ≤ 10
  · have hmem : ca ∈ cas := List.mem_of_mem_take hca
    rw [← hlast] at hmem
    rcases List.mem_append.mp hmem with hmem | hmem
    · exact absurd hmem hnotBefore
    · exact ⟨List.mem_singleton.mp hmem, hshort⟩
  · -- the eleventh is not among the first ten
    have hten : cas.dropLast.length = 10 := by
      have := h.short
      omega
    rw [← hlast, List.take_append_of_le_length hten.ge, ← hten, List.take_length] at hca
    exact absurd hca hnotBefore

theorem walk_shows (st : Store) (trusted : Table TrustedCertificate) (ca : CA) :
    ∃ cas top next, BoundedClimb st.parentCa CA.isRoot 10 (some ca) cas top next ∧
      ShowsPath trusted cas top.issuer
        (if (walkToRoot st ca).1 then
          ⟨.complete, some .managedCa, some ((walkToRoot st ca).2.getLast?.getD ca).shownName,
            (walkToRoot st ca).2.map CA.entry⟩
        else endInTrustStore trusted ((walkToRoot st ca).2.getLast?.getD ca).issuer
          ((walkToRoot st ca).2.map CA.entry)) := by
  obtain ⟨top, next, hclimb, hfound⟩ := climbTo_spec (f := st.parentCa) CA.isRoot 10 ca
  change BoundedClimb st.parentCa CA.isRoot 10 (some ca) (walkToRoot st ca).2 top next at hclimb
  change (walkToRoot st ca).1 = true ↔ _ ∧ (walkToRoot st ca).2.length ≤ 10 at hfound
  refine ⟨(walkToRoot st ca).2, top, next, hclimb, ?_⟩
  rw [hclimb.last, Option.getD_some]
  by_cases htop : (walkToRoot st ca).1 = true
  · rw [if_pos htop]
    obtain ⟨hroot, hshort⟩ := hfound.mp htop
    have hmem : top ∈ (walkToRoot st ca).2.take 10 := by
      rw [List.take_of_length_le hshort]
      exact List.mem_of_getLast? hclimb.last
    constructor
    case complete => exact ⟨fun _ => .inl ⟨top, hmem, hroot⟩, fun _ => rfl⟩
    case root =>
      intro ca' hca' hroot'
      rw [(isRoot_of_mem_take hclimb hca' hroot').1]
    case stored =>
      intro hnone _
      rw [hnone top hmem] at hroot
      cases hroot
    case incomplete => exact fun h => absurd rfl h
  · rw [if_neg htop]
    apply endInTrustStore_shows
    intro ca' hca'
    rw [← Bool.not_eq_true]
    intro hroot'
    obtain ⟨rfl, hshort⟩ := isRoot_of_mem_take hclimb hca' hroot'
    exact htop (hfound.mpr ⟨hroot', hshort⟩)

theorem validateCertChain_of_caref {refid : String} (hcaref : filled cert.caref = some refid)
    (hca : st.caByRef refid = some ca) : validateCertChain st trusted cert =
      if (walkToRoot st ca).1 then
        ⟨.complete, some .managedCa, some ((walkToRoot st ca).2.getLast?.getD ca).shownName,
          (walkToRoot st ca).2.map CA.entry⟩
      else endInTrustStore trusted ((walkToRoot st ca).2.getLast?.getD ca).issuer
        ((walkToRoot st ca).2.map CA.entry) := by
  unfold validateCertChain
  rw [hcaref]
  dsimp only
  rw [hca]

theorem validateCertChain_of_no_caref (hcaref : filled cert.caref = none)
    (hgiven : filled cert.aki ≠ none ∨ filled cert.issuer ≠ none) :
    validateCertChain st trusted cert =
      showIssuer (lookUpIssuer st cert) trusted cert.issuer := by
  unfold validateCertChain lookUpIssuer
  rw [hcaref]
  dsimp only
  cases haki : filled cert.aki with
  | some aki => rfl
  | none =>
    cases hissuer : filled cert.issuer with
    | some issuer => rfl
    | none => simp [haki, hissuer] at hgiven

theorem reachesAnchor_of_complete (h : (validateCertChain st trusted cert).status = .complete) :
    ReachesAnchor st trusted cert := by
  cases hcaref : filled cert.caref with
  | some refid =>
    cases hfound : st.caByRef refid with
    | none =>
      unfold validateCertChain at h
      rw [hcaref] at h
      dsimp only at h
      rw [hfound] at h
      cases h
    | some ca =>
      obtain ⟨cas, top, next, hclimb, hshows⟩ := walk_shows st trusted ca
      rw [validateCertChain_of_caref hcaref hfound] at h
      have hfirst : firstIssuer st cert = some ca := by
        unfold firstIssuer
        rw [hcaref]
        exact hfound
      refine .inr ⟨cas, top, next, hfirst ▸ hclimb.climb, hclimb.last, ?_⟩
      rcases hshows.complete.mp h with ⟨ca', hca', hroot⟩ | htrusted
      · exact .inl ((isRoot_of_mem_take hclimb hca' hroot).1 ▸ hroot)
      · exact .inr htrusted
  | none =>
    have hgiven : filled cert.aki ≠ none ∨ filled cert.issuer ≠ none := by
      by_contra! hnone
      unfold validateCertChain at h
      rw [hcaref, hnone.1, hnone.2] at h
      cases h
    rw [validateCertChain_of_no_caref hcaref hgiven] at h
    have hfirst : firstIssuer st cert = lookUpIssuer st cert := by
      unfold firstIssuer
      rw [hcaref]
    cases hca : lookUpIssuer st cert with
    | some ca =>
      rw [hca] at h
      cases h
    | none =>
      rw [hca] at h hfirst
      have hshows : ShowsPath trusted [] cert.issuer (endInTrustStore trusted cert.issuer []) :=
        endInTrustStore_shows fun ca hca => absurd hca List.not_mem_nil
      rcases hshows.complete.mp h with ⟨ca', hca', _⟩ | htrusted
      · exact absurd hca' List.not_mem_nil
      · exact .inl ⟨hfirst, htrusted⟩

end ChainStatus

section Sample

def keyedRoot : CA := { sampleCa with issuer := some "CN=Root", ski := some "AB:CD" }

def keyedStore : Store := { sampleStore with cas := (∅ : Table CA).insert keyedRoot }

def keyedLeaf : Certificate :=
  { refid := "leaf", descr := "leaf", issuer := some "CN=Root", aki := some "AB:CD" }

end Sample

end Routes

end CaManager
