import CaManager.Acme.Proxy
import CaManager.Library.DottedNames
import CaManager.Store.Routes

/-!
# Domains and what they resolve to

Two tables map domains: one to DNS providers, for orders that go upstream, one to the authorities
that sign here. Both are asked by walking from a name over its parents, after a `*.` in front of
the name is taken off. A domain can be registered with that mark, and such a row is never found.
-/

namespace CaManager

open Library

structure AcmeDomain where
  id : ℕ := 0
  domain : String
  dnsProviderId : ℕ
  issuingCaId : Option ℕ
  isWildcardAllowed : Bool := true
  autoApprove : Bool := true
  createdBy : Option String := none
  deriving Repr, DecidableEq

@[reducible] instance : Keyed AcmeDomain where
  key := AcmeDomain.id
  withKey id r := { r with id }
  key_withKey _ _ := rfl
  withKey_key _ := rfl

structure AcmeLocalDomain where
  id : ℕ := 0
  domain : String
  issuingCaId : ℕ
  autoApprove : Bool := true
  createdBy : Option String := none
  deriving Repr, DecidableEq

@[reducible] instance : Keyed AcmeLocalDomain where
  key := AcmeLocalDomain.id
  withKey id r := { r with id }
  key_withKey _ _ := rfl
  withKey_key _ := rfl

/-- The two tables, in each of which a domain stands once, and what their rows refer to. -/
structure DomainStore where
  cas : Table CA := ∅
  providers : Table DnsProvider := ∅
  domains : Table AcmeDomain := ∅
  localDomains : Table AcmeLocalDomain := ∅
  domainsUnique : (domains.rows.map AcmeDomain.domain).Nodup := by exact List.nodup_nil
  localDomainsUnique : (localDomains.rows.map AcmeLocalDomain.domain).Nodup := by
    exact List.nodup_nil

/-- What `find_provider_for_domain` returns. -/
structure ProviderMatch where
  provider : Option DnsProvider
  matchedDomain : String
  isWildcardAllowed : Bool
  autoApprove : Bool
  issuingCaId : Option ℕ
  deriving Repr, DecidableEq

/-- The members of a request for a new domain; those that do not concern a table are not read. -/
structure DomainData where
  domain : Option String := none
  dnsProviderId : Option ℕ := none
  issuingCaId : Option ℕ := none
  isWildcardAllowed : Option Bool := none
  autoApprove : Option Bool := none
  deriving Repr, DecidableEq

namespace DomainStore

open AcmeService (domainChain)

def isLabel (label : String) : Bool :=
  let cs := label.toList
  cs ≠ [] && cs.length ≤ 63 && cs.all (fun c => c.isAlphanum || c = '-') &&
    cs.head? ≠ some '-' && cs.getLast? ≠ some '-'

/-- `_is_valid_domain`, of a name that ends in no line break: labels with dots between them, the
last one of letters alone, and perhaps a wildcard in front. -/
def isValidDomain (domain : String) : Bool :=
  let name :=
    match domain.toList with
    | '*' :: '.' :: rest => String.ofList rest
    | _ => domain
  match (splitText '.' name).reverse with
  | last :: label :: labels =>
    2 ≤ last.length && last.toList.all Char.isAlpha && (label :: labels).all isLabel
  | _ => false

def normalized (domain : String) : String := lower (strip domain)

/-- The row that the walk of `find_provider_for_domain` stops at. -/
def matchedDomain (st : DomainStore) (domain : String) : Option AcmeDomain :=
  (domainChain domain).findSome? fun name => st.domains.first fun row => row.domain = name

def findProviderForDomain (st : DomainStore) (domain : String) : Option ProviderMatch :=
  (st.matchedDomain domain).map fun row =>
    { provider := st.providers.get? row.dnsProviderId, matchedDomain := row.domain
      isWildcardAllowed := row.isWildcardAllowed, autoApprove := row.autoApprove
      issuingCaId := row.issuingCaId }

/-- The row that the walk of `find_local_domain_ca` stops at. -/
def matchedLocalDomain (st : DomainStore) (domain : String) : Option AcmeLocalDomain :=
  (domainChain domain).findSome? fun name => st.localDomains.first fun row => row.domain = name

def findLocalDomainCa (st : DomainStore) (domain : String) : Option ℕ :=
  (st.matchedLocalDomain domain).map AcmeLocalDomain.issuingCaId

def checkIssuingCa (st : DomainStore) (id : ℕ) : Except Response Unit := do
  let ca ← orThrow (st.cas.get? id) ⟨404, "Issuing CA not found"⟩
  ensure (ca.prv.isSome) ⟨400, "Selected CA has no private key"⟩

def checkOptionalCa (st : DomainStore) (id : Option ℕ) : Except Response Unit :=
  match id.filter (· ≠ 0) with
  | some id => st.checkIssuingCa id
  | none => .ok ()

def alreadyRegistered (name : String) : Response :=
  ⟨409, "Domain " ++ name ++ " is already registered"⟩

theorem nodup_insert {Row : Type} [Keyed Row] {t : Table Row} {domainOf : Row → String}
    {row : Row} (hkey : ∀ k r, domainOf (Keyed.withKey k r) = domainOf r)
    (hunique : (t.rows.map domainOf).Nodup)
    (hnone : t.first (fun r => domainOf r = domainOf row) = none) :
    ((t.insert row).rows.map domainOf).Nodup := by
  rw [Table.insert, List.map_append, List.map_singleton, hkey, List.nodup_append]
  refine ⟨hunique, List.nodup_singleton _, ?_⟩
  intro name hname other hother
  obtain ⟨r, hr, rfl⟩ := List.mem_map.mp hname
  rw [List.mem_singleton.mp hother]
  have hno := List.find?_eq_none.mp hnone r hr
  simpa using hno

/-- `create_domain` -/
def createDomain (st : DomainStore) (username : Option String) (data : Option DomainData) :
    Except Response (AcmeDomain × DomainStore) := do
  let data ← orThrow data ⟨400, "Request body required"⟩
  let name := normalized (data.domain.getD "")
  ensure (name ≠ "") ⟨400, "Domain is required"⟩
  let providerId ← orThrow (data.dnsProviderId.filter (· ≠ 0)) ⟨400, "DNS provider is required"⟩
  ensure (st.providers.get? providerId).isSome ⟨404, "DNS provider not found"⟩
  if hnone : (st.domains.first fun row => row.domain = name) = none then do
    ensure (isValidDomain name) ⟨400, "Invalid domain format"⟩
    st.checkOptionalCa data.issuingCaId
    let row : AcmeDomain :=
      { domain := name, dnsProviderId := providerId, issuingCaId := data.issuingCaId
        isWildcardAllowed := data.isWildcardAllowed.getD true
        autoApprove := data.autoApprove.getD true, createdBy := username }
    return ({ row with id := st.domains.nextKey },
      { st with
        domains := st.domains.insert row
        domainsUnique := nodup_insert (fun _ _ => rfl) st.domainsUnique hnone })
  else throw (alreadyRegistered name)

/-- `create_local_domain`. The format is checked before the domain is looked up. -/
def createLocalDomain (st : DomainStore) (username : Option String) (data : Option DomainData) :
    Except Response (AcmeLocalDomain × DomainStore) := do
  let data ← orThrow data ⟨400, "Request body required"⟩
  let name := normalized (data.domain.getD "")
  ensure (name ≠ "") ⟨400, "Domain is required"⟩
  ensure (isValidDomain name) ⟨400, "Invalid domain format"⟩
  let caId ← orThrow (data.issuingCaId.filter (· ≠ 0)) ⟨400, "Issuing CA is required"⟩
  st.checkIssuingCa caId
  if hnone : (st.localDomains.first fun row => row.domain = name) = none then do
    let row : AcmeLocalDomain :=
      { domain := name, issuingCaId := caId, autoApprove := data.autoApprove.getD true
        createdBy := username }
    return ({ row with id := st.localDomains.nextKey },
      { st with
        localDomains := st.localDomains.insert row
        localDomainsUnique := nodup_insert (fun _ _ => rfl) st.localDomainsUnique hnone })
  else throw (alreadyRegistered name)

def IsWildcard (name : String) : Prop := ∃ base, name = "*." ++ base

def base (name : String) : String :=
  match name.toList with
  | '*' :: '.' :: rest => String.ofList rest
  | _ => name

section Walks

variable {st : DomainStore} {domain name : String}

theorem normalized_normalized (s : String) : normalized (normalized s) = normalized s := by
  rw [normalized, normalized, strip_lower, strip_strip, lower_lower]

theorem domainChain_eq (domain : String) :
    domainChain domain = withParents (splitText '.' (base (normalized domain))) := by
  simp only [domainChain, base, normalized]
  generalize lower (strip domain) = name
  rfl

theorem matchedDomain_eq : st.matchedDomain domain =
    nearest AcmeDomain.domain st.domains.rows (splitText '.' (base (normalized domain))) := by
  rw [matchedDomain, domainChain_eq]
  rfl

theorem matchedLocalDomain_eq : st.matchedLocalDomain domain =
    nearest AcmeLocalDomain.domain st.localDomains.rows
      (splitText '.' (base (normalized domain))) := by
  rw [matchedLocalDomain, domainChain_eq]
  rfl

theorem splitText_ne_nil (s : String) : splitText '.' s ≠ [] := by
  simp [splitText]

theorem base_wildcard (rest : String) : base ("*." ++ rest) = rest := by
  have hchars : ("*." ++ rest).toList = '*' :: '.' :: rest.toList := by simp
  rw [base, hchars]
  exact String.ofList_toList

theorem base_of_not_wildcard (h : ¬ IsWildcard name) : base name = name := by
  unfold base
  split
  · next rest hrest =>
    refine absurd ⟨String.ofList rest, String.toList_injective ?_⟩ h
    rw [hrest]
    simp
  · rfl

variable {Row : Type} {domainOf : Row → String} {rows : List Row} {row : Row}

theorem resolved_iff :
    Resolved domainOf rows name (nearest domainOf rows (splitText '.' (base name))) ↔
    (IsWildcard name → ∀ row ∈ rows, domainOf row ≠ name) := by
  have hbase : Resolved domainOf rows (base name)
      (nearest domainOf rows (splitText '.' (base name))) := by
    have hfound := @resolved_nearest _ domainOf rows _
      (splitText_ne_nil (base name)) fun label hlabel => notMem_of_mem_splitText hlabel
    rwa [dotted_splitText] at hfound
  by_cases hwild : IsWildcard name
  · obtain ⟨rest, rfl⟩ := hwild
    have hstar : '.' ∉ "*".toList := by decide
    have hbelow := hbase.append_iff hstar
    rw [base_wildcard] at hbelow ⊢
    exact hbelow.trans ⟨fun h _ => h, fun h => h ⟨rest, rfl⟩⟩
  · rw [base_of_not_wildcard hwild] at hbase ⊢
    exact ⟨fun _ h => absurd h hwild, fun _ => hbase⟩

theorem nearest_own_iff (hunique : (rows.map domainOf).Nodup) (hrow : row ∈ rows) :
    nearest domainOf rows (splitText '.' (base (domainOf row))) = some row ↔
      ¬ IsWildcard (domainOf row) := by
  constructor
  · intro hfound hwild
    have hres : Resolved domainOf rows (domainOf row)
        (nearest domainOf rows (splitText '.' (base (domainOf row)))) := by
      rw [hfound]
      constructor
      · intro row' hrow'
        cases hrow'
        exact ⟨hrow, .refl _, fun row' _ habove => habove.length_le⟩
      · exact fun hnone => nomatch hnone
    exact resolved_iff.mp hres hwild row hrow rfl
  · intro hplain
    refine nearest_of_mem hunique hrow ?_ (splitText_ne_nil _)
    rw [dotted_splitText, base_of_not_wildcard hplain]

end Walks

section Stores

variable {st : DomainStore} {domain name : String} {Row β : Type} {domainOf : Row → String}
  {rows : List Row}

theorem lookup_map (value : Row → β) :
    (rows.map fun row => (domainOf row, value row)).lookup name =
      (rows.find? fun row => domainOf row = name).map value := by
  induction rows with
  | nil => rfl
  | cons row rows ih =>
    rw [List.map_cons, List.lookup_cons, List.find?_cons]
    by_cases hname : domainOf row = name
    · simp [hname]
    · rw [decide_eq_false hname, beq_false_of_ne (Ne.symm hname)]
      exact ih

theorem findSome?_lookup (value : Row → β) (names : List String) :
    (names.findSome? fun name => (rows.map fun row => (domainOf row, value row)).lookup name) =
      (names.findSome? fun name => rows.find? fun row => domainOf row = name).map value := by
  simp only [lookup_map, List.map_findSome?]
  rfl

theorem findLocalDomainCa_eq {acme : AcmeStore} (h : acme.localDomains =
    st.localDomains.rows.map fun row => (row.domain, row.issuingCaId)) :
    AcmeService.findLocalDomainCa acme domain = st.findLocalDomainCa domain := by
  rw [AcmeService.findLocalDomainCa, h, findSome?_lookup]
  rfl

theorem findProviderCa_eq {acme : AcmeStore} (h : acme.domains =
    st.domains.rows.map fun row => (row.domain, row.issuingCaId)) :
    AcmeService.findProviderCa acme domain =
      (st.findProviderForDomain domain).bind ProviderMatch.issuingCaId := by
  rw [AcmeService.findProviderCa, h, findSome?_lookup, findProviderForDomain, Option.bind_map,
    ← Option.bind_id_eq_join, Option.bind_map]
  rfl

theorem findProvider_eq {client : ClientStore} (hproviders : client.providers = st.providers)
    (h : client.domains = st.domains.rows.map fun row => (row.domain, row.dnsProviderId)) :
    client.findProvider domain =
      (st.findProviderForDomain domain).map ProviderMatch.provider := by
  rw [ClientStore.findProvider, h, hproviders, findSome?_lookup, findProviderForDomain,
    Option.map_map, Option.map_map]
  rfl

end Stores

section Creating

variable {st st' : DomainStore} {username : Option String} {data : Option DomainData}

theorem mem_of_createDomain {row : AcmeDomain}
    (h : st.createDomain username data = .ok (row, st')) :
    row ∈ st'.domains ∧ normalized row.domain = row.domain := by
  simp only [createDomain, bind_eq_ok] at h
  obtain ⟨data, _, _, _, providerId, _, _, _, h⟩ := h
  split_ifs at h with hnone
  simp only [bind_eq_ok] at h
  obtain ⟨_, _, _, _, h⟩ := h
  cases h
  exact ⟨Table.mem_insert.mpr (.inr rfl), normalized_normalized _⟩

theorem mem_of_createLocalDomain {row : AcmeLocalDomain}
    (h : st.createLocalDomain username data = .ok (row, st')) :
    row ∈ st'.localDomains ∧ normalized row.domain = row.domain := by
  simp only [createLocalDomain, bind_eq_ok] at h
  obtain ⟨data, _, _, _, _, _, caId, _, _, _, h⟩ := h
  split_ifs at h with hnone
  cases h
  exact ⟨Table.mem_insert.mpr (.inr rfl), normalized_normalized _⟩

end Creating

section Resolution

variable {st : DomainStore} {domain : String}

/-- What is asked of the two resolvers at a name: each finds the mapping of the longest domain at or
above the name, nothing where there is none, and of the same domains they find the same one. -/
structure Resolves (st : DomainStore) (domain : String) : Prop where
  provider : Resolved AcmeDomain.domain st.domains.rows (normalized domain)
    (st.matchedDomain domain)
  localCa : Resolved AcmeLocalDomain.domain st.localDomains.rows (normalized domain)
    (st.matchedLocalDomain domain)
  noProvider : (∀ row ∈ st.domains, ¬ DotSuffix row.domain (normalized domain)) →
    st.findProviderForDomain domain = none
  noLocalCa : (∀ row ∈ st.localDomains, ¬ DotSuffix row.domain (normalized domain)) →
    st.findLocalDomainCa domain = none
  same : (∀ name, name ∈ st.domains.rows.map AcmeDomain.domain ↔
      name ∈ st.localDomains.rows.map AcmeLocalDomain.domain) →
    (st.matchedDomain domain).map AcmeDomain.domain =
      (st.matchedLocalDomain domain).map AcmeLocalDomain.domain

theorem resolved_provider_iff :
    Resolved AcmeDomain.domain st.domains.rows (normalized domain) (st.matchedDomain domain) ↔
      (IsWildcard (normalized domain) → ∀ row ∈ st.domains, row.domain ≠ normalized domain) := by
  rw [matchedDomain_eq]
  exact resolved_iff

theorem resolved_localCa_iff :
    Resolved AcmeLocalDomain.domain st.localDomains.rows (normalized domain)
        (st.matchedLocalDomain domain) ↔
      (IsWildcard (normalized domain) →
        ∀ row ∈ st.localDomains, row.domain ≠ normalized domain) := by
  rw [matchedLocalDomain_eq]
  exact resolved_iff

theorem map_matchedDomain (h : ∀ name, name ∈ st.domains.rows.map AcmeDomain.domain ↔
      name ∈ st.localDomains.rows.map AcmeLocalDomain.domain) :
    (st.matchedDomain domain).map AcmeDomain.domain =
      (st.matchedLocalDomain domain).map AcmeLocalDomain.domain := by
  rw [matchedDomain_eq, matchedLocalDomain_eq, map_nearest, map_nearest]
  simp only [h]

theorem matchedDomain_eq_none (h : ∀ row ∈ st.domains, ¬ DotSuffix row.domain (normalized domain)) :
    st.matchedDomain domain = none := by
  have hno : ∀ row ∈ st.domains, row.domain ≠ normalized domain := by
    intro row hrow hname
    exact h row hrow (hname ▸ .refl _)
  exact Resolved.eq_none (resolved_provider_iff.mpr fun _ => hno) h

theorem matchedLocalDomain_eq_none
    (h : ∀ row ∈ st.localDomains, ¬ DotSuffix row.domain (normalized domain)) :
    st.matchedLocalDomain domain = none := by
  have hno : ∀ row ∈ st.localDomains, row.domain ≠ normalized domain := by
    intro row hrow hname
    exact h row hrow (hname ▸ .refl _)
  exact Resolved.eq_none (resolved_localCa_iff.mpr fun _ => hno) h

/-- The resolvers do what is asked of them exactly at the names that have no wildcard or for which,
as they are, no mapping stands. A new mapping is found at its own domain exactly if that has no
wildcard. -/
theorem resolves_iff (st : DomainStore) :
    (∀ domain, Resolves st domain ↔
      (IsWildcard (normalized domain) →
        (∀ row ∈ st.domains, row.domain ≠ normalized domain) ∧
          ∀ row ∈ st.localDomains, row.domain ≠ normalized domain)) ∧
    (∀ username data row st', st.createDomain username data = .ok (row, st') →
      (st'.matchedDomain row.domain = some row ↔ ¬ IsWildcard row.domain)) ∧
    (∀ username data row st', st.createLocalDomain username data = .ok (row, st') →
      (st'.matchedLocalDomain row.domain = some row ↔ ¬ IsWildcard row.domain)) := by
  refine ⟨?_, ?_, ?_⟩
  · intro domain
    constructor
    · intro h hwild
      exact ⟨resolved_provider_iff.mp h.provider hwild, resolved_localCa_iff.mp h.localCa hwild⟩
    · intro h
      exact
        { provider := resolved_provider_iff.mpr fun hwild => (h hwild).1
          localCa := resolved_localCa_iff.mpr fun hwild => (h hwild).2
          noProvider := fun hnone => by rw [findProviderForDomain, matchedDomain_eq_none hnone]; rfl
          noLocalCa := fun hnone => by rw [findLocalDomainCa, matchedLocalDomain_eq_none hnone]; rfl
          same := map_matchedDomain }
  · intro username data row st' hcreate
    obtain ⟨hrow, hname⟩ := mem_of_createDomain hcreate
    rw [matchedDomain_eq, hname]
    exact nearest_own_iff st'.domainsUnique hrow
  · intro username data row st' hcreate
    obtain ⟨hrow, hname⟩ := mem_of_createLocalDomain hcreate
    rw [matchedLocalDomain_eq, hname]
    exact nearest_own_iff st'.localDomainsUnique hrow

end Resolution

section Sample

def oneProvider : DomainStore :=
  { providers := (∅ : Table DnsProvider).insert
      { name := "DNS", providerType := "manual", credentials := none } }

/-- A wildcard domain can be registered, and is not found when it is asked for. -/
theorem wildcard_not_found : ∃ row st',
    oneProvider.createDomain none
        (some { domain := some "*.example.com", dnsProviderId := some 1 }) = .ok (row, st') ∧
      row ∈ st'.domains ∧ st'.findProviderForDomain row.domain = none ∧
        ¬ Resolves st' row.domain := by
  refine ⟨⟨1, "*.example.com", 1, none, true, true, none⟩, _, rfl, ?_, ?_, ?_⟩
  · decide
  · decide +kernel
  · intro h
    have hwild : IsWildcard (normalized "*.example.com") := ⟨"example.com", by decide +kernel⟩
    refine resolved_provider_iff.mp h.provider hwild _ List.mem_cons_self ?_
    decide +kernel

end Sample

end DomainStore

end CaManager
