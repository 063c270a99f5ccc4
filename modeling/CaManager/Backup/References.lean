import CaManager.Library.Upserts

/-!
# References in a backup

A backup is taken over by names: users by their usernames, authorities and certificates by their
refids, API keys by their hashes. The references between rows, other than those to authorities by
refid, are exported as ids of the database they come from and written as they are. Only the
columns with names and references are modelled, of restores that end without an exception.
-/

namespace CaManager

open Library Keyed

namespace BackupReferences

/-- A user under its username, or a group, template or DNS provider under its name. -/
structure Entity where
  id : ℕ := 0
  name : String
  deriving DecidableEq

/-- An authority or a certificate under its refid. -/
structure Issued where
  id : ℕ := 0
  refid : String
  caref : Option String
  deriving DecidableEq

/-- An API key under its hash, or an authentication certificate under its serial number. -/
structure Owned where
  id : ℕ := 0
  label : String
  userId : ℕ
  deriving DecidableEq

structure GroupMember where
  id : ℕ := 0
  groupId : ℕ
  userId : ℕ
  deriving DecidableEq

structure CertificatePolicy where
  id : ℕ := 0
  name : String
  caId : Option ℕ
  templateId : Option ℕ
  approvalGroupId : Option ℕ
  deriving DecidableEq

structure AcmeDomain where
  id : ℕ := 0
  domain : String
  dnsProviderId : ℕ
  issuingCaId : Option ℕ
  deriving DecidableEq

structure AcmeLocalDomain where
  id : ℕ := 0
  domain : String
  issuingCaId : ℕ
  deriving DecidableEq

section Rows

instance : NamedRow Entity where
  key := Entity.id
  withKey id r := { r with id }
  key_withKey _ _ := rfl
  withKey_key _ := rfl
  name := Entity.name
  name_withKey _ _ := rfl

instance : NamedRow Issued where
  key := Issued.id
  withKey id r := { r with id }
  key_withKey _ _ := rfl
  withKey_key _ := rfl
  name := Issued.refid
  name_withKey _ _ := rfl

instance : NamedRow Owned where
  key := Owned.id
  withKey id r := { r with id }
  key_withKey _ _ := rfl
  withKey_key _ := rfl
  name := Owned.label
  name_withKey _ _ := rfl

instance : Keyed GroupMember where
  key := GroupMember.id
  withKey id r := { r with id }
  key_withKey _ _ := rfl
  withKey_key _ := rfl

instance : NamedRow CertificatePolicy where
  key := CertificatePolicy.id
  withKey id r := { r with id }
  key_withKey _ _ := rfl
  withKey_key _ := rfl
  name := CertificatePolicy.name
  name_withKey _ _ := rfl

instance : NamedRow AcmeDomain where
  key := AcmeDomain.id
  withKey id r := { r with id }
  key_withKey _ _ := rfl
  withKey_key _ := rfl
  name := AcmeDomain.domain
  name_withKey _ _ := rfl

instance : NamedRow AcmeLocalDomain where
  key := AcmeLocalDomain.id
  withKey id r := { r with id }
  key_withKey _ _ := rfl
  withKey_key _ := rfl
  name := AcmeLocalDomain.domain
  name_withKey _ _ := rfl

end Rows

/-- The tables that a backup holds and that others refer to, or that refer to others. Names of
DNS providers alone may occur twice. -/
structure Database where
  users : UniqueTable Entity
  cas : UniqueTable Issued
  certificates : UniqueTable Issued
  groups : UniqueTable Entity
  members : Table GroupMember
  templates : UniqueTable Entity
  apiKeys : UniqueTable Owned
  policies : UniqueTable CertificatePolicy
  authCertificates : UniqueTable Owned
  dnsProviders : Table Entity
  acmeDomains : UniqueTable AcmeDomain
  acmeLocalDomains : UniqueTable AcmeLocalDomain

structure GroupEntry where
  group : Entity
  members : List ℕ

/-- The lists of entries in a backup; an entry is the row without its id. -/
structure Backup where
  users : List Entity
  cas : List Issued
  certificates : List Issued
  groups : List GroupEntry
  templates : List Entity
  apiKeys : List Owned
  policies : List CertificatePolicy
  authCertificates : List Owned
  dnsProviders : List Entity
  acmeDomains : List AcmeDomain
  acmeLocalDomains : List AcmeLocalDomain

section Exports

variable (s : Database)

def entries {Row : Type} [Keyed Row] (t : Table Row) : List Row := t.rows.map (withKey 0)

def exportGroups : List GroupEntry :=
  s.groups.rows.map fun group =>
    { group := withKey 0 group
      members := (s.members.select fun m => m.groupId = group.id).map GroupMember.userId }

def createBackup : Backup where
  users := entries s.users.toTable
  cas := entries s.cas.toTable
  certificates := entries s.certificates.toTable
  groups := exportGroups s
  templates := entries s.templates.toTable
  apiKeys := entries s.apiKeys.toTable
  policies := entries s.policies.toTable
  authCertificates := entries s.authCertificates.toTable
  dnsProviders := entries s.dnsProviders
  acmeDomains := entries s.acmeDomains.toTable
  acmeLocalDomains := entries s.acmeLocalDomains.toTable

end Exports

section Restore

def keep {Row : Type} [NamedRow Row] : Takeover Row where
  change _ r := r
  name_change _ _ := rfl

/-- The authority of a domain is set, its DNS provider only where the domain is new. -/
def restoreAcmeDomain : Takeover AcmeDomain where
  change e r := { r with issuingCaId := e.issuingCaId }
  name_change _ _ := rfl

def restoreAcmeLocalDomain : Takeover AcmeLocalDomain where
  change e r := { r with issuingCaId := e.issuingCaId }
  name_change _ _ := rfl

def restoreMember (groupId : ℕ) (members : Table GroupMember) (userId : ℕ) : Table GroupMember :=
  match members.first fun m => m.groupId = groupId ∧ m.userId = userId with
  | some _ => members
  | none => members.insert { groupId, userId }

def restoreGroup (st : UniqueTable Entity × Table GroupMember) (e : GroupEntry) :
    UniqueTable Entity × Table GroupMember :=
  let groups := st.1.mergeAll keep.toMerge [e.group]
  match groups.ofName e.group.name with
  | some group => (groups, e.members.foldl (restoreMember group.id) st.2)
  | none => (groups, st.2)

def restoreGroups (st : UniqueTable Entity × Table GroupMember) (es : List GroupEntry) :
    UniqueTable Entity × Table GroupMember :=
  es.foldl restoreGroup st

def restoreBackup (b : Backup) (t : Database) : Database where
  users := t.users.mergeAll keep.toMerge b.users
  cas := t.cas.mergeAll keep.toMerge b.cas
  certificates := t.certificates.mergeAll keep.toMerge b.certificates
  groups := (restoreGroups (t.groups, t.members) b.groups).1
  members := (restoreGroups (t.groups, t.members) b.groups).2
  templates := t.templates.mergeAll keep.toMerge b.templates
  apiKeys := t.apiKeys.mergeAll keep.toMerge b.apiKeys
  policies := t.policies.mergeAll keep.toMerge b.policies
  authCertificates := t.authCertificates.mergeAll keep.toMerge b.authCertificates
  dnsProviders := keep.toMerge.mergeAll t.dnsProviders b.dnsProviders
  acmeDomains := t.acmeDomains.mergeAll restoreAcmeDomain.toMerge b.acmeDomains
  acmeLocalDomains := t.acmeLocalDomains.mergeAll restoreAcmeLocalDomain.toMerge b.acmeLocalDomains

end Restore

section Columns

def owner : Reference (keep : Takeover Owned) where
  column r := some r.userId
  written := false
  column_withKey _ _ := rfl
  column_change _ _ := rfl

def policyCa : Reference (keep : Takeover CertificatePolicy) where
  column := CertificatePolicy.caId
  written := false
  column_withKey _ _ := rfl
  column_change _ _ := rfl

def policyTemplate : Reference (keep : Takeover CertificatePolicy) where
  column := CertificatePolicy.templateId
  written := false
  column_withKey _ _ := rfl
  column_change _ _ := rfl

def policyGroup : Reference (keep : Takeover CertificatePolicy) where
  column := CertificatePolicy.approvalGroupId
  written := false
  column_withKey _ _ := rfl
  column_change _ _ := rfl

def domainProvider : Reference restoreAcmeDomain where
  column r := some r.dnsProviderId
  written := false
  column_withKey _ _ := rfl
  column_change _ _ := rfl

def domainCa : Reference restoreAcmeDomain where
  column := AcmeDomain.issuingCaId
  written := true
  column_withKey _ _ := rfl
  column_change _ _ := rfl

def localDomainCa : Reference restoreAcmeLocalDomain where
  column r := some r.issuingCaId
  written := true
  column_withKey _ _ := rfl
  column_change _ _ := rfl

end Columns

section Groups

theorem toTable_restoreGroups (st : UniqueTable Entity × Table GroupMember)
    (es : List GroupEntry) :
    (restoreGroups st es).1.toTable = keep.toMerge.mergeAll st.1.toTable (es.map GroupEntry.group) := by
  induction es generalizing st with
  | nil => rfl
  | cons e es ih =>
    have hstep : (restoreGroup st e).1 = st.1.mergeAll keep.toMerge [e.group] := by
      unfold restoreGroup
      dsimp only
      split <;> rfl
    rw [restoreGroups, List.foldl_cons, ← restoreGroups, ih, hstep]
    rfl

theorem mem_restoreMember {groupId userId : ℕ} {members : Table GroupMember} {m : GroupMember}
    (h : m ∈ members) : m ∈ restoreMember groupId members userId := by
  unfold restoreMember
  split
  · exact h
  · exact Table.mem_insert.mpr (.inl h)

theorem mem_foldl_restoreMember {groupId : ℕ} {userIds : List ℕ} {members : Table GroupMember}
    {m : GroupMember} (h : m ∈ members) :
    m ∈ userIds.foldl (restoreMember groupId) members := by
  induction userIds generalizing members with
  | nil => exact h
  | cons userId userIds ih => exact ih (mem_restoreMember h)

theorem exists_mem_foldl_restoreMember {groupId userId : ℕ} {userIds : List ℕ}
    (members : Table GroupMember) (h : userId ∈ userIds) :
    ∃ m ∈ userIds.foldl (restoreMember groupId) members,
      m.groupId = groupId ∧ m.userId = userId := by
  induction userIds generalizing members with
  | nil => cases h
  | cons userId' userIds ih =>
    rcases List.mem_cons.mp h with rfl | h
    · have hrow : ∃ m ∈ restoreMember groupId members userId,
          m.groupId = groupId ∧ m.userId = userId := by
        unfold restoreMember
        split
        next m hm =>
          have hholds := Table.holds_of_first hm
          exact ⟨m, Table.mem_of_first hm, of_decide_eq_true hholds⟩
        next => exact ⟨_, Table.mem_insert.mpr (.inr rfl), rfl, rfl⟩
      obtain ⟨m, hm, hrefers⟩ := hrow
      rw [List.foldl_cons]
      exact ⟨m, mem_foldl_restoreMember hm, hrefers⟩
    · exact ih (restoreMember groupId members userId') h

theorem mem_restoreGroup {st : UniqueTable Entity × Table GroupMember} {e : GroupEntry}
    {m : GroupMember} (h : m ∈ st.2) : m ∈ (restoreGroup st e).2 := by
  unfold restoreGroup
  dsimp only
  split
  · exact mem_foldl_restoreMember h
  · exact h

theorem mem_restoreGroups {st : UniqueTable Entity × Table GroupMember} {es : List GroupEntry}
    {m : GroupMember} (h : m ∈ st.2) : m ∈ (restoreGroups st es).2 := by
  induction es generalizing st with
  | nil => exact h
  | cons e es ih => exact ih (mem_restoreGroup h)

theorem exists_mem_restoreGroups (st : UniqueTable Entity × Table GroupMember)
    {es : List GroupEntry} {e : GroupEntry} {userId : ℕ} (he : e ∈ es) (hu : userId ∈ e.members) :
    ∃ m ∈ (restoreGroups st es).2,
      (restoreGroups st es).1.nameAt m.groupId = some e.group.name ∧ m.userId = userId := by
  induction es generalizing st with
  | nil => cases he
  | cons e' es ih =>
    rcases List.mem_cons.mp he with rfl | he
    · obtain ⟨k, hk⟩ := Merge.ofName_merge_self (m := keep.toMerge) (t := st.1.toTable) e.group
      have hrow : ∃ m ∈ (restoreGroup st e).2,
          (restoreGroup st e).1.nameAt m.groupId = some e.group.name ∧ m.userId = userId := by
        unfold restoreGroup
        dsimp only
        split
        next group hgroup =>
          obtain ⟨m, hm, hgroupId, huserId⟩ := exists_mem_foldl_restoreMember st.2 hu
          refine ⟨m, hm, ?_, huserId⟩
          rw [hgroupId]
          exact Table.nameAt_of_ofName hgroup
        next hnone => cases hk.symm.trans hnone
      obtain ⟨m, hm, hname, huserId⟩ := hrow
      rw [restoreGroups, List.foldl_cons, ← restoreGroups]
      refine ⟨m, mem_restoreGroups hm, ?_, huserId⟩
      rw [toTable_restoreGroups]
      exact Merge.nameAt_mergeAll_of_nameAt hname _
    · exact ih (restoreGroup st e') he

end Groups

section References

/-- What a certificate or authority names as its issuer is named by its row in the other database,
and is there. -/
def IssuersKept (owners owners' cas cas' : Table Issued) : Prop :=
  ∀ r ∈ owners, ∀ n, r.caref = some n → n ∈ cas.names →
    (∃ r', owners'.ofName r.refid = some r' ∧ r'.caref = some n) ∧ n ∈ cas'.names

def IssuersLand (owners targets cas : Table Issued) : Prop :=
  ∀ r ∈ owners, ∀ n, r.caref = some n → n ∈ cas.names →
    ∀ r', targets.ofName r.refid = some r' → r'.caref = some n

/-- Every member of a group has a row in the group of that name, under the id it was exported
with, and the id is that of the user of the same name. -/
def MembersKept (s t : Database) : Prop :=
  ∀ group ∈ s.groups.toTable, ∀ m ∈ s.members, m.groupId = group.id →
    ∀ n, s.users.nameAt m.userId = some n →
      ∃ m' ∈ t.members, t.groups.nameAt m'.groupId = some group.name ∧ m'.userId = m.userId ∧
        t.users.nameAt m'.userId = some n

def MembersLand (s t : Database) : Prop :=
  ∀ group ∈ s.groups.toTable, ∀ m ∈ s.members, m.groupId = group.id →
    ∀ n, s.users.nameAt m.userId = some n →
      keep.toMerge.arrives t.users.toTable (entries s.users.toTable) m.userId = some n

/-- The references of the rows of one database, where they denote a row, denote the row of the
same name in the other. -/
structure ReferencesKept (s t : Database) : Prop where
  members : MembersKept s t
  apiKeys : owner.Kept s.apiKeys.toTable t.apiKeys.toTable s.users.toTable t.users.toTable
  authCertificates :
    owner.Kept s.authCertificates.toTable t.authCertificates.toTable s.users.toTable
      t.users.toTable
  policyCas : policyCa.Kept s.policies.toTable t.policies.toTable s.cas.toTable t.cas.toTable
  policyTemplates :
    policyTemplate.Kept s.policies.toTable t.policies.toTable s.templates.toTable
      t.templates.toTable
  policyGroups :
    policyGroup.Kept s.policies.toTable t.policies.toTable s.groups.toTable t.groups.toTable
  domainProviders :
    domainProvider.Kept s.acmeDomains.toTable t.acmeDomains.toTable s.dnsProviders t.dnsProviders
  domainCas : domainCa.Kept s.acmeDomains.toTable t.acmeDomains.toTable s.cas.toTable t.cas.toTable
  localDomainCas :
    localDomainCa.Kept s.acmeLocalDomains.toTable t.acmeLocalDomains.toTable s.cas.toTable
      t.cas.toTable
  caIssuers : IssuersKept s.cas.toTable t.cas.toTable s.cas.toTable t.cas.toTable
  certificateIssuers :
    IssuersKept s.certificates.toTable t.certificates.toTable s.cas.toTable t.cas.toTable

/-- Every id that will stand in a reference, that of the source or that of a row that was there, is
in the target the id of the row of the same name: already, or when it is given out. -/
structure ReferencesLand (s t : Database) : Prop where
  members : MembersLand s t
  apiKeys :
    owner.Lands s.apiKeys.toTable t.apiKeys.toTable s.users.toTable
      (keep.toMerge.arrives t.users.toTable (entries s.users.toTable))
  authCertificates :
    owner.Lands s.authCertificates.toTable t.authCertificates.toTable s.users.toTable
      (keep.toMerge.arrives t.users.toTable (entries s.users.toTable))
  policyCas :
    policyCa.Lands s.policies.toTable t.policies.toTable s.cas.toTable
      (keep.toMerge.arrives t.cas.toTable (entries s.cas.toTable))
  policyTemplates :
    policyTemplate.Lands s.policies.toTable t.policies.toTable s.templates.toTable
      (keep.toMerge.arrives t.templates.toTable (entries s.templates.toTable))
  policyGroups :
    policyGroup.Lands s.policies.toTable t.policies.toTable s.groups.toTable
      (keep.toMerge.arrives t.groups.toTable (entries s.groups.toTable))
  domainProviders :
    domainProvider.Lands s.acmeDomains.toTable t.acmeDomains.toTable s.dnsProviders
      (keep.toMerge.arrives t.dnsProviders (entries s.dnsProviders))
  domainCas :
    domainCa.Lands s.acmeDomains.toTable t.acmeDomains.toTable s.cas.toTable
      (keep.toMerge.arrives t.cas.toTable (entries s.cas.toTable))
  localDomainCas :
    localDomainCa.Lands s.acmeLocalDomains.toTable t.acmeLocalDomains.toTable s.cas.toTable
      (keep.toMerge.arrives t.cas.toTable (entries s.cas.toTable))
  caIssuers : IssuersLand s.cas.toTable t.cas.toTable s.cas.toTable
  certificateIssuers : IssuersLand s.certificates.toTable t.certificates.toTable s.cas.toTable

theorem kept_mergeAll_iff {Row Ref : Type} [NamedRow Row] [NamedRow Ref] {m : Takeover Row}
    {m' : Takeover Ref} (c : Reference m) (owners targets : UniqueTable Row)
    (refs refs₀ : Table Ref) :
    c.Kept owners.toTable (targets.mergeAll m.toMerge (entries owners.toTable)).toTable refs
        (m'.toMerge.mergeAll refs₀ (entries refs)) ↔
      c.Lands owners.toTable targets.toTable refs (m'.toMerge.arrives refs₀ (entries refs)) := by
  have harrives : (m'.toMerge.mergeAll refs₀ (entries refs)).nameAt =
      m'.toMerge.arrives refs₀ (entries refs) := funext (m'.toMerge.nameAt_mergeAll refs₀ _)
  rw [← harrives]
  exact c.kept_iff owners.nodup

theorem issuersKept_iff (owners targets cas cas₀ : UniqueTable Issued) :
    IssuersKept owners.toTable (targets.mergeAll keep.toMerge (entries owners.toTable)).toTable
        cas.toTable (cas₀.mergeAll keep.toMerge (entries cas.toTable)).toTable ↔
      IssuersLand owners.toTable targets.toTable cas.toTable := by
  refine forall_congr' fun r => forall_congr' fun hr => forall_congr' fun n =>
    forall_congr' fun hcaref => forall_congr' fun hn => ?_
  obtain ⟨k, hrow⟩ := keep.ofName_mergeAll targets.toTable owners.nodup hr
  have hcas : n ∈ (cas₀.mergeAll keep.toMerge (entries cas.toTable)).names := by
    obtain ⟨ca, hca, rfl⟩ := List.mem_map.mp hn
    obtain ⟨_, hparent⟩ := keep.ofName_mergeAll cas₀.toTable cas.nodup hca
    exact Table.mem_names_of_ofName hparent
  change (∃ r', (keep.toMerge.mergeAll targets.toTable (entries owners.toTable)).ofName r.refid =
    some r' ∧ r'.caref = some n) ∧ _ ↔ _
  cases htarget : targets.ofName r.refid with
  | some r₀ =>
    rw [show Named.name r = r.refid from rfl, htarget] at hrow
    constructor
    · rintro ⟨⟨r', hr', hkept⟩, _⟩ r'' hr''
      rw [← Option.some.inj hr'', ← hkept, ← Option.some.inj (hrow.symm.trans hr')]
      rfl
    · intro hlands
      exact ⟨⟨_, hrow, hlands r₀ rfl⟩, hcas⟩
  | none =>
    rw [show Named.name r = r.refid from rfl, htarget] at hrow
    constructor
    · intro _ r' hr'
      cases hr'
    · intro _
      exact ⟨⟨_, hrow, hcaref⟩, hcas⟩

theorem membersKept_iff (s t : Database) :
    MembersKept s (restoreBackup (createBackup s) t) ↔ MembersLand s t := by
  refine forall_congr' fun group => forall_congr' fun hgroup => forall_congr' fun m =>
    forall_congr' fun hm => forall_congr' fun hgroupId => forall_congr' fun n =>
    forall_congr' fun _ => ?_
  have hentry : m.userId ∈
      (s.members.select fun m => m.groupId = group.id).map GroupMember.userId :=
    List.mem_map_of_mem (Table.mem_select.mpr ⟨hm, decide_eq_true hgroupId⟩)
  obtain ⟨m', hm', hname, huserId⟩ := exists_mem_restoreGroups (t.groups, t.members)
    (List.mem_map_of_mem hgroup : _ ∈ exportGroups s) hentry
  have harrives : (restoreBackup (createBackup s) t).users.nameAt m.userId =
      keep.toMerge.arrives t.users.toTable (entries s.users.toTable) m.userId :=
    keep.toMerge.nameAt_mergeAll _ _ _
  constructor
  · rintro ⟨m'', _, _, huserId'', hkept⟩
    rw [← harrives, ← huserId'', hkept]
  · intro hlands
    refine ⟨m', hm', hname, huserId, ?_⟩
    rw [huserId, harrives, hlands]

/-- A backup of one database restored into another keeps the references exactly if the ids that
stand in them denote the same in both. -/
theorem referencesKept_iff (s t : Database) :
    ReferencesKept s (restoreBackup (createBackup s) t) ↔ ReferencesLand s t := by
  have hgroups : (restoreBackup (createBackup s) t).groups.toTable =
      keep.toMerge.mergeAll t.groups.toTable (entries s.groups.toTable) := by
    change (restoreGroups (t.groups, t.members) (exportGroups s)).1.toTable = _
    rw [toTable_restoreGroups, exportGroups, List.map_map]
    rfl
  constructor
  · intro h
    refine
      { members := (membersKept_iff s t).mp h.members
        apiKeys := (kept_mergeAll_iff owner _ _ _ _).mp h.apiKeys
        authCertificates := (kept_mergeAll_iff owner _ _ _ _).mp h.authCertificates
        policyCas := (kept_mergeAll_iff policyCa _ _ _ _).mp h.policyCas
        policyTemplates := (kept_mergeAll_iff policyTemplate _ _ _ _).mp h.policyTemplates
        policyGroups := (kept_mergeAll_iff policyGroup _ _ _ _).mp (hgroups ▸ h.policyGroups)
        domainProviders := (kept_mergeAll_iff domainProvider _ _ _ _).mp h.domainProviders
        domainCas := (kept_mergeAll_iff domainCa _ _ _ _).mp h.domainCas
        localDomainCas := (kept_mergeAll_iff localDomainCa _ _ _ _).mp h.localDomainCas
        caIssuers := (issuersKept_iff _ _ _ _).mp h.caIssuers
        certificateIssuers := (issuersKept_iff _ _ _ _).mp h.certificateIssuers }
  · intro h
    refine
      { members := (membersKept_iff s t).mpr h.members
        apiKeys := (kept_mergeAll_iff owner _ _ _ _).mpr h.apiKeys
        authCertificates := (kept_mergeAll_iff owner _ _ _ _).mpr h.authCertificates
        policyCas := (kept_mergeAll_iff policyCa _ _ _ _).mpr h.policyCas
        policyTemplates := (kept_mergeAll_iff policyTemplate _ _ _ _).mpr h.policyTemplates
        policyGroups := hgroups ▸ (kept_mergeAll_iff policyGroup _ _ _ _).mpr h.policyGroups
        domainProviders := (kept_mergeAll_iff domainProvider _ _ _ _).mpr h.domainProviders
        domainCas := (kept_mergeAll_iff domainCa _ _ _ _).mpr h.domainCas
        localDomainCas := (kept_mergeAll_iff localDomainCa _ _ _ _).mpr h.localDomainCas
        caIssuers := (issuersKept_iff _ _ _ _).mpr h.caIssuers
        certificateIssuers := (issuersKept_iff _ _ _ _).mpr h.certificateIssuers }

end References

section Sample

def noRows {Row : Type} [NamedRow Row] : UniqueTable Row := ⟨∅, List.nodup_nil⟩

/-- A database with a user `root` and one more. -/
def withUser (username : String) (h : username ≠ "root") : Database where
  users :=
    { toTable := ((∅ : Table Entity).insert { name := "root" }).insert { name := username }
      nodup := List.nodup_cons.mpr
        ⟨fun hmem => h (List.mem_singleton.mp hmem).symm, List.nodup_singleton _⟩ }
  cas := noRows
  certificates := noRows
  groups := noRows
  members := ∅
  templates := noRows
  apiKeys := noRows
  policies := noRows
  authCertificates := noRows
  dnsProviders := ∅
  acmeDomains := noRows
  acmeLocalDomains := noRows

def annDatabase : Database :=
  { withUser "ann" (by decide) with
    groups :=
      { toTable := (∅ : Table Entity).insert { name := "operators" }
        nodup := List.nodup_singleton _ }
    members := (∅ : Table GroupMember).insert { groupId := 1, userId := 2 } }

def bobDatabase : Database := withUser "bob" (by decide)

/-- Restored where the second user is Bob, the group has Bob as its member. -/
theorem member_becomes_bob :
    let restored := restoreBackup (createBackup annDatabase) bobDatabase
    annDatabase.users.nameAt 2 = some "ann" ∧ restored.users.nameAt 3 = some "ann" ∧
      restored.members.rows = [⟨1, 1, 2⟩] ∧ restored.users.nameAt 2 = some "bob" ∧
        ¬ReferencesKept annDatabase restored := by
  intro restored
  have hmembers : restored.members.rows = [⟨1, 1, 2⟩] := by decide
  have hbob : restored.users.nameAt 2 = some "bob" := by decide
  refine ⟨by decide, by decide, hmembers, hbob, fun hkept => ?_⟩
  obtain ⟨m, hm, _, huserId, hname⟩ := hkept.members ⟨1, "operators"⟩ (by decide) ⟨1, 1, 2⟩
    (by decide) rfl "ann" (by decide)
  rw [huserId, hbob] at hname
  exact absurd hname (by decide)

end Sample

end BackupReferences

end CaManager
