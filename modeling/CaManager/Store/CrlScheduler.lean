import CaManager.Store.Operations

/-!
# The scheduled task for revocation lists

The task asks for the authorities whose `has_private_key` is true. That name is no column but a
property of the row class: the query compares the property object with `True`, which is false
whatever the row, so no authority is ever selected and the task ends there. What it would do
with an authority is modelled all the same: it looks at the latest list of either kind.
-/

namespace CaManager

open Library

/-- What a keyword of a query on authorities names. -/
inductive ClassAttribute
  | column (test : CA → Bool)
  | property

def CA.classAttribute : String → Option ClassAttribute
  | "cdp_enabled" => some (.column CA.cdpEnabled)
  | "delta_crl_enabled" => some (.column CA.deltaCrlEnabled)
  | "ocsp_enabled" => some (.column CA.ocspEnabled)
  | "has_private_key" => some .property
  | "uses_hsm" => some .property
  | _ => none

/-- The criterion `attribute = True`. A property object is not equal to `True`. -/
def ClassAttribute.isTrue : ClassAttribute → CA → Bool
  | .column test, ca => test ca
  | .property, _ => false

/-- `CA.query.filter_by(name=True, …).all()` -/
def Store.filterCas (st : Store) (names : List String) : Except PyError (List CA) := do
  let attributes ← names.mapM fun name =>
    orThrow (CA.classAttribute name) (.invalidRequest "CA" name)
  return st.cas.select fun ca => attributes.all fun a => a.isTrue ca

namespace CrlSchedulerTask

def regenerationThresholdHours : ℤ := 24

def isStale (m : CrlMetadata) (now : Time) : Bool := decide (m.nextUpdate < now)

def daysUntilExpiry (m : CrlMetadata) (now : Time) : ℤ := max 0 ((m.nextUpdate - now) / 86400)

def latestCreated (st : Store) (caId : ℕ) : Option CrlMetadata :=
  (st.crls.select fun m => m.caId = caId).foldl
    (fun latest m =>
      match latest with
      | none => some m
      | some l => if l.createdAt < m.createdAt then some m else some l) none

def shouldRegenerateCrl (st : Store) (caId : ℕ) (now : Time) : Bool × Option String :=
  match st.cas.get? caId with
  | none => (false, some s!"CA {caId} not found")
  | some ca =>
    if ca.hasPrivateKey = false then (false, some s!"CA '{ca.descr}' has no private key")
    else
      match latestCreated st caId with
      | none => (true, some s!"No CRL exists for CA '{ca.descr}' - needs generation")
      | some latest =>
        if isStale latest now then
          (true, some s!"CRL is stale for CA '{ca.descr}' - needs regeneration")
        else
          let hours := daysUntilExpiry latest now * 24
          if hours ≤ regenerationThresholdHours then
            (true, some s!"CRL expires in {hours}.0h for CA '{ca.descr}' (threshold: {regenerationThresholdHours}h)")
          else (false, none)

def regenerateCrl (st : Store) (caId : ℕ) (now : Time) : Bool × Store :=
  match CRLService.generateCrl st caId CRLService.defaultValidityDays "scheduler" now with
  | .ok (_, st') => (true, st')
  | .error _ => (false, st)

def refresh (now : Time) (st : Store) (ca : CA) : Store :=
  if (shouldRegenerateCrl st ca.id now).1 then (regenerateCrl st ca.id now).2 else st

def getLatestDeltaCrl (st : Store) (caId : ℕ) : Option CrlMetadata :=
  (st.crls.select fun m => m.caId = caId && m.isDelta).foldl
    (fun latest m =>
      match latest with
      | none => some m
      | some l => if l.crlNumber < m.crlNumber then some m else some l) none

def intervalHours (ca : CA) : ℤ := (ca.deltaCrlInterval.filter (· ≠ 0)).getD 4

def needsDelta (st : Store) (ca : CA) (now : Time) : Bool :=
  match getLatestDeltaCrl st ca.id with
  | none => (CRLService.latestBase st ca.id).isSome
  | some latest =>
    isStale latest now || decide (intervalHours ca * 3600 ≤ now - latest.thisUpdate)

def refreshDelta (now : Time) (st : Store) (ca : CA) : Store :=
  if needsDelta st ca now then
    match CRLService.generateDeltaCrl st ca.id (intervalHours ca * 2) "scheduler" now with
    | .ok (_, st') => st'
    | .error _ => st
  else st

/-- `execute`. Failures are logged. -/
def execute (st : Store) (now : Time) : Store :=
  match st.filterCas ["has_private_key", "cdp_enabled"] with
  | .error _ => st
  | .ok [] => st
  | .ok (ca :: cas) =>
    let refreshed := (ca :: cas).foldl (refresh now) st
    match refreshed.filterCas ["has_private_key", "cdp_enabled", "delta_crl_enabled"] with
    | .error _ => refreshed
    | .ok deltaCas => deltaCas.foldl (refreshDelta now) refreshed

/-- The authority has a full list that stays valid for longer than the margin. -/
def HasFreshCrl (st : Store) (now : Time) (caId : ℕ) : Prop :=
  ∃ m ∈ st.crls.rows, m.caId = caId ∧ m.isDelta = false ∧
    now + regenerationThresholdHours * 3600 < m.nextUpdate

instance (st : Store) (now : Time) (caId : ℕ) : Decidable (HasFreshCrl st now caId) :=
  inferInstanceAs (Decidable (∃ m ∈ st.crls.rows, _))

/-- Every authority that publishes lists and has a private key has a fresh full list. -/
def CrlsFresh (st : Store) (now : Time) : Prop :=
  ∀ ca ∈ st.cas.rows, ca.cdpEnabled = true → ca.hasPrivateKey = true → HasFreshCrl st now ca.id

instance (st : Store) (now : Time) : Decidable (CrlsFresh st now) :=
  inferInstanceAs (Decidable (∀ ca ∈ st.cas.rows, _))

section Task

variable {st : Store} {now : Time} {ca : CA} {m : CrlMetadata}

theorem filterCas_hasPrivateKey (st : Store) :
    st.filterCas ["has_private_key", "cdp_enabled"] = .ok [] := by
  have hnone : (st.cas.select fun ca =>
      [ClassAttribute.property, .column CA.cdpEnabled].all fun a => a.isTrue ca) = [] := by
    rw [List.eq_nil_iff_forall_not_mem]
    intro ca hca
    obtain ⟨_, htrue⟩ := Table.mem_select.mp hca
    simp [ClassAttribute.isTrue] at htrue
  exact congrArg Except.ok hnone

theorem execute_eq (st : Store) (now : Time) : execute st now = st := by
  unfold execute
  rw [filterCas_hasPrivateKey]

/-- After a run of the task the lists are fresh exactly if they were before it. -/
theorem crlsFresh_execute_iff (st : Store) (now : Time) :
    CrlsFresh (execute st now) now ↔ CrlsFresh st now := by
  rw [execute_eq]

def unlistedStore : Store :=
  { sampleStore with cas := (∅ : Table CA).insert { sampleCa with cdpEnabled := true } }

/-- An authority whose list could be signed has none after the task. -/
theorem execute_leaves_unlisted :
    (∃ m st', CRLService.generateCrl unlistedStore 1 7 "scheduler" 100 = .ok (m, st')) ∧
      (execute unlistedStore 100).crls = ∅ ∧ ¬CrlsFresh (execute unlistedStore 100) 100 :=
  ⟨⟨_, _, rfl⟩, rfl, by decide +kernel⟩

end Task

section Loop

variable {st : Store} {now : Time} {ca : CA}

theorem nextUpdate_generateCrl {caId : ℕ} {validityDays : ℤ} {username : String}
    {m : CrlMetadata} {st' : Store}
    (h : CRLService.generateCrl st caId validityDays username now = .ok (m, st')) :
    m.nextUpdate = now + days validityDays := by
  simp only [CRLService.generateCrl, bind_eq_ok, orThrow_eq_ok, ensure_eq_ok, pure_eq_ok,
    Prod.mk.injEq] at h
  obtain ⟨_, _, _, _, _, _, rfl, _⟩ := h
  rfl

theorem hasFreshCrl_regenerateCrl {caId : ℕ} (h : (regenerateCrl st caId now).1 = true) :
    HasFreshCrl (regenerateCrl st caId now).2 now caId := by
  unfold regenerateCrl at h ⊢
  split at h
  next m st' hgen =>
    obtain ⟨_, _, _, _, hcaId, hfull, rfl⟩ := CRLService.generateCrl_eq_ok hgen
    have hnext := nextUpdate_generateCrl hgen
    refine ⟨_, List.mem_append_right _ List.mem_cons_self, hcaId, hfull, ?_⟩
    change _ < m.nextUpdate
    rw [hnext]
    simp [regenerationThresholdHours, CRLService.defaultValidityDays, days]
  next => cases h

theorem latest_of_not_shouldRegenerate (hca : st.cas.get? ca.id = some ca)
    (hkey : ca.hasPrivateKey = true) (h : (shouldRegenerateCrl st ca.id now).1 = false) :
    ∃ m, latestCreated st ca.id = some m ∧
      now + regenerationThresholdHours * 3600 < m.nextUpdate := by
  unfold shouldRegenerateCrl at h
  rw [hca] at h
  dsimp only at h
  rw [if_neg (by simp [hkey])] at h
  cases hlatest : latestCreated st ca.id with
  | none =>
    rw [hlatest] at h
    cases h
  | some m =>
    rw [hlatest] at h
    dsimp only at h
    split_ifs at h with hstale hhours
    have hmargin : ∀ a b : ℤ, ¬max 0 ((a - b) / 86400) * 24 ≤ 24 → b + 24 * 3600 < a := by
      intro a b hab
      omega
    exact ⟨m, rfl, hmargin m.nextUpdate now hhours⟩

/-- The authority has a list, full or delta, that stays valid for longer than the margin. -/
def Covered (st : Store) (now : Time) (caId : ℕ) : Prop :=
  ∃ m ∈ st.crls, m.caId = caId ∧ now + regenerationThresholdHours * 3600 < m.nextUpdate

theorem mem_of_latestCreated {caId : ℕ} (h : latestCreated st caId = some m) :
    m ∈ st.crls ∧ m.caId = caId := by
  have hmem : m ∈ st.crls.select fun m => m.caId = caId := by
    refine mem_of_foldl (fun _ => rfl) (fun l a => ?_) h
    dsimp only
    split_ifs
    · exact .inl rfl
    · exact .inr rfl
  simpa using Table.mem_select.mp hmem

theorem regenerateCrl_cases (st : Store) (caId : ℕ) (now : Time) :
    (regenerateCrl st caId now).1 = false ∧ (regenerateCrl st caId now).2 = st ∨
      (regenerateCrl st caId now).1 = true ∧
        ∃ m, (regenerateCrl st caId now).2 = { st with crls := st.crls.insert m } := by
  unfold regenerateCrl
  split
  next m st' hgen =>
    obtain ⟨_, _, _, _, _, _, rfl⟩ := CRLService.generateCrl_eq_ok hgen
    exact .inr ⟨rfl, m, rfl⟩
  next => exact .inl ⟨rfl, rfl⟩

theorem regenerateCrl_of_crls (crls : Table CrlMetadata) (caId : ℕ) :
    (regenerateCrl { st with crls } caId now).1 = (regenerateCrl st caId now).1 := by
  unfold regenerateCrl CRLService.generateCrl CRLService.buildCrl
  cases st.cas.get? caId with
  | none => rfl
  | some ca =>
    simp only [orThrow_some, ok_bind]
    by_cases hkey : ca.hasPrivateKey = true
    · cases ca.certificate with
      | error e => simp [hkey]
      | ok caCert =>
        cases ca.decryptedPrivateKey st.keyEncryptionKey with
        | error e => simp [hkey]
        | ok key =>
          have hrows : CRLService.revokedRows { st with crls } ca =
            CRLService.revokedRows st ca := rfl
          cases hentries : CRLService.revokedEntries now (CRLService.revokedRows st ca) with
          | error e => simp [hkey, hrows, hentries]
          | ok entries => simp [hkey, hrows, hentries]
    · simp [hkey]

theorem refresh_eq (st : Store) (ca : CA) (now : Time) :
    ∃ crls, refresh now st ca = { st with crls } ∧ ∀ m ∈ st.crls, m ∈ crls := by
  unfold refresh
  split_ifs
  · rcases regenerateCrl_cases st ca.id now with ⟨_, heq⟩ | ⟨_, m, heq⟩
    · exact ⟨st.crls, heq, fun _ => id⟩
    · exact ⟨_, heq, fun _ hm => Table.mem_insert.mpr (.inl hm)⟩
  · exact ⟨st.crls, rfl, fun _ => id⟩

theorem covered_refresh (hca : st.cas.get? ca.id = some ca) (hkey : ca.hasPrivateKey = true) :
    Covered (refresh now st ca) now ca.id ∨ (regenerateCrl st ca.id now).1 = false := by
  unfold refresh
  cases hdue : (shouldRegenerateCrl st ca.id now).1 with
  | true =>
    rw [if_pos rfl]
    cases hdone : (regenerateCrl st ca.id now).1 with
    | true =>
      obtain ⟨m, hm, hcaId, _, hlong⟩ := hasFreshCrl_regenerateCrl hdone
      exact .inl ⟨m, hm, hcaId, hlong⟩
    | false => exact .inr rfl
  | false =>
    rw [if_neg Bool.false_ne_true]
    obtain ⟨m, hlatest, hlong⟩ := latest_of_not_shouldRegenerate hca hkey hdue
    obtain ⟨hm, hcaId⟩ := mem_of_latestCreated hlatest
    exact .inl ⟨m, hm, hcaId, hlong⟩

/-- After the loop over authorities with private keys, each of them has a list that is valid for
long, or it cannot make one. -/
theorem covered_loop {cas : List CA}
    (hcas : ∀ ca ∈ cas, st.cas.get? ca.id = some ca ∧ ca.hasPrivateKey = true) :
    ∀ ca ∈ cas, Covered (cas.foldl (refresh now) st) now ca.id ∨
      (regenerateCrl st ca.id now).1 = false := by
  have hkept : ∀ (cas : List CA) (st : Store) (caId : ℕ), Covered st now caId →
      Covered (cas.foldl (refresh now) st) now caId := by
    intro cas
    induction cas with
    | nil => exact fun _ _ h => h
    | cons first rest ih =>
      rintro st caId ⟨m, hm, hrest⟩
      obtain ⟨crls, heq, hgrows⟩ := refresh_eq st first now
      rw [List.foldl_cons, heq]
      exact ih _ caId ⟨m, hgrows m hm, hrest⟩
  induction cas generalizing st with
  | nil => exact fun _ hca => nomatch hca
  | cons first rest ih =>
    obtain ⟨crls, heq, _⟩ := refresh_eq st first now
    have hrest : ∀ ca ∈ rest, ({ st with crls } : Store).cas.get? ca.id = some ca ∧
        ca.hasPrivateKey = true := fun ca hca => hcas ca (List.mem_cons_of_mem _ hca)
    intro ca hca
    rcases List.mem_cons.mp hca with rfl | hca
    · obtain ⟨hstored, hkey⟩ := hcas ca List.mem_cons_self
      exact (covered_refresh hstored hkey).imp_left (hkept rest _ ca.id)
    · rw [List.foldl_cons, heq, ← regenerateCrl_of_crls crls]
      exact ih hrest ca hca

theorem covered_loop_unlisted :
    unlistedStore.cas.rows ≠ [] ∧
      ∀ ca ∈ unlistedStore.cas.rows,
        Covered (unlistedStore.cas.rows.foldl (refresh 100) unlistedStore) 100 ca.id ∨
          (regenerateCrl unlistedStore ca.id 100).1 = false :=
  ⟨by decide +kernel, covered_loop (by decide +kernel)⟩

end Loop

end CrlSchedulerTask

end CaManager
