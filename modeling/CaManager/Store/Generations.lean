import CaManager.Library.Machines
import CaManager.Store.Operations
import CaManager.Store.Routes

/-!
# Generations of revocation lists, step by step

A generation reads the authority (and the base, for a delta list), then the revoked rows, then
the last number, then the clock, and commits its row. Any number of generations run at a time,
between revocations and removed holds. A generation that raises leaves nothing behind. Run
without interruption, the steps are `generateCrl` and `generateDeltaCrl`.
-/

namespace CaManager

open Library

namespace Generations

inductive ListKind
  | full (validityDays : ℤ)
  | delta (validityHours : ℤ)
  deriving DecidableEq

structure Job where
  caId : ℕ
  kind : ListKind
  username : String
  deriving DecidableEq

/-- What a generation has loaded before its query of the revoked rows. -/
structure Draft where
  job : Job
  ca : CA
  caCert : X509
  caPrivateKey : PublicKey
  base : Option CrlMetadata
  deriving DecidableEq

/-- The first part of `generate_delta_crl`: its checks, and the base. -/
def loadBase (st : Store) (ca : CA) (validityHours : ℤ) : Except PyError CrlMetadata := do
  ensure (ca.hasPrivateKey = true) (.valueError s!"CA {ca.descr} does not have a private key")
  ensure (ca.cdpEnabled = true) (.valueError "CDP is not enabled for this CA")
  ensure (ca.deltaCrlEnabled = true) (.valueError "Delta CRL is not enabled for this CA")
  ensure (1 ≤ validityHours ∧ validityHours ≤ 720)
    (.valueError "validity_hours must be between 1 and 720")
  orThrow (CRLService.latestBase st ca.id)
    (.valueError s!"No base CRL exists for CA {ca.descr} — generate a full CRL first")

def checkJob (st : Store) (ca : CA) : ListKind → Except PyError (Option CrlMetadata)
  | .full _ => do
    ensure (ca.hasPrivateKey = true)
      (.valueError s!"CA {ca.descr} does not have a private key - cannot sign CRL")
    return none
  | .delta validityHours => some <$> loadBase st ca validityHours

def prepare (st : Store) (job : Job) : Except PyError Draft := do
  let ca ← orThrow (st.cas.get? job.caId) (.valueError s!"CA with id {job.caId} not found")
  let base ← checkJob st ca job.kind
  let caCert ← ca.certificate
  let caPrivateKey ← ca.decryptedPrivateKey st.keyEncryptionKey
  return { job, ca, caCert, caPrivateKey, base }

def Draft.rows (d : Draft) (st : Store) : List Certificate :=
  match d.base with
  | none => CRLService.revokedRows st d.ca
  | some base => CRLService.revokedSince st d.ca base

def ListKind.validity : ListKind → ℤ
  | .full validityDays => days validityDays
  | .delta validityHours => validityHours * 3600

def Draft.freshest (d : Draft) : Option String :=
  match d.base with
  | none => CRLService.freshestCrl d.ca
  | some _ => none

def Draft.sign (d : Draft) (rows : List Certificate) (number : ℕ) (now : Time) :
    Except PyError CrlMetadata := do
  let entries ← CRLService.revokedEntries now rows
  let crl : Crl :=
    { issuer := d.caCert.subject, lastUpdate := now, nextUpdate := now + d.job.kind.validity
      entries, crlNumber := number, authorityKey := CRLService.authorityKey d.caCert
      freshest := d.freshest, signedBy := d.caPrivateKey
      deltaBase := d.base.map CrlMetadata.crlNumber }
  return { caId := d.job.caId, crlNumber := number, thisUpdate := now
           nextUpdate := now + d.job.kind.validity, crl, revokedCount := rows.length
           generatedBy := d.job.username, isDelta := d.base.isSome
           baseCrlNumber := d.base.map CrlMetadata.crlNumber }

/-- Where a generation is. `seen` is the store that its query ran on, `known` the lists of the
authority that were stored when it read the last number. -/
inductive Stage
  | idle
  | due (job : Job)
  | prepared (d : Draft)
  | queried (d : Draft) (seen : Store)
  | numbered (d : Draft) (seen : Store) (known : List CrlMetadata) (number : ℕ)
  | signed (d : Draft) (seen : Store) (known : List CrlMetadata) (row : CrlMetadata)

structure Site where
  store : Store
  stages : ℕ → Stage

def Site.enter (s : Site) (i : ℕ) (stage : Stage) : Site :=
  { s with stages := Function.update s.stages i stage }

def listsOf (st : Store) (caId : ℕ) : List CrlMetadata :=
  st.crls.select fun m => m.caId = caId

def Site.mark (s : Site) (certId : ℕ) (reason : String) (now : Time) : Site :=
  { s with store := s.store.setCertificate certId (CertificateService.revokedRow reason now) }

/-- The request that revokes a row commits that first; a list may be due then. -/
def revoke (s : Site) (i certId : ℕ) (reason username : String) (now : Time) : Site :=
  match s.store.certificates.get? certId with
  | none => s
  | some row =>
    if row.revoked then s
    else
      let s := s.mark certId reason now
      match s.store.cas.first fun c => some c.refid = row.caref with
      | some ca =>
        if ca.cdpEnabled then
          s.enter i (.due ⟨ca.id, .full CRLService.defaultValidityDays, username⟩)
        else s
      | none => s

inductive Event
  | call (i : ℕ) (job : Job)
  | revoke (i certId : ℕ) (reason username : String) (now : Time)
  | unhold (certId : ℕ)
  | prepare (i : ℕ)
  | query (i : ℕ)
  | number (i : ℕ)
  | sign (i : ℕ) (now : Time)
  | commit (i : ℕ)
  deriving DecidableEq

def step (s : Site) : Event → Site
  | .call i job =>
    match s.stages i with
    | .idle => s.enter i (.due job)
    | _ => s
  | .revoke i certId reason username now =>
    match s.stages i with
    | .idle => revoke s i certId reason username now
    | _ => s
  | .unhold certId => { s with store := (Routes.unholdCertificate s.store certId).2 }
  | .prepare i =>
    match s.stages i with
    | .due job =>
      match prepare s.store job with
      | .ok d => s.enter i (.prepared d)
      | .error _ => s.enter i .idle
    | _ => s
  | .query i =>
    match s.stages i with
    | .prepared d => s.enter i (.queried d s.store)
    | _ => s
  | .number i =>
    match s.stages i with
    | .queried d seen =>
      s.enter i (.numbered d seen (listsOf s.store d.job.caId)
        (CRLService.nextCrlNumber s.store d.job.caId))
    | _ => s
  | .sign i now =>
    match s.stages i with
    | .numbered d seen known number =>
      match d.sign (d.rows seen) number now with
      | .ok row => s.enter i (.signed d seen known row)
      | .error _ => s.enter i .idle
    | _ => s
  | .commit i =>
    match s.stages i with
    | .signed _ _ _ row =>
      { s with store := { s.store with crls := s.store.crls.insert row } }.enter i .idle
    | _ => s

inductive Step (s : Site) : Event → Site → Prop
  | stay (e : Event)
      (h : ∀ i, e = .commit i → ∀ d seen known row, s.stages i ≠ .signed d seen known row) :
      Step s e s
  | call {i : ℕ} {job : Job} (hi : s.stages i = .idle) :
      Step s (.call i job) (s.enter i (.due job))
  | revoke {i certId : ℕ} {reason username : String} {now : Time} (hi : s.stages i = .idle) :
      Step s (.revoke i certId reason username now)
        (Generations.revoke s i certId reason username now)
  | unhold {certId : ℕ} :
      Step s (.unhold certId) { s with store := (Routes.unholdCertificate s.store certId).2 }
  | prepared {i : ℕ} {job : Job} {d : Draft} (hi : s.stages i = .due job)
      (hd : Generations.prepare s.store job = .ok d) : Step s (.prepare i) (s.enter i (.prepared d))
  | queried {i : ℕ} {d : Draft} (hi : s.stages i = .prepared d) :
      Step s (.query i) (s.enter i (.queried d s.store))
  | numbered {i : ℕ} {d : Draft} {seen : Store} (hi : s.stages i = .queried d seen) :
      Step s (.number i) (s.enter i (.numbered d seen (listsOf s.store d.job.caId)
        (CRLService.nextCrlNumber s.store d.job.caId)))
  | signed {i : ℕ} {d : Draft} {seen : Store} {known : List CrlMetadata} {number : ℕ}
      {now : Time} {row : CrlMetadata} (hi : s.stages i = .numbered d seen known number)
      (hrow : d.sign (d.rows seen) number now = .ok row) :
      Step s (.sign i now) (s.enter i (.signed d seen known row))
  | committed {i : ℕ} {d : Draft} {seen : Store} {known : List CrlMetadata} {row : CrlMetadata}
      (hi : s.stages i = .signed d seen known row) :
      Step s (.commit i)
        ({ s with store := { s.store with crls := s.store.crls.insert row } }.enter i .idle)
  | raised {e : Event} (i : ℕ) (h : ∀ j, e ≠ .commit j) : Step s e (s.enter i .idle)

def Quiet (s : Site) : Prop := ∀ i, s.stages i = .idle

section Enter

variable {s : Site} {i j : ℕ} {stage : Stage}

@[simp] theorem enter_store : (s.enter i stage).store = s.store := rfl

@[simp] theorem enter_stages_self : (s.enter i stage).stages i = stage :=
  Function.update_self ..

theorem enter_stages_of_ne (h : j ≠ i) : (s.enter i stage).stages j = s.stages j :=
  Function.update_of_ne h ..

theorem forall_stages_enter {P : ℕ → Stage → Prop} (hi : P i stage)
    (h : ∀ j, P j (s.stages j)) : ∀ j, P j ((s.enter i stage).stages j) := by
  intro j
  by_cases hj : j = i
  · subst hj
    rw [enter_stages_self]
    exact hi
  · rw [enter_stages_of_ne hj]
    exact h j

end Enter

theorem step_step (s : Site) (e : Event) : Step s e (step s e) := by
  cases e with
  | call i job =>
    simp only [step]
    split
    next hi => exact .call hi
    next => exact .stay _ (by simp)
  | revoke i certId reason username now =>
    simp only [step]
    split
    next hi => exact .revoke hi
    next => exact .stay _ (by simp)
  | unhold certId => exact .unhold
  | prepare i =>
    simp only [step]
    split
    next job hi =>
      split
      next d hd => exact .prepared hi hd
      next => exact .raised i (by simp)
    next => exact .stay _ (by simp)
  | query i =>
    simp only [step]
    split
    next d hi => exact .queried hi
    next => exact .stay _ (by simp)
  | number i =>
    simp only [step]
    split
    next d seen hi => exact .numbered hi
    next => exact .stay _ (by simp)
  | sign i now =>
    simp only [step]
    split
    next d seen known number hi =>
      split
      next row hrow => exact .signed hi hrow
      next => exact .raised i (by simp)
    next => exact .stay _ (by simp)
  | commit i =>
    simp only [step]
    split
    next d seen known row hi => exact .committed hi
    next hi =>
      refine .stay _ fun j hj d seen known row => ?_
      cases hj
      exact hi d seen known row

theorem revoke_cases (s : Site) (i certId : ℕ) (reason username : String) (now : Time) :
    revoke s i certId reason username now = s ∨
      ∃ row, s.store.certificates.get? certId = some row ∧ row.revoked = false ∧
        (revoke s i certId reason username now = s.mark certId reason now ∨
          ∃ job, revoke s i certId reason username now =
            (s.mark certId reason now).enter i (.due job)) := by
  unfold revoke
  split
  next => exact .inl rfl
  next row hrow =>
    split
    next => exact .inl rfl
    next hrevoked =>
      refine .inr ⟨row, hrow, by simpa using hrevoked, ?_⟩
      dsimp only
      split
      next ca hca =>
        split
        next => exact .inr ⟨_, rfl⟩
        next => exact .inl rfl
      next => exact .inl rfl

section Sequential

variable {s : Site} {i : ℕ} {job : Job} {st : Store} {caId : ℕ} {username : String} {now : Time}

def generate (st : Store) (job : Job) (now : Time) : Except PyError Store := do
  let d ← prepare st job
  let row ← d.sign (d.rows st) (CRLService.nextCrlNumber st d.job.caId) now
  return { st with crls := st.crls.insert row }

def uninterrupted (i : ℕ) (job : Job) (now : Time) : List Event :=
  [.call i job, .prepare i, .query i, .number i, .sign i now, .commit i]

theorem store_uninterrupted (hi : s.stages i = .idle) :
    (run step s (uninterrupted i job now)).store =
      match generate s.store job now with
      | .ok st => st
      | .error _ => s.store := by
  cases hprepare : prepare s.store job with
  | error e => simp [uninterrupted, step, hi, generate, hprepare]
  | ok d =>
    cases hsign : d.sign (d.rows s.store) (CRLService.nextCrlNumber s.store d.job.caId) now with
    | error e => simp [uninterrupted, step, hi, generate, hprepare, hsign]
    | ok row => simp [uninterrupted, step, hi, generate, hprepare, hsign, pure, Except.pure]

theorem generate_full (validityDays : ℤ) :
    generate st ⟨caId, .full validityDays, username⟩ now =
      Prod.snd <$> CRLService.generateCrl st caId validityDays username now := by
  unfold generate prepare CRLService.generateCrl CRLService.buildCrl
  cases hca : st.cas.get? caId with
  | none => rfl
  | some ca =>
    have hid : ca.id = caId := Table.key_of_get? hca
    simp only [orThrow_some, ok_bind, checkJob]
    by_cases hkey : ca.hasPrivateKey = true
    · cases hcert : ca.certificate with
      | error e => simp [hkey]
      | ok caCert =>
        cases hprivate : ca.decryptedPrivateKey st.keyEncryptionKey with
        | error e => simp [hkey]
        | ok key =>
          subst hid
          cases hentries : CRLService.revokedEntries now (CRLService.revokedRows st ca) with
          | error e => simp [hkey, Draft.sign, Draft.rows, hentries]
          | ok entries =>
            simp [hkey, Draft.sign, Draft.rows, hentries]
            rfl
    · simp [hkey]

theorem generate_delta (validityHours : ℤ) :
    generate st ⟨caId, .delta validityHours, username⟩ now =
      Prod.snd <$> CRLService.generateDeltaCrl st caId validityHours username now := by
  unfold generate prepare CRLService.generateDeltaCrl
  cases hca : st.cas.get? caId with
  | none => rfl
  | some ca =>
    have hid : ca.id = caId := Table.key_of_get? hca
    subst hid
    simp only [orThrow_some, ok_bind, checkJob, loadBase]
    by_cases hkey : ca.hasPrivateKey = true
    swap
    · simp [hkey]
    by_cases hcdp : ca.cdpEnabled = true
    swap
    · simp [hkey, hcdp]
    by_cases hdelta : ca.deltaCrlEnabled = true
    swap
    · simp [hkey, hcdp, hdelta]
    by_cases hhours : 1 ≤ validityHours ∧ validityHours ≤ 720
    swap
    · simp [hkey, hcdp, hdelta, ensure_of_not hhours]
    cases hbase : CRLService.latestBase st ca.id with
    | none => simp [hkey, hcdp, hdelta, ensure_of hhours]
    | some base =>
      cases hcert : ca.certificate with
      | error e => simp [hkey, hcdp, hdelta, ensure_of hhours]
      | ok caCert =>
        cases hprivate : ca.decryptedPrivateKey st.keyEncryptionKey with
        | error e => simp [hkey, hcdp, hdelta, ensure_of hhours]
        | ok key =>
          cases hentries : CRLService.revokedEntries now (CRLService.revokedSince st ca base) with
          | error e =>
            simp [hkey, hcdp, hdelta, ensure_of hhours, Draft.sign, Draft.rows, hentries]
          | ok entries =>
            simp [hkey, hcdp, hdelta, ensure_of hhours, Draft.sign, Draft.rows, hentries]
            rfl

/-- A generation that nothing comes between stores what the service stores in one go, and nothing
where the service raises. -/
theorem run_uninterrupted (hi : s.stages i = .idle) (validity : ℤ) :
    (run step s (uninterrupted i ⟨caId, .full validity, username⟩ now)).store =
        (match CRLService.generateCrl s.store caId validity username now with
          | .ok (_, st) => st
          | .error _ => s.store) ∧
      (run step s (uninterrupted i ⟨caId, .delta validity, username⟩ now)).store =
        (match CRLService.generateDeltaCrl s.store caId validity username now with
          | .ok (_, st) => st
          | .error _ => s.store) := by
  rw [store_uninterrupted hi, store_uninterrupted hi, generate_full, generate_delta]
  constructor
  · cases CRLService.generateCrl s.store caId validity username now <;> rfl
  · cases CRLService.generateDeltaCrl s.store caId validity username now <;> rfl

theorem run_uninterrupted_sample :
    (run step ⟨sampleStore, fun _ => .idle⟩ (uninterrupted 0 ⟨1, .full 7, "admin"⟩ 100)).store =
      (match CRLService.generateCrl sampleStore 1 7 "admin" 100 with
        | .ok (_, st) => st
        | .error _ => sampleStore) :=
  (run_uninterrupted (s := ⟨sampleStore, fun _ => .idle⟩) rfl 7).1

end Sequential

end Generations

end CaManager
