import CaManager.Store.CrlCompleteness
import CaManager.Store.CrlNumbering

/-!
# What a delta list adds to its base

A delta list is to be applied to the full list that it continues: entries are added, and
entries with the reason `removeFromCRL` take a number off. The delta is made of the rows whose
revocation time is later than the timestamp of the base, and that timestamp is taken after the
base's own query. The result is the set of revoked certificates when no row is revoked
between the two, nothing on the base has been released, and the times of revocation keep pace.
-/

namespace CaManager

open Library

namespace Generations

def Removes (delta : Crl) (n : ℤ) : Prop :=
  ∃ e ∈ delta.entries, e.serial = n ∧ e.reason = some .removeFromCrl

def Adds (delta : Crl) (n : ℤ) : Prop :=
  ∃ e ∈ delta.entries, e.serial = n ∧ e.reason ≠ some .removeFromCrl

def Applied (base delta : Crl) (n : ℤ) : Prop :=
  n ∈ base.serials ∧ ¬Removes delta n ∨ Adds delta n

/-- A delta list that is committed gives, with the base that its number refers to, the revoked
certificates of the authority in the store that its query ran on. -/
def Complete (s : Site) : Event → Prop
  | .commit i => ∀ d seen known (row : CrlMetadata), s.stages i = .signed d seen known row →
    row.isDelta = true → ∀ base ∈ s.store.crls, base.caId = row.caId → base.isDelta = false →
      row.baseCrlNumber = some base.crlNumber →
      ∀ n, Applied base.crl row.crl n ↔ RevokedSerial seen d.ca n
  | _ => True

/-- The numbers of the revoked rows of an authority, as the lists read them. -/
def revokedNumbers (st : Store) (ca : CA) : List ℤ :=
  (CRLService.revokedRows st ca).filterMap CRLService.listedSerial

/-- The row can be revoked now: it is listable, it is not revoked with the reason that stands for
a removal, and the clock is past the timestamps of its authority's full lists. -/
def Revocable (st : Store) (certId : ℕ) (reason : String) (now : Time) : Prop :=
  RowListable st certId ∧ reason ≠ "removeFromCRL" ∧
    ∀ c ∈ st.certificates.rows, c.id = certId → ∀ ca ∈ st.cas.rows, c.caref = some ca.refid →
      ∀ m ∈ st.crls.rows, m.caId = ca.id → m.isDelta = false → m.thisUpdate < now

instance (st : Store) (certId : ℕ) (reason : String) (now : Time) :
    Decidable (Revocable st certId reason now) :=
  inferInstanceAs (Decidable (_ ∧ _ ∧ ∀ c ∈ st.certificates.rows, _))

def Stage.Unreleased (st : Store) : Stage → Prop
  | .prepared d => ∀ base ∈ d.base, ∀ n ∈ base.crl.serials, n ∈ revokedNumbers st d.ca
  | _ => True

instance (st : Store) : ∀ stage : Stage, Decidable (stage.Unreleased st)
  | .prepared d => inferInstanceAs
      (Decidable (∀ base ∈ d.base, ∀ n ∈ base.crl.serials, n ∈ revokedNumbers st d.ca))
  | .idle | .due _ | .queried .. | .numbered .. | .signed .. => .isTrue trivial

/-- What has been revoked since the query of a full list bears a later time than its timestamp. -/
def Stage.Timely (st : Store) : Stage → Prop
  | .signed d _ _ row => d.base = none → ∀ c ∈ CRLService.revokedRows st d.ca,
      (∃ n ∈ row.crl.serials, CRLService.listedSerial c = some n) ∨
        ∃ t ∈ c.revokedAt, row.thisUpdate < t
  | _ => True

instance (st : Store) : ∀ stage : Stage, Decidable (stage.Timely st)
  | .signed d _ _ _ => inferInstanceAs
      (Decidable (d.base = none → ∀ c ∈ CRLService.revokedRows st d.ca, _))
  | .idle | .due _ | .prepared _ | .queried .. | .numbered .. => .isTrue trivial

def Punctual (s : Site) : Event → Prop
  | .revoke _ certId reason _ now => Revocable s.store certId reason now
  | .query i => (s.stages i).Unreleased s.store
  | .commit i => (s.stages i).Current s.store ∧ (s.stages i).Timely s.store
  | _ => True

instance (s : Site) : ∀ e, Decidable (Punctual s e)
  | .revoke _ certId reason _ now => inferInstanceAs (Decidable (Revocable s.store certId reason now))
  | .query i => inferInstanceAs (Decidable ((s.stages i).Unreleased s.store))
  | .commit i => inferInstanceAs
      (Decidable ((s.stages i).Current s.store ∧ (s.stages i).Timely s.store))
  | .call .. | .unhold _ | .prepare _ | .number _ | .sign .. => .isTrue trivial

theorem fresh_of_punctual {s : Site} {e : Event} (h : Punctual s e) : Fresh s e := by
  cases e with
  | commit i => exact h.1
  | call | revoke | unhold | prepare | query | number | sign => trivial

section Reasons

theorem revokeReason_of_removes {c : Certificate}
    (h : CRLService.listedReason c = some .removeFromCrl) :
    c.revokeReason = some "removeFromCRL" := by
  have hall : ∀ p ∈ CRLService.reasonMap, p.2 = .removeFromCrl → p.1 = "removeFromCRL" := by
    decide +kernel
  unfold CRLService.listedReason at h
  split at h
  next => cases h
  next => cases h
  next reason _ hreason =>
    rw [hreason]
    cases hlookup : CRLService.reasonMap.lookup reason with
    | none =>
      rw [hlookup] at h
      cases h
    | some flag =>
      rw [hlookup, Option.getD_some, Option.some.injEq] at h
      obtain ⟨l₁, l₂, hl, _⟩ := List.lookup_eq_some_iff.mp hlookup
      have hmem : (reason, flag) ∈ CRLService.reasonMap := by simp [hl]
      exact congrArg some (hall _ hmem h)

theorem applied_iff {base delta : Crl} (h : ∀ e ∈ delta.entries, e.reason ≠ some .removeFromCrl)
    (n : ℤ) : Applied base delta n ↔ n ∈ base.serials ∨ n ∈ delta.serials := by
  have hremoves : ¬Removes delta n := by
    intro hr
    obtain ⟨e, he, _, hreason⟩ := hr
    exact h e he hreason
  have hadds : Adds delta n ↔ n ∈ delta.serials := by
    rw [Crl.serials, List.mem_map]
    constructor
    · intro ha
      obtain ⟨e, he, hn, _⟩ := ha
      exact ⟨e, he, hn⟩
    · intro hm
      obtain ⟨e, he, hn⟩ := hm
      exact ⟨e, he, hn, h e he⟩
  rw [Applied, hadds]
  exact or_congr_left (and_iff_left hremoves)

end Reasons

/-- The rows are in order: those that a list is made of, and the reasons they bear. -/
structure RevocationsOk (st : Store) : Prop where
  rows : RowsOk st
  reasons : ∀ c ∈ st.certificates, c.revoked = true → c.revokeReason ≠ some "removeFromCRL"

/-- Every revoked row of the authority is on the list or was revoked after its timestamp. -/
def Covers (st : Store) (m : CrlMetadata) : Prop :=
  ∀ ca ∈ st.cas, ca.id = m.caId → ∀ c ∈ CRLService.revokedRows st ca,
    (∃ n ∈ m.crl.serials, CRLService.listedSerial c = some n) ∨ ∃ t ∈ c.revokedAt, m.thisUpdate < t

def Completes (d : Draft) (seen : Store) : Prop :=
  ∀ base ∈ d.base,
    (∀ n, n ∈ base.crl.serials ∨ n ∈ (d.rows seen).filterMap CRLService.listedSerial ↔
      RevokedSerial seen d.ca n) ∧
    ∀ c ∈ d.rows seen, CRLService.listedReason c ≠ some .removeFromCrl

def StageComplete (st : Store) : Stage → Prop
  | .idle | .due _ => True
  | .prepared d => d.ca ∈ st.cas ∧ d.ca.id = d.job.caId
  | .queried d seen => (d.ca ∈ st.cas ∧ d.ca.id = d.job.caId) ∧ Completes d seen
  | .numbered d seen _ _ => (d.ca ∈ st.cas ∧ d.ca.id = d.job.caId) ∧ Completes d seen
  | .signed d seen _ row => (d.ca ∈ st.cas ∧ d.ca.id = d.job.caId) ∧ Completes d seen ∧
      ∃ now, row.crl.entries = (d.rows seen).filterMap (CRLService.entryOf now)

structure Kept (s : Site) : Prop where
  revocations : RevocationsOk s.store
  stages : StagesOk s
  numbered : Numbered s.store
  covered : ∀ m ∈ s.store.crls, m.isDelta = false → Covers s.store m
  complete : ∀ i, StageComplete s.store (s.stages i)

section Rows

variable {st : Store} {ca : CA} {c : Certificate}

theorem mem_revokedNumbers {n : ℤ} :
    n ∈ revokedNumbers st ca ↔ ∃ c ∈ st.certificates, c.caref = some ca.refid ∧
      c.revoked = true ∧ CRLService.listedSerial c = some n := by
  simp only [revokedNumbers, List.mem_filterMap, CRLService.mem_revokedRows]
  constructor
  · rintro ⟨c, ⟨hc, hlink, hrevoked⟩, hn⟩
    exact ⟨c, hc, hlink, hrevoked, hn⟩
  · rintro ⟨c, hc, hlink, hrevoked, hn⟩
    exact ⟨c, ⟨hc, hlink, hrevoked⟩, hn⟩

theorem mem_revokedNumbers_iff (h : RowsOk st) (hca : ca ∈ st.cas) (n : ℤ) :
    n ∈ revokedNumbers st ca ↔ RevokedSerial st ca n :=
  mem_revokedNumbers.trans (listed_iff_revokedSerial h hca n)

/-- With a base that covers the rows and on which nothing has been released, the rows revoked
since give all revoked certificates. -/
theorem completes_of_covers {d : Draft} (hrows : RevocationsOk st) (hca : d.ca ∈ st.cas)
    (hcovered : ∀ base ∈ d.base, base.caId = d.ca.id ∧ Covers st base)
    (hunreleased : (Stage.prepared d).Unreleased st) : Completes d st := by
  intro base hbase
  obtain ⟨hid, hcovers⟩ := hcovered base hbase
  have hrowsEq : d.rows st = CRLService.revokedSince st d.ca base := by
    rw [Draft.rows, Option.mem_def.mp hbase]
  have hmem : ∀ c, c ∈ d.rows st ↔ c ∈ CRLService.revokedRows st d.ca ∧
      ∃ t ∈ c.revokedAt, base.thisUpdate < t := by
    intro c
    rw [hrowsEq, CRLService.revokedSince, List.mem_filter, Option.any_eq_true]
    simp
  constructor
  · intro n
    rw [← mem_revokedNumbers_iff hrows.rows hca]
    constructor
    · rintro (hn | hn)
      · exact hunreleased base hbase n hn
      · obtain ⟨c, hc, hserial⟩ := List.mem_filterMap.mp hn
        exact List.mem_filterMap.mpr ⟨c, ((hmem c).mp hc).1, hserial⟩
    · intro hn
      obtain ⟨c, hc, hserial⟩ := List.mem_filterMap.mp hn
      rcases hcovers d.ca hca hid.symm c hc with ⟨n', hn', hserial'⟩ | hlater
      · have hsame : n = n' := Option.some.inj (hserial.symm.trans hserial')
        exact .inl (hsame ▸ hn')
      · exact .inr (List.mem_filterMap.mpr ⟨c, (hmem c).mpr ⟨hc, hlater⟩, hserial⟩)
  · intro c hc hremoves
    obtain ⟨hstored, _, hrevoked⟩ := CRLService.mem_revokedRows.mp ((hmem c).mp hc).1
    exact hrows.reasons c hstored hrevoked (revokeReason_of_removes hremoves)

end Rows

section Steps

variable {s s' : Site} {st st' : Store} {e : Event}

theorem RevocationsOk.setCertificate {certId : ℕ} {f : Certificate → Certificate}
    (h : RevocationsOk st)
    (hf : ∀ c, st.certificates.get? certId = some c → RowOk st.cas (f c) ∧
      ((f c).revoked = true → (f c).revokeReason ≠ some "removeFromCRL")) :
    RevocationsOk (st.setCertificate certId f) := by
  refine ⟨rowsOk_setCertificate h.rows fun c hc => (hf c hc).1, fun c hc => ?_⟩
  rcases Table.mem_update.mp hc with ⟨hc, _⟩ | ⟨c₀, hget, rfl⟩
  · exact h.reasons c hc
  · exact (hf c₀ hget).2

/-- A full list still covers the rows when one is changed that is not revoked, or revoked after
the list's timestamp. -/
theorem Covers.setCertificate {m : CrlMetadata} {certId : ℕ} {f : Certificate → Certificate}
    (h : Covers st m)
    (hf : ∀ c, st.certificates.get? certId = some c → (f c).revoked = true →
      ∀ ca ∈ st.cas, ca.id = m.caId → (f c).caref = some ca.refid →
        ∃ t ∈ (f c).revokedAt, m.thisUpdate < t) :
    Covers (st.setCertificate certId f) m := by
  intro ca hca hid c hc
  obtain ⟨hmem, hlink, hrevoked⟩ := CRLService.mem_revokedRows.mp hc
  rcases Table.mem_update.mp hmem with ⟨hc, _⟩ | ⟨c₀, hget, rfl⟩
  · exact h ca hca hid c (CRLService.mem_revokedRows.mpr ⟨hc, hlink, hrevoked⟩)
  · exact .inr (hf c₀ hget hrevoked ca hca hid hlink)

theorem revocationsOk_revoke {certId : ℕ} {reason : String} {now : Time} (h : RevocationsOk st)
    (hrevocable : Revocable st certId reason now) :
    RevocationsOk (st.setCertificate certId (CertificateService.revokedRow reason now)) := by
  refine h.setCertificate fun c hc => ⟨⟨?_, fun _ => ?_⟩, fun _ heq => ?_⟩
  · exact (h.rows c (Table.mem_of_get? hc)).linked
  · exact (rowListable_iff hc).mp hrevocable.1
  · exact hrevocable.2.1 (Option.some.inj heq)

theorem covers_revoke {m : CrlMetadata} {certId : ℕ} {reason : String} {now : Time}
    (h : Covers st m) (hm : m ∈ st.crls) (hfull : m.isDelta = false)
    (hrevocable : Revocable st certId reason now) :
    Covers (st.setCertificate certId (CertificateService.revokedRow reason now)) m := by
  refine h.setCertificate fun c hc _ ca hca hid hlink => ⟨now, rfl, ?_⟩
  exact hrevocable.2.2 c (Table.mem_of_get? hc) (Table.key_of_get? hc) ca hca hlink m hm hid.symm
    hfull

theorem revocationsOk_unhold (h : RevocationsOk st) (certId : ℕ) :
    RevocationsOk (Routes.unholdCertificate st certId).2 := by
  rcases Routes.unholdCertificate_cases st certId with heq | ⟨row, _, _, _, heq⟩
  · rw [heq]
    exact h
  · rw [heq]
    refine h.setCertificate fun c hc => ⟨⟨?_, fun hr => ?_⟩, fun hr => ?_⟩
    · exact (h.rows c (Table.mem_of_get? hc)).linked
    · cases hr
    · cases hr

theorem covers_unhold {m : CrlMetadata} (h : Covers st m) (certId : ℕ) :
    Covers (Routes.unholdCertificate st certId).2 m := by
  rcases Routes.unholdCertificate_cases st certId with heq | ⟨row, _, _, _, heq⟩
  · rw [heq]
    exact h
  · rw [heq]
    refine h.setCertificate fun c hc hr => ?_
    cases hr

theorem stageComplete_congr (h : st'.cas = st.cas) (stage : Stage) :
    StageComplete st' stage ↔ StageComplete st stage := by
  cases stage with
  | idle | due => exact Iff.rfl
  | prepared | queried | numbered | signed =>
    simp only [StageComplete, h]

theorem revocationsOk_step (hstep : Step s e s') (h : Kept s) (hp : Punctual s e) :
    RevocationsOk s'.store := by
  cases hstep with
  | @revoke i certId reason username now hi =>
    rcases revoke_cases s i certId reason username now with heq | ⟨_, _, _, heq | ⟨_, heq⟩⟩
    · rw [heq]
      exact h.revocations
    · rw [heq]
      exact revocationsOk_revoke h.revocations hp
    · rw [heq]
      exact revocationsOk_revoke h.revocations hp
  | unhold => exact revocationsOk_unhold h.revocations _
  | committed => exact ⟨h.revocations.rows, h.revocations.reasons⟩
  | stay | call | prepared | queried | numbered | signed | raised => exact h.revocations

theorem covers_of_timely {d : Draft} {seen : Store} {known : List CrlMetadata} {row : CrlMetadata}
    (hca : d.ca ∈ st.cas) (hid : d.ca.id = d.job.caId) (hrow : row.caId = d.job.caId)
    (hbase : d.base = none) (htimely : (Stage.signed d seen known row).Timely st) :
    Covers st row := by
  intro ca hmem hcaId c hc
  have hsame : ca = d.ca := Table.eq_of_key_eq hmem hca (hcaId.trans (hrow.trans hid.symm))
  subst hsame
  exact htimely hbase c hc

theorem covered_step (hstep : Step s e s') (h : Kept s) (hp : Punctual s e) :
    ∀ m ∈ s'.store.crls, m.isDelta = false → Covers s'.store m := by
  cases hstep with
  | @revoke i certId reason username now hi =>
    have hmarked : ∀ m ∈ s.store.crls, m.isDelta = false →
        Covers (s.store.setCertificate certId (CertificateService.revokedRow reason now)) m :=
      fun m hm hfull => covers_revoke (h.covered m hm hfull) hm hfull hp
    rcases revoke_cases s i certId reason username now with heq | ⟨_, _, _, heq | ⟨_, heq⟩⟩
    · rw [heq]
      exact h.covered
    · rw [heq]
      exact hmarked
    · rw [heq]
      exact hmarked
  | unhold =>
    intro m hm hfull
    dsimp only at hm
    rw [crls_unhold] at hm
    exact covers_unhold (h.covered m hm hfull) _
  | @committed i d seen known row hi =>
    intro m hm hfull
    rcases Table.mem_insert.mp hm with hm | rfl
    · exact h.covered m hm hfull
    · have hstage := h.stages i
      have hcomplete := h.complete i
      have htimely := hp.2
      rw [hi] at hstage hcomplete htimely
      obtain ⟨⟨hca, hid⟩, _⟩ := hcomplete
      have hbase : d.base = none := by
        have hdelta := hstage.2.isDelta
        change row.isDelta = false at hfull
        rw [hfull] at hdelta
        exact Option.isNone_iff_eq_none.mp (by simpa using hdelta.symm)
      have hcovers : Covers s.store row :=
        covers_of_timely hca hid hstage.2.caId hbase htimely
      exact hcovers
  | stay | call | prepared | queried | numbered | signed | raised => exact h.covered

theorem stageComplete_prepare {job : Job} {d : Draft} (h : prepare st job = .ok d) :
    d.ca ∈ st.cas ∧ d.ca.id = d.job.caId := by
  simp only [prepare, bind_eq_ok, orThrow_eq_ok, pure_eq_ok] at h
  obtain ⟨ca, hca, _, _, _, _, _, _, rfl⟩ := h
  exact ⟨Table.mem_of_get? hca, Table.key_of_get? hca⟩

theorem entries_of_sign {d : Draft} {rows : List Certificate} {number : ℕ} {now : Time}
    {row : CrlMetadata} (h : d.sign rows number now = .ok row) :
    row.crl.entries = rows.filterMap (CRLService.entryOf now) := by
  simp only [Draft.sign, bind_eq_ok, pure_eq_ok] at h
  obtain ⟨entries, hentries, rfl⟩ := h
  exact CRLService.revokedEntries_eq hentries

theorem complete_enter {i : ℕ} {stage : Stage} (h : ∀ i, StageComplete s.store (s.stages i))
    (hstage : StageComplete s.store stage) :
    ∀ j, StageComplete (s.enter i stage).store ((s.enter i stage).stages j) :=
  forall_stages_enter hstage h

theorem complete_step (hstep : Step s e s') (h : Kept s) (hp : Punctual s e) :
    ∀ i, StageComplete s'.store (s'.stages i) := by
  cases hstep with
  | stay => exact h.complete
  | call => exact complete_enter h.complete trivial
  | @revoke i certId reason username now hi =>
    have hmarked : ∀ j, StageComplete
        (s.store.setCertificate certId (CertificateService.revokedRow reason now))
        (s.stages j) := fun j => (stageComplete_congr (by rfl) _).mpr (h.complete j)
    rcases revoke_cases s i certId reason username now with heq | ⟨_, _, _, heq | ⟨_, heq⟩⟩
    · rw [heq]
      exact h.complete
    · rw [heq]
      exact hmarked
    · rw [heq]
      exact complete_enter hmarked trivial
  | @unhold certId =>
    have hcas : (Routes.unholdCertificate s.store certId).2.cas = s.store.cas := by
      rcases Routes.unholdCertificate_cases s.store certId with heq | ⟨row, _, _, _, heq⟩
      · rw [heq]
      · rw [heq]
        rfl
    exact fun j => (stageComplete_congr hcas _).mpr (h.complete j)
  | prepared hi hd => exact complete_enter h.complete (stageComplete_prepare hd)
  | @queried i d hi =>
    have hcomplete := h.complete i
    have hreads := h.stages i
    have hunreleased : (s.stages i).Unreleased s.store := hp
    rw [hi] at hcomplete hreads hunreleased
    refine complete_enter h.complete ⟨hcomplete, ?_⟩
    refine completes_of_covers h.revocations hcomplete.1 (fun base hbase => ?_) hunreleased
    obtain ⟨hmem, hid, hfull⟩ := hreads.base base hbase
    exact ⟨hid.trans hcomplete.2.symm, h.covered base hmem hfull⟩
  | @numbered i d seen hi =>
    have hcomplete := h.complete i
    rw [hi] at hcomplete
    exact complete_enter h.complete hcomplete
  | @signed i d seen known number now row hi hrow =>
    have hcomplete := h.complete i
    rw [hi] at hcomplete
    exact complete_enter h.complete ⟨hcomplete.1, hcomplete.2, now, entries_of_sign hrow⟩
  | committed => exact complete_enter (s := { s with store := addList s.store _ }) h.complete trivial
  | raised => exact complete_enter h.complete trivial

theorem kept_step (hstep : Step s e s') (h : Kept s) (hp : Punctual s e) : Kept s' :=
  ⟨revocationsOk_step hstep h hp, stagesOk_step hstep h.stages (fresh_of_punctual hp),
    (numbered_step_iff hstep h.stages h.numbered).mpr (fresh_of_punctual hp),
    covered_step hstep h hp, complete_step hstep h hp⟩

theorem Numbered.eq_of_number_eq (h : Numbered st) {m m' : CrlMetadata} (hm : m ∈ st.crls)
    (hm' : m' ∈ st.crls) (hca : m.caId = m'.caId) (hnumber : m.crlNumber = m'.crlNumber) :
    m = m' := by
  have hnodup : ((listsOf st m'.caId).map CrlMetadata.crlNumber).Nodup :=
    (h.increasing m'.caId).imp fun hlt => Nat.ne_of_lt hlt
  have hmem : ∀ m₀ ∈ st.crls, m₀.caId = m'.caId → m₀ ∈ listsOf st m'.caId := fun m₀ h₀ hca₀ =>
    Table.mem_select.mpr ⟨h₀, decide_eq_true hca₀⟩
  exact List.inj_on_of_nodup_map hnodup (hmem m hm hca) (hmem m' hm' rfl) hnumber

theorem complete_of_kept (h : Kept s) : Complete s e := by
  cases e with
  | commit i =>
    intro d seen known row hi hdelta base hbase hca hfull hnumber n
    have hcomplete := h.complete i
    have hstage := h.stages i
    rw [hi] at hcomplete hstage
    obtain ⟨_, hcompletes, now, hentries⟩ := hcomplete
    obtain ⟨⟨hreads, _⟩, hrow⟩ := hstage
    rw [hrow.isDelta, Option.isSome_iff_exists] at hdelta
    obtain ⟨b, hb⟩ := hdelta
    obtain ⟨hmem, hbca, _⟩ := hreads.base b hb
    rw [hrow.base, hb, Option.map_some, Option.some.injEq] at hnumber
    have hsame : base = b := h.numbered.eq_of_number_eq hbase hmem
      (hca.trans (hrow.caId.trans hbca.symm)) hnumber.symm
    subst hsame
    obtain ⟨hset, hkept⟩ := hcompletes base hb
    have hserials : row.crl.serials = (d.rows seen).filterMap CRLService.listedSerial := by
      rw [Crl.serials, hentries, List.map_filterMap]
      refine List.filterMap_congr fun c _ => ?_
      cases hc : CRLService.listedSerial c with
      | none => simp [CRLService.entryOf, hc]
      | some serial => simp [CRLService.entryOf, hc]
    have hreasons : ∀ e ∈ row.crl.entries, e.reason ≠ some .removeFromCrl := by
      intro e he
      rw [hentries] at he
      obtain ⟨c, hc, hentry⟩ := List.mem_filterMap.mp he
      rw [CRLService.entryOf, Option.map_eq_some_iff] at hentry
      obtain ⟨_, _, rfl⟩ := hentry
      exact hkept c hc
    rw [applied_iff hreasons, hserials]
    exact hset n
  | call | revoke | unhold | prepare | query | number | sign => trivial

end Steps

/-- In every punctual run from a quiet state without lists, whose rows are in order, each delta
list that is committed completes its base to the certificates of the authority that were
revoked when the delta was generated. -/
theorem complete_run {s : Site} (hquiet : Quiet s) (hlists : s.store.crls = ∅)
    (hrows : RevocationsOk s.store) {es : List Event} (hes : Meets step Punctual s es) :
    Meets step Complete s es := by
  have hnone : ∀ m : CrlMetadata, m ∉ s.store.crls := fun m => hlists ▸ Table.not_mem_empty m
  have hnumbered : Numbered s.store := by
    refine ⟨fun caId => ?_, fun m hm => absurd hm (hnone m)⟩
    have hempty : listsOf s.store caId = [] := by
      unfold listsOf
      rw [hlists]
      rfl
    rw [hempty]
    exact List.Pairwise.nil
  have hkept : Kept s :=
    ⟨hrows, stagesOk_of_quiet hquiet, hnumbered, fun m hm => absurd hm (hnone m),
      fun i => by rw [hquiet i]; trivial⟩
  exact Meets.imp_of_invariant (fun s e h hp => kept_step (step_step s e) h hp)
    (fun s e h _ => complete_of_kept h) hkept hes

section Sample

def issuedSite : Site :=
  let _ := sampleLibrary
  { sampleSite with store := run Store.apply sampleSite.store [createdThroughRoute] }

def punctualEvents : List Event :=
  uninterrupted 0 fullJob 200 ++ [.revoke 0 1 "keyCompromise" "admin" 300] ++
    uninterrupted 1 deltaJob 400

theorem revocationsOk_issuedSite : RevocationsOk issuedSite.store := by
  let _ := sampleLibrary
  have hrows : RowsOk issuedSite.store :=
    rowsOk_commitRules.run (C := RevokesListable) (fun c hc => absurd hc (Table.not_mem_empty c))
      (by decide +kernel)
  refine ⟨hrows, ?_⟩
  have hall : ∀ c ∈ issuedSite.store.certificates.rows, c.revoked = true →
      c.revokeReason ≠ some "removeFromCRL" := by decide +kernel
  exact hall

theorem complete_run_punctual : Meets step Complete issuedSite punctualEvents :=
  complete_run (fun _ => rfl) (by decide +kernel) revocationsOk_issuedSite (by decide +kernel)

/-- A signed delta list leaves out a revoked number, and so does a base that it refers to. -/
def Stage.Misses (st : Store) (n : ℤ) : Stage → Prop
  | .signed d seen _ row => row.isDelta = true ∧ RevokedSerial seen d.ca n ∧ n ∉ row.crl.serials ∧
      ∃ base ∈ st.crls.rows, base.caId = row.caId ∧ base.isDelta = false ∧
        row.baseCrlNumber = some base.crlNumber ∧ n ∉ base.crl.serials
  | _ => False

instance (st : Store) (n : ℤ) : ∀ stage : Stage, Decidable (stage.Misses st n)
  | .signed d seen _ row => inferInstanceAs (Decidable (_ ∧ RevokedSerial seen d.ca n ∧ _ ∧
      ∃ base ∈ st.crls.rows, base.caId = row.caId ∧ _))
  | .idle | .due _ | .prepared _ | .queried .. | .numbered .. => .isFalse id

theorem not_complete_of_misses {s : Site} {es : List Event} {i : ℕ} {n : ℤ}
    (h : ((run step s es).stages i).Misses (run step s es).store n) :
    ¬Meets step Complete s (es ++ [.commit i]) := by
  rw [meets_append, meets_cons]
  rintro ⟨_, hcomplete, _⟩
  cases hi : (run step s es).stages i with
  | signed d seen known row =>
    rw [hi] at h
    obtain ⟨hdelta, hrevoked, hnew, base, hbase, hca, hfull, hnumber, hold⟩ := h
    rcases (hcomplete d seen known row hi hdelta base hbase hca hfull hnumber n).mpr hrevoked with
      ⟨hn, _⟩ | ⟨e, he, hn, _⟩
    · exact hold hn
    · exact hnew (List.mem_map.mpr ⟨e, he, hn⟩)
  | idle | due | prepared | queried | numbered =>
    rw [hi] at h
    exact h

/-- The row is revoked after the query of the base and before its timestamp: the base was made
without it, and the delta takes only later times. -/
def revokedInBetween : List Event :=
  [.call 0 fullJob, .prepare 0, .query 0, .revoke 1 1 "keyCompromise" "admin" 200, .number 0,
   .sign 0 201, .commit 0, .call 2 deltaJob, .prepare 2, .query 2, .number 2, .sign 2 300]

/-- Base and delta together do not name the number 255, which was revoked before either was
signed. -/
theorem revoked_in_between_missed :
    ¬Meets step Complete issuedSite (revokedInBetween ++ [.commit 2]) := by
  refine not_complete_of_misses (n := 255) ?_
  decide +kernel

end Sample

end Generations

end CaManager
