import CaManager.Store.Generations
import CaManager.Store.Operations

/-!
# Numbers of revocation lists

Full and delta lists of an authority share one sequence of numbers. A generation reads the
last one and commits later, and no constraint keeps two rows from bearing the same number. The
sequence grows exactly as long as no list of the authority is committed between the reading
and the commit.
-/

namespace CaManager

open Library

namespace Generations

/-- The numbers of the lists of an authority grow in the order of their commits, and a delta
list continues a full list that is stored. -/
structure Numbered (st : Store) : Prop where
  increasing : ∀ caId, ((listsOf st caId).map CrlMetadata.crlNumber).Pairwise (· < ·)
  based : ∀ m ∈ st.crls, m.isDelta = true →
    ∃ b ∈ st.crls, b.caId = m.caId ∧ b.isDelta = false ∧ m.baseCrlNumber = some b.crlNumber

/-- The lists of the authority are those that were there when the last number was read. -/
def Stage.Current (st : Store) : Stage → Prop
  | .signed d _ known _ => listsOf st d.job.caId = known
  | _ => True

instance (st : Store) : ∀ stage : Stage, Decidable (stage.Current st)
  | .signed d _ known _ => inferInstanceAs (Decidable (listsOf st d.job.caId = known))
  | .idle | .due _ | .prepared _ | .queried .. | .numbered .. => .isTrue trivial

/-- No list of the authority has been committed since the generation read the last number. -/
def Fresh (s : Site) : Event → Prop
  | .commit i => (s.stages i).Current s.store
  | _ => True

instance (s : Site) : ∀ e, Decidable (Fresh s e)
  | .commit i => inferInstanceAs (Decidable ((s.stages i).Current s.store))
  | .call .. | .revoke .. | .unhold _ | .prepare _ | .query _ | .number _ | .sign .. =>
    .isTrue trivial

section Numbers

variable {ms extra : List CrlMetadata} {m : CrlMetadata} {k : ℕ}

def nextAfter (ms : List CrlMetadata) : ℕ :=
  match ms.map CrlMetadata.crlNumber with
  | [] => 1
  | n :: ns => ns.foldl max n + 1

theorem nextCrlNumber_eq (st : Store) (caId : ℕ) :
    CRLService.nextCrlNumber st caId = nextAfter (listsOf st caId) := rfl

theorem foldl_max_le {n : ℕ} {ns : List ℕ} : ns.foldl max n ≤ k ↔ n ≤ k ∧ ∀ a ∈ ns, a ≤ k := by
  induction ns generalizing n with
  | nil => simp
  | cons a ns ih => simp [ih, and_assoc]

theorem nextAfter_le_iff : nextAfter ms ≤ k ↔ 1 ≤ k ∧ ∀ m ∈ ms, m.crlNumber < k := by
  cases ms with
  | nil => simp [nextAfter]
  | cons m ms =>
    have hfold : nextAfter (m :: ms) =
        (ms.map CrlMetadata.crlNumber).foldl max m.crlNumber + 1 := rfl
    cases k with
    | zero => simp [hfold]
    | succ k =>
      rw [hfold, Nat.succ_le_succ_iff, foldl_max_le]
      simp only [List.mem_map, forall_exists_index, and_imp, forall_apply_eq_imp_iff₂,
        List.forall_mem_cons, Nat.lt_succ_iff, Nat.le_add_left, true_and]

theorem lt_nextAfter (h : m ∈ ms) : m.crlNumber < nextAfter ms :=
  (nextAfter_le_iff.mp le_rfl).2 m h

theorem nextAfter_le_append : nextAfter ms ≤ nextAfter (ms ++ extra) := by
  have hle := nextAfter_le_iff.mp (le_refl (nextAfter (ms ++ extra)))
  exact nextAfter_le_iff.mpr ⟨hle.1, fun m hm => hle.2 m (List.mem_append_left _ hm)⟩

end Numbers

section Lists

variable {st : Store} {row : CrlMetadata} {caId : ℕ}

def addList (st : Store) (row : CrlMetadata) : Store :=
  { st with crls := st.crls.insert row }

theorem listsOf_addList (st : Store) (row : CrlMetadata) (caId : ℕ) :
    listsOf (addList st row) caId =
      listsOf st caId ++ if row.caId = caId then [{ row with id := st.crls.nextKey }] else [] := by
  unfold listsOf addList
  rw [Table.select_insert]
  simp only [decide_eq_true_eq]
  rfl

theorem increasing_addList_iff
    (h : ∀ caId, ((listsOf st caId).map CrlMetadata.crlNumber).Pairwise (· < ·)) :
    (∀ caId, ((listsOf (addList st row) caId).map CrlMetadata.crlNumber).Pairwise (· < ·)) ↔
      ∀ m ∈ listsOf st row.caId, m.crlNumber < row.crlNumber := by
  constructor
  · intro hnew m hm
    have hpair := hnew row.caId
    rw [listsOf_addList, if_pos rfl, List.map_append, List.pairwise_append] at hpair
    exact hpair.2.2 _ (List.mem_map_of_mem hm) row.crlNumber (by simp)
  · intro hlt caId
    rw [listsOf_addList]
    split_ifs with hca
    · subst hca
      rw [List.map_append, List.pairwise_append]
      refine ⟨h row.caId, by simp, fun n hn n' hn' => ?_⟩
      obtain ⟨m, hm, rfl⟩ := List.mem_map.mp hn
      rw [List.map_singleton, List.mem_singleton] at hn'
      rw [hn']
      exact hlt m hm
    · rw [List.append_nil]
      exact h caId

end Lists

/-- What a generation under way has read is still stored: its base, and the lists it knows,
after which only lists with later numbers have come. -/
structure Reads (st : Store) (d : Draft) : Prop where
  base : ∀ b ∈ d.base, b ∈ st.crls ∧ b.caId = d.job.caId ∧ b.isDelta = false

structure Knows (st : Store) (d : Draft) (known : List CrlMetadata) : Prop where
  reads : Reads st d
  later : ∃ extra, listsOf st d.job.caId = known ++ extra ∧
    ∀ m ∈ extra, nextAfter known ≤ m.crlNumber

structure Signed (d : Draft) (number : ℕ) (row : CrlMetadata) : Prop where
  caId : row.caId = d.job.caId
  number : row.crlNumber = number
  isDelta : row.isDelta = d.base.isSome
  base : row.baseCrlNumber = d.base.map CrlMetadata.crlNumber

def StageOk (st : Store) : Stage → Prop
  | .idle | .due _ => True
  | .prepared d | .queried d _ => Reads st d
  | .numbered d _ known number => Knows st d known ∧ number = nextAfter known
  | .signed d _ known row => Knows st d known ∧ Signed d (nextAfter known) row

def StagesOk (s : Site) : Prop := ∀ i, StageOk s.store (s.stages i)

section Stages

variable {s : Site} {st st' : Store} {i : ℕ} {d : Draft} {known : List CrlMetadata}

theorem signed_of_sign {rows : List Certificate} {number : ℕ} {now : Time} {row : CrlMetadata}
    (h : d.sign rows number now = .ok row) : Signed d number row := by
  simp only [Draft.sign, bind_eq_ok, pure_eq_ok] at h
  obtain ⟨_, _, rfl⟩ := h
  exact ⟨rfl, rfl, rfl, rfl⟩

theorem mem_of_latestBase {caId : ℕ} {b : CrlMetadata} (h : CRLService.latestBase st caId = some b) :
    b ∈ st.crls ∧ b.caId = caId ∧ b.isDelta = false := by
  have hmem := mem_of_foldl (fun _ => rfl) (fun _ _ => ite_eq_or_eq _ _ _) h
  simpa using Table.mem_select.mp hmem

theorem reads_of_prepare {job : Job} (h : prepare st job = .ok d) : Reads st d := by
  simp only [prepare, bind_eq_ok, orThrow_eq_ok, pure_eq_ok] at h
  obtain ⟨ca, hca, base, hbase, _, _, _, _, rfl⟩ := h
  have hid : ca.id = job.caId := Table.key_of_get? hca
  refine ⟨fun b hb => ?_⟩
  dsimp only at hb
  cases hkind : job.kind with
  | full v =>
    simp only [checkJob, hkind, bind_eq_ok, pure_eq_ok] at hbase
    obtain ⟨_, _, rfl⟩ := hbase
    cases hb
  | delta v =>
    simp only [checkJob, hkind, loadBase, map_eq_ok, bind_eq_ok, ensure_eq_ok, orThrow_eq_ok]
      at hbase
    obtain ⟨b', ⟨_, _, _, _, _, _, _, _, hlatest⟩, rfl⟩ := hbase
    cases hb
    exact hid ▸ mem_of_latestBase hlatest

theorem Reads.mono (h : Reads st d) (hsub : ∀ m ∈ st.crls, m ∈ st'.crls) : Reads st' d :=
  ⟨fun b hb => ⟨hsub b (h.base b hb).1, (h.base b hb).2⟩⟩

theorem stageOk_congr (h : st'.crls = st.crls) (stage : Stage) :
    StageOk st' stage ↔ StageOk st stage := by
  have hreads : ∀ d, Reads st' d ↔ Reads st d := fun d =>
    ⟨fun hd => ⟨h ▸ hd.base⟩, fun hd => ⟨h ▸ hd.base⟩⟩
  have hlists : ∀ caId, listsOf st' caId = listsOf st caId := fun caId => by
    unfold listsOf
    rw [h]
  have hknows : ∀ d known, Knows st' d known ↔ Knows st d known := fun d known =>
    ⟨fun hk => ⟨(hreads d).mp hk.reads, hlists _ ▸ hk.later⟩,
      fun hk => ⟨(hreads d).mpr hk.reads, hlists _ ▸ hk.later⟩⟩
  cases stage with
  | idle | due => exact Iff.rfl
  | prepared d | queried d seen => exact hreads d
  | numbered d seen known number => exact and_congr_left' (hknows d known)
  | signed d seen known row => exact and_congr_left' (hknows d known)

theorem stageOk_addList {row : CrlMetadata} {stage : Stage}
    (hrow : row.crlNumber = nextAfter (listsOf st row.caId)) (h : StageOk st stage) :
    StageOk (addList st row) stage := by
  have hmem : ∀ m ∈ st.crls, m ∈ (addList st row).crls := fun m hm => Table.mem_insert.mpr (.inl hm)
  have hknows : ∀ {d known}, Knows st d known → Knows (addList st row) d known := by
    intro d known hk
    obtain ⟨extra, hlists, hlater⟩ := hk.later
    refine ⟨hk.reads.mono hmem, ?_⟩
    rw [listsOf_addList]
    split_ifs with hca
    · refine ⟨extra ++ [{ row with id := st.crls.nextKey }], by rw [hlists, List.append_assoc], ?_⟩
      intro m hm
      rcases List.mem_append.mp hm with hm | hm
      · exact hlater m hm
      · rw [List.mem_singleton.mp hm]
        change _ ≤ row.crlNumber
        rw [hrow, hca, hlists]
        exact nextAfter_le_append
    · exact ⟨extra, by rw [hlists, List.append_nil], hlater⟩
  cases stage with
  | idle | due => trivial
  | prepared d | queried d seen => exact Reads.mono h hmem
  | numbered d seen known number => exact ⟨hknows h.1, h.2⟩
  | signed d seen known row => exact ⟨hknows h.1, h.2⟩

theorem crls_revoke (s : Site) (i certId : ℕ) (reason username : String) (now : Time) :
    (revoke s i certId reason username now).store.crls = s.store.crls := by
  rcases revoke_cases s i certId reason username now with h | ⟨_, _, _, h | ⟨_, h⟩⟩
  · rw [h]
  · rw [h]
    rfl
  · rw [h]
    rfl

theorem crls_unhold (st : Store) (certId : ℕ) :
    (Routes.unholdCertificate st certId).2.crls = st.crls := by
  rcases Routes.unholdCertificate_cases st certId with h | ⟨row, _, _, _, h⟩
  · rw [h]
  · rw [h]
    rfl

end Stages

section Steps

variable {s : Site}

theorem crls_of_step {s' : Site} {e : Event} (hstep : Step s e s') (h : ∀ i, e ≠ .commit i) :
    s'.store.crls = s.store.crls := by
  cases hstep with
  | revoke => exact crls_revoke s _ _ _ _ _
  | unhold => exact crls_unhold s.store _
  | @committed i => exact absurd rfl (h i)
  | stay | call | prepared | queried | numbered | signed | raised => rfl

theorem numbered_congr {st st' : Store} (h : st'.crls = st.crls) : Numbered st' ↔ Numbered st := by
  have hlists : ∀ caId, listsOf st' caId = listsOf st caId := fun caId => by
    unfold listsOf
    rw [h]
  constructor
  · exact fun hn => ⟨fun caId => hlists caId ▸ hn.increasing caId, h ▸ hn.based⟩
  · exact fun hn => ⟨fun caId => hlists caId ▸ hn.increasing caId, h ▸ hn.based⟩

theorem stagesOk_enter {i : ℕ} {stage : Stage} (h : StagesOk s) (hstage : StageOk s.store stage) :
    StagesOk (s.enter i stage) :=
  forall_stages_enter hstage h

theorem stagesOk_revoke {i certId : ℕ} {reason username : String} {now : Time} (h : StagesOk s) :
    StagesOk (revoke s i certId reason username now) := by
  have hmarked : StagesOk (s.mark certId reason now) :=
    fun j => (stageOk_congr (by rfl) _).mpr (h j)
  rcases revoke_cases s i certId reason username now with heq | ⟨_, _, _, heq | ⟨_, heq⟩⟩
  · rw [heq]
    exact h
  · rw [heq]
    exact hmarked
  · rw [heq]
    exact stagesOk_enter hmarked trivial

theorem number_of_current {d : Draft} {known : List CrlMetadata} {row : CrlMetadata}
    (hrow : Signed d (nextAfter known) row) (hcurrent : listsOf s.store d.job.caId = known) :
    row.crlNumber = nextAfter (listsOf s.store row.caId) := by
  rw [hrow.number, hrow.caId, hcurrent]

theorem stagesOk_step {s' : Site} {e : Event} (hstep : Step s e s') (h : StagesOk s)
    (hfresh : Fresh s e) : StagesOk s' := by
  cases hstep with
  | stay => exact h
  | call => exact stagesOk_enter h trivial
  | revoke => exact stagesOk_revoke h
  | unhold => exact fun j => (stageOk_congr (crls_unhold s.store _) _).mpr (h j)
  | prepared hi hd => exact stagesOk_enter h (reads_of_prepare hd)
  | @queried i d hi =>
    have hreads := h i
    rw [hi] at hreads
    exact stagesOk_enter h hreads
  | @numbered i d seen hi =>
    have hreads := h i
    rw [hi] at hreads
    have hknows : Knows s.store d (listsOf s.store d.job.caId) :=
      ⟨hreads, [], (List.append_nil _).symm, by simp⟩
    exact stagesOk_enter h ⟨hknows, rfl⟩
  | @signed i d seen known number now row hi hrow =>
    have hstage := h i
    rw [hi] at hstage
    exact stagesOk_enter h ⟨hstage.1, hstage.2 ▸ signed_of_sign hrow⟩
  | @committed i d seen known row hi =>
    have hstage := h i
    rw [hi] at hstage
    change (s.stages i).Current s.store at hfresh
    rw [hi] at hfresh
    have hnumber := number_of_current hstage.2 hfresh
    exact forall_stages_enter (s := { s with store := addList s.store row }) trivial
      fun j => stageOk_addList hnumber (h j)
  | raised => exact stagesOk_enter h trivial

theorem numbered_addList_iff {d : Draft} {known : List CrlMetadata} {row : CrlMetadata}
    (hknows : Knows s.store d known) (hrow : Signed d (nextAfter known) row)
    (hnumbered : Numbered s.store) :
    Numbered (addList s.store row) ↔ listsOf s.store d.job.caId = known := by
  obtain ⟨hreads, extra, hlists, hlater⟩ := hknows
  constructor
  · intro hafter
    have hlt := (increasing_addList_iff hnumbered.increasing).mp hafter.increasing
    rw [hrow.caId, hlists, hrow.number] at hlt
    cases extra with
    | nil => rw [hlists, List.append_nil]
    | cons m extra =>
      have hbefore := hlt m (List.mem_append_right _ List.mem_cons_self)
      exact absurd hbefore (not_lt.mpr (hlater m List.mem_cons_self))
  · intro hcurrent
    refine ⟨(increasing_addList_iff hnumbered.increasing).mpr fun m hm => ?_, fun m hm hdelta => ?_⟩
    · rw [number_of_current hrow hcurrent]
      exact lt_nextAfter hm
    · rcases Table.mem_insert.mp hm with hm | rfl
      · obtain ⟨b, hb, hrest⟩ := hnumbered.based m hm hdelta
        exact ⟨b, Table.mem_insert.mpr (.inl hb), hrest⟩
      · change row.isDelta = true at hdelta
        rw [hrow.isDelta, Option.isSome_iff_exists] at hdelta
        obtain ⟨b, hb⟩ := hdelta
        obtain ⟨hmem, hca, hfull⟩ := hreads.base b hb
        refine ⟨b, Table.mem_insert.mpr (.inl hmem), hca.trans hrow.caId.symm, hfull, ?_⟩
        change row.baseCrlNumber = _
        rw [hrow.base, hb, Option.map_some]

theorem current_of_not_signed {stage : Stage} {st : Store}
    (h : ∀ d seen known row, stage ≠ .signed d seen known row) : stage.Current st := by
  cases stage with
  | signed d seen known row => exact absurd rfl (h d seen known row)
  | idle | due | prepared | queried | numbered => trivial

theorem numbered_step_iff {s' : Site} {e : Event} (hstep : Step s e s') (h : StagesOk s)
    (hnumbered : Numbered s.store) : Numbered s'.store ↔ Fresh s e := by
  by_cases hcommit : ∃ i, e = .commit i
  · obtain ⟨i, rfl⟩ := hcommit
    change _ ↔ (s.stages i).Current s.store
    cases hstep with
    | stay _ hstay => exact iff_of_true hnumbered (current_of_not_signed (hstay i rfl))
    | committed hi =>
      have hstage := h i
      rw [hi] at hstage ⊢
      exact numbered_addList_iff hstage.1 hstage.2 hnumbered
    | raised j hj => exact absurd rfl (hj i)
  · have hfresh : Fresh s e := by
      cases e with
      | commit i => exact absurd ⟨i, rfl⟩ hcommit
      | call | revoke | unhold | prepare | query | number | sign => trivial
    have hcrls := crls_of_step hstep fun i hi => hcommit ⟨i, hi⟩
    exact iff_of_true ((numbered_congr hcrls).mpr hnumbered) hfresh

end Steps

theorem stagesOk_of_quiet {s : Site} (h : Quiet s) : StagesOk s := by
  intro i
  rw [h i]
  trivial

/-- From a quiet state whose lists are numbered in order, the lists stay so in every state that
a run reaches exactly if each of its commits is fresh. -/
theorem numbered_run_iff {s : Site} (hquiet : Quiet s) (hs : Numbered s.store) (es : List Event) :
    (∀ pre, pre <+: es → Numbered (run step s pre).store) ↔ Meets step Fresh s es :=
  forall_prefix_iff_meets (P := fun s => Numbered s.store)
    (fun s e h hn => numbered_step_iff (step_step s e) h hn)
    (fun s e h _ hfresh => stagesOk_step (step_step s e) h hfresh) es (stagesOk_of_quiet hquiet) hs

section Sample

def publishingCa : CA :=
  { sampleCa with cdpEnabled := true, deltaCrlEnabled := true }

def sampleSite : Site :=
  ⟨{ sampleStore with cas := (∅ : Table CA).insert publishingCa }, fun _ => .idle⟩

def fullJob : Job := ⟨1, .full 7, "scheduler"⟩

def deltaJob : Job := ⟨1, .delta 24, "scheduler"⟩

theorem numbered_sampleSite : Numbered sampleSite.store :=
  ⟨fun _ => List.Pairwise.nil, fun m hm => absurd hm (Table.not_mem_empty m)⟩

theorem numbered_run_uninterrupted :
    Numbered (run step sampleSite
      (uninterrupted 0 fullJob 100 ++ uninterrupted 1 deltaJob 200)).store :=
  (numbered_run_iff (fun _ => rfl) numbered_sampleSite _).mpr (by decide +kernel) _
    List.prefix_rfl

/-- Two full generations, each of which reads the last number before the other commits. -/
def overlapping : List Event :=
  [.call 0 fullJob, .call 1 fullJob, .prepare 0, .prepare 1, .query 0, .query 1, .number 0,
   .number 1, .sign 0 100, .sign 1 101, .commit 0, .commit 1]

/-- Overlapping generations store two lists of one authority under the number 1. -/
theorem overlapping_numbers_collide :
    (listsOf (run step sampleSite overlapping).store 1).map CrlMetadata.crlNumber = [1, 1] ∧
      ¬Numbered (run step sampleSite overlapping).store := by
  have hnumbers : (listsOf (run step sampleSite overlapping).store 1).map CrlMetadata.crlNumber =
      [1, 1] := by decide +kernel
  refine ⟨hnumbers, fun h => ?_⟩
  have hincreasing := h.increasing 1
  rw [hnumbers] at hincreasing
  simp at hincreasing

end Sample

end Generations

end CaManager
