import CaManager.Store.Signing

/-!
# A request is signed once

Whether a request was signed before is asked long before the commit, and the row has no version
that the commit could compare. Two signatures, or a signature and a deletion, that are made side by
side do not see each other. The conditions below say of each step when it does no harm.
-/

namespace CaManager

open Library

namespace Signing

open CertificateService

def Recorded (st : Store) (e : Issue) : Prop :=
  ∃ row, st.certificates.get? e.certId = some row ∧ row.crt = some (.base64 ⟨e.cert, []⟩)

def Uncommitted (s : State) (e : Issue) : Prop :=
  ∃ w caref certType ca, s.workers[e.worker]? = some w ∧
    w.phase = .signed e.certId caref certType e.cert ca

/-- No row is signed twice, and what was signed is recorded, or its request is not served yet. -/
structure Sound (s : State) : Prop where
  once : ∀ certId, (s.issued.filter fun e => e.certId = certId).length ≤ 1
  recorded : ∀ e ∈ s.issued, Recorded s.store e ∨ Uncommitted s e

theorem Sound.recorded_of_finished {s : State} (h : Sound s)
    (hfinished : ∀ w ∈ s.workers, w.finished) : ∀ e ∈ s.issued, Recorded s.store e := by
  intro e he
  rcases h.recorded e he with hrecorded | ⟨w, caref, certType, ca, hw, hphase⟩
  · exact hrecorded
  · have hdone := hfinished w (List.mem_of_getElem? hw)
    rw [Worker.finished, hphase] at hdone
    cases hdone

def Phase.holds (certId : ℕ) : Phase → Bool
  | .signed certId' _ _ _ _ => certId' = certId
  | _ => false

def Unseen (s : State) (certId : ℕ) : Prop :=
  (∀ row, s.store.certificates.get? certId = some row → row.crt = none) ∨
    ∃ e ∈ s.issued, e.certId = certId

structure KeptWorker (s : State) (i : ℕ) (w : Worker) : Prop where
  read : ∀ certId csrText caref certType validityDays,
    w.phase = .read certId csrText caref certType validityDays → Unseen s certId
  cached : ∀ certId row, w.cached = some (certId, row) → row.crt = none → Unseen s certId
  signed : ∀ certId caref certType x ca, w.phase = .signed certId caref certType x ca →
    ⟨i, certId, x⟩ ∈ s.issued ∧
      ∀ row, s.store.certificates.get? certId = some row → row.crt = none

/-- What the requests have read still holds, unless there is a signature that they do not know
of. -/
def Kept (s : State) : Prop :=
  ∀ i w, s.workers[i]? = some w → KeptWorker s i w

section Steps

variable {s s' : State} {i : ℕ} {w w' : Worker} {certId : ℕ} {e e' : Issue}

theorem pendingRequest_eq_ok {row : Option Certificate} {csrText : Encoded Csr}
    (h : pendingRequest row = .ok csrText) : ∃ r, row = some r ∧ r.crt = none := by
  simp only [pendingRequest, bind_eq_ok, orThrow_eq_ok, ensure_eq_ok, pure_eq_ok] at h
  obtain ⟨r, hr, _, _, _, hcrt, _⟩ := h
  exact ⟨r, hr, hcrt⟩

theorem getElem?_set_cases {j : ℕ} {l : List Worker} (h : (l.set i w)[j]? = some w') :
    (j = i ∧ w' = w) ∨ (j ≠ i ∧ l[j]? = some w') := by
  rw [List.getElem?_set] at h
  split_ifs at h with hij hlt
  · exact .inl ⟨hij.symm, (Option.some.inj h).symm⟩
  · exact .inr ⟨fun hji => hij hji.symm, h⟩

theorem Phase.exists_of_holds {p : Phase} (h : p.holds certId = true) :
    ∃ caref certType x ca, p = .signed certId caref certType x ca := by
  cases p with
  | signed certId' caref certType x ca =>
    obtain rfl : certId' = certId := of_decide_eq_true h
    exact ⟨caref, certType, x, ca, rfl⟩
  | _ => cases h

theorem Sound.eq_of_certId (h : Sound s) (he : e ∈ s.issued) (he' : e' ∈ s.issued)
    (hcert : e.certId = e'.certId) : e = e' := by
  have hmem : ∀ e₁ ∈ s.issued, e₁.certId = e'.certId →
      e₁ ∈ s.issued.filter fun e => e.certId = e'.certId :=
    fun e₁ h₁ heq => List.mem_filter.mpr ⟨h₁, decide_eq_true heq⟩
  have hone := h.once e'.certId
  generalize s.issued.filter (fun e => e.certId = e'.certId) = l at hmem hone
  match l with
  | [] => exact absurd (hmem e he hcert) List.not_mem_nil
  | [e₁] =>
    rw [List.mem_singleton.mp (hmem e he hcert), List.mem_singleton.mp (hmem e' he' rfl)]
  | _ :: _ :: _ => simp at hone

theorem Kept.set (h : Kept s) (hw : KeptWorker s i w) :
    Kept { s with workers := s.workers.set i w } := by
  intro j w' hw'
  rcases getElem?_set_cases hw' with ⟨rfl, rfl⟩ | ⟨-, hold⟩
  · exact ⟨hw.read, hw.cached, hw.signed⟩
  · have hkept := h j w' hold
    exact ⟨hkept.read, hkept.cached, hkept.signed⟩

theorem sound_set (h : Sound s) (hw : s.workers[i]? = some w')
    (hphase : ∀ certId, w'.phase.holds certId = false) :
    Sound { s with workers := s.workers.set i w } where
  once := h.once
  recorded e he := by
    refine (h.recorded e he).imp_right ?_
    rintro ⟨v, caref, certType, ca, hv, hsigned⟩
    have hne : i ≠ e.worker := by
      rintro rfl
      rw [hw] at hv
      have hno := hphase e.certId
      rw [Option.some.inj hv, hsigned] at hno
      exact absurd hno (by simp [Phase.holds])
    refine ⟨v, caref, certType, ca, ?_, hsigned⟩
    rw [List.getElem?_set_ne hne]
    exact hv

theorem KeptWorker.of_idle (hphase : w.phase = .idle)
    (hcached : ∀ certId row, w.cached = some (certId, row) → row.crt = none → Unseen s certId) :
    KeptWorker s i w where
  read _ _ _ _ _ h := nomatch hphase.symm.trans h
  cached := hcached
  signed _ _ _ _ _ h := nomatch hphase.symm.trans h

theorem KeptWorker.next (h : KeptWorker s i w) : KeptWorker s i w.next :=
  .of_idle rfl h.cached

theorem KeptWorker.broken (s : State) (i : ℕ) (w : Worker) : KeptWorker s i w.broken :=
  .of_idle rfl fun _ _ hcached => nomatch hcached

theorem KeptWorker.unseen_of_row (h : KeptWorker s i w) {row : Certificate}
    (hrow : w.row s.store certId = some row) (hcrt : row.crt = none) : Unseen s certId := by
  have hstored : s.store.certificates.get? certId = some row → Unseen s certId := by
    intro hget
    refine .inl fun row' hrow' => ?_
    rw [hget] at hrow'
    exact Option.some.inj hrow' ▸ hcrt
  unfold Worker.row at hrow
  split at hrow
  · rename_i certId' row' hcached
    split_ifs at hrow with hsame
    · subst hsame
      exact h.cached certId' row' hcached (Option.some.inj hrow ▸ hcrt)
    · exact hstored hrow
  · exact hstored hrow

theorem KeptWorker.read_row (h : KeptWorker s i w) (certId : ℕ) :
    KeptWorker s i (w.read s.store certId) := by
  have hunseen : ∀ csrText, pendingRequest (w.row s.store certId) = .ok csrText →
      Unseen s certId := by
    intro csrText hpending
    obtain ⟨row, hrow, hcrt⟩ := pendingRequest_eq_ok hpending
    exact h.unseen_of_row hrow hcrt
  have hread : ∀ (v : Worker) csrText caref certType validityDays,
      v.phase = .read certId csrText caref certType validityDays → Unseen s certId →
      (∀ certId row, v.cached = some (certId, row) → row.crt = none → Unseen s certId) →
      KeptWorker s i v := by
    intro v csrText caref certType validityDays hphase hcertId hcached
    constructor
    · intro certId' csrText' caref' certType' validityDays' hphase'
      cases hphase.symm.trans hphase'
      exact hcertId
    · exact hcached
    · intro certId' caref' certType' x ca hphase'
      cases hphase.symm.trans hphase'
  unfold Worker.read
  split
  · split
    · rename_i csrText ca hpending _
      exact hread _ csrText ca.refid _ _ rfl (hunseen csrText hpending) h.cached
    · exact h.next
  · rename_i caref validityDays _
    have hcached : ∀ certId' row,
        (w.row s.store certId).map (fun row => (certId, row)) = some (certId', row) →
        row.crt = none → Unseen s certId' := by
      intro certId' row hmap hcrt
      obtain ⟨row', hrow, hpair⟩ := Option.map_eq_some_iff.mp hmap
      cases hpair
      exact h.unseen_of_row hrow hcrt
    dsimp only
    split
    · rename_i csrText hpending
      exact hread _ csrText caref _ _ rfl (hunseen csrText hpending) hcached
    · exact .of_idle rfl hcached
  · split
    · exact h.next
    · constructor
      · intro certId' csrText caref certType validityDays hphase
        cases hphase
      · exact h.cached
      · intro certId' caref certType x ca hphase
        cases hphase

theorem Kept.of_store {issued : List Issue} {st : Store} (h : Kept s) (hw : KeptWorker
    { s with store := st, workers := s.workers.set i w, issued } i w)
    (hunseen : ∀ certId, Unseen s certId → Unseen
      { s with store := st, workers := s.workers.set i w, issued } certId)
    (hsigned : ∀ j ≠ i, ∀ certId x, ⟨j, certId, x⟩ ∈ s.issued → ⟨j, certId, x⟩ ∈ issued ∧
      ((∀ row, s.store.certificates.get? certId = some row → row.crt = none) →
        ∀ row, st.certificates.get? certId = some row → row.crt = none)) :
    Kept { s with store := st, workers := s.workers.set i w, issued } := by
  intro j w' hw'
  rcases getElem?_set_cases hw' with ⟨rfl, rfl⟩ | ⟨hne, hold⟩
  · exact hw
  · have hkept := h j w' hold
    refine ⟨fun _ _ _ _ _ hread => hunseen _ (hkept.read _ _ _ _ _ hread),
      fun _ _ hrow hcrt => hunseen _ (hkept.cached _ _ hrow hcrt), ?_⟩
    intro certId caref certType x ca hphase
    obtain ⟨hissued, hnone⟩ := hkept.signed certId caref certType x ca hphase
    obtain ⟨hissued', hnone'⟩ := hsigned j hne certId x hissued
    exact ⟨hissued', hnone' hnone⟩

end Steps

section Signature

variable {s : State} {i : ℕ} {w : Worker} {certId : ℕ} {x : X509} {ca : CA}
  {caref certType : String}

def State.sign (s : State) (i : ℕ) (w : Worker) (certId : ℕ) (caref certType : String) (x : X509)
    (ca : CA) : State :=
  { s with
    workers := s.workers.set i { w with phase := .signed certId caref certType x ca }
    issued := ⟨i, certId, x⟩ :: s.issued }

theorem State.length_issued_sign (certId' : ℕ) :
    ((s.sign i w certId caref certType x ca).issued.filter fun e => e.certId = certId').length =
      (s.issued.filter fun e => e.certId = certId').length + if certId = certId' then 1 else 0 := by
  change ((⟨i, certId, x⟩ :: s.issued : List Issue).filter _).length = _
  rw [List.filter_cons]
  by_cases hsame : certId = certId'
  · simp [hsame]
  · simp [hsame]

theorem Kept.unseen_or_signed (hkept : Kept s) (hw : s.workers[i]? = some w)
    (hholds : w.phase.holds certId = true) : ∃ e ∈ s.issued, e.certId = certId := by
  obtain ⟨caref, certType, x, ca, hphase⟩ := Phase.exists_of_holds hholds
  exact ⟨_, ((hkept i w hw).signed certId caref certType x ca hphase).1, rfl⟩

theorem Sound.sign_iff (hs : Sound s) (hkept : Kept s) (hw : s.workers[i]? = some w)
    (hunseen : Unseen s certId) (hphase : ∀ certId, w.phase.holds certId = false) :
    Sound (s.sign i w certId caref certType x ca) ↔
      (∀ row, s.store.certificates.get? certId = some row → row.crt = none) ∧
        ∀ w' ∈ s.workers, w'.phase.holds certId = false := by
  constructor
  · intro h
    have hnone : ∀ e ∈ s.issued, e.certId ≠ certId := by
      intro e he hcert
      have hone := h.once certId
      have hmem : e ∈ s.issued.filter fun e => e.certId = certId :=
        List.mem_filter.mpr ⟨he, decide_eq_true hcert⟩
      have hpos := List.length_pos_of_mem hmem
      rw [State.length_issued_sign, if_pos rfl] at hone
      omega
    constructor
    · rcases hunseen with hrows | ⟨e, he, hcert⟩
      · exact hrows
      · exact absurd hcert (hnone e he)
    · intro w' hw'
      rw [← Bool.not_eq_true]
      intro hholds
      obtain ⟨j, hj⟩ := List.mem_iff_getElem?.mp hw'
      obtain ⟨e, he, hcert⟩ := hkept.unseen_or_signed hj hholds
      exact hnone e he hcert
  · rintro ⟨hrows, hworkers⟩
    have hnone : ∀ e ∈ s.issued, e.certId ≠ certId := by
      rintro e he rfl
      rcases hs.recorded e he with ⟨row, hget, hcrt⟩ | ⟨v, _, _, _, hv, hsigned⟩
      · cases (hrows row hget).symm.trans hcrt
      · have hno := hworkers v (List.mem_of_getElem? hv)
        rw [hsigned] at hno
        exact absurd hno (by simp [Phase.holds])
    have hset := sound_set (w := { w with phase := .signed certId caref certType x ca }) hs hw hphase
    constructor
    · intro certId'
      rw [State.length_issued_sign]
      split_ifs with hsame
      · subst hsame
        have hempty : s.issued.filter (fun e => e.certId = certId) = [] :=
          List.filter_eq_nil_iff.mpr fun e he hcert => hnone e he (of_decide_eq_true hcert)
        rw [hempty, List.length_nil]
      · exact hs.once certId'
    · intro e he
      rcases List.mem_cons.mp he with rfl | he
      · refine .inr ⟨{ w with phase := .signed certId caref certType x ca }, caref, certType, ca,
          ?_, rfl⟩
        exact List.getElem?_set_self (List.getElem?_eq_some_iff.mp hw).1
      · exact hset.recorded e he

theorem Kept.sign (h : Kept s) (hw : s.workers[i]? = some w)
    (hrows : ∀ row, s.store.certificates.get? certId = some row → row.crt = none) :
    Kept (s.sign i w certId caref certType x ca) := by
  have hunseen : ∀ certId', Unseen s certId' →
      Unseen (s.sign i w certId caref certType x ca) certId' := by
    rintro certId' (hrows' | ⟨e, he, hcert⟩)
    · exact .inl hrows'
    · exact .inr ⟨e, List.mem_cons_of_mem _ he, hcert⟩
  apply h.of_store
  · constructor
    · intro certId' csrText caref' certType' validityDays hphase
      cases hphase
    · exact fun certId' row hrow hcrt => hunseen certId' ((h i w hw).cached certId' row hrow hcrt)
    · intro certId' caref' certType' x' ca' hphase
      cases hphase
      exact ⟨List.mem_cons_self, hrows⟩
  · exact hunseen
  · exact fun j _ certId' x' hissued => ⟨List.mem_cons_of_mem _ hissued, id⟩

end Signature

section Commits

variable {s : State} {i : ℕ} {w : Worker} {certId : ℕ} {x : X509} {ca : CA}
  {caref certType : String}

theorem not_sound_broken (hkept : Kept s) (hw : s.workers[i]? = some w)
    (hphase : w.phase = .signed certId caref certType x ca) :
    ¬Sound { s with workers := s.workers.set i w.broken } := by
  intro h
  obtain ⟨hissued, hrows⟩ := (hkept i w hw).signed certId caref certType x ca hphase
  rcases h.recorded _ hissued with ⟨row, hget, hcrt⟩ | ⟨v, _, _, _, hv, hsigned⟩
  · cases (hrows row hget).symm.trans hcrt
  · rcases getElem?_set_cases hv with ⟨-, rfl⟩ | ⟨hne, -⟩
    · cases hsigned
    · exact hne rfl

theorem recorded_of_get? {st st' : Store} {e : Issue}
    (h : st'.certificates.get? e.certId = st.certificates.get? e.certId) (he : Recorded st e) :
    Recorded st' e := by
  obtain ⟨row, hget, hcrt⟩ := he
  exact ⟨row, h.trans hget, hcrt⟩

theorem uncommitted_set {st : Store} {w' : Worker} {e : Issue} (hne : e.worker ≠ i)
    (he : Uncommitted s e) :
    Uncommitted { s with store := st, workers := s.workers.set i w' } e := by
  obtain ⟨v, caref, certType, ca, hv, hsigned⟩ := he
  refine ⟨v, caref, certType, ca, ?_, hsigned⟩
  rw [List.getElem?_set_ne (Ne.symm hne)]
  exact hv

theorem Sound.delete_iff (hs : Sound s) (hkept : Kept s) (hw : s.workers[i]? = some w)
    (hphase : w.phase = .found certId) :
    Sound { s with
      store := { s.store with certificates := s.store.certificates.delete certId }
      workers := s.workers.set i w.next } ↔
      ∀ e ∈ s.issued, e.certId = certId → ¬Recorded s.store e := by
  have hholder : ∀ e ∈ s.issued, Uncommitted s e → e.worker ≠ i := by
    rintro e - ⟨v, _, _, _, hv, hsigned⟩ rfl
    rw [hw] at hv
    rw [← Option.some.inj hv, hphase] at hsigned
    cases hsigned
  constructor
  · rintro h e he rfl ⟨row, hget, hcrt⟩
    rcases h.recorded e he with ⟨row', hget', -⟩ | ⟨v, caref, certType, ca, hv, hsigned⟩
    · rw [Table.get?_delete_self] at hget'
      cases hget'
    · rcases getElem?_set_cases hv with ⟨-, rfl⟩ | ⟨-, hold⟩
      · cases hsigned
      · have hrows := ((hkept _ v hold).signed _ _ _ _ _ hsigned).2
        cases (hrows row hget).symm.trans hcrt
  · intro h
    refine ⟨hs.once, fun e he => ?_⟩
    rcases hs.recorded e he with hrecorded | huncommitted
    · refine .inl (recorded_of_get? (Table.get?_delete_of_ne ?_) hrecorded)
      exact fun hcert => h e he hcert.symm hrecorded
    · exact .inr (uncommitted_set (hholder e he huncommitted) huncommitted)

theorem Kept.delete (h : Kept s) (hw : s.workers[i]? = some w) :
    Kept { s with
      store := { s.store with certificates := s.store.certificates.delete certId }
      workers := s.workers.set i w.next } := by
  have hrows : ∀ certId' row, (s.store.certificates.delete certId).get? certId' = some row →
      s.store.certificates.get? certId' = some row := by
    intro certId' row hget
    obtain ⟨hmem, hkey⟩ := Table.get?_eq_some_iff.mp hget
    exact Table.get?_eq_some_iff.mpr ⟨(Table.mem_delete.mp hmem).1, hkey⟩
  have hunseen : ∀ certId', Unseen s certId' → Unseen { s with
      store := { s.store with certificates := s.store.certificates.delete certId }
      workers := s.workers.set i w.next } certId' := by
    intro certId' hunseen
    exact hunseen.imp_left fun hall row hget => hall row (hrows certId' row hget)
  apply h.of_store
  · exact .of_idle rfl fun certId' row hrow hcrt =>
      hunseen certId' ((h i w hw).cached certId' row hrow hcrt)
  · exact hunseen
  · exact fun j _ certId' x hissued => ⟨hissued, fun hall row hget => hall row (hrows certId' row hget)⟩

theorem Sound.initial (st : Store) : Sound { store := st } :=
  ⟨fun _ => Nat.zero_le 1, fun _ he => absurd he List.not_mem_nil⟩

theorem Kept.initial (st : Store) : Kept { store := st } :=
  fun _ _ hw => nomatch hw

end Commits

section Runs

variable [X509Library]

/-- A row is signed while it is not signed and no other signature of it waits for its commit; a
signature is committed while its row is there, and the commit does not raise; and no row is deleted
that holds a certificate that was signed here. -/
def Proper (s : State) : Event → Prop
  | .arrive _ => True
  | .proceed i serial now raises =>
    ∀ w, s.workers[i]? = some w →
      match w.phase with
      | .idle => True
      | .read certId csrText caref certType validityDays =>
        ∀ x ca, signRequest s.store csrText caref certType validityDays serial now = .ok (x, ca) →
          (∀ row, s.store.certificates.get? certId = some row → row.crt = none) ∧
            ∀ w' ∈ s.workers, w'.phase.holds certId = false
      | .signed certId _ _ _ _ =>
        raises = false ∧ (s.store.certificates.get? certId).isSome = true
      | .found certId =>
        raises = false → ∀ e ∈ s.issued, e.certId = certId → ¬Recorded s.store e

variable {s : State} {i : ℕ} {w : Worker} {certId : ℕ} {x : X509} {ca : CA}
  {caref certType : String} {e : Event}

def State.commit (s : State) (i : ℕ) (w : Worker) (certId : ℕ) (caref certType : String) (x : X509)
    (ca : CA) : State :=
  { s with
    store := commitSigned s.store certId caref certType x ca
    workers := s.workers.set i { w.next with cached := none } }

theorem get?_commitSigned_of_ne {st : Store} {certId' : ℕ} (hne : certId ≠ certId') :
    (commitSigned st certId caref certType x ca).certificates.get? certId' =
      st.certificates.get? certId' :=
  Table.get?_update_of_ne hne

theorem recorded_commit {row : Certificate} (hget : s.store.certificates.get? certId = some row) :
    Recorded (s.commit i w certId caref certType x ca).store ⟨i, certId, x⟩ :=
  ⟨_, Table.get?_update_self hget, rfl⟩

theorem Sound.commit {row : Certificate} (hs : Sound s) (hkept : Kept s)
    (hw : s.workers[i]? = some w) (hphase : w.phase = .signed certId caref certType x ca)
    (hget : s.store.certificates.get? certId = some row) :
    Sound (s.commit i w certId caref certType x ca) where
  once := hs.once
  recorded e he := by
    have hissued := ((hkept i w hw).signed certId caref certType x ca hphase).1
    by_cases hsame : e.certId = certId
    · rw [hs.eq_of_certId he hissued hsame]
      exact .inl (recorded_commit hget)
    · rcases hs.recorded e he with hrecorded | huncommitted
      · exact .inl (recorded_of_get? (get?_commitSigned_of_ne (Ne.symm hsame)) hrecorded)
      · refine .inr (uncommitted_set ?_ huncommitted)
        rintro rfl
        obtain ⟨v, _, _, _, hv, hsigned⟩ := huncommitted
        rw [hw] at hv
        rw [← Option.some.inj hv, hphase] at hsigned
        cases hsigned
        exact hsame rfl

theorem Kept.commit (h : Kept s) (hs : Sound s) (hw : s.workers[i]? = some w)
    (hphase : w.phase = .signed certId caref certType x ca) :
    Kept (s.commit i w certId caref certType x ca) := by
  have hissued := ((h i w hw).signed certId caref certType x ca hphase).1
  apply h.of_store
  · exact .of_idle rfl fun _ _ hcached => nomatch hcached
  · intro certId' hunseen
    by_cases hsame : certId = certId'
    · exact .inr ⟨_, hissued, hsame⟩
    · refine hunseen.imp_left fun hall row hget => hall row ?_
      exact (get?_commitSigned_of_ne hsame).symm.trans hget
  · intro j hne certId' x' hissued'
    refine ⟨hissued', fun hall row hget => hall row ?_⟩
    have hother : certId ≠ certId' := by
      rintro rfl
      cases hs.eq_of_certId hissued hissued' rfl
      exact hne rfl
    exact (get?_commitSigned_of_ne hother).symm.trans hget

/-- A step of a request keeps what was signed recorded exactly if it meets the condition, and such
steps keep what the requests have read. -/
theorem Sound.proceed_iff {serial : RandomSerial} {now : Time} {raises : Bool} (hs : Sound s)
    (hkept : Kept s) (hw : s.workers[i]? = some w) :
    (Sound (s.proceed i w serial now raises) ↔ Proper s (.proceed i serial now raises)) ∧
      (Proper s (.proceed i serial now raises) → Kept (s.proceed i w serial now raises)) := by
  have hkeptW := hkept i w hw
  unfold Proper State.proceed
  simp only [hw, Option.some.injEq, forall_eq']
  cases hphase : w.phase with
  | idle =>
    have hholds : ∀ certId, w.phase.holds certId = false := by
      intro certId
      rw [hphase]
      rfl
    dsimp only
    split
    · exact ⟨iff_of_true hs trivial, fun _ => hkept⟩
    · rename_i certId rest htodo
      have hread := hkeptW.read_row certId
      exact ⟨iff_of_true (sound_set hs hw hholds) trivial, fun _ => hkept.set hread⟩
  | read certId csrText caref certType validityDays =>
    have hholds : ∀ certId, w.phase.holds certId = false := by
      intro certId
      rw [hphase]
      rfl
    dsimp only
    cases hsign : signRequest s.store csrText caref certType validityDays serial now with
    | error err =>
      refine ⟨iff_of_true (sound_set hs hw hholds) ?_, fun _ => hkept.set hkeptW.next⟩
      intro x ca hok
      cases hok
    | ok result =>
      obtain ⟨x, ca⟩ := result
      have hunseen := hkeptW.read certId csrText caref certType validityDays hphase
      have hiff : Sound (s.sign i w certId caref certType x ca) ↔ _ :=
        hs.sign_iff hkept hw hunseen hholds
      constructor
      · refine hiff.trans ?_
        exact ⟨fun h _ _ _ => h, fun h => h x ca rfl⟩
      · exact fun h => hkept.sign hw (h x ca rfl).1
  | signed certId caref certType x ca =>
    dsimp only
    split_ifs with hfails
    · have hbroken : ¬Sound { s with workers := s.workers.set i w.broken } :=
        not_sound_broken hkept hw hphase
      refine ⟨iff_of_false hbroken ?_, fun _ => hkept.set (.broken s i w)⟩
      rintro ⟨hcommits, hthere⟩
      rcases hfails with hraises | habsent
      · exact absurd (hcommits.symm.trans hraises) Bool.false_ne_true
      · rw [habsent] at hthere
        cases hthere
    · obtain ⟨hcommits, hthere⟩ := not_or.mp hfails
      obtain ⟨row, hget⟩ := Option.ne_none_iff_exists'.mp hthere
      have hcondition : raises = false ∧ (s.store.certificates.get? certId).isSome = true :=
        ⟨by simpa using hcommits, by rw [hget]; rfl⟩
      exact ⟨iff_of_true (hs.commit hkept hw hphase hget) hcondition,
        fun _ => hkept.commit hs hw hphase⟩
  | found certId =>
    have hholds : ∀ certId, w.phase.holds certId = false := by
      intro certId
      rw [hphase]
      rfl
    dsimp only
    cases raises with
    | true =>
      exact ⟨iff_of_true (sound_set hs hw hholds) fun h => absurd h Bool.true_eq_false.mp, fun _ => hkept.set hkeptW.next⟩
    | false =>
      refine ⟨?_, fun _ => hkept.delete hw⟩
      exact (hs.delete_iff hkept hw hphase).trans ⟨fun h _ => h, fun h => h rfl⟩

theorem Sound.arrive (h : Sound s) (request : Request) : Sound (step s (.arrive request)) where
  once := h.once
  recorded e he := by
    refine (h.recorded e he).imp_right ?_
    rintro ⟨w, caref, certType, ca, hw, hsigned⟩
    refine ⟨w, caref, certType, ca, ?_, hsigned⟩
    exact (List.getElem?_append_left (List.getElem?_eq_some_iff.mp hw).1).trans hw

theorem Kept.arrive (h : Kept s) (request : Request) : Kept (step s (.arrive request)) := by
  intro j w hw
  have hidle : (request.worker s.store).phase = .idle ∧
      (request.worker s.store).cached = none := by
    unfold Request.worker
    split
    · exact ⟨rfl, rfl⟩
    · split
      · exact ⟨rfl, rfl⟩
      · exact ⟨rfl, rfl⟩
    · exact ⟨rfl, rfl⟩
    · exact ⟨rfl, rfl⟩
  have hlast : s.workers[j]? = some w ∨ w = request.worker s.store := by
    change (s.workers ++ [request.worker s.store])[j]? = some w at hw
    rw [List.getElem?_append] at hw
    split_ifs at hw
    · exact .inl hw
    · exact .inr (List.mem_singleton.mp (List.mem_of_getElem? hw))
  rcases hlast with hold | rfl
  · have hkept := h j w hold
    exact ⟨hkept.read, hkept.cached, hkept.signed⟩
  · apply KeptWorker.of_idle hidle.1
    intro certId row hcached
    rw [hidle.2] at hcached
    cases hcached

theorem Sound.step_iff (hs : Sound s) (hkept : Kept s) : Sound (step s e) ↔ Proper s e := by
  cases e with
  | arrive request => exact iff_of_true (hs.arrive request) trivial
  | proceed i serial now raises =>
    dsimp only [step]
    cases hw : s.workers[i]? with
    | none => exact iff_of_true hs fun w h => nomatch hw.symm.trans h
    | some w => exact (hs.proceed_iff hkept hw).1

theorem Kept.step (hkept : Kept s) (hs : Sound s) (hproper : Proper s e) : Kept (step s e) := by
  cases e with
  | arrive request => exact hkept.arrive request
  | proceed i serial now raises =>
    dsimp only [Signing.step]
    cases hw : s.workers[i]? with
    | none => exact hkept
    | some w => exact (hs.proceed_iff hkept hw).2 hproper

/-- In every run of requests, no row is signed twice and everything that was signed is recorded
when its request has been served, exactly if every step meets its condition. -/
theorem signed_once_iff (st : Store) (es : List Event) :
    (∀ pre, pre <+: es → Sound (run step { store := st } pre)) ↔
      Meets step Proper { store := st } es :=
  forall_prefix_iff_meets (I := Kept) (fun _ _ hkept hs => hs.step_iff hkept)
    (fun _ _ hkept hs hproper => hkept.step hs hproper) es (.initial st) (.initial st)

end Runs

section Sample

def requestStore : Store :=
  let csr : Csr := ⟨sampleName "www", ⟨.rsa 2048, 5⟩, true, []⟩
  { sampleStore with
    certificates := (∅ : Table Certificate).insert
      { refid := "csr", descr := "www", csr := some (.base64 csr) } }

def proceedWith (i serial : ℕ) : Event :=
  .proceed i (sampleDraw serial "" 0).serial 0 false

def twoSigners : List Event :=
  [.arrive (.signCsr 1 1 "server_cert" 365), .arrive (.bulkSignCsrs [1] 1 365), proceedWith 0 2,
    proceedWith 1 3, proceedWith 0 2, proceedWith 1 3, proceedWith 0 2, proceedWith 1 3]

def signerAndDeletion : List Event :=
  [.arrive (.signCsr 1 1 "server_cert" 365), .arrive (.deleteCsr 1), proceedWith 0 2,
    proceedWith 1 3, proceedWith 1 3, proceedWith 0 2, proceedWith 0 2]

def finalState (es : List Event) : State :=
  let _ := sampleLibrary
  run step { store := requestStore } es

/-- Both requests are served. The row was signed twice and holds the second certificate; or it is
gone, and the certificate with it. -/
theorem signed_unrecorded :
    (((finalState twoSigners).issued.map Issue.certId = [1, 1] ∧
      (finalState twoSigners).workers.all Worker.finished = true) ∧
      ¬Sound (finalState twoSigners)) ∧
    (((finalState signerAndDeletion).issued.map Issue.certId = [1] ∧
      (finalState signerAndDeletion).workers.all Worker.finished = true) ∧
      ¬Sound (finalState signerAndDeletion)) := by
  refine ⟨⟨by decide +kernel, fun h => ?_⟩, ⟨by decide +kernel, fun h => ?_⟩⟩
  · exact absurd (h.once 1) (by decide +kernel)
  · have hfinished : ∀ w ∈ (finalState signerAndDeletion).workers, w.finished = true := by
      decide +kernel
    have hrows : (finalState signerAndDeletion).store.certificates.rows = [] := by decide +kernel
    obtain ⟨e, he⟩ : ∃ e, e ∈ (finalState signerAndDeletion).issued :=
      List.exists_mem_of_ne_nil _ (by decide +kernel)
    obtain ⟨row, hrow, -⟩ := h.recorded_of_finished hfinished e he
    have hmem := Table.mem_of_get? hrow
    rw [Table.mem_def, hrows] at hmem
    cases hmem

end Sample

end Signing

end CaManager
