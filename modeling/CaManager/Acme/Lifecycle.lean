import CaManager.Acme.Server
import CaManager.Library.Settlement

/-!
# The life of an order

Nothing that writes an order's status looks at it first: validating the last missing challenge
and finishing a new order write `ready` over anything, and a finalization writes its outcome
long after it read `ready`. Where the former happen to meet open orders only, and a
finalization signs only for an order that is still ready and not signed for already, every
interleaving keeps the book of orders that are worked on once.
-/

namespace CaManager

open Library AcmeService

inductive OrderOpens : Option OrderStatus → Option OrderStatus → Prop
  | same (a : Option OrderStatus) : OrderOpens a a
  | new : OrderOpens none (some .pending)
  | newReady : OrderOpens none (some .ready)
  | ready : OrderOpens (some .pending) (some .ready)

inductive OrderStatus.IsFinal : OrderStatus → Prop
  | valid : IsFinal .valid
  | invalid : IsFinal .invalid

def orderPhases : Phases OrderStatus where
  ready := .ready
  IsFinal := OrderStatus.IsFinal
  Opens := OrderOpens
  opens_self := .same
  not_final h := by cases h
  of_ready h := by cases h; rfl
  of_final hfinal h := by cases hfinal <;> cases h <;> rfl

def AcmeThread.claim : AcmeThread → Option String
  | .signed orderId _ _ => some orderId
  | _ => none

namespace AcmeServer

section Book

variable (s : AcmeServer)

def status (orderId : String) : Option OrderStatus :=
  (s.db.orders.find? orderId).map AcmeOrder.status

def book : Book String ℕ OrderStatus where
  phase := s.status
  claims i := s.threads[i]?.bind AcmeThread.claim
  issued := s.issued.map Prod.fst

def IsOpen (orderId : String) : Prop :=
  s.status orderId = some .pending ∨ s.status orderId = some .ready

end Book

/-- The next transaction of the thread makes ready what is open, and signs for what is ready
and not signed for. -/
def Careful [Sha256] (s : AcmeServer) (w : Surroundings) : AcmeThread → Prop
  | .ordering orderId accountId _ remaining =>
    (∀ a ∈ s.db.authorizationsOf orderId, a.status = .valid) →
      (∀ identifier ∈ remaining,
        (reusableAuthorization s.db accountId identifier w.now).isSome) →
      s.IsOpen orderId
  | .responding challengeId account =>
    ∀ challenge ∈ s.db.challenges.find? challengeId, ∀ auth ∈ s.db.authorizationOf challenge,
      isFoundRight w s.db challenge account → LastMissing s.db auth → s.IsOpen auth.orderId
  | .finalizing order _ _ =>
    s.status order.orderId = some .ready ∧ ∀ t ∈ s.threads, t.claim ≠ some order.orderId
  | .signed .. => True
  | .finished => True

def KeepsBook [Sha256] (s : AcmeServer) : AcmeEvent → Prop
  | .proceed i w => ∀ t ∈ s.threads[i]?, s.Careful w t
  | _ => True

end AcmeServer

section Tables

variable {st st' : AcmeStore} {orderId accountId : String} {now : Time}

def markedReady (o : AcmeOrder) : AcmeOrder :=
  { o with status := .ready }

theorem orderId_markedReady (o : AcmeOrder) : (markedReady o).orderId = o.orderId := rfl

theorem reusable_of_createAuthorization {identifier identifier' : Identifier}
    {d : AuthorizationDraw} {v a : AcmeAuthorization}
    (hcreate : createAuthorization st orderId identifier accountId d now = some st')
    (hreuse : reusableAuthorization st accountId identifier now = some v)
    (ha : Reusable st' accountId identifier' now a) :
    ∃ a, Reusable st accountId identifier' now a := by
  obtain ⟨auths, _, _, hauth, _, _, rfl⟩ := createAuthorization_eq_some.mp hcreate
  rcases (Registry.mem_insert hauth).mp ha.mem with hold | hnew
  · exact ⟨a, hold, ha.owner, ha.identifier, ha.valid, ha.unexpired⟩
  · have hidentifier : identifier = identifier' := by
      rw [← ha.identifier, hnew]
      unfold newAuthorization
      rw [hreuse]
    exact ⟨v, hidentifier ▸ reusable_of_reusableAuthorization hreuse⟩

/-- Making an order writes an order row only when it marks the order ready, which then has
valid authorizations only and takes over a result for every identifier that was left. -/
theorem authorizeNext_orders {draw : ℕ → AuthorizationDraw} {i : ℕ}
    {identifiers : List Identifier} {t : AcmeThread}
    (h : authorizeNext orderId accountId draw now i identifiers st = some (st', t)) :
    t.claim = none ∧ (st'.orders = st.orders ∨
      st'.orders = st.orders.modify orderId markedReady orderId_markedReady ∧
        (∀ a ∈ st.authorizationsOf orderId, a.status = .valid) ∧
        ∀ identifier ∈ identifiers, (reusableAuthorization st accountId identifier now).isSome) := by
  induction identifiers generalizing i st with
  | nil =>
    unfold authorizeNext at h
    cases h
    refine ⟨rfl, ?_⟩
    unfold finishOrder readyIfAllValid
    split_ifs with hempty hall
    · exact .inl rfl
    · refine .inr ⟨rfl, ?_, fun _ h => absurd h List.not_mem_nil⟩
      simpa using hall
    · exact .inl rfl
  | cons identifier rest ih =>
    unfold authorizeNext at h
    cases hcreate : createAuthorization st orderId identifier accountId (draw i) now with
    | none => rw [hcreate] at h; cases h
    | some st₁ =>
      rw [hcreate] at h
      dsimp only at h
      obtain ⟨auths, challenges, _, hauth, _, _, heq⟩ := createAuthorization_eq_some.mp hcreate
      have horders : st₁.orders = st.orders := by rw [heq]
      split_ifs at h with hreuse
      · obtain ⟨hclaim, hcases⟩ := ih h
        refine ⟨hclaim, ?_⟩
        rcases hcases with hsame | ⟨hready, hvalid, hrest⟩
        · exact .inl (hsame.trans horders)
        · refine .inr ⟨horders ▸ hready, ?_, ?_⟩
          · intro a ha
            obtain ⟨hmem, horder⟩ := Registry.mem_select.mp ha
            refine hvalid a (Registry.mem_select.mpr ⟨?_, horder⟩)
            rw [heq]
            exact (Registry.mem_insert hauth).mpr (.inl hmem)
          · intro x hx
            rcases List.mem_cons.mp hx with rfl | hx
            · exact hreuse
            · obtain ⟨v, hv⟩ := Option.isSome_iff_exists.mp hreuse
              obtain ⟨a, ha⟩ := isSome_reusableAuthorization.mp (hrest x hx)
              exact isSome_reusableAuthorization.mpr (reusable_of_createAuthorization hcreate hv ha)
      · cases h
        exact ⟨rfl, .inl horders⟩

/-- Validating a challenge writes an order row only when the challenge is found right and was
the last one missing. -/
theorem validateChallenge_orders {check : String → Except Problem Unit} {failureType : String}
    {challenge : AcmeChallenge} {auth : AcmeAuthorization}
    (hfind : st.challenges.find? challenge.challengeId = some challenge)
    (hauth : st.authorizationOf challenge = some auth)
    (h : validateChallenge check failureType st challenge now = .ok st') :
    st'.orders = st.orders ∨ st'.orders = st.orders.modify auth.orderId markedReady orderId_markedReady ∧
      check (auth.identifier.value.getD "") = .ok () ∧ LastMissing st auth := by
  cases hcheck : check (auth.identifier.value.getD "") with
  | error problem =>
    rw [validateChallenge_of_error hauth hcheck] at h
    cases h
    exact .inl rfl
  | ok u =>
    rw [validateChallenge_of_ok hfind hauth hcheck] at h
    cases horder : st.orderOf auth with
    | none =>
      rw [horder] at h
      cases h
      exact .inl rfl
    | some order =>
      rw [horder] at h
      cases h
      have hname : order.orderId = auth.orderId := Registry.name_of_find? horder
      rw [hname]
      unfold readyIfAllValid
      split_ifs with hall
      · exact .inr ⟨rfl, rfl, all_valid_iff.mp hall⟩
      · exact .inl rfl

end Tables

namespace AcmeServer

section Steps

variable {s s' : AcmeServer} {w : Surroundings}

theorem status_modify {orders : Registry AcmeOrder} {orderId : String} (f : AcmeOrder → AcmeOrder)
    (hf : ∀ r, (f r).orderId = r.orderId) {final : OrderStatus} (hstatus : ∀ o, (f o).status = final)
    (id : String) : ((orders.modify orderId f hf).find? id).map AcmeOrder.status =
      if id = orderId then ((orders.find? id).map AcmeOrder.status).map fun _ => final
      else (orders.find? id).map AcmeOrder.status := by
  rw [Registry.find?_modify]
  split_ifs
  · cases orders.find? id with
    | none => rfl
    | some o => exact congrArg some (hstatus o)
  · rfl

theorem opens_markedReady {orderId : String} (hopen : s.IsOpen orderId)
    (h : s'.db.orders = s.db.orders.modify orderId markedReady orderId_markedReady) (id : String) :
    OrderOpens (s.status id) (s'.status id) := by
  unfold status
  rw [h, status_modify markedReady orderId_markedReady fun _ => rfl]
  split_ifs with hid
  · subst hid
    rcases hopen with hpending | hready
    · unfold status at hpending
      rw [hpending]
      exact .ready
    · unfold status at hready
      rw [hready]
      exact .same _
  · exact .same _

theorem step_of_opens (hclaims : s'.book.claims = s.book.claims) (hissued : s'.issued = s.issued)
    (h : ∀ id, OrderOpens (s.status id) (s'.status id)) :
    Book.Step orderPhases s.book s'.book := by
  have hbook : s'.book = { s.book with phase := s'.status } := by
    unfold book at hclaims ⊢
    rw [hissued]
    exact congrArg (Book.mk s'.status · (s.issued.map Prod.fst)) hclaims
  rw [hbook]
  exact .opens _ h

theorem claims_start {t : AcmeThread} (ht : t.claim = none) : (s.start t).book.claims = s.book.claims := by
  funext i
  change (s.threads ++ [t])[i]?.bind AcmeThread.claim = s.threads[i]?.bind AcmeThread.claim
  rw [List.getElem?_append]
  split_ifs with hi
  · rfl
  · rw [List.getElem?_eq_none (Nat.le_of_not_lt hi)]
    cases hx : [t][i - s.threads.length]? with
    | none => rfl
    | some t' =>
      have ht' : t' = t := List.mem_singleton.mp (List.mem_of_getElem? hx)
      rw [ht']
      exact ht

theorem claims_commit {i : ℕ} {t₀ : AcmeThread} {t : Transaction} (hi : s.threads[i]? = some t₀) :
    (s.commit i t).book.claims = Function.update s.book.claims i t.thread.claim := by
  funext j
  change (s.threads.set i t.thread)[j]?.bind AcmeThread.claim = _
  obtain ⟨hlt, -⟩ := List.getElem?_eq_some_iff.mp hi
  by_cases hj : j = i
  · subst hj
    rw [List.getElem?_set_self hlt, Function.update_self]
    rfl
  · rw [List.getElem?_set_ne (Ne.symm hj), Function.update_of_ne hj]
    rfl

theorem claims_commit_of_none {i : ℕ} {t₀ : AcmeThread} {t : Transaction}
    (hi : s.threads[i]? = some t₀) (h₀ : t₀.claim = none) (ht : t.thread.claim = none) :
    (s.commit i t).book.claims = s.book.claims := by
  have hclaim : s.book.claims i = none := by
    change s.threads[i]?.bind AcmeThread.claim = none
    rw [hi]
    exact h₀
  rw [claims_commit hi, ht, ← hclaim, Function.update_eq_self]

theorem issued_commit_of_none {i : ℕ} {t : Transaction} (ht : t.issued = none) :
    (s.commit i t).issued = s.issued := by
  change s.issued ++ t.issued.toList = s.issued
  rw [ht]
  exact List.append_nil _

theorem map_fst_issued (id : String) (certId : Option ℕ) :
    (certId.map fun k => (id, k)).toList.map Prod.fst =
      if (certId.map fun k => (id, k)).isSome then [id] else [] := by
  cases certId <;> rfl

theorem step_of_claim {i : ℕ} {t₀ : AcmeThread} {t : Transaction} {orderId : String}
    (hi : s.threads[i]? = some t₀) (h₀ : t₀.claim = none)
    (hready : s.status orderId = some .ready) (hfree : ∀ t ∈ s.threads, t.claim ≠ some orderId)
    (horders : t.db.orders = s.db.orders) (ht : t.thread.claim = some orderId)
    (hissued : t.issued.toList.map Prod.fst = if t.issued.isSome then [orderId] else []) :
    Book.Step orderPhases s.book (s.commit i t).book := by
  have hbook : (s.commit i t).book =
      { s.book with claims := Function.update s.book.claims i (some orderId)
                    issued := s.book.issued ++ if t.issued.isSome then [orderId] else [] } := by
    have hstatus : (s.commit i t).status = s.status := by
      funext id
      exact congrArg (fun rows => (Registry.find? rows id).map AcmeOrder.status) horders
    have hlog : (s.commit i t).book.issued = s.book.issued ++
        if t.issued.isSome then [orderId] else [] := by
      rw [← hissued]
      exact List.map_append
    rw [← hlog, ← ht, ← claims_commit hi]
    exact congrArg (Book.mk · _ _) hstatus
  rw [hbook]
  refine .claim i orderId _ hready (fun j hj => ?_) ?_
  · obtain ⟨t', ht', hclaim⟩ := Option.bind_eq_some_iff.mp hj
    exact hfree t' (List.mem_of_getElem? ht') hclaim
  · change s.threads[i]?.bind AcmeThread.claim = none
    rw [hi]
    exact h₀

theorem step_of_settle {i : ℕ} {t₀ : AcmeThread} {t : Transaction} {orderId : String}
    (f : AcmeOrder → AcmeOrder) (hf : ∀ r, (f r).orderId = r.orderId) {final : OrderStatus}
    (hs : Book.Sound orderPhases s.book) (hi : s.threads[i]? = some t₀)
    (h₀ : t₀.claim = some orderId) (horders : t.db.orders = s.db.orders.modify orderId f hf)
    (hstatus : ∀ o, (f o).status = final) (hfinal : final.IsFinal) (ht : t.thread.claim = none)
    (hissued : t.issued = none) : Book.Step orderPhases s.book (s.commit i t).book := by
  have hclaim : s.book.claims i = some orderId := by
    change s.threads[i]?.bind AcmeThread.claim = some orderId
    rw [hi]
    exact h₀
  have hready : (s.db.orders.find? orderId).map AcmeOrder.status = some .ready :=
    hs.ready i orderId hclaim
  have hbook : (s.commit i t).book =
      { s.book with claims := Function.update s.book.claims i none
                    phase := Function.update s.book.phase orderId (some final) } := by
    have hphase : (s.commit i t).status = Function.update s.book.phase orderId (some final) := by
      funext id
      change (t.db.orders.find? id).map AcmeOrder.status = _
      rw [horders, status_modify f hf hstatus]
      by_cases hid : id = orderId
      · subst hid
        rw [if_pos rfl, hready, Function.update_self]
        rfl
      · rw [if_neg hid, Function.update_of_ne hid]
        rfl
    have hlog : (s.commit i t).book.issued = s.book.issued :=
      congrArg (List.map Prod.fst) (issued_commit_of_none hissued)
    rw [← hphase, ← ht, ← claims_commit hi]
    exact congrArg (Book.mk _ _) hlog
  rw [hbook]
  exact .settle i orderId final hclaim hfinal

theorem step_of_quiet {i : ℕ} {t : AcmeThread} {t' : Transaction} (hi : s.threads[i]? = some t)
    (h₀ : t.claim = none) (horders : t'.db.orders = s.db.orders) (hclaim : t'.thread.claim = none)
    (hissued : t'.issued = none) : Book.Step orderPhases s.book (s.commit i t').book := by
  refine step_of_opens (claims_commit_of_none hi h₀ hclaim) (issued_commit_of_none hissued) ?_
  intro id
  have hsame : (s.commit i t').status id = s.status id :=
    congrArg (fun rows => (Registry.find? rows id).map AcmeOrder.status) horders
  rw [hsame]
  exact .same _

theorem opens_beginOrder {accountId : String} {identifiers : List Identifier}
    {notBefore notAfter : Option Time} {thread : AcmeThread} {db : AcmeStore}
    (h : beginOrder s.db accountId identifiers notBefore notAfter w = some (db, thread)) :
    thread.claim = none ∧ ∀ id, OrderOpens (s.status id)
      ((db.orders.find? id).map AcmeOrder.status) := by
  obtain ⟨working, hinsert, hnext⟩ := Option.bind_eq_some_iff.mp h
  obtain ⟨orders, horders, rfl⟩ := insertOrder_eq_some.mp hinsert
  obtain ⟨hclaim, hcases⟩ := authorizeNext_orders hnext
  refine ⟨hclaim, fun id => ?_⟩
  have hinserted : ∀ id, (orders.find? id).map AcmeOrder.status =
      if id = w.orderId then some .pending else s.status id := by
    intro id
    have hfind := Registry.find?_insert horders id
    by_cases hid : id = w.orderId
    · rw [hfind.trans (if_pos hid), if_pos hid]
      rfl
    · rw [hfind.trans (if_neg hid), if_neg hid]
      rfl
  have hfresh : s.status w.orderId = none :=
    congrArg (Option.map AcmeOrder.status) (Registry.find?_insert_fresh horders)
  rcases hcases with hsame | ⟨hready, _⟩
  · rw [hsame, hinserted]
    split_ifs with hid
    · rw [hid, hfresh]
      exact .new
    · exact .same _
  · rw [hready, status_modify markedReady orderId_markedReady fun _ => rfl, hinserted]
    split_ifs with hid
    · rw [hid, hfresh]
      exact .newReady
    · exact .same _

variable [Sha256] [X509Library]

theorem step_book_commit {i : ℕ} {t : AcmeThread} (hs : Book.Sound orderPhases s.book)
    (hi : s.threads[i]? = some t) (ht : s.Careful w t) :
    Book.Step orderPhases s.book (s.commit i (t.run w s.db)).book := by
  have hquiet {t' : Transaction} (h₀ : t.claim = none) (horders : t'.db.orders = s.db.orders)
      (hclaim : t'.thread.claim = none) (hissued : t'.issued = none) :
      Book.Step orderPhases s.book (s.commit i t').book :=
    step_of_quiet hi h₀ horders hclaim hissued
  cases t with
  | ordering orderId accountId next remaining =>
    unfold AcmeThread.run
    dsimp only
    cases hnext : authorizeNext orderId accountId w.authorization w.now next remaining s.db with
    | none => exact hquiet rfl rfl rfl rfl
    | some result =>
      obtain ⟨db, thread⟩ := result
      obtain ⟨hclaim, hcases⟩ := authorizeNext_orders hnext
      rcases hcases with hsame | ⟨hready, hvalid, hreuse⟩
      · exact hquiet rfl hsame hclaim rfl
      · exact step_of_opens (claims_commit_of_none hi rfl hclaim) (issued_commit_of_none rfl)
          (opens_markedReady (ht hvalid hreuse) hready)
  | responding challengeId account =>
    unfold AcmeThread.run
    dsimp only
    cases hfind : s.db.challenges.find? challengeId with
    | none => exact hquiet rfl rfl rfl rfl
    | some challenge =>
      dsimp only
      split
      next db hvalidate =>
        obtain ⟨check, failureType, auth, hauth, hresult, hok⟩ := validate_eq_ok hvalidate
        have hname : challenge.challengeId = challengeId := Registry.name_of_find? hfind
        rcases validateChallenge_orders (hname ▸ hfind) hauth hok with
          hsame | ⟨hready, hcheck, hlast⟩
        · exact hquiet rfl hsame rfl rfl
        · have hright : isFoundRight w s.db challenge account = true :=
            isFoundRight_iff.mpr ⟨auth, hauth, by rw [hresult, hcheck]⟩
          have hopen := ht challenge hfind auth hauth hright hlast
          exact step_of_opens (claims_commit_of_none hi rfl rfl) (issued_commit_of_none rfl)
            (opens_markedReady hopen hready)
      next => exact hquiet rfl rfl rfl rfl
  | finalizing order csr domains =>
    obtain ⟨hready, hfree⟩ := ht
    have hstore := finalizeSign_store s.db order csr domains w.sign
    unfold AcmeThread.run
    dsimp only
    cases hsign : finalizeSign s.db order csr domains w.sign with
    | raised e => exact hquiet rfl rfl rfl rfl
    | failed message db =>
      rw [hsign] at hstore
      obtain ⟨store, rfl⟩ := hstore
      exact step_of_claim hi rfl hready hfree rfl rfl (map_fst_issued _ _)
    | signed certId db =>
      rw [hsign] at hstore
      obtain ⟨store, rfl⟩ := hstore
      exact step_of_claim hi rfl hready hfree rfl rfl (map_fst_issued _ _)
  | signed orderId csr result =>
    cases result with
    | ok certId =>
      let settled (o : AcmeOrder) : AcmeOrder :=
        { o with status := .valid, csr := some csr, certificateId := some certId
                 certificateUrl := some (s.db.baseUrl ++ "/acme/cert/" ++ orderId) }
      have hstatus : ∀ o, (settled o).status = .valid := fun _ => rfl
      exact step_of_settle settled (fun _ => rfl) hs hi rfl rfl hstatus .valid rfl rfl
    | error message =>
      let settled (o : AcmeOrder) : AcmeOrder :=
        { o with status := .invalid
                 error := some ⟨"urn:ietf:params:acme:error:serverInternal", message⟩ }
      have hstatus : ∀ o, (settled o).status = .invalid := fun _ => rfl
      exact step_of_settle settled (fun _ => rfl) hs hi rfl rfl hstatus .invalid rfl rfl
  | finished => exact hquiet rfl rfl rfl rfl

theorem step_book (hs : Book.Sound orderPhases s.book) {e : AcmeEvent} (he : s.KeepsBook e) :
    Book.Step orderPhases s.book (s.step e).book := by
  have hsame : Book.Step orderPhases s.book s.book :=
    step_of_opens rfl rfl fun _ => .same _
  cases e with
  | newOrder accountId identifiers notBefore notAfter w =>
    unfold step
    dsimp only
    cases getAccountByKid s.db accountId with
    | none => exact hsame
    | some account =>
      dsimp only
      split_ifs
      · exact hsame
      · cases hbegin : beginOrder s.db account.accountId identifiers notBefore notAfter w with
        | none => exact hsame
        | some result =>
          obtain ⟨db, thread⟩ := result
          obtain ⟨hclaim, hopens⟩ := opens_beginOrder hbegin
          exact step_of_opens (claims_start hclaim) rfl hopens
  | respond challengeId accountId =>
    unfold step
    dsimp only
    split
    · exact step_of_opens (claims_start rfl) rfl fun _ => .same _
    · exact hsame
  | finalize orderId csr =>
    unfold step
    dsimp only
    split
    · exact step_of_opens (claims_start rfl) rfl fun _ => .same _
    · exact hsame
  | proceed i w =>
    unfold step
    dsimp only
    cases hi : s.threads[i]? with
    | none => exact hsame
    | some t => exact step_book_commit hs hi (he t hi)
  | accounts rows => exact step_of_opens rfl rfl fun _ => .same _
  | nonces rows => exact step_of_opens rfl rfl fun _ => .same _
  | certificates op => exact step_of_opens rfl rfl fun _ => .same _
  | settings localDomains domains issuingCaId =>
    exact step_of_opens rfl rfl fun _ => .same _

end Steps

end AcmeServer

section Runs

open AcmeServer

variable {s : AcmeServer}

theorem sound_of_idle (hthreads : s.threads = []) (hissued : s.issued = []) :
    Book.Sound orderPhases s.book := by
  have hclaims : ∀ i, s.book.claims i = none := by
    intro i
    change s.threads[i]?.bind AcmeThread.claim = none
    rw [hthreads]
    rfl
  have hlog : s.book.issued = [] := congrArg (List.map Prod.fst) hissued
  refine ⟨?_, ?_, ?_, ?_⟩
  · intro i _ _ hi
    rw [hclaims] at hi
    cases hi
  · intro i _ hi
    rw [hclaims] at hi
    cases hi
  · intro id hid
    rw [hlog] at hid
    cases hid
  · rw [hlog]
    exact List.nodup_nil

variable [Sha256] [X509Library]

theorem sound_run {events : List AcmeEvent} (hs : Book.Sound orderPhases s.book)
    (hrun : Meets AcmeServer.step KeepsBook s events) :
    Book.Sound orderPhases (run AcmeServer.step s events).book :=
  run_invariant (I := fun s : AcmeServer => Book.Sound orderPhases s.book)
    (fun _ _ hs he => hs.step (step_book hs he)) hs hrun

theorem final_run {events : List AcmeEvent} {orderId : String} {final : OrderStatus}
    (hfinal : final.IsFinal) (hs : Book.Sound orderPhases s.book)
    (hstatus : s.status orderId = some final) (hrun : Meets AcmeServer.step KeepsBook s events) :
    (run AcmeServer.step s events).status orderId = some final := by
  have hboth := run_invariant (C := KeepsBook)
    (I := fun s => Book.Sound orderPhases s.book ∧ s.status orderId = some final)
    (fun s e h he => ?_) ⟨hs, hstatus⟩ hrun
  · exact hboth.2
  · obtain ⟨hsound, hstatus⟩ := h
    have hstep := step_book hsound he
    have hmoves : Book.Moves orderPhases (s.status orderId) ((s.step e).status orderId) :=
      hsound.moves hstep orderId
    rw [hstatus] at hmoves
    exact ⟨hsound.step hstep, hmoves.of_final hfinal⟩

/-- In every interleaving whose events keep the book: no order has two certificates issued for
it, each event moves a status forward by one phase at most, and a final status stays. -/
theorem order_lifecycle {events : List AcmeEvent} (hthreads : s.threads = [])
    (hissued : s.issued = []) (hrun : Meets AcmeServer.step KeepsBook s events) :
    (∀ before after, events = before ++ after →
      ((run AcmeServer.step s before).issued.map Prod.fst).Nodup) ∧
    (∀ before e after orderId, events = before ++ e :: after →
      Book.Moves orderPhases ((run AcmeServer.step s before).status orderId)
        ((run AcmeServer.step s (before ++ [e])).status orderId)) ∧
    (∀ before between after orderId final, events = before ++ (between ++ after) →
      final.IsFinal → (run AcmeServer.step s before).status orderId = some final →
      (run AcmeServer.step s (before ++ between)).status orderId = some final) := by
  have hsound : ∀ {before after}, events = before ++ after →
      Book.Sound orderPhases (run AcmeServer.step s before).book := by
    intro before after heq
    subst heq
    exact sound_run (sound_of_idle hthreads hissued) ((meets_append ..).mp hrun).1
  refine ⟨?_, ?_, ?_⟩
  · intro before after heq
    exact (hsound heq).once
  · intro before e after orderId heq
    have hs := hsound heq
    subst heq
    obtain ⟨-, he, -⟩ := (meets_append ..).mp hrun
    rw [run_append]
    exact hs.moves (step_book hs he) orderId
  · intro before between after orderId final heq hfinal hstatus
    have hs := hsound heq
    subst heq
    obtain ⟨-, hrest⟩ := (meets_append ..).mp hrun
    rw [run_append]
    exact final_run hfinal hs hstatus ((meets_append ..).mp hrest).1

end Runs

section Sample

open AcmeServer

def finalizedOnce : List AcmeEvent :=
  [.finalize "o1" (some (plainRequest "www")), .proceed 0 sampleSurroundings,
    .proceed 0 sampleSurroundings]

def finalizedTwice : List AcmeEvent :=
  [.finalize "o1" (some (plainRequest "www")), .finalize "o1" (some (plainRequest "www")),
    .proceed 0 sampleSurroundings,
    .proceed 1 { sampleSurroundings with sign := { sampleSignDraw with refid := "r2" } }]

theorem order_lifecycle_once :
    let _ := sampleJose
    let _ := sampleLibrary
    Meets AcmeServer.step KeepsBook { db := readyAcme } finalizedOnce ∧
      ((run AcmeServer.step { db := readyAcme } finalizedOnce).issued.map Prod.fst).Nodup := by
  intro _ _
  have hrun : Meets AcmeServer.step KeepsBook { db := readyAcme } finalizedOnce := by
    refine ⟨trivial, ?_, ?_, trivial⟩
    · intro t ht
      cases ht
      refine ⟨rfl, fun t ht => ?_⟩
      cases List.mem_singleton.mp ht
      exact fun h => nomatch h
    · intro t ht
      cases ht
      trivial
  exact ⟨hrun, (order_lifecycle rfl rfl hrun).1 finalizedOnce [] (List.append_nil _).symm⟩

theorem finalized_twice :
    let _ := sampleJose
    let _ := sampleLibrary
    (run AcmeServer.step { db := readyAcme } finalizedTwice).issued.map Prod.fst = ["o1", "o1"] := by
  intro _ _
  decide +kernel

end Sample

end CaManager
