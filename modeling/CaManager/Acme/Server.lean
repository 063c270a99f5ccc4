import CaManager.Acme.Api

/-!
# Handlers side by side

Requests are served at the same time, and each handler works in transactions of its own. A
handler between two of them is a thread with what it has read and what remains: making an
order commits every pending authorization by itself, a challenge is fetched between reading
the account and writing the result, and a finalization checks the order, then signs, then
writes the outcome. An event starts a handler or lets a thread run its next transaction, so
every list of events is an interleaving. Two logs, which no handler reads, record what was
issued for which order, and with whose key each challenge was found right.
-/

namespace CaManager

open Library AcmeService

inductive AcmeThread
  | ordering (orderId accountId : String) (next : ℕ) (remaining : List Identifier)
  | responding (challengeId : String) (account : AcmeAccount)
  | finalizing (order : AcmeOrder) (csr : Csr) (domains : List String)
  | signed (orderId : String) (csr : Csr) (result : Except String ℕ)
  | finished

/-- What a transaction leaves: the tables, the thread after it, and entries of the logs. -/
structure Transaction where
  db : AcmeStore
  thread : AcmeThread := .finished
  issued : Option (String × ℕ) := none
  completed : Option (String × AcmeAccount) := none

section Transactions

/-- Authorize one identifier after the other, until a pending authorization is committed or
the order is complete. A drawn text that is taken fails. -/
def authorizeNext (orderId accountId : String) (draw : ℕ → AuthorizationDraw) (now : Time) :
    ℕ → List Identifier → AcmeStore → Option (AcmeStore × AcmeThread)
  | _, [], st => some (finishOrder st orderId, .finished)
  | i, identifier :: rest, st =>
    match createAuthorization st orderId identifier accountId (draw i) now with
    | none => none
    | some st' =>
      if (reusableAuthorization st accountId identifier now).isSome then
        authorizeNext orderId accountId draw now (i + 1) rest st'
      else some (st', .ordering orderId accountId (i + 1) rest)

def beginOrder (st : AcmeStore) (accountId : String) (identifiers : List Identifier)
    (notBefore notAfter : Option Time) (w : Surroundings) : Option (AcmeStore × AcmeThread) := do
  let working ← insertOrder st w.orderId accountId identifiers notBefore notAfter w.now
  authorizeNext w.orderId accountId w.authorization w.now 0 identifiers working

/-- The challenge was checked with the key of the account, and found right. -/
def isFoundRight [Sha256] (w : Surroundings) (st : AcmeStore) (challenge : AcmeChallenge)
    (account : AcmeAccount) : Bool :=
  match st.authorizationOf challenge with
  | some auth =>
    match AcmeApi.challengeResult w challenge account auth with
    | some (.ok ()) => true
    | _ => false
  | none => false

def issuedRow (st st' : AcmeStore) : Option ℕ :=
  let certId := st.store.certificates.nextKey
  if (st'.store.certificates.get? certId).isSome then some certId else none

def AcmeThread.run [Sha256] [X509Library] (w : Surroundings) (st : AcmeStore) :
    AcmeThread → Transaction
  | .ordering orderId accountId next remaining =>
    match authorizeNext orderId accountId w.authorization w.now next remaining st with
    | some (db, thread) => { db, thread }
    | none => { db := st }
  | .responding challengeId account =>
    match st.challenges.find? challengeId with
    | none => { db := st }
    | some challenge =>
      match AcmeApi.validate w st challenge account.jwkThumbprint with
      | some (.ok db) =>
        { db, completed := if isFoundRight w st challenge account then some (challengeId, account)
              else none }
      | _ => { db := st }
  | .finalizing order csr domains =>
    match finalizeSign st order csr domains w.sign with
    | .raised _ => { db := st }
    | .failed message db =>
      { db, thread := .signed order.orderId csr (.error message)
        issued := (issuedRow st db).map (order.orderId, ·) }
    | .signed certId db =>
      { db, thread := .signed order.orderId csr (.ok certId)
        issued := (issuedRow st db).map (order.orderId, ·) }
  | .signed orderId csr (.ok certId) => { db := finalizeCommit st orderId csr certId }
  | .signed orderId _ (.error message) => { db := finalizeFail st orderId message }
  | .finished => { db := st }

end Transactions

structure AcmeServer where
  db : AcmeStore
  threads : List AcmeThread := []
  issued : List (String × ℕ) := []
  completed : List (String × AcmeAccount) := []

/-- Requests arrive, threads proceed, and the tables beside the orders may change in any way. -/
inductive AcmeEvent
  | newOrder (accountId : String) (identifiers : List Identifier)
      (notBefore notAfter : Option Time) (w : Surroundings)
  | respond (challengeId accountId : String)
  | finalize (orderId : String) (csr : Option Csr)
  | proceed (thread : ℕ) (w : Surroundings)
  | accounts (rows : Registry AcmeAccount)
  | nonces (rows : Registry AcmeNonce)
  | certificates (op : Op)
  | settings (localDomains : List (String × ℕ)) (domains : List (String × Option ℕ))
      (issuingCaId : Option String)

namespace AcmeServer

def start (s : AcmeServer) (thread : AcmeThread) : AcmeServer :=
  { s with threads := s.threads ++ [thread] }

def commit (s : AcmeServer) (i : ℕ) (t : Transaction) : AcmeServer :=
  { db := t.db, threads := s.threads.set i t.thread, issued := s.issued ++ t.issued.toList
    completed := s.completed ++ t.completed.toList }

def step [Sha256] [X509Library] (s : AcmeServer) : AcmeEvent → AcmeServer
  | .newOrder accountId identifiers notBefore notAfter w =>
    match getAccountByKid s.db accountId with
    | none => s
    | some account =>
      if identifiers = [] then s
      else
        match beginOrder s.db account.accountId identifiers notBefore notAfter w with
        | some (db, thread) => { s with db }.start thread
        | none => s
  | .respond challengeId accountId =>
    match s.db.challenges.find? challengeId, getAccountByKid s.db accountId with
    | some _, some account => s.start (.responding challengeId account)
    | _, _ => s
  | .finalize orderId csr =>
    match checkFinalize s.db orderId csr with
    | .ok (order, csr, domains) => s.start (.finalizing order csr domains)
    | .error _ => s
  | .proceed i w =>
    match s.threads[i]? with
    | some thread => s.commit i (thread.run w s.db)
    | none => s
  | .accounts rows => { s with db := { s.db with accounts := rows } }
  | .nonces rows => { s with db := { s.db with nonces := rows } }
  | .certificates op => { s with db := { s.db with store := s.db.store.apply op } }
  | .settings localDomains domains issuingCaId =>
    { s with db := { s.db with localDomains, domains, issuingCaId } }

end AcmeServer

section Validation

variable [Sha256] {w : Surroundings} {st st' : AcmeStore} {challenge : AcmeChallenge}
  {account : AcmeAccount}

theorem isFoundRight_iff : isFoundRight w st challenge account = true ↔
    ∃ auth, st.authorizationOf challenge = some auth ∧
      AcmeApi.challengeResult w challenge account auth = some (.ok ()) := by
  unfold isFoundRight
  cases hauth : st.authorizationOf challenge with
  | none => exact iff_of_false (fun h => nomatch h) (fun ⟨_, h, _⟩ => nomatch h)
  | some auth =>
    dsimp only
    split
    next hresult => exact iff_of_true rfl ⟨auth, rfl, hresult⟩
    next hresult =>
      refine iff_of_false (fun h => nomatch h) ?_
      intro ⟨_, heq, h⟩
      cases heq
      exact hresult h

theorem validate_eq_ok
    (h : AcmeApi.validate w st challenge account.jwkThumbprint = some (.ok st')) :
    ∃ check failureType auth, st.authorizationOf challenge = some auth ∧
      AcmeApi.challengeResult w challenge account auth =
        some (check (auth.identifier.value.getD "")) ∧
      validateChallenge check failureType st challenge w.now = .ok st' := by
  have hauth : ∀ check failureType, validateChallenge check failureType st challenge w.now =
      .ok st' → ∃ auth, st.authorizationOf challenge = some auth := by
    intro check failureType h
    unfold validateChallenge at h
    obtain ⟨auth, hauth, _⟩ := bind_eq_ok.mp h
    exact ⟨auth, orThrow_eq_ok.mp hauth⟩
  unfold AcmeApi.validate at h
  cases htype : challenge.type with
  | http01 =>
    rw [htype] at h
    have hok := Option.some.inj h
    obtain ⟨auth, hauth⟩ := hauth _ _ hok
    exact ⟨_, _, auth, hauth, by unfold AcmeApi.challengeResult; rw [htype], hok⟩
  | dns01 =>
    rw [htype] at h
    have hok := Option.some.inj h
    obtain ⟨auth, hauth⟩ := hauth _ _ hok
    exact ⟨_, _, auth, hauth, by unfold AcmeApi.challengeResult; rw [htype], hok⟩
  | unsupported type =>
    rw [htype] at h
    cases h

end Validation

section Alone

variable {st st' : AcmeStore} {orderId accountId : String} {draw : ℕ → AuthorizationDraw}
  {now : Time}

def orderResult (orderId : String) : Except AcmeStore Session → AcmeStore
  | .error committed => committed
  | .ok s => finishOrder s.working orderId

theorem orderResult_eq (committed : AcmeStore) (i : ℕ) (identifiers : List Identifier) :
    orderResult orderId (createAuthorizations orderId accountId draw now i identifiers
        ⟨committed, st⟩) =
      match authorizeNext orderId accountId draw now i identifiers st with
      | none => committed
      | some (db, .ordering _ _ j rest) =>
        orderResult orderId (createAuthorizations orderId accountId draw now j rest ⟨db, db⟩)
      | some (db, _) => db := by
  induction identifiers generalizing i st with
  | nil => rfl
  | cons identifier rest ih =>
    simp only [createAuthorizations, authorizeNext]
    cases createAuthorization st orderId identifier accountId (draw i) now with
    | none => rfl
    | some st₁ =>
      dsimp only
      split_ifs
      · exact ih (i + 1)
      · rfl

theorem authorizeNext_thread {i : ℕ} {identifiers : List Identifier} {t : AcmeThread}
    (h : authorizeNext orderId accountId draw now i identifiers st = some (st', t)) :
    t = .finished ∨ ∃ j rest, t = .ordering orderId accountId j rest ∧
      rest.length < identifiers.length := by
  induction identifiers generalizing i st with
  | nil =>
    unfold authorizeNext at h
    cases h
    exact .inl rfl
  | cons identifier rest ih =>
    unfold authorizeNext at h
    split at h
    · cases h
    · split_ifs at h
      · rcases ih h with hfinished | ⟨j, rest', ht, hlength⟩
        · exact .inl hfinished
        · refine .inr ⟨j, rest', ht, ?_⟩
          rw [List.length_cons]
          omega
      · cases h
        refine .inr ⟨i + 1, rest, rfl, ?_⟩
        rw [List.length_cons]
        omega

theorem snd_createOrder {identifiers : List Identifier} {notBefore notAfter : Option Time}
    (hinsert : insertOrder st orderId accountId identifiers notBefore notAfter now = some st') :
    (createOrder st orderId accountId identifiers notBefore notAfter draw now).2 =
      orderResult orderId (createAuthorizations orderId accountId draw now 0 identifiers
        ⟨st, st'⟩) := by
  unfold createOrder
  rw [hinsert]
  dsimp only
  cases createAuthorizations orderId accountId draw now 0 identifiers ⟨st, st'⟩ <;> rfl

namespace AcmeServer

variable {s : AcmeServer} {w : Surroundings}

theorem threads_commit {i : ℕ} {t : AcmeThread} {t' : Transaction} (hi : s.threads[i]? = some t) :
    (s.commit i t').threads[i]? = some t'.thread :=
  List.getElem?_set_self (List.getElem?_eq_some_iff.mp hi).choose

variable [Sha256] [X509Library]

theorem step_proceed {i : ℕ} {t : AcmeThread} (hi : s.threads[i]? = some t) :
    s.step (.proceed i w) = s.commit i (t.run w s.db) := by
  unfold step
  dsimp only
  rw [hi]

theorem run_ordering {k : ℕ} (length : ℕ) {s : AcmeServer} {i : ℕ} {remaining : List Identifier}
    (hlength : remaining.length = length)
    (hk : s.threads[k]? = some (.ordering orderId accountId i remaining)) :
    ∃ n, (run step s (List.replicate n (.proceed k w))).db =
      orderResult orderId (createAuthorizations orderId accountId w.authorization w.now i remaining
        ⟨s.db, s.db⟩) := by
  induction length using Nat.strong_induction_on generalizing s i remaining with
  | _ length ih =>
    rw [orderResult_eq]
    have hstep := step_proceed (w := w) hk
    cases hnext : authorizeNext orderId accountId w.authorization w.now i remaining s.db with
    | none =>
      refine ⟨1, ?_⟩
      rw [List.replicate_one, run_cons, run_nil, hstep]
      unfold AcmeThread.run
      dsimp only
      rw [hnext]
      rfl
    | some result =>
      obtain ⟨db, thread⟩ := result
      have hcommit : s.step (.proceed k w) = s.commit k { db, thread } := by
        rw [hstep]
        unfold AcmeThread.run
        dsimp only
        rw [hnext]
      rcases authorizeNext_thread hnext with rfl | ⟨j, rest, rfl, hless⟩
      · refine ⟨1, ?_⟩
        rw [List.replicate_one, run_cons, run_nil, hcommit]
        rfl
      · have hthread : (s.commit k { db, thread := .ordering orderId accountId j rest }).threads[k]? =
            some (.ordering orderId accountId j rest) := threads_commit hk
        obtain ⟨n, hn⟩ := ih rest.length (hlength ▸ hless) rfl hthread
        refine ⟨n + 1, ?_⟩
        rw [List.replicate_succ, run_cons, hcommit]
        exact hn

/-- Left alone, the handler of a new order makes the order as the service does. -/
theorem run_newOrder {identifiers : List Identifier} {notBefore notAfter : Option Time}
    {account : AcmeAccount} (haccount : getAccountByKid s.db accountId = some account)
    (hidentifiers : identifiers ≠ []) :
    ∃ n, (run step s (.newOrder accountId identifiers notBefore notAfter w ::
        List.replicate n (.proceed s.threads.length w))).db =
      (createOrder s.db w.orderId account.accountId identifiers notBefore notAfter
        w.authorization w.now).2 := by
  have hstep : s.step (.newOrder accountId identifiers notBefore notAfter w) =
      match beginOrder s.db account.accountId identifiers notBefore notAfter w with
      | some (db, thread) => { s with db }.start thread
      | none => s := by
    unfold step
    dsimp only
    rw [haccount]
    dsimp only
    rw [if_neg hidentifiers]
  cases hinsert : insertOrder s.db w.orderId account.accountId identifiers notBefore notAfter
      w.now with
  | none =>
    have hbegin : beginOrder s.db account.accountId identifiers notBefore notAfter w = none := by
      unfold beginOrder
      rw [hinsert]
      rfl
    refine ⟨0, ?_⟩
    unfold createOrder
    rw [List.replicate_zero, run_cons, run_nil, hstep, hbegin, hinsert]
  | some working =>
    have hbegin : beginOrder s.db account.accountId identifiers notBefore notAfter w =
        authorizeNext w.orderId account.accountId w.authorization w.now 0 identifiers working := by
      unfold beginOrder
      rw [hinsert]
      rfl
    rw [snd_createOrder hinsert, orderResult_eq]
    cases hnext : authorizeNext w.orderId account.accountId w.authorization w.now 0 identifiers
        working with
    | none =>
      refine ⟨0, ?_⟩
      rw [List.replicate_zero, run_cons, run_nil, hstep, hbegin, hnext]
    | some result =>
      obtain ⟨db, thread⟩ := result
      have hstart : s.step (.newOrder accountId identifiers notBefore notAfter w) =
          { s with db }.start thread := by
        rw [hstep, hbegin, hnext]
      rcases authorizeNext_thread hnext with rfl | ⟨j, rest, rfl, _⟩
      · refine ⟨0, ?_⟩
        rw [List.replicate_zero, run_cons, run_nil, hstart]
        rfl
      · have hlast : ({ s with db }.start (.ordering w.orderId account.accountId j rest) :
            AcmeServer).threads[s.threads.length]? =
            some (.ordering w.orderId account.accountId j rest) :=
          List.getElem?_concat_length
        obtain ⟨n, hn⟩ := run_ordering (w := w) rest.length rfl hlast
        refine ⟨n, ?_⟩
        rw [run_cons, hstart]
        exact hn

/-- Left alone, a finalization comes to what the service does in one go. -/
theorem run_finalize {csr : Option Csr} :
    (run step s [.finalize orderId csr, .proceed s.threads.length w,
        .proceed s.threads.length w]).db =
      match finalizeOrder s.db orderId csr w.sign with
      | .ok (_, db) => db
      | .error _ => s.db := by
  have hnone : s.threads[s.threads.length]? = none := List.getElem?_eq_none le_rfl
  have hidle : s.step (.proceed s.threads.length w) = s := by
    unfold step
    dsimp only
    rw [hnone]
  unfold finalizeOrder
  cases hcheck : checkFinalize s.db orderId csr with
  | error stop =>
    have hrefused : s.step (.finalize orderId csr) = s := by
      unfold step
      dsimp only
      rw [hcheck]
    rw [run_cons, hrefused, run_cons, hidle, run_cons, hidle, run_nil]
    cases stop <;> rfl
  | ok result =>
    obtain ⟨order, csr', domains⟩ := result
    obtain ⟨horder, _⟩ := checkFinalize_eq_ok.mp hcheck
    have hname : order.orderId = orderId := Registry.name_of_find? horder
    have hstart : s.step (.finalize orderId csr) = s.start (.finalizing order csr' domains) := by
      unfold step
      dsimp only
      rw [hcheck]
    have hlast : (s.start (.finalizing order csr' domains)).threads[s.threads.length]? =
        some (.finalizing order csr' domains) := List.getElem?_concat_length
    have hdb : (s.start (.finalizing order csr' domains)).db = s.db := rfl
    rw [run_cons, hstart, run_cons, step_proceed hlast, hdb, run_cons, run_nil]
    dsimp only
    cases hsign : finalizeSign s.db order csr' domains w.sign with
    | raised e =>
      have hrun : (AcmeThread.finalizing order csr' domains).run w s.db = { db := s.db } := by
        unfold AcmeThread.run
        dsimp only
        rw [hsign]
      rw [hrun, step_proceed (threads_commit hlast)]
      rfl
    | failed message db =>
      have hrun : (AcmeThread.finalizing order csr' domains).run w s.db =
          { db, thread := .signed order.orderId csr' (.error message)
            issued := (issuedRow s.db db).map (order.orderId, ·) } := by
        unfold AcmeThread.run
        dsimp only
        rw [hsign]
      rw [hrun, step_proceed (threads_commit hlast), hname]
      rfl
    | signed certId db =>
      have hrun : (AcmeThread.finalizing order csr' domains).run w s.db =
          { db, thread := .signed order.orderId csr' (.ok certId)
            issued := (issuedRow s.db db).map (order.orderId, ·) } := by
        unfold AcmeThread.run
        dsimp only
        rw [hsign]
      rw [hrun, step_proceed (threads_commit hlast), hname]
      rfl

/-- Left alone, a response validates the challenge as the service does. -/
theorem run_respond {challengeId : String} {challenge : AcmeChallenge} {account : AcmeAccount}
    (hfind : s.db.challenges.find? challengeId = some challenge)
    (haccount : getAccountByKid s.db accountId = some account) :
    (run step s [.respond challengeId accountId, .proceed s.threads.length w]).db =
      match AcmeApi.validate w s.db challenge account.jwkThumbprint with
      | some (.ok db) => db
      | _ => s.db := by
  have hstart : s.step (.respond challengeId accountId) =
      s.start (.responding challengeId account) := by
    unfold step
    dsimp only
    rw [hfind, haccount]
  have hlast : (s.start (.responding challengeId account)).threads[s.threads.length]? =
      some (.responding challengeId account) := List.getElem?_concat_length
  rw [run_cons, hstart, run_cons, step_proceed hlast, run_nil]
  have hdb : (s.start (.responding challengeId account)).db = s.db := rfl
  unfold AcmeThread.run
  dsimp only
  rw [hdb, hfind]
  dsimp only
  split <;> rfl

end AcmeServer

end Alone

section Sample

def ordering : AcmeEvent :=
  .newOrder "alice" [⟨some "dns", some "www"⟩] none none sampleSurroundings

/-- The order of Alice is made. -/
def ordered : AcmeServer :=
  let _ := sampleJose
  let _ := sampleLibrary
  run AcmeServer.step { db := sampleAcme } [ordering, .proceed 0 sampleSurroundings]

theorem run_newOrder_alice :
    let _ := sampleJose
    let _ := sampleLibrary
    ∃ n, (run AcmeServer.step { db := sampleAcme }
        (ordering :: List.replicate n (.proceed 0 sampleSurroundings))).db =
      (createOrder sampleAcme sampleSurroundings.orderId (sampleAccount "alice" "A").accountId
        [⟨some "dns", some "www"⟩] none none sampleSurroundings.authorization
        sampleSurroundings.now).2 := by
  intro _ _
  have haccount : getAccountByKid sampleAcme "alice" = some (sampleAccount "alice" "A") := rfl
  have hidentifiers : [(⟨some "dns", some "www"⟩ : Identifier)] ≠ [] := List.cons_ne_nil _ _
  exact @AcmeServer.run_newOrder "alice" { db := sampleAcme } sampleSurroundings _ _ _ none none _
    haccount hidentifiers

theorem run_respond_alice :
    let _ := sampleJose
    let _ := sampleLibrary
    ∃ challenge, ordered.db.challenges.find? "h1" = some challenge ∧
      (run AcmeServer.step ordered [.respond "h1" "alice", .proceed 1 sampleSurroundings]).db =
        match AcmeApi.validate sampleSurroundings ordered.db challenge "A" with
        | some (.ok db) => db
        | _ => ordered.db := by
  intro _ _
  have haccount : getAccountByKid ordered.db "alice" = some (sampleAccount "alice" "A") := rfl
  obtain ⟨challenge, hfind⟩ : ∃ challenge, ordered.db.challenges.find? "h1" = some challenge :=
    ⟨_, rfl⟩
  have hthreads : ordered.threads.length = 1 := by decide +kernel
  have hrun := AcmeServer.run_respond (w := sampleSurroundings) hfind haccount
  rw [hthreads] at hrun
  exact ⟨challenge, hfind, hrun⟩

end Sample

end CaManager
