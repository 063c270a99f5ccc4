import CaManager.Library.Machines
import CaManager.Scep.Service
import CaManager.Store.Operations

/-!
# SCEP transactions

Enrolments, approvals and rejections are requests of their own, each a thread that looks up the
stored request of a transaction first and commits what it makes of it later; other threads may
come in between. A transaction has one row because its identifier is unique in the table. That a
request is settled once rests on its status when it was looked up.
-/

namespace CaManager

open Library

namespace SCEPService

variable [X509Library]

/-- The transaction and the request of a message that gets as far as the lookup. -/
def admitted (svc : SCEPService) (message : ScepMessage) : Option (String × Csr) := do
  if message.isSignedData = false then none
  let request ← openContent svc message.content
  let transactionId ← CertificateService.nonEmpty message.transactionId
  if challengePasses svc (challengeOf message request) = false then none
  return (transactionId, request.csr)

/-- What `_auto_approve_request` signs, for a number of days. -/
def enrolledCertificate (svc : SCEPService) (csr : Csr) (validityDays : ℤ) (d : Draw) :
    Except PyError X509 := do
  let requested ← csr.extensions
  let builder : CertificateBuilder :=
    { subject := csr.subject, issuer := svc.caCert.subject, publicKey := csr.publicKey
      serial := d.serial.value, notBefore := d.now, notAfter := d.now + days validityDays
      extensions := requestedExtensions requested ++
        [⟨.basicConstraints false none, true⟩, ⟨.subjectKeyIdentifier csr.publicKey, false⟩,
         ⟨.authorityKeyIdentifier svc.caCert.publicKey, false⟩] }
  builder.sign svc.caKey

theorem autoApproveRequest_eq (svc : SCEPService) (st : Store) (csr : Csr) (d : Draw) :
    svc.autoApproveRequest st csr d = do
      let x ← svc.enrolledCertificate csr 365 d
      let st ← st.addCertificate (svc.enrolledRow x d.refid)
      return (x, st) := by
  unfold autoApproveRequest enrolledCertificate
  cases csr.extensions with
  | error e => rfl
  | ok requested => rfl

end SCEPService

namespace ScepTransactions

/-- What a settlement writes: through the service, with a certificate where it approves, or
through a route. -/
inductive Settlement
  | approval (certificate : Certificate) (approvedBy : String) (now : Time)
  | rejection (reason : String)
  | approvalByRoute (username : String) (now : Time)
  | rejectionByRoute (reason username : String) (now : Time)

namespace Settlement

def status : Settlement → ScepStatus
  | approval .. | approvalByRoute .. => .approved
  | rejection _ | rejectionByRoute .. => .rejected

def certificate? : Settlement → Option Certificate
  | approval certificate .. => some certificate
  | _ => none

def write (s : Settlement) (r : ScepRequest) : ScepRequest :=
  match s with
  | approval certificate approvedBy now =>
    { r with
      status := s.status, certRefid := some certificate.refid, approvedBy := some approvedBy
      approvedAt := some now }
  | rejection reason => { r with status := s.status, rejectionReason := some reason }
  | approvalByRoute username now =>
    { r with status := s.status, approvedBy := some username, approvedAt := some now }
  | rejectionByRoute reason username now =>
    { r with
      status := s.status, rejectionReason := some reason, approvedBy := some username
      approvedAt := some now }

end Settlement

/-- A request between two of its accesses to the database: an enrolment that has looked its
transaction up, one that is about to be stored, approved with a certificate or pending, and a
settlement of a request that was found pending. -/
inductive Thread
  | enrolling (svc : SCEPService) (transactionId : String) (csr : Csr) (clientIp : String)
      (d : Draw) (found : Option ScepRequest)
  | storing (transactionId : String) (csr : Csr) (clientIp : String)
      (approval : Option (Certificate × Time))
  | settling (found : ScepRequest) (settlement : Settlement)

/-- The tables, the threads, and the certificates that were ever stored, each with its
transaction. -/
structure Site where
  store : Store
  requests : Table ScepRequest := ∅
  threads : ℕ → Option Thread := fun _ => none
  issued : List (String × String) := []

namespace Site

def setThread (m : Site) (k : ℕ) (t : Option Thread) : Site :=
  { m with threads := Function.update m.threads k t }

def requestOf (m : Site) (transactionId : String) : Option ScepRequest :=
  m.requests.first fun r => r.transactionId = transactionId

def issue (m : Site) (transactionId : String) : Option Certificate → Option Site
  | none => some m
  | some c =>
    (m.store.addCertificate c).toOption.map fun store =>
      { m with store, issued := (transactionId, c.refid) :: m.issued }

def issuedFor (m : Site) (transactionId : String) : ℕ :=
  m.issued.countP fun i => i.1 = transactionId

end Site

variable [X509Library]

def storedRow (transactionId : String) (csr : Csr) (clientIp : String) :
    Option (Certificate × Time) → ScepRequest
  | none =>
    { transactionId, csr, subject := some (X509Library.rfc4514String csr.subject)
      clientIp := some clientIp }
  | some (c, now) =>
    { transactionId, csr, subject := some (X509Library.rfc4514String csr.subject)
      clientIp := some clientIp
      status := .approved, certRefid := some c.refid, approvedBy := some "auto"
      approvedAt := some now }

def newThread (svc : SCEPService) (transactionId : String) (csr : Csr) (clientIp : String)
    (d : Draw) : Option Thread :=
  if svc.autoApprove then
    (svc.enrolledCertificate csr 365 d).toOption.map fun x =>
      .storing transactionId csr clientIp (some (svc.enrolledRow x d.refid, d.now))
  else some (.storing transactionId csr clientIp none)

/-- What an enrolment does after the lookup: a request that was found is answered, unless it is
approved and its certificate gone. -/
def afterLookup (m : Site) (svc : SCEPService) (transactionId : String) (csr : Csr)
    (clientIp : String) (d : Draw) (found : Option ScepRequest) : Option Thread :=
  match found with
  | none => newThread svc transactionId csr clientIp d
  | some r =>
    match r.status with
    | .rejected | .pending => none
    | .approved =>
      match CertificateService.nonEmpty r.certRefid with
      | none => none
      | some refid =>
        if (m.store.certificates.first fun c => c.refid = refid).isSome then none
        else newThread svc transactionId csr clientIp d

/-- The commit of a new request. A second row for its transaction is refused, and with it the
certificate. -/
def commitNew (m : Site) (transactionId : String) (csr : Csr) (clientIp : String)
    (approval : Option (Certificate × Time)) : Site :=
  if (m.requestOf transactionId).isSome then m
  else
    match m.issue transactionId (approval.map Prod.fst) with
    | none => m
    | some m' =>
      { m' with requests := m'.requests.insert (storedRow transactionId csr clientIp approval) }

omit [X509Library] in
def commitSettlement (m : Site) (found : ScepRequest) (settlement : Settlement) : Site :=
  match m.issue found.transactionId settlement.certificate? with
  | none => m
  | some m' => { m' with requests := m'.requests.update found.id settlement.write }

/-- A request arrives and makes its lookup, a thread goes on to its next access, or a stored
certificate is deleted. -/
inductive Event
  | enrol (k : ℕ) (svc : SCEPService) (message : ScepMessage) (clientIp : String) (d : Draw)
  | approve (k : ℕ) (svc : SCEPService) (transactionId approvedBy : String) (validityDays : ℤ)
      (d : Draw)
  | reject (k : ℕ) (transactionId reason : String)
  | approveRoute (k : ℕ) (requestId : ℕ) (username : String) (now : Time)
  | rejectRoute (k : ℕ) (requestId : ℕ) (reason username : String) (now : Time)
  | advance (k : ℕ)
  | deleteCertificate (certId : ℕ)

omit [X509Library] in
def Site.settle (m : Site) (k : ℕ) (found : Option ScepRequest)
    (settlement : ScepRequest → Option Settlement) : Site :=
  match found.filter fun r => r.status = .pending with
  | none => m
  | some r => m.setThread k ((settlement r).map (.settling r))

def step (m : Site) : Event → Site
  | .enrol k svc message clientIp d =>
    m.setThread k ((svc.admitted message).map fun (transactionId, csr) =>
      .enrolling svc transactionId csr clientIp d (m.requestOf transactionId))
  | .approve k svc transactionId approvedBy validityDays d =>
    m.settle k (m.requestOf transactionId) fun r =>
      (svc.enrolledCertificate r.csr validityDays d).toOption.map fun x =>
        .approval (svc.enrolledRow x d.refid) approvedBy d.now
  | .reject k transactionId reason =>
    m.settle k (m.requestOf transactionId) fun _ => some (.rejection reason)
  | .approveRoute k requestId username now =>
    m.settle k (m.requests.get? requestId) fun _ => some (.approvalByRoute username now)
  | .rejectRoute k requestId reason username now =>
    m.settle k (m.requests.get? requestId) fun _ => some (.rejectionByRoute reason username now)
  | .advance k =>
    match m.threads k with
    | none => m
    | some (.enrolling svc transactionId csr clientIp d found) =>
      m.setThread k (afterLookup m svc transactionId csr clientIp d found)
    | some (.storing transactionId csr clientIp approval) =>
      (commitNew m transactionId csr clientIp approval).setThread k none
    | some (.settling found settlement) => (commitSettlement m found settlement).setThread k none
  | .deleteCertificate certId =>
    { m with store := (CertificateService.deleteCertificate m.store certId).2 }

/-- A step after which every transaction has at most one row and was given at most one
certificate, and no request that was approved or rejected has another status. -/
structure Lawful (m : Site) (e : Event) : Prop where
  oneCertificate : ∀ transactionId, (step m e).issuedFor transactionId ≤ 1
  oneRequest : ∀ r ∈ (step m e).requests, ∀ r' ∈ (step m e).requests,
    r.transactionId = r'.transactionId → r = r'
  settled : ∀ r ∈ m.requests, r.status ≠ .pending →
    ∃ r' ∈ (step m e).requests, r'.id = r.id ∧ r'.transactionId = r.transactionId ∧
      r'.status = r.status

omit [X509Library] in
/-- The commit of a settlement whose request has been settled since the lookup: the other way, or
with a certificate where another is to be stored. -/
def Overtaken (m : Site) : Event → Prop
  | .advance k =>
    ∃ found settlement r, m.threads k = some (.settling found settlement) ∧
      m.requests.get? found.id = some r ∧ r.status ≠ .pending ∧
      (∀ c ∈ settlement.certificate?, ∃ st, m.store.addCertificate c = .ok st) ∧
      (r.status ≠ settlement.status ∨
        settlement.certificate?.isSome = true ∧ r.certRefid.isSome = true)
  | _ => False

/-- What every lawful run keeps: a transaction was given one certificate if its row names one and
none otherwise, and what a settlement has looked up is still there. -/
structure Orderly (m : Site) : Prop where
  unique : ∀ r ∈ m.requests, ∀ r' ∈ m.requests, r.transactionId = r'.transactionId → r = r'
  bare : ∀ r ∈ m.requests, r.status = .pending → r.certRefid = none
  unissued : ∀ transactionId,
    (∀ r ∈ m.requests, r.transactionId = transactionId → r.certRefid = none) →
      m.issuedFor transactionId = 0
  once : ∀ r ∈ m.requests, r.certRefid ≠ none → m.issuedFor r.transactionId = 1
  found : ∀ k found settlement, m.threads k = some (.settling found settlement) →
    ∃ r ∈ m.requests, r.id = found.id ∧ r.transactionId = found.transactionId

def KeepsSettled (m m' : Site) : Prop :=
  ∀ r ∈ m.requests, r.status ≠ .pending → ∃ r' ∈ m'.requests, r'.id = r.id ∧
    r'.transactionId = r.transactionId ∧ r'.status = r.status

section Commits

omit [X509Library]

variable {m m' : Site} {k : ℕ} {t : Option Thread} {transactionId clientIp : String} {csr : Csr}
  {approval : Option (Certificate × Time)} {certificate : Option Certificate}
  {found r r' : ScepRequest} {settlement : Settlement} {given : Bool}

theorem keepsSettled_of_eq (h : m'.requests = m.requests) : KeepsSettled m m' :=
  fun r hr _ => ⟨r, by rw [h]; exact hr, rfl, rfl, rfl⟩

theorem KeepsSettled.setThread (h : KeepsSettled m m') : KeepsSettled m (m'.setThread k t) := h

theorem Orderly.issuedFor_le (h : Orderly m) (transactionId : String) :
    m.issuedFor transactionId ≤ 1 := by
  by_cases hnone : ∀ r ∈ m.requests, r.transactionId = transactionId → r.certRefid = none
  · rw [h.unissued transactionId hnone]
    exact Nat.zero_le 1
  · push Not at hnone
    obtain ⟨r, hr, rfl, hsome⟩ := hnone
    exact (h.once r hr hsome).le

theorem Orderly.setThread (h : Orderly m)
    (ht : ∀ found settlement, t = some (.settling found settlement) →
      ∃ r ∈ m.requests, r.id = found.id ∧ r.transactionId = found.transactionId) :
    Orderly (m.setThread k t) where
  unique := h.unique
  bare := h.bare
  unissued := h.unissued
  once := h.once
  found k' found settlement hthread := by
    change Function.update m.threads k t k' = _ at hthread
    by_cases hk : k' = k
    · rw [hk, Function.update_self] at hthread
      exact ht found settlement hthread
    · rw [Function.update_of_ne hk] at hthread
      exact h.found k' found settlement hthread

theorem Orderly.finish (h : Orderly m) : Orderly (m.setThread k none) :=
  h.setThread fun _ _ hnone => by cases hnone

theorem issuedFor_cons (i : String × String) : ({ m with issued := i :: m.issued } : Site).issuedFor
    transactionId = m.issuedFor transactionId + if i.1 = transactionId then 1 else 0 := by
  simp [Site.issuedFor, List.countP_cons]

theorem issue_eq_some (h : m.issue transactionId certificate = some m') :
    m'.requests = m.requests ∧ m'.threads = m.threads ∧
      ∀ other, m'.issuedFor other = m.issuedFor other +
        if certificate.isSome = true ∧ transactionId = other then 1 else 0 := by
  cases certificate with
  | none =>
    obtain rfl := Option.some.inj h
    exact ⟨rfl, rfl, fun other => by simp⟩
  | some c =>
    obtain ⟨store, _, rfl⟩ := Option.map_eq_some_iff.mp h
    refine ⟨rfl, rfl, fun other => ?_⟩
    simp only [Option.isSome_some, true_and]
    exact issuedFor_cons (m := { m with store }) (transactionId, c.refid)

theorem write_eq (settlement : Settlement) (r : ScepRequest) :
    (settlement.write r).transactionId = r.transactionId ∧
    (settlement.write r).status = settlement.status ∧
    (settlement.write r).certRefid =
      (settlement.certificate?.map Certificate.refid).or r.certRefid := by
  cases settlement <;> exact ⟨rfl, rfl, rfl⟩

theorem status_write_ne : settlement.status ≠ .pending := by
  cases settlement <;> exact ScepStatus.noConfusion

theorem commitSettlement_of_issue (h : m.issue found.transactionId settlement.certificate? = some m') :
    commitSettlement m found settlement =
      { m' with requests := m.requests.update found.id settlement.write } := by
  unfold commitSettlement
  rw [h, ← (issue_eq_some h).1]

/-- A row is stored for a transaction that has none, with its certificate if it names one. -/
structure Adds (m m' : Site) (r : ScepRequest) : Prop where
  unknown : ∀ a ∈ m.requests, a.transactionId ≠ r.transactionId
  mem_iff : ∀ a, a ∈ m'.requests ↔ a ∈ m.requests ∨ a = r
  bare : r.status = .pending → r.certRefid = none
  threads : m'.threads = m.threads
  issued : ∀ other, m'.issuedFor other = m.issuedFor other +
    if r.certRefid.isSome = true ∧ r.transactionId = other then 1 else 0

theorem Adds.unique (hadds : Adds m m' r) (h : Orderly m) {a b : ScepRequest}
    (ha : a ∈ m'.requests) (hb : b ∈ m'.requests) (hsame : a.transactionId = b.transactionId) :
    a = b := by
  rcases (hadds.mem_iff a).mp ha with ha | rfl <;> rcases (hadds.mem_iff b).mp hb with hb | rfl
  · exact h.unique a ha b hb hsame
  · exact absurd hsame (hadds.unknown a ha)
  · exact absurd hsame.symm (hadds.unknown b hb)
  · rfl

theorem Adds.unissued (hadds : Adds m m' r) (h : Orderly m)
    (hnone : ∀ a ∈ m'.requests, a.transactionId = transactionId → a.certRefid = none) :
    m'.issuedFor transactionId = 0 := by
  have hbefore : m.issuedFor transactionId = 0 :=
    h.unissued transactionId fun a ha => hnone a ((hadds.mem_iff a).mpr (.inl ha))
  have hother : ¬(r.certRefid.isSome = true ∧ r.transactionId = transactionId) := by
    intro hgiven
    have hnew := hnone r ((hadds.mem_iff r).mpr (.inr rfl)) hgiven.2
    rw [hnew] at hgiven
    cases hgiven.1
  rw [hadds.issued, hbefore, if_neg hother]

theorem Adds.once (hadds : Adds m m' r) (h : Orderly m) {a : ScepRequest}
    (ha : a ∈ m'.requests) (hsome : a.certRefid ≠ none) : m'.issuedFor a.transactionId = 1 := by
  rw [hadds.issued]
  rcases (hadds.mem_iff a).mp ha with ha | rfl
  · rw [h.once a ha hsome, if_neg fun hgiven => hadds.unknown a ha hgiven.2.symm]
  · have hzero : m.issuedFor a.transactionId = 0 :=
      h.unissued _ fun b hb hsame => absurd hsame (hadds.unknown b hb)
    rw [hzero, if_pos ⟨Option.isSome_iff_ne_none.mpr hsome, rfl⟩]

theorem Adds.orderly (hadds : Adds m m' r) (h : Orderly m) : Orderly m' where
  unique _ ha _ hb := hadds.unique h ha hb
  bare a ha := by
    rcases (hadds.mem_iff a).mp ha with ha | rfl
    · exact h.bare a ha
    · exact hadds.bare
  unissued _ := hadds.unissued h
  once _ := hadds.once h
  found k found settlement hthread := by
    rw [hadds.threads] at hthread
    obtain ⟨a, ha, hfound⟩ := h.found k found settlement hthread
    exact ⟨a, (hadds.mem_iff a).mpr (.inl ha), hfound⟩

theorem Adds.keepsSettled (hadds : Adds m m' r) : KeepsSettled m m' :=
  fun a ha _ => ⟨a, (hadds.mem_iff a).mpr (.inl ha), rfl, rfl, rfl⟩

/-- A row is replaced by one of the same transaction, which may be given a certificate with it. -/
structure Replaces (m m' : Site) (r r' : ScepRequest) (given : Bool) : Prop where
  mem : r ∈ m.requests
  mem_iff : ∀ a, a ∈ m'.requests ↔ a ∈ m.requests ∧ a.id ≠ r.id ∨ a = r'
  id : r'.id = r.id
  transactionId : r'.transactionId = r.transactionId
  threads : m'.threads = m.threads
  issued : ∀ other, m'.issuedFor other = m.issuedFor other +
    if given = true ∧ r.transactionId = other then 1 else 0
  given_of_refid : given = false → r'.certRefid = r.certRefid
  refid_of_given : given = true → r'.certRefid ≠ none ∧ r.certRefid = none

theorem Replaces.mem_new (hreplaces : Replaces m m' r r' given) : r' ∈ m'.requests :=
  (hreplaces.mem_iff r').mpr (.inr rfl)

theorem Replaces.successor (hreplaces : Replaces m m' r r' given) {a : ScepRequest}
    (ha : a ∈ m.requests) : a ∈ m'.requests ∧ a.id ≠ r.id ∨ a = r := by
  by_cases hid : a.id = r.id
  · exact .inr (Table.eq_of_key_eq ha hreplaces.mem hid)
  · exact .inl ⟨(hreplaces.mem_iff a).mpr (.inl ⟨ha, hid⟩), hid⟩

theorem Replaces.unique (hreplaces : Replaces m m' r r' given) (h : Orderly m) {a b : ScepRequest}
    (ha : a ∈ m'.requests) (hb : b ∈ m'.requests) (hsame : a.transactionId = b.transactionId) :
    a = b := by
  have hother : ∀ c ∈ m.requests, c.id ≠ r.id → c.transactionId ≠ r'.transactionId := by
    intro c hc hid hsame
    rw [h.unique c hc r hreplaces.mem (hsame.trans hreplaces.transactionId)] at hid
    exact hid rfl
  rcases (hreplaces.mem_iff a).mp ha with ⟨ha, haid⟩ | rfl <;>
    rcases (hreplaces.mem_iff b).mp hb with ⟨hb, hbid⟩ | rfl
  · exact h.unique a ha b hb hsame
  · exact absurd hsame (hother a ha haid)
  · exact absurd hsame.symm (hother b hb hbid)
  · rfl

theorem Replaces.unissued (hreplaces : Replaces m m' r r' given) (h : Orderly m)
    (hnone : ∀ a ∈ m'.requests, a.transactionId = transactionId → a.certRefid = none) :
    m'.issuedFor transactionId = 0 := by
  have hnew := hnone r' hreplaces.mem_new
  have hbefore : m.issuedFor transactionId = 0 := by
    refine h.unissued transactionId fun a ha hsame => ?_
    rcases hreplaces.successor ha with ⟨ha', _⟩ | rfl
    · exact hnone a ha' hsame
    · cases given with
      | false => exact hreplaces.given_of_refid rfl ▸ hnew (hreplaces.transactionId.trans hsame)
      | true => exact (hreplaces.refid_of_given rfl).2
  have hother : ¬(given = true ∧ r.transactionId = transactionId) := by
    intro hgiven
    exact (hreplaces.refid_of_given hgiven.1).1 (hnew (hreplaces.transactionId.trans hgiven.2))
  rw [hreplaces.issued, hbefore, if_neg hother]

theorem Replaces.once (hreplaces : Replaces m m' r r' given) (h : Orderly m) {a : ScepRequest}
    (ha : a ∈ m'.requests) (hsome : a.certRefid ≠ none) : m'.issuedFor a.transactionId = 1 := by
  rw [hreplaces.issued]
  rcases (hreplaces.mem_iff a).mp ha with ⟨ha, hid⟩ | rfl
  · have hother : ¬(given = true ∧ r.transactionId = a.transactionId) := by
      intro hgiven
      rw [h.unique a ha r hreplaces.mem hgiven.2.symm] at hid
      exact hid rfl
    rw [h.once a ha hsome, if_neg hother]
  · rw [hreplaces.transactionId]
    cases given with
    | false =>
      rw [hreplaces.given_of_refid rfl] at hsome
      rw [h.once r hreplaces.mem hsome, if_neg (by simp)]
    | true =>
      -- what is given now is the first certificate of the transaction
      have hzero : m.issuedFor r.transactionId = 0 :=
        h.unissued _ fun b hb hsame => by
          rw [h.unique b hb r hreplaces.mem hsame, (hreplaces.refid_of_given rfl).2]
      rw [hzero, if_pos ⟨rfl, rfl⟩]

theorem Replaces.lookedUp (hreplaces : Replaces m m' r r' given) (h : Orderly m)
    (hthread : m'.threads k = some (.settling found settlement)) :
    ∃ a ∈ m'.requests, a.id = found.id ∧ a.transactionId = found.transactionId := by
  rw [hreplaces.threads] at hthread
  obtain ⟨a, ha, hid, htransaction⟩ := h.found k found settlement hthread
  rcases hreplaces.successor ha with ⟨ha', _⟩ | rfl
  · exact ⟨a, ha', hid, htransaction⟩
  · exact ⟨r', hreplaces.mem_new, hreplaces.id.trans hid,
      hreplaces.transactionId.trans htransaction⟩

theorem Replaces.orderly (hreplaces : Replaces m m' r r' given) (h : Orderly m)
    (hstatus : r'.status ≠ .pending) : Orderly m' where
  unique _ ha _ hb := hreplaces.unique h ha hb
  bare a ha hpending := by
    rcases (hreplaces.mem_iff a).mp ha with ⟨ha, _⟩ | rfl
    · exact h.bare a ha hpending
    · exact absurd hpending hstatus
  unissued _ := hreplaces.unissued h
  once _ := hreplaces.once h
  found _ _ _ := hreplaces.lookedUp h

theorem Replaces.keepsSettled (hreplaces : Replaces m m' r r' given)
    (hstatus : r.status ≠ .pending → r'.status = r.status) : KeepsSettled m m' := by
  intro a ha hsettled
  rcases hreplaces.successor ha with ⟨ha', _⟩ | rfl
  · exact ⟨a, ha', rfl, rfl, rfl⟩
  · exact ⟨r', hreplaces.mem_new, hreplaces.id, hreplaces.transactionId, hstatus hsettled⟩

theorem replaces_commitSettlement (hr : r ∈ m.requests) (hid : r.id = found.id)
    (htransaction : r.transactionId = found.transactionId)
    (hissue : m.issue found.transactionId settlement.certificate? = some m')
    (hbare : settlement.certificate?.isSome = true → r.certRefid = none) :
    Replaces m (commitSettlement m found settlement) r
      { settlement.write r with id := found.id } settlement.certificate?.isSome := by
  obtain ⟨hrequests, hthreads, hissued⟩ := issue_eq_some hissue
  obtain ⟨hwriteTransaction, -, hwriteRefid⟩ := write_eq settlement r
  rw [commitSettlement_of_issue hissue]
  constructor
  case mem => exact hr
  case mem_iff =>
    intro a
    have hget : m.requests.get? found.id = some r := Table.get?_eq_some_iff.mpr ⟨hr, hid⟩
    change a ∈ m.requests.update found.id settlement.write ↔ _
    rw [Table.mem_update, hget, hid]
    simp only [Option.some.injEq, exists_eq_left']
    rfl
  case id => exact hid.symm
  case transactionId => exact hwriteTransaction
  case threads => exact hthreads
  case issued =>
    rw [htransaction]
    exact hissued
  case given_of_refid =>
    intro hnone
    rw [Option.isSome_eq_false_iff, Option.isNone_iff_eq_none] at hnone
    rw [hnone] at hwriteRefid
    exact hwriteRefid
  case refid_of_given =>
    intro hsome
    obtain ⟨c, hc⟩ := Option.isSome_iff_exists.mp hsome
    rw [hc] at hwriteRefid
    exact ⟨hwriteRefid ▸ Option.some_ne_none c.refid, hbare hsome⟩

/-- A settlement of a request that is still pending, or was settled the same way and has no
certificate yet where it is to be given one. -/
theorem orderly_commitSettlement (h : Orderly m) (hfound : ∃ r ∈ m.requests, r.id = found.id ∧
      r.transactionId = found.transactionId)
    (hissue : m.issue found.transactionId settlement.certificate? = some m')
    (htimely : ∀ r, m.requests.get? found.id = some r → r.status = .pending ∨
      r.status = settlement.status ∧
        (settlement.certificate?.isSome = true → r.certRefid = none)) :
    Orderly (commitSettlement m found settlement) ∧
      KeepsSettled m (commitSettlement m found settlement) := by
  obtain ⟨r, hr, hid, htransaction⟩ := hfound
  have htimely := htimely r (Table.get?_eq_some_iff.mpr ⟨hr, hid⟩)
  have hwriteStatus : (settlement.write r).status = settlement.status := (write_eq settlement r).2.1
  -- a settlement with a certificate is the first to bring one
  have hbare : settlement.certificate?.isSome = true → r.certRefid = none := fun hsome =>
    htimely.elim (h.bare r hr) fun hsame => hsame.2 hsome
  have hreplaces := replaces_commitSettlement hr hid htransaction hissue hbare
  constructor
  · refine hreplaces.orderly h fun hpending => ?_
    exact status_write_ne (hwriteStatus.symm.trans hpending)
  · refine hreplaces.keepsSettled fun hsettled => ?_
    exact hwriteStatus.trans (htimely.resolve_left hsettled).1.symm

end Commits

section Steps

variable {m : Site} {e : Event} {k : ℕ} {transactionId clientIp : String} {csr : Csr}
  {approval : Option (Certificate × Time)}

theorem storedRow_transactionId :
    (storedRow transactionId csr clientIp approval).transactionId = transactionId := by
  cases approval <;> rfl

theorem storedRow_certRefid : (storedRow transactionId csr clientIp approval).certRefid =
    approval.map fun a => a.1.refid := by
  cases approval <;> rfl

theorem bare_storedRow (h : (storedRow transactionId csr clientIp approval).status = .pending) :
    (storedRow transactionId csr clientIp approval).certRefid = none := by
  cases approval with
  | none => rfl
  | some a => cases h

theorem adds_commitNew {m' : Site} (csr : Csr) (clientIp : String)
    (hknown : ¬(m.requestOf transactionId).isSome = true)
    (hissue : m.issue transactionId (approval.map Prod.fst) = some m') :
    Adds m (commitNew m transactionId csr clientIp approval)
      { storedRow transactionId csr clientIp approval with id := m'.requests.nextKey } := by
  obtain ⟨hrequests, hthreads, hissued⟩ := issue_eq_some hissue
  have hcommit : commitNew m transactionId csr clientIp approval =
      { m' with requests := m'.requests.insert (storedRow transactionId csr clientIp approval) } := by
    rw [commitNew, if_neg hknown, hissue]
  have hrefid : (storedRow transactionId csr clientIp approval).certRefid.isSome =
      (approval.map Prod.fst).isSome := by
    rw [storedRow_certRefid, Option.isSome_map, Option.isSome_map]
  rw [hcommit]
  constructor
  case unknown =>
    intro a ha hsame
    have hknows : a.transactionId = transactionId := hsame.trans storedRow_transactionId
    exact hknown (List.find?_isSome.mpr ⟨a, ha, decide_eq_true hknows⟩)
  case mem_iff =>
    intro a
    change a ∈ m'.requests.insert (storedRow transactionId csr clientIp approval) ↔ _
    rw [Table.mem_insert, hrequests]
    rfl
  case bare => exact bare_storedRow
  case threads => exact hthreads
  case issued =>
    intro other
    change m'.issuedFor other = _ + if (storedRow transactionId csr clientIp approval).certRefid.isSome
      = true ∧ (storedRow transactionId csr clientIp approval).transactionId = other then 1 else 0
    rw [hrefid, storedRow_transactionId]
    exact hissued other

theorem orderly_commitNew (h : Orderly m) :
    Orderly (commitNew m transactionId csr clientIp approval) ∧
      KeepsSettled m (commitNew m transactionId csr clientIp approval) := by
  by_cases hknown : (m.requestOf transactionId).isSome = true
  · rw [commitNew, if_pos hknown]
    exact ⟨h, keepsSettled_of_eq rfl⟩
  · cases hissue : m.issue transactionId (approval.map Prod.fst) with
    | none =>
      rw [commitNew, if_neg hknown, hissue]
      exact ⟨h, keepsSettled_of_eq rfl⟩
    | some m' =>
      have hadds := adds_commitNew csr clientIp hknown hissue
      exact ⟨hadds.orderly h, hadds.keepsSettled⟩

omit [X509Library] in
theorem orderly_settle {found : Option ScepRequest} {settlement : ScepRequest → Option Settlement}
    (h : Orderly m) (hfound : ∀ r ∈ found, r ∈ m.requests) :
    Orderly (m.settle k found settlement) ∧
      KeepsSettled m (m.settle k found settlement) := by
  unfold Site.settle
  split
  next => exact ⟨h, keepsSettled_of_eq rfl⟩
  next r hr =>
    refine ⟨h.setThread fun found' settlement' hthread => ?_, keepsSettled_of_eq rfl⟩
    obtain ⟨s, _, hs⟩ := Option.map_eq_some_iff.mp hthread
    cases hs
    exact ⟨r, hfound r (Option.filter_eq_some_iff.mp hr).1, rfl, rfl⟩

theorem not_settling_of_newThread {svc : SCEPService} {d : Draw} {found : ScepRequest}
    {settlement : Settlement} :
    newThread svc transactionId csr clientIp d ≠ some (.settling found settlement) := by
  unfold newThread
  split_ifs
  · intro h
    obtain ⟨x, _, hx⟩ := Option.map_eq_some_iff.mp h
    cases hx
  · exact fun h => nomatch h

theorem not_settling_of_afterLookup {svc : SCEPService} {d : Draw} {looked : Option ScepRequest}
    {found : ScepRequest} {settlement : Settlement} :
    afterLookup m svc transactionId csr clientIp d looked ≠ some (.settling found settlement) := by
  unfold afterLookup
  split
  next => exact not_settling_of_newThread
  next =>
    split
    next => exact fun h => nomatch h
    next => exact fun h => nomatch h
    next =>
      split
      next => exact fun h => nomatch h
      next =>
        split_ifs
        · exact fun h => nomatch h
        · exact not_settling_of_newThread

omit [X509Library] in
theorem orderly_advance_settling {found : ScepRequest} {settlement : Settlement} (h : Orderly m)
    (hthread : m.threads k = some (.settling found settlement))
    (hovertaken : ¬Overtaken m (.advance k)) :
    Orderly (commitSettlement m found settlement) ∧
      KeepsSettled m (commitSettlement m found settlement) := by
  cases hissue : m.issue found.transactionId settlement.certificate? with
  | none =>
    have hfails : commitSettlement m found settlement = m := by
      simp only [commitSettlement, hissue]
    rw [hfails]
    exact ⟨h, keepsSettled_of_eq rfl⟩
  | some m' =>
    have hadds : ∀ c ∈ settlement.certificate?, ∃ st, m.store.addCertificate c = .ok st := by
      intro c hc
      rw [Option.mem_def.mp hc] at hissue
      obtain ⟨store, hstore, _⟩ := Option.map_eq_some_iff.mp hissue
      exact ⟨store, toOption_eq_some.mp hstore⟩
    refine orderly_commitSettlement h (h.found k found settlement hthread) hissue ?_
    intro r hget
    by_contra hlate
    push Not at hlate
    refine hovertaken ⟨found, settlement, r, hthread, hget, hlate.1, hadds, ?_⟩
    by_cases hstatus : r.status = settlement.status
    · obtain ⟨hsome, hne⟩ := hlate.2 hstatus
      exact .inr ⟨hsome, Option.isSome_iff_ne_none.mpr hne⟩
    · exact .inl hstatus

theorem orderly_step (h : Orderly m) (hovertaken : ¬Overtaken m e) :
    Orderly (step m e) ∧ KeepsSettled m (step m e) := by
  cases e with
  | enrol k svc message clientIp d =>
    refine ⟨h.setThread fun found settlement hthread => ?_, keepsSettled_of_eq rfl⟩
    obtain ⟨_, _, hs⟩ := Option.map_eq_some_iff.mp hthread
    cases hs
  | approve k svc transactionId approvedBy validityDays d =>
    exact orderly_settle h fun r hr => Table.mem_of_first hr
  | reject k transactionId reason => exact orderly_settle h fun r hr => Table.mem_of_first hr
  | approveRoute k requestId username now =>
    exact orderly_settle h fun r hr => Table.mem_of_get? hr
  | rejectRoute k requestId reason username now =>
    exact orderly_settle h fun r hr => Table.mem_of_get? hr
  | advance k =>
    simp only [step]
    cases hthread : m.threads k with
    | none => exact ⟨h, keepsSettled_of_eq rfl⟩
    | some t =>
      cases t with
      | enrolling svc transactionId csr clientIp d found =>
        refine ⟨h.setThread fun found settlement hafter => ?_, keepsSettled_of_eq rfl⟩
        exact absurd hafter not_settling_of_afterLookup
      | storing transactionId csr clientIp approval =>
        obtain ⟨horderly, hkeeps⟩ :
            Orderly (commitNew m transactionId csr clientIp approval) ∧
              KeepsSettled m (commitNew m transactionId csr clientIp approval) :=
          orderly_commitNew h
        exact ⟨horderly.finish, hkeeps.setThread⟩
      | settling found settlement =>
        obtain ⟨horderly, hkeeps⟩ := orderly_advance_settling h hthread hovertaken
        exact ⟨horderly.finish, hkeeps.setThread⟩
  | deleteCertificate certId =>
    exact ⟨⟨h.unique, h.bare, h.unissued, h.once, h.found⟩, keepsSettled_of_eq rfl⟩

theorem lawful_of_not_overtaken (h : Orderly m) (hovertaken : ¬Overtaken m e) : Lawful m e where
  oneCertificate := (orderly_step h hovertaken).1.issuedFor_le
  oneRequest := (orderly_step h hovertaken).1.unique
  settled := (orderly_step h hovertaken).2

/-- A commit that comes too late gives a settled request another status, or its transaction a
second certificate. -/
theorem not_lawful_of_overtaken (h : Orderly m) (hovertaken : Overtaken m e) : ¬Lawful m e := by
  cases e with
  | advance k =>
    obtain ⟨found, settlement, r, hthread, hget, hsettled, hadds, hconflict⟩ := hovertaken
    intro hlawful
    obtain ⟨m', hissue⟩ : ∃ m', m.issue found.transactionId settlement.certificate? = some m' := by
      cases hcertificate : settlement.certificate? with
      | none => exact ⟨m, rfl⟩
      | some c =>
        obtain ⟨st, hst⟩ := hadds c hcertificate
        exact ⟨_, by rw [Site.issue, hst]; rfl⟩
    have hstep : step m (.advance k) = Site.setThread
        { m' with requests := m.requests.update found.id settlement.write } k none := by
      simp only [step, hthread, commitSettlement_of_issue hissue]
    obtain ⟨hr, hid⟩ := Table.get?_eq_some_iff.mp hget
    rcases hconflict with hstatus | ⟨hsome, hissued⟩
    · obtain ⟨r', hr', hid', _, hstatus'⟩ := hlawful.settled r hr hsettled
      rw [hstep] at hr'
      rcases Table.mem_update.mp hr' with ⟨_, hne⟩ | ⟨r₀, hr₀, rfl⟩
      · exact hne (hid'.trans hid)
      · exact hstatus (hstatus'.symm.trans (write_eq _ _).2.1)
    · obtain ⟨r₁, hr₁, hid₁, htransaction⟩ := h.found k found settlement hthread
      obtain rfl : r₁ = r := Table.eq_of_key_eq hr₁ hr (hid₁.trans hid.symm)
      have hone : m.issuedFor found.transactionId = 1 := by
        rw [← htransaction]
        exact h.once r₁ hr (Option.isSome_iff_ne_none.mp hissued)
      have htwo := hlawful.oneCertificate found.transactionId
      rw [hstep] at htwo
      change m'.issuedFor found.transactionId ≤ 1 at htwo
      rw [(issue_eq_some hissue).2.2, hone, if_pos ⟨hsome, rfl⟩] at htwo
      exact absurd htwo (by decide)
  | _ => exact absurd hovertaken not_false

end Steps

/-- From a store without requests, every step of a run is lawful exactly if no settlement is
committed for a request that has been settled otherwise since it was looked up. -/
theorem transactions_run_iff (st : Store) (es : List Event) :
    Meets step Lawful { store := st } es ↔
      Meets step (fun m e => ¬Overtaken m e) { store := st } es := by
  refine meets_iff_of_invariant (I := Orderly) (fun m e h => ?_)
    (fun m e h hovertaken => (orderly_step h hovertaken).1) ?_
  · exact ⟨fun hlawful hovertaken => not_lawful_of_overtaken h hovertaken hlawful,
      lawful_of_not_overtaken h⟩
  · exact ⟨fun r hr => absurd hr (Table.not_mem_empty r), fun r hr => absurd hr (Table.not_mem_empty r),
      fun _ _ => rfl, fun r hr => absurd hr (Table.not_mem_empty r), fun _ _ _ h => nomatch h⟩

section Alone

variable {m : Site} {k : ℕ} {svc : SCEPService} {message : ScepMessage} {clientIp : String}
  {d : Draw} {config : List (String × Option String)}

theorem outcome_snd (s : ScepState) : (svc.outcome s message clientIp d).2 =
    match svc.admitted message with
    | none => s
    | some (transactionId, csr) =>
      match s.requests.first fun r => r.transactionId = transactionId with
      | some _ => s
      | none => (svc.newOutcome s transactionId csr clientIp d).2 := by
  unfold SCEPService.outcome SCEPService.admitted
  split_ifs with hsigned
  · rfl
  cases svc.openContent message.content with
  | none => rfl
  | some request =>
    cases CertificateService.nonEmpty message.transactionId with
    | none => rfl
    | some transactionId =>
      simp only [Option.bind_eq_bind, Option.bind_some]
      split_ifs
      · rfl
      · simp only [Option.pure_def]
        cases s.requests.first fun r => r.transactionId = transactionId <;> rfl

theorem newOutcome_snd (transactionId : String) (csr : Csr)
    (hnew : m.requestOf transactionId = none) :
    (svc.newOutcome ⟨m.store, m.requests, config⟩ transactionId csr clientIp d).2 =
      match newThread svc transactionId csr clientIp d with
      | some (.storing _ _ _ approval) =>
        let m' := commitNew m transactionId csr clientIp approval
        ⟨m'.store, m'.requests, config⟩
      | _ => ⟨m.store, m.requests, config⟩ := by
  have hopen : (m.requestOf transactionId).isSome = false := by rw [hnew]; rfl
  unfold SCEPService.newOutcome newThread
  split_ifs with hauto
  · simp only [SCEPService.autoApproveRequest_eq]
    cases svc.enrolledCertificate csr 365 d with
    | error e => rfl
    | ok x =>
      simp only [ok_bind, commitNew, hopen, Site.issue, Option.map_some, Except.toOption]
      cases m.store.addCertificate (svc.enrolledRow x d.refid) with
      | error e => rfl
      | ok store => rfl
  · simp only [commitNew, hopen, Site.issue, Option.map_none]
    rfl

theorem newThread_eq (svc : SCEPService) (transactionId : String) (csr : Csr) (clientIp : String)
    (d : Draw) :
    newThread svc transactionId csr clientIp d = none ∨
      ∃ approval, newThread svc transactionId csr clientIp d =
        some (.storing transactionId csr clientIp approval) := by
  unfold newThread
  split_ifs
  · cases (svc.enrolledCertificate csr 365 d).toOption with
    | none => exact .inl rfl
    | some x => exact .inr ⟨_, rfl⟩
  · exact .inr ⟨none, rfl⟩

theorem afterLookup_some (m : Site) (svc : SCEPService) (transactionId : String) (csr : Csr)
    (clientIp : String) (d : Draw) (r : ScepRequest) :
    afterLookup m svc transactionId csr clientIp d (some r) = none ∨
      afterLookup m svc transactionId csr clientIp d (some r) =
        newThread svc transactionId csr clientIp d := by
  unfold afterLookup
  split
  next h => cases h
  next =>
    split
    next => exact .inl rfl
    next => exact .inl rfl
    next =>
      split
      next => exact .inl rfl
      next =>
        split_ifs
        · exact .inl rfl
        · exact .inr rfl

theorem step_advance_idle (hidle : m.threads k = none) : step m (.advance k) = m := by
  simp only [step, hidle]

omit [X509Library] in
@[simp] theorem threads_setThread_self (t : Option Thread) : (m.setThread k t).threads k = t := by
  simp [Site.setThread]

theorem commitNew_setThread (transactionId : String) (csr : Csr) (t : Option Thread)
    (approval : Option (Certificate × Time)) :
    commitNew (m.setThread k t) transactionId csr clientIp approval =
      (commitNew m transactionId csr clientIp approval).setThread k t := by
  unfold commitNew
  change (if (m.requestOf transactionId).isSome then _ else _) = _
  split_ifs
  · rfl
  · cases approval with
    | none => rfl
    | some a =>
      simp only [Site.issue, Option.map_some, Site.setThread]
      cases (m.store.addCertificate a.1).toOption <;> rfl

/-- An enrolment that nobody interrupts is the enrolment in one step. -/
theorem run_enrol : (svc.outcome ⟨m.store, m.requests, config⟩ message clientIp d).2 =
    ⟨(run step m [.enrol k svc message clientIp d, .advance k, .advance k]).store,
      (run step m [.enrol k svc message clientIp d, .advance k, .advance k]).requests, config⟩ := by
  simp only [run_cons, run_nil, outcome_snd]
  cases hadmitted : svc.admitted message with
  | none =>
    have hstep : step m (.enrol k svc message clientIp d) = m.setThread k none := by
      simp only [step, hadmitted, Option.map_none]
    rw [hstep, step_advance_idle (threads_setThread_self none),
      step_advance_idle (threads_setThread_self none)]
    rfl
  | some request =>
    obtain ⟨transactionId, csr⟩ := request
    have hstep : step m (.enrol k svc message clientIp d) = m.setThread k
        (some (.enrolling svc transactionId csr clientIp d (m.requestOf transactionId))) := by
      simp only [step, hadmitted, Option.map_some]
    have hlooked : step (step m (.enrol k svc message clientIp d)) (.advance k) =
        (step m (.enrol k svc message clientIp d)).setThread k
          (afterLookup m svc transactionId csr clientIp d (m.requestOf transactionId)) := by
      rw [hstep]
      simp only [step, threads_setThread_self]
      rfl
    rw [hlooked, hstep]
    have hrequest : m.requests.first (fun r => r.transactionId = transactionId) =
        m.requestOf transactionId := rfl
    simp only [hrequest]
    -- by what the thread has become after its lookup
    cases hfound : m.requestOf transactionId with
    | none =>
      simp only [newOutcome_snd transactionId csr hfound, afterLookup]
      obtain hnone | ⟨approval, happroval⟩ := newThread_eq svc transactionId csr clientIp d
      · rw [hnone, step_advance_idle (threads_setThread_self none)]
        rfl
      · rw [happroval]
        simp only [step, threads_setThread_self, commitNew_setThread]
        rfl
    | some r =>
      have hknown : (m.requestOf transactionId).isSome = true := by rw [hfound]; rfl
      have hrefused : ∀ approval, commitNew m transactionId csr clientIp approval = m :=
        fun approval => if_pos hknown
      obtain hnone | hnew := afterLookup_some m svc transactionId csr clientIp d r
      · rw [hnone, step_advance_idle (threads_setThread_self none)]
        rfl
      · rw [hnew]
        obtain hnone | ⟨approval, happroval⟩ := newThread_eq svc transactionId csr clientIp d
        · rw [hnone, step_advance_idle (threads_setThread_self none)]
          rfl
        · rw [happroval]
          simp only [step, threads_setThread_self, commitNew_setThread, hrefused]
          rfl

end Alone

section Sample

omit [X509Library]

def sampleService : SCEPService where
  ca := sampleCa
  caCert := sampleCaCert
  caKey := sampleKey
  challengePassword := none
  autoApprove := false

def deviceCsr : Csr where
  subject := sampleName "device"
  publicKey := ⟨.rsa 2048, 2⟩
  isSignatureValid := true
  encodedExtensions := []

def deviceMessage : ScepMessage where
  isSignedData := true
  content := .enveloped sampleKey (some ⟨deviceCsr, none⟩)
  transactionId := some "device-1"
  senderNonce := none
  challengePassword := none

def enrolDevice : List Event :=
  [.enrol 0 sampleService deviceMessage "192.0.2.1" (sampleDraw 7 "unused" 100), .advance 0,
    .advance 0]

def approvedTwice : List Event :=
  enrolDevice ++
    [.approve 1 sampleService "device-1" "alice" 365 (sampleDraw 8 "first" 200),
      .approve 2 sampleService "device-1" "bob" 365 (sampleDraw 9 "second" 201), .advance 1]

def approvedAndRejected : List Event :=
  enrolDevice ++ [.approveRoute 1 1 "alice" 200, .rejectRoute 2 1 "unknown" "bob" 201, .advance 1]

/-- The transaction is given two certificates, and an approved request becomes a rejected one. -/
theorem settled_twice :
    let _ := sampleLibrary
    let twice := run step { store := sampleStore } approvedTwice
    let rejected := run step { store := sampleStore } approvedAndRejected
    (step twice (.advance 2)).issued = [("device-1", "second"), ("device-1", "first")] ∧
      (rejected.requests.get? 1).map ScepRequest.status = some .approved ∧
      ((step rejected (.advance 2)).requests.get? 1).map ScepRequest.status = some .rejected ∧
      ¬Meets step Lawful { store := sampleStore } (approvedTwice ++ [.advance 2]) ∧
      ¬Meets step Lawful { store := sampleStore } (approvedAndRejected ++ [.advance 2]) := by
  intro _ twice rejected
  have hissued : (step twice (.advance 2)).issued =
      [("device-1", "second"), ("device-1", "first")] := by decide +kernel
  have happroved : (rejected.requests.get? 1).map ScepRequest.status = some .approved := by
    decide +kernel
  have hrejected : ((step rejected (.advance 2)).requests.get? 1).map ScepRequest.status =
      some .rejected := by decide +kernel
  refine ⟨hissued, happroved, hrejected, fun h => ?_, fun h => ?_⟩
  · have hlawful := ((meets_append step Lawful _ _ _).mp h).2.1
    have hcount := hlawful.oneCertificate "device-1"
    change (step twice (.advance 2)).issuedFor "device-1" ≤ 1 at hcount
    rw [Site.issuedFor, hissued] at hcount
    exact absurd hcount (by decide)
  · have hlawful := ((meets_append step Lawful _ _ _).mp h).2.1
    obtain ⟨r, hr, hstatus⟩ := Option.map_eq_some_iff.mp happroved
    obtain ⟨r', hr', hid, _, hsame⟩ := hlawful.settled r (Table.mem_of_get? hr)
      (by rw [hstatus]; decide)
    have hget : (step rejected (.advance 2)).requests.get? 1 = some r' :=
      Table.get?_eq_some_iff.mpr ⟨hr', hid.trans (Table.key_of_get? hr)⟩
    rw [hget, Option.map_some, hsame, hstatus] at hrejected
    cases hrejected

end Sample

end ScepTransactions

end CaManager
