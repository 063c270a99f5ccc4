import CaManager.Library.Fallible
import CaManager.Library.Machines
import CaManager.Library.Patterns
import CaManager.Library.Tables
import CaManager.X509

/-!
# Requests to a Microsoft CA

A CSR is sent to a remote CA, which answers with a certificate, or with an error whose text says
what became of the request. A request that is pending is looked up later, under the number that the
text seemed to give it. The certificate that comes back is stored as it is.

The numbers, the keys and the statuses of the stored requests are followed along every run, next to
what was submitted and what the remote CA did with it.
-/

namespace CaManager

open Library Pattern

namespace Msca

inductive RequestStatus
  | issued
  | pending
  | denied
  | failed
  deriving Repr, DecidableEq

structure MicrosoftCA where
  id : ℕ := 0
  enabled : Bool := true
  deriving Repr, DecidableEq

structure MSCARequest where
  id : ℕ := 0
  mscaId : ℕ
  csrId : Option ℕ := none
  certId : Option ℕ := none
  requestId : Option ℕ := none
  dispositionMessage : Option String := none
  template : String
  status : RequestStatus
  submittedAt : Time
  issuedAt : Option Time := none
  errorMessage : Option String := none
  certPem : Option String := none
  submittedBy : Option String := none
  deriving Repr, DecidableEq

instance : Keyed MicrosoftCA :=
  ⟨MicrosoftCA.id, fun k c => { c with id := k }, fun _ _ => rfl, fun _ => rfl⟩

instance : Keyed MSCARequest :=
  ⟨MSCARequest.id, fun k r => { r with id := k }, fun _ _ => rfl, fun _ => rfl⟩

structure Service where
  connections : Table MicrosoftCA := ∅
  requests : Table MSCARequest := ∅
  deriving DecidableEq

/-- What the remote CA answers: a certificate, or an error with some text. -/
inductive Answer
  | certificate (certPem : String)
  | failure (text : String)
  deriving Repr, DecidableEq

inductive ServiceError
  | valueError (message : String)
  | overflowError (message : String)
  | importError (message : String)
  | remote (text : String)
  deriving Repr, DecidableEq

/-- The arguments of a submission, and what comes of it: the client may not be built. -/
structure Submission where
  mscaId : ℕ
  csrPem : String
  template : String
  csrId : Option ℕ := none
  submittedBy : Option String := none
  unreachable : Option String := none
  answer : Answer
  deriving Repr, DecidableEq

inductive SubmitResult
  | issued (requestId : ℕ) (certPem : String)
  | pending (requestId : ℕ) (msRequestId : Option ℕ) (message : String)
  deriving Repr, DecidableEq

section Texts

/-- The part of the pattern of a request's number that is before the number. -/
def requestMention : Pattern :=
  seq (literal sameLetter "request".toList) <| seq (many isSpace) <|
    seq (optional (either (literal sameLetter "id".toList) (literal sameLetter "#".toList))) <|
      seq (many isSpace) <| seq (optional (one fun c => c = '=' || c = ':')) (many isSpace)

/-- `int`, which takes no more than so many digits. -/
def readDigits (ds : List Char) : Except ServiceError ℕ :=
  if 4300 < ds.length then
    .error (.valueError <|
      s!"Exceeds the limit (4300 digits) for integer string conversion: value has {ds.length} " ++
        "digits; use sys.set_int_max_str_digits() to increase the limit")
  else .ok (decimalNumber ds)

/-- `_extract_request_id` -/
def extractRequestId (errorMessage : String) : Except ServiceError (Option ℕ) :=
  match search (numberAfter requestMention isDecimalDigit) errorMessage.toList with
  | some (ds :: _) => some <$> readDigits ds
  | _ =>
    match search (group (atLeastOne isDecimalDigit)) errorMessage.toList with
    | some (ds :: _) => do
      let val ← readDigits ds
      return if 0 < val then some val else none
    | _ => .ok none

def isPending (text : String) : Bool :=
  occursIn "pending" (lowerText text) || occursIn "taken under submission" (lowerText text)

def isDenied (text : String) : Bool := occursIn "denied" (lowerText text)

/-- `[:500]` -/
def shortened (text : String) : String := String.ofList (text.toList.take 500)

end Texts

namespace Service

variable (s : Service)

def addRequest (r : MSCARequest) : Service := { s with requests := s.requests.insert r }

def newRequest (sub : Submission) (status : RequestStatus) (now : Time) : MSCARequest :=
  { mscaId := sub.mscaId, csrId := sub.csrId, template := sub.template, status := status
    submittedAt := now, submittedBy := sub.submittedBy }

def fits (msRequestId : Option ℕ) : Bool := msRequestId.all (· < 2 ^ 63)

/-- `submit_csr`, once a client has been built. -/
def submitToRemote (sub : Submission) (now : Time) :
    Service × Except ServiceError SubmitResult :=
  match sub.answer with
  | .certificate certPem =>
    (s.addRequest
        { newRequest sub .issued now with issuedAt := some now, certPem := some certPem },
      .ok (.issued s.requests.nextKey certPem))
  | .failure text =>
    if isPending text then
      match extractRequestId text with
      | .error e => (s, .error e)
      | .ok msRequestId =>
        if fits msRequestId then
          (s.addRequest
              { newRequest sub .pending now with
                requestId := msRequestId, dispositionMessage := some (shortened text) },
            .ok (.pending s.requests.nextKey msRequestId "Request pending manager approval"))
        else (s, .error (.overflowError "Python int too large to convert to SQLite INTEGER"))
    else if isDenied text then
      (s.addRequest { newRequest sub .denied now with errorMessage := some (shortened text) },
        .error (.valueError s!"Certificate request denied: {text}"))
    else
      (s.addRequest { newRequest sub .failed now with errorMessage := some (shortened text) },
        .error (.remote text))

/-- `submit_csr` -/
def submitCsr (sub : Submission) (now : Time) : Service × Except ServiceError SubmitResult :=
  match s.connections.get? sub.mscaId with
  | none => (s, .error (.valueError "Connection not found"))
  | some msca =>
    if msca.enabled then
      match sub.unreachable with
      | some text => (s, .error (.remote text))
      | none => s.submitToRemote sub now
    else (s, .error (.valueError "Microsoft CA connection is disabled"))

/-- `check_request`, for a request that the remote CA has been asked for. -/
def checkRemote (req : MSCARequest) (answer : Answer) (now : Time) :
    Service × Except ServiceError MSCARequest :=
  match answer with
  | .certificate certPem =>
    let f (r : MSCARequest) : MSCARequest :=
      { r with status := .issued, issuedAt := some now, certPem := some certPem }
    ({ s with requests := s.requests.update req.id f }, .ok (f req))
  | .failure text =>
    if isPending text then (s, .ok req)
    else if isDenied text then
      let f (r : MSCARequest) : MSCARequest :=
        { r with status := .denied, errorMessage := some (shortened text) }
      ({ s with requests := s.requests.update req.id f }, .ok (f req))
    else (s, .error (.remote text))

/-- `check_request`: the remote CA has an answer for each of its own numbers. -/
def checkRequest (mscaId requestId : ℕ) (answers : ℕ → Answer) (now : Time) :
    Service × Except ServiceError MSCARequest :=
  match (s.requests.get? requestId).filter (·.mscaId = mscaId) with
  | none => (s, .error (.valueError "Request not found"))
  | some req =>
    if req.status = .issued then (s, .ok req)
    else
      match req.requestId.filter (· ≠ 0) with
      | none => (s, .ok req)
      | some remoteId =>
        match s.connections.get? mscaId with
        | none => (s, .error (.valueError "Connection not found"))
        | some _ => s.checkRemote req (answers remoteId) now

structure Response where
  code : ℕ
  message : Option String := none
  deriving Repr, DecidableEq

/-- The keys of a request's `to_dict`. -/
def requestKeys : List String :=
  ["id", "msca_id", "msca_name", "csr_id", "cert_id", "request_id", "disposition_message",
    "template", "status", "submitted_at", "issued_at", "error_message", "submitted_by"]

def signCsr : Service × Except ServiceError Response :=
  (s, .error (.importError "cannot import name 'CSR' from 'models'"))

/-- The route of a status: it would import what was issued, but looks for it under a key that a
request has not. -/
def checkRequestStatus (mscaId requestId : ℕ) (answers : ℕ → Answer) (now : Time) :
    Service × Response :=
  let (s', result) := s.checkRequest mscaId requestId answers now
  match result with
  | .ok req =>
    if req.status = .issued ∧ "cert_pem" ∈ requestKeys ∧ req.csrId.isSome ∧ req.certId = none then
      (s', ⟨500, some "Failed to check request status"⟩)
    else (s', ⟨200, none⟩)
  | .error (.valueError _) => (s', ⟨404, some "Request not found"⟩)
  | .error _ => (s', ⟨500, some "Failed to check request status"⟩)

end Service

/-- What was submitted for a request, and the number that the remote CA gave it. -/
structure Submitted where
  csrPem : String
  assigned : Option ℕ
  deriving Repr, DecidableEq

inductive Event
  | submit (sub : Submission) (assigned : Option ℕ) (now : Time)
  | sign
  | check (mscaId requestId : ℕ) (answers : ℕ → Answer) (now : Time)
  | status (mscaId requestId : ℕ) (answers : ℕ → Answer) (now : Time)

/-- The service, with what was submitted for each request and how it was first decided. -/
structure Traced where
  service : Service
  submitted : ℕ → Option Submitted := fun _ => none
  decided : ℕ → Option RequestStatus := fun _ => none

def RequestStatus.decision : RequestStatus → Option RequestStatus
  | issued => some issued
  | denied => some denied
  | pending => none
  | failed => none

theorem RequestStatus.eq_of_decision {s d : RequestStatus} (h : s.decision = some d) : d = s := by
  cases s with
  | issued => exact (Option.some.inj h).symm
  | denied => exact (Option.some.inj h).symm
  | pending => cases h
  | failed => cases h

theorem RequestStatus.eq_denied_of_decision {s d : RequestStatus} (h : s ≠ .issued)
    (hd : s.decision = some d) : s = .denied ∧ d = .denied := by
  cases s with
  | issued => exact absurd rfl h
  | denied => exact ⟨rfl, (Option.some.inj hd).symm⟩
  | pending => cases hd
  | failed => cases hd

namespace Traced

def observe (t : Traced) (service : Service) : Traced where
  service := service
  submitted := t.submitted
  decided id := (t.decided id).or ((service.requests.get? id).bind fun r => r.status.decision)

def submitting (t : Traced) (sub : Submitted) : Traced :=
  { t with submitted := Function.update t.submitted t.service.requests.nextKey (some sub) }

def step (t : Traced) : Event → Traced
  | .submit sub assigned now =>
    (t.submitting ⟨sub.csrPem, assigned⟩).observe (t.service.submitCsr sub now).1
  | .sign => t.observe t.service.signCsr.1
  | .check mscaId requestId answers now =>
    t.observe (t.service.checkRequest mscaId requestId answers now).1
  | .status mscaId requestId answers now =>
    t.observe (t.service.checkRequestStatus mscaId requestId answers now).1

end Traced

section Names

def NoMention (text : String) : Prop :=
  ∀ pre m c rest, text.toList = pre ++ (m ++ c :: rest) → Matches requestMention m [] →
    isDecimalDigit c = false

/-- The number that a text gives a request: after its first mention of a request with a number, or,
where there is none, the first number in it, if that is not zero. -/
inductive NamesRequest (text : String) (n : ℕ) : Prop
  | mention {pre m ds rest : List Char} :
      FirstNumber requestMention isDecimalDigit text.toList pre m ds rest → ds.length ≤ 4300 →
        decimalNumber ds = n → NamesRequest text n
  | number {pre m ds rest : List Char} : NoMention text →
      FirstNumber empty isDecimalDigit text.toList pre m ds rest → ds.length ≤ 4300 →
        decimalNumber ds = n → 0 < n → NamesRequest text n

theorem isDecimalDigit_of_isSpace : ∀ c, isSpace c = true → isDecimalDigit c = false :=
  not_isDecimalDigit (by decide +kernel)

theorem isDecimalDigit_of_sameLetter (word : List Char)
    (h : (decimalZeros.all fun z => (List.range 10).all fun i =>
      !word.any fun c => sameLetter c (Char.ofNat (z + i))) = true) :
    ∀ c ∈ word, ∀ d, sameLetter c d = true → isDecimalDigit d = false := by
  intro c hc d hd
  apply not_isDecimalDigit (q := fun d => word.any fun c => sameLetter c d) h
  exact List.any_eq_true.mpr ⟨c, hc, hd⟩

theorem noDigits_requestMention : NoDigits requestMention isDecimalDigit := by
  have hspace : NoDigits (many isSpace) isDecimalDigit := noDigits_many isDecimalDigit_of_isSpace
  have hword : ∀ word : String, (decimalZeros.all fun z => (List.range 10).all fun i =>
      !word.toList.any fun c => sameLetter c (Char.ofNat (z + i))) = true →
        NoDigits (literal sameLetter word.toList) isDecimalDigit :=
    fun word h => noDigits_literal (isDecimalDigit_of_sameLetter word.toList h)
  have hsign : ∀ c, (c = '=' || c = ':') = true → isDecimalDigit c = false :=
    not_isDecimalDigit (by decide +kernel)
  unfold requestMention
  apply NoDigits.seq (hword "request" (by decide +kernel))
  apply NoDigits.seq hspace
  apply NoDigits.seq
  · apply NoDigits.optional
    exact NoDigits.either (hword "id" (by decide +kernel)) (hword "#" (by decide +kernel))
  apply NoDigits.seq hspace
  exact NoDigits.seq (NoDigits.optional (noDigits_one hsign)) hspace

theorem readDigits_eq_ok {ds : List Char} {n : ℕ} :
    readDigits ds = .ok n ↔ ds.length ≤ 4300 ∧ decimalNumber ds = n := by
  unfold readDigits
  split_ifs with h
  · simp [Nat.not_le_of_lt h]
  · simp [Nat.le_of_not_lt h]

section Named

variable {text : String} {n : ℕ} {g : List (List Char)} {r : Pattern} {pre m ds rest : List Char}

theorem eq_of_firstNumber (hr : NoDigits r isDecimalDigit)
    (hfirst : FirstNumber r isDecimalDigit text.toList pre m ds rest) :
    search (numberAfter r isDecimalDigit) text.toList = some [ds] :=
  (search_numberAfter_eq_some_iff hr).mpr ⟨pre, m, ds, rest, hfirst, rfl⟩

theorem noMention_iff : NoMention text ↔
    search (numberAfter requestMention isDecimalDigit) text.toList = none :=
  (search_numberAfter_eq_none_iff noDigits_requestMention).symm

theorem namesRequest_of_mention
    (hs : search (numberAfter requestMention isDecimalDigit) text.toList = some [ds]) :
    NamesRequest text n ↔ ds.length ≤ 4300 ∧ decimalNumber ds = n := by
  constructor
  · intro h
    cases h with
    | mention hfirst hlength hn =>
      cases hs.symm.trans (eq_of_firstNumber noDigits_requestMention hfirst)
      exact ⟨hlength, hn⟩
    | number hnone _ _ _ _ => cases hs.symm.trans (noMention_iff.mp hnone)
  · intro ⟨hlength, hn⟩
    obtain ⟨pre, m, _, rest, hfirst, heq⟩ :=
      (search_numberAfter_eq_some_iff noDigits_requestMention).mp hs
    cases heq
    exact .mention hfirst hlength hn

theorem namesRequest_of_noMention (hnone : NoMention text) : NamesRequest text n ↔
    ∃ ds, search (numberAfter empty isDecimalDigit) text.toList = some [ds] ∧ ds.length ≤ 4300 ∧
      decimalNumber ds = n ∧ 0 < n := by
  constructor
  · intro h
    cases h with
    | mention hfirst _ _ =>
      cases (noMention_iff.mp hnone).symm.trans (eq_of_firstNumber noDigits_requestMention hfirst)
    | number _ hfirst hlength hn hpos =>
      exact ⟨_, eq_of_firstNumber noDigits_empty hfirst, hlength, hn, hpos⟩
  · intro ⟨ds, hd, hlength, hn, hpos⟩
    obtain ⟨pre, m, _, rest, hfirst, heq⟩ := (search_numberAfter_eq_some_iff noDigits_empty).mp hd
    cases heq
    exact .number hnone hfirst hlength hn hpos

theorem extractRequestId_eq_ok_some_iff : extractRequestId text = .ok (some n) ↔
    NamesRequest text n := by
  have hsame : search (group (atLeastOne isDecimalDigit)) text.toList =
      search (numberAfter empty isDecimalDigit) text.toList :=
    search_congr fun cs => ways_numberAfter_empty.symm
  unfold extractRequestId
  rw [hsame]
  cases hs : search (numberAfter requestMention isDecimalDigit) text.toList with
  | some g =>
    obtain ⟨_, _, ds, _, _, rfl⟩ :=
      (search_numberAfter_eq_some_iff noDigits_requestMention).mp hs
    rw [namesRequest_of_mention hs]
    simp only [map_eq_ok, Option.some.injEq, exists_eq_right, readDigits_eq_ok]
  | none =>
    rw [namesRequest_of_noMention (noMention_iff.mpr hs)]
    cases hd : search (numberAfter empty isDecimalDigit) text.toList with
    | none => simp
    | some g =>
      obtain ⟨_, _, ds, _, _, rfl⟩ := (search_numberAfter_eq_some_iff noDigits_empty).mp hd
      simp only [bind_eq_ok, pure_eq_ok, readDigits_eq_ok, Option.some.injEq, List.cons.injEq,
        and_true]
      constructor
      · rintro ⟨val, ⟨hlength, hval⟩, hn⟩
        split_ifs at hn with hpos
        cases hn
        exact ⟨ds, rfl, hlength, hval, hpos⟩
      · rintro ⟨_, rfl, hlength, hn, hpos⟩
        exact ⟨n, ⟨hlength, hn⟩, if_pos hpos⟩

end Named

end Names

namespace Service

variable {s : Service} {sub : Submission} {now : Time}

def Reaches (s : Service) (sub : Submission) : Prop :=
  (∃ msca, s.connections.get? sub.mscaId = some msca ∧ msca.enabled = true) ∧
    sub.unreachable = none

/-- The remote CA is asked for the request, under the given number. -/
structure Asks (s : Service) (mscaId requestId : ℕ) (req : MSCARequest) (remoteId : ℕ) : Prop where
  found : s.requests.get? requestId = some req
  ofConnection : req.mscaId = mscaId
  unissued : req.status ≠ .issued
  number : req.requestId = some remoteId
  positive : remoteId ≠ 0
  connected : (s.connections.get? mscaId).isSome

theorem submitCsr_of_reaches (h : s.Reaches sub) :
    s.submitCsr sub now = s.submitToRemote sub now := by
  obtain ⟨⟨msca, hmsca, henabled⟩, hbuilt⟩ := h
  rw [submitCsr, hmsca]
  simp [henabled, hbuilt]

theorem submitCsr_of_not_reaches (h : ¬s.Reaches sub) : (s.submitCsr sub now).1 = s := by
  unfold submitCsr
  cases hmsca : s.connections.get? sub.mscaId with
  | none => rfl
  | some msca =>
    cases henabled : msca.enabled with
    | false => simp [henabled]
    | true =>
      cases hbuilt : sub.unreachable with
      | none => exact absurd ⟨⟨msca, hmsca, henabled⟩, hbuilt⟩ h
      | some text => simp [henabled]

theorem checkRequest_of_asks {mscaId requestId remoteId : ℕ} {req : MSCARequest}
    {answers : ℕ → Answer} (h : s.Asks mscaId requestId req remoteId) :
    s.checkRequest mscaId requestId answers now = s.checkRemote req (answers remoteId) now := by
  obtain ⟨msca, hmsca⟩ := Option.isSome_iff_exists.mp h.connected
  rw [checkRequest, h.found]
  simp [Option.filter_some, h.ofConnection, h.unissued, h.number, h.positive, hmsca]

theorem checkRequest_of_not_asks {mscaId requestId : ℕ} {answers : ℕ → Answer}
    (h : ∀ req remoteId, ¬s.Asks mscaId requestId req remoteId) :
    (s.checkRequest mscaId requestId answers now).1 = s := by
  unfold checkRequest
  cases hfound : (s.requests.get? requestId).filter (·.mscaId = mscaId) with
  | none => rfl
  | some req =>
    obtain ⟨hget, hconnection⟩ := Option.filter_eq_some_iff.mp hfound
    by_cases hissued : req.status = .issued
    · simp [hissued]
    · cases hnumber : req.requestId.filter (· ≠ 0) with
      | none => simp only [hissued, if_false, hnumber]
      | some remoteId =>
        obtain ⟨hremote, hpositive⟩ := Option.filter_eq_some_iff.mp hnumber
        cases hmsca : s.connections.get? mscaId with
        | none => simp only [hissued, if_false, hnumber]
        | some msca =>
          refine absurd ?_ (h req remoteId)
          exact ⟨hget, by simpa using hconnection, hissued, hremote, by simpa using hpositive,
            by simp [hmsca]⟩

theorem checkRequestStatus_fst (mscaId requestId : ℕ) (answers : ℕ → Answer) :
    (s.checkRequestStatus mscaId requestId answers now).1 =
      (s.checkRequest mscaId requestId answers now).1 := by
  unfold checkRequestStatus
  cases hresult : s.checkRequest mscaId requestId answers now with
  | mk s' result =>
    cases result with
    | ok req =>
      dsimp only
      split_ifs <;> rfl
    | error e =>
      cases e with
      | valueError message => rfl
      | overflowError message => rfl
      | importError message => rfl
      | remote text => rfl

theorem submitCsr_cases : (s.submitCsr sub now).1 = s ∨
    ∃ r, (s.submitCsr sub now).1 = s.addRequest r := by
  by_cases hreaches : s.Reaches sub
  · rw [submitCsr_of_reaches hreaches]
    unfold submitToRemote
    cases sub.answer with
    | certificate certPem => exact .inr ⟨_, rfl⟩
    | failure text =>
      dsimp only
      split_ifs
      · cases extractRequestId text with
        | error e => exact .inl rfl
        | ok msRequestId =>
          dsimp only
          split_ifs
          · exact .inr ⟨_, rfl⟩
          · exact .inl rfl
      · exact .inr ⟨_, rfl⟩
      · exact .inr ⟨_, rfl⟩
  · exact .inl (submitCsr_of_not_reaches hreaches)

theorem checkRequest_cases (mscaId requestId : ℕ) (answers : ℕ → Answer) :
    (s.checkRequest mscaId requestId answers now).1 = s ∨
      ∃ id f, (s.checkRequest mscaId requestId answers now).1 =
        { s with requests := s.requests.update id f } := by
  by_cases hasks : ∃ req remoteId, s.Asks mscaId requestId req remoteId
  · obtain ⟨req, remoteId, hasks⟩ := hasks
    rw [checkRequest_of_asks hasks]
    unfold checkRemote
    cases answers remoteId with
    | certificate certPem => exact .inr ⟨_, _, rfl⟩
    | failure text =>
      dsimp only
      split_ifs
      · exact .inl rfl
      · exact .inr ⟨_, _, rfl⟩
      · exact .inl rfl
  · exact .inl (checkRequest_of_not_asks fun req remoteId h => hasks ⟨req, remoteId, h⟩)

theorem get?_of_submitCsr {id : ℕ} (h : (s.submitCsr sub now).1.requests.get? id = none) :
    s.requests.get? id = none := by
  obtain hsame | ⟨r, hadded⟩ := @submitCsr_cases s sub now
  · rw [← hsame]
    exact h
  · rw [hadded] at h
    by_contra hrow
    obtain ⟨r', hr'⟩ := Option.ne_none_iff_exists'.mp hrow
    cases h.symm.trans (Table.get?_insert_of_get? hr')

theorem get?_of_checkRequest {mscaId requestId id : ℕ} {answers : ℕ → Answer}
    (h : (s.checkRequest mscaId requestId answers now).1.requests.get? id = none) :
    s.requests.get? id = none := by
  obtain hsame | ⟨k, f, hchanged⟩ := @checkRequest_cases s now mscaId requestId answers
  · rw [← hsame]
    exact h
  · rw [hchanged, Table.get?_update, Option.map_eq_none_iff] at h
    exact h

end Service

section Runs

variable {K : Type*} (certificateKey csrKey : String → Option K)

def KeyMatches (certPem : String) (csrPem : Option String) : Prop :=
  ∀ k, certificateKey certPem = some k → csrPem.bind csrKey = some k

/-- What is stored for a request fits what was submitted for it, what number it was assigned, and
how it was first decided; and nothing was imported for it. -/
structure SoundRequest (r : MSCARequest) (sub : Option Submitted)
    (decided : Option RequestStatus) : Prop where
  key : ∀ certPem, r.certPem = some certPem →
    KeyMatches certificateKey csrKey certPem (sub.map Submitted.csrPem)
  number : ∀ n, r.requestId = some n → sub.bind Submitted.assigned = some n
  final : ∀ d, decided = some d → r.status = d
  notImported : r.certId = none

namespace Traced

def Sound (t : Traced) : Prop :=
  ∀ id r, t.service.requests.get? id = some r →
    SoundRequest certificateKey csrKey r (t.submitted id) (t.decided id)

/-- The first decisions have been noted, and only those of requests that there are. -/
structure Noted (t : Traced) : Prop where
  decision : ∀ id r d, t.service.requests.get? id = some r → r.status.decision = some d →
    t.decided id = some d
  fresh : ∀ id, t.service.requests.get? id = none → t.decided id = none
  final : ∀ id d, t.decided id = some d → d.decision = some d

/-- What the remote CA gives back is for the CSR, what it says of a pending request names the number
that it assigned, and no certificate is given for a request that was denied. -/
def Careful (t : Traced) : Event → Prop
  | .submit sub assigned _ => t.service.Reaches sub →
    match sub.answer with
    | .certificate certPem => KeyMatches certificateKey csrKey certPem (some sub.csrPem)
    | .failure text => isPending text = true → ∀ n < 2 ^ 63, NamesRequest text n →
      assigned = some n
  | .sign => True
  | .check mscaId requestId answers _ | .status mscaId requestId answers _ =>
    ∀ req remoteId certPem, t.service.Asks mscaId requestId req remoteId →
      answers remoteId = .certificate certPem →
        req.status ≠ .denied ∧
          KeyMatches certificateKey csrKey certPem ((t.submitted requestId).map Submitted.csrPem)

variable {certificateKey csrKey} {t : Traced} {service : Service}

theorem Noted.submitting (hnoted : t.Noted) (sub : Submitted) : (t.submitting sub).Noted :=
  ⟨hnoted.decision, hnoted.fresh, hnoted.final⟩

theorem decided_observe (hnoted : t.Noted) {id : ℕ}
    (hsame : service.requests.get? id = t.service.requests.get? id) :
    (t.observe service).decided id = t.decided id := by
  change (t.decided id).or ((service.requests.get? id).bind fun r => r.status.decision) = _
  rw [hsame]
  cases hget : t.service.requests.get? id with
  | none => rw [Option.bind_none, Option.or_none]
  | some r =>
    rw [Option.bind_some]
    cases hdecision : r.status.decision with
    | none => rw [Option.or_none]
    | some d =>
      rw [hnoted.decision id r d hget hdecision]
      rfl

theorem observe_self (hnoted : t.Noted) : t.observe t.service = t := by
  have hdecided : (t.observe t.service).decided = t.decided :=
    funext fun id => decided_observe hnoted rfl
  cases t
  exact congrArg (Traced.mk _ _) hdecided

theorem Noted.observe (hnoted : t.Noted)
    (hkept : ∀ id, service.requests.get? id = none → t.service.requests.get? id = none)
    (hfinal : ∀ id r d, service.requests.get? id = some r → t.decided id = some d →
      r.status = d) : (t.observe service).Noted := by
  constructor
  · intro id r d hget hdecision
    change (t.decided id).or ((service.requests.get? id).bind fun r => r.status.decision) = _
    rw [show service.requests.get? id = some r from hget, Option.bind_some, hdecision]
    cases hdecided : t.decided id with
    | none => rfl
    | some d' =>
      rw [Option.some_or, RequestStatus.eq_of_decision hdecision, hfinal id r d' hget hdecided]
  · intro id hget
    change (t.decided id).or ((service.requests.get? id).bind fun r => r.status.decision) = _
    rw [show service.requests.get? id = none from hget, hnoted.fresh id (hkept id hget)]
    rfl
  · intro id d hdecided
    change (t.decided id).or ((service.requests.get? id).bind fun r => r.status.decision) = _
      at hdecided
    cases hold : t.decided id with
    | some d' =>
      rw [hold, Option.some_or] at hdecided
      exact hnoted.final id d (hold.trans hdecided)
    | none =>
      rw [hold, Option.none_or] at hdecided
      obtain ⟨r, _, hdecision⟩ := Option.bind_eq_some_iff.mp hdecided
      have heq := RequestStatus.eq_of_decision hdecision
      rw [heq, hdecision, heq]

theorem sound_submitting_self (hnoted : t.Noted) (hsound : t.Sound certificateKey csrKey)
    (sub : Submitted) : ((t.submitting sub).observe t.service).Sound certificateKey csrKey := by
  have hself : (t.submitting sub).observe t.service = t.submitting sub :=
    observe_self (hnoted.submitting sub)
  rw [hself]
  intro id r hget
  have hne : id ≠ t.service.requests.nextKey := by
    intro heq
    have hlt := Table.key_lt_nextKey (Table.mem_of_get? hget)
    rw [Table.key_of_get? hget, heq] at hlt
    exact Nat.lt_irrefl _ hlt
  change SoundRequest _ _ r (Function.update t.submitted _ (some sub) id) _
  rw [Function.update_of_ne hne]
  exact hsound id r hget

theorem sound_submitting_iff (hnoted : t.Noted) (hsound : t.Sound certificateKey csrKey)
    {sub : Submitted} {r : MSCARequest} (hnew : r.certId = none) :
    ((t.submitting sub).observe (t.service.addRequest r)).Sound certificateKey csrKey ↔
      (∀ certPem, r.certPem = some certPem →
        KeyMatches certificateKey csrKey certPem (some sub.csrPem)) ∧
      ∀ n, r.requestId = some n → sub.assigned = some n := by
  have hnone : t.service.requests.get? t.service.requests.nextKey = none := by
    rw [Table.get?_eq_none_iff]
    intro r' hr'
    exact Nat.ne_of_lt (Table.key_lt_nextKey hr')
  have hdecided : ((t.submitting sub).observe (t.service.addRequest r)).decided
      t.service.requests.nextKey = r.status.decision := by
    change (t.decided _).or (((t.service.requests.insert r).get? _).bind _) = _
    rw [hnoted.fresh _ hnone, Table.get?_insert_nextKey]
    rfl
  have hsubmitted : ((t.submitting sub).observe (t.service.addRequest r)).submitted
      t.service.requests.nextKey = some sub :=
    Function.update_self ..
  constructor
  · intro h
    have hrow := h t.service.requests.nextKey _ Table.get?_insert_nextKey
    rw [hsubmitted] at hrow
    exact ⟨hrow.key, hrow.number⟩
  · intro ⟨hkey, hnumber⟩ id r' hget
    change (t.service.requests.insert r).get? id = some r' at hget
    rw [Table.get?_insert] at hget
    split_ifs at hget with hid
    · cases hget
      rw [hid, hsubmitted, hdecided]
      refine ⟨hkey, hnumber, fun d hd => (RequestStatus.eq_of_decision hd).symm, hnew⟩
    · have hold := hsound id r' hget
      have hsame : (t.service.addRequest r).requests.get? id = t.service.requests.get? id := by
        change (t.service.requests.insert r).get? id = _
        rw [Table.get?_insert, if_neg hid]
      have hkeep := decided_observe (hnoted.submitting sub) hsame
      rw [hkeep]
      change SoundRequest _ _ r' (Function.update t.submitted _ (some sub) id) (t.decided id)
      rw [Function.update_of_ne hid]
      exact hold

theorem sound_submit_iff (hnoted : t.Noted) (hsound : t.Sound certificateKey csrKey)
    (sub : Submission) (assigned : Option ℕ) (now : Time) :
    (t.step (.submit sub assigned now)).Sound certificateKey csrKey ↔
      t.Careful certificateKey csrKey (.submit sub assigned now) := by
  have hself := sound_submitting_self hnoted hsound ⟨sub.csrPem, assigned⟩
  rw [step, Careful]
  by_cases hreaches : t.service.Reaches sub
  · rw [Service.submitCsr_of_reaches hreaches, Service.submitToRemote]
    simp only [hreaches, true_implies]
    cases hanswer : sub.answer with
    | certificate certPem =>
      dsimp only
      rw [sound_submitting_iff hnoted hsound rfl]
      simp [Service.newRequest]
    | failure text =>
      dsimp only
      cases hpending : isPending text with
      | false =>
        simp only [Bool.false_eq_true, if_false, false_implies, iff_true]
        split_ifs
        · rw [sound_submitting_iff hnoted hsound rfl]
          simp [Service.newRequest]
        · rw [sound_submitting_iff hnoted hsound rfl]
          simp [Service.newRequest]
      | true =>
        simp only [if_true, true_implies, ← extractRequestId_eq_ok_some_iff]
        cases hextract : extractRequestId text with
        | error e => simp [hself]
        | ok msRequestId =>
          cases msRequestId with
          | none =>
            simp only [Service.fits, Option.all_none, if_true]
            rw [sound_submitting_iff hnoted hsound rfl]
            simp [Service.newRequest]
          | some n =>
            by_cases hfits : n < 2 ^ 63
            · have hok : Service.fits (some n) = true := decide_eq_true hfits
              simp only [hok, if_true]
              rw [sound_submitting_iff hnoted hsound rfl]
              constructor
              · intro ⟨_, hnumber⟩ m _ heq
                cases heq
                exact hnumber n rfl
              · intro h
                constructor
                · intro certPem hnone
                  cases hnone
                · intro m heq
                  cases heq
                  exact h n hfits rfl
            · have hlong : Service.fits (some n) = false := decide_eq_false hfits
              simp only [hlong, Bool.false_eq_true, if_false, hself, true_iff]
              intro m hm heq
              cases heq
              exact absurd hm hfits
  · rw [Service.submitCsr_of_not_reaches hreaches]
    simp [hreaches, hself]

section Checking

variable {requestId remoteId : ℕ} {req : MSCARequest}

theorem sound_update_iff (hnoted : t.Noted) (hsound : t.Sound certificateKey csrKey)
    (hget : t.service.requests.get? requestId = some req) (f : MSCARequest → MSCARequest)
    (hid : (f req).id = req.id) :
    (t.observe { t.service with
      requests := t.service.requests.update requestId f }).Sound certificateKey csrKey ↔
        SoundRequest certificateKey csrKey (f req) (t.submitted requestId)
          ((t.decided requestId).or (f req).status.decision) := by
  have hkey : Keyed.withKey requestId (f req) = f req := by
    rw [← Table.key_of_get? hget]
    change { f req with id := req.id } = f req
    rw [← hid]
  have hchanged : (t.service.requests.update requestId f).get? requestId = some (f req) := by
    rw [Table.get?_update_self hget, hkey]
  have hdecided : (t.observe { t.service with
      requests := t.service.requests.update requestId f }).decided requestId =
        (t.decided requestId).or (f req).status.decision := by
    change (t.decided _).or (((t.service.requests.update requestId f).get? requestId).bind _) = _
    rw [hchanged]
    rfl
  constructor
  · intro h
    have hrow := h requestId (f req) hchanged
    rw [hdecided] at hrow
    exact hrow
  · intro h id r hr
    by_cases heq : id = requestId
    · rw [heq] at hr ⊢
      cases hchanged.symm.trans hr
      rw [hdecided]
      exact h
    · have hsame : (t.service.requests.update requestId f).get? id =
          t.service.requests.get? id := Table.get?_update_of_ne (Ne.symm heq)
      rw [decided_observe hnoted hsame]
      exact hsound id r (hsame.symm.trans hr)

theorem decided_eq (hnoted : t.Noted) (hsound : t.Sound certificateKey csrKey)
    (hget : t.service.requests.get? requestId = some req) :
    t.decided requestId = req.status.decision := by
  cases hdecided : t.decided requestId with
  | some d =>
    rw [(hsound requestId req hget).final d hdecided, hnoted.final requestId d hdecided]
  | none =>
    cases hdecision : req.status.decision with
    | none => rfl
    | some d => exact hdecided.symm.trans (hnoted.decision requestId req d hget hdecision)

theorem sound_check_iff (hnoted : t.Noted) (hsound : t.Sound certificateKey csrKey)
    (mscaId requestId : ℕ) (answers : ℕ → Answer) (now : Time) :
    (t.step (.check mscaId requestId answers now)).Sound certificateKey csrKey ↔
      t.Careful certificateKey csrKey (.check mscaId requestId answers now) := by
  rw [step, Careful]
  by_cases hasks : ∃ req remoteId, t.service.Asks mscaId requestId req remoteId
  · obtain ⟨req, remoteId, hasks⟩ := hasks
    have hrow := hsound requestId req hasks.found
    have hdecided := decided_eq hnoted hsound hasks.found
    have hid : req.id = requestId := Table.key_of_get? hasks.found
    have honly : ∀ req' remoteId', t.service.Asks mscaId requestId req' remoteId' →
        req' = req ∧ remoteId' = remoteId := by
      intro req' remoteId' hasks'
      cases hasks.found.symm.trans hasks'.found
      cases hasks.number.symm.trans hasks'.number
      exact ⟨rfl, rfl⟩
    rw [Service.checkRequest_of_asks hasks]
    unfold Service.checkRemote
    cases hanswer : answers remoteId with
    | certificate certPem =>
      dsimp only
      rw [hid, sound_update_iff hnoted hsound hasks.found _ rfl, hdecided]
      constructor
      · intro h req' remoteId' certPem' hasks' hanswer'
        obtain ⟨rfl, rfl⟩ := honly req' remoteId' hasks'
        cases hanswer.symm.trans hanswer'
        refine ⟨?_, h.key certPem rfl⟩
        intro hdenied
        rw [hdenied] at h
        cases h.final .denied rfl
      · intro h
        obtain ⟨hdenied, hmatches⟩ := h req remoteId certPem hasks hanswer
        refine ⟨?_, hrow.number, ?_, hrow.notImported⟩
        · rintro certPem' ⟨⟩
          exact hmatches
        · intro d hd
          have hnone : req.status.decision = none := by
            cases hdecision : req.status.decision with
            | none => rfl
            | some d' =>
              have hdenied' := RequestStatus.eq_denied_of_decision hasks.unissued hdecision
              exact absurd hdenied'.1 hdenied
          rw [hnone] at hd
          exact Option.some.inj hd
    | failure text =>
      have hcareful : ∀ req' remoteId' certPem, t.service.Asks mscaId requestId req' remoteId' →
          answers remoteId' = .certificate certPem → req'.status ≠ .denied ∧
            KeyMatches certificateKey csrKey certPem
              ((t.submitted requestId).map Submitted.csrPem) := by
        intro req' remoteId' certPem hasks' hanswer'
        obtain ⟨rfl, rfl⟩ := honly req' remoteId' hasks'
        cases hanswer.symm.trans hanswer'
      rw [iff_true_right hcareful]
      dsimp only
      split_ifs
      · rw [observe_self hnoted]
        exact hsound
      · rw [hid, sound_update_iff hnoted hsound hasks.found _ rfl, hdecided]
        refine ⟨hrow.key, hrow.number, ?_, hrow.notImported⟩
        intro d hd
        cases hstatus : req.status with
        | issued => exact absurd hstatus hasks.unissued
        | denied => rw [hstatus] at hd; cases hd; rfl
        | pending => rw [hstatus] at hd; cases hd; rfl
        | failed => rw [hstatus] at hd; cases hd; rfl
      · rw [observe_self hnoted]
        exact hsound
  · rw [Service.checkRequest_of_not_asks fun req remoteId h => hasks ⟨req, remoteId, h⟩,
      observe_self hnoted, iff_true_left hsound]
    intro req remoteId certPem h
    exact absurd ⟨req, remoteId, h⟩ hasks

end Checking

theorem step_status (mscaId requestId : ℕ) (answers : ℕ → Answer) (now : Time) :
    t.step (.status mscaId requestId answers now) =
      t.step (.check mscaId requestId answers now) := by
  rw [step, step, Service.checkRequestStatus_fst]

theorem sound_step_iff (hnoted : t.Noted) (hsound : t.Sound certificateKey csrKey) (e : Event) :
    (t.step e).Sound certificateKey csrKey ↔ t.Careful certificateKey csrKey e := by
  cases e with
  | submit sub assigned now => exact sound_submit_iff hnoted hsound sub assigned now
  | sign =>
    rw [step, Service.signCsr, observe_self hnoted]
    exact ⟨fun _ => trivial, fun _ => hsound⟩
  | check mscaId requestId answers now =>
    exact sound_check_iff hnoted hsound mscaId requestId answers now
  | status mscaId requestId answers now =>
    rw [step_status]
    exact sound_check_iff hnoted hsound mscaId requestId answers now

theorem Noted.step (hnoted : t.Noted) {e : Event}
    (hsound : (t.step e).Sound certificateKey csrKey) : (t.step e).Noted := by
  have hfinal : ∀ {t' : Traced} {service : Service}, t'.decided = t.decided →
      (t'.observe service).Sound certificateKey csrKey →
        ∀ id r d, service.requests.get? id = some r → t'.decided id = some d → r.status = d := by
    intro t' service _ hsound id r d hget hdecided
    apply (hsound id r hget).final d
    change (t'.decided id).or _ = some d
    rw [hdecided]
    rfl
  cases e with
  | submit sub assigned now =>
    exact (hnoted.submitting _).observe (fun _ => Service.get?_of_submitCsr) (hfinal rfl hsound)
  | sign =>
    rw [Traced.step, Service.signCsr, observe_self hnoted]
    exact hnoted
  | check mscaId requestId answers now =>
    exact hnoted.observe (fun _ => Service.get?_of_checkRequest) (hfinal rfl hsound)
  | status mscaId requestId answers now =>
    rw [step_status] at hsound ⊢
    exact hnoted.observe (fun _ => Service.get?_of_checkRequest) (hfinal rfl hsound)

end Traced

def start (connections : Table MicrosoftCA) : Traced where
  service := { connections := connections }

/-- In every run the stored certificates have the keys of their CSRs, the stored numbers are those
that the remote CA assigned, and what is issued or denied stays so, exactly if the remote CA is
careful in every step. -/
theorem requests_sound_iff (connections : Table MicrosoftCA) (es : List Event) :
    (∀ pre, pre <+: es →
      (run Traced.step (start connections) pre).Sound certificateKey csrKey) ↔
        Meets Traced.step (Traced.Careful certificateKey csrKey) (start connections) es := by
  apply forall_prefix_iff_meets (I := Traced.Noted)
  · intro t e hnoted hsound
    exact Traced.sound_step_iff hnoted hsound e
  · intro t e hnoted hsound hcareful
    exact hnoted.step ((Traced.sound_step_iff hnoted hsound e).mpr hcareful)
  · refine ⟨?_, fun _ _ => rfl, ?_⟩
    · intro id r d hget
      cases hget
    · intro id d hdecided
      cases hdecided
  · intro id r hget
    cases hget

end Runs

section Sample

def sampleConnections : Table MicrosoftCA := (∅ : Table MicrosoftCA).insert {}

/-- A request that is pending as number 7, and a look at what the remote CA has for a number. -/
def misread : List Event :=
  [.submit
      { mscaId := 1, csrPem := "CSR", template := "WebServer"
        answer := .failure "Taken under submission 2 hours ago. Your Request Id is 7." } (some 7) 0,
    .check 1 1 (fun _ => .certificate "certificate of someone else") 60]

/-- The first number in the text is not the one that was assigned, and what the remote CA has for it
is stored for the request. -/
theorem misread_not_sound :
    let certificateKey := fun text => if text = "certificate of someone else" then some 2 else none
    let csrKey := fun text => if text = "CSR" then some 1 else none
    let t := run Traced.step (start sampleConnections) misread
    (∃ r, t.service.requests.get? 1 = some r ∧ r.requestId = some 2 ∧ r.status = .issued ∧
        r.certPem = some "certificate of someone else") ∧
      ¬t.Sound certificateKey csrKey := by
  intro certificateKey csrKey t
  have hrow : ∃ r, t.service.requests.get? 1 = some r ∧ r.requestId = some 2 ∧
      r.status = .issued ∧ r.certPem = some "certificate of someone else" := by
    have hmisread : (t.service.requests.get? 1).map
        (fun r => (r.requestId, r.status, r.certPem)) =
          some (some 2, .issued, some "certificate of someone else") := by decide +kernel
    obtain ⟨r, hget, hr⟩ := Option.map_eq_some_iff.mp hmisread
    simp only [Prod.mk.injEq] at hr
    exact ⟨r, hget, hr⟩
  refine ⟨hrow, ?_⟩
  intro hsound
  obtain ⟨r, hget, hnumber, _, _⟩ := hrow
  have hassigned : (t.submitted 1).bind Submitted.assigned = some 7 := by decide +kernel
  have hnamed := (hsound 1 r hget).number 2 hnumber
  rw [hassigned] at hnamed
  cases hnamed

end Sample

end Msca

end CaManager
