import CaManager.Accounts.Administration
import CaManager.Library.Machines
import Mathlib.Data.Finset.Card
import Mathlib.Data.Finset.Dedup

/-!
# Votes on an approval request

A request waits for a number of approvals, and a rejection ends it. What a vote adds to the
log is taken from the user that the request object carries; the sign-in leaves the user
elsewhere, so the log does not tell who voted.
-/

namespace CaManager

open Library

inductive ApprovalAction
  | approve
  | reject
  deriving Repr, DecidableEq

structure Approval where
  userId : Option ℕ
  username : String
  action : ApprovalAction
  comment : Json
  timestamp : Time

/-- The log is none when its column cannot be read. -/
structure ApprovalRequest where
  requesterId : ℕ
  status : String := "pending"
  approvals : Option (List Approval) := some []
  requiredApprovals : Option ℤ := some 1
  expiresAt : Option Time := none
  resolvedAt : Option Time := none

/-- Where a request in progress holds a user: on itself, and in the globals beside it. -/
structure RequestContext where
  currentUser : Option User
  gCurrentUser : Option User

def RequestContext.authenticated (user : User) : RequestContext :=
  { currentUser := none, gCurrentUser := some user }

namespace ApprovalRequest

def getApprovals (r : ApprovalRequest) : List Approval := r.approvals.getD []

def count (action : ApprovalAction) (approvals : List Approval) : ℕ :=
  approvals.countP fun a => a.action = action

/-- Add an entry and resolve the request if it decides it. Comparing with a missing number
raises. -/
def addApproval (r : ApprovalRequest) (entry : Approval) : Except Refusal ApprovalRequest :=
  let approvals := r.getApprovals ++ [entry]
  let r' := { r with approvals := some approvals }
  match r.requiredApprovals with
  | none => .error ⟨500, "Internal server error"⟩
  | some required =>
    if required ≤ count .approve approvals then
      .ok { r' with status := "approved", resolvedAt := some entry.timestamp }
    else if 0 < count .reject approvals then
      .ok { r' with status := "rejected", resolvedAt := some entry.timestamp }
    else .ok r'

end ApprovalRequest

namespace Policies

open ApprovalRequest

/-- A vote: who is signed in, and the comment in the body. -/
structure Vote where
  user : User
  action : ApprovalAction
  comment : Json := .null
  now : Time

def Vote.entry (v : Vote) (context : RequestContext) : Approval :=
  { userId := context.currentUser.map User.id
    username := (context.currentUser.map User.username).getD "system"
    action := v.action, comment := v.comment, timestamp := v.now }

/-- `approve_request` and `reject_request` -/
def vote (r : ApprovalRequest) (v : Vote) : Except Refusal ApprovalRequest := do
  ensure (r.status = "pending") ⟨400, "Request is already " ++ r.status⟩
  ensure (v.action = .reject → v.comment.truthy = true) ⟨400, "Rejection reason is required"⟩
  r.addApproval (v.entry (.authenticated v.user))

/-- A request, and the votes on it that were recorded, with who cast them. -/
structure Case where
  request : ApprovalRequest
  votes : List Vote := []

def step (c : Case) (v : Vote) : Case :=
  match vote c.request v with
  | .ok request => { request, votes := c.votes ++ [v] }
  | .error _ => c

/-- An approval that counts: by another than the requester, and before the expiry. -/
def Valid (r : ApprovalRequest) (v : Vote) : Prop :=
  v.action = .approve ∧ v.user.id ≠ r.requesterId ∧ ∀ expiry ∈ r.expiresAt, v.now < expiry

instance (r : ApprovalRequest) (v : Vote) : Decidable (Valid r v) :=
  inferInstanceAs (Decidable (_ ∧ _ ∧ _))

def approvers (c : Case) : Finset ℕ :=
  ((c.votes.filter fun v => Valid c.request v).map fun v => v.user.id).toFinset

/-- An approved request was approved by as many different users as it requires, and rejected by
nobody. -/
def Sound (c : Case) : Prop :=
  c.request.status = "approved" →
    (∃ required, c.request.requiredApprovals = some required ∧ required ≤ (approvers c).card) ∧
      ∀ v ∈ c.votes, v.action = .approve

def Final (c : Case) (vs : List Vote) : Prop :=
  ∀ pre v, pre ++ [v] <+: vs → (run step c pre).request.status ∈ ["approved", "rejected"] →
    (run step c (pre ++ [v])).request.status = (run step c pre).request.status

/-- The vote is recorded: the request waits, and a rejection has its reason. -/
def Recorded (c : Case) (v : Vote) : Prop :=
  c.request.status = "pending" ∧ (v.action = .reject → v.comment.truthy = true)

/-- A vote that makes up the number of approvals is an approval; and where any are required, it
and the votes before it count and are by different users. -/
def Proper (c : Case) (v : Vote) : Prop :=
  Recorded c v → ∀ required, c.request.requiredApprovals = some required →
    required ≤ (c.votes ++ [v]).countP (fun v' => v'.action = .approve) →
    v.action = .approve ∧ (0 < required →
      (∀ v' ∈ c.votes ++ [v], Valid c.request v') ∧
        ((c.votes ++ [v]).map fun v' => v'.user.id).Nodup)

/-- The log agrees with the votes, and as long as the request waits these are approvals and too
few. -/
structure Kept (c : Case) : Prop where
  log : c.request.getApprovals.map Approval.action = c.votes.map Vote.action
  status : c.request.status ∈ ["pending", "approved", "rejected"]
  approvals : c.request.status = "pending" → ∀ v ∈ c.votes, v.action = .approve
  few : c.request.status = "pending" → ∀ required, c.request.requiredApprovals = some required →
    c.votes = [] ∨ c.votes.length < required

/-- Counting the different values of the elements that pass a test gives the full number only
if all pass and no two values agree. -/
theorem length_le_card_iff {α : Type*} {p : α → Prop} [DecidablePred p] {f : α → ℕ} {l : List α} :
    l.length ≤ ((l.filter fun a => p a).map f).toFinset.card ↔
      (∀ a ∈ l, p a) ∧ (l.map f).Nodup := by
  rw [List.card_toFinset]
  constructor
  · intro h
    have hdedup := (List.dedup_sublist ((l.filter fun a => p a).map f)).length_le
    have hfilter := List.length_filter_le (fun a => decide (p a)) l
    rw [List.length_map] at hdedup
    have hall : ∀ a ∈ l, decide (p a) = true :=
      List.length_filter_eq_length_iff.mp (by omega)
    have hself : l.filter (fun a => p a) = l := List.filter_eq_self.mpr hall
    rw [hself] at h
    refine ⟨fun a ha => of_decide_eq_true (hall a ha), ?_⟩
    rw [← List.dedup_eq_self]
    refine (List.dedup_sublist _).eq_of_length_le ?_
    rw [List.length_map]
    exact h
  · rintro ⟨hall, hnodup⟩
    have hself : l.filter (fun a => p a) = l :=
      List.filter_eq_self.mpr fun a ha => decide_eq_true (hall a ha)
    rw [hself, List.dedup_eq_self.mpr hnodup, List.length_map]

section Step

variable {c : Case} {v : Vote} {required : ℤ}

theorem step_of_not_recorded (h : ¬Recorded c v) : step c v = c := by
  have hvote : ∃ e, vote c.request v = .error e := by
    unfold vote
    by_cases hpending : c.request.status = "pending"
    · have hreason : ¬(v.action = .reject → v.comment.truthy = true) := fun hr => h ⟨hpending, hr⟩
      exact ⟨_, by rw [ensure_of hpending, ensure_of_not hreason]; rfl⟩
    · exact ⟨_, by rw [ensure_of_not hpending]; rfl⟩
  obtain ⟨e, he⟩ := hvote
  rw [step, he]

theorem vote_of_recorded (h : Recorded c v) :
    vote c.request v = c.request.addApproval (v.entry (.authenticated v.user)) := by
  unfold vote
  rw [ensure_of h.1, ensure_of h.2]
  rfl

theorem step_of_none (h : c.request.requiredApprovals = none) : step c v = c := by
  by_cases hrecorded : Recorded c v
  · rw [step, vote_of_recorded hrecorded, addApproval, h]
  · exact step_of_not_recorded hrecorded

def outcome (required : ℤ) (votes : List Vote) (v : Vote) : String :=
  if required ≤ votes.countP (fun v' => v'.action = .approve) then "approved"
  else if v.action = .reject then "rejected" else "pending"

theorem count_eq {action : ApprovalAction} {approvals : List Approval} {votes : List Vote}
    (h : approvals.map Approval.action = votes.map Vote.action) :
    count action approvals = votes.countP fun v => v.action = action := by
  have hcount := congrArg (List.countP fun a => decide (a = action)) h
  rw [List.countP_map, List.countP_map] at hcount
  exact hcount

theorem step_of_recorded (hk : Kept c) (h : Recorded c v)
    (hrequired : c.request.requiredApprovals = some required) :
    (step c v).votes = c.votes ++ [v] ∧
      (step c v).request.requesterId = c.request.requesterId ∧
      (step c v).request.expiresAt = c.request.expiresAt ∧
      (step c v).request.requiredApprovals = some required ∧
      (step c v).request.getApprovals.map Approval.action = (c.votes ++ [v]).map Vote.action ∧
      (step c v).request.status = outcome required (c.votes ++ [v]) v := by
  have hlog : (c.request.getApprovals ++ [v.entry (.authenticated v.user)]).map Approval.action =
      (c.votes ++ [v]).map Vote.action := by
    rw [List.map_append, List.map_append, hk.log]
    rfl
  have hreject : 0 < count .reject (c.request.getApprovals ++ [v.entry (.authenticated v.user)]) ↔
      v.action = .reject := by
    rw [count_eq hlog, List.countP_pos_iff]
    constructor
    · rintro ⟨v', hv', haction⟩
      rcases List.mem_append.mp hv' with hv' | hv'
      · rw [hk.approvals h.1 v' hv'] at haction
        cases of_decide_eq_true haction
      · exact List.mem_singleton.mp hv' ▸ of_decide_eq_true haction
    · exact fun haction => ⟨v, List.mem_append_right _ List.mem_cons_self, decide_eq_true haction⟩
  have happrove : count .approve (c.request.getApprovals ++ [v.entry (.authenticated v.user)]) =
      (c.votes ++ [v]).countP fun v' => v'.action = .approve := count_eq hlog
  unfold outcome
  rw [step, vote_of_recorded h, addApproval, hrequired]
  simp only [happrove, hreject]
  split_ifs
  · exact ⟨rfl, rfl, rfl, rfl, hlog, rfl⟩
  · exact ⟨rfl, rfl, rfl, rfl, hlog, rfl⟩
  · exact ⟨rfl, rfl, rfl, rfl, hlog, h.1⟩

theorem enough_iff (hk : Kept c) (hpending : c.request.status = "pending")
    (hrequired : c.request.requiredApprovals = some required) (haction : v.action = .approve)
    (hdone : required ≤ (c.votes ++ [v]).countP fun v' => v'.action = .approve) :
    required ≤ (((c.votes ++ [v]).filter fun v' => Valid c.request v').map
        fun v' => v'.user.id).toFinset.card ↔
      (0 < required → (∀ v' ∈ c.votes ++ [v], Valid c.request v') ∧
        ((c.votes ++ [v]).map fun v' => v'.user.id).Nodup) := by
  by_cases hpos : 0 < required
  · have hall : (c.votes ++ [v]).countP (fun v' => v'.action = .approve) =
        (c.votes ++ [v]).length := by
      rw [List.countP_eq_length]
      intro v' hv'
      rcases List.mem_append.mp hv' with hv' | hv'
      · exact decide_eq_true (hk.approvals hpending v' hv')
      · exact decide_eq_true (List.mem_singleton.mp hv' ▸ haction)
    have hlength : required = ((c.votes ++ [v]).length : ℤ) := by
      rw [hall] at hdone
      rw [List.length_append, List.length_singleton] at hdone ⊢
      rcases hk.few hpending required hrequired with hnil | hfew
      · rw [hnil, List.length_nil] at hdone ⊢
        omega
      · omega
    rw [forall_prop_of_true hpos, ← length_le_card_iff, hlength, Int.ofNat_le]
  · exact iff_of_true (by omega) fun hpos' => absurd hpos' hpos

theorem sound_step_iff (hk : Kept c) (hs : Sound c) : Sound (step c v) ↔ Proper c v := by
  by_cases h : Recorded c v
  · cases hrequired : c.request.requiredApprovals with
    | none =>
      rw [step_of_none hrequired]
      exact iff_of_true hs fun _ required hsome => by cases hrequired.symm.trans hsome
    | some required =>
      obtain ⟨hvotes, hrequester, hexpires, hrequired', _, hstatus⟩ := step_of_recorded hk h hrequired
      have hvalid : ∀ v', Valid (step c v).request v' ↔ Valid c.request v' := by
        intro v'
        unfold Valid
        rw [hrequester, hexpires]
      by_cases hdone : required ≤ (c.votes ++ [v]).countP fun v' => v'.action = .approve
      · have happroved : (step c v).request.status = "approved" := by
          rw [hstatus, outcome, if_pos hdone]
        have hcard : approvers (step c v) = (((c.votes ++ [v]).filter
            fun v' => Valid c.request v').map fun v' => v'.user.id).toFinset := by
          unfold approvers
          rw [hvotes]
          simp only [hvalid]
        constructor
        · intro hsound _ required' hsome _
          rw [hrequired, Option.some.injEq] at hsome
          obtain ⟨⟨required'', hsome', hle⟩, hall⟩ := hsound happroved
          rw [hrequired', Option.some.injEq] at hsome'
          have haction : v.action = .approve :=
            hall v (hvotes ▸ List.mem_append_right _ List.mem_cons_self)
          refine ⟨haction, ?_⟩
          rw [← hsome', hcard] at hle
          exact hsome ▸ (enough_iff hk h.1 hrequired haction hdone).mp hle
        · intro hproper _
          obtain ⟨haction, henough⟩ := hproper h required hrequired hdone
          refine ⟨⟨required, hrequired', ?_⟩, ?_⟩
          · rw [hcard]
            exact (enough_iff hk h.1 hrequired haction hdone).mpr henough
          · intro v' hv'
            rw [hvotes] at hv'
            rcases List.mem_append.mp hv' with hv' | hv'
            · exact hk.approvals h.1 v' hv'
            · exact List.mem_singleton.mp hv' ▸ haction
      · have hwaits : (step c v).request.status ≠ "approved" := by
          rw [hstatus, outcome, if_neg hdone]
          split_ifs <;> decide
        refine iff_of_true (fun heq => absurd heq hwaits) fun _ required' hsome hdone' => ?_
        rw [hrequired, Option.some.injEq] at hsome
        exact absurd (hsome ▸ hdone') hdone
  · rw [step_of_not_recorded h]
    exact iff_of_true hs fun hrecorded => absurd hrecorded h

theorem Kept.step (hk : Kept c) (v : Vote) : Kept (step c v) := by
  by_cases h : Recorded c v
  · cases hrequired : c.request.requiredApprovals with
    | none => rwa [step_of_none hrequired]
    | some required =>
      obtain ⟨hvotes, _, _, hrequired', hlog, hstatus⟩ := step_of_recorded hk h hrequired
      have hpending : outcome required (c.votes ++ [v]) v = "pending" →
          (c.votes ++ [v]).countP (fun v' => v'.action = .approve) < required ∧
            v.action = .approve := by
        unfold outcome
        split_ifs with hdone hreject
        · intro heq
          simp at heq
        · intro heq
          simp at heq
        · intro _
          refine ⟨by omega, ?_⟩
          cases haction : v.action with
          | approve => rfl
          | reject => exact absurd haction hreject
      refine ⟨hvotes ▸ hlog, ?_, ?_, ?_⟩
      · rw [hstatus]
        unfold outcome
        split_ifs <;> simp
      · intro heq v' hv'
        rw [hvotes] at hv'
        rcases List.mem_append.mp hv' with hv' | hv'
        · exact hk.approvals h.1 v' hv'
        · exact List.mem_singleton.mp hv' ▸ (hpending (hstatus ▸ heq)).2
      · intro heq required' hsome
        rw [hrequired', Option.some.injEq] at hsome
        obtain ⟨hfew, haction⟩ := hpending (hstatus ▸ heq)
        have hall : (c.votes ++ [v]).countP (fun v' => v'.action = .approve) =
            (c.votes ++ [v]).length := by
          rw [List.countP_eq_length]
          intro v' hv'
          rcases List.mem_append.mp hv' with hv' | hv'
          · exact decide_eq_true (hk.approvals h.1 v' hv')
          · exact decide_eq_true (List.mem_singleton.mp hv' ▸ haction)
        right
        rw [hvotes]
        omega
  · rwa [step_of_not_recorded h]

end Step

theorem final_of_decided {c : Case} {v : Vote}
    (h : c.request.status ∈ ["approved", "rejected"]) : step c v = c := by
  refine step_of_not_recorded fun hrecorded => ?_
  rw [hrecorded.1] at h
  revert h
  decide

def newRequest (requesterId : ℕ) (requiredApprovals : Option ℤ) (expiresAt : Option Time) :
    ApprovalRequest :=
  { requesterId, requiredApprovals, expiresAt }

/-- The votes on a request keep its integrity exactly if they are proper. -/
theorem approvals_run_iff (requesterId : ℕ) (requiredApprovals : Option ℤ)
    (expiresAt : Option Time) (vs : List Vote) :
    ((∀ pre, pre <+: vs →
        Sound (run step { request := newRequest requesterId requiredApprovals expiresAt } pre)) ∧
      Final { request := newRequest requesterId requiredApprovals expiresAt } vs) ↔
    Meets step Proper { request := newRequest requesterId requiredApprovals expiresAt } vs := by
  have hfinal : Final { request := newRequest requesterId requiredApprovals expiresAt } vs := by
    intro pre v _ hdecided
    rw [run_append, run_cons, run_nil, final_of_decided hdecided]
  have hkept : Kept { request := newRequest requesterId requiredApprovals expiresAt } :=
    ⟨rfl, List.mem_cons_self, fun _ v hv => absurd hv List.not_mem_nil, fun _ _ _ => .inl rfl⟩
  rw [and_iff_left hfinal]
  refine forall_prefix_iff_meets (I := Kept) (fun c v hk hs => sound_step_iff hk hs)
    (fun c v hk _ _ => hk.step v) vs hkept ?_
  intro happroved
  simp [newRequest] at happroved

def sampleVoter (id : ℕ) : User :=
  { id, username := "operator", email := "", passwordHash := "" }

/-- The requester approves twice what two others had to approve, after its expiry. -/
theorem requester_approves_twice :
    ¬Sound (run step { request := newRequest 7 (some 2) (some 100) }
      [{ user := sampleVoter 7, action := .approve, now := 200 },
       { user := sampleVoter 7, action := .approve, now := 201 }]) := by
  intro hsound
  obtain ⟨⟨required, hrequired, hle⟩, _⟩ := hsound (by decide)
  have hnone : approvers (run step { request := newRequest 7 (some 2) (some 100) }
      [{ user := sampleVoter 7, action := .approve, now := 200 },
       { user := sampleVoter 7, action := .approve, now := 201 }]) = ∅ := by decide
  rw [hnone, Finset.card_empty] at hle
  cases hrequired
  exact absurd hle (by decide)

end Policies

end CaManager
