import CaManager.Library.Json
import CaManager.Library.Machines
import CaManager.Store.Routes
import Mathlib.Logic.Function.Basic

/-!
# The list of webhooks

All webhooks are kept as one JSON list in one row of the configuration. A request that creates or
deletes one reads the list, asks for the row again, and writes the whole list back. Nothing keeps
another request from writing in between, so that what the other one did is undone; and a new
webhook gets the number after the largest one in the list, which a deleted webhook may have had.

Beside the row stand what the answers promise: the webhooks that clients have been told of and that
no client has been told are deleted, and the numbers that have been given to clients.
-/

namespace CaManager

open Library

structure Webhook where
  id : ℕ
  name : Json
  url : Json
  events : Json
  enabled : Json
  createdAt : String
  deriving DecidableEq

namespace Webhooks

/-- What a request asks for. The time of a creation is read from the clock. -/
inductive Request
  | create (body : Json) (now : String)
  | delete (webhookId : ℕ)

inductive Job
  | create (name url events enabled : Json) (createdAt : String)
  | delete (webhookId : ℕ)
  deriving DecidableEq

/-- The checks of `create_webhook`. A body that is no object has no `get`. -/
def checkBody (body : Json) (now : String) : Except Response Job := do
  ensure (body.truthy = true) ⟨400, "Webhook name required"⟩
  let members ← match body with
    | .object members => .ok members
    | _ => .error ⟨500, "Internal server error"⟩
  let get (key : String) := (members.lookup key).getD .null
  ensure ((get "name").truthy = true) ⟨400, "Webhook name required"⟩
  ensure ((get "url").truthy = true) ⟨400, "Webhook URL required"⟩
  ensure ((get "events").truthy = true) ⟨400, "At least one event required"⟩
  return .create (get "name") (get "url") (get "events")
    ((members.lookup "enabled").getD (.bool true)) now

def Request.check : Request → Except Response Job
  | create body now => checkBody body now
  | delete webhookId => .ok (.delete webhookId)

/-- `max([w.get('id', 0) for w in webhooks], default=0) + 1` -/
def nextId (webhooks : List Webhook) : ℕ := (webhooks.map Webhook.id).foldr max 0 + 1

/-- `[w for w in webhooks if w.get('id') != webhook_id]` -/
def without (webhookId : ℕ) (webhooks : List Webhook) : List Webhook :=
  webhooks.filter fun w => w.id ≠ webhookId

def Job.rewrite (webhooks : List Webhook) : Job → List Webhook
  | create name url events enabled createdAt =>
    webhooks ++ [{ id := nextId webhooks, name, url, events, enabled, createdAt }]
  | delete webhookId => without webhookId webhooks

/-- How far a request has got: it has the list, or it has also found the row, or that there is
none. -/
inductive Phase
  | idle
  | listed (job : Job) (webhooks : List Webhook)
  | queried (job : Job) (webhooks : List Webhook) (row : Option (List Webhook))
  deriving DecidableEq

/-- The row with its list, the requests under way, and what clients have been told. -/
structure Site where
  row : Option (List Webhook) := none
  phase : ℕ → Phase := fun _ => .idle
  promised : List Webhook := []
  handedOut : List ℕ := []

/-- `get_webhooks` -/
def Site.stored (s : Site) : List Webhook := s.row.getD []

def Site.setPhase (s : Site) (i : ℕ) (phase : Phase) : Site :=
  { s with phase := Function.update s.phase i phase }

def Site.acknowledge (s : Site) (webhooks : List Webhook) : Job → Site
  | .create name url events enabled createdAt =>
    let w : Webhook := { id := nextId webhooks, name, url, events, enabled, createdAt }
    { s with promised := s.promised ++ [w], handedOut := s.handedOut ++ [w.id] }
  | .delete webhookId => { s with promised := without webhookId s.promised }

/-- The commit of `save_webhooks`. A row that has come up since none was found makes the insertion
fail, and a row that was found with the same text is not written. -/
def Site.commit (s : Site) (i : ℕ) (job : Job) (webhooks : List Webhook)
    (row : Option (List Webhook)) : Site :=
  let after := s.setPhase i .idle
  if row = none ∧ s.row ≠ none then after
  else if row = some (job.rewrite webhooks) then after.acknowledge webhooks job
  else { after with row := some (job.rewrite webhooks) }.acknowledge webhooks job

/-- Requests take their steps in any order: a worker that is free reads the list for a request,
asks for the row, and commits. -/
inductive Event
  | list (i : ℕ) (request : Request)
  | query (i : ℕ)
  | commit (i : ℕ)

def step (s : Site) : Event → Site
  | .list i request =>
    match s.phase i, request.check with
    | .idle, .ok job => s.setPhase i (.listed job s.stored)
    | _, _ => s
  | .query i =>
    match s.phase i with
    | .listed job webhooks => s.setPhase i (.queried job webhooks s.row)
    | _ => s
  | .commit i =>
    match s.phase i with
    | .queried job webhooks row => s.commit i job webhooks row
    | _ => s

/-- The list holds what clients have been told of, and no number was given twice. -/
structure Kept (s : Site) : Prop where
  stored : s.stored = s.promised
  once : s.handedOut.Nodup

/-- A request writes what it would write if it read the list now. A creation must have read the
list that is stored, and find a number that was never given. A deletion must have read a list with
the same other webhooks; where it writes nothing, its webhook must not be stored. -/
def Job.Current (s : Site) (webhooks : List Webhook) (row : Option (List Webhook)) : Job → Prop
  | .create .. => webhooks = s.stored ∧ nextId webhooks ∉ s.handedOut
  | .delete webhookId =>
    if row = some (without webhookId webhooks) then ∀ w ∈ s.stored, w.id ≠ webhookId
    else without webhookId webhooks = without webhookId s.stored

instance (s : Site) (webhooks : List Webhook) (row : Option (List Webhook)) :
    ∀ job : Job, Decidable (job.Current s webhooks row)
  | .create .. => inferInstanceAs (Decidable (_ ∧ _))
  | .delete webhookId => inferInstanceAs (Decidable
      (if row = some (without webhookId webhooks) then ∀ w ∈ s.stored, w.id ≠ webhookId
      else without webhookId webhooks = without webhookId s.stored))

def Undisturbed (s : Site) : Event → Prop
  | .commit i =>
    match s.phase i with
    | .queried job webhooks row => (row = none → s.row = none) → job.Current s webhooks row
    | _ => True
  | _ => True

/-- What a client has been told of has a number that was given, and so has all that a request under
way has found in the row. -/
structure Known (s : Site) : Prop where
  promised : ∀ w ∈ s.promised, w.id ∈ s.handedOut
  found : ∀ i job webhooks l, s.phase i = .queried job webhooks (some l) →
    ∀ w ∈ l, w.id ∈ s.handedOut

section Fields

variable (s : Site) (i : ℕ) (phase : Phase) (webhooks : List Webhook) (job : Job)

@[simp] theorem setPhase_stored : (s.setPhase i phase).stored = s.stored := rfl

@[simp] theorem setPhase_row : (s.setPhase i phase).row = s.row := rfl

@[simp] theorem setPhase_promised : (s.setPhase i phase).promised = s.promised := rfl

@[simp] theorem setPhase_handedOut : (s.setPhase i phase).handedOut = s.handedOut := rfl

@[simp] theorem acknowledge_row : (s.acknowledge webhooks job).row = s.row := by
  cases job <;> rfl

@[simp] theorem acknowledge_phase : (s.acknowledge webhooks job).phase = s.phase := by
  cases job <;> rfl

theorem subset_acknowledge_handedOut : s.handedOut ⊆ (s.acknowledge webhooks job).handedOut := by
  cases job with
  | create => exact List.subset_append_left _ _
  | delete => exact List.Subset.refl _

theorem phase_setPhase {j : ℕ} {phase' : Phase} (h : (s.setPhase i phase).phase j = phase') :
    j = i ∧ phase = phase' ∨ s.phase j = phase' := by
  by_cases hj : j = i
  · subst hj
    exact .inl ⟨rfl, by simpa [Site.setPhase] using h⟩
  · exact .inr (by simpa [Site.setPhase, hj] using h)

end Fields

section Steps

variable {s : Site} {i : ℕ} {job : Job} {webhooks : List Webhook} {row : Option (List Webhook)}

theorem Known.setPhase {phase : Phase} (h : Known s)
    (hphase : ∀ job webhooks l, phase = .queried job webhooks (some l) →
      ∀ w ∈ l, w.id ∈ s.handedOut) : Known (s.setPhase i phase) := by
  refine ⟨h.promised, ?_⟩
  intro j job webhooks l hj
  rcases phase_setPhase s i phase hj with ⟨_, hsame⟩ | hold
  · exact hphase job webhooks l hsame
  · exact h.found j job webhooks l hold

theorem Known.acknowledge (h : Known s) : Known (s.acknowledge webhooks job) := by
  constructor
  · intro w hw
    cases job with
    | create name url events enabled createdAt =>
      rcases List.mem_append.mp hw with hw | hw
      · exact List.mem_append_left _ (h.promised w hw)
      · rw [List.mem_singleton] at hw
        simp [Site.acknowledge, hw]
    | delete webhookId => exact h.promised w (List.mem_filter.mp hw).1
  · intro j job' webhooks' l hj w hw
    rw [acknowledge_phase] at hj
    exact subset_acknowledge_handedOut s webhooks job (h.found j job' webhooks' l hj w hw)

theorem Known.commit (h : Known s) : Known (s.commit i job webhooks row) := by
  have hidle : Known (s.setPhase i .idle) := h.setPhase (by simp)
  simp only [Site.commit]
  split_ifs
  · exact hidle
  · exact hidle.acknowledge
  · exact Known.acknowledge ⟨hidle.promised, hidle.found⟩

@[simp] theorem kept_setPhase {phase : Phase} : Kept (s.setPhase i phase) ↔ Kept s :=
  ⟨fun h => ⟨h.stored, h.once⟩, fun h => ⟨h.stored, h.once⟩⟩

theorem commit_of_ok (hok : row = none → s.row = none) :
    s.commit i job webhooks row =
      { s.setPhase i .idle with
        row := if row = some (job.rewrite webhooks) then s.row else some (job.rewrite webhooks)
      }.acknowledge webhooks job := by
  have hfound : ¬(row = none ∧ s.row ≠ none) := fun h => h.2 (hok h.1)
  unfold Site.commit
  rw [if_neg hfound]
  split_ifs <;> rfl

theorem stored_commit (hok : row = none → s.row = none) :
    (s.commit i job webhooks row).stored =
      if row = some (job.rewrite webhooks) then s.stored else job.rewrite webhooks := by
  rw [commit_of_ok hok, Site.stored, acknowledge_row]
  split_ifs <;> rfl

theorem kept_create_iff {name url events enabled : Json} {createdAt : String}
    (hknown : Known s) (hkept : Kept s)
    (hphase : s.phase i = .queried (.create name url events enabled createdAt) webhooks row)
    (hok : row = none → s.row = none) :
    Kept (s.commit i (.create name url events enabled createdAt) webhooks row) ↔
      webhooks = s.stored ∧ nextId webhooks ∉ s.handedOut := by
  have hhanded : (s.commit i (.create name url events enabled createdAt) webhooks row).handedOut =
      s.handedOut ++ [nextId webhooks] := by
    rw [commit_of_ok hok]
    rfl
  have hpromised : (s.commit i (.create name url events enabled createdAt) webhooks row).promised =
      s.stored ++ [⟨nextId webhooks, name, url, events, enabled, createdAt⟩] := by
    rw [commit_of_ok hok, hkept.stored]
    rfl
  have honce : (s.handedOut ++ [nextId webhooks]).Nodup ↔ nextId webhooks ∉ s.handedOut := by
    rw [← List.concat_eq_append, List.nodup_concat]
    exact and_iff_left hkept.once
  -- the row was not found with a webhook whose number has yet to be given
  have hwritten : nextId webhooks ∉ s.handedOut →
      (s.commit i (.create name url events enabled createdAt) webhooks row).stored =
        webhooks ++ [⟨nextId webhooks, name, url, events, enabled, createdAt⟩] := by
    intro hnew
    rw [stored_commit hok, if_neg]
    · rfl
    · rintro rfl
      exact hnew (hknown.found i _ _ _ hphase ⟨nextId webhooks, name, url, events, enabled,
        createdAt⟩ (List.mem_append_right _ (List.mem_singleton_self _)))
  constructor
  · intro h
    have hnew := honce.mp (hhanded ▸ h.once)
    have hlist := h.stored
    rw [hwritten hnew, hpromised] at hlist
    exact ⟨List.append_cancel_right hlist, hnew⟩
  · rintro ⟨hread, hnew⟩
    refine ⟨?_, ?_⟩
    · rw [hwritten hnew, hpromised, ← hread]
    · rw [hhanded]
      exact honce.mpr hnew

theorem kept_delete_iff {webhookId : ℕ} (hkept : Kept s) (hok : row = none → s.row = none) :
    Kept (s.commit i (.delete webhookId) webhooks row) ↔
      (Job.delete webhookId).Current s webhooks row := by
  have hhanded : (s.commit i (.delete webhookId) webhooks row).handedOut = s.handedOut := by
    rw [commit_of_ok hok]
    rfl
  have hpromised : (s.commit i (.delete webhookId) webhooks row).promised =
      without webhookId s.stored := by
    rw [commit_of_ok hok, hkept.stored]
    rfl
  have hiff : Kept (s.commit i (.delete webhookId) webhooks row) ↔
      (s.commit i (.delete webhookId) webhooks row).stored = without webhookId s.stored := by
    constructor
    · exact fun h => h.stored.trans hpromised
    · exact fun h => ⟨h.trans hpromised.symm, hhanded.symm ▸ hkept.once⟩
  rw [hiff, stored_commit hok, Job.Current, Job.rewrite]
  split_ifs with hsame
  · rw [eq_comm, without, List.filter_eq_self]
    simp
  · rfl

theorem kept_step_iff (hknown : Known s) (hkept : Kept s) (e : Event) :
    Kept (step s e) ↔ Undisturbed s e := by
  cases e with
  | list i request =>
    simp only [step, Undisturbed, iff_true]
    split <;> simp [hkept]
  | query i =>
    simp only [step, Undisturbed, iff_true]
    split <;> simp [hkept]
  | commit i =>
    simp only [step, Undisturbed]
    cases hphase : s.phase i with
    | idle => simpa using hkept
    | listed => simpa using hkept
    | queried job webhooks row =>
      simp only
      by_cases hok : row = none → s.row = none
      · rw [forall_prop_of_true hok]
        cases job with
        | create => exact kept_create_iff hknown hkept hphase hok
        | delete => exact kept_delete_iff hkept hok
      · have hfails : row = none ∧ s.row ≠ none := Classical.not_imp.mp hok
        rw [forall_prop_of_false hok, iff_true, Site.commit, if_pos hfails]
        exact kept_setPhase.mpr hkept

theorem known_step (hknown : Known s) (hkept : Kept s) (e : Event) : Known (step s e) := by
  cases e with
  | list i request =>
    simp only [step]
    split
    · exact hknown.setPhase (by simp)
    · exact hknown
  | query i =>
    simp only [step]
    split
    · apply hknown.setPhase
      rintro job webhooks l hphase w hw
      -- what is in the row now is what clients have been told of
      have hrow : s.row = some l := by
        injection hphase
      have hstored : s.stored = l := by
        simp [Site.stored, hrow]
      exact hknown.promised w (hkept.stored ▸ hstored.symm ▸ hw)
    · exact hknown
  | commit i =>
    simp only [step]
    split
    · exact hknown.commit
    · exact hknown

end Steps

/-- In every state of a run from the empty configuration the list holds exactly what clients have
been told of, under numbers that are given once, if and only if every commit is of something
current. -/
theorem webhooks_kept_iff (es : List Event) :
    (∀ pre, pre <+: es → Kept (run step {} pre)) ↔ Meets step Undisturbed {} es := by
  have hiff : ∀ s e, Known s → Kept s → (Kept (step s e) ↔ Undisturbed s e) :=
    fun _ e hknown hkept => kept_step_iff hknown hkept e
  have hkeep : ∀ s e, Known s → Kept s → Undisturbed s e → Known (step s e) :=
    fun _ e hknown hkept _ => known_step hknown hkept e
  apply forall_prefix_iff_meets hiff hkeep
  · exact ⟨by simp, by simp⟩
  · exact ⟨rfl, List.nodup_nil⟩

/-- A webhook is created; then two clients create one each, and the second of them has read the list
before the first one writes it. -/
def twoClients : List Event :=
  let body (name : String) : Json :=
    .object [("name", .text name), ("url", .text "https://hook"), ("events", .array [.text "all"])]
  [.list 0 (.create (body "first") "10:00"), .query 0, .commit 0,
    .list 1 (.create (body "second") "10:01"), .list 2 (.create (body "third") "10:01"),
    .query 1, .commit 1, .query 2, .commit 2]

/-- When both have been answered, the webhook of the first is gone, and both have its number. -/
theorem twoClients_not_kept :
    (∀ i, (run step {} twoClients).phase i = .idle) ∧
      (run step {} twoClients).stored ≠ (run step {} twoClients).promised ∧
      (run step {} twoClients).handedOut = [1, 2, 2] ∧ ¬Kept (run step {} twoClients) := by
  have hlost : (run step {} twoClients).stored ≠ (run step {} twoClients).promised := by decide
  refine ⟨?_, hlost, by decide, fun h => hlost h.stored⟩
  intro i
  match i with
  | 0 | 1 | 2 | _ + 3 => rfl

end Webhooks

end CaManager
