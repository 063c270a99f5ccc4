import CaManager.Acme.Service
import CaManager.Library.Machines

/-!
# Nonces are used once

The server hands out nonces, takes them back and sweeps the expired ones away, in any order
and whatever the clock says. A nonce that has been taken is marked or gone, and only handing
it out again would make it good.
-/

namespace CaManager

open Library

namespace AcmeNonces

open AcmeService

/-- A call of the service. What `generate_nonce` draws is part of its event. -/
inductive Event
  | generate (token : String) (now : Time)
  | validate (token : String) (now : Time)
  | cleanup (now : Time)
  deriving Repr, DecidableEq

def Event.time : Event → Time
  | generate _ now => now
  | validate _ now => now
  | cleanup now => now

def Event.generated : Event → Option String
  | generate token _ => some token
  | _ => none

def step (st : AcmeStore) : Event → AcmeStore
  | .generate token now => (generateNonce st token now).getD st
  | .validate token now => (validateNonce st token now).2
  | .cleanup now => (cleanupExpiredNonces st now).2

def Accepts (st : AcmeStore) (token : String) (now : Time) : Prop :=
  (validateNonce st token now).1 = true

def CollisionFree (es : List Event) : Prop := (es.filterMap Event.generated).Nodup

instance (es : List Event) : Decidable (CollisionFree es) :=
  inferInstanceAs (Decidable (List.Nodup _))

def Chronological (es : List Event) : Prop := es.Pairwise fun e e' => e.time ≤ e'.time

/-- In the run each token is accepted at most once, only after it was handed out, and within
the hour. -/
structure Protected (st : AcmeStore) (es : List Event) : Prop where
  once : ∀ pre mid post token now now',
    es = pre ++ .validate token now :: (mid ++ .validate token now' :: post) →
    Accepts (run step st pre) token now →
    ¬Accepts (run step st (pre ++ .validate token now :: mid)) token now'
  generated : ∀ pre post token now, es = pre ++ .validate token now :: post →
    Accepts (run step st pre) token now →
    ∃ t, .generate token t ∈ pre ∧ now < t + 3600 ∧ (Chronological es → t ≤ now)

variable {st : AcmeStore} {e : Event} {es : List Event} {token : String} {now : Time}
  {n : AcmeNonce}

theorem accepts_iff :
    Accepts st token now ↔ ∃ n ∈ st.nonces, n.token = token ∧ n.used = false ∧ now < n.expiresAt := by
  unfold Accepts validateNonce
  cases hfind : st.nonces.find? token with
  | none =>
    have hnone := Registry.find?_eq_none_iff.mp hfind
    constructor
    · intro h
      cases h
    · rintro ⟨n, hn, htoken, _⟩
      exact absurd htoken (hnone n hn)
  | some n =>
    obtain ⟨hn, htoken⟩ := Registry.find?_eq_some_iff.mp hfind
    have hsame : ∀ n' ∈ st.nonces, n'.token = token → n' = n :=
      fun n' hn' htoken' => Registry.eq_of_name_eq hn' hn (htoken'.trans htoken.symm)
    dsimp only
    split_ifs with hgood
    · exact ⟨fun _ => ⟨n, hn, htoken, hgood⟩, fun _ => rfl⟩
    · constructor
      · intro h
        cases h
      · rintro ⟨n', hn', htoken', hgood'⟩
        exact absurd (hsame n' hn' htoken' ▸ hgood') hgood

theorem mem_validateNonce :
    n ∈ (validateNonce st token now).2.nonces ↔ ∃ n' ∈ st.nonces,
      n = if n'.token = token ∧ n'.used = false ∧ now < n'.expiresAt
        then { n' with used := true } else n' := by
  unfold validateNonce
  cases hfind : st.nonces.find? token with
  | none =>
    have hnone := Registry.find?_eq_none_iff.mp hfind
    constructor
    · exact fun h => ⟨n, h, by rw [if_neg fun hgood => hnone n h hgood.1]⟩
    · rintro ⟨n', hn', rfl⟩
      rwa [if_neg fun hgood => hnone n' hn' hgood.1]
  | some n₀ =>
    obtain ⟨hn₀, htoken⟩ := Registry.find?_eq_some_iff.mp hfind
    have hsame : ∀ n' ∈ st.nonces, n'.token = token → n' = n₀ :=
      fun n' hn' htoken' => Registry.eq_of_name_eq hn' hn₀ (htoken'.trans htoken.symm)
    dsimp only
    split_ifs with hgood
    · refine (Registry.mem_modify (fun n : AcmeNonce => { n with used := true })
        fun _ => rfl).trans (exists_congr fun n' => and_congr_right fun hn' => ?_)
      by_cases htoken' : n'.token = token
      · rw [if_pos (show Named.name n' = token from htoken'),
          if_pos ⟨htoken', hsame n' hn' htoken' ▸ hgood⟩]
      · rw [if_neg (show ¬Named.name n' = token from htoken'), if_neg fun h => htoken' h.1]
    · have hkeep : ∀ n' ∈ st.nonces, ¬(n'.token = token ∧ n'.used = false ∧ now < n'.expiresAt) :=
        fun n' hn' h => hgood (hsame n' hn' h.1 ▸ h.2)
      constructor
      · exact fun h => ⟨n, h, by rw [if_neg (hkeep n h)]⟩
      · rintro ⟨n', hn', rfl⟩
        rwa [if_neg (hkeep n' hn')]

/-- A nonce of the table was just generated, or it was there with the same expiry, and marked
only if it is now. -/
theorem mem_step (h : n ∈ (step st e).nonces) :
    (∃ t, e = .generate n.token t ∧ n.expiresAt = t + 3600) ∨
      ∃ n' ∈ st.nonces, n'.token = n.token ∧ n'.expiresAt = n.expiresAt ∧
        (n'.used = true → n.used = true) := by
  cases e with
  | generate token t =>
    simp only [step, generateNonce] at h
    cases hinsert : st.nonces.insert? { token, expiresAt := t + 3600, used := false } with
    | none =>
      rw [hinsert] at h
      exact .inr ⟨n, h, rfl, rfl, id⟩
    | some nonces =>
      rw [hinsert] at h
      rcases (Registry.mem_insert hinsert).mp h with h | rfl
      · exact .inr ⟨n, h, rfl, rfl, id⟩
      · exact .inl ⟨t, rfl, rfl⟩
  | validate token t =>
    obtain ⟨n', hn', rfl⟩ := mem_validateNonce.mp h
    refine .inr ⟨n', hn', ?_⟩
    split_ifs
    · exact ⟨rfl, rfl, fun _ => rfl⟩
    · exact ⟨rfl, rfl, id⟩
  | cleanup t => exact .inr ⟨n, (Registry.mem_deleteWhere.mp h).1, rfl, rfl, id⟩

theorem generated_of_mem (hst : st.nonces = ∅) (h : n ∈ (run step st es).nonces) :
    ∃ t, .generate n.token t ∈ es ∧ n.expiresAt = t + 3600 := by
  induction es using List.reverseRecOn generalizing n with
  | nil =>
    rw [run_nil, hst] at h
    exact absurd h (Registry.not_mem_empty n)
  | append_singleton es e ih =>
    rw [run_append] at h
    rcases mem_step h with ⟨t, rfl, hexpires⟩ | ⟨n', hn', htoken, hexpires, _⟩
    · exact ⟨t, List.mem_append_right es List.mem_cons_self, hexpires⟩
    · obtain ⟨t, hmem, ht⟩ := ih hn'
      exact ⟨t, List.mem_append_left _ (htoken ▸ hmem), hexpires ▸ ht⟩

def Spent (st : AcmeStore) (token : String) : Prop :=
  ∀ n ∈ st.nonces, n.token = token → n.used = true

theorem Spent.not_accepts (h : Spent st token) : ¬Accepts st token now := by
  intro haccepts
  obtain ⟨n, hn, htoken, hunused, _⟩ := accepts_iff.mp haccepts
  rw [h n hn htoken] at hunused
  cases hunused

theorem Spent.step (h : Spent st token) (he : e.generated ≠ some token) :
    Spent (step st e) token := by
  intro n hn htoken
  rcases mem_step hn with ⟨t, rfl, _⟩ | ⟨n', hn', htoken', _, hused⟩
  · exact absurd (congrArg some htoken) he
  · exact hused (h n' hn' (htoken'.trans htoken))

theorem Spent.run (h : Spent st token) (hes : ∀ e ∈ es, e.generated ≠ some token) :
    Spent (run AcmeNonces.step st es) token := by
  induction es generalizing st with
  | nil => exact h
  | cons e es ih =>
    exact ih (h.step (hes e List.mem_cons_self)) fun e' he' => hes e' (List.mem_cons_of_mem e he')

theorem spent_of_accepts (h : Accepts st token now) :
    Spent (step st (.validate token now)) token := by
  obtain ⟨n₀, hn₀, htoken₀, hgood⟩ := accepts_iff.mp h
  intro n hn htoken
  obtain ⟨n', hn', rfl⟩ := mem_validateNonce.mp hn
  split_ifs at htoken ⊢ with hmarked
  · rfl
  · have hsame : n' = n₀ := Registry.eq_of_name_eq hn' hn₀ (htoken.trans htoken₀.symm)
    exact absurd ⟨htoken, hsame ▸ hgood⟩ hmarked

/-- Replay protection of the nonces. -/
theorem nonces_protected (hst : st.nonces = ∅) (hes : CollisionFree es) : Protected st es where
  once := by
    rintro pre mid post token now now' rfl haccepts
    obtain ⟨n, hn, rfl, _⟩ := accepts_iff.mp haccepts
    obtain ⟨t, hpre, _⟩ := generated_of_mem hst hn
    -- it was drawn before, so it is not drawn in between
    have hmid : ∀ e ∈ mid, e.generated ≠ some n.token := by
      intro e he hgenerated
      unfold CollisionFree at hes
      rw [List.filterMap_append, List.nodup_append] at hes
      have hfirst : n.token ∈ pre.filterMap Event.generated :=
        List.mem_filterMap.mpr ⟨_, hpre, rfl⟩
      have hagain : n.token ∈ (Event.validate n.token now ::
          (mid ++ .validate n.token now' :: post)).filterMap Event.generated :=
        List.mem_filterMap.mpr
          ⟨e, List.mem_cons_of_mem _ (List.mem_append_left _ he), hgenerated⟩
      exact hes.2.2 _ hfirst _ hagain rfl
    rw [run_append, run_cons]
    exact ((spent_of_accepts haccepts).run hmid).not_accepts
  generated := by
    rintro pre post token now rfl haccepts
    obtain ⟨n, hn, rfl, _, hnow⟩ := accepts_iff.mp haccepts
    obtain ⟨t, hpre, hexpires⟩ := generated_of_mem hst hn
    refine ⟨t, hpre, hexpires ▸ hnow, fun hchronological => ?_⟩
    exact (List.pairwise_append.mp hchronological).2.2 _ hpre _ List.mem_cons_self

def sampleEvents : List Event :=
  [.generate "n" 0, .validate "n" 10, .validate "n" 20, .cleanup 4000, .validate "n" 4001]

theorem nonces_protected_sample :
    let _ := sampleLibrary
    Protected { sampleAcme with nonces := ∅ } sampleEvents :=
  nonces_protected rfl (by decide)

end AcmeNonces

end CaManager
