import CaManager.Security.RateLimiter

/-!
# The advice to retry

A refused request is told when to come again: as soon as the oldest request of the last minute has
left it. That makes room in the window, but the bucket may still lack a token then.
-/

namespace CaManager

open Library

/-- The whole seconds after which the oldest of these requests has left the last minute. -/
def secondsToWait (requests : List ℚ) (now : ℚ) : ℤ :=
  match requests with
  | oldest :: _ => ⌊60 - (now - oldest)⌋ + 1
  | [] => 60

namespace RateLimiter

open RateLimitConfig

/-- If the request is refused and comes again after the time it was told, it is admitted, when no
other has asked its bucket in between. -/
def RetrySound (c : RateLimitConfig) (s : RateLimiter) (q : RateRequest) : Prop :=
  ∀ limit retryAfter message, (checkRateLimit c s q).1 = .refused limit retryAfter message →
    ∀ between : List RateRequest, (∀ q' ∈ between, ¬Reaches c (getKey c q.ip q.path) q') →
      ∀ again, Reaches c (getKey c q.ip q.path) again →
        c.getLimit again.path = c.getLimit q.path → again.now = q.now + retryAfter →
          (checkRateLimit c (run (step c) (step c s q) between) again).1.admits = true

/-- The bucket is ready for a request, or will be when it is told to come again. -/
def RetryCovered (l : BucketLimit ℚ) (bucket : TokenBucket ℚ) (now : ℚ) : Prop :=
  bucket.Ready l now ∨ bucket.Ready l (now + secondsToWait (bucket.held l now) now)

section Retrying

variable {c : RateLimitConfig} {s : RateLimiter} {q : RateRequest} {r b : ℕ} {key : String}
  {bucket : TokenBucket ℚ} {now : ℚ}

theorem truncate_of_nonneg {x : ℚ} (h : 0 ≤ x) : truncate x = ⌊x⌋ := if_pos h

theorem young_of_mem_held {t : ℚ} (h : t ∈ bucket.held (bucketLimit r b) now) : now - t < 60 :=
  of_decide_eq_true (List.mem_filter.mp h).2

theorem secondsToWait_held (r b : ℕ) (bucket : TokenBucket ℚ) (now : ℚ) :
    secondsToWait (bucket.held (bucketLimit r b) now) now =
        (match bucket.held (bucketLimit r b) now with
          | oldest :: _ => truncate (60 - (now - oldest)) + 1
          | [] => 60) ∧
      0 < secondsToWait (bucket.held (bucketLimit r b) now) now := by
  cases hheld : bucket.held (bucketLimit r b) now with
  | nil =>
    constructor
    · rfl
    · change (0 : ℤ) < 60
      decide
  | cons oldest rest =>
    have hyoung : now - oldest < 60 := by
      have hmem : oldest ∈ bucket.held (bucketLimit r b) now := by
        rw [hheld]
        exact List.mem_cons_self
      exact young_of_mem_held hmem
    have hleft : 0 ≤ 60 - (now - oldest) := by linarith
    have hfloor : 0 ≤ ⌊60 - (now - oldest)⌋ := Int.floor_nonneg.mpr hleft
    constructor
    · change ⌊60 - (now - oldest)⌋ + 1 = truncate (60 - (now - oldest)) + 1
      rw [truncate_of_nonneg hleft]
    · change 0 < ⌊60 - (now - oldest)⌋ + 1
      omega

theorem retryAfter_of_refused {limit retryAfter : ℤ} {message : String}
    (hlimit : c.getLimit q.path = ⟨r, b⟩)
    (h : (checkRateLimit c s q).1 = .refused limit retryAfter message) :
    Reaches c (getKey c q.ip q.path) q ∧ retryAfter = secondsToWait
      ((found (bucketLimit r b) s (getKey c q.ip q.path) q.now).held (bucketLimit r b) q.now)
      q.now := by
  unfold checkRateLimit at h
  split_ifs at h with henabled hip
  have hq : Reaches c (getKey c q.ip q.path) q := ⟨by simpa using henabled, hip, rfl⟩
  have hfound : (s.buckets (getKey c q.ip q.path)).getD
      { tokens := ((b : ℤ) : ℚ), last := q.now, recent := [] } =
        found (bucketLimit r b) s (getKey c q.ip q.path) q.now := by
    rw [Int.cast_natCast]
    rfl
  simp only [hlimit, hfound] at h
  split_ifs at h
  injection h with _ hretry _
  rw [(secondsToWait_held r b _ _).1, ← hretry]
  exact ⟨hq, rfl⟩

theorem exists_refused (h : (checkRateLimit c s q).1.admits = false) :
    ∃ limit retryAfter message, (checkRateLimit c s q).1 = .refused limit retryAfter message := by
  cases hanswer : (checkRateLimit c s q).1 with
  | refused limit retryAfter message => exact ⟨limit, retryAfter, message, rfl⟩
  | disabled | whitelisted | allowed =>
    rw [hanswer] at h
    cases h

theorem buckets_of_between {between : List RateRequest} (h : ∀ q' ∈ between, ¬Reaches c key q') :
    (run (step c) s between).buckets key = s.buckets key := by
  induction between generalizing s with
  | nil => rfl
  | cons q' between ih =>
    change (run (step c) (step c s q') between).buckets key = _
    rw [ih fun q'' hq'' => h q'' (List.mem_cons_of_mem _ hq'')]
    exact buckets_of_not_reaches (h q' List.mem_cons_self)

/-- A request that comes some seconds after a refused one is admitted exactly if the bucket that
the refused one found is ready by then. -/
theorem admits_again_iff (hlimit : c.getLimit q.path = ⟨r, b⟩) (hq : Reaches c key q)
    (hrefused : (checkRateLimit c s q).1.admits = false) {between : List RateRequest}
    (hbetween : ∀ q' ∈ between, ¬Reaches c key q') {again : RateRequest}
    (hagain : Reaches c key again) (hsame : c.getLimit again.path = c.getLimit q.path)
    (hlater : q.now ≤ again.now) :
    (checkRateLimit c (run (step c) (step c s q) between) again).1.admits = true ↔
      (found (bucketLimit r b) s key q.now).Ready (bucketLimit r b) again.now := by
  obtain ⟨hadmits, hstep⟩ := check_of_reaches (s := s) hq hlimit
  rw [hadmits] at hrefused
  have hfound : found (bucketLimit r b) (run (step c) (step c s q) between) key again.now =
      ((found (bucketLimit r b) s key q.now).serve (bucketLimit r b) q.now).2 := by
    rw [found, buckets_of_between hbetween, hstep]
    rfl
  rw [(check_of_reaches hagain (hsame.trans hlimit)).1, hfound,
    TokenBucket.serve_of_refused rate_nonneg hrefused hlater, TokenBucket.serve_iff]

theorem room_later (hrecent : bucket.recent.length ≤ r) (hr : 0 < r) :
    (bucket.held (bucketLimit r b)
      (now + secondsToWait (bucket.held (bucketLimit r b) now) now)).length < r := by
  have hlater : now ≤ now + secondsToWait (bucket.held (bucketLimit r b) now) now :=
    le_add_of_nonneg_right (Int.cast_nonneg (secondsToWait_held r b bucket now).2.le)
  have hheld : (bucket.held (bucketLimit r b) now).length ≤ bucket.recent.length :=
    List.length_filter_le _ _
  generalize hwait : secondsToWait (bucket.held (bucketLimit r b) now) now = seconds at hlater ⊢
  rw [← TokenBucket.held_refilled hlater]
  change ((bucket.held (bucketLimit r b) now).filter fun t => now + seconds - t < 60).length < r
  cases hrequests : bucket.held (bucketLimit r b) now with
  | nil => exact hr
  | cons oldest rest =>
    rw [hrequests] at hheld hwait
    rw [List.length_cons] at hheld
    have hfloor : 60 - (now - oldest) < (⌊60 - (now - oldest)⌋ : ℚ) + 1 := Int.lt_floor_add_one _
    have hgone : ¬now + seconds - oldest < 60 := by
      rw [← hwait]
      change ¬now + ((⌊60 - (now - oldest)⌋ + 1 : ℤ) : ℚ) - oldest < 60
      push_cast
      linarith
    rw [List.filter_cons_of_neg (by simpa using hgone)]
    have hrest := List.length_filter_le (fun t => decide (now + seconds - t < 60)) rest
    omega

theorem length_recent_run_le {qs : List RateRequest}
    (hlimit : ∀ q' ∈ qs, Reaches c key q' → c.getLimit q'.path = ⟨r, b⟩)
    (h : ∀ bucket, s.buckets key = some bucket → bucket.recent.length ≤ r) :
    ∀ bucket, (run (step c) s qs).buckets key = some bucket → bucket.recent.length ≤ r := by
  induction qs generalizing s with
  | nil => exact h
  | cons q qs ih =>
    apply ih fun q' hq' => hlimit q' (List.mem_cons_of_mem _ hq')
    intro bucket hbucket
    by_cases hq : Reaches c key q
    · rw [(check_of_reaches hq (hlimit q List.mem_cons_self hq)).2] at hbucket
      cases hbucket
      have hfound : ((found (bucketLimit r b) s key q.now).recent.length : ℤ) ≤ r := by
        unfold found
        cases hs : s.buckets key with
        | none => exact Int.natCast_nonneg r
        | some old => exact Int.ofNat_le.mpr (h old hs)
      exact Int.ofNat_le.mp (TokenBucket.length_recent_serve_le (l := bucketLimit r b) hfound)
    · rw [buckets_of_not_reaches hq] at hbucket
      exact h bucket hbucket

end Retrying

end RateLimiter

end CaManager
