import CaManager.Library.Machines
import CaManager.Library.Texts
import CaManager.Library.TokenBucket
import Mathlib.Data.Rat.Floor

/-!
# The rate limiter

Each address has a bucket for each pattern of paths. A request takes a token from its bucket, if
there is one and the last minute holds fewer admissions than the limit.
-/

namespace CaManager

open Library

structure Limit where
  rpm : ℤ
  burst : ℤ
  deriving Repr, DecidableEq

structure RateLimitEnv where
  authRpm : ℤ := 30
  authBurst : ℤ := 10
  heavyRpm : ℤ := 60
  heavyBurst : ℤ := 15
  standardRpm : ℤ := 300
  standardBurst : ℤ := 50
  protocolRpm : ℤ := 500
  protocolBurst : ℤ := 100
  deriving Repr, DecidableEq

def RateLimitEnv.default (env : RateLimitEnv) : Limit := ⟨env.standardRpm, env.standardBurst⟩

def RateLimitEnv.defaultLimits (env : RateLimitEnv) : List (String × Limit) :=
  [("/api/v2/auth/login", ⟨env.authRpm, env.authBurst⟩),
   ("/api/v2/auth/register", ⟨env.authRpm / 2, env.authBurst - 1⟩),
   ("/api/v2/auth/reset-password", ⟨env.authRpm / 2, env.authBurst - 1⟩),
   ("/api/v2/sso/callback", ⟨env.authRpm, env.authBurst⟩),
   ("/api/v2/sso/ldap/login", ⟨env.authRpm, env.authBurst⟩),
   ("/api/v2/auth/email-configured", ⟨1000, 100⟩),
   ("/api/v2/sso/available", ⟨1000, 100⟩),
   ("/api/v2/certificates/issue", ⟨env.heavyRpm, env.heavyBurst⟩),
   ("/api/v2/cas", ⟨env.heavyRpm, env.heavyBurst⟩),
   ("/api/v2/csrs/sign", ⟨env.heavyRpm / 2, env.heavyBurst⟩),
   ("/api/v2/import", ⟨env.heavyRpm / 3, 2⟩),
   ("/api/v2/export", ⟨env.heavyRpm / 3, 2⟩),
   ("/api/v2/backup", ⟨env.heavyRpm / 6, 2⟩),
   ("/api/v2/users", ⟨env.standardRpm / 2, env.standardBurst / 2⟩),
   ("/api/v2/certificates", ⟨env.standardRpm, env.standardBurst⟩),
   ("/api/v2/audit", ⟨env.standardRpm / 2, env.standardBurst / 2⟩),
   ("/acme/", ⟨env.protocolRpm / 2, env.protocolBurst / 2⟩),
   ("/scep/", ⟨env.protocolRpm / 2, env.protocolBurst / 2⟩),
   ("/ocsp", ⟨env.protocolRpm, env.protocolBurst⟩),
   ("/cdp/", ⟨env.protocolRpm, env.protocolBurst⟩)]

structure RateLimitConfig where
  env : RateLimitEnv := {}
  enabled : Bool := true
  customLimits : List (String × Limit) := []
  whitelist : List String := ["127.0.0.1", "::1"]

namespace RateLimitConfig

def matching (limits : List (String × Limit)) (path : String) : Option (String × Limit) :=
  limits.find? fun entry => startsWith path entry.1

def getLimit (c : RateLimitConfig) (path : String) : Limit :=
  (((matching c.customLimits path).or (matching c.env.defaultLimits path)).map Prod.snd).getD
    c.env.default

end RateLimitConfig

/-- `int` of a number cuts its fraction off. -/
def truncate (q : ℚ) : ℤ := if 0 ≤ q then q.floor else q.ceil

/-- The answer to a request, with what is told about it. -/
inductive RateAnswer
  | disabled
  | whitelisted
  | allowed (remaining limit reset : ℤ)
  | refused (limit retryAfter : ℤ) (message : String)
  deriving Repr, DecidableEq

def RateAnswer.admits : RateAnswer → Bool
  | refused _ _ _ => false
  | _ => true

structure RateLimiter where
  buckets : String → Option (TokenBucket ℚ) := fun _ => none

structure RateRequest where
  ip : String
  path : String
  now : ℚ
  deriving Repr, DecidableEq

namespace RateLimiter

open RateLimitConfig

def getKey (c : RateLimitConfig) (ip path : String) : String :=
  ip ++ ":" ++ ((matching c.env.defaultLimits path).map Prod.fst).getD "_default"

def setBucket (s : RateLimiter) (key : String) (bucket : TokenBucket ℚ) : RateLimiter :=
  { buckets := fun k => if k = key then some bucket else s.buckets k }

def checkRateLimit (c : RateLimitConfig) (s : RateLimiter) (q : RateRequest) :
    RateAnswer × RateLimiter :=
  if c.enabled = false then (.disabled, s)
  else if q.ip ∈ c.whitelist then (.whitelisted, s)
  else
    let limit := c.getLimit q.path
    let key := getKey c q.ip q.path
    let bucket := (s.buckets key).getD { tokens := limit.burst, last := q.now, recent := [] }
    let requests := bucket.recent.filter fun t => q.now - t < 60
    let tokensToAdd := (q.now - bucket.last) / 60 * limit.rpm
    let tokens := min (limit.burst : ℚ) (bucket.tokens + tokensToAdd)
    if 1 ≤ tokens ∧ requests.length < limit.rpm then
      let requests := requests ++ [q.now]
      (.allowed (truncate (tokens - 1)) limit.rpm
          (truncate (q.now + 60 - requests.headD q.now)),
        s.setBucket key { tokens := tokens - 1, last := q.now, recent := requests })
    else
      let retryAfter :=
        match requests with
        | oldest :: _ => truncate (60 - (q.now - oldest)) + 1
        | [] => 60
      (.refused limit.rpm retryAfter s!"Rate limit exceeded. Try again in {retryAfter}s",
        s.setBucket key { tokens, last := q.now, recent := requests })

def step (c : RateLimitConfig) (s : RateLimiter) (q : RateRequest) : RateLimiter :=
  (checkRateLimit c s q).2

def Reaches (c : RateLimitConfig) (key : String) (q : RateRequest) : Prop :=
  c.enabled = true ∧ q.ip ∉ c.whitelist ∧ getKey c q.ip q.path = key

instance (c : RateLimitConfig) (key : String) (q : RateRequest) : Decidable (Reaches c key q) :=
  inferInstanceAs (Decidable (_ ∧ _ ∧ _))

def answersOf (c : RateLimitConfig) (key : String) (s : RateLimiter) :
    List RateRequest → List (ℚ × Bool)
  | [] => []
  | q :: qs =>
    if Reaches c key q then
      (q.now, (checkRateLimit c s q).1.admits) :: answersOf c key (step c s q) qs
    else answersOf c key (step c s q) qs

def admissionsOf (c : RateLimitConfig) (key : String) (s : RateLimiter) (qs : List RateRequest) :
    List ℚ :=
  ((answersOf c key s qs).filter Prod.snd).map Prod.fst

/-- The requests to a bucket with this limit are admitted within its bounds. -/
structure Bounded (c : RateLimitConfig) (key : String) (r b : ℕ) (s : RateLimiter)
    (qs : List RateRequest) : Prop where
  interval : ∀ start length, 0 ≤ length →
    (((admissionsOf c key s qs).filter fun t => start ≤ t ∧ t ≤ start + length).length : ℚ) ≤
      b + r * length / 60
  window : ∀ start,
    ((admissionsOf c key s qs).filter fun t => start ≤ t ∧ t < start + 60).length ≤ r
  tokens : ∀ pre, pre <+: qs → ∀ bucket, (run (step c) s pre).buckets key = some bucket →
    0 ≤ bucket.tokens ∧ bucket.tokens ≤ b
  refused : ∀ pre q post, qs = pre ++ q :: post → Reaches c key q →
    (checkRateLimit c (run (step c) s pre) q).1.admits = false →
    answersOf c key (run (step c) s (pre ++ [q])) post = answersOf c key (run (step c) s pre) post

def bucketLimit (r b : ℕ) : BucketLimit ℚ := { rate := r / 60, burst := b, window := 60, most := r }

section Buckets

variable {c : RateLimitConfig} {key : String} {s : RateLimiter} {q : RateRequest} {r b : ℕ}
  {qs : List RateRequest}

def found (l : BucketLimit ℚ) (s : RateLimiter) (key : String) (now : ℚ) : TokenBucket ℚ :=
  (s.buckets key).getD (.full l now)

theorem level_bucketLimit (bucket : TokenBucket ℚ) (now : ℚ) :
    bucket.level (bucketLimit r b) now =
      min (((b : ℤ) : ℚ)) (bucket.tokens + (now - bucket.last) / 60 * ((r : ℤ) : ℚ)) := by
  have hrefill : (now - bucket.last) * ((r : ℚ) / 60) = (now - bucket.last) / 60 * r := by ring
  unfold TokenBucket.level bucketLimit
  rw [Int.cast_natCast, Int.cast_natCast, hrefill]

theorem check_of_reaches (hq : Reaches c key q) (hlimit : c.getLimit q.path = ⟨r, b⟩) :
    (checkRateLimit c s q).1.admits =
        ((found (bucketLimit r b) s key q.now).serve (bucketLimit r b) q.now).1 ∧
      (step c s q).buckets key =
        some ((found (bucketLimit r b) s key q.now).serve (bucketLimit r b) q.now).2 := by
  obtain ⟨henabled, hip, rfl⟩ := hq
  have hfound : (s.buckets (getKey c q.ip q.path)).getD
      { tokens := ((b : ℤ) : ℚ), last := q.now, recent := [] } =
        found (bucketLimit r b) s (getKey c q.ip q.path) q.now := by
    rw [Int.cast_natCast]
    rfl
  unfold step checkRateLimit
  have hheld (bucket : TokenBucket ℚ) : (bucket.recent.filter fun t => q.now - t < 60) =
      bucket.held (bucketLimit r b) q.now := rfl
  have hon : ¬c.enabled = false := by
    rw [henabled]
    decide
  rw [if_neg hon, if_neg hip]
  simp only [hlimit, hfound, ← level_bucketLimit, hheld]
  generalize found (bucketLimit r b) s (getKey c q.ip q.path) q.now = bucket
  by_cases h : 1 ≤ bucket.level (bucketLimit r b) q.now ∧
      (bucket.held (bucketLimit r b) q.now).length < (r : ℤ)
  · have hserve : bucket.serve (bucketLimit r b) q.now = _ := if_pos h
    rw [if_pos h, hserve]
    exact ⟨rfl, if_pos rfl⟩
  · have hserve : bucket.serve (bucketLimit r b) q.now = _ := if_neg h
    rw [if_neg h, hserve]
    exact ⟨rfl, if_pos rfl⟩

theorem buckets_of_not_reaches (hq : ¬Reaches c key q) :
    (step c s q).buckets key = s.buckets key := by
  unfold step checkRateLimit
  by_cases henabled : c.enabled = false
  · rw [if_pos henabled]
  · rw [if_neg henabled]
    by_cases hip : q.ip ∈ c.whitelist
    · rw [if_pos hip]
    · rw [if_neg hip]
      have hkey : key ≠ getKey c q.ip q.path := by
        rintro rfl
        exact hq ⟨by simpa using henabled, hip, rfl⟩
      dsimp only
      split
      · exact if_neg hkey
      · exact if_neg hkey

def timesOf (c : RateLimitConfig) (key : String) (qs : List RateRequest) : List ℚ :=
  (qs.filter fun q => Reaches c key q).map RateRequest.now

theorem timesOf_cons : timesOf c key (q :: qs) =
    if Reaches c key q then q.now :: timesOf c key qs else timesOf c key qs := by
  unfold timesOf
  split_ifs with h
  · rw [List.filter_cons_of_pos (by simpa using h), List.map_cons]
  · rw [List.filter_cons_of_neg (by simpa using h)]

theorem le_of_mem_timesOf {t₀ t : ℚ} (h : ∀ q ∈ qs, t₀ ≤ q.now) (ht : t ∈ timesOf c key qs) :
    t₀ ≤ t := by
  obtain ⟨q, hq, rfl⟩ := List.mem_map.mp ht
  exact h q (List.mem_of_mem_filter hq)

theorem pairwise_timesOf (h : qs.Pairwise fun q q' => q.now ≤ q'.now) :
    (timesOf c key qs).Pairwise (· ≤ ·) :=
  List.pairwise_map.mpr (h.sublist List.filter_sublist)

theorem rate_nonneg : 0 ≤ (bucketLimit r b).rate :=
  div_nonneg (Nat.cast_nonneg r) (by norm_num)

theorem burst_nonneg : 0 ≤ (bucketLimit r b).burst := Nat.cast_nonneg b

theorem answers_full {t₀ t : ℚ} (ht : t₀ ≤ t) (ts : List ℚ) :
    (TokenBucket.full (bucketLimit r b) t).answers (bucketLimit r b) (t :: ts) =
      (TokenBucket.full (bucketLimit r b) t₀).answers (bucketLimit r b) (t :: ts) := by
  have hlevel {u : ℚ} (hu : u ≤ t) :
      (TokenBucket.full (bucketLimit r b) u).level (bucketLimit r b) t = (bucketLimit r b).burst :=
    min_eq_left (le_add_of_nonneg_right (mul_nonneg (sub_nonneg.mpr hu) rate_nonneg))
  exact TokenBucket.answers_congr ((hlevel le_rfl).trans (hlevel ht).symm) rfl

theorem answersOf_eq (hlimit : ∀ q ∈ qs, Reaches c key q → c.getLimit q.path = ⟨r, b⟩)
    (hqs : qs.Pairwise fun q q' => q.now ≤ q'.now) {t₀ : ℚ} (ht₀ : ∀ q ∈ qs, t₀ ≤ q.now) :
    answersOf c key s qs =
      (found (bucketLimit r b) s key t₀).answers (bucketLimit r b) (timesOf c key qs) := by
  induction qs generalizing s t₀ with
  | nil => rfl
  | cons q qs ih =>
    obtain ⟨hlater, hqs⟩ := List.pairwise_cons.mp hqs
    have hlimit' := fun q hq => hlimit q (List.mem_cons_of_mem _ hq)
    have hq₀ : t₀ ≤ q.now := ht₀ q List.mem_cons_self
    rw [answersOf, timesOf_cons]
    by_cases hq : Reaches c key q
    · obtain ⟨hadmits, hstep⟩ := check_of_reaches (s := s) hq (hlimit q List.mem_cons_self hq)
      have hfound : found (bucketLimit r b) (step c s q) key q.now =
          ((found (bucketLimit r b) s key q.now).serve (bucketLimit r b) q.now).2 := by
        rw [found, hstep]
        rfl
      rw [if_pos hq, if_pos hq, ih hlimit' hqs hlater, hfound, hadmits,
        ← TokenBucket.answers_cons]
      unfold found
      cases s.buckets key with
      | none => exact answers_full hq₀ _
      | some bucket => rfl
    · rw [if_neg hq, if_neg hq, ih hlimit' hqs fun q' hq' => ht₀ q' (List.mem_cons_of_mem _ hq')]
      unfold found
      rw [buckets_of_not_reaches hq]

/-- The bucket's tokens lie between none and the burst, and it was not used after this time. -/
def Kept (l : BucketLimit ℚ) (key : String) (s : RateLimiter) (t : ℚ) : Prop :=
  ∀ bucket, s.buckets key = some bucket → bucket.Within l ∧ bucket.last ≤ t

theorem Kept.step (h : Kept (bucketLimit r b) key s q.now)
    (hlimit : Reaches c key q → c.getLimit q.path = ⟨r, b⟩) :
    Kept (bucketLimit r b) key (step c s q) q.now := by
  intro bucket hbucket
  by_cases hq : Reaches c key q
  · rw [(check_of_reaches hq (hlimit hq)).2] at hbucket
    cases hbucket
    refine ⟨?_, TokenBucket.last_serve.le⟩
    unfold found
    cases hs : s.buckets key with
    | none => exact (TokenBucket.within_full burst_nonneg).serve rate_nonneg le_rfl
    | some old => exact (h old hs).1.serve rate_nonneg (h old hs).2
  · rw [buckets_of_not_reaches hq] at hbucket
    exact h bucket hbucket

theorem Kept.mono {l : BucketLimit ℚ} {t t' : ℚ} (h : Kept l key s t) (ht : t ≤ t') :
    Kept l key s t' := by
  intro bucket hbucket
  exact ⟨(h bucket hbucket).1, (h bucket hbucket).2.trans ht⟩

theorem Kept.run {t₀ : ℚ} (h : Kept (bucketLimit r b) key s t₀)
    (hlimit : ∀ q ∈ qs, Reaches c key q → c.getLimit q.path = ⟨r, b⟩)
    (hqs : qs.Pairwise fun q q' => q.now ≤ q'.now) (ht₀ : ∀ q ∈ qs, t₀ ≤ q.now) :
    ∃ t, Kept (bucketLimit r b) key (run (RateLimiter.step c) s qs) t := by
  induction qs generalizing s t₀ with
  | nil => exact ⟨t₀, h⟩
  | cons q qs ih =>
    obtain ⟨hlater, hqs⟩ := List.pairwise_cons.mp hqs
    have hstep := (h.mono (ht₀ q List.mem_cons_self)).step (hlimit q List.mem_cons_self)
    exact ih hstep (fun q hq => hlimit q (List.mem_cons_of_mem _ hq)) hqs hlater

theorem answersOf_of_refused (hlimit : ∀ q' ∈ q :: qs, Reaches c key q' → c.getLimit q'.path = ⟨r, b⟩)
    (hqs : (q :: qs).Pairwise fun q q' => q.now ≤ q'.now) (hq : Reaches c key q)
    (hrefused : (checkRateLimit c s q).1.admits = false) :
    answersOf c key (step c s q) qs = answersOf c key s qs := by
  obtain ⟨hlater, hqs⟩ := List.pairwise_cons.mp hqs
  have hlimit' := fun q hq => hlimit q (List.mem_cons_of_mem _ hq)
  obtain ⟨hadmits, hstep⟩ := check_of_reaches (s := s) hq (hlimit q List.mem_cons_self hq)
  rw [hadmits] at hrefused
  have hfound : found (bucketLimit r b) (step c s q) key q.now =
      ((found (bucketLimit r b) s key q.now).serve (bucketLimit r b) q.now).2 := by
    rw [found, hstep]
    rfl
  rw [answersOf_eq hlimit' hqs hlater, answersOf_eq hlimit' hqs hlater, hfound]
  exact TokenBucket.answers_of_refused rate_nonneg hrefused fun _ => le_of_mem_timesOf hlater

/-- Whatever requests come to a bucket, in whatever order of addresses and paths, they are admitted
within the bounds of its limit. -/
theorem bounded_of_chronological (c : RateLimitConfig) (key : String) (r b : ℕ) (s : RateLimiter)
    (qs : List RateRequest) (hnew : s.buckets key = none)
    (hqs : qs.Pairwise fun q q' => q.now ≤ q'.now)
    (hlimit : ∀ q ∈ qs, Reaches c key q → c.getLimit q.path = ⟨r, b⟩) :
    Bounded c key r b s qs := by
  -- all requests come after the first, and until then the bucket is as good as full
  obtain ⟨t₀, ht₀⟩ : ∃ t₀, ∀ q ∈ qs, t₀ ≤ q.now := by
    cases qs with
    | nil => exact ⟨0, fun q hq => absurd hq List.not_mem_nil⟩
    | cons q qs => exact ⟨q.now, List.forall_mem_cons.mpr ⟨le_rfl, (List.pairwise_cons.mp hqs).1⟩⟩
  have hadmissions : admissionsOf c key s qs =
      (TokenBucket.full (bucketLimit r b) t₀).admissions (bucketLimit r b) (timesOf c key qs) := by
    unfold admissionsOf TokenBucket.admissions
    rw [answersOf_eq hlimit hqs ht₀, found, hnew]
    rfl
  have hkept : Kept (bucketLimit r b) key s t₀ := by
    intro bucket hbucket
    rw [hnew] at hbucket
    cases hbucket
  have htimes : (timesOf c key qs).Pairwise (· ≤ ·) := pairwise_timesOf hqs
  have hwithin : (TokenBucket.full (bucketLimit r b) t₀).Within (bucketLimit r b) :=
    TokenBucket.within_full burst_nonneg
  refine ⟨fun start length hlength => ?_, fun start => ?_, fun pre hpre bucket hbucket => ?_,
    fun pre q post hsplit hq hrefused => ?_⟩
  · have hcount := TokenBucket.length_admissions_interval_le hwithin rate_nonneg htimes
      (fun a => le_of_mem_timesOf ht₀) start hlength
    have hrate : length * (bucketLimit r b).rate = r * length / 60 := by
      unfold bucketLimit
      ring
    rw [hrate] at hcount
    rw [hadmissions]
    exact hcount
  · have hcount := TokenBucket.length_recent_add_le (l := bucketLimit r b)
      (s := .full (bucketLimit r b) t₀) start htimes (Int.natCast_nonneg r)
    rw [hadmissions]
    have hempty : ((TokenBucket.full (bucketLimit r b) t₀).recent.filter
        fun a => start ≤ a).length = 0 := rfl
    rw [hempty, Nat.cast_zero, zero_add] at hcount
    exact Int.ofNat_le.mp hcount
  · obtain ⟨post, rfl⟩ := hpre
    obtain ⟨t, ht⟩ := hkept.run (fun q hq => hlimit q (List.mem_append_left _ hq))
      (List.pairwise_append.mp hqs).1 fun q hq => ht₀ q (List.mem_append_left _ hq)
    exact ⟨(ht bucket hbucket).1.nonneg, (ht bucket hbucket).1.le_burst⟩
  · subst hsplit
    rw [run_append]
    exact answersOf_of_refused (fun q hq => hlimit q (List.mem_append_right _ hq))
      (List.pairwise_append.mp hqs).2.1 hq hrefused

def importRequests : List RateRequest :=
  [⟨"10.0.0.9", "/api/v2/import", 0⟩, ⟨"10.0.0.9", "/api/v2/import/ca", 0⟩,
   ⟨"10.0.0.9", "/api/v2/import", 1⟩, ⟨"10.0.0.8", "/api/v2/import", 2⟩,
   ⟨"10.0.0.9", "/api/v2/import", 4⟩]

theorem bounded_importRequests : Bounded {} "10.0.0.9:/api/v2/import" 20 2 {} importRequests :=
  bounded_of_chronological {} _ 20 2 {} importRequests rfl (by decide +kernel) (by decide +kernel)

example : answersOf {} "10.0.0.9:/api/v2/import" {} importRequests =
    [(0, true), (0, true), (1, false), (4, true)] := by decide +kernel

end Buckets

end RateLimiter

end CaManager
