import Mathlib.Algebra.Order.Field.Basic
import Mathlib.Data.List.Basic
import Mathlib.Tactic.Linarith
import Mathlib.Tactic.Ring

/-!
# Token buckets with a window

A bucket holds tokens, which come back at a constant rate up to a burst. A request is admitted if
there is a token for it and fewer than so many were admitted in the window before it. Tokens are
only reckoned when a request comes.
-/

namespace CaManager.Library

section TokenBuckets

variable {K : Type*} [Field K] [LinearOrder K]

/-- A bucket as a request left it: its tokens then, and the admissions that the window still
held. -/
structure TokenBucket (K : Type*) where
  tokens : K
  last : K
  recent : List K
  deriving Repr, DecidableEq

/-- How a bucket fills, and how many admissions the window holds. -/
structure BucketLimit (K : Type*) where
  rate : K
  burst : K
  window : K
  most : ℤ

namespace TokenBucket

def full (l : BucketLimit K) (now : K) : TokenBucket K :=
  { tokens := l.burst, last := now, recent := [] }

def level (l : BucketLimit K) (s : TokenBucket K) (now : K) : K :=
  min l.burst (s.tokens + (now - s.last) * l.rate)

def held (l : BucketLimit K) (s : TokenBucket K) (now : K) : List K :=
  s.recent.filter fun t => now - t < l.window

def serve (l : BucketLimit K) (s : TokenBucket K) (now : K) : Bool × TokenBucket K :=
  if 1 ≤ s.level l now ∧ (s.held l now).length < l.most then
    (true, { tokens := s.level l now - 1, last := now, recent := s.held l now ++ [now] })
  else (false, { tokens := s.level l now, last := now, recent := s.held l now })

/-- At this time there is a token, and the window has room. -/
structure Ready (l : BucketLimit K) (s : TokenBucket K) (now : K) : Prop where
  token : 1 ≤ s.level l now
  room : (s.held l now).length < l.most

def answers (l : BucketLimit K) (s : TokenBucket K) : List K → List (K × Bool)
  | [] => []
  | t :: ts => (t, (s.serve l t).1) :: answers l (s.serve l t).2 ts

def admissions (l : BucketLimit K) (s : TokenBucket K) (ts : List K) : List K :=
  ((s.answers l ts).filter Prod.snd).map Prod.fst

def refilled (l : BucketLimit K) (s : TokenBucket K) (now : K) : TokenBucket K :=
  { tokens := s.level l now, last := now, recent := s.held l now }

section Serving

variable {l : BucketLimit K} {s s' : TokenBucket K} {now t : K} {ts : List K}

theorem serve_cases (l : BucketLimit K) (s : TokenBucket K) (now : K) :
    (1 ≤ s.level l now ∧ (s.held l now).length < l.most ∧ s.serve l now =
      (true, { tokens := s.level l now - 1, last := now, recent := s.held l now ++ [now] })) ∨
    s.serve l now = (false, s.refilled l now) := by
  unfold serve
  split_ifs with h
  · exact .inl ⟨h.1, h.2, rfl⟩
  · exact .inr rfl

theorem serve_iff : (s.serve l now).1 = true ↔ s.Ready l now := by
  unfold serve
  by_cases h : 1 ≤ s.level l now ∧ (s.held l now).length < l.most
  · rw [if_pos h]
    exact iff_of_true rfl ⟨h.1, h.2⟩
  · rw [if_neg h]
    exact iff_of_false Bool.false_ne_true fun hready => h ⟨hready.token, hready.room⟩

theorem last_serve : (s.serve l now).2.last = now := by
  rcases serve_cases l s now with ⟨_, _, h⟩ | h
  · rw [h]
  · rw [h]
    rfl

theorem length_recent_serve_le (h : (s.recent.length : ℤ) ≤ l.most) :
    ((s.serve l now).2.recent.length : ℤ) ≤ l.most := by
  have hheld : (s.held l now).length ≤ s.recent.length := List.length_filter_le _ _
  rcases serve_cases l s now with ⟨_, hroom, heq⟩ | heq
  · rw [heq]
    change ((s.held l now ++ [now]).length : ℤ) ≤ l.most
    rw [List.length_append, List.length_singleton]
    omega
  · rw [heq]
    change ((s.held l now).length : ℤ) ≤ l.most
    omega

theorem level_le_burst : s.level l now ≤ l.burst := min_le_left _ _

@[simp] theorem answers_cons :
    s.answers l (t :: ts) = (t, (s.serve l t).1) :: (s.serve l t).2.answers l ts := rfl

theorem answers_congr (hlevel : s.level l t = s'.level l t) (hheld : s.held l t = s'.held l t) :
    s.answers l (t :: ts) = s'.answers l (t :: ts) := by
  have hserve : s.serve l t = s'.serve l t := by
    unfold serve
    rw [hlevel, hheld]
  rw [answers_cons, answers_cons, hserve]

theorem admissions_cons :
    s.admissions l (t :: ts) =
      if (s.serve l t).1 then t :: (s.serve l t).2.admissions l ts
      else (s.serve l t).2.admissions l ts := by
  unfold admissions
  rw [answers_cons]
  split_ifs with h
  · rw [List.filter_cons_of_pos (by simpa using h), List.map_cons]
  · rw [List.filter_cons_of_neg (by simpa using h)]

theorem mem_of_mem_admissions {a : K} (h : a ∈ s.admissions l ts) : a ∈ ts := by
  induction ts generalizing s with
  | nil => exact h
  | cons t ts ih =>
    rw [admissions_cons] at h
    split_ifs at h
    · rcases List.mem_cons.mp h with rfl | h
      · exact List.mem_cons_self
      · exact List.mem_cons_of_mem t (ih h)
    · exact List.mem_cons_of_mem t (ih h)

theorem admissions_filter_eq_nil {p : K → Bool} (h : ∀ a ∈ ts, p a = false) :
    (s.admissions l ts).filter p = [] := by
  rw [List.filter_eq_nil_iff]
  intro a ha
  rw [h a (mem_of_mem_admissions ha)]
  exact Bool.false_ne_true

theorem admissions_filter_of_early {p : K → Bool} {t : K} (hts : ∀ a ∈ ts, t ≤ a)
    (h : ∀ a, t ≤ a → p a = false) : (s.admissions l (t :: ts)).filter p = [] := by
  refine admissions_filter_eq_nil fun a ha => h a ?_
  rcases List.mem_cons.mp ha with rfl | ha
  · exact le_rfl
  · exact hts a ha

end Serving

section Tokens

variable [IsStrictOrderedRing K] {l : BucketLimit K} {s : TokenBucket K} {now t u : K}
  {ts : List K}

/-- The tokens lie between none and a full bucket. -/
structure Within (l : BucketLimit K) (s : TokenBucket K) : Prop where
  nonneg : 0 ≤ s.tokens
  le_burst : s.tokens ≤ l.burst

omit [IsStrictOrderedRing K] in
theorem within_full (hburst : 0 ≤ l.burst) : Within l (full l now) := ⟨hburst, le_rfl⟩

theorem Within.level_nonneg (h : Within l s) (hrate : 0 ≤ l.rate) (hnow : s.last ≤ now) :
    0 ≤ s.level l now := by
  have hback : 0 ≤ (now - s.last) * l.rate := mul_nonneg (sub_nonneg.mpr hnow) hrate
  exact le_min (h.nonneg.trans h.le_burst) (add_nonneg h.nonneg hback)

theorem Within.serve (h : Within l s) (hrate : 0 ≤ l.rate) (hnow : s.last ≤ now) :
    Within l (s.serve l now).2 := by
  rcases serve_cases l s now with ⟨hone, _, heq⟩ | heq
  · rw [heq]
    refine ⟨sub_nonneg.mpr hone, ?_⟩
    have hle : s.level l now ≤ l.burst := level_le_burst
    change s.level l now - 1 ≤ l.burst
    linarith
  · rw [heq]
    exact ⟨h.level_nonneg hrate hnow, level_le_burst⟩

theorem length_admissions_le (h : Within l s) (hrate : 0 ≤ l.rate) (hts : ts.Pairwise (· ≤ ·))
    (hlast : ∀ a ∈ ts, s.last ≤ a) (hu : s.last ≤ u) :
    (((s.admissions l ts).filter fun a => a ≤ u).length : K) ≤
      s.tokens + (u - s.last) * l.rate := by
  induction ts generalizing s with
  | nil =>
    have hback : 0 ≤ (u - s.last) * l.rate := mul_nonneg (sub_nonneg.mpr hu) hrate
    simpa [admissions, answers] using add_nonneg h.nonneg hback
  | cons t ts ih =>
    obtain ⟨hfirst, hts⟩ := List.pairwise_cons.mp hts
    have ht : s.last ≤ t := hlast t List.mem_cons_self
    by_cases htu : t ≤ u
    · have hrest := ih (s := (s.serve l t).2) (h.serve hrate ht) hts
        (fun a ha => by rw [last_serve]; exact hfirst a ha) (by rwa [last_serve])
      rw [last_serve] at hrest
      have hlevel : s.level l t ≤ s.tokens + (t - s.last) * l.rate := min_le_right _ _
      have hsplit : (u - s.last) * l.rate = (t - s.last) * l.rate + (u - t) * l.rate := by ring
      rw [admissions_cons]
      rcases serve_cases l s t with ⟨_, _, heq⟩ | heq
      · rw [heq] at hrest ⊢
        dsimp only at hrest
        rw [if_pos rfl, List.filter_cons_of_pos (by simpa using htu), List.length_cons, Nat.cast_add,
          Nat.cast_one]
        linarith
      · rw [heq] at hrest ⊢
        rw [if_neg Bool.false_ne_true]
        change _ ≤ s.level l t + (u - t) * l.rate at hrest
        exact hrest.trans (by linarith)
    · have hover : ∀ a, t ≤ a → decide (a ≤ u) = false :=
        fun a hta => decide_eq_false fun hau => htu (hta.trans hau)
      have hback : 0 ≤ (u - s.last) * l.rate := mul_nonneg (sub_nonneg.mpr hu) hrate
      rw [admissions_filter_of_early hfirst hover]
      simpa using add_nonneg h.nonneg hback

theorem level_refilled (hrate : 0 ≤ l.rate) (htu : t ≤ u) :
    (s.refilled l t).level l u = s.level l u := by
  have hback : 0 ≤ (u - t) * l.rate := mul_nonneg (sub_nonneg.mpr htu) hrate
  have hsplit : s.tokens + (u - s.last) * l.rate =
      s.tokens + (t - s.last) * l.rate + (u - t) * l.rate := by ring
  change min l.burst (min l.burst (s.tokens + (t - s.last) * l.rate) + (u - t) * l.rate) =
    min l.burst (s.tokens + (u - s.last) * l.rate)
  rw [hsplit, ← min_add_add_right, ← min_assoc, min_eq_left (le_add_of_nonneg_right hback)]

omit [IsStrictOrderedRing K] in
theorem held_refilled [IsOrderedAddMonoid K] (htu : t ≤ u) :
    (s.refilled l t).held l u = s.held l u := by
  unfold held refilled
  change (s.recent.filter _).filter _ = s.recent.filter _
  rw [List.filter_filter]
  refine List.filter_congr fun a _ => ?_
  by_cases hu : u - a < l.window
  · have ht : t - a < l.window := (sub_le_sub_right htu a).trans_lt hu
    simp [ht, hu]
  · simp [hu]

theorem answers_of_refused (hrate : 0 ≤ l.rate) (h : (s.serve l now).1 = false)
    (hts : ∀ a ∈ ts, now ≤ a) : (s.serve l now).2.answers l ts = s.answers l ts := by
  cases ts with
  | nil => rfl
  | cons t ts =>
    have ht : now ≤ t := hts t List.mem_cons_self
    rcases serve_cases l s now with ⟨_, _, heq⟩ | heq
    · rw [heq] at h
      cases h
    · rw [heq]
      exact answers_congr (level_refilled hrate ht) (held_refilled ht)

theorem serve_of_refused (hrate : 0 ≤ l.rate) (h : (s.serve l now).1 = false) (ht : now ≤ t) :
    ((s.serve l now).2.serve l t).1 = (s.serve l t).1 := by
  have hanswers : (s.serve l now).2.answers l [t] = s.answers l [t] :=
    answers_of_refused hrate h (by simpa using ht)
  simpa [answers] using hanswers

theorem length_admissions_interval_le (h : Within l s) (hrate : 0 ≤ l.rate)
    (hts : ts.Pairwise (· ≤ ·)) (hlast : ∀ a ∈ ts, s.last ≤ a) (start : K) {length : K}
    (hlength : 0 ≤ length) :
    (((s.admissions l ts).filter fun a => start ≤ a ∧ a ≤ start + length).length : K) ≤
      l.burst + length * l.rate := by
  have hnone : (0 : K) ≤ l.burst + length * l.rate :=
    add_nonneg (h.nonneg.trans h.le_burst) (mul_nonneg hlength hrate)
  induction ts generalizing s with
  | nil => simpa [admissions, answers] using hnone
  | cons t ts ih =>
    obtain ⟨hfirst, hts'⟩ := List.pairwise_cons.mp hts
    have ht : s.last ≤ t := hlast t List.mem_cons_self
    by_cases hstart : start ≤ t
    · by_cases hend : t ≤ start + length
      · -- the bucket is at most full when the interval's first request comes
        have hwithin : Within l (s.refilled l t) := ⟨h.level_nonneg hrate ht, level_le_burst⟩
        have hsame : s.admissions l (t :: ts) = (s.refilled l t).admissions l (t :: ts) := by
          unfold admissions
          rw [answers_congr (level_refilled hrate le_rfl).symm (held_refilled le_rfl).symm]
        have hall : ∀ a ∈ t :: ts, (s.refilled l t).last ≤ a := by
          intro a ha
          rcases List.mem_cons.mp ha with rfl | ha
          · exact le_rfl
          · exact hfirst a ha
        have hcount := length_admissions_le hwithin hrate hts hall hend
        rw [← hsame] at hcount
        have hsub : (((s.admissions l (t :: ts)).filter fun a =>
            start ≤ a ∧ a ≤ start + length).length : K) ≤
            (((s.admissions l (t :: ts)).filter fun a => a ≤ start + length).length : K) := by
          refine Nat.cast_le.mpr (List.Sublist.length_le (List.monotone_filter_right _ ?_))
          intro a ha
          exact decide_eq_true (of_decide_eq_true ha).2
        have hlevel : (s.refilled l t).tokens ≤ l.burst := level_le_burst
        have hback : (start + length - t) * l.rate ≤ length * l.rate := by
          refine mul_le_mul_of_nonneg_right ?_ hrate
          linarith
        change _ ≤ (s.refilled l t).tokens + (start + length - t) * l.rate at hcount
        linarith
      · have hover : ∀ a, t ≤ a → decide (start ≤ a ∧ a ≤ start + length) = false :=
          fun a hta => decide_eq_false fun hau => hend (hta.trans hau.2)
        rw [admissions_filter_of_early hfirst hover]
        simpa using hnone
    · have hrest := ih (h.serve hrate ht) hts' fun a ha => by rw [last_serve]; exact hfirst a ha
      have hdrop : decide (start ≤ t ∧ t ≤ start + length) = false :=
        decide_eq_false fun hin => hstart hin.1
      rw [admissions_cons]
      split_ifs
      · rwa [List.filter_cons_of_neg (by rw [hdrop]; exact Bool.false_ne_true)]
      · exact hrest

end Tokens

section Windows

variable [IsStrictOrderedRing K] {l : BucketLimit K} {s : TokenBucket K} {ts : List K}

omit [IsStrictOrderedRing K] in
theorem filter_held [IsOrderedAddMonoid K] {start t : K} (ht : t < start + l.window) :
    (s.held l t).filter (fun a => start ≤ a) = s.recent.filter fun a => start ≤ a := by
  unfold held
  rw [List.filter_filter]
  refine List.filter_congr fun a _ => ?_
  by_cases ha : start ≤ a
  · have hin : t - a < l.window := by
      rw [sub_lt_iff_lt_add']
      exact ht.trans_le (add_le_add_left ha _)
    simp [ha, hin]
  · simp [ha]

/-- A window that starts anywhere holds no more admissions than are allowed, counting those that
the bucket remembers. -/
theorem length_recent_add_le (start : K) (hts : ts.Pairwise (· ≤ ·))
    (hrecent : ((s.recent.filter fun a => start ≤ a).length : ℤ) ≤ l.most) :
    ((s.recent.filter fun a => start ≤ a).length +
      ((s.admissions l ts).filter fun a => start ≤ a ∧ a < start + l.window).length : ℤ) ≤
        l.most := by
  induction ts generalizing s with
  | nil => simpa [admissions, answers] using hrecent
  | cons t ts ih =>
    obtain ⟨hfirst, hts'⟩ := List.pairwise_cons.mp hts
    by_cases ht : t < start + l.window
    · have hheld := filter_held (s := s) ht
      have hle := List.length_filter_le (fun a => decide (start ≤ a)) (s.held l t)
      rw [hheld] at hle
      rw [admissions_cons]
      rcases serve_cases l s t with ⟨_, hroom, heq⟩ | heq
      · rw [heq, if_pos rfl]
        have hrest := ih (s := (s.serve l t).2) hts'
        rw [heq] at hrest
        dsimp only at hrest ⊢
        rw [List.filter_append, hheld, List.length_append] at hrest
        by_cases hstart : start ≤ t
        · rw [List.filter_cons_of_pos (by simpa using hstart), List.filter_nil,
            List.length_singleton] at hrest
          rw [List.filter_cons_of_pos (by simpa using ⟨hstart, ht⟩), List.length_cons]
          have hnext := hrest (by omega)
          omega
        · rw [List.filter_cons_of_neg (by simpa using hstart), List.filter_nil,
            List.length_nil] at hrest
          rw [List.filter_cons_of_neg (by simpa using fun h => absurd h hstart)]
          have hnext := hrest (by omega)
          omega
      · rw [heq, if_neg Bool.false_ne_true]
        have hrest := ih (s := s.refilled l t) hts'
        change (((s.held l t).filter _).length : ℤ) ≤ _ → (((s.held l t).filter _).length + _ : ℤ) ≤ _
          at hrest
        rw [hheld] at hrest
        exact hrest hrecent
    · have hover : ∀ a, t ≤ a → decide (start ≤ a ∧ a < start + l.window) = false :=
        fun a hta => decide_eq_false fun hin => ht (hta.trans_lt hin.2)
      rw [admissions_filter_of_early hfirst hover]
      simpa using hrecent

end Windows

end TokenBucket

end TokenBuckets

end CaManager.Library
