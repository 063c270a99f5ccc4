import CaManager.Library.Dictionaries
import CaManager.Security.RateLimiter

/-!
# Which requests share a bucket

The limit of a request is looked up among the custom limits and then among the default ones, but
its bucket is named by its address and its default pattern alone. The buckets of an address are
cleared by the beginning of their names.
-/

namespace CaManager

open Library

/-- The entry of the configuration that limits a request. -/
inductive LimitEntry
  | custom (pattern : String)
  | default (pattern : String)
  | unspecified
  deriving Repr, DecidableEq

namespace RateLimitConfig

def setCustomLimit (c : RateLimitConfig) (path : String) (rpm burst : ℤ) : RateLimitConfig :=
  { c with customLimits := setEntry path ⟨rpm, burst⟩ c.customLimits }

def removeCustomLimit (c : RateLimitConfig) (path : String) : RateLimitConfig :=
  { c with customLimits := c.customLimits.filter fun entry => entry.1 ≠ path }

def customPattern (c : RateLimitConfig) (path : String) : Option String :=
  (matching c.customLimits path).map Prod.fst

def defaultPattern (c : RateLimitConfig) (path : String) : Option String :=
  (matching c.env.defaultLimits path).map Prod.fst

/-- The entry that `get_limit` takes the limit of a path from. -/
def governing (c : RateLimitConfig) (path : String) : LimitEntry :=
  match c.customPattern path, c.defaultPattern path with
  | some pattern, _ => .custom pattern
  | none, some pattern => .default pattern
  | none, none => .unspecified

end RateLimitConfig

namespace RateLimiter

open RateLimitConfig

def clearBucket (s : RateLimiter) (ip : Option String) : RateLimiter :=
  match ip.filter (· ≠ "") with
  | some ip => { buckets := fun key => if startsWith key (ip ++ ":") then none else s.buckets key }
  | none => {}

def Limited (c : RateLimitConfig) (q : RateRequest) : Prop :=
  c.enabled = true ∧ q.ip ∉ c.whitelist

instance (c : RateLimitConfig) (q : RateRequest) : Decidable (Limited c q) :=
  inferInstanceAs (Decidable (_ ∧ _))

/-- Requests that are limited share a bucket exactly if they come from one address and one entry
limits them. -/
def Separated (c : RateLimitConfig) (q q' : RateRequest) : Prop :=
  Limited c q → Limited c q' →
    ((∃ key, Reaches c key q ∧ Reaches c key q') ↔
      q.ip = q'.ip ∧ c.governing q.path = c.governing q'.path)

def ClearsExactly (c : RateLimitConfig) (s : RateLimiter) (ip : String) : Prop :=
  ∀ address path, (clearBucket s (some ip)).buckets (getKey c address path) =
    if address = ip then none else s.buckets (getKey c address path)

/-- The custom limits tell paths with one default pattern apart as little as the default limits
do, and none takes paths with several default patterns together. -/
structure PatternsAgree (c : RateLimitConfig) (path path' : String) : Prop where
  custom : c.defaultPattern path = c.defaultPattern path' →
    c.customPattern path = c.customPattern path'
  default : c.customPattern path = c.customPattern path' → c.customPattern path ≠ none →
    c.defaultPattern path = c.defaultPattern path'

section Keys

variable {c : RateLimitConfig} {ip ip' path path' : String}

theorem patterns_defaultLimits (env : RateLimitEnv) :
    env.defaultLimits.map Prod.fst = ({} : RateLimitEnv).defaultLimits.map Prod.fst := rfl

theorem plain_of_mem_defaultLimits {env : RateLimitEnv} {pattern : String}
    (h : pattern ∈ env.defaultLimits.map Prod.fst) :
    ':' ∉ pattern.toList ∧ pattern ≠ "_default" := by
  have hpatterns : ((({} : RateLimitEnv).defaultLimits.map Prod.fst).all fun pattern =>
      decide (':' ∉ pattern.toList ∧ pattern ≠ "_default")) = true := by
    decide +kernel
  rw [patterns_defaultLimits] at h
  exact of_decide_eq_true (List.all_eq_true.mp hpatterns pattern h)

theorem plain_of_defaultPattern {pattern : String} (h : c.defaultPattern path = some pattern) :
    ':' ∉ pattern.toList ∧ pattern ≠ "_default" := by
  obtain ⟨entry, hentry, rfl⟩ := Option.map_eq_some_iff.mp h
  exact plain_of_mem_defaultLimits (List.mem_map.mpr ⟨entry, List.mem_of_find?_eq_some hentry, rfl⟩)

def keyPattern (c : RateLimitConfig) (path : String) : String :=
  (c.defaultPattern path).getD "_default"

theorem notMem_keyPattern : ':' ∉ (keyPattern c path).toList := by
  unfold keyPattern
  cases h : c.defaultPattern path with
  | none => decide
  | some pattern => exact (plain_of_defaultPattern h).1

theorem keyPattern_eq_iff :
    keyPattern c path = keyPattern c path' ↔ c.defaultPattern path = c.defaultPattern path' := by
  constructor
  · intro h
    unfold keyPattern at h
    cases hpath : c.defaultPattern path with
    | none =>
      cases hpath' : c.defaultPattern path' with
      | none => rfl
      | some pattern' =>
        rw [hpath, hpath'] at h
        exact absurd h.symm (plain_of_defaultPattern hpath').2
    | some pattern =>
      cases hpath' : c.defaultPattern path' with
      | none =>
        rw [hpath, hpath'] at h
        exact absurd h (plain_of_defaultPattern hpath).2
      | some pattern' =>
        rw [hpath, hpath'] at h
        exact congrArg some h
  · intro h
    rw [keyPattern, h, keyPattern]

theorem toList_getKey :
    (getKey c ip path).toList = ip.toList ++ ':' :: (keyPattern c path).toList := by
  change (ip ++ ":" ++ keyPattern c path).toList = _
  simp

theorem getKey_eq_iff : getKey c ip path = getKey c ip' path' ↔
    ip = ip' ∧ c.defaultPattern path = c.defaultPattern path' := by
  rw [← keyPattern_eq_iff]
  constructor
  · intro h
    have hlists := congrArg String.toList h
    rw [toList_getKey, toList_getKey] at hlists
    obtain ⟨hip, hpattern⟩ := eq_of_append_cons_last notMem_keyPattern notMem_keyPattern hlists
    exact ⟨String.toList_injective hip, String.toList_injective hpattern⟩
  · rintro ⟨rfl, hpattern⟩
    change ip ++ ":" ++ keyPattern c path = ip ++ ":" ++ keyPattern c path'
    rw [hpattern]

/-- A bucket begins like an address exactly if it is one of the address, or the address with a
separator begins its own. -/
theorem startsWith_getKey {address : String} :
    startsWith (getKey c address path) (ip ++ ":") = true ↔
      address = ip ∨ startsWith address (ip ++ ":") = true := by
  have hprefix : (ip ++ ":").toList = ip.toList ++ [':'] := by simp
  unfold startsWith
  rw [List.isPrefixOf_iff_prefix, List.isPrefixOf_iff_prefix, toList_getKey, hprefix,
    prefix_append_cons_iff notMem_keyPattern, eq_comm (a := ip.toList), String.toList_inj]

theorem governing_eq_iff : c.governing path = c.governing path' ↔
    c.customPattern path = c.customPattern path' ∧
      (c.customPattern path = none → c.defaultPattern path = c.defaultPattern path') := by
  unfold governing
  cases c.customPattern path <;> cases c.customPattern path' <;>
    cases c.defaultPattern path <;> cases c.defaultPattern path' <;> simp

end Keys

section Separation

variable {c : RateLimitConfig} {s : RateLimiter} {q q' : RateRequest} {ip : String}

theorem shares_iff (hq : Limited c q) (hq' : Limited c q') :
    (∃ key, Reaches c key q ∧ Reaches c key q') ↔
      q.ip = q'.ip ∧ c.defaultPattern q.path = c.defaultPattern q'.path := by
  rw [← getKey_eq_iff]
  constructor
  · rintro ⟨key, hkey, hkey'⟩
    exact hkey.2.2.trans hkey'.2.2.symm
  · intro h
    exact ⟨getKey c q.ip q.path, ⟨hq.1, hq.2, rfl⟩, hq'.1, hq'.2, h.symm⟩

theorem separated_iff : Separated c q q' ↔
    (Limited c q → Limited c q' → q.ip = q'.ip → PatternsAgree c q.path q'.path) := by
  unfold Separated
  constructor
  · intro h hq hq' hip
    have hshares := h hq hq'
    rw [shares_iff hq hq', governing_eq_iff] at hshares
    constructor
    · intro hdefault
      exact (hshares.mp ⟨hip, hdefault⟩).2.1
    · intro hcustom hsome
      exact (hshares.mpr ⟨hip, hcustom, fun hnone => absurd hnone hsome⟩).2
  · intro h hq hq'
    rw [shares_iff hq hq', governing_eq_iff]
    constructor
    · rintro ⟨hip, hdefault⟩
      exact ⟨hip, (h hq hq' hip).custom hdefault, fun _ => hdefault⟩
    · rintro ⟨hip, hcustom, hnone⟩
      by_cases hpattern : c.customPattern q.path = none
      · exact ⟨hip, hnone hpattern⟩
      · exact ⟨hip, (h hq hq' hip).default hcustom hpattern⟩

theorem clearBucket_of_ne_empty (hip : ip ≠ "") (key : String) :
    (clearBucket s (some ip)).buckets key =
      if startsWith key (ip ++ ":") then none else s.buckets key := by
  have hgiven : (some ip).filter (· ≠ "") = some ip := by simp [hip]
  unfold clearBucket
  rw [hgiven]

theorem clearsExactly_iff : ClearsExactly c s ip ↔
    ∀ address path, address ≠ ip → ip = "" ∨ startsWith address (ip ++ ":") = true →
      s.buckets (getKey c address path) = none := by
  by_cases hip : ip = ""
  · subst hip
    constructor
    · intro h address path hne _
      have hcleared := h address path
      rw [if_neg hne] at hcleared
      exact hcleared.symm
    · intro h address path
      by_cases hne : address = ""
      · rw [if_pos hne]
        rfl
      · rw [if_neg hne, h address path hne (.inl rfl)]
        rfl
  · constructor
    · intro h address path hne hbegins
      have hcleared := h address path
      have hstart : startsWith (getKey c address path) (ip ++ ":") = true :=
        startsWith_getKey.mpr (.inr (hbegins.resolve_left hip))
      rw [clearBucket_of_ne_empty hip, if_pos hstart, if_neg hne] at hcleared
      exact hcleared.symm
    · intro h address path
      rw [clearBucket_of_ne_empty hip]
      by_cases hne : address = ip
      · rw [if_pos (startsWith_getKey.mpr (.inl hne)), if_pos hne]
      · rw [if_neg hne]
        split_ifs with hstart
        · have hbegins := (startsWith_getKey.mp hstart).resolve_left hne
          exact (h address path hne (.inr hbegins)).symm
        · rfl

/-- Buckets are shared as entries are, and cleared by their address, exactly if the custom limits
agree with the default patterns about the two paths and no address with a bucket begins with the
one that is cleared. -/
theorem bucketsSeparated_iff (c : RateLimitConfig) (s : RateLimiter) (q q' : RateRequest)
    (ip : String) :
    Separated c q q' ∧ ClearsExactly c s ip ↔
      (Limited c q → Limited c q' → q.ip = q'.ip → PatternsAgree c q.path q'.path) ∧
      ∀ address path, address ≠ ip → ip = "" ∨ startsWith address (ip ++ ":") = true →
        s.buckets (getKey c address path) = none := by
  rw [separated_iff, clearsExactly_iff]

/-- Imports with a limit of their own share the bucket of all certificate routes, and clearing an
address clears those that continue it. -/
theorem buckets_not_separated :
    let c := setCustomLimit {} "/api/v2/certificates/import" 5 2
    let q : RateRequest := ⟨"2001:db8::1:5", "/api/v2/certificates/import", 0⟩
    let q' : RateRequest := ⟨"2001:db8::1:5", "/api/v2/certificates", 0⟩
    ¬Separated c q q' ∧ ¬ClearsExactly c (step c {} q) "2001:db8::1" := by
  intro c q q'
  rw [separated_iff, clearsExactly_iff]
  constructor
  · intro h
    have hcustom := (h (by decide +kernel) (by decide +kernel) rfl).custom (by decide +kernel)
    revert hcustom
    decide +kernel
  · intro h
    have hbucket := h "2001:db8::1:5" q.path (by decide) (.inr (by decide +kernel))
    revert hbucket
    decide +kernel

end Separation

end RateLimiter

end CaManager
