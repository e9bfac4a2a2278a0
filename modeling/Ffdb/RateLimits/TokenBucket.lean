import Ffdb.RateLimits.Quota
import Mathlib.Algebra.Order.Floor.Ring
import Mathlib.Data.Rat.Floor
import Mathlib.Tactic.Linarith

/-! Token buckets, with floating-point numbers read as the rationals they stand for. A key that was
not seen for a while gives its place to another one and starts again with a full bucket. -/
namespace Ffdb.RateLimits

structure TokenBucketConfig where
  capacity : Nat
  refillTokensPerSecond : ℚ
  idleTtlMs : Int64
  maxEntries : Nat

def TokenBucketConfig.validate (config : TokenBucketConfig) : Except RateLimitError TokenBucketConfig :=
  if config.capacity = 0 ∨ config.refillTokensPerSecond ≤ 0 ∨ config.idleTtlMs ≤ 0 ∨ config.maxEntries = 0 ∨
      i64Max < config.maxEntries then .error .invalidConfiguration
  else .ok config

inductive RateLimitDecision (F : Type) where
  | allowed (remaining : F)
  | denied (retryAfterMs : Nat)
  deriving DecidableEq

structure BucketState where
  tokens : ℚ
  lastRefillMs : Int64
  lastSeenMs : Int64
  deriving DecidableEq

structure TokenBucketLimiter where
  config : TokenBucketConfig
  buckets : Table RateLimitKey BucketState := ∅

structure BucketCheck where
  key : RateLimitKey
  cost : Nat
  nowMs : Int64

def retryAfterMs (rate missing : ℚ) : Nat :=
  let retryMs := ⌈missing / rate * 1000⌉
  if 1 ≤ retryMs then min retryMs.toNat Saturating.u64Max else 1

def refilled (config : TokenBucketConfig) (tokens : ℚ) (lastRefillMs nowMs : Int64) : ℚ :=
  let elapsedMs := max (Saturating.sub nowMs lastRefillMs) 0
  min (tokens + elapsedMs.toInt / 1000 * config.refillTokensPerSecond) config.capacity

namespace TokenBucketLimiter

def new (config : TokenBucketConfig) : Except RateLimitError TokenBucketLimiter := do
  pure { config := ← config.validate }

variable (limiter : TokenBucketLimiter) (call : BucketCheck)

def evicts : Bool :=
  (limiter.buckets.lookup call.key).isNone && limiter.config.maxEntries ≤ limiter.buckets.size

/-- The buckets, after the idle ones went if there was no room. -/
def swept : Table RateLimitKey BucketState :=
  if limiter.evicts call then
    limiter.buckets.retain fun _ bucket => Saturating.sub call.nowMs bucket.lastSeenMs ≤ limiter.config.idleTtlMs
  else limiter.buckets

def bucketOf : BucketState :=
  ((limiter.swept call).lookup call.key).getD ⟨limiter.config.capacity, call.nowMs, call.nowMs⟩

def check : TokenBucketLimiter × Except RateLimitError (RateLimitDecision ℚ) :=
  if call.cost = 0 || limiter.config.capacity < call.cost then (limiter, .error .invalidCost)
  else
    let buckets := limiter.swept call
    if limiter.evicts call && limiter.config.maxEntries ≤ buckets.size then
      ({ limiter with buckets }, .error .saturated)
    else
      let bucket := limiter.bucketOf call
      -- wall-clock rollback never mints tokens
      let tokens := refilled limiter.config bucket.tokens bucket.lastRefillMs call.nowMs
      let bucket : BucketState := ⟨tokens, max bucket.lastRefillMs call.nowMs, max bucket.lastSeenMs call.nowMs⟩
      if (call.cost : ℚ) ≤ tokens then
        ({ limiter with buckets := buckets.insert call.key { bucket with tokens := tokens - call.cost } },
          .ok (.allowed (tokens - call.cost)))
      else
        ({ limiter with buckets := buckets.insert call.key bucket },
          .ok (.denied (retryAfterMs limiter.config.refillTokensPerSecond (call.cost - tokens))))

def step : TokenBucketLimiter := (limiter.check call).1

def allowed : Nat :=
  match (limiter.check call).2 with
  | .ok (.allowed _) => call.cost
  | _ => 0

def sees : Bool :=
  !(call.cost = 0 || limiter.config.capacity < call.cost) &&
    !(limiter.evicts call && limiter.config.maxEntries ≤ (limiter.swept call).size)

def spent (key : RateLimitKey) : TokenBucketLimiter → List BucketCheck → Nat
  | _, [] => 0
  | limiter, call :: calls =>
    (if call.key = key then limiter.allowed call else 0) + spent key (limiter.step call) calls

def seen (key : RateLimitKey) : TokenBucketLimiter → List BucketCheck → List Int64
  | _, [] => []
  | limiter, call :: calls =>
    (if call.key = key ∧ limiter.sees call = true then [call.nowMs] else []) ++ seen key (limiter.step call) calls

def forgotten (past : RateLimitKey → Option BucketState) (key : RateLimitKey) : Option BucketState :=
  if ((limiter.step call).buckets.lookup key).isSome then none else (limiter.buckets.lookup key).or (past key)

/-- A key that was forgotten comes back only when its bucket would be full again. -/
def ComesBackFull : TokenBucketLimiter → (RateLimitKey → Option BucketState) → List BucketCheck → Prop
  | _, _, [] => True
  | limiter, past, call :: calls =>
    (limiter.sees call = true → limiter.buckets.lookup call.key = none → ∀ bucket, past call.key = some bucket →
      bucket.lastRefillMs ≤ call.nowMs ∧
        refilled limiter.config bucket.tokens bucket.lastRefillMs call.nowMs = limiter.config.capacity) ∧
    (limiter.step call).ComesBackFull (limiter.forgotten call past) calls

section Step
variable {limiter : TokenBucketLimiter} {call : BucketCheck}

theorem config_step (call : BucketCheck) : (limiter.step call).config = limiter.config := by
  simp only [step, check]
  split_ifs <;> rfl

theorem lookup_swept {key : RateLimitKey} :
    (limiter.swept call).lookup key = none ∨ (limiter.swept call).lookup key = limiter.buckets.lookup key := by
  unfold swept
  split_ifs
  · rw [AList.lookup_retain]
    cases limiter.buckets.lookup key with
    | none => exact .inl rfl
    | some bucket =>
      simp only [Option.filter]
      split_ifs
      · exact .inr rfl
      · exact .inl rfl
  · exact .inr rfl

theorem lookup_swept_self : (limiter.swept call).lookup call.key = limiter.buckets.lookup call.key := by
  obtain hnone | hsame := @lookup_swept limiter call call.key
  · unfold swept at hnone ⊢
    split_ifs at hnone ⊢ with hevicts
    · rw [hnone, Option.isNone_iff_eq_none.mp (Bool.and_eq_true_iff.mp hevicts).1]
    · rfl
  · exact hsame

/-- Without an answer nothing is allowed, and what was known of the key stays. -/
theorem step_of_not_sees (h : limiter.sees call = false) :
    (limiter.step call).buckets.lookup call.key = limiter.buckets.lookup call.key ∧ limiter.allowed call = 0 := by
  rw [sees, Bool.and_eq_false_iff, Bool.not_eq_false', Bool.not_eq_false'] at h
  simp only [step, allowed, check]
  split_ifs with hcost hfull
  · exact ⟨rfl, rfl⟩
  · exact ⟨lookup_swept_self, rfl⟩
  all_goals exact absurd h (not_or_intro hcost hfull)

theorem step_of_sees (h : limiter.sees call = true) :
    let bucket := limiter.bucketOf call
    let tokens := refilled limiter.config bucket.tokens bucket.lastRefillMs call.nowMs
    (limiter.step call).buckets.lookup call.key =
        some ⟨tokens - limiter.allowed call, max bucket.lastRefillMs call.nowMs, max bucket.lastSeenMs call.nowMs⟩ ∧
      (limiter.allowed call = 0 ∨ (limiter.allowed call : ℚ) ≤ tokens) := by
  rw [sees, Bool.and_eq_true, Bool.not_eq_true', Bool.not_eq_true'] at h
  simp only [step, allowed, check, h.1, h.2, Bool.false_eq_true, if_false]
  split_ifs with henough
  · exact ⟨AList.lookup_insert _, .inr henough⟩
  · refine ⟨?_, .inl rfl⟩
    rw [AList.lookup_insert, Nat.cast_zero, sub_zero]

theorem lookup_step {key : RateLimitKey} (hkey : key ≠ call.key) :
    (limiter.step call).buckets.lookup key = none ∨
      (limiter.step call).buckets.lookup key = limiter.buckets.lookup key := by
  simp only [step, check]
  split_ifs
  · exact .inr rfl
  · exact lookup_swept
  all_goals
    rw [AList.lookup_insert_ne hkey]
    exact lookup_swept

def known (limiter : TokenBucketLimiter) (past : RateLimitKey → Option BucketState) (key : RateLimitKey) :
    Option BucketState :=
  (limiter.buckets.lookup key).or (past key)

theorem known_step_of_lookup {past : RateLimitKey → Option BucketState} {key : RateLimitKey}
    (h : (limiter.step call).buckets.lookup key = none ∨
      (limiter.step call).buckets.lookup key = limiter.buckets.lookup key) :
    (limiter.step call).known (limiter.forgotten call past) key = limiter.known past key := by
  unfold known forgotten
  cases hafter : (limiter.step call).buckets.lookup key with
  | none => simp
  | some bucket =>
    obtain hnone | hsame := h
    · rw [hnone] at hafter
      cases hafter
    · rw [← hsame, hafter]
      rfl

end Step

section Refill
variable {config : TokenBucketConfig} {tokens : ℚ} {lastRefillMs nowMs : Int64}

theorem refilled_le (hrate : 0 ≤ config.refillTokensPerSecond) :
    refilled config tokens lastRefillMs nowMs ≤
      tokens + ((max lastRefillMs nowMs).toInt - lastRefillMs.toInt) / 1000 * config.refillTokensPerSecond := by
  refine (min_le_left _ _).trans (add_le_add_right ?_ _)
  refine mul_le_mul_of_nonneg_right ?_ hrate
  refine div_le_div_of_nonneg_right ?_ (by norm_num)
  exact_mod_cast Saturating.max_sub_zero_le nowMs lastRefillMs

theorem refilled_nonneg (hrate : 0 ≤ config.refillTokensPerSecond) (htokens : 0 ≤ tokens) :
    0 ≤ refilled config tokens lastRefillMs nowMs := by
  refine le_min (add_nonneg htokens (mul_nonneg (div_nonneg ?_ (by norm_num)) hrate)) (Nat.cast_nonneg _)
  have : (0 : Int64).toInt ≤ (max (Saturating.sub nowMs lastRefillMs) 0).toInt := by
    rw [Saturating.toInt_max]
    exact le_max_right _ _
  exact_mod_cast this

theorem refilled_le_capacity : refilled config tokens lastRefillMs nowMs ≤ config.capacity := min_le_right _ _

end Refill

/-- What a key got, the tokens of its bucket with it, is covered by one full bucket and the refills
since the key was first seen. -/
structure Covers (config : TokenBucketConfig) (spent : Nat) (first : Int64) (seen : List Int64) (bucket : BucketState) :
    Prop where
  tokens : 0 ≤ bucket.tokens
  last : bucket.lastRefillMs ∈ first :: seen
  spent : bucket.tokens + spent ≤
    config.capacity + (bucket.lastRefillMs.toInt - first.toInt) / 1000 * config.refillTokensPerSecond

def Account (config : TokenBucketConfig) (spent : Nat) : List Int64 → Option BucketState → Prop
  | [], bucket => bucket = none ∧ spent = 0
  | first :: seen, bucket => ∃ known, bucket = some known ∧ Covers config spent first seen known

section Run
variable {config : TokenBucketConfig} {spent allowed : Nat} {seen : List Int64} {nowMs lastSeenMs : Int64}

theorem Covers.check {first : Int64} {bucket : BucketState} (h : Covers config spent first seen bucket)
    (hrate : 0 ≤ config.refillTokensPerSecond)
    (hallowed : allowed = 0 ∨ (allowed : ℚ) ≤ refilled config bucket.tokens bucket.lastRefillMs nowMs) :
    Covers config (spent + allowed) first (seen ++ [nowMs])
      ⟨refilled config bucket.tokens bucket.lastRefillMs nowMs - allowed, max bucket.lastRefillMs nowMs, lastSeenMs⟩ where
  tokens := by
    obtain rfl | hle := hallowed
    · simpa using refilled_nonneg hrate h.tokens
    · exact sub_nonneg.mpr hle
  last := by
    change (if bucket.lastRefillMs ≤ nowMs then nowMs else bucket.lastRefillMs) ∈ _
    split_ifs
    · simp
    · exact List.cons_subset_cons _ (List.subset_append_left _ _) h.last
  spent := by
    have hrefill := @refilled_le config bucket.tokens bucket.lastRefillMs nowMs hrate
    have hbefore := h.spent
    push_cast at hrefill ⊢
    linarith

theorem Covers.fresh (lastSeenMs : Int64) (hrate : 0 ≤ config.refillTokensPerSecond)
    (hallowed : allowed = 0 ∨ (allowed : ℚ) ≤ refilled config config.capacity nowMs nowMs) :
    Covers config allowed nowMs []
      ⟨refilled config config.capacity nowMs nowMs - allowed, max nowMs nowMs, lastSeenMs⟩ where
  tokens := by
    obtain rfl | hle := hallowed
    · simpa using refilled_nonneg hrate (Nat.cast_nonneg config.capacity)
    · exact sub_nonneg.mpr hle
  last := by
    change (if nowMs ≤ nowMs then nowMs else nowMs) ∈ _
    simp
  spent := by
    have hmax : (max nowMs nowMs).toInt = nowMs.toInt := by rw [Saturating.toInt_max, max_self]
    have hle := @refilled_le_capacity config config.capacity nowMs nowMs
    rw [hmax]
    simp only [sub_self, zero_div, zero_mul, add_zero]
    linarith

/-- A check with a new bucket, in the place of one that would be full. -/
theorem Covers.again {first : Int64} {bucket : BucketState} (h : Covers config spent first seen bucket)
    (hrate : 0 ≤ config.refillTokensPerSecond) (hlast : bucket.lastRefillMs ≤ nowMs)
    (hfull : refilled config bucket.tokens bucket.lastRefillMs nowMs = config.capacity)
    (hallowed : allowed = 0 ∨ (allowed : ℚ) ≤ refilled config config.capacity nowMs nowMs) :
    Covers config (spent + allowed) first (seen ++ [nowMs])
      ⟨refilled config config.capacity nowMs nowMs - allowed, max nowMs nowMs, lastSeenMs⟩ where
  tokens := (Covers.fresh _ hrate hallowed).tokens
  last := by
    change (if nowMs ≤ nowMs then nowMs else nowMs) ∈ _
    simp
  spent := by
    have hnew := (Covers.fresh nowMs hrate hallowed).spent
    have hrefill := @refilled_le config bucket.tokens bucket.lastRefillMs nowMs hrate
    rw [hfull, Saturating.toInt_max, max_eq_right (Int64.le_iff_toInt_le.mp hlast)] at hrefill
    have hmax : (max nowMs nowMs).toInt = nowMs.toInt := by rw [Saturating.toInt_max, max_self]
    have hbefore := h.spent
    rw [hmax] at hnew ⊢
    simp only [sub_self, zero_div, zero_mul, add_zero] at hnew
    push_cast at hrefill ⊢
    linarith

variable {limiter : TokenBucketLimiter} {past : RateLimitKey → Option BucketState} {call : BucketCheck}
  {calls : List BucketCheck}

/-- Every key has an account, before and after a check. -/
theorem account_step {key : RateLimitKey} (hrate : 0 ≤ limiter.config.refillTokensPerSecond)
    (h : Account limiter.config spent seen (limiter.known past key))
    (hback : limiter.sees call = true → limiter.buckets.lookup call.key = none → ∀ bucket, past call.key = some bucket →
      bucket.lastRefillMs ≤ call.nowMs ∧
        refilled limiter.config bucket.tokens bucket.lastRefillMs call.nowMs = limiter.config.capacity) :
    Account limiter.config (spent + if call.key = key then limiter.allowed call else 0)
      (seen ++ if call.key = key ∧ limiter.sees call = true then [call.nowMs] else [])
      ((limiter.step call).known (limiter.forgotten call past) key) := by
  by_cases hkey : call.key = key
  · subst hkey
    cases hsees : limiter.sees call with
    | false =>
      obtain ⟨hlookup, hzero⟩ := step_of_not_sees hsees
      rw [known_step_of_lookup (.inr hlookup)]
      simpa [hzero] using h
    | true =>
      obtain ⟨hlookup, hallowed⟩ := step_of_sees hsees
      have hknown : (limiter.step call).known (limiter.forgotten call past) call.key =
          (limiter.step call).buckets.lookup call.key := by
        rw [known, hlookup]
        rfl
      rw [hknown, hlookup]
      rw [if_pos rfl, if_pos ⟨rfl, rfl⟩]
      cases hbucket : limiter.buckets.lookup call.key with
      | some bucket =>
        have hfound : limiter.bucketOf call = bucket := by rw [bucketOf, lookup_swept_self, hbucket, Option.getD_some]
        rw [hfound] at hallowed ⊢
        rw [known, hbucket, Option.some_or] at h
        cases seen with
        | nil => cases h.1
        | cons first seen =>
          obtain ⟨_, ⟨⟩, hcovers⟩ := h
          exact ⟨_, rfl, hcovers.check hrate hallowed⟩
      | none =>
        have hfound : limiter.bucketOf call = ⟨limiter.config.capacity, call.nowMs, call.nowMs⟩ := by
          rw [bucketOf, lookup_swept_self, hbucket, Option.getD_none]
        rw [hfound] at hallowed ⊢
        rw [known, hbucket, Option.none_or] at h
        cases seen with
        | nil =>
          obtain ⟨-, rfl⟩ := h
          rw [Nat.zero_add]
          exact ⟨_, rfl, Covers.fresh _ hrate hallowed⟩
        | cons first seen =>
          obtain ⟨bucket, hpast, hcovers⟩ := h
          obtain ⟨hlast, hfull⟩ := hback hsees hbucket bucket hpast
          exact ⟨_, rfl, hcovers.again hrate hlast hfull hallowed⟩
  · rw [known_step_of_lookup (lookup_step (Ne.symm hkey))]
    simpa [hkey] using h

theorem account_run (limiter : TokenBucketLimiter) (hrate : 0 ≤ limiter.config.refillTokensPerSecond)
    (hback : limiter.ComesBackFull past calls)
    {key : RateLimitKey} (h : Account limiter.config spent seen (limiter.known past key)) :
    ∃ bucket, Account limiter.config (spent + TokenBucketLimiter.spent key limiter calls)
      (seen ++ TokenBucketLimiter.seen key limiter calls) bucket := by
  induction calls generalizing limiter past spent seen with
  | nil => exact ⟨_, by simpa [TokenBucketLimiter.spent, TokenBucketLimiter.seen] using h⟩
  | cons call calls ih =>
    have hstep := account_step hrate h hback.1
    rw [← config_step call] at hstep hrate
    obtain ⟨bucket, hend⟩ := ih (limiter.step call) hrate hback.2 hstep
    rw [config_step] at hend
    refine ⟨bucket, ?_⟩
    simpa [TokenBucketLimiter.spent, TokenBucketLimiter.seen, Nat.add_assoc] using hend

end Run

theorem new_eq {config : TokenBucketConfig} {limiter : TokenBucketLimiter} (h : new config = .ok limiter) :
    limiter = ⟨config, ∅⟩ ∧ 0 < config.refillTokensPerSecond := by
  unfold new TokenBucketConfig.validate at h
  split_ifs at h with hinvalid
  · cases h
  · obtain rfl := Except.ok.inj h
    exact ⟨rfl, not_le.mp fun hrate => hinvalid (.inr (.inl hrate))⟩

/-- A key gets no more than one full bucket and the refills for the time that it is seen, as long
as forgetting a key never fills its bucket. -/
theorem spent_le_refills (config : TokenBucketConfig) (limiter : TokenBucketLimiter) (calls : List BucketCheck)
    (hnew : new config = .ok limiter) (hback : limiter.ComesBackFull (fun _ => none) calls) (key : RateLimitKey) :
    (seen key limiter calls = [] → spent key limiter calls = 0) ∧
      ∀ first rest largest, seen key limiter calls = first :: rest → (∀ nowMs ∈ first :: rest, nowMs ≤ largest) →
        (spent key limiter calls : ℚ) ≤
          config.capacity + config.refillTokensPerSecond * ((largest.toInt - first.toInt) / 1000) := by
  obtain ⟨rfl, hrate⟩ := new_eq hnew
  have hstart : Account config 0 [] (TokenBucketLimiter.known ⟨config, ∅⟩ (fun _ => none) key) := ⟨rfl, rfl⟩
  obtain ⟨bucket, hend⟩ := account_run ⟨config, ∅⟩ hrate.le hback hstart
  rw [Nat.zero_add, List.nil_append] at hend
  refine ⟨?_, ?_⟩
  · intro hseen
    rw [hseen] at hend
    exact hend.2
  · intro first rest largest hseen hlargest
    rw [hseen] at hend
    obtain ⟨known, -, hcovers⟩ := hend
    have htokens := hcovers.tokens
    have hspent := hcovers.spent
    have hlast : (known.lastRefillMs.toInt : ℚ) ≤ largest.toInt := by
      exact_mod_cast Int64.le_iff_toInt_le.mp (hlargest _ hcovers.last)
    have htime : config.refillTokensPerSecond * ((known.lastRefillMs.toInt - first.toInt) / 1000) ≤
        config.refillTokensPerSecond * ((largest.toInt - first.toInt) / 1000) := by
      refine mul_le_mul_of_nonneg_left ?_ hrate.le
      linarith
    linarith [mul_comm config.refillTokensPerSecond ((known.lastRefillMs.toInt - first.toInt : ℚ) / 1000)]

private def smallConfig : TokenBucketConfig := ⟨1, 1, 1, 1⟩

private def firstIp : RateLimitKey := ⟨.ip, [1]⟩

private def secondIp : RateLimitKey := ⟨.ip, [2]⟩

private def alternating : List BucketCheck := [⟨firstIp, 1, 0⟩, ⟨secondIp, 1, 2⟩, ⟨firstIp, 1, 4⟩]

private def patient : List BucketCheck := [⟨firstIp, 1, 0⟩, ⟨secondIp, 1, 2⟩, ⟨firstIp, 1, 1000⟩]

theorem spent_of_patient_checks : (spent firstIp ⟨smallConfig, ∅⟩ patient : ℚ) ≤ 1 + 1 * ((1000 - 0) / 1000) := by
  have hback : ComesBackFull ⟨smallConfig, ∅⟩ (fun _ => none) patient := by
    refine ⟨?_, ?_, ?_, trivial⟩
    · intro _ _ bucket hpast
      cases hpast
    · intro _ _ bucket hpast
      have hnone : forgotten ⟨smallConfig, ∅⟩ ⟨firstIp, 1, 0⟩ (fun _ => none) secondIp = none := by decide +kernel
      rw [hnone] at hpast
      cases hpast
    · intro _ _ bucket hpast
      have hempty : forgotten (step ⟨smallConfig, ∅⟩ ⟨firstIp, 1, 0⟩) ⟨secondIp, 1, 2⟩
          (forgotten ⟨smallConfig, ∅⟩ ⟨firstIp, 1, 0⟩ fun _ => none) firstIp = some ⟨0, 0, 0⟩ := by decide +kernel
      obtain rfl := Option.some.inj (hempty.symm.trans hpast)
      exact ⟨by decide, by decide +kernel⟩
  have h := (spent_le_refills smallConfig ⟨smallConfig, ∅⟩ patient rfl hback firstIp).2 0 [1000] 1000
    (by decide +kernel) (List.forall_mem_cons.mpr ⟨by decide, List.forall_mem_singleton.mpr (by decide)⟩)
  have hfirst : (0 : Int64).toInt = 0 := by decide
  have hlast : (1000 : Int64).toInt = 1000 := by decide
  rw [hfirst, hlast] at h
  simpa [smallConfig] using h

/-- Two keys that take each other's place both start again with a full bucket. -/
theorem spent_exceeds_refills :
    ¬ ∀ config limiter calls key first rest largest, new config = .ok limiter →
      seen key limiter calls = first :: rest → (∀ nowMs ∈ first :: rest, nowMs ≤ largest) →
        (spent key limiter calls : ℚ) ≤
          config.capacity + config.refillTokensPerSecond * ((largest.toInt - first.toInt) / 1000) := by
  intro h
  have hspent : spent firstIp ⟨smallConfig, ∅⟩ alternating = 2 := by decide +kernel
  have hbound := h smallConfig ⟨smallConfig, ∅⟩ alternating firstIp 0 [4] 4 rfl (by decide +kernel)
    (List.forall_mem_cons.mpr ⟨by decide, List.forall_mem_singleton.mpr (by decide)⟩)
  have hfirst : (0 : Int64).toInt = 0 := by decide
  have hlast : (4 : Int64).toInt = 4 := by decide
  rw [hspent, hfirst, hlast] at hbound
  norm_num [smallConfig] at hbound

end TokenBucketLimiter
end Ffdb.RateLimits
