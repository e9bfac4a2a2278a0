import Ffdb.Lib.Keyed
import Ffdb.Lib.Saturating

/-! Quotas over fixed windows. One entry a key remembers the window of the key's last call, so what
was consumed in a window is known only as long as no later window takes its place. -/
namespace Ffdb.RateLimits

inductive RateDimension where
  | ip
  | authProject
  | authUser
  | authApiKey
  | project
  | user
  | apiKey
  deriving DecidableEq

structure RateLimitKey where
  dimension : RateDimension
  digest : List UInt8
  deriving DecidableEq

inductive RateLimitError where
  | invalidConfiguration
  | invalidCost
  | saturated
  | unavailable
  deriving DecidableEq

structure QuotaConfig where
  limit : Nat
  windowMs : Int
  maxEntries : Nat

inductive QuotaDecision where
  | allowed (remaining : Nat) (resetAtMs : Int)
  | denied (resetAtMs : Int)
  deriving DecidableEq

structure QuotaState where
  windowStartMs : Int
  consumed : Nat
  deriving DecidableEq

structure FixedWindowQuota where
  config : QuotaConfig
  limit_ne_zero : config.limit ≠ 0
  window_pos : 0 < config.windowMs
  maxEntries_ne_zero : config.maxEntries ≠ 0
  entries : Table RateLimitKey QuotaState := ∅

structure QuotaCall where
  key : RateLimitKey
  units : Nat
  nowMs : Int

def i64Max : Int := 2^63-1

namespace FixedWindowQuota

def new (config : QuotaConfig) : Except RateLimitError FixedWindowQuota :=
  if h : config.limit = 0 ∨ config.windowMs ≤ 0 ∨ config.maxEntries = 0 then .error .invalidConfiguration
  else .ok
    { config
      limit_ne_zero := fun hlimit => h (.inl hlimit)
      window_pos := not_le.mp fun hwindow => h (.inr (.inl hwindow))
      maxEntries_ne_zero := fun hentries => h (.inr (.inr hentries)) }

variable (quota : FixedWindowQuota)

def windowStart (nowMs : Int) : Int := nowMs - nowMs % quota.config.windowMs

/-- The call passes the checks that are made before the lock is taken. -/
def isValid (call : QuotaCall) : Bool :=
  !(call.units = 0 || quota.config.limit < call.units || call.nowMs < 0) &&
    quota.windowStart call.nowMs + quota.config.windowMs ≤ i64Max

def evicts (key : RateLimitKey) : Bool :=
  (quota.entries.lookup key).isNone && quota.config.maxEntries ≤ quota.entries.size

/-- The entries, after those of earlier windows went if there was no room. -/
def swept (call : QuotaCall) : Table RateLimitKey QuotaState :=
  if quota.evicts call.key then
    quota.entries.retain fun _ entry => quota.windowStart call.nowMs ≤ entry.windowStartMs
  else quota.entries

def entryOf (call : QuotaCall) : QuotaState :=
  match (quota.swept call).lookup call.key with
  | some entry =>
    if entry.windowStartMs ≠ quota.windowStart call.nowMs then ⟨quota.windowStart call.nowMs, 0⟩ else entry
  | none => ⟨quota.windowStart call.nowMs, 0⟩

def consume (call : QuotaCall) : FixedWindowQuota × Except RateLimitError QuotaDecision :=
  if !quota.isValid call then (quota, .error .invalidCost)
  else
    let entries := quota.swept call
    if quota.evicts call.key && quota.config.maxEntries ≤ entries.size then
      ({ quota with entries }, .error .saturated)
    else
      let entry := quota.entryOf call
      let resetAtMs := quota.windowStart call.nowMs + quota.config.windowMs
      let next := entry.consumed + call.units
      if Saturating.u64Max < next then
        ({ quota with entries := entries.insert call.key entry }, .error .invalidCost)
      else if quota.config.limit < next then
        ({ quota with entries := entries.insert call.key entry }, .ok (.denied resetAtMs))
      else
        ({ quota with entries := entries.insert call.key { entry with consumed := next } },
          .ok (.allowed (quota.config.limit - next) resetAtMs))

def step (call : QuotaCall) : FixedWindowQuota := (quota.consume call).1

def allowed (call : QuotaCall) : Nat :=
  match (quota.consume call).2 with
  | .ok (.allowed ..) => call.units
  | _ => 0

def spent (key : RateLimitKey) (window : Int) : FixedWindowQuota → List QuotaCall → Nat
  | _, [] => 0
  | quota, call :: calls =>
    (if call.key = key ∧ quota.windowStart call.nowMs = window then quota.allowed call else 0) +
      spent key window (quota.step call) calls

/-- A valid call in an earlier window comes after another one, for the same key or for one that the
other call made room at the cost of. -/
def reopens (call later : QuotaCall) : Bool :=
  quota.isValid call && quota.isValid later &&
    quota.windowStart later.nowMs < quota.windowStart call.nowMs &&
    (later.key = call.key || (quota.evicts call.key && (quota.entries.lookup later.key).isSome))

def InOrder : FixedWindowQuota → List QuotaCall → Prop
  | _, [] => True
  | quota, call :: calls =>
    (∀ later ∈ calls, quota.reopens call later = false) ∧ (quota.step call).InOrder calls

section Step
variable {quota : FixedWindowQuota} {call : QuotaCall}

theorem step_of_not_isValid (h : quota.isValid call = false) :
    quota.step call = quota ∧ quota.allowed call = 0 := by
  simp [step, allowed, consume, h]

/-- A call leaves the other keys as the sweep left them, and the configuration as it is. -/
theorem lookup_step {key : RateLimitKey} (hvalid : quota.isValid call = true) (hkey : key ≠ call.key) :
    (quota.step call).entries.lookup key = (quota.swept call).lookup key := by
  simp only [step, consume, hvalid, Bool.not_true, Bool.false_eq_true, if_false]
  split_ifs
  · rfl
  all_goals exact AList.lookup_insert_ne hkey

theorem config_step : (quota.step call).config = quota.config := by
  simp only [step, consume]
  split_ifs <;> rfl

theorem windowStart_step (nowMs : Int) : (quota.step call).windowStart nowMs = quota.windowStart nowMs := by
  unfold windowStart
  rw [config_step]

theorem isValid_step (later : QuotaCall) : (quota.step call).isValid later = quota.isValid later := by
  unfold isValid
  rw [windowStart_step, config_step]

/-- The key's own entry: it is of the window of the call, and has the units that were allowed. -/
theorem lookup_step_self (hvalid : quota.isValid call = true) :
    (quota.step call).entries.lookup call.key = none ∧ quota.entries.lookup call.key = none ∧
        quota.allowed call = 0 ∨
      (quota.step call).entries.lookup call.key =
          some ⟨quota.windowStart call.nowMs, (quota.entryOf call).consumed + quota.allowed call⟩ ∧
        (quota.allowed call = 0 ∨ (quota.entryOf call).consumed + quota.allowed call ≤ quota.config.limit) := by
  have hwindow : (quota.entryOf call).windowStartMs = quota.windowStart call.nowMs := by
    unfold entryOf
    split
    · split_ifs with hother
      · rfl
      · exact not_not.mp hother
    · rfl
  have hentry : quota.entryOf call = ⟨quota.windowStart call.nowMs, (quota.entryOf call).consumed⟩ := by
    rw [← hwindow]
  simp only [step, allowed, consume, hvalid, Bool.not_true, Bool.false_eq_true, if_false]
  split_ifs with hfull hoverflow hlimit
  · left
    obtain ⟨hevicts, -⟩ := Bool.and_eq_true_iff.mp hfull
    have hnone : quota.entries.lookup call.key = none :=
      Option.isNone_iff_eq_none.mp (Bool.and_eq_true_iff.mp hevicts).1
    refine ⟨?_, hnone, rfl⟩
    rw [swept, if_pos hevicts, AList.lookup_retain, hnone]
    rfl
  · right
    refine ⟨?_, .inl rfl⟩
    rw [AList.lookup_insert]
    exact congrArg some hentry
  · right
    refine ⟨?_, .inl rfl⟩
    rw [AList.lookup_insert]
    exact congrArg some hentry
  · right
    refine ⟨?_, .inr (not_lt.mp hlimit)⟩
    rw [AList.lookup_insert, hwindow]

end Step

/-- What is remembered of the keys that calls to come are for: their windows are not over, and what
was consumed in them is what was allowed. -/
def Remembers (quota : FixedWindowQuota) (past : RateLimitKey → Int → Nat) (calls : List QuotaCall) : Prop :=
  ∀ later ∈ calls, quota.isValid later = true → match quota.entries.lookup later.key with
    | some entry => entry.windowStartMs ≤ quota.windowStart later.nowMs ∧
        past later.key (quota.windowStart later.nowMs) =
          if entry.windowStartMs = quota.windowStart later.nowMs then entry.consumed else 0
    | none => past later.key (quota.windowStart later.nowMs) = 0

def withCall (quota : FixedWindowQuota) (past : RateLimitKey → Int → Nat) (call : QuotaCall) :
    RateLimitKey → Int → Nat :=
  fun key window =>
    past key window + if call.key = key ∧ quota.windowStart call.nowMs = window then quota.allowed call else 0

section Run
variable {quota : FixedWindowQuota} {past : RateLimitKey → Int → Nat} {call : QuotaCall} {calls : List QuotaCall}

/-- The entry that a call finds has what was consumed in its window. -/
theorem Remembers.entryOf (h : quota.Remembers past (call :: calls)) (hvalid : quota.isValid call = true) :
    past call.key (quota.windowStart call.nowMs) = (quota.entryOf call).consumed := by
  have hcall := h call List.mem_cons_self hvalid
  cases hlookup : quota.entries.lookup call.key with
  | none =>
    rw [hlookup] at hcall
    have hswept : (quota.swept call).lookup call.key = none := by
      unfold swept
      split_ifs
      · rw [AList.lookup_retain, hlookup]
        rfl
      · exact hlookup
    rw [hcall, FixedWindowQuota.entryOf, hswept]
  | some entry =>
    rw [hlookup] at hcall
    have hswept : (quota.swept call).lookup call.key = some entry := by
      rw [swept, if_neg (by simp [evicts, hlookup]), hlookup]
    rw [hcall.2, FixedWindowQuota.entryOf, hswept]
    by_cases hsame : entry.windowStartMs = quota.windowStart call.nowMs
    · simp [hsame]
    · simp [hsame]

/-- No window gets more than the limit in a step. -/
theorem Remembers.withCall_le (h : quota.Remembers past (call :: calls))
    (hpast : ∀ key window, past key window ≤ quota.config.limit) (key : RateLimitKey) (window : Int) :
    quota.withCall past call key window ≤ quota.config.limit := by
  unfold withCall
  split_ifs with hsame
  · obtain ⟨rfl, rfl⟩ := hsame
    cases hvalid : quota.isValid call with
    | false =>
      rw [(step_of_not_isValid hvalid).2]
      exact hpast _ _
    | true =>
      obtain ⟨-, -, hzero⟩ | ⟨-, hzero | hlimit⟩ := lookup_step_self hvalid
      · rw [hzero]
        exact hpast _ _
      · rw [hzero]
        exact hpast _ _
      · rw [h.entryOf hvalid]
        exact hlimit
  · exact hpast _ _

theorem Remembers.step (h : quota.Remembers past (call :: calls))
    (horder : ∀ later ∈ calls, quota.reopens call later = false) :
    (quota.step call).Remembers (quota.withCall past call) calls := by
  intro later hlater hlaterValid
  rw [isValid_step] at hlaterValid
  have hbefore := h later (List.mem_cons_of_mem _ hlater) hlaterValid
  cases hvalid : quota.isValid call with
  | false =>
    obtain ⟨hstep, hzero⟩ := step_of_not_isValid hvalid
    simpa [hstep, withCall, hzero] using hbefore
  | true =>
    have hclosed := horder later hlater
    rw [windowStart_step]
    by_cases hkey : later.key = call.key
    · -- the window of the call is not later than that of a call to come for the same key
      have hle : quota.windowStart call.nowMs ≤ quota.windowStart later.nowMs := by
        by_contra hlt
        simp [reopens, hvalid, hlaterValid, hkey, not_le.mp hlt] at hclosed
      have hcall := h call List.mem_cons_self hvalid
      rw [hkey] at hbefore ⊢
      obtain ⟨hafter, hnone, hzero⟩ | ⟨hafter, -⟩ := lookup_step_self hvalid
      · rw [hafter]
        rw [hnone] at hbefore
        simp [withCall, hzero, hbefore]
      · rw [hafter]
        refine ⟨hle, ?_⟩
        by_cases hsame : quota.windowStart call.nowMs = quota.windowStart later.nowMs
        · simp [withCall, hsame, ← h.entryOf hvalid]
        · have hlt := lt_of_le_of_ne hle hsame
          have hunspent : past call.key (quota.windowStart later.nowMs) = 0 := by
            cases hlookup : quota.entries.lookup call.key with
            | none => simpa [hlookup] using hbefore
            | some entry =>
              rw [hlookup] at hbefore hcall
              rw [hbefore.2, if_neg (lt_of_le_of_lt hcall.1 hlt).ne]
          simp [withCall, hsame, hunspent]
    · have hpast : quota.withCall past call later.key = past later.key := by
        funext window
        simp [withCall, Ne.symm hkey]
      rw [hpast, lookup_step hvalid hkey, swept]
      split_ifs with hevicts
      · rw [AList.lookup_retain]
        cases hlookup : quota.entries.lookup later.key with
        | none => simpa [hlookup] using hbefore
        | some entry =>
          rw [hlookup] at hbefore
          by_cases hkept : quota.windowStart call.nowMs ≤ entry.windowStartMs
          · simpa [Option.filter, hkept] using hbefore
          · have hle : quota.windowStart call.nowMs ≤ quota.windowStart later.nowMs := by
              by_contra hlt
              simp [reopens, hvalid, hlaterValid, hevicts, hlookup, not_le.mp hlt] at hclosed
            have hlt := lt_of_lt_of_le (not_le.mp hkept) hle
            simp [Option.filter, hkept, hbefore.2, hlt.ne]
      · exact hbefore

theorem spent_le_of_remembers (h : quota.Remembers past calls)
    (hpast : ∀ key window, past key window ≤ quota.config.limit) (horder : quota.InOrder calls)
    (key : RateLimitKey) (window : Int) :
    past key window + spent key window quota calls ≤ quota.config.limit := by
  induction calls generalizing quota past with
  | nil => exact hpast key window
  | cons call calls ih =>
    have hrest := ih (h.step horder.1) (fun key window => by
      rw [config_step]
      exact h.withCall_le hpast key window) horder.2
    rw [config_step] at hrest
    simpa [spent, withCall, Nat.add_assoc] using hrest

end Run

theorem new_eq {config : QuotaConfig} {quota : FixedWindowQuota} (h : new config = .ok quota) :
    quota.config = config ∧ quota.entries = ∅ := by
  unfold new at h
  split_ifs at h
  obtain rfl := Except.ok.inj h
  exact ⟨rfl, rfl⟩

/-- The calls of a window are together allowed no more than the limit, as long as no call comes in
a window that another one has closed. -/
theorem spent_le_limit (config : QuotaConfig) (quota : FixedWindowQuota) (calls : List QuotaCall)
    (hnew : new config = .ok quota) (horder : quota.InOrder calls) (key : RateLimitKey) (window : Int) :
    spent key window quota calls ≤ config.limit := by
  obtain ⟨hconfig, hempty⟩ := new_eq hnew
  have hremembers : quota.Remembers (fun _ _ => 0) calls := by
    intro later _ _
    rw [hempty]
    rfl
  have h := spent_le_of_remembers hremembers (fun _ _ => Nat.zero_le _) horder key window
  rwa [Nat.zero_add, hconfig] at h

private def tightConfig : QuotaConfig := ⟨5, 1000, 8⟩

private def tightQuota : FixedWindowQuota := ⟨tightConfig, by decide, by decide, by decide, ∅⟩

private def someProject : RateLimitKey := ⟨.project, []⟩

theorem spent_of_ordered_calls :
    spent someProject 0 tightQuota [⟨someProject, 5, 100⟩, ⟨someProject, 1, 101⟩, ⟨someProject, 1, 1000⟩,
      ⟨someProject, 6, 999⟩] ≤ 5 := by
  refine spent_le_limit tightConfig tightQuota _ rfl ?_ someProject 0
  refine ⟨?_, ?_, ?_, ?_, trivial⟩ <;> decide

/-- A call that read the clock before another one and gets the lock after it. -/
theorem spent_exceeds_limit :
    ¬ ∀ config quota calls, new config = .ok quota → (∀ call ∈ calls, 0 ≤ call.nowMs) →
      ∀ key window, spent key window quota calls ≤ config.limit := by
  intro h
  have hspent := h tightConfig tightQuota [⟨someProject, 5, 999⟩, ⟨someProject, 1, 1000⟩, ⟨someProject, 5, 999⟩]
    rfl (by decide) someProject 0
  exact absurd hspent (by decide)

end FixedWindowQuota
end Ffdb.RateLimits
