import Ffdb.Billing.Accounts
import Ffdb.Lib.Calendar
import Ffdb.Metrics.Metering

/-! Which period a request is metered in: the subscription of an entitled account as long as it lasts, the calendar
month in UTC otherwise. -/
namespace Ffdb.Metrics
open Fallible
open DatabaseWorker (Uuid)
open Billing (BillingAccount PlatformBillingTier)

variable {δ : Type} [DecidableEq δ] (hash : List UInt8 → δ)

section Period
variable (account : Option BillingAccount) (nowMs : Int)

def epochDays : Int := 719162

def isRepresentable (year : Int) : Bool := -262143 ≤ year && year ≤ 262142

def monthStartMs (year : Int) (month : Nat) : Int := (Calendar.monthStart year month - epochDays)*dayMs

def calendarMonth : Except MeteringError BillingPeriod := do
  let day := nowMs/dayMs + epochDays
  let year := Calendar.yearOf day
  let month := Calendar.monthOf day
  require (isRepresentable year) .unavailable
  let (nextYear, nextMonth) := if month = 11 then (year + 1, 0) else (year, month + 1)
  require (isRepresentable nextYear) .unavailable
  pure (.ofBounds (monthStartMs year month) (monthStartMs nextYear nextMonth))

def isEntitled : Bool := account.any fun row => row.status = .active || row.status = .trialing

/-- The period of the subscription, for an entitled account and a time that is in it. -/
def subscriptionPeriod : Option BillingPeriod := do
  let row ← account
  let startMs ← row.currentPeriodStartMs
  let endMs ← row.currentPeriodEndMs
  if isEntitled account && startMs ≤ nowMs && nowMs < endMs then some (.ofBounds startMs endMs) else none

def billingPeriod : Except MeteringError BillingPeriod :=
  match subscriptionPeriod account nowMs with
  | some period => pure period
  | none => calendarMonth nowMs

end Period

section Context

structure Allowances where
  storageBytes : Int
  monthlyReads : Int
  monthlyWrites : Int
  monthlyActiveUsers : Int

structure BillingSettings where
  catalog : PlatformBillingTier → Option Allowances
  billingEnforced : Bool
  billingExempt : Bool
  usageReportingHardCutoff : Bool

def positive (value : Int) : Except MeteringError Nat := do
  require (0 < value) .unavailable
  pure value.toNat

def effectiveTier (account : Option BillingAccount) : PlatformBillingTier :=
  if isEntitled account then ((account.map (·.tier)).getD .free) else .free

def billingContext (settings : BillingSettings) (account : Option BillingAccount) (nowMs : Int) :
    Except MeteringError BillingContext := do
  let period ← billingPeriod account nowMs
  let enforceAllowances := settings.billingEnforced && !settings.billingExempt
  let allowances ← orError (settings.catalog (effectiveTier account)) .unavailable
  let storageBytes ← positive allowances.storageBytes
  let monthlyReads ← positive allowances.monthlyReads
  let monthlyWrites ← positive allowances.monthlyWrites
  let monthlyActiveUsers ← positive allowances.monthlyActiveUsers
  pure {
    period := period
    storageBytes := storageBytes
    monthlyReads := monthlyReads
    monthlyWrites := monthlyWrites
    monthlyActiveUsers := monthlyActiveUsers
    enforceWrite := enforceAllowances && effectiveTier account = .free
    enforceStorage := enforceAllowances && effectiveTier account = .free
    reportingBlocked := account.isSome && settings.usageReportingHardCutoff && enforceAllowances }

end Context

section Registration
variable (organization : Organization) (context : BillingContext) (projectId : ProjectId) (reservationId : Uuid)
  (normalizedSubject : List Char) (nowMs : Int)

def registrationRequest (subjectHash : SubjectHash) : ReservationRequest where
  reservationId := uuidText reservationId
  projectId := projectId
  period := context.period
  createdAtMs := nowMs
  expiresAtMs := saturatingAdd nowMs reservationTtlMs
  readUnits := 0
  writeUnits := 0
  storageGrowthBytes := 0
  activeSubjectHash := some subjectHash

def registrationLimits : UsageLimits where
  readUnits := context.monthlyReads
  writeUnits := context.monthlyWrites
  monthlyActiveUsers := context.monthlyActiveUsers
  storageBytes := context.storageBytes
  enforceReadLimit := false
  enforceWriteLimit := false
  enforceMauLimit := context.enforceWrite
  enforceStorageLimit := false

def prepareRegistration (store : Store δ) : Except MeteringError (Store δ × PreparedUsage) := do
  let subjectHash ← (hashActiveSubject organization context.period normalizedSubject).mapError .store
  let (store, _) ← (reserve hash store (registrationRequest context projectId reservationId nowMs subjectHash)
    (registrationLimits context)).mapError .store
  pure (store, ⟨context.period, projectId, some (uuidText reservationId), some subjectHash, 0⟩)

def registrationEvent (prepared : PreparedUsage) (reservationId : List Char) : UsageEvent where
  eventId := reservationId
  projectId := prepared.projectId
  period := prepared.period
  occurredAtMs := prepared.period.clamp nowMs
  recordedAtMs := nowMs
  readUnits := 0
  writeUnits := 0
  activeSubjectHash := prepared.subjectHash
  storageSnapshots := []

def settleRegistration (prepared : PreparedUsage) (store : Store δ) :
    Except MeteringError (Store δ × IngestOutcome) := do
  let reservationId ← orError prepared.reservationId .unavailable
  (settleReservation hash store reservationId (registrationEvent nowMs prepared reservationId)).mapError .store

end Registration

def recordObjectStorage (organization : Organization) (context : BillingContext) (projectId : ProjectId)
    (eventId : Uuid) (subject : List Char) (currentBytes : Nat) (nowMs : Int) (store : Store δ) :
    Except MeteringError (Store δ × IngestOutcome) := do
  let subjectHash ← (hashActiveSubject organization context.period subject).mapError .store
  (recordEvent hash store (objectEvent projectId ("storage:".toList ++ uuidText eventId) context.period subjectHash
    currentBytes nowMs)).mapError .store

section Contains
variable {account : Option BillingAccount} {nowMs : Int} {period : BillingPeriod}

theorem calendarMonth_contains (h : calendarMonth nowMs = .ok period) :
    period = .ofBounds period.startMs period.endMs ∧ period.startMs ≤ nowMs ∧ nowMs < period.endMs := by
  obtain ⟨-, hstart, hend⟩ := Calendar.monthOf_spec (nowMs/dayMs + epochDays)
  have hbounds : monthStartMs (Calendar.yearOf (nowMs/dayMs + epochDays)) (Calendar.monthOf (nowMs/dayMs + epochDays)) ≤
        nowMs ∧ nowMs < monthStartMs (Calendar.yearOf (nowMs/dayMs + epochDays))
          (Calendar.monthOf (nowMs/dayMs + epochDays) + 1) := by
    unfold monthStartMs dayMs hourMs at *
    omega
  simp only [calendarMonth, bind_ok_iff] at h
  obtain ⟨_, -, _, -, hperiod⟩ := h
  obtain rfl := (pure_ok_iff _ _).mp hperiod
  refine ⟨rfl, hbounds.1, ?_⟩
  by_cases hlast : Calendar.monthOf (nowMs/dayMs + epochDays) = 11
  · rw [if_pos hlast]
    rw [hlast] at hbounds
    have hnext := hbounds.2
    rw [monthStartMs, Calendar.monthStart_twelve] at hnext
    exact hnext
  · rw [if_neg hlast]
    exact hbounds.2

/-- A request is metered in a period that it falls into. -/
theorem billingPeriod_contains (h : billingPeriod account nowMs = .ok period) :
    period = .ofBounds period.startMs period.endMs ∧ period.startMs ≤ nowMs ∧ nowMs < period.endMs := by
  unfold billingPeriod at h
  cases hsubscription : subscriptionPeriod account nowMs with
  | none =>
    rw [hsubscription] at h
    exact calendarMonth_contains h
  | some subscribed =>
    rw [hsubscription] at h
    obtain rfl := (pure_ok_iff _ _).mp h
    simp only [subscriptionPeriod, Option.bind_eq_bind, Option.bind_eq_some_iff] at hsubscription
    obtain ⟨row, -, startMs, -, endMs, -, hcovers⟩ := hsubscription
    split at hcovers
    · rename_i hinside
      simp only [Bool.and_eq_true, decide_eq_true_eq] at hinside
      obtain rfl := Option.some.inj hcovers
      exact ⟨rfl, hinside.1.2, hinside.2⟩
    · cases hcovers

theorem billingContext_period {settings : BillingSettings} {context : BillingContext}
    (h : billingContext settings account nowMs = .ok context) : billingPeriod account nowMs = .ok context.period := by
  simp only [billingContext, bind_ok_iff, pure_ok_iff] at h
  obtain ⟨_, hperiod, _, -, _, -, _, -, _, -, _, -, rfl⟩ := h
  exact hperiod

end Contains

end Ffdb.Metrics
