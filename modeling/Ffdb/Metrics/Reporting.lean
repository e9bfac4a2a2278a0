import Ffdb.Lib.Act
import Ffdb.Metrics.Claims
import Ffdb.Metrics.Outbox
import Ffdb.Metrics.Closing
import Ffdb.Metrics.Summary

/-! Reporting of usage to the billing provider: what a cycle enqueues for a period, and when the provider counts it. -/
namespace Ffdb.Metrics
open Fallible
open DatabaseWorker (Uuid)
open Sha256 (bytesOf)

inductive ReportingCycleError where
  | invalidConfiguration
  | invalidCatalog
  | metricsUnavailable
  | inconsistentTotals
  deriving DecidableEq

def mapMetricsError : MetricsError → ReportingCycleError
  | .hashConflict | .reservationMismatch => .inconsistentTotals
  | .invalidInput => .invalidConfiguration
  | .periodSealed | .limitExceeded _ | .reservationNotFound | .staleLease | .reconciliationPending | .unavailable =>
    .metricsUnavailable

inductive UsageMetric where
  | reads
  | writes
  | storageByteHours
  | monthlyActiveUsers
  deriving DecidableEq

def UsageMetric.name : UsageMetric → String
  | .reads => "reads"
  | .writes => "writes"
  | .storageByteHours => "storage_byte_hours"
  | .monthlyActiveUsers => "monthly_active_users"

abbrev UsageCatalog := UsageMetric → Option (List Char)

structure PaidBillingPeriod where
  organizationId : Uuid
  customerId : List Char
  period : BillingPeriod

def storageBillingUnitBytes : Nat := 1000

/-- How far the usage of a period can be reported: to its end, or to the last full hour. -/
def reportableThrough (period : BillingPeriod) (nowMs lagMs : Int) : Option Int :=
  let stableMs := nowMs - lagMs
  if -2^63 ≤ stableMs ∧ stableMs ≤ i64Max then
    let throughMs := if period.endMs ≤ stableMs then period.endMs else stableMs - stableMs % hourMs
    if period.startMs < throughMs then some throughMs else none
  else none

def metricTotals (summary : UsageSummary) : Except ReportingCycleError (List (UsageMetric × UsageDimension × Nat)) := do
  let byteHours := summary.storageByteMilliseconds / hourMs.toNat
  require (byteHours ≤ u64Max) .inconsistentTotals
  pure [(.reads, .readUnits, summary.readUnits), (.writes, .writeUnits, summary.writeUnits),
    (.storageByteHours, .storageByteMilliseconds, byteHours / storageBillingUnitBytes),
    (.monthlyActiveUsers, .monthlyActiveUsers, summary.monthlyActiveUsers)]

def stableReportIdentifier (organizationId : Uuid) (period : BillingPeriod) (metric : UsageMetric)
    (cumulativeQuantity : Nat) (throughMs : Int) : List Char :=
  "ffdb_".toList ++ Text.hex (Sha256.digest (Text.utf8 "ffdb.stripe.usage-report.v1".toList ++ [0] ++
    bytesOf 16 organizationId.toNat ++ timeBytes period.startMs ++ timeBytes period.endMs ++
    Text.utf8 metric.name.toList ++ countBytes cumulativeQuantity ++ timeBytes throughMs))

variable {δ : Type} [DecidableEq δ] (hash : List UInt8 → δ)

def reportingProgress (store : Store δ) (period : BillingPeriod) (dimension : UsageDimension) :
    Except MetricsError Nat := do
  require period.Valid .invalidInput
  readSum (store.outbox.total fun _ row =>
    if row.periodStartMs = period.startMs ∧ row.periodEndMs = period.endMs ∧ row.dimension = dimension then row.quantity
    else 0)

def periodStatus (store : Store δ) (period : BillingPeriod) : Except MetricsError (Store δ × PeriodStatus) := do
  let store ← ensurePeriod store period
  let row ← orError (store.periods.lookup period.startMs) .unavailable
  pure (store, row.status)

structure Cycle (δ : Type) where
  store : Store δ
  enqueued : List ReportRequest

namespace Cycle

def call {α : Type} (act : Store δ → Except MetricsError (Store δ × α)) : Act (Cycle δ) ReportingCycleError α :=
  fun cycle =>
    match act cycle.store with
    | .error error => (.error (mapMetricsError error), cycle)
    | .ok (store, a) => (.ok a, { cycle with store })

def enqueue (report : ReportRequest) : Act (Cycle δ) ReportingCycleError Unit := do
  let outcome ← call (enqueueReport hash · report)
  match outcome with
  | .inserted => Act.modify fun cycle => { cycle with enqueued := cycle.enqueued ++ [report] }
  | .duplicate => pure ()

end Cycle

section Process
variable (paid : PaidBillingPeriod) (catalog : UsageCatalog) (nowMs lagMs : Int)

def reportOf (throughMs : Int) (metric : UsageMetric) (dimension : UsageDimension) (total delta : Nat)
    (eventName : List Char) : ReportRequest where
  identifier := stableReportIdentifier paid.organizationId paid.period metric total throughMs
  eventName := eventName
  customerId := paid.customerId
  period := paid.period
  dimension := dimension
  windowStartMs := paid.period.startMs
  windowEndMs := throughMs
  quantity := delta
  providerTimestampMs := throughMs
  nowMs := nowMs

def enqueueDelta (throughMs : Int) (metric : UsageMetric) (dimension : UsageDimension) (total delta : Nat) :
    Act (Cycle δ) ReportingCycleError Unit :=
  if delta = 0 then pure ()
  else do
    let eventName ← Act.given (orError (catalog metric) .invalidCatalog)
    Cycle.enqueue hash (reportOf paid nowMs throughMs metric dimension total delta eventName)

def enqueueTotal (throughMs : Int) (entry : UsageMetric × UsageDimension × Nat) :
    Act (Cycle δ) ReportingCycleError Unit := do
  let (metric, dimension, total) := entry
  let progress ← Act.ask fun cycle => (reportingProgress cycle.store paid.period dimension).mapError mapMetricsError
  Act.given (require (progress ≤ total) .inconsistentTotals)
  enqueueDelta hash paid catalog nowMs throughMs metric dimension total (total - progress)

def enqueueTotals (throughMs : Int) : List (UsageMetric × UsageDimension × Nat) → Act (Cycle δ) ReportingCycleError Unit
  | [] => pure ()
  | entry :: rest => do
    enqueueTotal hash paid catalog nowMs throughMs entry
    enqueueTotals throughMs rest

def enqueueThrough (throughMs : Int) : Act (Cycle δ) ReportingCycleError Unit := do
  let summary ← Act.ask fun cycle => (summaryThrough cycle.store paid.period throughMs).mapError mapMetricsError
  let totals ← Act.given (metricTotals summary)
  enqueueTotals hash paid catalog nowMs throughMs totals

/-- A period that nothing is left to do for, or whose usage is reported as far as it can be. -/
def enqueueReportable (status : PeriodStatus) : Act (Cycle δ) ReportingCycleError Unit :=
  if status = .finalized then pure ()
  else
    match reportableThrough paid.period nowMs lagMs with
    | none => pure ()
    | some throughMs => enqueueThrough hash paid catalog nowMs throughMs

def sealIfDue (status : PeriodStatus) : Act (Cycle δ) ReportingCycleError PeriodStatus :=
  if !status.isShut && paid.period.cutoffMs ≤ nowMs then do
    Cycle.call fun store => (sealPeriod store paid.period nowMs).map (·, ())
    pure .sealed
  else pure status

def processPeriod : Act (Cycle δ) ReportingCycleError Unit := do
  let status ← Cycle.call (periodStatus · paid.period)
  let status ← sealIfDue paid nowMs status
  enqueueReportable hash paid catalog nowMs lagMs status

end Process

section Stamps
variable {hash} {paid : PaidBillingPeriod} {catalog : UsageCatalog} {nowMs lagMs : Int}

def IsReport (paid : PaidBillingPeriod) (nowMs lagMs : Int) (report : ReportRequest) : Prop :=
  report.period = paid.period ∧ reportableThrough paid.period nowMs lagMs = some report.providerTimestampMs

def OnlyReports (paid : PaidBillingPeriod) (nowMs lagMs : Int) (cycle : Cycle δ) : Prop :=
  ∀ report ∈ cycle.enqueued, IsReport paid nowMs lagMs report

omit [DecidableEq δ] in
theorem call_keeps {α : Type} (act : Store δ → Except MetricsError (Store δ × α)) :
    Act.Preserves (OnlyReports paid nowMs lagMs) (Cycle.call act) := by
  intro cycle hcycle
  unfold Cycle.call
  cases act cycle.store with
  | error _ => exact hcycle
  | ok _ => exact hcycle

theorem enqueue_keeps {throughMs : Int} (h : reportableThrough paid.period nowMs lagMs = some throughMs)
    (metric : UsageMetric) (dimension : UsageDimension) (total delta : Nat) (eventName : List Char) :
    Act.Preserves (OnlyReports paid nowMs lagMs)
      (Cycle.enqueue hash (reportOf paid nowMs throughMs metric dimension total delta eventName)) := by
  let report := reportOf paid nowMs throughMs metric dimension total delta eventName
  intro cycle hcycle
  cases henqueue : enqueueReport hash cycle.store report with
  | error error =>
    have hcall : Cycle.call (enqueueReport hash · report) cycle = (.error (mapMetricsError error), cycle) := by
      simp only [Cycle.call, report, henqueue]
    rw [Cycle.enqueue, Act.bind_error hcall]
    exact hcycle
  | ok result =>
    obtain ⟨store, outcome⟩ := result
    have hcall : Cycle.call (enqueueReport hash · report) cycle = (.ok outcome, { cycle with store }) := by
      simp only [Cycle.call, report, henqueue]
    rw [Cycle.enqueue, Act.bind_ok hcall]
    cases outcome with
    | duplicate => exact hcycle
    | inserted =>
      intro other hother
      obtain hother | hother := List.mem_append.mp hother
      · exact hcycle other hother
      · obtain rfl := List.mem_singleton.mp hother
        exact ⟨rfl, h⟩

theorem enqueueTotals_keeps {throughMs : Int} (h : reportableThrough paid.period nowMs lagMs = some throughMs)
    (totals : List (UsageMetric × UsageDimension × Nat)) :
    Act.Preserves (OnlyReports paid nowMs lagMs) (enqueueTotals hash paid catalog nowMs throughMs totals) := by
  induction totals with
  | nil => exact .pure
  | cons entry rest ih =>
    refine .bind (.bind .ask fun progress => .bind .given fun _ => ?_) fun _ => ih
    unfold enqueueDelta
    split
    · exact .pure
    · exact .bind .given fun eventName => enqueue_keeps h _ _ _ _ eventName

/-- What a cycle enqueues for a period are reports of it. -/
theorem processPeriod_keeps :
    Act.Preserves (OnlyReports paid nowMs lagMs) (processPeriod hash paid catalog nowMs lagMs) := by
  refine .bind (call_keeps _) fun status => .bind ?_ fun status => ?_
  · unfold sealIfDue
    split
    · exact .bind (call_keeps _) fun _ => .pure
    · exact .pure
  · unfold enqueueReportable
    split
    · exact .pure
    · split
      · exact .pure
      · rename_i throughMs hthrough
        exact .bind .ask fun summary => .bind .given fun totals => enqueueTotals_keeps hthrough totals

end Stamps

section Windows

def sentSeconds (report : ReportRequest) : Int := report.providerTimestampMs / 1000

inductive WindowEnd where
  | inclusive
  | exclusive

def WindowEnd.Counts (ends : WindowEnd) (period : BillingPeriod) (sent : Int) : Prop :=
  period.startMs / 1000 ≤ sent ∧
    match ends with
    | .inclusive => sent ≤ period.endMs / 1000
    | .exclusive => sent < period.endMs / 1000

def BillingPeriod.Apart (a b : BillingPeriod) : Prop := a.endMs ≤ b.startMs ∨ b.endMs ≤ a.startMs

/-- An event lies in a period, and is counted to it and to no period before or after it. -/
structure BillingPeriod.Owns (period : BillingPeriod) (sent : Int) : Prop where
  inside : period.startMs ≤ sent*1000 ∧ sent*1000 < period.endMs
  counted : ∀ ends : WindowEnd, ends.Counts period sent
  alone : ∀ (ends : WindowEnd) (other : BillingPeriod), period.Apart other → ¬ ends.Counts other sent

def ReportedInTime (period : BillingPeriod) (stableMs : Int) : Prop :=
  stableMs < period.endMs ∧ stableMs - stableMs % hourMs < period.endMs / 1000 * 1000

variable {period : BillingPeriod} {stableMs : Int}

theorem owns_of_full_second {throughMs : Int} (hstart : period.startMs < throughMs)
    (hend : throughMs < period.endMs / 1000 * 1000) (hsecond : throughMs % 1000 = 0) :
    period.Owns (throughMs / 1000) where
  inside := by omega
  counted ends := by
    cases ends with
    | inclusive => exact ⟨by omega, by omega⟩
    | exclusive => exact ⟨by omega, by omega⟩
  alone ends other hapart hcounts := by
    have hafter : other.startMs / 1000 ≤ throughMs / 1000 := hcounts.1
    have hbefore : throughMs / 1000 ≤ other.endMs / 1000 := by
      cases ends with
      | inclusive => exact hcounts.2
      | exclusive => exact le_of_lt hcounts.2
    obtain hnext | hprevious := hapart
    · omega
    · omega

theorem not_owns_of_end {throughMs : Int} (hend : period.endMs / 1000 * 1000 ≤ throughMs) :
    ¬ period.Owns (throughMs / 1000) := by
  intro howns
  have hcounted : throughMs / 1000 < period.endMs / 1000 := (howns.counted .exclusive).2
  omega

theorem reportableThrough_eq {throughMs lagMs nowMs : Int} (h : reportableThrough period nowMs lagMs = some throughMs) :
    period.startMs < throughMs ∧ throughMs =
      if period.endMs ≤ nowMs - lagMs then period.endMs else nowMs - lagMs - (nowMs - lagMs) % hourMs := by
  simp only [reportableThrough, Option.ite_none_right_eq_some, Option.some.injEq] at h
  obtain ⟨-, hstart, rfl⟩ := h
  exact ⟨hstart, rfl⟩

theorem owns_iff {throughMs lagMs nowMs : Int} (h : reportableThrough period nowMs lagMs = some throughMs) :
    period.Owns (throughMs / 1000) ↔ ReportedInTime period (nowMs - lagMs) := by
  obtain ⟨hstart, hthrough⟩ := reportableThrough_eq h
  by_cases hclosed : period.endMs ≤ nowMs - lagMs
  · rw [if_pos hclosed] at hthrough
    have hlate : ¬ ReportedInTime period (nowMs - lagMs) := fun hin => absurd hin.1 (not_lt.mpr hclosed)
    exact iff_of_false (not_owns_of_end (by omega)) hlate
  · rw [if_neg hclosed] at hthrough
    have hsecond : throughMs % 1000 = 0 := by
      unfold hourMs at hthrough
      omega
    constructor
    · intro howns
      refine ⟨not_le.mp hclosed, not_le.mp fun hend => ?_⟩
      rw [← hthrough] at hend
      exact not_owns_of_end hend howns
    · intro hin
      exact owns_of_full_second hstart (hthrough ▸ hin.2) hsecond

def samplePaid : PaidBillingPeriod := ⟨1, "cus_1".toList, samplePeriod⟩

def sampleStore : Store (List UInt8) := (Machine.run (step id) {} [.record (sampleEvent 'a' 1 1500 80000)]).store

def sampleCatalog : UsageCatalog := fun metric => some metric.name.toList

/-- What a cycle enqueues for a period is counted to that period alone exactly while the period is running. -/
theorem reports_owned {δ : Type} [DecidableEq δ] (hash : List UInt8 → δ) (paid : PaidBillingPeriod)
    (catalog : UsageCatalog) (nowMs lagMs : Int) (store : Store δ) :
    ∀ report ∈ (processPeriod hash paid catalog nowMs lagMs ⟨store, []⟩).2.enqueued,
      report.period = paid.period ∧
        (paid.period.Owns (sentSeconds report) ↔ ReportedInTime paid.period (nowMs - lagMs)) := by
  intro report hreport
  have hnone : OnlyReports paid nowMs lagMs (⟨store, []⟩ : Cycle δ) := fun _ h => absurd h List.not_mem_nil
  obtain ⟨hperiod, hthrough⟩ := processPeriod_keeps _ hnone report hreport
  exact ⟨hperiod, owns_iff hthrough⟩

/-- What is reported an hour into a period is counted to it. -/
theorem first_hour_owned :
    ∃ report ∈ (processPeriod id samplePaid sampleCatalog (2*hourMs + 5) hourMs ⟨sampleStore, []⟩).2.enqueued,
      samplePeriod.Owns (sentSeconds report) := by
  have hreports : ((processPeriod id samplePaid sampleCatalog (2*hourMs + 5) hourMs ⟨sampleStore, []⟩).2.enqueued.map
      sentSeconds).head? = some 3600 := by decide +kernel
  obtain ⟨report, hreport, -⟩ := List.mem_map.mp (List.mem_of_mem_head? hreports)
  have howned := reports_owned id samplePaid sampleCatalog (2*hourMs + 5) hourMs sampleStore report hreport
  exact ⟨report, hreport, howned.2.mpr ⟨by decide, by decide⟩⟩

/-- The last report of a period is stamped with its end: it is sent as an event of the next period. -/
theorem last_report_not_owned :
    ¬ ∀ (paid : PaidBillingPeriod) (catalog : UsageCatalog) (nowMs lagMs : Int) (store : Store (List UInt8)),
      ∀ report ∈ (processPeriod id paid catalog nowMs lagMs ⟨store, []⟩).2.enqueued,
        paid.period.Owns (sentSeconds report) := by
  intro h
  have hreports : ((processPeriod id samplePaid sampleCatalog (31*dayMs) hourMs ⟨sampleStore, []⟩).2.enqueued.map
      sentSeconds).head? = some (30*dayMs / 1000) := by decide +kernel
  obtain ⟨report, hreport, hsent⟩ := List.mem_map.mp (List.mem_of_mem_head? hreports)
  have howns := h samplePaid sampleCatalog (31*dayMs) hourMs sampleStore report hreport
  rw [hsent] at howns
  exact absurd howns.inside.2 (by decide)

end Windows

end Ffdb.Metrics
