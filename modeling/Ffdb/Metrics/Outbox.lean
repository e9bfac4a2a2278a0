import Ffdb.Metrics.Metering

/-! The outbox of usage reports: a report is enqueued once, claimed under a lease, and acknowledged or failed by who
shows the token of the lease. -/
namespace Ffdb.Metrics
open Fallible
open DatabaseWorker (Uuid)

variable {δ : Type}

structure ReportRequest where
  identifier : List Char
  eventName : List Char
  customerId : List Char
  period : BillingPeriod
  dimension : UsageDimension
  windowStartMs : Int
  windowEndMs : Int
  quantity : Nat
  providerTimestampMs : Int
  nowMs : Int

structure ClaimedReport where
  identifier : List Char
  eventName : List Char
  customerId : List Char
  dimension : UsageDimension
  quantity : Nat
  providerTimestampMs : Int
  leaseToken : List Char
  attempt : Nat

def maxProviderErrorBytes : Nat := 1024

def u32Max : Nat := 2^32-1

def ReportRequest.Valid (report : ReportRequest) : Prop :=
  validateIdentifier report.identifier = true ∧ validateIdentifier report.eventName = true ∧
    validateIdentifier report.customerId = true ∧ report.period.Valid ∧
    (report.period.startMs ≤ report.windowStartMs ∧ report.windowStartMs < report.windowEndMs ∧
      report.windowEndMs ≤ report.period.endMs ∧ report.windowStartMs ≤ report.providerTimestampMs ∧
      report.providerTimestampMs ≤ report.windowEndMs ∧ report.providerTimestampMs ≤ report.nowMs) ∧
    0 < report.quantity ∧ report.quantity ≤ i64Max

instance (report : ReportRequest) : Decidable report.Valid := by
  unfold ReportRequest.Valid
  infer_instance

section Enqueue

def UsageDimension.asStr : UsageDimension → String
  | .readUnits => "read_units"
  | .writeUnits => "write_units"
  | .monthlyActiveUsers => "monthly_active_users"
  | .storageByteMilliseconds => "storage_byte_milliseconds"

def reportDomain : List UInt8 := Text.utf8 "ffdb.metrics.stripe-report.v1".toList ++ [0]

def ReportRequest.bytes (report : ReportRequest) : List UInt8 :=
  reportDomain ++ Text.utf8 report.identifier ++ Text.utf8 report.eventName ++ Text.utf8 report.customerId ++
    timeBytes report.period.startMs ++ timeBytes report.period.endMs ++ Text.utf8 report.dimension.asStr.toList ++
    timeBytes report.windowStartMs ++ timeBytes report.windowEndMs ++ countBytes report.quantity ++
    timeBytes report.providerTimestampMs

variable (hash : List UInt8 → δ)

def ReportRequest.row (report : ReportRequest) : OutboxRow δ where
  payloadSha256 := hash report.bytes
  eventName := report.eventName
  customerId := report.customerId
  periodStartMs := report.period.startMs
  periodEndMs := report.period.endMs
  dimension := report.dimension
  windowStartMs := report.windowStartMs
  windowEndMs := report.windowEndMs
  quantity := report.quantity
  providerTimestampMs := report.providerTimestampMs
  state := .pending
  attemptCount := 0
  nextAttemptMs := report.nowMs
  leaseToken := none
  leaseExpiresMs := none
  acknowledgedAtMs := none

def enqueueReport [DecidableEq δ] (store : Store δ) (report : ReportRequest) :
    Except MetricsError (Store δ × IngestOutcome) := do
  require report.Valid .invalidInput
  let store ← ensurePeriod store report.period
  match store.outbox.lookup report.identifier with
  | some stored => do
    require (stored.payloadSha256 = hash report.bytes) .hashConflict
    pure (store, .duplicate)
  | none => pure ({ store with outbox := store.outbox.insert report.identifier (report.row hash) }, .inserted)

end Enqueue

section Claim

def OutboxRow.isClaimable (nowMs : Int) (row : OutboxRow δ) : Bool :=
  ((row.state = .pending || row.state = .failed) && row.nextAttemptMs ≤ nowMs) ||
    (row.state = .inFlight && row.leaseExpiresMs.any (· ≤ nowMs))

def OutboxRow.isOf (period : Option BillingPeriod) (row : OutboxRow δ) : Bool :=
  period.all fun period => row.periodStartMs = period.startMs && row.periodEndMs = period.endMs

def comesBefore (entry other : List Char × OutboxRow δ) : Prop :=
  entry.2.providerTimestampMs < other.2.providerTimestampMs ∨
    entry.2.providerTimestampMs = other.2.providerTimestampMs ∧ entry.1 ≤ other.1

instance (entry other : List Char × OutboxRow δ) : Decidable (comesBefore entry other) := by
  unfold comesBefore
  infer_instance

def claimable (store : Store δ) (period : Option BillingPeriod) (nowMs : Int) : List (List Char × OutboxRow δ) :=
  ((store.outbox.entries.map fun entry => (entry.1, entry.2)).filter fun entry =>
    entry.2.isOf period && entry.2.isClaimable nowMs).insertionSort comesBefore

def OutboxRow.leased (row : OutboxRow δ) (token : List Char) (expiresMs : Int) : OutboxRow δ :=
  { row with
    state := .inFlight
    attemptCount := row.attemptCount + 1
    leaseToken := some token
    leaseExpiresMs := some expiresMs }

def OutboxRow.claimed (row : OutboxRow δ) (identifier token : List Char) : ClaimedReport :=
  ⟨identifier, row.eventName, row.customerId, row.dimension, row.quantity, row.providerTimestampMs, token,
    row.attemptCount + 1⟩

/-- The rows that were read are leased one by one, those that can still be claimed, each under a token of its own. -/
def claimRows (nowMs expiresMs : Int) : Table (List Char) (OutboxRow δ) → List (List Char × OutboxRow δ) → (Nat → Uuid) →
    Except MetricsError (Table (List Char) (OutboxRow δ) × List ClaimedReport)
  | outbox, [], _ => pure (outbox, [])
  | outbox, (identifier, row) :: rows, draw =>
    match outbox.lookup identifier with
    | some current =>
      if current.isClaimable nowMs then do
        require (row.attemptCount + 1 ≤ u32Max) .unavailable
        let outbox := outbox.insert identifier (current.leased (uuidText (draw 0)) expiresMs)
        let (outbox, claimed) ← claimRows nowMs expiresMs outbox rows fun n => draw (n + 1)
        pure (outbox, row.claimed identifier (uuidText (draw 0)) :: claimed)
      else claimRows nowMs expiresMs outbox rows fun n => draw (n + 1)
    | none => claimRows nowMs expiresMs outbox rows fun n => draw (n + 1)

def validClaim (nowMs leaseDurationMs : Int) (limit : Nat) : Bool :=
  0 ≤ nowMs && (1000 ≤ leaseDurationMs && leaseDurationMs ≤ 10*60*1000) && (1 ≤ limit && limit ≤ 100)

def claimReportsInner (store : Store δ) (period : Option BillingPeriod) (nowMs leaseDurationMs : Int) (limit : Nat)
    (draw : Nat → Uuid) : Except MetricsError (Store δ × List ClaimedReport) := do
  require (validClaim nowMs leaseDurationMs limit) .invalidInput
  let (outbox, claimed) ← claimRows nowMs (saturatingAdd nowMs leaseDurationMs) store.outbox
    ((claimable store period nowMs).take limit) draw
  pure ({ store with outbox }, claimed)

def claimReports (store : Store δ) (nowMs leaseDurationMs : Int) (limit : Nat) (draw : Nat → Uuid) :
    Except MetricsError (Store δ × List ClaimedReport) :=
  claimReportsInner store none nowMs leaseDurationMs limit draw

def claimReportsForPeriod (store : Store δ) (period : BillingPeriod) (nowMs leaseDurationMs : Int) (limit : Nat)
    (draw : Nat → Uuid) : Except MetricsError (Store δ × List ClaimedReport) := do
  require period.Valid .invalidInput
  claimReportsInner store (some period) nowMs leaseDurationMs limit draw

end Claim

section Resolve

def OutboxRow.isHeldWith (token : List Char) (row : OutboxRow δ) : Bool :=
  row.state = .inFlight && row.leaseToken = some token

def OutboxRow.acknowledged (row : OutboxRow δ) (nowMs : Int) : OutboxRow δ :=
  { row with
    state := .acknowledged
    acknowledgedAtMs := some nowMs
    leaseToken := none
    leaseExpiresMs := none }

def OutboxRow.failed (row : OutboxRow δ) (retryAtMs : Int) : OutboxRow δ :=
  { row with
    state := .failed
    nextAttemptMs := retryAtMs
    leaseToken := none
    leaseExpiresMs := none }

def resolveReport (store : Store δ) (identifier leaseToken : List Char) (change : OutboxRow δ → OutboxRow δ) :
    Except MetricsError (Store δ) := do
  let row ← orError (store.outbox.lookup identifier) .staleLease
  require (row.isHeldWith leaseToken) .staleLease
  pure { store with outbox := store.outbox.insert identifier (change row) }

def acknowledgeReport (store : Store δ) (identifier leaseToken providerEventId : List Char) (nowMs : Int) :
    Except MetricsError (Store δ) := do
  require (validateIdentifier identifier && validateIdentifier leaseToken && validateIdentifier providerEventId)
    .invalidInput
  resolveReport store identifier leaseToken (·.acknowledged nowMs)

def failReport (store : Store δ) (identifier leaseToken : List Char) (retryAtMs : Int) (error : List Char) :
    Except MetricsError (Store δ) := do
  require (validateIdentifier identifier && validateIdentifier leaseToken) .invalidInput
  require (0 ≤ retryAtMs && !error.isEmpty && Text.byteLength error ≤ maxProviderErrorBytes) .invalidInput
  resolveReport store identifier leaseToken (·.failed retryAtMs)

end Resolve

end Ffdb.Metrics
