import Ffdb.DatabaseWorker.Metered
import Ffdb.Metrics.Summary

/-! The metering service of the API: an operation is prepared before the worker executes it, and
its receipt is ingested, or its reservation released, afterwards. -/
namespace Ffdb.Metrics
open Fallible
open DatabaseWorker (UsageReceipt Uuid)
open Sha256 (bytesOf)

variable {δ : Type} [DecidableEq δ] (hash : List UInt8 → δ)

def reservationTtlMs : Int := 60000

def periodCutoffGraceMs : Int := 2*dayMs

def saturatingAdd (a b : Int) : Int := min (a + b) i64Max

def BillingPeriod.ofBounds (startMs endMs : Int) : BillingPeriod :=
  ⟨startMs, endMs, saturatingAdd endMs periodCutoffGraceMs, min_le_right _ _⟩

/-- The last millisecond of the period, or its first, for a time outside of it. -/
def BillingPeriod.clamp (period : BillingPeriod) (nowMs : Int) : Int :=
  if nowMs < period.startMs then period.startMs
  else if period.endMs - 1 < nowMs then period.endMs - 1
  else nowMs

structure UsagePlan where
  readUnits : Nat
  writeUnits : Nat

def UsagePlan.mutating (plan : UsagePlan) : Bool := 0 < plan.writeUnits

structure BillingContext where
  period : BillingPeriod
  storageBytes : Nat
  monthlyReads : Nat
  monthlyWrites : Nat
  monthlyActiveUsers : Nat
  enforceWrite : Bool
  enforceStorage : Bool
  reportingBlocked : Bool

inductive MeteringError where
  | reportingBlocked
  | store (error : MetricsError)
  | unavailable
  deriving DecidableEq

structure Organization where
  id : Uuid
  subjectKey : List UInt8

structure PreparedUsage where
  period : BillingPeriod
  projectId : ProjectId
  reservationId : Option (List Char)
  subjectHash : Option SubjectHash
  maxDatabaseBytes : Nat
  deriving DecidableEq

section Names

def uuidText (id : Uuid) : List Char :=
  let digits := Text.hex (bytesOf 16 id.toNat)
  digits.take 8 ++ '-' :: (digits.drop 8).take 4 ++ '-' :: (digits.drop 12).take 4 ++ '-' :: (digits.drop 16).take 4 ++
    '-' :: digits.drop 20

def databaseResource (projectId : ProjectId) : List Char := "database:".toList ++ uuidText projectId

def objectStorageResource (projectId : ProjectId) : List Char := "objects:".toList ++ uuidText projectId

@[irreducible]
def storageReservationId (nonce : List Char) : List Char :=
  "storage:".toList ++ Text.hex (Sha256.digest (Text.utf8 nonce))

end Names

@[irreducible]
def hashActiveSubject (organization : Organization) (period : BillingPeriod) (subject : List Char) :
    Except MetricsError SubjectHash := do
  require period.Valid .invalidInput
  require (!subject.isEmpty && Text.byteLength subject ≤ 512 && subject.all (· ≠ Char.ofNat 0)) .invalidInput
  pure ⟨Sha256.hmac organization.subjectKey (Text.utf8 "ffdb.metrics.mau.v1".toList ++ [0] ++
      bytesOf 16 organization.id.toNat ++ timeBytes period.startMs ++ timeBytes period.endMs ++ Text.utf8 subject),
    Sha256.length_hmac _ _⟩

section Prepare
variable (organization : Organization) (context : BillingContext) (projectId : ProjectId) (receiptId : Uuid)
  (plan : UsagePlan) (nowMs : Int) (configuredMaxBytes : Nat)

def subjectOf (period : BillingPeriod) (mode : Option (List Char)) : Except MetricsError (Option SubjectHash) :=
  match mode with
  | some subject => (hashActiveSubject organization period subject).map some
  | none => .ok none

def remainingBytes (storageBytesAtEnd : Nat) : Nat :=
  if context.enforceStorage then context.storageBytes - storageBytesAtEnd else 0

def maxDatabaseBytes (storageBytesAtEnd currentProjectBytes : Nat) : Except MeteringError Nat := do
  if context.enforceStorage then do
    let bound := currentProjectBytes + remainingBytes context storageBytesAtEnd
    require (bound ≤ u64Max) .unavailable
    pure (min configuredMaxBytes bound)
  else pure configuredMaxBytes

def operationRequest (subjectHash : Option SubjectHash) (storageGrowthBytes : Nat) : ReservationRequest where
  reservationId := uuidText receiptId
  projectId := projectId
  period := context.period
  createdAtMs := nowMs
  expiresAtMs := saturatingAdd nowMs reservationTtlMs
  readUnits := plan.readUnits
  writeUnits := plan.writeUnits
  storageGrowthBytes := storageGrowthBytes
  activeSubjectHash := subjectHash

/-- Free reads continue after the included quantity; paid tiers meter overage. -/
def operationLimits : UsageLimits where
  readUnits := context.monthlyReads
  writeUnits := context.monthlyWrites
  monthlyActiveUsers := context.monthlyActiveUsers
  storageBytes := context.storageBytes
  enforceReadLimit := false
  enforceWriteLimit := context.enforceWrite
  enforceMauLimit := false
  enforceStorageLimit := context.enforceStorage

def prepare (store : Store δ) (mode : Option (List Char)) : Except MeteringError (Store δ × PreparedUsage) := do
  require (!(context.reportingBlocked && plan.mutating)) .reportingBlocked
  let subjectHash ← (subjectOf organization context.period mode).mapError .store
  if plan.mutating then do
    let total ← (summary store context.period).mapError .store
    let current ← (storageResourceBytes store (databaseResource projectId)).mapError .store
    let bytes ← maxDatabaseBytes context configuredMaxBytes total.storageBytesAtEnd current
    let request := operationRequest context projectId receiptId plan nowMs subjectHash
      (remainingBytes context total.storageBytesAtEnd)
    let (store, _) ← (reserve hash store request (operationLimits context)).mapError .store
    pure (store, ⟨context.period, projectId, some (uuidText receiptId), subjectHash, bytes⟩)
  else pure (store, ⟨context.period, projectId, none, subjectHash, configuredMaxBytes⟩)

end Prepare

section Ingest
variable (prepared : PreparedUsage) (receipt : UsageReceipt) (nowMs : Int)

def receiptEvent : UsageEvent where
  eventId := uuidText receipt.receiptId
  projectId := prepared.projectId
  period := prepared.period
  occurredAtMs := prepared.period.clamp receipt.recordedAtMs
  recordedAtMs := nowMs
  readUnits := receipt.reads
  writeUnits := receipt.writes
  activeSubjectHash := prepared.subjectHash
  storageSnapshots := [⟨databaseResource prepared.projectId, receipt.logicalDatabaseBytes⟩]

def ingest (store : Store δ) : Except MetricsError (Store δ × IngestOutcome) :=
  match prepared.reservationId with
  | some reservationId => settleReservation hash store reservationId (receiptEvent prepared receipt nowMs)
  | none => recordEvent hash store (receiptEvent prepared receipt nowMs)

/-- A release that fails is logged and passed over. -/
def release (store : Store δ) : Store δ :=
  match prepared.reservationId with
  | some reservationId => ((releaseReservation store reservationId nowMs).map Prod.fst).toOption.getD store
  | none => store

end Ingest

section ObjectStorage
variable (organization : Organization) (projectId : ProjectId) (nonce : List Char) (subject : List Char)

def reserveObjectStorage (context : BillingContext) (storageGrowthBytes : Nat) (createdAtMs expiresAtMs : Int)
    (store : Store δ) : Except MeteringError (Store δ) := do
  require (!context.reportingBlocked) .reportingBlocked
  let subjectHash ← (hashActiveSubject organization context.period subject).mapError .store
  let request : ReservationRequest :=
    ⟨storageReservationId nonce, projectId, context.period, createdAtMs, expiresAtMs, 0, 0, storageGrowthBytes,
      some subjectHash⟩
  let (store, _) ← (reserve hash store request
    { operationLimits context with enforceWriteLimit := false }).mapError .store
  pure store

def objectEvent (eventId : List Char) (period : BillingPeriod) (subjectHash : SubjectHash) (currentBytes : Nat)
    (nowMs : Int) : UsageEvent where
  eventId := eventId
  projectId := projectId
  period := period
  occurredAtMs := period.clamp nowMs
  recordedAtMs := nowMs
  readUnits := 0
  writeUnits := 0
  activeSubjectHash := some subjectHash
  storageSnapshots := [⟨objectStorageResource projectId, currentBytes⟩]

def settleObjectStorage (currentBytes : Nat) (nowMs : Int) (store : Store δ) :
    Except MetricsError (Store δ × IngestOutcome) := do
  let reservationId := storageReservationId nonce
  let reservation ← orError (← reservationContext store reservationId) .reservationNotFound
  require (reservation.projectId = projectId) .reservationMismatch
  let period := BillingPeriod.ofBounds reservation.periodStartMs reservation.periodEndMs
  let subjectHash ← hashActiveSubject organization period subject
  settleReservation hash store reservationId (objectEvent projectId reservationId period subjectHash currentBytes nowMs)

end ObjectStorage

end Ffdb.Metrics
