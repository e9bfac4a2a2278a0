import Ffdb.Metrics.Effects

/-! Summaries of a period: its counters, its active users, and what was stored over time. -/
namespace Ffdb.Metrics
open Fallible

variable {δ : Type} [DecidableEq δ]

def u64Max : Nat := 2^64-1

def u128Max : Nat := 2^128-1

structure Transition where
  resourceId : List Char
  occurredAtMs : Int
  eventId : List Char
  logicalBytes : Nat
  deriving DecidableEq

def Transition.le (a b : Transition) : Prop :=
  a.resourceId < b.resourceId ∨ a.resourceId = b.resourceId ∧
    (a.occurredAtMs < b.occurredAtMs ∨ a.occurredAtMs = b.occurredAtMs ∧ ¬b.eventId < a.eventId)

instance (a b : Transition) : Decidable (a.le b) := by
  unfold Transition.le
  infer_instance

def transitionsBefore (store : Store δ) (endMs : Int) : List Transition :=
  ((store.storageTransitions.entries.map fun entry =>
    (⟨entry.1.1, entry.1.2.1, entry.1.2.2, entry.2⟩ : Transition)).filter (·.occurredAtMs < endMs)).insertionSort
      Transition.le

def checkedAdd (bound a b : Nat) : Except MetricsError Nat := do
  require (a + b ≤ bound) .unavailable
  pure (a + b)

def addDuration (byteMilliseconds current : Nat) (durationMs : Int) : Except MetricsError Nat := do
  require (0 ≤ durationMs) .unavailable
  checkedAdd u128Max byteMilliseconds (current * durationMs.toNat)

def integrateResource (startMs endMs : Int) : Nat → Int → Nat → List Transition → Except MetricsError (Nat × Nat)
  | current, cursor, byteMilliseconds, [] => do
    let byteMilliseconds ← addDuration byteMilliseconds current (endMs - cursor)
    pure (current, byteMilliseconds)
  | current, cursor, byteMilliseconds, transition :: rest =>
    if transition.occurredAtMs ≤ startMs then
      integrateResource startMs endMs transition.logicalBytes cursor byteMilliseconds rest
    else do
      let byteMilliseconds ← addDuration byteMilliseconds current (transition.occurredAtMs - cursor)
      integrateResource startMs endMs transition.logicalBytes transition.occurredAtMs byteMilliseconds rest

def integrateResources (startMs endMs : Int) (transitions : List Transition) :
    Nat × Nat → List (List Char) → Except MetricsError (Nat × Nat)
  | totals, [] => pure totals
  | (bytesAtEnd, byteMilliseconds), resourceId :: rest => do
    let (current, byteMilliseconds) ←
      integrateResource startMs endMs 0 startMs byteMilliseconds (transitions.filter (·.resourceId = resourceId))
    let bytesAtEnd ← checkedAdd u64Max bytesAtEnd current
    integrateResources startMs endMs transitions (bytesAtEnd, byteMilliseconds) rest

def storageIntegral (store : Store δ) (startMs endMs : Int) : Except MetricsError (Nat × Nat) :=
  let transitions := transitionsBefore store endMs
  integrateResources startMs endMs transitions (0, 0) (transitions.map (·.resourceId)).dedup

structure UsageSummary where
  readUnits : Nat
  writeUnits : Nat
  monthlyActiveUsers : Nat
  storageBytesAtEnd : Nat
  storageByteMilliseconds : Nat
  deriving DecidableEq

def usedThrough (store : Store δ) (periodStartMs throughMs : Int) (amount : HourlyUsage → Nat) : Nat :=
  store.usageHourly.total fun key usage => if key.1 = periodStartMs ∧ key.2.1 < throughMs then amount usage else 0

def ActiveUserClaim.isSeenBefore (throughMs : Int) (claim : ActiveUserClaim) : Bool :=
  claim.active && claim.firstSeenMs.any (· < throughMs)

def activeThrough (store : Store δ) (periodStartMs throughMs : Int) : Nat :=
  store.activeUserClaims.total fun key claim => if key.1 = periodStartMs ∧ claim.isSeenBefore throughMs then 1 else 0

def summaryThrough (store : Store δ) (period : BillingPeriod) (throughMs : Int) : Except MetricsError UsageSummary := do
  require period.Valid .invalidInput
  require (period.startMs < throughMs && throughMs ≤ period.endMs) .invalidInput
  let reads ← readSum (usedThrough store period.startMs throughMs (·.readUnits))
  let writes ← readSum (usedThrough store period.startMs throughMs (·.writeUnits))
  let users := activeThrough store period.startMs throughMs
  let (bytesAtEnd, byteMilliseconds) ← storageIntegral store period.startMs throughMs
  pure ⟨reads, writes, users, bytesAtEnd, byteMilliseconds⟩

def summary (store : Store δ) (period : BillingPeriod) : Except MetricsError UsageSummary :=
  summaryThrough store period period.endMs

end Ffdb.Metrics
