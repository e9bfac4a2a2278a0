import Ffdb.Lib.Bytes
import Ffdb.Lib.Fallible
import Ffdb.Lib.Keyed
import Ffdb.Lib.Text
import Mathlib.Data.List.Sort

/-! The metrics database of an organization: its tables, the requests to it, and what the digests
of an event and of a reservation cover. Times are milliseconds. -/
namespace Ffdb.Metrics
open Fallible
open Sha256 (bytesOf length_bytesOf)

abbrev ProjectId := BitVec 128

abbrev SubjectHash := Octets.Block 32

def hourMs : Int := 60*60*1000

def dayMs : Int := 24*hourMs

def i64Max : Nat := 2^63-1

inductive Allowance where
  | readUnits
  | writeUnits
  | storageBytes
  | monthlyActiveUsers
  deriving DecidableEq

inductive MetricsError where
  | invalidInput
  | hashConflict
  | periodSealed
  | limitExceeded (allowance : Allowance)
  | reservationNotFound
  | reservationMismatch
  | staleLease
  | reconciliationPending
  | unavailable
  deriving DecidableEq

structure BillingPeriod where
  startMs : Int
  endMs : Int
  /-- Usage can arrive while a period is closing, but never after this point. -/
  cutoffMs : Int
  inRange : cutoffMs ≤ i64Max
  deriving DecidableEq

def BillingPeriod.Valid (period : BillingPeriod) : Prop :=
  0 ≤ period.startMs ∧ period.startMs < period.endMs ∧ period.endMs - period.startMs ≤ 366*dayMs ∧
    period.endMs ≤ period.cutoffMs ∧ period.cutoffMs - period.endMs ≤ 7*dayMs

instance (period : BillingPeriod) : Decidable period.Valid := by
  unfold BillingPeriod.Valid
  infer_instance

structure UsageLimits where
  readUnits : Nat
  writeUnits : Nat
  monthlyActiveUsers : Nat
  storageBytes : Nat
  enforceReadLimit : Bool
  enforceWriteLimit : Bool
  enforceMauLimit : Bool
  enforceStorageLimit : Bool

structure StorageSnapshot where
  resourceId : List Char
  logicalBytes : Nat
  deriving DecidableEq

structure UsageEvent where
  eventId : List Char
  projectId : ProjectId
  period : BillingPeriod
  occurredAtMs : Int
  recordedAtMs : Int
  readUnits : Nat
  writeUnits : Nat
  activeSubjectHash : Option SubjectHash
  storageSnapshots : List StorageSnapshot
  deriving DecidableEq

structure ReservationRequest where
  reservationId : List Char
  projectId : ProjectId
  period : BillingPeriod
  createdAtMs : Int
  expiresAtMs : Int
  readUnits : Nat
  writeUnits : Nat
  /-- The most bytes that the operation can add. -/
  storageGrowthBytes : Nat
  activeSubjectHash : Option SubjectHash
  deriving DecidableEq

inductive ReservationStatus where
  | active
  | settled
  | released
  | expired
  deriving DecidableEq

inductive ReservationAdmission where
  | reserved
  | duplicate (status : ReservationStatus)
  deriving DecidableEq

inductive IngestOutcome where
  | inserted
  | duplicate
  deriving DecidableEq

section Validation

def isIdentifierChar (c : Char) : Bool := c.isAlphanum || c = '-' || c = '_' || c = '.' || c = ':'

def validateIdentifier (value : List Char) : Bool :=
  !value.isEmpty && decide (Text.byteLength value ≤ 100) && value.all isIdentifierChar

def validateResourceId (value : List Char) : Bool :=
  !value.isEmpty && decide (Text.byteLength value ≤ 200) && value.all fun c => !(c.toNat < 0x20 || c.toNat = 0x7f)

def UsageEvent.Valid (event : UsageEvent) : Prop :=
  validateIdentifier event.eventId = true ∧ event.period.Valid ∧
    (event.period.startMs ≤ event.occurredAtMs ∧ event.occurredAtMs < event.period.endMs ∧
      event.occurredAtMs ≤ event.recordedAtMs ∧ event.recordedAtMs ≤ event.period.cutoffMs) ∧
    event.storageSnapshots.length ≤ 64 ∧
    (∀ snapshot ∈ event.storageSnapshots, validateResourceId snapshot.resourceId = true) ∧
    (event.storageSnapshots.map (·.resourceId)).Nodup ∧
    event.readUnits ≤ i64Max ∧ event.writeUnits ≤ i64Max ∧
    ∀ snapshot ∈ event.storageSnapshots, snapshot.logicalBytes ≤ i64Max

instance (event : UsageEvent) : Decidable event.Valid := by
  unfold UsageEvent.Valid
  infer_instance

def ReservationRequest.Valid (request : ReservationRequest) : Prop :=
  validateIdentifier request.reservationId = true ∧ request.period.Valid ∧
    (request.period.startMs ≤ request.createdAtMs ∧ request.createdAtMs < request.period.endMs ∧
      request.createdAtMs < request.expiresAtMs ∧ request.expiresAtMs ≤ request.period.cutoffMs ∧
      request.expiresAtMs - request.createdAtMs ≤ hourMs) ∧
    request.readUnits ≤ i64Max ∧ request.writeUnits ≤ i64Max ∧ request.storageGrowthBytes ≤ i64Max

instance (request : ReservationRequest) : Decidable request.Valid := by
  unfold ReservationRequest.Valid
  infer_instance

end Validation

section Digests

def timeBytes (t : Int) : List UInt8 := bytesOf 8 (t % 2^64).toNat

def countBytes (n : Nat) : List UInt8 := bytesOf 8 n

def BillingPeriod.bytes (period : BillingPeriod) : List UInt8 :=
  timeBytes period.startMs ++ timeBytes period.endMs ++ timeBytes period.cutoffMs

def subjectBytes : Option SubjectHash → List UInt8
  | some subject => 1 :: subject.1
  | none => [0]

def StorageSnapshot.le (a b : StorageSnapshot) : Prop :=
  a.resourceId < b.resourceId ∨ a.resourceId = b.resourceId ∧ a.logicalBytes ≤ b.logicalBytes

instance (a b : StorageSnapshot) : Decidable (a.le b) := by
  unfold StorageSnapshot.le
  infer_instance

def StorageSnapshot.bytes (snapshot : StorageSnapshot) : List UInt8 :=
  countBytes (Text.utf8 snapshot.resourceId).length ++ Text.utf8 snapshot.resourceId ++ countBytes snapshot.logicalBytes

def eventDomain : List UInt8 := Text.utf8 "ffdb.metrics.event.v1".toList ++ [0]

def reservationDomain : List UInt8 := Text.utf8 "ffdb.metrics.reservation.v1".toList ++ [0]

def UsageEvent.bytes (event : UsageEvent) : List UInt8 :=
  eventDomain ++ Text.utf8 event.eventId ++ bytesOf 16 event.projectId.toNat ++ event.period.bytes ++
    timeBytes event.occurredAtMs ++ timeBytes event.recordedAtMs ++ countBytes event.readUnits ++
    countBytes event.writeUnits ++ subjectBytes event.activeSubjectHash ++
    (event.storageSnapshots.insertionSort StorageSnapshot.le).flatMap StorageSnapshot.bytes

def ReservationRequest.bytes (request : ReservationRequest) : List UInt8 :=
  reservationDomain ++ Text.utf8 request.reservationId ++ bytesOf 16 request.projectId.toNat ++ request.period.bytes ++
    timeBytes request.createdAtMs ++ timeBytes request.expiresAtMs ++ countBytes request.readUnits ++
    countBytes request.writeUnits ++ countBytes request.storageGrowthBytes ++
    (request.activeSubjectHash.map Subtype.val).getD []

section Unambiguous

theorem timeBytes_injective {t t' : Int} (ht : 0 ≤ t) (hmax : t ≤ i64Max) (ht' : 0 ≤ t') (hmax' : t' ≤ i64Max)
    (h : timeBytes t = timeBytes t') : t = t' := by
  have hrange : (i64Max : Int) < 2^64 := by decide
  have hbytes : bytesOf 8 (t % 2^64).toNat = bytesOf 8 (t' % 2^64).toNat := h
  have hsame := Octets.bytesOf_injective (by omega) (by omega) hbytes
  omega

theorem countBytes_injective {n n' : Nat} (hn : n ≤ i64Max) (hn' : n' ≤ i64Max) (h : countBytes n = countBytes n') :
    n = n' := by
  have hrange : i64Max < 256^8 := by decide
  exact Octets.bytesOf_injective (by omega) (by omega) h

theorem BillingPeriod.bytes_append_inj {period period' : BillingPeriod} {rest rest' : List UInt8}
    (hvalid : period.Valid) (hvalid' : period'.Valid) (h : period.bytes ++ rest = period'.bytes ++ rest') :
    period = period' ∧ rest = rest' := by
  have hrange := period.inRange
  have hrange' := period'.inRange
  obtain ⟨hstart, hend, -, hcutoff, -⟩ := hvalid
  obtain ⟨hstart', hend', -, hcutoff', -⟩ := hvalid'
  have hlength (t : Int) : (timeBytes t).length = 8 := length_bytesOf 8 _
  simp only [BillingPeriod.bytes, List.append_assoc] at h
  obtain ⟨hs, h⟩ := List.append_inj h (by rw [hlength, hlength])
  obtain ⟨he, h⟩ := List.append_inj h (by rw [hlength, hlength])
  obtain ⟨hc, h⟩ := List.append_inj h (by rw [hlength, hlength])
  refine ⟨?_, h⟩
  have hs := timeBytes_injective hstart (by omega) hstart' (by omega) hs
  have he := timeBytes_injective (by omega) (by omega) (by omega) (by omega) he
  have hc := timeBytes_injective (by omega) hrange (by omega) hrange' hc
  cases period
  cases period'
  congr

theorem subjectBytes_append_inj {subject subject' : Option SubjectHash} {rest rest' : List UInt8}
    (h : subjectBytes subject ++ rest = subjectBytes subject' ++ rest') : subject = subject' ∧ rest = rest' := by
  cases subject with
  | none =>
    cases subject' with
    | none => exact ⟨rfl, by simpa [subjectBytes] using h⟩
    | some _ => simp [subjectBytes] at h
  | some subject =>
    cases subject' with
    | none => simp [subjectBytes] at h
    | some subject' =>
      simp only [subjectBytes, List.cons_append, List.cons.injEq, true_and] at h
      obtain ⟨hsubject, hrest⟩ := List.append_inj h (subject.2.trans subject'.2.symm)
      exact ⟨congrArg some (Subtype.ext hsubject), hrest⟩

/-- Among the events of one identifier the digest covers everything but the order of the sizes. -/
theorem UsageEvent.bytes_inj {event other : UsageEvent} (hvalid : event.Valid) (hvalid' : other.Valid)
    (hid : event.eventId = other.eventId) (h : event.bytes = other.bytes) :
    event.period = other.period ∧ event.activeSubjectHash = other.activeSubjectHash ∧
      event.occurredAtMs = other.occurredAtMs ∧ event.recordedAtMs = other.recordedAtMs ∧
      (event.storageSnapshots.insertionSort StorageSnapshot.le).flatMap StorageSnapshot.bytes =
        (other.storageSnapshots.insertionSort StorageSnapshot.le).flatMap StorageSnapshot.bytes := by
  have hlength (t : Int) : (timeBytes t).length = 8 := length_bytesOf 8 _
  have hcount (n : Nat) : (countBytes n).length = 8 := length_bytesOf 8 _
  have hrange := event.period.inRange
  have hrange' := other.period.inRange
  obtain ⟨-, hperiod, ⟨hfrom, hto, hafter, hcutoff⟩, -⟩ := hvalid
  obtain ⟨-, hperiod', ⟨hfrom', hto', hafter', hcutoff'⟩, -⟩ := hvalid'
  have hstart := hperiod.1
  have hstart' := hperiod'.1
  simp only [UsageEvent.bytes, List.append_assoc, hid] at h
  have h := List.append_cancel_left (List.append_cancel_left h)
  obtain ⟨-, h⟩ := List.append_inj h (by rw [length_bytesOf, length_bytesOf])
  obtain ⟨hsame, h⟩ := BillingPeriod.bytes_append_inj hperiod hperiod' h
  obtain ⟨hoccurred, h⟩ := List.append_inj h (by rw [hlength, hlength])
  obtain ⟨hrecorded, h⟩ := List.append_inj h (by rw [hlength, hlength])
  obtain ⟨-, h⟩ := List.append_inj h (by rw [hcount, hcount])
  obtain ⟨-, h⟩ := List.append_inj h (by rw [hcount, hcount])
  obtain ⟨hsubject, h⟩ := subjectBytes_append_inj h
  refine ⟨hsame, hsubject, timeBytes_injective ?_ ?_ ?_ ?_ hoccurred,
    timeBytes_injective ?_ ?_ ?_ ?_ hrecorded, h⟩ <;> omega

/-- Among the reservations of one identifier the digest covers everything but the project. -/
theorem ReservationRequest.bytes_inj {request other : ReservationRequest} (hvalid : request.Valid)
    (hvalid' : other.Valid) (hid : request.reservationId = other.reservationId) (h : request.bytes = other.bytes) :
    request.period = other.period ∧ request.createdAtMs = other.createdAtMs ∧
      request.storageGrowthBytes = other.storageGrowthBytes ∧ request.activeSubjectHash = other.activeSubjectHash := by
  have hlength (t : Int) : (timeBytes t).length = 8 := length_bytesOf 8 _
  have hcount (n : Nat) : (countBytes n).length = 8 := length_bytesOf 8 _
  have hrange := request.period.inRange
  have hrange' := other.period.inRange
  obtain ⟨-, hperiod, ⟨hfrom, hto, hbefore, hcutoff, -⟩, -, -, hgrowth⟩ := hvalid
  obtain ⟨-, hperiod', ⟨hfrom', hto', hbefore', hcutoff', -⟩, -, -, hgrowth'⟩ := hvalid'
  have hstart := hperiod.1
  have hstart' := hperiod'.1
  simp only [ReservationRequest.bytes, List.append_assoc, hid] at h
  have h := List.append_cancel_left (List.append_cancel_left h)
  obtain ⟨-, h⟩ := List.append_inj h (by rw [length_bytesOf, length_bytesOf])
  obtain ⟨hsame, h⟩ := BillingPeriod.bytes_append_inj hperiod hperiod' h
  obtain ⟨hcreated, h⟩ := List.append_inj h (by rw [hlength, hlength])
  obtain ⟨-, h⟩ := List.append_inj h (by rw [hlength, hlength])
  obtain ⟨-, h⟩ := List.append_inj h (by rw [hcount, hcount])
  obtain ⟨-, h⟩ := List.append_inj h (by rw [hcount, hcount])
  obtain ⟨hbytes, h⟩ := List.append_inj h (by rw [hcount, hcount])
  refine ⟨hsame, timeBytes_injective ?_ ?_ ?_ ?_ hcreated, countBytes_injective hgrowth hgrowth' hbytes, ?_⟩
  any_goals omega
  cases hsubject : request.activeSubjectHash with
  | none =>
    cases hsubject' : other.activeSubjectHash with
    | none => rfl
    | some subject' =>
      rw [hsubject, hsubject'] at h
      have hempty := subject'.2
      rw [← show ([] : List UInt8) = subject'.1 from h] at hempty
      cases hempty
  | some subject =>
    cases hsubject' : other.activeSubjectHash with
    | none =>
      rw [hsubject, hsubject'] at h
      have hempty := subject.2
      rw [show subject.1 = [] from h] at hempty
      cases hempty
    | some subject' =>
      rw [hsubject, hsubject'] at h
      exact congrArg some (Subtype.ext h)

end Unambiguous

end Digests

section Tables

inductive PeriodStatus where
  | opened
  | closing
  | sealed
  | finalized
  deriving DecidableEq

def PeriodStatus.isShut : PeriodStatus → Bool
  | .sealed | .finalized => true
  | .opened | .closing => false

structure PeriodRow where
  endMs : Int
  cutoffMs : Int
  status : PeriodStatus
  deriving DecidableEq

structure EventReceipt (δ : Type) where
  payloadSha256 : δ
  projectId : ProjectId
  periodStartMs : Int
  occurredAtMs : Int
  recordedAtMs : Int

structure HourlyUsage where
  readUnits : Nat
  writeUnits : Nat

abbrev ClaimKey := Int × SubjectHash

structure ActiveUserClaim where
  periodEndMs : Int
  active : Bool
  reservationCount : Nat
  firstSeenMs : Option Int
  lastSeenMs : Option Int

structure CurrentSize where
  occurredAtMs : Int
  eventId : List Char
  logicalBytes : Nat
  deriving DecidableEq

structure Reservation (δ : Type) where
  requestSha256 : δ
  projectId : ProjectId
  periodStartMs : Int
  periodEndMs : Int
  createdAtMs : Int
  expiresAtMs : Int
  readUnits : Nat
  writeUnits : Nat
  storageGrowthBytes : Nat
  subjectHash : Option SubjectHash
  mauClaimed : Bool
  status : ReservationStatus
  eventId : Option (List Char)
  resolvedAtMs : Option Int

inductive UsageDimension where
  | readUnits
  | writeUnits
  | monthlyActiveUsers
  | storageByteMilliseconds
  deriving DecidableEq

inductive OutboxState where
  | pending
  | inFlight
  | failed
  | acknowledged
  deriving DecidableEq

structure OutboxRow (δ : Type) where
  payloadSha256 : δ
  eventName : List Char
  customerId : List Char
  periodStartMs : Int
  periodEndMs : Int
  dimension : UsageDimension
  windowStartMs : Int
  windowEndMs : Int
  quantity : Nat
  providerTimestampMs : Int
  state : OutboxState
  attemptCount : Nat
  nextAttemptMs : Int
  leaseToken : Option (List Char)
  leaseExpiresMs : Option Int
  acknowledgedAtMs : Option Int

structure Reconciliation where
  localQuantity : Nat
  providerQuantity : Nat
  matched : Bool

/-- The tables. The key of `usageHourly` is a period, an hour and a project; the one of
`storageTransitions` a resource, a time and an event. -/
structure Store (δ : Type) where
  periods : Table Int PeriodRow := ∅
  eventReceipts : Table (List Char) (EventReceipt δ) := ∅
  usageHourly : Table (Int × Int × ProjectId) HourlyUsage := ∅
  activeUserClaims : Table ClaimKey ActiveUserClaim := ∅
  storageTransitions : Table (List Char × Int × List Char) Nat := ∅
  storageCurrent : Table (List Char) CurrentSize := ∅
  reservations : Table (List Char) (Reservation δ) := ∅
  outbox : Table (List Char) (OutboxRow δ) := ∅
  reconciliations : Table (Int × UsageDimension) Reconciliation := ∅

end Tables

end Ffdb.Metrics
