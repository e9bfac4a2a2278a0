import Ffdb.Metrics.Schema

/-! The operations of the metrics database. Each is one transaction: what fails leaves the
database as it was. -/
namespace Ffdb.Metrics
open Fallible

variable {δ : Type} [DecidableEq δ] (hash : List UInt8 → δ)

/-- An integer as it is read from the database: a sum beyond the range of a column is no integer. -/
def readSum (n : Nat) : Except MetricsError Nat := do
  require (n ≤ i64Max) .unavailable
  pure n

def ensurePeriod (store : Store δ) (period : BillingPeriod) : Except MetricsError (Store δ) := do
  require period.Valid .invalidInput
  match store.periods.lookup period.startMs with
  | none => pure { store with periods := store.periods.insert period.startMs ⟨period.endMs, period.cutoffMs, .opened⟩ }
  | some row => do
    require (row.endMs = period.endMs && row.cutoffMs = period.cutoffMs) .hashConflict
    pure store

def ensureAccepting (store : Store δ) (period : BillingPeriod) (recordedAtMs : Int) : Except MetricsError Unit := do
  let row ← orError (store.periods.lookup period.startMs) .unavailable
  require (!row.status.isShut && recordedAtMs ≤ period.cutoffMs) .periodSealed

section Claims
variable (claims : Table ClaimKey ActiveUserClaim) (key : ClaimKey)

def ActiveUserClaim.seen (claim : ActiveUserClaim) (seenMs : Int) : ActiveUserClaim :=
  { claim with
    active := true
    firstSeenMs := some (claim.firstSeenMs.getD seenMs)
    lastSeenMs := some (max (claim.lastSeenMs.getD seenMs) seenMs) }

/-- The subject is seen: a new row is active, and one that is there becomes active. -/
def markActive (periodEndMs seenMs : Int) : Table ClaimKey ActiveUserClaim :=
  claims.insert key (match claims.lookup key with
    | none => ⟨periodEndMs, true, 0, some seenMs, some seenMs⟩
    | some claim => claim.seen seenMs)

def holdClaim (periodEndMs : Int) : Table ClaimKey ActiveUserClaim :=
  claims.insert key (match claims.lookup key with
    | none => ⟨periodEndMs, false, 1, none, none⟩
    | some claim => { claim with reservationCount := claim.reservationCount + 1 })

/-- A reservation gives its claim back; a row that nothing stands for goes. -/
def dropClaim : Table ClaimKey ActiveUserClaim :=
  match claims.lookup key with
  | none => claims
  | some claim =>
    if !claim.active && claim.reservationCount - 1 = 0 then claims.erase key
    else claims.insert key { claim with reservationCount := claim.reservationCount - 1 }

def convertClaim (periodEndMs nowMs : Int) : Table ClaimKey ActiveUserClaim :=
  match claims.lookup key with
  | some claim =>
    if 0 < claim.reservationCount then
      claims.insert key { claim.seen nowMs with reservationCount := claim.reservationCount - 1 }
    else markActive claims key periodEndMs nowMs
  | none => markActive claims key periodEndMs nowMs

end Claims

def releaseMauClaim (store : Store δ) (row : Reservation δ) : Except MetricsError (Store δ) :=
  if !row.mauClaimed then pure store
  else do
    let subject ← orError row.subjectHash .unavailable
    pure { store with activeUserClaims := dropClaim store.activeUserClaims (row.periodStartMs, subject) }

def activateMauClaim (store : Store δ) (row : Reservation δ) (nowMs : Int) : Except MetricsError (Store δ) :=
  if !row.mauClaimed then pure store
  else do
    let subject ← orError row.subjectHash .unavailable
    pure { store with
      activeUserClaims := convertClaim store.activeUserClaims (row.periodStartMs, subject) row.periodEndMs nowMs }

def Reservation.isDue (nowMs : Int) (row : Reservation δ) : Bool := row.status = .active && row.expiresAtMs ≤ nowMs

def Reservation.expire (nowMs : Int) (row : Reservation δ) : Reservation δ :=
  if row.isDue nowMs then { row with status := .expired, resolvedAtMs := some nowMs } else row

def expireReservations (store : Store δ) (nowMs : Int) : Except MetricsError (Store δ) := do
  let due := (store.reservations.entries.map (·.2)).filter (·.isDue nowMs)
  let store ← due.foldlM releaseMauClaim store
  pure { store with reservations := store.reservations.mapValues fun _ => Reservation.expire nowMs }

def addUsage (usage : Table (Int × Int × ProjectId) HourlyUsage) (event : UsageEvent) :
    Table (Int × Int × ProjectId) HourlyUsage :=
  let key := (event.period.startMs, event.occurredAtMs - event.occurredAtMs % hourMs, event.projectId)
  let old := (usage.lookup key).getD ⟨0, 0⟩
  usage.insert key ⟨old.readUnits + event.readUnits, old.writeUnits + event.writeUnits⟩

def CurrentSize.isAfter (size other : CurrentSize) : Bool :=
  other.occurredAtMs < size.occurredAtMs || (other.occurredAtMs = size.occurredAtMs && other.eventId < size.eventId)

def setCurrent (current : Table (List Char) CurrentSize) (resourceId : List Char) (size : CurrentSize) :
    Table (List Char) CurrentSize :=
  match current.lookup resourceId with
  | none => current.insert resourceId size
  | some old => if size.isAfter old then current.insert resourceId size else current

def recordSnapshot (event : UsageEvent) (store : Store δ) (snapshot : StorageSnapshot) :
    Except MetricsError (Store δ) := do
  let key := (snapshot.resourceId, event.occurredAtMs, event.eventId)
  require (store.storageTransitions.lookup key).isNone .unavailable
  pure { store with
    storageTransitions := store.storageTransitions.insert key snapshot.logicalBytes
    storageCurrent := setCurrent store.storageCurrent snapshot.resourceId
      ⟨event.occurredAtMs, event.eventId, snapshot.logicalBytes⟩ }

def UsageEvent.receipt (event : UsageEvent) : EventReceipt δ :=
  ⟨hash event.bytes, event.projectId, event.period.startMs, event.occurredAtMs, event.recordedAtMs⟩

def countEvent (store : Store δ) (event : UsageEvent) : Store δ :=
  { store with
    eventReceipts := store.eventReceipts.insert event.eventId (event.receipt hash)
    usageHourly := addUsage store.usageHourly event
    activeUserClaims := match event.activeSubjectHash with
      | some subject =>
        markActive store.activeUserClaims (event.period.startMs, subject) event.period.endMs event.occurredAtMs
      | none => store.activeUserClaims }

def ingestEvent (store : Store δ) (event : UsageEvent) : Except MetricsError (Store δ × IngestOutcome) := do
  let store ← ensurePeriod store event.period
  match store.eventReceipts.lookup event.eventId with
  | some stored => do
    require (stored.payloadSha256 = hash event.bytes) .hashConflict
    pure (store, .duplicate)
  | none => do
    let store ← event.storageSnapshots.foldlM (recordSnapshot event) (countEvent hash store event)
    pure (store, .inserted)

def recordEvent (store : Store δ) (event : UsageEvent) : Except MetricsError (Store δ × IngestOutcome) := do
  require event.Valid .invalidInput
  let store ← ensurePeriod store event.period
  ensureAccepting store event.period event.recordedAtMs
  ingestEvent hash store event

section Reserve

def Reservation.isActiveIn (periodStartMs : Int) (row : Reservation δ) : Bool :=
  row.periodStartMs = periodStartMs && row.status = .active

def reservedIn (store : Store δ) (periodStartMs : Int) (amount : Reservation δ → Nat) : Nat :=
  store.reservations.total fun _ row => if row.isActiveIn periodStartMs then amount row else 0

def usedIn (store : Store δ) (periodStartMs : Int) (amount : HourlyUsage → Nat) : Nat :=
  store.usageHourly.total fun key usage => if key.1 = periodStartMs then amount usage else 0

def storedBytes (store : Store δ) : Nat := store.storageCurrent.total fun _ size => size.logicalBytes

def ActiveUserClaim.isCounted (claim : ActiveUserClaim) : Bool := claim.active || 0 < claim.reservationCount

def countedSubjects (store : Store δ) (periodStartMs : Int) : Nat :=
  store.activeUserClaims.total fun key claim => if key.1 = periodStartMs && claim.isCounted then 1 else 0

def enforceLimit (enforced : Bool) (current requested limit : Nat) (allowance : Allowance) :
    Except MetricsError Unit :=
  require (!enforced || current + requested ≤ limit) (.limitExceeded allowance)

def ReservationRequest.row (request : ReservationRequest) : Reservation δ where
  requestSha256 := hash request.bytes
  projectId := request.projectId
  periodStartMs := request.period.startMs
  periodEndMs := request.period.endMs
  createdAtMs := request.createdAtMs
  expiresAtMs := request.expiresAtMs
  readUnits := request.readUnits
  writeUnits := request.writeUnits
  storageGrowthBytes := request.storageGrowthBytes
  subjectHash := request.activeSubjectHash
  mauClaimed := request.activeSubjectHash.isSome
  status := .active
  eventId := none
  resolvedAtMs := none

def checkAmounts (store : Store δ) (request : ReservationRequest) (limits : UsageLimits) : Except MetricsError Unit := do
  let start := request.period.startMs
  let reads ← readSum (usedIn store start (·.readUnits))
  let writes ← readSum (usedIn store start (·.writeUnits))
  let reservedReads ← readSum (reservedIn store start (·.readUnits))
  let reservedWrites ← readSum (reservedIn store start (·.writeUnits))
  let reservedStorage ← readSum (reservedIn store start (·.storageGrowthBytes))
  let storage ← readSum (storedBytes store)
  enforceLimit limits.enforceReadLimit (reads + reservedReads) request.readUnits limits.readUnits .readUnits
  enforceLimit limits.enforceWriteLimit (writes + reservedWrites) request.writeUnits limits.writeUnits .writeUnits
  enforceLimit limits.enforceStorageLimit (storage + reservedStorage) request.storageGrowthBytes limits.storageBytes
    .storageBytes

def claimSubject (store : Store δ) (request : ReservationRequest) (limits : UsageLimits) :
    Except MetricsError (Store δ) :=
  match request.activeSubjectHash with
  | none => pure store
  | some subject => do
    let key := (request.period.startMs, subject)
    let existing := store.activeUserClaims.lookup key
    enforceLimit (existing.isNone && limits.enforceMauLimit) (countedSubjects store request.period.startMs) 1
      limits.monthlyActiveUsers .monthlyActiveUsers
    pure { store with activeUserClaims := holdClaim store.activeUserClaims key request.period.endMs }

def reserve (store : Store δ) (request : ReservationRequest) (limits : UsageLimits) :
    Except MetricsError (Store δ × ReservationAdmission) := do
  require request.Valid .invalidInput
  let store ← ensurePeriod store request.period
  ensureAccepting store request.period request.createdAtMs
  let store ← expireReservations store request.createdAtMs
  match store.reservations.lookup request.reservationId with
  | some stored => do
    require (stored.requestSha256 = hash request.bytes) .hashConflict
    pure (store, .duplicate stored.status)
  | none => do
    checkAmounts store request limits
    let store ← claimSubject store request limits
    pure ({ store with reservations := store.reservations.insert request.reservationId (request.row hash) }, .reserved)

end Reserve

section Resolve

def releaseReservation (store : Store δ) (reservationId : List Char) (nowMs : Int) :
    Except MetricsError (Store δ × ReservationStatus) := do
  require (validateIdentifier reservationId && 0 ≤ nowMs) .invalidInput
  let row ← orError (store.reservations.lookup reservationId) .reservationNotFound
  if row.status = .active then do
    let store ← releaseMauClaim store row
    pure ({ store with
      reservations := store.reservations.insert reservationId
        { row with status := .released, resolvedAtMs := some nowMs } }, .released)
  else pure (store, row.status)

def Reservation.covers (row : Reservation δ) (event : UsageEvent) : Bool :=
  row.projectId = event.projectId && row.periodStartMs = event.period.startMs &&
    row.periodEndMs = event.period.endMs && event.readUnits ≤ row.readUnits && event.writeUnits ≤ row.writeUnits &&
    row.subjectHash = event.activeSubjectHash

def settleReservation (store : Store δ) (reservationId : List Char) (event : UsageEvent) :
    Except MetricsError (Store δ × IngestOutcome) := do
  require (validateIdentifier reservationId) .invalidInput
  require event.Valid .invalidInput
  let row ← orError (store.reservations.lookup reservationId) .reservationNotFound
  match row.status with
  | .settled => do
    require (row.eventId = some event.eventId) .reservationMismatch
    ingestEvent hash store event
  | .released => .error .reservationMismatch
  | .active | .expired => do
    require (row.covers event) .reservationMismatch
    ensureAccepting store event.period event.recordedAtMs
    let (store, outcome) ← ingestEvent hash store event
    let store ← activateMauClaim store row event.recordedAtMs
    pure ({ store with
      reservations := store.reservations.insert reservationId
        { row with status := .settled, eventId := some event.eventId, resolvedAtMs := some event.recordedAtMs } },
      outcome)

structure ReservationContext where
  projectId : ProjectId
  periodStartMs : Int
  periodEndMs : Int
  status : ReservationStatus

def reservationContext (store : Store δ) (reservationId : List Char) : Except MetricsError (Option ReservationContext) := do
  require (validateIdentifier reservationId) .invalidInput
  pure ((store.reservations.lookup reservationId).map fun row =>
    ⟨row.projectId, row.periodStartMs, row.periodEndMs, row.status⟩)

end Resolve

def sealPeriod (store : Store δ) (period : BillingPeriod) (nowMs : Int) : Except MetricsError (Store δ) := do
  require period.Valid .invalidInput
  require (period.cutoffMs ≤ nowMs) .invalidInput
  let store ← ensurePeriod store period
  let row ← orError (store.periods.lookup period.startMs) .unavailable
  if row.status.isShut then pure store
  else pure { store with periods := store.periods.insert period.startMs { row with status := .sealed } }

def storageResourceBytes (store : Store δ) (resourceId : List Char) : Except MetricsError Nat := do
  require (validateResourceId resourceId) .invalidInput
  pure (((store.storageCurrent.lookup resourceId).map (·.logicalBytes)).getD 0)

end Ffdb.Metrics
