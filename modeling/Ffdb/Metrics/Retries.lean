import Ffdb.Metrics.Ingestion

/-! One operation tried again and again under one receipt. Its reservation is found under the receipt's
identifier, and compared by a digest over what each attempt computes anew. -/
namespace Ffdb.Metrics
open Fallible
open DatabaseWorker (UsageReceipt Uuid)

variable {δ : Type} {hash : List UInt8 → δ}

section Reserve
variable {store store' : Store δ} {request request' : ReservationRequest} {limits : UsageLimits} {row : Reservation δ}

def Reservation.Ages (row row' : Reservation δ) : Prop :=
  row' = row ∨ row.status = .active ∧ ∃ nowMs, row' = { row with status := .expired, resolvedAtMs := some nowMs }

theorem Reservation.ages_expire (nowMs : Int) (row : Reservation δ) : row.Ages (row.expire nowMs) := by
  unfold Reservation.expire
  split
  · rename_i hdue
    simp only [Reservation.isDue, Bool.and_eq_true, decide_eq_true_eq] at hdue
    exact .inr ⟨hdue.1, nowMs, rfl⟩
  · exact .inl rfl

theorem lookup_swept (hclaims : ClaimsSubjects store) {nowMs : Int} (hexpire : expireReservations store nowMs = .ok store')
    (id : List Char) : store'.reservations.lookup id = (store.reservations.lookup id).map (Reservation.expire nowMs) ∧
      store'.eventReceipts = store.eventReceipts ∧ store'.periods = store.periods := by
  rw [expireReservations_eq hclaims] at hexpire
  obtain rfl := Except.ok.inj hexpire
  exact ⟨AList.lookup_mapValues _ _, rfl, rfl⟩

structure Passes (store store' : Store δ) (id : List Char) : Prop where
  reservation : ∀ row, store.reservations.lookup id = some row →
    ∃ row', store'.reservations.lookup id = some row' ∧ row.Ages row'
  none : store.reservations.lookup id = none → store'.reservations.lookup id = none
  receipt : store'.eventReceipts.lookup id = store.eventReceipts.lookup id

theorem Passes.of_same (hreservations : store'.reservations = store.reservations)
    (hreceipts : store'.eventReceipts = store.eventReceipts) (id : List Char) : Passes store store' id where
  reservation := fun row hrow => ⟨row, hreservations ▸ hrow, .inl rfl⟩
  none := fun hnone => hreservations ▸ hnone
  receipt := by rw [hreceipts]

theorem Reservation.Ages.trans {row' row'' : Reservation δ} (h : row.Ages row') (h' : row'.Ages row'') : row.Ages row'' := by
  obtain rfl | ⟨hactive, nowMs, rfl⟩ := h
  · exact h'
  · obtain rfl | ⟨hfalse, -⟩ := h'
    · exact .inr ⟨hactive, nowMs, rfl⟩
    · cases hfalse

theorem Passes.trans {store'' : Store δ} {id : List Char} (h : Passes store store' id) (h' : Passes store' store'' id) :
    Passes store store'' id where
  reservation := by
    intro row hrow
    obtain ⟨row', hrow', hages⟩ := h.reservation row hrow
    obtain ⟨row'', hrow'', hages'⟩ := h'.reservation row' hrow'
    exact ⟨row'', hrow'', hages.trans hages'⟩
  none := fun hnone => h'.none (h.none hnone)
  receipt := h'.receipt.trans h.receipt

theorem passes_ensured {period : BillingPeriod} (hensure : ensurePeriod store period = .ok store') (id : List Char) :
    Passes store store' id := by
  have hframe := ensurePeriod_frame hensure
  exact Passes.of_same (by rw [hframe]) (by rw [hframe]) id

theorem passes_swept (hclaims : ClaimsSubjects store) {nowMs : Int}
    (hexpire : expireReservations store nowMs = .ok store') (id : List Char) : Passes store store' id := by
  obtain ⟨hlookup, hreceipts, -⟩ := lookup_swept hclaims hexpire id
  refine ⟨fun row hrow => ⟨row.expire nowMs, ?_, row.ages_expire nowMs⟩, fun hnone => ?_, by rw [hreceipts]⟩
  · rw [hlookup, hrow, Option.map_some]
  · rw [hlookup, hnone, Option.map_none]

theorem ClaimsSubjects.ensured (hclaims : ClaimsSubjects store) {period : BillingPeriod}
    (hensure : ensurePeriod store period = .ok store') : ClaimsSubjects store' := by
  rw [ensurePeriod_frame hensure]
  exact hclaims

theorem claimSubject_congr (hsubject : request'.activeSubjectHash = request.activeSubjectHash)
    (hperiod : request'.period = request.period) : claimSubject store request' limits = claimSubject store request limits := by
  unfold claimSubject
  rw [hsubject, hperiod]

variable [DecidableEq δ] {admission : ReservationAdmission}

theorem passes_reserved (hclaims : ClaimsSubjects store)
    (hreserve : reserve hash store request limits = .ok (store', admission)) {id : List Char}
    (hid : request.reservationId ≠ id) : Passes store store' id := by
  obtain ⟨-, ensured, swept, hensure, -, hexpire, hrest⟩ := reserve_ok hreserve
  have hswept := (passes_ensured hensure id).trans (passes_swept (hclaims.ensured hensure) hexpire id)
  obtain ⟨_, -, -, rfl, -⟩ | ⟨-, -, -, claimed, hclaim, rfl⟩ := hrest
  · exact hswept
  · obtain rfl := claimSubject_ok hclaim
    refine hswept.trans ⟨fun row hrow => ⟨row, ?_, .inl rfl⟩, fun hnone => ?_, rfl⟩
    · exact (AList.lookup_insert_ne hid.symm).trans hrow
    · exact (AList.lookup_insert_ne hid.symm).trans hnone

/-- A reservation of another identifier is admitted as well, if that is not known. -/
theorem reserve_other (hreserve : reserve hash store request limits = .ok (store', admission))
    (hclaims : ClaimsSubjects store) (hfresh : store.reservations.lookup request.reservationId = none) {id : List Char}
    (hid : validateIdentifier id = true) (hnone : store.reservations.lookup id = none) :
    ∃ store'', reserve hash store { request with reservationId := id } limits = .ok (store'', .reserved) ∧
      store''.reservations.lookup id = some (ReservationRequest.row hash { request with reservationId := id }) ∧
      store''.eventReceipts = store.eventReceipts ∧ Registered store'' request.period := by
  obtain ⟨hvalid, ensured, swept, hensure, haccepting, hexpire, ⟨stored, hstored, -⟩ | ⟨-, hamounts, -, claimed, hclaim, -⟩⟩ :=
    reserve_ok hreserve
  · have hpasses := (passes_ensured hensure request.reservationId).trans
      (passes_swept (hclaims.ensured hensure) hexpire request.reservationId)
    rw [hpasses.none hfresh] at hstored
    cases hstored
  · have hswept := (passes_ensured hensure id).trans (passes_swept (hclaims.ensured hensure) hexpire id)
    have hvalid' : ({ request with reservationId := id } : ReservationRequest).Valid := ⟨hid, hvalid.2⟩
    have heq : reserve hash store { request with reservationId := id } limits = _ :=
      reserve_eq hvalid' hensure haccepting hexpire (hswept.none hnone) hamounts
    have hclaim' : claimSubject swept { request with reservationId := id } limits = .ok claimed :=
      (claimSubject_congr rfl rfl).trans hclaim
    rw [hclaim'] at heq
    refine ⟨_, heq, AList.lookup_insert _, ?_, ?_⟩
    · obtain ⟨-, hreceipts, -⟩ := lookup_swept (hclaims.ensured hensure) hexpire id
      rw [claimSubject_ok hclaim]
      exact hreceipts.trans (congrArg (·.eventReceipts) (ensurePeriod_frame hensure))
    · obtain ⟨-, -, hperiods⟩ := lookup_swept (hclaims.ensured hensure) hexpire id
      obtain ⟨prow, hprow, hend, hcutoff⟩ := registered_of_ensured hensure
      refine ⟨prow, ?_, hend, hcutoff⟩
      rw [claimSubject_ok hclaim]
      exact (congrArg (·.lookup request.period.startMs) hperiods).trans hprow

/-- A reservation that is known is compared, and found if it is the same. -/
theorem reserve_known (hclaims : ClaimsSubjects store) (hvalid : request.Valid)
    (hrow : store.reservations.lookup request.reservationId = some row)
    {ensured : Store δ} (hensure : ensurePeriod store request.period = .ok ensured)
    (haccepting : ensureAccepting ensured request.period request.createdAtMs = .ok ()) :
    (∃ result, reserve hash store request limits = .ok result) ↔ row.requestSha256 = hash request.bytes := by
  have hensured := hclaims.ensured hensure
  obtain ⟨swept, hexpire⟩ : ∃ swept, expireReservations ensured request.createdAtMs = .ok swept :=
    ⟨_, expireReservations_eq hensured _⟩
  have hpasses := (passes_ensured hensure request.reservationId).trans
    (passes_swept hensured hexpire request.reservationId)
  obtain ⟨row', hrow', hages⟩ := hpasses.reservation row hrow
  have hdigest : row'.requestSha256 = row.requestSha256 := by
    obtain rfl | ⟨-, nowMs, rfl⟩ := hages <;> rfl
  constructor
  · rintro ⟨⟨store', admission⟩, hreserve⟩
    obtain ⟨-, ensured', swept', hensure', -, hexpire', ⟨stored, hstored, hsame, -⟩ | ⟨hnone, -⟩⟩ := reserve_ok hreserve
    all_goals
      obtain rfl := Except.ok.inj (hensure.symm.trans hensure')
      obtain rfl := Except.ok.inj (hexpire.symm.trans hexpire')
    · obtain rfl := Option.some.inj (hrow'.symm.trans hstored)
      exact hdigest.symm.trans hsame
    · rw [hrow'] at hnone
      cases hnone
  · intro hsame
    refine ⟨(swept, .duplicate row'.status), ?_⟩
    unfold reserve
    rw [hensure]
    simp only [require, hvalid, decide_true, if_true, haccepting, hexpire, bind, Except.bind]
    simp only [hrow', hdigest, hsame, decide_true, if_true]
    rfl

end Reserve

section Prepare
variable {organization : Organization} {context : BillingContext} {projectId : ProjectId} {receiptId : Uuid}
  {plan : UsagePlan} {nowMs : Int} {configuredMaxBytes : Nat} {store store' : Store δ} {mode : Option (List Char)}
  {prepared : PreparedUsage}

structure Admissible (organization : Organization) (context : BillingContext) (projectId : ProjectId)
    (configuredMaxBytes : Nat) (store : Store δ) (mode : Option (List Char)) (subjectHash : Option SubjectHash)
    (total : UsageSummary) (bytes : Nat) : Prop where
  unblocked : context.reportingBlocked = false
  subject : subjectOf organization context.period mode = .ok subjectHash
  summed : summary store context.period = .ok total
  bounded : ∃ current, storageResourceBytes store (databaseResource projectId) = .ok current ∧
    maxDatabaseBytes context configuredMaxBytes total.storageBytesAtEnd current = .ok bytes

variable [DecidableEq δ]

theorem prepare_ok_iff (hmutating : plan.mutating = true) :
    prepare hash organization context projectId receiptId plan nowMs configuredMaxBytes store mode = .ok (store', prepared) ↔
      ∃ subjectHash total bytes, Admissible organization context projectId configuredMaxBytes store mode subjectHash total
          bytes ∧
        (∃ admission, reserve hash store (operationRequest context projectId receiptId plan nowMs subjectHash
          (remainingBytes context total.storageBytesAtEnd)) (operationLimits context) = .ok (store', admission)) ∧
        prepared = ⟨context.period, projectId, some (uuidText receiptId), subjectHash, bytes⟩ := by
  simp only [prepare, hmutating, bind_ok_iff, require_ok_iff, mapError_ok_iff, pure_ok_iff, if_true, Prod.exists,
    Prod.mk.injEq, Bool.and_true, Bool.not_eq_true']
  constructor
  · rintro ⟨_, hunblocked, subjectHash, hsubject, total, htotal, current, hcurrent, bytes, hbytes, _, admission, hreserve,
      rfl, rfl⟩
    exact ⟨subjectHash, total, bytes, ⟨hunblocked, hsubject, htotal, current, hcurrent, hbytes⟩, ⟨admission, hreserve⟩, rfl⟩
  · rintro ⟨subjectHash, total, bytes, ⟨hunblocked, hsubject, htotal, current, hcurrent, hbytes⟩, ⟨admission, hreserve⟩, rfl⟩
    exact ⟨(), hunblocked, subjectHash, hsubject, total, htotal, current, hcurrent, bytes, hbytes, _, admission, hreserve,
      rfl, rfl⟩

end Prepare

section Operation

/-- A mutating operation under one idempotency key, with the receipt that the worker keeps of it. -/
structure Operation where
  organization : Organization
  projectId : ProjectId
  receiptId : Uuid
  mode : Option (List Char)
  plan : UsagePlan
  receipt : UsageReceipt
  mutating : plan.mutating = true
  own : receipt.receiptId = receiptId
  reads : receipt.reads ≤ plan.readUnits
  writes : receipt.writes ≤ plan.writeUnits
  bytes : receipt.logicalDatabaseBytes ≤ i64Max

def Operation.id (operation : Operation) : List Char := uuidText operation.receiptId

inductive Move where
  | other (call : StoreCall)
  | prepare (context : BillingContext) (nowMs : Int) (configuredMaxBytes : Nat)
  /-- The worker fails, and the reservation is released. -/
  | workerFailed (nowMs : Int)
  /-- The receipt does not get to the metrics, and the reservation is kept. -/
  | ingestFailed
  /-- The worker returns its receipt, and it is ingested. -/
  | returned (nowMs : Int)

structure Trial (δ : Type) where
  world : World δ
  /-- What the attempt under way was prepared with. -/
  prepared : Option PreparedUsage := none

def Operation.Foreign (operation : Operation) : StoreCall → Prop
  | .reserve request _ => request.reservationId ≠ operation.id
  | .release reservationId _ => reservationId ≠ operation.id
  | .settle reservationId event => reservationId ≠ operation.id ∧ event.eventId ≠ operation.id
  | .record event => event.eventId ≠ operation.id
  | .close _ _ => True

variable [DecidableEq δ] (hash)

def Operation.prepare (operation : Operation) (context : BillingContext) (nowMs : Int) (configuredMaxBytes : Nat)
    (store : Store δ) : Except MeteringError (Store δ × PreparedUsage) :=
  Metrics.prepare hash operation.organization context operation.projectId operation.receiptId operation.plan nowMs
    configuredMaxBytes store operation.mode

def Operation.step (operation : Operation) (trial : Trial δ) : Move → Trial δ
  | .other call => { trial with world := Metrics.step hash trial.world call }
  | .prepare context nowMs configuredMaxBytes =>
    match operation.prepare hash context nowMs configuredMaxBytes trial.world.store with
    | .ok (store, prepared) => ⟨{ trial.world with store }, some prepared⟩
    | .error _ => ⟨trial.world, none⟩
  | .workerFailed nowMs =>
    match trial.prepared with
    | some prepared => ⟨{ trial.world with store := release prepared nowMs trial.world.store }, none⟩
    | none => trial
  | .ingestFailed => ⟨trial.world, none⟩
  | .returned nowMs =>
    match trial.prepared with
    | some prepared =>
      match ingest hash prepared operation.receipt nowMs trial.world.store with
      | .ok (store, outcome) =>
        ⟨⟨store, trial.world.events ++ outcome.events (receiptEvent prepared operation.receipt nowMs)⟩, none⟩
      | .error _ => ⟨trial.world, none⟩
    | none => trial

def Operation.AdmittedFirst (operation : Operation) (context : BillingContext) (nowMs : Int) (configuredMaxBytes : Nat)
    (store : Store δ) : Prop :=
  ∃ receiptId, store.reservations.lookup (uuidText receiptId) = none ∧ ∃ result,
    Metrics.prepare hash operation.organization context operation.projectId receiptId operation.plan nowMs
      configuredMaxBytes store operation.mode = .ok result

/-- An attempt is admitted whenever a first one would be, and a receipt that the worker returns is settled. -/
def Operation.GoesWell (operation : Operation) (trial : Trial δ) : Move → Prop
  | .prepare context nowMs configuredMaxBytes =>
    operation.AdmittedFirst hash context nowMs configuredMaxBytes trial.world.store →
      ∃ result, operation.prepare hash context nowMs configuredMaxBytes trial.world.store = .ok result
  | .returned nowMs => ∀ prepared, trial.prepared = some prepared →
      ∃ result, ingest hash prepared operation.receipt nowMs trial.world.store = .ok result
  | _ => True

/-- An attempt asks for what the reservation was made for, in the same millisecond; and a receipt finds the
reservation not released, the worker's clock not ahead, and, if it was settled, the clock of that. -/
def Operation.Repeats (operation : Operation) (trial : Trial δ) : Move → Prop
  | .prepare context nowMs configuredMaxBytes => ∀ row total,
      trial.world.store.reservations.lookup operation.id = some row →
      operation.AdmittedFirst hash context nowMs configuredMaxBytes trial.world.store →
      summary trial.world.store context.period = .ok total →
      row.periodStartMs = context.period.startMs ∧ row.createdAtMs = nowMs ∧
        row.storageGrowthBytes = remainingBytes context total.storageBytesAtEnd
  | .returned nowMs => ∀ prepared row periodRow, trial.prepared = some prepared →
      trial.world.store.reservations.lookup operation.id = some row →
      trial.world.store.periods.lookup prepared.period.startMs = some periodRow →
      prepared.period.clamp operation.receipt.recordedAtMs ≤ nowMs ∧ nowMs ≤ prepared.period.cutoffMs ∧
        row.status ≠ .released ∧ (row.status = .settled → row.resolvedAtMs = some nowMs) ∧
        (row.status ≠ .settled → periodRow.status.isShut = false)
  | _ => True

/-- The events have the operation once, and what they come to is what the summaries say. -/
def Operation.CountedOnce (operation : Operation) (world : World δ) : Prop :=
  Tallied world ∧ ∃ event, world.events.filter (·.eventId = operation.id) = [event] ∧
    event.projectId = operation.projectId ∧ event.readUnits = operation.receipt.reads ∧
    event.writeUnits = operation.receipt.writes

end Operation

section Invariant

theorem filter_eq_singleton {events : List UsageEvent} (hdistinct : (events.map (·.eventId)).Nodup) {event : UsageEvent}
    (hmem : event ∈ events) {id : List Char} (hid : event.eventId = id) :
    events.filter (·.eventId = id) = [event] := by
  induction events with
  | nil => cases hmem
  | cons first rest ih =>
    rw [List.map_cons, List.nodup_cons] at hdistinct
    obtain rfl | hmem := List.mem_cons.mp hmem
    · rw [List.filter_cons_of_pos (by simpa using hid), List.filter_eq_nil_iff.mpr]
      intro other hother
      have hne : other.eventId ≠ id := by
        intro hsame
        exact hdistinct.1 (List.mem_map.mpr ⟨other, hother, hsame.trans hid.symm⟩)
      simpa using hne
    · have hne : first.eventId ≠ id := by
        intro hsame
        exact hdistinct.1 (List.mem_map.mpr ⟨event, hmem, hid.trans hsame.symm⟩)
      rw [List.filter_cons_of_neg (by simpa using hne)]
      exact ih hdistinct.2 hmem

variable {operation : Operation} {trial : Trial δ} {request : ReservationRequest} {row : Reservation δ}

def Operation.event (operation : Operation) (request : ReservationRequest) (nowMs : Int) : UsageEvent :=
  receiptEvent ⟨request.period, operation.projectId, some operation.id, request.activeSubjectHash, 0⟩ operation.receipt
    nowMs

/-- The operation has a reservation, which an attempt made, and an event if that is settled. -/
structure Operation.Held (hash : List UInt8 → δ) (operation : Operation) (trial : Trial δ)
    (request : ReservationRequest) (row : Reservation δ) : Prop where
  made : ∃ context nowMs subjectHash growth, request = operationRequest context operation.projectId operation.receiptId
    operation.plan nowMs subjectHash growth
  subject : subjectOf operation.organization request.period operation.mode = .ok request.activeSubjectHash
  valid : request.Valid
  registered : Registered trial.world.store request.period
  stored : trial.world.store.reservations.lookup operation.id = some row
  same : row = { request.row hash with
    status := row.status, eventId := row.eventId, resolvedAtMs := row.resolvedAtMs }
  settled : row.status = .settled → row.eventId = some operation.id ∧
    ∃ nowMs, row.resolvedAtMs = some nowMs ∧ operation.event request nowMs ∈ trial.world.events
  unsettled : row.status ≠ .settled → trial.world.store.eventReceipts.lookup operation.id = none
  prepared : ∀ prepared, trial.prepared = some prepared → ∃ bytes,
    prepared = ⟨request.period, operation.projectId, some operation.id, request.activeSubjectHash, bytes⟩

structure Operation.Untouched (operation : Operation) (trial : Trial δ) : Prop where
  reservation : trial.world.store.reservations.lookup operation.id = none
  receipt : trial.world.store.eventReceipts.lookup operation.id = none
  prepared : trial.prepared = none

structure Operation.Kept (hash : List UInt8 → δ) (operation : Operation) (trial : Trial δ) : Prop where
  sound : Sound hash trial.world
  tallied : Tallied trial.world
  attempts : operation.Untouched trial ∨ ∃ request row, operation.Held hash trial request row

theorem Operation.valid_id (operation : Operation) : validateIdentifier operation.id = true := valid_uuidText _

theorem Operation.Held.requestId (h : operation.Held hash trial request row) : request.reservationId = operation.id := by
  obtain ⟨context, nowMs, subjectHash, growth, rfl⟩ := h.made
  rfl

/-- What others do leaves the attempts as they are. -/
theorem Operation.Held.passes (h : operation.Held hash trial request row) (world : World δ)
    (hpasses : Passes trial.world.store world.store operation.id) (hkept : PeriodsKept trial.world.store world.store)
    (hevents : ∀ event ∈ trial.world.events, event ∈ world.events) :
    ∃ row', operation.Held hash { trial with world } request row' := by
  obtain ⟨row', hrow', hages⟩ := hpasses.reservation row h.stored
  have hstatus : (row'.status = .settled ↔ row.status = .settled) ∧ (row.status = .settled → row' = row) ∧
      row' = { request.row hash with status := row'.status, eventId := row'.eventId, resolvedAtMs := row'.resolvedAtMs } := by
    obtain rfl | ⟨hactive, nowMs, rfl⟩ := hages
    · exact ⟨Iff.rfl, fun _ => rfl, h.same⟩
    · refine ⟨?_, ?_, ?_⟩
      · simp [hactive]
      · simp [hactive]
      · rw [h.same]
  obtain ⟨hsettled, hsame, hmade⟩ := hstatus
  refine ⟨row', h.made, h.subject, h.valid, hkept.registered h.registered, hrow', hmade, ?_, ?_, h.prepared⟩
  · intro hnow
    obtain rfl := hsame (hsettled.mp hnow)
    obtain ⟨hevent, nowMs, hresolved, hmem⟩ := h.settled hnow
    exact ⟨hevent, nowMs, hresolved, hevents _ hmem⟩
  · intro hnow
    exact hpasses.receipt.trans (h.unsettled fun hbefore => hnow (hsettled.mpr hbefore))

theorem Operation.Kept.passes (h : operation.Kept hash trial) {world : World δ} (hsound : Sound hash world)
    (hpasses : Passes trial.world.store world.store operation.id) (hkept : PeriodsKept trial.world.store world.store)
    (hadds : Adds trial.world world) : operation.Kept hash { trial with world } := by
  refine ⟨hsound, h.tallied.adds hadds, ?_⟩
  obtain hnone | ⟨request, row, hheld⟩ := h.attempts
  · exact .inl ⟨hpasses.none hnone.reservation, hpasses.receipt.trans hnone.receipt, hnone.prepared⟩
  · refine .inr ⟨request, hheld.passes world hpasses hkept ?_⟩
    intro event hevent
    obtain ⟨-, hsame⟩ | ⟨other, -, hsame⟩ := hadds
    · exact hsame ▸ hevent
    · exact hsame ▸ List.mem_append_left _ hevent

theorem Operation.Kept.givenUp (h : operation.Kept hash trial) : operation.Kept hash ⟨trial.world, none⟩ := by
  refine ⟨h.sound, h.tallied, h.attempts.imp (fun hnone => ⟨hnone.reservation, hnone.receipt, rfl⟩) ?_⟩
  rintro ⟨request, row, hheld⟩
  exact ⟨request, row, { hheld with prepared := fun _ hfalse => nomatch hfalse }⟩

end Invariant

section Foreign
variable {operation : Operation} {trial : Trial δ} {store store' : Store δ} {event : UsageEvent}
  {outcome : IngestOutcome} {id : List Char}

theorem passes_insert {reservations : Table (List Char) (Reservation δ)} {claims : Table ClaimKey ActiveUserClaim}
    {other : List Char} {row : Reservation δ} (hsame : reservations = store.reservations) (hid : other ≠ id) :
    Passes store { store with activeUserClaims := claims, reservations := reservations.insert other row } id := by
  subst hsame
  exact ⟨fun row' hrow' => ⟨row', (AList.lookup_insert_ne hid.symm).trans hrow', .inl rfl⟩,
    fun hnone => (AList.lookup_insert_ne hid.symm).trans hnone, rfl⟩

variable [DecidableEq δ]

theorem passes_ingested (hingest : ingestEvent hash store event = .ok (store', outcome)) (hid : event.eventId ≠ id) :
    Passes store store' id := by
  obtain ⟨middle, hensure, ⟨-, -, -, rfl, -⟩ | ⟨-, -, hfold⟩⟩ := ingestEvent_ok hingest
  · exact passes_ensured hensure id
  · refine (passes_ensured hensure id).trans ?_
    rw [recordSnapshots_frame hfold]
    exact ⟨fun row hrow => ⟨row, hrow, .inl rfl⟩, fun hnone => hnone, AList.lookup_insert_ne hid.symm⟩

theorem passes_foreign {world : World δ} (hclaims : ClaimsSubjects world.store) {call : StoreCall}
    (hforeign : operation.Foreign call) : Passes world.store (step hash world call).store operation.id := by
  refine step_keeps (P := fun world' => Passes world.store world'.store operation.id) (Passes.of_same rfl rfl _)
    fun world' hdone => ?_
  cases hdone with
  | reserve hreserve => exact passes_reserved hclaims hreserve hforeign
  | @release id _ _ _ hrelease =>
    obtain ⟨row, hrow, ⟨-, -, released, hclaim, rfl⟩ | ⟨-, -, rfl⟩⟩ := releaseReservation_ok hrelease
    · rw [releaseMauClaim_eq (hclaims id row hrow)] at hclaim
      obtain rfl := Except.ok.inj hclaim
      exact passes_insert rfl hforeign
    · exact Passes.of_same rfl rfl _
  | @settle id _ _ _ hsettle =>
    obtain ⟨-, row, hrow, ⟨-, -, hingest⟩ | ⟨-, -, -, ingested, activated, hingest, hactivate, rfl⟩⟩ :=
      settleReservation_ok hsettle
    · exact passes_ingested hingest hforeign.2
    · rw [activateMauClaim_eq (hclaims id row hrow)] at hactivate
      obtain rfl := Except.ok.inj hactivate
      exact (passes_ingested hingest hforeign.2).trans (passes_insert rfl hforeign.1)
  | record hrecord =>
    obtain ⟨-, middle, hensure, -, hingest⟩ := recordEvent_ok hrecord
    exact (passes_ensured hensure _).trans (passes_ingested hingest hforeign)
  | close hclose =>
    have hframe := sealPeriod_frame hclose
    exact Passes.of_same (by rw [hframe]) (by rw [hframe]) _

theorem Operation.Kept.foreign (hinj : Function.Injective hash) (h : operation.Kept hash trial) {call : StoreCall}
    (hforeign : operation.Foreign call) : operation.Kept hash (operation.step hash trial (.other call)) :=
  h.passes (h.sound.step hinj call) (passes_foreign h.sound.exact.claims hforeign) (step_kept h.sound.exact.claims call)
    (adds_step hinj h.sound call)

end Foreign

section Attempt
variable {operation : Operation} {trial : Trial δ} {request : ReservationRequest} {row : Reservation δ}
  {context : BillingContext} {nowMs : Int} {configuredMaxBytes : Nat}

theorem BillingPeriod.eq_of_registered {store ensured : Store δ} {period period' : BillingPeriod}
    (hregistered : Registered store period) (hensure : ensurePeriod store period' = .ok ensured)
    (hstart : period.startMs = period'.startMs) : period = period' := by
  obtain ⟨row, hrow, hend, hcutoff⟩ := hregistered
  obtain ⟨-, row', -, hend', hcutoff', ⟨hrow', -⟩ | ⟨hnone, -, -⟩⟩ := ensurePeriod_ok hensure
  · rw [hstart] at hrow
    obtain rfl := Option.some.inj (hrow.symm.trans hrow')
    have hends := hend.symm.trans hend'
    have hcutoffs := hcutoff.symm.trans hcutoff'
    cases period
    cases period'
    congr
  · rw [hstart, hnone] at hrow
    cases hrow

/-- Requests of one operation are the same when their periods, times, bounds and subjects are. -/
theorem Operation.Held.bytes_iff (h : operation.Held hash trial request row) {growth : Nat}
    {subjectHash : Option SubjectHash}
    (hvalid : (operationRequest context operation.projectId operation.receiptId operation.plan nowMs subjectHash
      growth).Valid) :
    request.bytes = (operationRequest context operation.projectId operation.receiptId operation.plan nowMs subjectHash
        growth).bytes ↔
      request.period = context.period ∧ request.createdAtMs = nowMs ∧ request.storageGrowthBytes = growth ∧
        request.activeSubjectHash = subjectHash := by
  constructor
  · intro hbytes
    exact ReservationRequest.bytes_inj h.valid hvalid h.requestId hbytes
  · rintro ⟨hperiod, rfl, rfl, rfl⟩
    obtain ⟨context', nowMs', subjectHash', growth', rfl⟩ := h.made
    have hsame : context'.period = context.period := hperiod
    unfold operationRequest
    rw [hsame]

variable [DecidableEq δ]

/-- An attempt is admitted whenever a first one would be exactly when it asks for the same in the same millisecond. -/
theorem Operation.Kept.prepare_iff (hinj : Function.Injective hash) (h : operation.Kept hash trial) :
    operation.GoesWell hash trial (.prepare context nowMs configuredMaxBytes) ↔
      operation.Repeats hash trial (.prepare context nowMs configuredMaxBytes) := by
  refine Iff.trans (forall_congr' fun hfirst => ?_)
    (⟨fun hall row total hrow hfirst => hall hfirst row total hrow, fun hall hfirst row total hrow => hall row total hrow hfirst⟩ :
      (operation.AdmittedFirst hash context nowMs configuredMaxBytes trial.world.store →
        ∀ row total, trial.world.store.reservations.lookup operation.id = some row →
          summary trial.world.store context.period = .ok total → row.periodStartMs = context.period.startMs ∧
            row.createdAtMs = nowMs ∧ row.storageGrowthBytes = remainingBytes context total.storageBytesAtEnd) ↔ _)
  obtain ⟨receiptId, hfresh, ⟨store', prepared⟩, hprepare⟩ := hfirst
  obtain ⟨subjectHash, total, bytes, hadmissible, ⟨admission, hreserve⟩, -⟩ :=
    (prepare_ok_iff operation.mutating).mp hprepare
  obtain ⟨hvalid, ensured, swept, hensure, haccepting, -⟩ := reserve_ok hreserve
  have hvalid' : (operationRequest context operation.projectId operation.receiptId operation.plan nowMs subjectHash
      (remainingBytes context total.storageBytesAtEnd)).Valid := ⟨operation.valid_id, hvalid.2⟩
  have hiff : (∃ result, operation.prepare hash context nowMs configuredMaxBytes trial.world.store = .ok result) ↔
      ∃ result, reserve hash trial.world.store (operationRequest context operation.projectId operation.receiptId
        operation.plan nowMs subjectHash (remainingBytes context total.storageBytesAtEnd)) (operationLimits context) =
          .ok result := by
    constructor
    · rintro ⟨⟨store'', prepared'⟩, hprepared'⟩
      obtain ⟨subjectHash', total', bytes', hadmissible', ⟨admission', hreserve'⟩, -⟩ :=
        (prepare_ok_iff operation.mutating).mp hprepared'
      obtain rfl := Except.ok.inj (hadmissible.subject.symm.trans hadmissible'.subject)
      obtain rfl := Except.ok.inj (hadmissible.summed.symm.trans hadmissible'.summed)
      exact ⟨_, hreserve'⟩
    · rintro ⟨⟨store'', admission'⟩, hreserve'⟩
      exact ⟨_, (prepare_ok_iff operation.mutating).mpr ⟨subjectHash, total, bytes, hadmissible, ⟨admission', hreserve'⟩, rfl⟩⟩
  rw [hiff]
  obtain hnone | ⟨request, row, hheld⟩ := h.attempts
  · refine iff_of_true ?_ ?_
    · obtain ⟨store'', hother, -⟩ := reserve_other hreserve h.sound.exact.claims hfresh operation.valid_id hnone.reservation
      exact ⟨_, hother⟩
    · intro row total hrow
      rw [hnone.reservation] at hrow
      cases hrow
  · have hdigest : row.requestSha256 = hash request.bytes := by rw [hheld.same]; rfl
    have hstart : row.periodStartMs = request.period.startMs := by rw [hheld.same]; rfl
    have hcreated : row.createdAtMs = request.createdAtMs := by rw [hheld.same]; rfl
    have hgrowth : row.storageGrowthBytes = request.storageGrowthBytes := by rw [hheld.same]; rfl
    rw [reserve_known h.sound.exact.claims hvalid' hheld.stored hensure haccepting, hdigest, hinj.eq_iff,
      hheld.bytes_iff hvalid']
    constructor
    · rintro ⟨hperiod, hsame, hsame', -⟩ row' total' hrow' htotal'
      obtain rfl := Option.some.inj (hheld.stored.symm.trans hrow')
      obtain rfl := Except.ok.inj (hadmissible.summed.symm.trans htotal')
      exact ⟨hstart.trans (congrArg (·.startMs) hperiod), hcreated.trans hsame, hgrowth.trans hsame'⟩
    · intro hall
      obtain ⟨hstart', hcreated', hgrowth'⟩ := hall row total hheld.stored hadmissible.summed
      have hperiod : request.period = context.period :=
        BillingPeriod.eq_of_registered hheld.registered hensure (hstart.symm.trans hstart')
      refine ⟨hperiod, hcreated.symm.trans hcreated', hgrowth.symm.trans hgrowth', ?_⟩
      have hsubject := hheld.subject
      rw [hperiod] at hsubject
      exact Except.ok.inj (hsubject.symm.trans hadmissible.subject)

theorem Operation.Untouched.reserved {store' : Store δ} {admission : ReservationAdmission}
    (hclaims : ClaimsSubjects trial.world.store) (h : operation.Untouched trial)
    (hreserve : reserve hash trial.world.store request (operationLimits context) = .ok (store', admission))
    (hid : request.reservationId = operation.id) :
    store'.reservations.lookup operation.id = some (request.row hash) ∧
      store'.eventReceipts.lookup operation.id = none ∧ Registered store' request.period := by
  obtain ⟨-, ensured, swept, hensure, -, hexpire, hrest⟩ := reserve_ok hreserve
  have hensured := hclaims.ensured hensure
  have hpasses := (passes_ensured hensure operation.id).trans (passes_swept hensured hexpire operation.id)
  obtain ⟨stored, hstored, -⟩ | ⟨-, -, -, claimed, hclaim, rfl⟩ := hrest
  · rw [hid, hpasses.none h.reservation] at hstored
    cases hstored
  · obtain ⟨-, hreceipts, hperiods⟩ := lookup_swept hensured hexpire operation.id
    have hregistered : Registered swept request.period := by
      rw [Registered, hperiods]
      exact registered_of_ensured hensure
    obtain rfl := claimSubject_ok hclaim
    refine ⟨?_, hpasses.receipt.trans h.receipt, hregistered⟩
    rw [← hid]
    exact AList.lookup_insert _

theorem Operation.Kept.prepare (hinj : Function.Injective hash) (h : operation.Kept hash trial) :
    operation.Kept hash (operation.step hash trial (.prepare context nowMs configuredMaxBytes)) := by
  unfold Operation.step
  dsimp only
  cases hprepare : operation.prepare hash context nowMs configuredMaxBytes trial.world.store with
  | error _ => exact h.givenUp
  | ok result =>
    obtain ⟨store', prepared⟩ := result
    obtain ⟨subjectHash, total, bytes, hadmissible, ⟨admission, hreserve⟩, rfl⟩ :=
      (prepare_ok_iff operation.mutating).mp hprepare
    have hsound := h.sound.reserved hreserve
    have hadds : Adds trial.world { trial.world with store := store' } :=
      .inl ⟨sameCounts_reserved h.sound.exact.claims hreserve, rfl⟩
    refine ⟨hsound, h.tallied.adds hadds, .inr ?_⟩
    have hvalid := (reserve_ok hreserve).1
    obtain huntouched | ⟨request, row, hheld⟩ := h.attempts
    · obtain ⟨hrow, hreceipt, hregistered⟩ := huntouched.reserved h.sound.exact.claims hreserve rfl
      refine ⟨_, _, { made := ⟨context, nowMs, subjectHash, _, rfl⟩, subject := hadmissible.subject, valid := hvalid,
                      registered := hregistered, stored := hrow, same := rfl, settled := ?_,
                      unsettled := fun _ => hreceipt, prepared := ?_ }⟩
      · intro hfalse
        cases hfalse
      · intro prepared hsome
        exact ⟨bytes, (Option.some.inj hsome).symm⟩
    · have hknown : ∃ result, reserve hash trial.world.store _ (operationLimits context) = .ok result := ⟨_, hreserve⟩
      obtain ⟨-, ensured, swept, hensure, haccepting, hexpire, ⟨stored, hstored, hsame, rfl, -⟩ | ⟨hfresh, -⟩⟩ :=
        reserve_ok hreserve
      · rw [reserve_known h.sound.exact.claims hvalid hheld.stored hensure haccepting] at hknown
        have hdigest : row.requestSha256 = hash request.bytes := by rw [hheld.same]; rfl
        obtain ⟨hperiod, -, -, hsubject⟩ := (hheld.bytes_iff hvalid).mp (hinj (hdigest.symm.trans hknown))
        have hpasses := (passes_ensured hensure operation.id).trans
          (passes_swept (h.sound.exact.claims.ensured hensure) hexpire operation.id)
        obtain ⟨row', hheld'⟩ := hheld.passes { trial.world with store := store' } hpasses
          (reserve_kept h.sound.exact.claims hreserve) fun _ hevent => hevent
        refine ⟨request, row', { hheld' with prepared := ?_ }⟩
        intro prepared hsome
        refine ⟨bytes, ?_⟩
        rw [← Option.some.inj hsome, hperiod, hsubject]
        rfl
      · obtain ⟨row', hrow', -⟩ := ((passes_ensured hensure operation.id).trans
          (passes_swept (h.sound.exact.claims.ensured hensure) hexpire operation.id)).reservation row hheld.stored
        exact absurd (hfresh.symm.trans hrow') nofun

theorem Operation.Kept.workerFailed (h : operation.Kept hash trial) :
    operation.Kept hash (operation.step hash trial (.workerFailed nowMs)) := by
  unfold Operation.step
  cases hprepared : trial.prepared with
  | none => simpa only [hprepared] using h
  | some prepared =>
    obtain hnone | ⟨request, row, hheld⟩ := h.attempts
    · rw [hnone.prepared] at hprepared
      cases hprepared
    · obtain ⟨bytes, rfl⟩ := hheld.prepared prepared hprepared
      dsimp only [release]
      cases hrelease : releaseReservation trial.world.store operation.id nowMs with
      | error _ => exact h.givenUp
      | ok result =>
        obtain ⟨store', status⟩ := result
        have hsound := h.sound.released hrelease
        have hadds : Adds trial.world { trial.world with store := store' } :=
          .inl ⟨sameCounts_released h.sound.exact.claims hrelease, rfl⟩
        have hperiods := releaseReservation_kept h.sound.exact.claims hrelease
        refine ⟨hsound, h.tallied.adds hadds, .inr ?_⟩
        obtain ⟨row', hrow', ⟨hactive, -, released, hclaim, rfl⟩ | ⟨-, -, rfl⟩⟩ := releaseReservation_ok hrelease
        · obtain rfl := Option.some.inj (hheld.stored.symm.trans hrow')
          rw [releaseMauClaim_eq (h.sound.exact.claims operation.id row hrow')] at hclaim
          obtain rfl := Except.ok.inj hclaim
          refine ⟨request, _, ⟨hheld.made, hheld.subject, hheld.valid, hperiods.registered hheld.registered,
            AList.lookup_insert _, ?_, fun hfalse => (nomatch hfalse), ?_, fun _ hfalse => nomatch hfalse⟩⟩
          · rw [hheld.same]
          · intro _
            exact hheld.unsettled (by simp [hactive])
        · exact ⟨request, row, { hheld with prepared := fun _ hfalse => nomatch hfalse }⟩

end Attempt

section Return
variable {operation : Operation} {trial : Trial δ} {request : ReservationRequest} {row : Reservation δ} {nowMs : Int}

theorem Operation.eventId (operation : Operation) (request : ReservationRequest) (nowMs : Int) :
    (operation.event request nowMs).eventId = operation.id := by
  rw [Operation.id, ← operation.own]
  rfl

theorem Operation.Held.valid_iff (h : operation.Held hash trial request row) : (operation.event request nowMs).Valid ↔
    request.period.clamp operation.receipt.recordedAtMs ≤ nowMs ∧ nowMs ≤ request.period.cutoffMs := by
  have hunits : operation.receipt.reads ≤ i64Max ∧ operation.receipt.writes ≤ i64Max := by
    obtain ⟨-, -, -, hreads, hwrites, -⟩ := h.valid
    obtain ⟨context, nowMs, subjectHash, growth, rfl⟩ := h.made
    exact ⟨operation.reads.trans hreads, operation.writes.trans hwrites⟩
  have hperiod := h.valid.2.1
  obtain ⟨hstart, hend⟩ := clamp_mem hperiod operation.receipt.recordedAtMs
  constructor
  · intro hvalid
    exact ⟨hvalid.2.2.1.2.2.1, hvalid.2.2.1.2.2.2⟩
  · rintro ⟨hbefore, hcutoff⟩
    refine ⟨valid_uuidText _, hperiod, ⟨hstart, hend, hbefore, hcutoff⟩, (by decide : 1 ≤ 64), ?_,
      List.nodup_singleton _, hunits.1, hunits.2, ?_⟩
    · intro snapshot hsnapshot
      obtain rfl := List.mem_singleton.mp hsnapshot
      exact valid_databaseResource _
    · intro snapshot hsnapshot
      obtain rfl := List.mem_singleton.mp hsnapshot
      exact operation.bytes

theorem Operation.Held.covers (h : operation.Held hash trial request row) :
    row.covers (operation.event request nowMs) = true := by
  have hreads := operation.reads
  have hwrites := operation.writes
  obtain ⟨context, nowMs', subjectHash, growth, hmade⟩ := h.made
  rw [h.same, hmade]
  simp [Reservation.covers, Operation.event, receiptEvent, ReservationRequest.row, operationRequest, hreads, hwrites]

/-- A settled operation has its receipt. -/
theorem Operation.Held.receipt (h : operation.Held hash trial request row) (hsound : Sound hash trial.world)
    (hsettled : row.status = .settled) : ∃ recordedAtMs stored, row.resolvedAtMs = some recordedAtMs ∧
      (operation.event request recordedAtMs).Valid ∧
      trial.world.store.eventReceipts.lookup operation.id = some stored ∧
      stored.payloadSha256 = hash (operation.event request recordedAtMs).bytes := by
  obtain ⟨-, recordedAtMs, hresolved, hmem⟩ := h.settled hsettled
  obtain ⟨hvalid, -, stored, hstored, hdigest⟩ := hsound.receipted _ hmem
  rw [operation.eventId] at hstored
  exact ⟨recordedAtMs, stored, hresolved, hvalid, hstored, hdigest⟩

variable [DecidableEq δ]

/-- A receipt is settled exactly when it finds the reservation not released, and the clocks fit. -/
theorem Operation.Held.settle_iff (hinj : Function.Injective hash) (h : operation.Held hash trial request row)
    (hsound : Sound hash trial.world) {periodRow : PeriodRow}
    (hperiod : trial.world.store.periods.lookup request.period.startMs = some periodRow) :
    (∃ result, settleReservation hash trial.world.store operation.id (operation.event request nowMs) = .ok result) ↔
      request.period.clamp operation.receipt.recordedAtMs ≤ nowMs ∧ nowMs ≤ request.period.cutoffMs ∧
        row.status ≠ .released ∧ (row.status = .settled → row.resolvedAtMs = some nowMs) ∧
        (row.status ≠ .settled → periodRow.status.isShut = false) := by
  constructor
  · rintro ⟨⟨store', outcome⟩, hsettle⟩
    obtain ⟨hvalid, row', hrow', hcases⟩ := settleReservation_ok hsettle
    obtain rfl := Option.some.inj (h.stored.symm.trans hrow')
    obtain ⟨hbefore, hcutoff⟩ := h.valid_iff.mp hvalid
    refine ⟨hbefore, hcutoff, ?_⟩
    obtain ⟨hsettled, -, hingest⟩ | ⟨hstatus, -, haccepting, -⟩ := hcases
    · refine ⟨by simp [hsettled], fun _ => ?_, fun hfalse => absurd hsettled hfalse⟩
      obtain ⟨recordedAtMs, stored, hresolved, hvalid', hstored, hdigest⟩ := h.receipt hsound hsettled
      obtain ⟨-, -, ⟨stored', hstored', hdigest', -⟩ | ⟨hnone, -⟩⟩ := ingestEvent_ok hingest
      · rw [operation.eventId] at hstored'
        obtain rfl := Option.some.inj (hstored.symm.trans hstored')
        obtain ⟨-, -, -, hrecorded, -⟩ := UsageEvent.bytes_inj hvalid' hvalid rfl (hinj (hdigest.symm.trans hdigest'))
        rw [hresolved]
        exact congrArg some hrecorded
      · rw [operation.eventId, hstored] at hnone
        cases hnone
    · obtain ⟨periodRow', hperiodRow, hshut, -⟩ := ensureAccepting_ok_iff.mp haccepting
      obtain rfl := Option.some.inj (hperiod.symm.trans hperiodRow)
      refine ⟨?_, fun hsettled => ?_, fun _ => hshut⟩
      · intro hreleased
        obtain hstatus | hstatus := hstatus <;> rw [hreleased] at hstatus <;> cases hstatus
      · obtain hstatus | hstatus := hstatus <;> rw [hsettled] at hstatus <;> cases hstatus
  · rintro ⟨hbefore, hcutoff, hreleased, hsettled, hshut⟩
    have hvalid : (operation.event request nowMs).Valid := h.valid_iff.mpr ⟨hbefore, hcutoff⟩
    by_cases hstatus : row.status = .settled
    · obtain ⟨recordedAtMs, stored, hresolved, -, hstored, hdigest⟩ := h.receipt hsound hstatus
      obtain rfl := Option.some.inj (hresolved.symm.trans (hsettled hstatus))
      have hstored' : trial.world.store.eventReceipts.lookup (operation.event request recordedAtMs).eventId =
          some stored := by
        rw [operation.eventId]
        exact hstored
      have hknown : ingestEvent hash trial.world.store (operation.event request recordedAtMs) = _ :=
        ingestEvent_known h.registered h.valid.2.1 hstored'
      rw [if_pos hdigest] at hknown
      refine ⟨(trial.world.store, .duplicate), ?_⟩
      simp only [settleReservation, require, operation.valid_id, hvalid, decide_true, if_true, orError, h.stored, hstatus,
        (h.settled hstatus).1, operation.eventId, hknown, bind, Except.bind]
    · have hunsettled : row.status = .active ∨ row.status = .expired := by
        cases hcase : row.status with
        | active => exact .inl rfl
        | expired => exact .inr rfl
        | settled => exact absurd hcase hstatus
        | released => exact absurd hcase hreleased
      have haccepting : ensureAccepting trial.world.store request.period nowMs = .ok () :=
        ensureAccepting_ok_iff.mpr ⟨periodRow, hperiod, hshut hstatus, hcutoff⟩
      have hnew : trial.world.store.eventReceipts.lookup (operation.event request nowMs).eventId = none := by
        rw [operation.eventId]
        exact h.unsettled hstatus
      obtain ⟨ingested, hingest⟩ := ingestEvent_new hsound hvalid h.registered hnew
      have hsettle : settleReservation hash trial.world.store operation.id (operation.event request nowMs) = _ :=
        settleReservation_eq operation.valid_id hvalid h.stored hunsettled h.covers haccepting
      rw [hingest] at hsettle
      have hactivate : activateMauClaim ingested row nowMs = _ :=
        activateMauClaim_eq (hsound.exact.claims operation.id row h.stored) nowMs
      change _ = (activateMauClaim ingested row nowMs >>= _) at hsettle
      rw [hactivate] at hsettle
      exact ⟨_, hsettle⟩

theorem Operation.Kept.returned_iff (hinj : Function.Injective hash) (h : operation.Kept hash trial) :
    operation.GoesWell hash trial (.returned nowMs) ↔ operation.Repeats hash trial (.returned nowMs) := by
  unfold Operation.GoesWell Operation.Repeats
  dsimp only
  refine forall_congr' fun prepared => ?_
  constructor
  · intro hwell row periodRow hprepared hrow hperiod
    obtain hnone | ⟨request, row', hheld⟩ := h.attempts
    · rw [hnone.prepared] at hprepared
      cases hprepared
    · obtain ⟨bytes, rfl⟩ := hheld.prepared prepared hprepared
      obtain rfl := Option.some.inj (hheld.stored.symm.trans hrow)
      exact (hheld.settle_iff hinj h.sound hperiod).mp (hwell hprepared)
  · intro hall hprepared
    obtain hnone | ⟨request, row, hheld⟩ := h.attempts
    · rw [hnone.prepared] at hprepared
      cases hprepared
    · obtain ⟨bytes, rfl⟩ := hheld.prepared prepared hprepared
      obtain ⟨periodRow, hperiod, -⟩ := hheld.registered
      exact (hheld.settle_iff hinj h.sound hperiod).mpr (hall row periodRow hprepared hheld.stored hperiod)

theorem Operation.Kept.returned (hinj : Function.Injective hash) (h : operation.Kept hash trial) :
    operation.Kept hash (operation.step hash trial (.returned nowMs)) := by
  unfold Operation.step
  cases hprepared : trial.prepared with
  | none => simpa only [hprepared] using h
  | some prepared =>
    obtain hnone | ⟨request, row, hheld⟩ := h.attempts
    · rw [hnone.prepared] at hprepared
      cases hprepared
    · obtain ⟨bytes, rfl⟩ := hheld.prepared prepared hprepared
      dsimp only
      cases hingest : ingest hash ⟨request.period, operation.projectId, some operation.id, request.activeSubjectHash, bytes⟩
        operation.receipt nowMs trial.world.store with
      | error _ => exact h.givenUp
      | ok result =>
        obtain ⟨store', outcome⟩ := result
        have hsettle : settleReservation hash trial.world.store operation.id (operation.event request nowMs) =
          .ok (store', outcome) := hingest
        have hsound := h.sound.settled hinj hsettle
        have hadds := (ingests_settle hinj h.sound hsettle).adds trial.world.events
        have hperiods := settleReservation_kept h.sound.exact.claims hsettle
        refine ⟨hsound, h.tallied.adds hadds, .inr ?_⟩
        obtain ⟨hvalid, row', hrow', ⟨hsettled, -, hknown⟩ | ⟨hstatus, -, -, ingested, activated, hnew, hactivate, rfl⟩⟩ :=
          settleReservation_ok hsettle
        all_goals obtain rfl := Option.some.inj (hheld.stored.symm.trans hrow')
        · obtain ⟨recordedAtMs, stored, -, -, hstored, -⟩ := hheld.receipt h.sound hsettled
          obtain ⟨middle, hensure, ⟨-, -, -, rfl, rfl⟩ | ⟨hnone, -⟩⟩ := ingestEvent_ok hknown
          · have hsame : ensurePeriod trial.world.store request.period = .ok store' := hensure
            rw [ensurePeriod_registered hheld.registered hheld.valid.2.1] at hsame
            obtain rfl := Except.ok.inj hsame
            refine ⟨request, row, { hheld with settled := fun _ => ?_, prepared := fun _ hfalse => nomatch hfalse }⟩
            obtain ⟨hevent, resolvedAtMs, hresolved, hmem⟩ := hheld.settled hsettled
            exact ⟨hevent, resolvedAtMs, hresolved, List.mem_append_left _ hmem⟩
          · rw [operation.eventId, hstored] at hnone
            cases hnone
        · have hunsettled : row.status ≠ .settled := by
            obtain hstatus | hstatus := hstatus <;> simp [hstatus]
          obtain ⟨-, -, ⟨stored, hstored, -⟩ | ⟨-, rfl, -⟩⟩ := ingestEvent_ok hnew
          · rw [operation.eventId, hheld.unsettled hunsettled] at hstored
            cases hstored
          · refine ⟨request, _, ⟨hheld.made, hheld.subject, hheld.valid, hperiods.registered hheld.registered,
              AList.lookup_insert _, ?_, fun _ => ⟨?_, nowMs, rfl, ?_⟩, fun hfalse => absurd rfl hfalse,
              fun _ hfalse => nomatch hfalse⟩⟩
            · rw [hheld.same]
            · exact congrArg some (operation.eventId request nowMs)
            · exact List.mem_append_right _ (List.mem_singleton_self _)

theorem Operation.Kept.step (hinj : Function.Injective hash) (h : operation.Kept hash trial) {move : Move}
    (hforeign : ∀ call, move = .other call → operation.Foreign call) :
    operation.Kept hash (operation.step hash trial move) := by
  cases move with
  | other call => exact h.foreign hinj (hforeign call rfl)
  | prepare context nowMs configuredMaxBytes => exact h.prepare hinj
  | workerFailed nowMs => exact h.workerFailed
  | ingestFailed => exact h.givenUp
  | returned nowMs => exact h.returned hinj

theorem Operation.Kept.step_iff (hinj : Function.Injective hash) (h : operation.Kept hash trial) (move : Move) :
    operation.GoesWell hash trial move ↔ operation.Repeats hash trial move := by
  cases move with
  | prepare context nowMs configuredMaxBytes => exact h.prepare_iff hinj
  | returned nowMs => exact h.returned_iff hinj
  | other _ => exact Iff.rfl
  | workerFailed _ => exact Iff.rfl
  | ingestFailed => exact Iff.rfl

end Return

section Run
variable {operation : Operation} {trial : Trial δ}

/-- An operation that was ingested was ingested once. -/
theorem Operation.Kept.countedOnce (h : operation.Kept hash trial)
    (hevent : ∃ event ∈ trial.world.events, event.eventId = operation.id) : operation.CountedOnce trial.world := by
  refine ⟨h.tallied, ?_⟩
  obtain ⟨event, hmem, hid⟩ := hevent
  obtain ⟨-, -, stored, hstored, -⟩ := h.sound.receipted event hmem
  rw [hid] at hstored
  obtain hnone | ⟨request, row, hheld⟩ := h.attempts
  · rw [hnone.receipt] at hstored
    cases hstored
  · have hsettled : row.status = .settled := by
      by_contra hunsettled
      rw [hheld.unsettled hunsettled] at hstored
      cases hstored
    obtain ⟨-, nowMs, -, hmem'⟩ := hheld.settled hsettled
    refine ⟨operation.event request nowMs, ?_, rfl, rfl, rfl⟩
    exact filter_eq_singleton h.sound.distinct hmem' (operation.eventId request nowMs)

variable [DecidableEq δ]

theorem Operation.Kept.grows (hinj : Function.Injective hash) (h : operation.Kept hash trial) (move : Move)
    {event : UsageEvent} (hevent : event ∈ trial.world.events) :
    event ∈ (operation.step hash trial move).world.events := by
  cases move with
  | other call =>
    change event ∈ (Metrics.step hash trial.world call).events
    obtain ⟨-, hsame⟩ | ⟨other, -, hsame⟩ := adds_step hinj h.sound call
    · rw [hsame]
      exact hevent
    · rw [hsame]
      exact List.mem_append_left _ hevent
  | ingestFailed => exact hevent
  | prepare context nowMs configuredMaxBytes =>
    unfold Operation.step
    dsimp only
    split <;> exact hevent
  | workerFailed nowMs =>
    unfold Operation.step
    dsimp only
    split <;> exact hevent
  | returned nowMs =>
    unfold Operation.step
    dsimp only
    split
    · split
      · exact List.mem_append_left _ hevent
      · exact hevent
    · exact hevent

/-- A receipt that is settled is among the events. -/
theorem Operation.Kept.ingested (h : operation.Kept hash trial) {nowMs : Int}
    (hwell : operation.GoesWell hash trial (.returned nowMs)) (hprepared : trial.prepared.isSome = true) :
    ∃ event ∈ (operation.step hash trial (.returned nowMs)).world.events, event.eventId = operation.id := by
  obtain ⟨prepared, hprepared⟩ := Option.isSome_iff_exists.mp hprepared
  obtain ⟨⟨store', outcome⟩, hingest⟩ := hwell prepared hprepared
  obtain hnone | ⟨request, row, hheld⟩ := h.attempts
  · rw [hnone.prepared] at hprepared
    cases hprepared
  · obtain ⟨bytes, rfl⟩ := hheld.prepared prepared hprepared
    have hsettle : settleReservation hash trial.world.store operation.id (operation.event request nowMs) =
      .ok (store', outcome) := hingest
    have hevent : ∃ after, ingestEvent hash trial.world.store (operation.event request nowMs) = .ok (after, outcome) := by
      obtain ⟨-, row', -, ⟨-, -, hknown⟩ | ⟨-, -, -, after, -, hnew, -⟩⟩ := settleReservation_ok hsettle
      · exact ⟨store', hknown⟩
      · exact ⟨after, hnew⟩
    obtain ⟨after, hevent⟩ := hevent
    unfold Operation.step
    dsimp only
    rw [hprepared]
    dsimp only
    rw [hingest]
    obtain ⟨-, -, ⟨stored, hstored, -, -, rfl⟩ | ⟨-, rfl, -⟩⟩ := ingestEvent_ok hevent
    · rw [operation.eventId] at hstored
      obtain ⟨known, hknown, -, hid, -⟩ := h.sound.exact.receipts _ _ hstored
      exact ⟨known, List.mem_append_left _ hknown, hid⟩
    · exact ⟨_, List.mem_append_right _ (List.mem_singleton_self _), operation.eventId request nowMs⟩

theorem Operation.Kept.run (hinj : Function.Injective hash) (h : operation.Kept hash trial) {moves : List Move}
    (hforeign : ∀ call, .other call ∈ moves → operation.Foreign call) :
    operation.Kept hash (Machine.run (operation.step hash) trial moves) ∧
      ∀ event ∈ trial.world.events, event ∈ (Machine.run (operation.step hash) trial moves).world.events := by
  induction moves generalizing trial with
  | nil => exact ⟨h, fun _ hevent => hevent⟩
  | cons move moves ih =>
    have hnext : operation.Kept hash (operation.step hash trial move) := by
      refine h.step hinj fun call hcall => hforeign call ?_
      rw [hcall]
      exact List.mem_cons_self
    obtain ⟨hkept, hgrows⟩ := ih hnext fun call hcall => hforeign call (List.mem_cons_of_mem _ hcall)
    exact ⟨hkept, fun event hevent => hgrows event (h.grows hinj move hevent)⟩

theorem untouched_run (hinj : Function.Injective hash) {calls : List StoreCall}
    (hforeign : ∀ call ∈ calls, operation.Foreign call) :
    operation.Kept hash ⟨Machine.run (Metrics.step hash) {} calls, none⟩ := by
  refine ⟨sound_run hinj calls, tallied_run hinj calls, .inl ?_⟩
  have hboth : Exact hash (Machine.run (Metrics.step hash) {} calls) ∧
      Passes ({} : Store δ) (Machine.run (Metrics.step hash) {} calls).store operation.id := by
    refine Machine.run_preserves_of (A := operation.Foreign)
      (P := fun world => Exact hash world ∧ Passes ({} : Store δ) world.store operation.id) ?_ _ calls hforeign
      ⟨exact_empty, Passes.of_same rfl rfl _⟩
    intro world call hcall h
    exact ⟨h.1.step hinj call, h.2.trans (passes_foreign h.1.claims hcall)⟩
  exact ⟨hboth.2.none rfl, hboth.2.receipt, rfl⟩

/-- Whenever an operation is tried again, the attempt is admitted if a first one would be and the receipt that
comes of it is settled, so that it is counted once, exactly when each attempt asks for what the first one
did in the same millisecond, and each receipt finds the reservation not released and the clocks fitting. -/
theorem retries_settled_iff (hinj : Function.Injective hash) (operation : Operation) (calls : List StoreCall)
    (moves : List Move) (hcalls : ∀ call ∈ calls, operation.Foreign call)
    (hmoves : ∀ call, .other call ∈ moves → operation.Foreign call) :
    let after (done : List Move) : Trial δ :=
      Machine.run (operation.step hash) ⟨Machine.run (Metrics.step hash) {} calls, none⟩ done
    ((∀ before move later, moves = before ++ move :: later → operation.GoesWell hash (after before) move) ∧
      ∀ before nowMs later, moves = before ++ .returned nowMs :: later → (after before).prepared.isSome = true →
        operation.CountedOnce (after moves).world) ↔
    ∀ before move later, moves = before ++ move :: later → operation.Repeats hash (after before) move := by
  intro after
  have hstart := untouched_run hinj hcalls
  have hkept (before : List Move) (move : Move) (later : List Move) (hmoves' : moves = before ++ move :: later) :
      operation.Kept hash (after before) := by
    refine (hstart.run hinj fun call hcall => hmoves call ?_).1
    rw [hmoves']
    exact List.mem_append_left _ hcall
  constructor
  · intro hwell before move later hsplit
    exact ((hkept before move later hsplit).step_iff hinj move).mp (hwell.1 before move later hsplit)
  · intro hrepeats
    have hwell : ∀ before move later, moves = before ++ move :: later → operation.GoesWell hash (after before) move :=
      fun before move later hsplit =>
        ((hkept before move later hsplit).step_iff hinj move).mpr (hrepeats before move later hsplit)
    refine ⟨hwell, ?_⟩
    intro before nowMs later hsplit hprepared
    have hbefore := hkept before _ later hsplit
    have hevent := hbefore.ingested (hwell before _ later hsplit) hprepared
    have hlater : ∀ call, .other call ∈ later → operation.Foreign call := by
      intro call hcall
      refine hmoves call ?_
      rw [hsplit]
      exact List.mem_append_right _ (List.mem_cons_of_mem _ hcall)
    have hnext : operation.Kept hash (operation.step hash (after before) (.returned nowMs)) := hbefore.returned hinj
    have hrest := hnext.run hinj hlater
    have hafter : after moves = Machine.run (operation.step hash)
        (operation.step hash (after before) (.returned nowMs)) later := by
      rw [hsplit]
      exact Machine.run_append _ before (.returned nowMs :: later)
    rw [hafter]
    obtain ⟨event, hmem, hid⟩ := hevent
    exact hrest.1.countedOnce ⟨event, hrest.2 event hmem, hid⟩

end Run

section Sample

def sampleOperation : Operation :=
  ⟨sampleOrganization, 1, 7, none, ⟨0, 1⟩, ⟨7, 7, 0, 1, 4096, none, 900⟩, rfl, rfl, by decide, by decide, by decide⟩

def sampleContext : BillingContext := ⟨samplePeriod, 1000000, 100, 100, 100, true, false, false⟩

def lostTrial (hash : List UInt8 → List UInt8) : Trial (List UInt8) :=
  Machine.run (sampleOperation.step hash) ⟨{}, none⟩ [.prepare sampleContext 1000 1000000, .ingestFailed]

def failedTrial (hash : List UInt8 → List UInt8) : Trial (List UInt8) :=
  Machine.run (sampleOperation.step hash) ⟨{}, none⟩
    [.prepare sampleContext 1000 1000000, .workerFailed 1000, .prepare sampleContext 1000 1000000]

/-- A lost attempt cannot be made again half a second later, and one after a failure is not settled. -/
theorem second_attempt_refused :
    (sampleOperation.AdmittedFirst Sha256.digest sampleContext 1500 1000000 (lostTrial Sha256.digest).world.store ∧
      (sampleOperation.prepare Sha256.digest sampleContext 1500 1000000 (lostTrial Sha256.digest).world.store).map
        Prod.snd = .error (.store .hashConflict)) ∧
    (failedTrial Sha256.digest).prepared.map (fun prepared =>
      (ingest Sha256.digest prepared sampleOperation.receipt 1001 (failedTrial Sha256.digest).world.store).map Prod.snd) =
        some (.error .reservationMismatch) :=
  ⟨⟨⟨8, by decide +kernel, exists_ok_of_toOption (by decide +kernel)⟩, by decide +kernel⟩, by decide +kernel⟩

def sampleMoves : List Move :=
  [.other (.reserve (sampleReservation 'a' 1 900) (sampleLimits 9)), .prepare sampleContext 1000 1000000, .ingestFailed,
    .prepare sampleContext 1000 1000000, .returned 1000]

theorem repeats_prepare {operation : Operation} {trial : Trial δ} [DecidableEq δ] {context : BillingContext} {nowMs : Int}
    {configuredMaxBytes : Nat} (h : ∀ row ∈ trial.world.store.reservations.lookup operation.id,
      ∀ total ∈ (summary trial.world.store context.period).toOption, row.periodStartMs = context.period.startMs ∧
        row.createdAtMs = nowMs ∧ row.storageGrowthBytes = remainingBytes context total.storageBytesAtEnd) :
    operation.Repeats hash trial (.prepare context nowMs configuredMaxBytes) := by
  intro row total hrow _ htotal
  refine h row hrow total ?_
  rw [htotal]
  rfl

theorem repeats_returned {operation : Operation} {trial : Trial δ} [DecidableEq δ] {nowMs : Int}
    (h : ∀ prepared ∈ trial.prepared, ∀ row ∈ trial.world.store.reservations.lookup operation.id,
      ∀ periodRow ∈ trial.world.store.periods.lookup prepared.period.startMs,
        prepared.period.clamp operation.receipt.recordedAtMs ≤ nowMs ∧ nowMs ≤ prepared.period.cutoffMs ∧
          row.status ≠ .released ∧ (row.status = .settled → row.resolvedAtMs = some nowMs) ∧
          (row.status ≠ .settled → periodRow.status.isShut = false)) :
    operation.Repeats hash trial (.returned nowMs) :=
  fun prepared row periodRow hprepared hrow hperiod => h prepared hprepared row hrow periodRow hperiod

theorem sample_settled :
    let after (done : List Move) : Trial (List UInt8) :=
      Machine.run (sampleOperation.step id) ⟨Machine.run (Metrics.step id) {} [], none⟩ done
    (∀ before move later, sampleMoves = before ++ move :: later → sampleOperation.GoesWell id (after before) move) ∧
      ∀ before nowMs later, sampleMoves = before ++ .returned nowMs :: later → (after before).prepared.isSome = true →
        sampleOperation.CountedOnce (after sampleMoves).world := by
  refine (retries_settled_iff Function.injective_id sampleOperation [] sampleMoves nofun ?_).mpr ?_
  · intro call hcall
    obtain rfl : call = .reserve (sampleReservation 'a' 1 900) (sampleLimits 9) := by simpa [sampleMoves] using hcall
    change (sampleReservation 'a' 1 900).reservationId ≠ sampleOperation.id
    decide +kernel
  · refine Machine.forall_point_cons trivial (Machine.forall_point_cons (repeats_prepare (by decide +kernel))
      (Machine.forall_point_cons trivial (Machine.forall_point_cons (repeats_prepare (by decide +kernel))
        (Machine.forall_point_cons (repeats_returned (by decide +kernel)) Machine.forall_point_nil))))

end Sample

end Ffdb.Metrics
