import Ffdb.Metrics.Store

/-! What each operation of the metrics database changes, read off a success once so that no
later proof opens the operations again. -/
namespace Ffdb.Metrics
open Fallible

variable {δ : Type} {hash : List UInt8 → δ} {store store' : Store δ}

def UsageEvent.claimKey (event : UsageEvent) : Option ClaimKey :=
  event.activeSubjectHash.map (event.period.startMs, ·)

def Reservation.claimKey (row : Reservation δ) : Option ClaimKey := row.subjectHash.map (row.periodStartMs, ·)

section Periods
variable {period : BillingPeriod}

theorem ensurePeriod_ok (h : ensurePeriod store period = .ok store') :
    period.Valid ∧ ∃ row, store'.periods.lookup period.startMs = some row ∧ row.endMs = period.endMs ∧
      row.cutoffMs = period.cutoffMs ∧ (store.periods.lookup period.startMs = some row ∧ store' = store ∨
        store.periods.lookup period.startMs = none ∧ row.status = .opened ∧
          store' = { store with periods := store.periods.insert period.startMs row }) := by
  simp only [ensurePeriod, bind_ok_iff, require_ok_iff, decide_eq_true_eq] at h
  obtain ⟨_, hvalid, hrest⟩ := h
  refine ⟨hvalid, ?_⟩
  cases hrow : store.periods.lookup period.startMs with
  | none =>
    rw [hrow] at hrest
    obtain rfl := (pure_ok_iff _ _).mp hrest
    exact ⟨_, AList.lookup_insert _, rfl, rfl, .inr ⟨rfl, rfl, rfl⟩⟩
  | some row =>
    rw [hrow] at hrest
    simp only [bind_ok_iff, require_ok_iff, pure_ok_iff, Bool.and_eq_true, decide_eq_true_eq] at hrest
    obtain ⟨_, ⟨hend, hcutoff⟩, rfl⟩ := hrest
    exact ⟨row, hrow, hend, hcutoff, .inl ⟨rfl, rfl⟩⟩

theorem ensurePeriod_frame (h : ensurePeriod store period = .ok store') :
    store' = { store with periods := store'.periods } := by
  obtain ⟨-, row, -, -, -, ⟨-, rfl⟩ | ⟨-, -, rfl⟩⟩ := ensurePeriod_ok h <;> rfl

def Registered (store : Store δ) (period : BillingPeriod) : Prop :=
  ∃ row, store.periods.lookup period.startMs = some row ∧ row.endMs = period.endMs ∧ row.cutoffMs = period.cutoffMs

theorem ensurePeriod_registered (h : Registered store period) (hvalid : period.Valid) :
    ensurePeriod store period = .ok store := by
  obtain ⟨row, hrow, hend, hcutoff⟩ := h
  unfold ensurePeriod
  simp [hvalid, require, hrow, hend, hcutoff, bind, Except.bind, pure, Except.pure]

theorem registered_of_ensured (h : ensurePeriod store period = .ok store') : Registered store' period := by
  obtain ⟨-, row, hrow, hend, hcutoff, -⟩ := ensurePeriod_ok h
  exact ⟨row, hrow, hend, hcutoff⟩

theorem ensureAccepting_ok_iff {recordedAtMs : Int} {u : Unit} : ensureAccepting store period recordedAtMs = .ok u ↔
    ∃ row, store.periods.lookup period.startMs = some row ∧ row.status.isShut = false ∧
      recordedAtMs ≤ period.cutoffMs := by
  simp [ensureAccepting]

theorem sealPeriod_frame {nowMs : Int} (h : sealPeriod store period nowMs = .ok store') :
    store' = { store with periods := store'.periods } := by
  simp only [sealPeriod, bind_ok_iff, orError_ok_iff] at h
  obtain ⟨_, -, _, -, middle, hensure, row, -, hrest⟩ := h
  have hframe := ensurePeriod_frame hensure
  split at hrest
  · obtain rfl := (pure_ok_iff _ _).mp hrest
    exact hframe
  · obtain rfl := (pure_ok_iff _ _).mp hrest
    rw [hframe]

end Periods

section Ingest
variable {event : UsageEvent} {outcome : IngestOutcome}

theorem recordSnapshots_frame {snapshots : List StorageSnapshot}
    (h : snapshots.foldlM (recordSnapshot event) store = .ok store') :
    store' = { store with storageTransitions := store'.storageTransitions, storageCurrent := store'.storageCurrent } := by
  refine foldlM_keeps (P := fun later : Store δ => later =
    { store with storageTransitions := later.storageTransitions, storageCurrent := later.storageCurrent }) ?_ h rfl
  intro s snapshot s' _ hs hstep
  simp only [recordSnapshot, bind_ok_iff, pure_ok_iff] at hstep
  obtain ⟨_, -, rfl⟩ := hstep
  rw [hs]

variable [DecidableEq δ]

/-- An event is known already, and the same, or it is counted. -/
theorem ingestEvent_ok (h : ingestEvent hash store event = .ok (store', outcome)) :
    ∃ middle, ensurePeriod store event.period = .ok middle ∧
      ((∃ stored, store.eventReceipts.lookup event.eventId = some stored ∧ stored.payloadSha256 = hash event.bytes ∧
          store' = middle ∧ outcome = .duplicate) ∨
        store.eventReceipts.lookup event.eventId = none ∧ outcome = .inserted ∧
          event.storageSnapshots.foldlM (recordSnapshot event) (countEvent hash middle event) = .ok store') := by
  simp only [ingestEvent, bind_ok_iff] at h
  obtain ⟨middle, hensure, hrest⟩ := h
  refine ⟨middle, hensure, ?_⟩
  have hreceipts : middle.eventReceipts = store.eventReceipts := by rw [ensurePeriod_frame hensure]
  rw [hreceipts] at hrest
  cases hknown : store.eventReceipts.lookup event.eventId with
  | some stored =>
    rw [hknown] at hrest
    simp only [bind_ok_iff, require_ok_iff, decide_eq_true_eq, pure_ok_iff, Prod.mk.injEq] at hrest
    obtain ⟨_, hsame, rfl, rfl⟩ := hrest
    exact .inl ⟨stored, rfl, hsame, rfl, rfl⟩
  | none =>
    rw [hknown] at hrest
    simp only [bind_ok_iff, pure_ok_iff, Prod.mk.injEq] at hrest
    obtain ⟨after, hfold, rfl, rfl⟩ := hrest
    exact .inr ⟨rfl, rfl, hfold⟩

theorem recordEvent_ok (h : recordEvent hash store event = .ok (store', outcome)) :
    event.Valid ∧ ∃ middle, ensurePeriod store event.period = .ok middle ∧
      ensureAccepting middle event.period event.recordedAtMs = .ok () ∧
      ingestEvent hash middle event = .ok (store', outcome) := by
  simp only [recordEvent, bind_ok_iff, require_ok_iff, decide_eq_true_eq] at h
  obtain ⟨_, hvalid, middle, hensure, _, haccepting, hingest⟩ := h
  exact ⟨hvalid, middle, hensure, haccepting, hingest⟩

end Ingest

section Claims
variable {row : Reservation δ}

theorem releaseMauClaim_eq (h : row.mauClaimed = row.subjectHash.isSome) :
    releaseMauClaim store row =
      .ok { store with activeUserClaims := row.claimKey.elim store.activeUserClaims (dropClaim store.activeUserClaims) } := by
  unfold releaseMauClaim Reservation.claimKey
  rw [h]
  cases hsubject : row.subjectHash with
  | none => rfl
  | some subject => rfl

theorem activateMauClaim_eq (h : row.mauClaimed = row.subjectHash.isSome) (nowMs : Int) :
    activateMauClaim store row nowMs =
      .ok { store with
        activeUserClaims := row.claimKey.elim store.activeUserClaims fun key =>
          convertClaim store.activeUserClaims key row.periodEndMs nowMs } := by
  unfold activateMauClaim Reservation.claimKey
  rw [h]
  cases hsubject : row.subjectHash with
  | none => rfl
  | some subject => rfl

def ClaimsSubjects (store : Store δ) : Prop :=
  ∀ id row, store.reservations.lookup id = some row → row.mauClaimed = row.subjectHash.isSome

def dropClaims (claims : Table ClaimKey ActiveUserClaim) (rows : List (Reservation δ)) : Table ClaimKey ActiveUserClaim :=
  rows.foldl (fun claims row => row.claimKey.elim claims (dropClaim claims)) claims

def dueRows (store : Store δ) (nowMs : Int) : List (Reservation δ) :=
  (store.reservations.entries.map (·.2)).filter (·.isDue nowMs)

theorem releaseAll_eq {rows : List (Reservation δ)} (h : ∀ row ∈ rows, row.mauClaimed = row.subjectHash.isSome)
    (store : Store δ) : rows.foldlM releaseMauClaim store =
      .ok { store with activeUserClaims := dropClaims store.activeUserClaims rows } := by
  induction rows generalizing store with
  | nil => rfl
  | cons row rows ih =>
    rw [List.foldlM_cons, releaseMauClaim_eq (h row List.mem_cons_self)]
    exact ih (fun other hother => h other (List.mem_cons_of_mem row hother)) _

theorem expireReservations_eq (h : ClaimsSubjects store) (nowMs : Int) :
    expireReservations store nowMs =
      .ok { store with
        activeUserClaims := dropClaims store.activeUserClaims (dueRows store nowMs)
        reservations := store.reservations.mapValues fun _ => Reservation.expire nowMs } := by
  have hdue : ∀ row ∈ dueRows store nowMs, row.mauClaimed = row.subjectHash.isSome := by
    intro row hrow
    obtain ⟨entry, hentry, rfl⟩ := List.mem_map.mp (List.mem_filter.mp hrow).1
    exact h entry.1 entry.2 (AList.mem_entries.mp hentry)
  unfold expireReservations
  change (dueRows store nowMs).foldlM releaseMauClaim store >>= _ = _
  rw [releaseAll_eq hdue]
  rfl

end Claims

section Reservations
variable {request : ReservationRequest} {limits : UsageLimits} {admission : ReservationAdmission}
  {reservationId : List Char} {event : UsageEvent} {outcome : IngestOutcome} {nowMs : Int}

theorem claimSubject_ok (h : claimSubject store request limits = .ok store') :
    store' = { store with
      activeUserClaims := (request.activeSubjectHash.map (request.period.startMs, ·)).elim store.activeUserClaims
        fun key => holdClaim store.activeUserClaims key request.period.endMs } := by
  unfold claimSubject at h
  cases hsubject : request.activeSubjectHash with
  | none =>
    rw [hsubject] at h
    exact ((pure_ok_iff _ _).mp h).symm
  | some subject =>
    rw [hsubject] at h
    simp only [bind_ok_iff, pure_ok_iff] at h
    obtain ⟨_, -, rfl⟩ := h
    rfl

theorem releaseReservation_ok {status : ReservationStatus}
    (h : releaseReservation store reservationId nowMs = .ok (store', status)) :
    ∃ row, store.reservations.lookup reservationId = some row ∧
      (row.status = .active ∧ status = .released ∧ (∃ released, releaseMauClaim store row = .ok released ∧
          store' = { released with
            reservations := released.reservations.insert reservationId
              { row with status := .released, resolvedAtMs := some nowMs } }) ∨
        row.status ≠ .active ∧ status = row.status ∧ store' = store) := by
  simp only [releaseReservation, bind_ok_iff, orError_ok_iff] at h
  obtain ⟨_, -, row, hrow, hrest⟩ := h
  refine ⟨row, hrow, ?_⟩
  by_cases hactive : row.status = .active
  · rw [if_pos hactive] at hrest
    simp only [bind_ok_iff, pure_ok_iff, Prod.mk.injEq] at hrest
    obtain ⟨released, hrelease, rfl, rfl⟩ := hrest
    exact .inl ⟨hactive, rfl, released, hrelease, rfl⟩
  · rw [if_neg hactive, pure_ok_iff, Prod.mk.injEq] at hrest
    obtain ⟨rfl, rfl⟩ := hrest
    exact .inr ⟨hactive, rfl, rfl⟩

variable [DecidableEq δ]

theorem reserve_ok (h : reserve hash store request limits = .ok (store', admission)) :
    request.Valid ∧ ∃ ensured swept, ensurePeriod store request.period = .ok ensured ∧
      ensureAccepting ensured request.period request.createdAtMs = .ok () ∧
      expireReservations ensured request.createdAtMs = .ok swept ∧
      ((∃ stored, swept.reservations.lookup request.reservationId = some stored ∧
          stored.requestSha256 = hash request.bytes ∧ store' = swept ∧ admission = .duplicate stored.status) ∨
        swept.reservations.lookup request.reservationId = none ∧ checkAmounts swept request limits = .ok () ∧
          admission = .reserved ∧ ∃ claimed, claimSubject swept request limits = .ok claimed ∧
            store' = { claimed with
              reservations := claimed.reservations.insert request.reservationId (request.row hash) }) := by
  simp only [reserve, bind_ok_iff, require_ok_iff, decide_eq_true_eq] at h
  obtain ⟨_, hvalid, ensured, hensure, _, haccepting, swept, hexpire, hrest⟩ := h
  refine ⟨hvalid, ensured, swept, hensure, haccepting, hexpire, ?_⟩
  cases hknown : swept.reservations.lookup request.reservationId with
  | some stored =>
    rw [hknown] at hrest
    simp only [bind_ok_iff, require_ok_iff, decide_eq_true_eq, pure_ok_iff, Prod.mk.injEq] at hrest
    obtain ⟨_, hsame, rfl, rfl⟩ := hrest
    exact .inl ⟨stored, rfl, hsame, rfl, rfl⟩
  | none =>
    rw [hknown] at hrest
    simp only [bind_ok_iff, pure_ok_iff, Prod.mk.injEq] at hrest
    obtain ⟨_, hamounts, claimed, hclaim, rfl, rfl⟩ := hrest
    exact .inr ⟨rfl, hamounts, rfl, claimed, hclaim, rfl⟩

/-- A reservation is settled with its event, or settled already with the same one. -/
theorem settleReservation_ok (h : settleReservation hash store reservationId event = .ok (store', outcome)) :
    event.Valid ∧ ∃ row, store.reservations.lookup reservationId = some row ∧
      (row.status = .settled ∧ row.eventId = some event.eventId ∧ ingestEvent hash store event = .ok (store', outcome) ∨
        (row.status = .active ∨ row.status = .expired) ∧ row.covers event = true ∧
          ensureAccepting store event.period event.recordedAtMs = .ok () ∧
          ∃ ingested activated, ingestEvent hash store event = .ok (ingested, outcome) ∧
            activateMauClaim ingested row event.recordedAtMs = .ok activated ∧
            store' = { activated with
              reservations := activated.reservations.insert reservationId
                { row with
                  status := .settled
                  eventId := some event.eventId
                  resolvedAtMs := some event.recordedAtMs } }) := by
  simp only [settleReservation, bind_ok_iff, orError_ok_iff, require_ok_iff, decide_eq_true_eq] at h
  obtain ⟨_, -, _, hvalid, row, hrow, hrest⟩ := h
  refine ⟨hvalid, row, hrow, ?_⟩
  cases hstatus : row.status with
  | settled =>
    rw [hstatus] at hrest
    simp only [bind_ok_iff, require_ok_iff, decide_eq_true_eq] at hrest
    obtain ⟨_, hevent, hingest⟩ := hrest
    exact .inl ⟨rfl, hevent, hingest⟩
  | released =>
    rw [hstatus] at hrest
    cases hrest
  | active =>
    rw [hstatus] at hrest
    simp only [bind_ok_iff, require_ok_iff, pure_ok_iff, Prod.exists, Prod.mk.injEq] at hrest
    obtain ⟨_, hcovers, _, haccepting, ingested, _, hingest, activated, hactivate, rfl, rfl⟩ := hrest
    exact .inr ⟨.inl rfl, hcovers, haccepting, ingested, activated, hingest, hactivate, rfl⟩
  | expired =>
    rw [hstatus] at hrest
    simp only [bind_ok_iff, require_ok_iff, pure_ok_iff, Prod.exists, Prod.mk.injEq] at hrest
    obtain ⟨_, hcovers, _, haccepting, ingested, _, hingest, activated, hactivate, rfl, rfl⟩ := hrest
    exact .inr ⟨.inr rfl, hcovers, haccepting, ingested, activated, hingest, hactivate, rfl⟩

end Reservations

end Ffdb.Metrics
