import Ffdb.Metrics.Contexts
import Ffdb.Metrics.Ingestion

/-! The periods that the calls of the API bring into the metrics database of an organization. The database knows a
period by its start and compares the rest of it on every call. -/
namespace Ffdb.Metrics
open Fallible
open DatabaseWorker (UsageReceipt Uuid)
open Billing (BillingAccount)

variable {δ : Type} {hash : List UInt8 → δ} {store store' : Store δ} {P : BillingPeriod → Prop}

section Within

structure Within (P : BillingPeriod → Prop) (store : Store δ) : Prop where
  periods : ∀ start row, store.periods.lookup start = some row →
    ∃ period, P period ∧ period.Valid ∧ period.startMs = start ∧ period.endMs = row.endMs ∧
      period.cutoffMs = row.cutoffMs
  reservations : ∀ id row, store.reservations.lookup id = some row →
    ∃ period, P period ∧ period.startMs = row.periodStartMs ∧ period.endMs = row.periodEndMs

theorem within_empty : Within P ({} : Store δ) where
  periods := by simp
  reservations := by simp

theorem Within.of_same (h : Within P store) (hperiods : store'.periods = store.periods)
    (hreservations : store'.reservations = store.reservations) : Within P store' :=
  ⟨hperiods ▸ h.periods, hreservations ▸ h.reservations⟩

theorem Within.insert (h : Within P store) {id : List Char} {row : Reservation δ} {period : BillingPeriod}
    (hperiod : P period) (hstart : period.startMs = row.periodStartMs) (hend : period.endMs = row.periodEndMs) :
    Within P { store with reservations := store.reservations.insert id row } := by
  refine ⟨h.periods, fun other row' hlookup => ?_⟩
  obtain ⟨-, rfl⟩ | ⟨-, hlookup⟩ := AList.lookup_insert_eq_some_iff.mp hlookup
  · exact ⟨period, hperiod, hstart, hend⟩
  · exact h.reservations other row' hlookup

theorem Within.ensured (h : Within P store) {period : BillingPeriod} (hperiod : P period)
    (hensure : ensurePeriod store period = .ok store') : Within P store' := by
  obtain ⟨hvalid, row, -, hend, hcutoff, ⟨-, rfl⟩ | ⟨-, -, rfl⟩⟩ := ensurePeriod_ok hensure
  · exact h
  · refine ⟨fun start other hlookup => ?_, h.reservations⟩
    obtain ⟨rfl, rfl⟩ | ⟨-, hlookup⟩ := AList.lookup_insert_eq_some_iff.mp hlookup
    · exact ⟨period, hperiod, hvalid, rfl, hend.symm, hcutoff.symm⟩
    · exact h.periods start other hlookup

theorem releaseMauClaim_frame {row : Reservation δ} (h : releaseMauClaim store row = .ok store') :
    store' = { store with activeUserClaims := store'.activeUserClaims } := by
  unfold releaseMauClaim at h
  split at h
  · obtain rfl := (pure_ok_iff _ _).mp h
    rfl
  · simp only [bind_ok_iff, pure_ok_iff] at h
    obtain ⟨_, -, rfl⟩ := h
    rfl

theorem activateMauClaim_frame {row : Reservation δ} {nowMs : Int} (h : activateMauClaim store row nowMs = .ok store') :
    store' = { store with activeUserClaims := store'.activeUserClaims } := by
  unfold activateMauClaim at h
  split at h
  · obtain rfl := (pure_ok_iff _ _).mp h
    rfl
  · simp only [bind_ok_iff, pure_ok_iff] at h
    obtain ⟨_, -, rfl⟩ := h
    rfl

theorem Within.swept (h : Within P store) {nowMs : Int} (hexpire : expireReservations store nowMs = .ok store') :
    Within P store' := by
  simp only [expireReservations, bind_ok_iff, pure_ok_iff] at hexpire
  obtain ⟨released, hrelease, rfl⟩ := hexpire
  have hreleased : Within P released := by
    refine foldlM_keeps (P := Within P) ?_ hrelease h
    intro s row s' _ hstep hs
    have hframe := releaseMauClaim_frame hs
    exact hstep.of_same (by rw [hframe]) (by rw [hframe])
  refine ⟨hreleased.periods, fun id row hlookup => ?_⟩
  rw [AList.lookup_mapValues, Option.map_eq_some_iff] at hlookup
  obtain ⟨old, hold, rfl⟩ := hlookup
  obtain ⟨period, hperiod, hstart, hend⟩ := hreleased.reservations id old hold
  unfold Reservation.expire
  split
  · exact ⟨period, hperiod, hstart, hend⟩
  · exact ⟨period, hperiod, hstart, hend⟩

theorem Within.released (h : Within P store) {id : List Char} {nowMs : Int} {status : ReservationStatus}
    (hrelease : releaseReservation store id nowMs = .ok (store', status)) : Within P store' := by
  obtain ⟨row, hrow, ⟨-, -, released, hclaim, rfl⟩ | ⟨-, -, rfl⟩⟩ := releaseReservation_ok hrelease
  · have hframe := releaseMauClaim_frame hclaim
    have hreleased : Within P released := h.of_same (by rw [hframe]) (by rw [hframe])
    obtain ⟨period, hperiod, hstart, hend⟩ := h.reservations id row hrow
    exact hreleased.insert hperiod hstart hend
  · exact h

variable [DecidableEq δ]

theorem Within.reserved (h : Within P store) {request : ReservationRequest} {limits : UsageLimits}
    {admission : ReservationAdmission} (hperiod : P request.period)
    (hreserve : reserve hash store request limits = .ok (store', admission)) : Within P store' := by
  obtain ⟨-, ensured, swept, hensure, -, hexpire, hrest⟩ := reserve_ok hreserve
  have hswept := (h.ensured hperiod hensure).swept hexpire
  obtain ⟨_, -, -, rfl, -⟩ | ⟨-, -, -, claimed, hclaim, rfl⟩ := hrest
  · exact hswept
  · have hclaimed : Within P claimed := by
      have hframe := claimSubject_ok hclaim
      exact hswept.of_same (by rw [hframe]) (by rw [hframe])
    exact hclaimed.insert hperiod rfl rfl

theorem Within.ingested (h : Within P store) {event : UsageEvent} {outcome : IngestOutcome} (hperiod : P event.period)
    (hingest : ingestEvent hash store event = .ok (store', outcome)) : Within P store' := by
  obtain ⟨middle, hensure, ⟨-, -, -, rfl, -⟩ | ⟨-, -, hfold⟩⟩ := ingestEvent_ok hingest
  · exact h.ensured hperiod hensure
  · have hframe := recordSnapshots_frame hfold
    exact (h.ensured hperiod hensure).of_same (by rw [hframe]; rfl) (by rw [hframe]; rfl)

theorem Within.recorded (h : Within P store) {event : UsageEvent} {outcome : IngestOutcome} (hperiod : P event.period)
    (hrecord : recordEvent hash store event = .ok (store', outcome)) : Within P store' := by
  obtain ⟨-, middle, hensure, -, hingest⟩ := recordEvent_ok hrecord
  exact (h.ensured hperiod hensure).ingested hperiod hingest

theorem Within.settled (h : Within P store) {id : List Char} {event : UsageEvent} {outcome : IngestOutcome}
    (hperiod : P event.period) (hsettle : settleReservation hash store id event = .ok (store', outcome)) :
    Within P store' := by
  obtain ⟨-, row, hrow, ⟨-, -, hingest⟩ | ⟨-, hcovers, -, ingested, activated, hingest, hactivate, rfl⟩⟩ :=
    settleReservation_ok hsettle
  · exact h.ingested hperiod hingest
  · have hframe := activateMauClaim_frame hactivate
    have hactivated : Within P activated := (h.ingested hperiod hingest).of_same (by rw [hframe]) (by rw [hframe])
    simp only [Reservation.covers, Bool.and_eq_true, decide_eq_true_eq] at hcovers
    obtain ⟨⟨⟨⟨⟨-, hstart⟩, hend⟩, -⟩, -⟩, -⟩ := hcovers
    exact hactivated.insert hperiod hstart.symm hend.symm

end Within

section Calls

structure Ledger (δ : Type) where
  store : Store δ := {}
  prepared : List PreparedUsage := []
  registrations : List PreparedUsage := []

/-- What the API does for one request; what was prepared before is named by its place. -/
inductive MeteringCall where
  | prepare (settings : BillingSettings) (projectId : ProjectId) (receiptId : Uuid) (mode : Option (List Char))
      (plan : UsagePlan) (configuredMaxBytes : Nat)
  | ingest (place : Nat) (receipt : UsageReceipt)
  | release (place : Nat)
  | prepareRegistration (settings : BillingSettings) (projectId : ProjectId) (reservationId : Uuid)
      (normalizedSubject : List Char)
  | settleRegistration (place : Nat)
  | releaseRegistration (place : Nat)
  | recordObject (settings : BillingSettings) (projectId : ProjectId) (eventId : Uuid) (subject : List Char)
      (currentBytes : Nat)
  | reserveObject (settings : BillingSettings) (projectId : ProjectId) (nonce subject : List Char)
      (storageGrowthBytes : Nat) (expiresAtMs : Int)
  | settleObject (projectId : ProjectId) (nonce subject : List Char) (currentBytes : Nat)
  | releaseObject (nonce : List Char)

variable [DecidableEq δ] (hash : List UInt8 → δ) (organization : Organization) (account : Option BillingAccount)
  (nowMs : Int)

def MeteringCall.perform (ledger : Ledger δ) : MeteringCall → Except MeteringError (Ledger δ)
  | .prepare settings projectId receiptId mode plan configuredMaxBytes => do
    let context ← billingContext settings account nowMs
    let (store, usage) ←
      Metrics.prepare hash organization context projectId receiptId plan nowMs configuredMaxBytes ledger.store mode
    pure { ledger with store, prepared := ledger.prepared ++ [usage] }
  | .ingest place receipt => do
    let usage ← orError ledger.prepared[place]? .unavailable
    let (store, _) ← (Metrics.ingest hash usage receipt nowMs ledger.store).mapError .store
    pure { ledger with store }
  | .release place => do
    let usage ← orError ledger.prepared[place]? .unavailable
    pure { ledger with store := Metrics.release usage nowMs ledger.store }
  | .prepareRegistration settings projectId reservationId normalizedSubject => do
    let context ← billingContext settings account nowMs
    let (store, usage) ←
      Metrics.prepareRegistration hash organization context projectId reservationId normalizedSubject nowMs ledger.store
    pure { ledger with store, registrations := ledger.registrations ++ [usage] }
  | .settleRegistration place => do
    let usage ← orError ledger.registrations[place]? .unavailable
    let (store, _) ← Metrics.settleRegistration hash nowMs usage ledger.store
    pure { ledger with store }
  | .releaseRegistration place => do
    let usage ← orError ledger.registrations[place]? .unavailable
    pure { ledger with store := Metrics.release usage nowMs ledger.store }
  | .recordObject settings projectId eventId subject currentBytes => do
    let context ← billingContext settings account nowMs
    let (store, _) ←
      recordObjectStorage hash organization context projectId eventId subject currentBytes nowMs ledger.store
    pure { ledger with store }
  | .reserveObject settings projectId nonce subject storageGrowthBytes expiresAtMs => do
    let context ← billingContext settings account nowMs
    let store ← reserveObjectStorage hash organization projectId nonce subject context storageGrowthBytes nowMs
      expiresAtMs ledger.store
    pure { ledger with store }
  | .settleObject projectId nonce subject currentBytes => do
    let (store, _) ←
      (settleObjectStorage hash organization projectId nonce subject currentBytes nowMs ledger.store).mapError .store
    pure { ledger with store }
  | .releaseObject nonce => do
    let (store, _) ← (releaseReservation ledger.store (storageReservationId nonce) nowMs).mapError .store
    pure { ledger with store }

/-- The period that a call hands to the metrics database: that of its own billing, or the one it was prepared in. -/
def MeteringCall.period (ledger : Ledger δ) : MeteringCall → Option BillingPeriod
  | .prepare .. => (billingPeriod account nowMs).toOption
  | .prepareRegistration .. => (billingPeriod account nowMs).toOption
  | .recordObject .. => (billingPeriod account nowMs).toOption
  | .reserveObject .. => (billingPeriod account nowMs).toOption
  | .ingest place _ => ledger.prepared[place]?.map (·.period)
  | .settleRegistration place => ledger.registrations[place]?.map (·.period)
  | .settleObject _ nonce _ _ => (ledger.store.reservations.lookup (storageReservationId nonce)).map fun row =>
      .ofBounds row.periodStartMs row.periodEndMs
  | .release _ => none
  | .releaseRegistration _ => none
  | .releaseObject _ => none

def Clashes (store : Store δ) (period : BillingPeriod) : Prop :=
  ∃ row, store.periods.lookup period.startMs = some row ∧ ¬(row.endMs = period.endMs ∧ row.cutoffMs = period.cutoffMs)

def Blocked (ledger : Ledger δ) (call : MeteringCall) : Prop :=
  call.perform hash organization account nowMs ledger = .error (.store .hashConflict) ∧
    ∃ period, call.period account nowMs ledger = some period ∧ Clashes ledger.store period

end Calls

section Invalid
variable [DecidableEq δ] {organization : Organization} {account : Option BillingAccount} {nowMs : Int}
  {period : BillingPeriod}

theorem hashActiveSubject_invalid (h : ¬period.Valid) (subject : List Char) :
    hashActiveSubject organization period subject = .error .invalidInput := by
  unfold hashActiveSubject
  simp [require, h, bind, Except.bind]

theorem recordEvent_invalid {event : UsageEvent} (h : ¬event.period.Valid) :
    recordEvent hash store event = .error .invalidInput := by
  have hevent : ¬event.Valid := fun hvalid => h hvalid.2.1
  simp [recordEvent, require, hevent, bind, Except.bind]

theorem settleReservation_invalid {event : UsageEvent} (h : ¬event.period.Valid) (id : List Char) :
    settleReservation hash store id event = .error .invalidInput := by
  have hevent : ¬event.Valid := fun hvalid => h hvalid.2.1
  unfold settleReservation
  cases hid : validateIdentifier id with
  | true => simp [require, hevent, bind, Except.bind]
  | false => simp [require, bind, Except.bind]

theorem ingest_invalid {usage : PreparedUsage} (h : ¬usage.period.Valid) (receipt : UsageReceipt) :
    ingest hash usage receipt nowMs store = .error .invalidInput := by
  unfold ingest
  cases usage.reservationId with
  | none => exact recordEvent_invalid h
  | some id => exact settleReservation_invalid h id

omit [DecidableEq δ] in
theorem summary_invalid (h : ¬period.Valid) : summary store period = .error .invalidInput := by
  simp [summary, summaryThrough, require, h, bind, Except.bind]

theorem billingContext_fails (settings : BillingSettings) :
    FailsOnly .unavailable (billingContext settings account nowMs) := by
  have hpositive (value : Int) : FailsOnly .unavailable (positive value) :=
    (FailsOnly.require _).bind fun _ _ => FailsOnly.ok _
  have hperiod : FailsOnly .unavailable (billingPeriod account nowMs) := by
    unfold billingPeriod
    cases subscriptionPeriod account nowMs with
    | some period => exact FailsOnly.ok _
    | none => exact (FailsOnly.require _).bind fun _ _ => (FailsOnly.require _).bind fun _ _ => FailsOnly.ok _
  exact hperiod.bind fun _ _ => (FailsOnly.orError _).bind fun _ _ => (hpositive _).bind fun _ _ =>
    (hpositive _).bind fun _ _ => (hpositive _).bind fun _ _ => (hpositive _).bind fun _ _ => FailsOnly.ok _

/-- A call that the billing goes before fails later than that. -/
theorem bind_billingContext {α : Type} {settings : BillingSettings} {f : BillingContext → Except MeteringError α}
    {error : MetricsError} (h : billingContext settings account nowMs >>= f = .error (.store error))
    (hperiod : (billingPeriod account nowMs).toOption = some period) :
    ∃ context, context.period = period ∧ f context = .error (.store error) := by
  obtain hcontext | ⟨context, hcontext, hf⟩ := (bind_error_iff _ _ _).mp h
  · exact nomatch billingContext_fails settings _ hcontext
  · rw [billingContext_period hcontext] at hperiod
    exact ⟨context, Option.some.inj hperiod, hf⟩

theorem prepare_invalid {context : BillingContext} (h : ¬context.period.Valid) {projectId : ProjectId}
    {receiptId : Uuid} {plan : UsagePlan} {configuredMaxBytes : Nat} {mode : Option (List Char)} :
    prepare hash organization context projectId receiptId plan nowMs configuredMaxBytes store mode ≠
      .error (.store .hashConflict) := by
  intro hprepare
  obtain hblocked | ⟨_, -, hsubject⟩ := (bind_error_iff _ _ _).mp hprepare
  · cases ((require_error_iff _ _ _).mp hblocked).2
  · cases mode with
    | some subject =>
      rw [subjectOf, hashActiveSubject_invalid h] at hsubject
      cases hsubject
    | none =>
      obtain hnone | ⟨_, -, hrest⟩ := (bind_error_iff _ _ _).mp hsubject
      · cases hnone
      · by_cases hmutating : plan.mutating = true
        · rw [if_pos hmutating, summary_invalid h] at hrest
          cases hrest
        · rw [if_neg hmutating] at hrest
          cases hrest

/-- Only a valid period is compared with what was recorded. -/
theorem period_valid {ledger : Ledger δ} {call : MeteringCall}
    (h : call.perform hash organization account nowMs ledger = .error (.store .hashConflict))
    (hperiod : call.period account nowMs ledger = some period) : period.Valid := by
  by_contra hinvalid
  cases call with
  | prepare settings projectId receiptId mode plan configuredMaxBytes =>
    obtain ⟨context, rfl, hrest⟩ := bind_billingContext h hperiod
    obtain hprepare | ⟨_, -, hpure⟩ := (bind_error_iff _ _ _).mp hrest
    · exact prepare_invalid hinvalid hprepare
    · cases hpure
  | ingest place receipt =>
    obtain ⟨usage, husage, rfl⟩ := Option.map_eq_some_iff.mp hperiod
    simp only [MeteringCall.perform, husage, orError] at h
    change ((Metrics.ingest hash usage receipt nowMs ledger.store).mapError MeteringError.store >>= _) = _ at h
    rw [ingest_invalid hinvalid] at h
    cases h
  | release place => cases hperiod
  | prepareRegistration settings projectId reservationId normalizedSubject =>
    obtain ⟨context, rfl, hrest⟩ := bind_billingContext h hperiod
    rw [prepareRegistration, hashActiveSubject_invalid hinvalid] at hrest
    cases hrest
  | settleRegistration place =>
    obtain ⟨usage, husage, rfl⟩ := Option.map_eq_some_iff.mp hperiod
    simp only [MeteringCall.perform, husage, orError] at h
    change (Metrics.settleRegistration hash nowMs usage ledger.store >>= _) = _ at h
    cases hid : usage.reservationId with
    | none =>
      rw [settleRegistration, hid] at h
      cases h
    | some id =>
      have hevent : ¬(registrationEvent nowMs usage id).period.Valid := hinvalid
      rw [settleRegistration, hid] at h
      change ((settleReservation hash ledger.store id (registrationEvent nowMs usage id)).mapError
        MeteringError.store >>= _) = _ at h
      rw [settleReservation_invalid hevent] at h
      cases h
  | releaseRegistration place => cases hperiod
  | recordObject settings projectId eventId subject currentBytes =>
    obtain ⟨context, rfl, hrest⟩ := bind_billingContext h hperiod
    rw [recordObjectStorage, hashActiveSubject_invalid hinvalid] at hrest
    cases hrest
  | reserveObject settings projectId nonce subject storageGrowthBytes expiresAtMs =>
    obtain ⟨context, rfl, hrest⟩ := bind_billingContext h hperiod
    obtain hreserve | ⟨_, -, hpure⟩ := (bind_error_iff _ _ _).mp hrest
    · obtain hblocked | ⟨_, -, hsubject⟩ := (bind_error_iff _ _ _).mp hreserve
      · cases ((require_error_iff _ _ _).mp hblocked).2
      · rw [hashActiveSubject_invalid hinvalid] at hsubject
        cases hsubject
    · cases hpure
  | settleObject projectId nonce subject currentBytes =>
    obtain ⟨row, hrow, rfl⟩ := Option.map_eq_some_iff.mp hperiod
    rw [MeteringCall.perform, settleObjectStorage_found hrow, hashActiveSubject_invalid hinvalid] at h
    by_cases hproject : row.projectId = projectId
    · rw [decide_eq_true hproject] at h
      cases h
    · rw [decide_eq_false hproject] at h
      cases h
  | releaseObject nonce => cases hperiod

end Invalid

section Ledger
variable {organization : Organization} {account : Option BillingAccount} {nowMs : Int} {ledger ledger' : Ledger δ}

structure Ledger.Within (P : BillingPeriod → Prop) (ledger : Ledger δ) : Prop where
  store : Metrics.Within P ledger.store
  prepared : ∀ usage ∈ ledger.prepared, P usage.period
  registrations : ∀ usage ∈ ledger.registrations, P usage.period

theorem ledger_within_empty : ({} : Ledger δ).Within P := ⟨within_empty, by simp, by simp⟩

theorem Ledger.Within.period (h : ledger.Within P)
    (hbounds : ∀ period, P period → period = .ofBounds period.startMs period.endMs)
    (hrequest : ∀ period, billingPeriod account nowMs = .ok period → P period) {call : MeteringCall}
    {period : BillingPeriod} (hperiod : call.period account nowMs ledger = some period) : P period := by
  have hbilled (h : (billingPeriod account nowMs).toOption = some period) : P period := by
    cases hperiod : billingPeriod account nowMs with
    | ok billed =>
      rw [hperiod] at h
      exact Option.some.inj h ▸ hrequest billed hperiod
    | error e =>
      rw [hperiod] at h
      cases h
  cases call with
  | prepare => exact hbilled hperiod
  | prepareRegistration => exact hbilled hperiod
  | recordObject => exact hbilled hperiod
  | reserveObject => exact hbilled hperiod
  | ingest place receipt =>
    obtain ⟨usage, husage, rfl⟩ := Option.map_eq_some_iff.mp hperiod
    exact h.prepared usage (List.mem_of_getElem? husage)
  | settleRegistration place =>
    obtain ⟨usage, husage, rfl⟩ := Option.map_eq_some_iff.mp hperiod
    exact h.registrations usage (List.mem_of_getElem? husage)
  | settleObject projectId nonce subject currentBytes =>
    obtain ⟨row, hrow, rfl⟩ := Option.map_eq_some_iff.mp hperiod
    obtain ⟨known, hknown, hstart, hend⟩ := h.store.reservations _ row hrow
    rw [← hstart, ← hend, ← hbounds known hknown]
    exact hknown
  | release => cases hperiod
  | releaseRegistration => cases hperiod
  | releaseObject => cases hperiod

theorem Ledger.Within.stored (h : ledger.Within P) (hstore : Metrics.Within P store) :
    ({ ledger with store } : Ledger δ).Within P :=
  ⟨hstore, h.prepared, h.registrations⟩

theorem mem_concat_within {usages : List PreparedUsage} {usage : PreparedUsage} (h : ∀ usage ∈ usages, P usage.period)
    (husage : P usage.period) : ∀ other ∈ usages ++ [usage], P other.period := by
  intro other hother
  obtain hother | hother := List.mem_append.mp hother
  · exact h other hother
  · obtain rfl := List.mem_singleton.mp hother
    exact husage

variable [DecidableEq δ]

theorem prepare_within {context : BillingContext} {projectId : ProjectId} {receiptId : Uuid} {plan : UsagePlan}
    {configuredMaxBytes : Nat} {mode : Option (List Char)} {usage : PreparedUsage} (h : Within P store)
    (hperiod : P context.period) (hprepare : prepare hash organization context projectId receiptId plan nowMs
      configuredMaxBytes store mode = .ok (store', usage)) : Within P store' ∧ usage.period = context.period := by
  simp only [prepare, bind_ok_iff] at hprepare
  obtain ⟨_, -, subjectHash, -, hrest⟩ := hprepare
  by_cases hmutating : plan.mutating = true
  · rw [if_pos hmutating] at hrest
    simp only [bind_ok_iff, mapError_ok_iff, pure_ok_iff, Prod.exists, Prod.mk.injEq] at hrest
    obtain ⟨_, -, _, -, _, -, _, _, hreserve, rfl, rfl⟩ := hrest
    exact ⟨h.reserved hperiod hreserve, rfl⟩
  · rw [if_neg hmutating, pure_ok_iff, Prod.mk.injEq] at hrest
    obtain ⟨rfl, rfl⟩ := hrest
    exact ⟨h, rfl⟩

theorem ingest_within {usage : PreparedUsage} {receipt : UsageReceipt} {outcome : IngestOutcome} (h : Within P store)
    (hperiod : P usage.period) (hingest : ingest hash usage receipt nowMs store = .ok (store', outcome)) :
    Within P store' := by
  unfold ingest at hingest
  cases hid : usage.reservationId with
  | none =>
    rw [hid] at hingest
    exact h.recorded hperiod hingest
  | some id =>
    rw [hid] at hingest
    exact h.settled hperiod hingest

omit [DecidableEq δ] in
theorem release_within {usage : PreparedUsage} (h : Within P store) : Within P (release usage nowMs store) := by
  unfold release
  cases usage.reservationId with
  | none => exact h
  | some id =>
    change Within P (((releaseReservation store id nowMs).map Prod.fst).toOption.getD store)
    cases hrelease : releaseReservation store id nowMs with
    | ok result => exact h.released hrelease
    | error e => exact h

/-- A call takes its period into the database, and nothing else. -/
theorem Ledger.Within.performed (h : ledger.Within P)
    (hbounds : ∀ period, P period → period = .ofBounds period.startMs period.endMs)
    (hrequest : ∀ period, billingPeriod account nowMs = .ok period → P period) {call : MeteringCall}
    (hperform : call.perform hash organization account nowMs ledger = .ok ledger') : ledger'.Within P := by
  have hcontext {settings : BillingSettings} {context : BillingContext}
      (hcontext : billingContext settings account nowMs = .ok context) : P context.period :=
    hrequest _ (billingContext_period hcontext)
  cases call with
  | prepare settings projectId receiptId mode plan configuredMaxBytes =>
    simp only [MeteringCall.perform, bind_ok_iff, pure_ok_iff, Prod.exists] at hperform
    obtain ⟨context, hbilled, store', usage, hprepare, rfl⟩ := hperform
    obtain ⟨hstore, husage⟩ := prepare_within h.store (hcontext hbilled) hprepare
    exact ⟨hstore, mem_concat_within h.prepared (husage ▸ hcontext hbilled), h.registrations⟩
  | ingest place receipt =>
    simp only [MeteringCall.perform, bind_ok_iff, pure_ok_iff, orError_ok_iff, mapError_ok_iff, Prod.exists] at hperform
    obtain ⟨usage, husage, store', _, hingest, rfl⟩ := hperform
    exact h.stored (ingest_within h.store (h.prepared usage (List.mem_of_getElem? husage)) hingest)
  | release place =>
    simp only [MeteringCall.perform, bind_ok_iff, pure_ok_iff] at hperform
    obtain ⟨usage, -, rfl⟩ := hperform
    exact h.stored (release_within h.store)
  | prepareRegistration settings projectId reservationId normalizedSubject =>
    simp only [MeteringCall.perform, prepareRegistration, bind_ok_iff, pure_ok_iff, mapError_ok_iff, Prod.exists,
      Prod.mk.injEq] at hperform
    obtain ⟨context, hbilled, store', usage, ⟨_, -, _, _, hreserve, rfl, rfl⟩, rfl⟩ := hperform
    exact ⟨h.store.reserved (hcontext hbilled) hreserve, h.prepared,
      mem_concat_within h.registrations (hcontext hbilled)⟩
  | settleRegistration place =>
    simp only [MeteringCall.perform, settleRegistration, bind_ok_iff, pure_ok_iff, orError_ok_iff, mapError_ok_iff,
      Prod.exists] at hperform
    obtain ⟨usage, husage, store', _, ⟨_, -, hsettle⟩, rfl⟩ := hperform
    exact h.stored (h.store.settled (h.registrations usage (List.mem_of_getElem? husage)) hsettle)
  | releaseRegistration place =>
    simp only [MeteringCall.perform, bind_ok_iff, pure_ok_iff] at hperform
    obtain ⟨usage, -, rfl⟩ := hperform
    exact h.stored (release_within h.store)
  | recordObject settings projectId eventId subject currentBytes =>
    simp only [MeteringCall.perform, recordObjectStorage, bind_ok_iff, pure_ok_iff, mapError_ok_iff,
      Prod.exists] at hperform
    obtain ⟨context, hbilled, store', _, ⟨_, -, hrecord⟩, rfl⟩ := hperform
    exact h.stored (h.store.recorded (hcontext hbilled) hrecord)
  | reserveObject settings projectId nonce subject storageGrowthBytes expiresAtMs =>
    simp only [MeteringCall.perform, reserveObjectStorage, bind_ok_iff, pure_ok_iff, mapError_ok_iff,
      Prod.exists] at hperform
    obtain ⟨context, hbilled, store', ⟨_, -, _, -, _, _, hreserve, rfl⟩, rfl⟩ := hperform
    exact h.stored (h.store.reserved (hcontext hbilled) hreserve)
  | settleObject projectId nonce subject currentBytes =>
    simp only [MeteringCall.perform, bind_ok_iff, pure_ok_iff, mapError_ok_iff, Prod.exists] at hperform
    obtain ⟨store', _, hsettle, rfl⟩ := hperform
    cases hrow : ledger.store.reservations.lookup (storageReservationId nonce) with
    | none =>
      have hmissing : reservationContext ledger.store (storageReservationId nonce) = .ok none := by
        unfold reservationContext
        rw [valid_storageReservationId, hrow]
        rfl
      unfold settleObjectStorage at hsettle
      dsimp only at hsettle
      rw [hmissing] at hsettle
      cases hsettle
    | some row =>
      have hperiod : MeteringCall.period account nowMs ledger (.settleObject projectId nonce subject currentBytes) =
          some (.ofBounds row.periodStartMs row.periodEndMs) := by
        rw [MeteringCall.period, hrow]
        rfl
      have hperiod := h.period hbounds hrequest hperiod
      rw [settleObjectStorage_found hrow] at hsettle
      simp only [bind_ok_iff] at hsettle
      obtain ⟨_, -, _, -, hsettle⟩ := hsettle
      exact h.stored (h.store.settled hperiod hsettle)
  | releaseObject nonce =>
    simp only [MeteringCall.perform, bind_ok_iff, pure_ok_iff, mapError_ok_iff, Prod.exists] at hperform
    obtain ⟨store', _, hrelease, rfl⟩ := hperform
    exact h.stored (h.store.released hrelease)

end Ledger

end Ffdb.Metrics
