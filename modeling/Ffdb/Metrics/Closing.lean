import Ffdb.Metrics.Leases
import Ffdb.Metrics.Periods
import Ffdb.Metrics.Sizes

/-! The end of a period: what was reported is reconciled with the provider, and the sealed period is finalized. A sealed
period takes no more usage, whatever is done. -/
namespace Ffdb.Metrics
open Fallible

variable {δ : Type} {hash : List UInt8 → δ} {store store' : Store δ}

inductive ReconciliationStatus where
  | matched
  | mismatched
  deriving DecidableEq

/-- The period is registered even if a quantity is then out of range: there is no transaction around both. -/
def recordReconciliation (store : Store δ) (period : BillingPeriod) (dimension : UsageDimension)
    (localQuantity providerQuantity : Nat) : Store δ × Except MetricsError ReconciliationStatus :=
  match ensurePeriod store period with
  | .error error => (store, .error error)
  | .ok store =>
    if localQuantity ≤ i64Max ∧ providerQuantity ≤ i64Max then
      ({ store with
          reconciliations := store.reconciliations.insert (period.startMs, dimension)
            ⟨localQuantity, providerQuantity, localQuantity = providerQuantity⟩ },
        .ok (if localQuantity = providerQuantity then .matched else .mismatched))
    else (store, .error .invalidInput)

def outstandingReports (store : Store δ) (periodStartMs : Int) : Nat :=
  store.outbox.total fun _ row => if row.periodStartMs = periodStartMs ∧ row.state ≠ .acknowledged then 1 else 0

def reconciliationsOf (store : Store δ) (periodStartMs : Int) (matched : Bool) : Nat :=
  store.reconciliations.total fun key row => if key.1 = periodStartMs ∧ row.matched = matched then 1 else 0

def finalizePeriod (store : Store δ) (period : BillingPeriod) : Except MetricsError (Store δ) := do
  require period.Valid .invalidInput
  let row ← orError ((store.periods.lookup period.startMs).filter (·.endMs = period.endMs)) .reconciliationPending
  require (row.status = .sealed && outstandingReports store period.startMs = 0 &&
    reconciliationsOf store period.startMs true = 4 && reconciliationsOf store period.startMs false = 0)
    .reconciliationPending
  pure { store with periods := store.periods.insert period.startMs { row with status := .finalized } }

inductive MetricsCall where
  | usage (call : StoreCall)
  | report (call : OutboxCall)
  | reconcile (period : BillingPeriod) (dimension : UsageDimension) (localQuantity providerQuantity : Nat)
  | finalize (period : BillingPeriod)

/-- A call that fails changes nothing, but for a reconciliation that registers its period. -/
def advance [DecidableEq δ] (hash : List UInt8 → δ) (world : World δ) : MetricsCall → World δ
  | .usage call => step hash world call
  | .report call => { world with store := outboxStep hash world.store call }
  | .reconcile period dimension localQuantity providerQuantity =>
    { world with store := (recordReconciliation world.store period dimension localQuantity providerQuantity).1 }
  | .finalize period => { world with store := (finalizePeriod world.store period).toOption.getD world.store }

section Shut
variable {period other : BillingPeriod} {event : UsageEvent} {outcome : IngestOutcome}

def IsShut (store : Store δ) (period : BillingPeriod) : Prop :=
  ∃ row, store.periods.lookup period.startMs = some row ∧ row.endMs = period.endMs ∧ row.cutoffMs = period.cutoffMs ∧
    row.status.isShut = true

def SettledKnown (store : Store δ) : Prop :=
  ∀ id row, store.reservations.lookup id = some row → row.status = .settled →
    ∃ e, row.eventId = some e ∧ (store.eventReceipts.lookup e).isSome = true

/-- What takes no usage takes none afterwards, and the events of settled reservations stay known. -/
structure Steady (store store' : Store δ) : Prop where
  shut : ∀ period, IsShut store period → IsShut store' period
  known : SettledKnown store → SettledKnown store'

theorem Steady.trans {store'' : Store δ} (h : Steady store store') (h' : Steady store' store'') : Steady store store'' :=
  ⟨fun period => h'.shut period ∘ h.shut period, h'.known ∘ h.known⟩

structure CountsKept (startMs : Int) (store store' : Store δ) : Prop where
  usage : ∀ throughMs amount, usedThrough store' startMs throughMs amount = usedThrough store startMs throughMs amount
  users : ∀ throughMs, activeThrough store' startMs throughMs = activeThrough store startMs throughMs

theorem CountsKept.trans {startMs : Int} {store'' : Store δ} (h : CountsKept startMs store store')
    (h' : CountsKept startMs store' store'') : CountsKept startMs store store'' :=
  ⟨fun throughMs amount => (h'.usage throughMs amount).trans (h.usage throughMs amount),
    fun throughMs => (h'.users throughMs).trans (h.users throughMs)⟩

structure Quiet (store store' : Store δ) : Prop extends Steady store store' where
  counts : ∀ startMs, CountsKept startMs store store'

theorem Quiet.trans {store'' : Store δ} (h : Quiet store store') (h' : Quiet store' store'') : Quiet store store'' :=
  ⟨h.toSteady.trans h'.toSteady, fun startMs => (h.counts startMs).trans (h'.counts startMs)⟩

theorem quiet_of_same (hshut : ∀ period, IsShut store period → IsShut store' period)
    (hreservations : store'.reservations = store.reservations) (hreceipts : store'.eventReceipts = store.eventReceipts)
    (husage : store'.usageHourly = store.usageHourly)
    (husers : ∀ startMs throughMs, activeThrough store' startMs throughMs = activeThrough store startMs throughMs) :
    Quiet store store' where
  shut := hshut
  known := by
    unfold SettledKnown
    rw [hreservations, hreceipts]
    exact id
  counts startMs := ⟨fun throughMs amount => by rw [usedThrough, husage, usedThrough], husers startMs⟩

theorem Quiet.refl : Quiet store store := quiet_of_same (fun _ => id) rfl rfl rfl fun _ _ => rfl

theorem SettledKnown.insert (h : SettledKnown store) {id : List Char} {row : Reservation δ}
    (hrow : row.status = .settled → ∃ e, row.eventId = some e ∧ (store.eventReceipts.lookup e).isSome = true) :
    SettledKnown { store with reservations := store.reservations.insert id row } := by
  intro other row' hlookup hsettled
  obtain ⟨-, rfl⟩ | ⟨-, hlookup⟩ := AList.lookup_insert_eq_some_iff.mp hlookup
  · exact hrow hsettled
  · exact h other row' hlookup hsettled

theorem IsShut.insert {startMs : Int} {row : PeriodRow} (h : IsShut store period)
    (hrow : period.startMs = startMs → row.endMs = period.endMs ∧ row.cutoffMs = period.cutoffMs ∧ row.status.isShut = true) :
    IsShut { store with periods := store.periods.insert startMs row } period := by
  by_cases hstart : period.startMs = startMs
  · obtain ⟨hend, hcutoff, hshut⟩ := hrow hstart
    exact ⟨row, by rw [hstart]; exact AList.lookup_insert _, hend, hcutoff, hshut⟩
  · obtain ⟨own, hown, hrest⟩ := h
    exact ⟨own, (AList.lookup_insert_ne hstart).trans hown, hrest⟩

theorem IsShut.not_accepting (h : IsShut store period) (hstart : other.startMs = period.startMs) {recordedAtMs : Int} :
    ensureAccepting store other recordedAtMs ≠ .ok () := by
  intro haccepting
  obtain ⟨row, hrow, hopen, -⟩ := ensureAccepting_ok_iff.mp haccepting
  obtain ⟨own, hown, -, -, hshut⟩ := h
  rw [hstart, hown] at hrow
  obtain rfl := Option.some.inj hrow
  rw [hshut] at hopen
  cases hopen

theorem quiet_ensured (h : ensurePeriod store other = .ok store') : Quiet store store' := by
  obtain ⟨-, row, -, -, -, ⟨-, rfl⟩ | ⟨hnone, -, rfl⟩⟩ := ensurePeriod_ok h
  · exact .refl
  · refine quiet_of_same (fun period hshut => hshut.insert fun hstart => ?_) rfl rfl rfl fun _ _ => rfl
    obtain ⟨own, hown, -⟩ := hshut
    rw [hstart, hnone] at hown
    cases hown

/-- The row of a period takes another status in which it takes no usage. -/
theorem quiet_closed {startMs : Int} {row : PeriodRow} {status : PeriodStatus}
    (hrow : store.periods.lookup startMs = some row) (hstatus : status.isShut = true) :
    Quiet store { store with periods := store.periods.insert startMs { row with status } } := by
  refine quiet_of_same (fun period hshut => hshut.insert fun hstart => ?_) rfl rfl rfl fun _ _ => rfl
  obtain ⟨own, hown, hend, hcutoff, -⟩ := hshut
  rw [hstart, hrow] at hown
  obtain rfl := Option.some.inj hown
  exact ⟨hend, hcutoff, hstatus⟩

theorem quiet_released_claim {row : Reservation δ} (h : releaseMauClaim store row = .ok store') : Quiet store store' := by
  have husers (startMs throughMs : Int) : activeThrough store' startMs throughMs = activeThrough store startMs throughMs := by
    unfold releaseMauClaim at h
    split at h
    · obtain rfl := (pure_ok_iff _ _).mp h
      rfl
    · simp only [bind_ok_iff, pure_ok_iff] at h
      obtain ⟨_, -, rfl⟩ := h
      exact usersThrough_dropClaim
  rw [releaseMauClaim_frame h] at husers ⊢
  exact quiet_of_same (fun _ => id) rfl rfl rfl husers

theorem quiet_swept {nowMs : Int} (h : expireReservations store nowMs = .ok store') : Quiet store store' := by
  simp only [expireReservations, bind_ok_iff, pure_ok_iff] at h
  obtain ⟨released, hrelease, rfl⟩ := h
  have hreleased : Quiet store released := by
    refine foldlM_keeps (P := Quiet store) ?_ hrelease .refl
    intro s row s' _ hstep hs
    exact hstep.trans (quiet_released_claim hs)
  refine hreleased.trans ⟨⟨fun _ => id, fun hknown id row hlookup hsettled => ?_⟩, fun _ => ⟨fun _ _ => rfl, fun _ => rfl⟩⟩
  rw [AList.lookup_mapValues, Option.map_eq_some_iff] at hlookup
  obtain ⟨old, hold, rfl⟩ := hlookup
  unfold Reservation.expire at hsettled ⊢
  split at hsettled
  · cases hsettled
  · rename_i hdue
    rw [if_neg hdue]
    exact hknown id old hold hsettled

/-- A reservation is written that is not settled, or its event is known. -/
theorem quiet_written {id : List Char} {row : Reservation δ}
    (hrow : row.status = .settled → ∃ e, row.eventId = some e ∧ (store.eventReceipts.lookup e).isSome = true) :
    Quiet store { store with reservations := store.reservations.insert id row } :=
  ⟨⟨fun _ hshut => hshut, fun hknown => hknown.insert hrow⟩, fun _ => ⟨fun _ _ => rfl, fun _ => rfl⟩⟩

theorem quiet_released {id : List Char} {nowMs : Int} {status : ReservationStatus}
    (h : releaseReservation store id nowMs = .ok (store', status)) : Quiet store store' := by
  obtain ⟨row, hrow, ⟨-, -, released, hclaim, rfl⟩ | ⟨-, -, rfl⟩⟩ := releaseReservation_ok h
  · exact (quiet_released_claim hclaim).trans (quiet_written fun hsettled => nomatch hsettled)
  · exact .refl

theorem quiet_sealed {nowMs : Int} (h : sealPeriod store other nowMs = .ok store') : Quiet store store' := by
  simp only [sealPeriod, bind_ok_iff, orError_ok_iff] at h
  obtain ⟨_, -, _, -, middle, hensure, row, hrow, hrest⟩ := h
  refine (quiet_ensured hensure).trans ?_
  split at hrest
  · obtain rfl := (pure_ok_iff _ _).mp hrest
    exact .refl
  · obtain rfl := (pure_ok_iff _ _).mp hrest
    exact quiet_closed hrow rfl

theorem quiet_finalized (h : finalizePeriod store other = .ok store') : Quiet store store' := by
  simp only [finalizePeriod, bind_ok_iff, pure_ok_iff, orError_ok_iff, Option.filter_eq_some_iff] at h
  obtain ⟨_, -, row, ⟨hrow, -⟩, _, -, rfl⟩ := h
  exact quiet_closed hrow rfl

section Users
variable {claims : Table ClaimKey ActiveUserClaim} {key : ClaimKey} {claim : ActiveUserClaim} {startMs throughMs : Int}

theorem usersThrough_insert_other (h : key.1 ≠ startMs) :
    usersThrough (claims.insert key claim) startMs throughMs = usersThrough claims startMs throughMs := by
  have hweight (claim : ActiveUserClaim) : userWeight startMs throughMs key claim = 0 := if_neg fun hboth => h hboth.1
  cases hclaim : claims.lookup key with
  | none => rw [usersThrough_insert hclaim, hweight, Nat.add_zero]
  | some old =>
    have htotal := AList.total_insert_of_lookup (userWeight startMs throughMs) hclaim claim
    rw [hweight, hweight] at htotal
    exact htotal

theorem usersThrough_convertClaim_other (h : key.1 ≠ startMs) {periodEndMs nowMs : Int} :
    usersThrough (convertClaim claims key periodEndMs nowMs) startMs throughMs = usersThrough claims startMs throughMs := by
  unfold convertClaim markActive
  split
  · split
    · exact usersThrough_insert_other h
    · exact usersThrough_insert_other h
  · exact usersThrough_insert_other h

end Users

section Ingest
variable [DecidableEq δ]

def Grows (event : UsageEvent) (store store' : Store δ) : IngestOutcome → Prop
  | .inserted =>
    (∀ snapshot ∈ event.storageSnapshots, store.storageTransitions.lookup (snapshot.key event) = none ∧
      store'.storageTransitions.lookup (snapshot.key event) = some snapshot.logicalBytes) ∧
    (∀ key bytes, store'.storageTransitions.lookup key = some bytes →
      store.storageTransitions.lookup key = some bytes ∨
        ∃ snapshot ∈ event.storageSnapshots, snapshot.key event = key ∧ snapshot.logicalBytes = bytes) ∧
    ∀ key bytes, store.storageTransitions.lookup key = some bytes →
      store'.storageTransitions.lookup key = some bytes
  | .duplicate => store'.storageTransitions = store.storageTransitions

omit [DecidableEq δ] in
theorem Grows.of_same {store₁ store₁' : Store δ} (h : Grows event store store' outcome)
    (hbefore : store₁.storageTransitions = store.storageTransitions)
    (hafter : store₁'.storageTransitions = store'.storageTransitions) : Grows event store₁ store₁' outcome := by
  cases outcome with
  | inserted =>
    unfold Grows
    rw [hbefore, hafter]
    exact h
  | duplicate => exact hafter.trans (h.trans hbefore.symm)

theorem grows_ingestEvent (h : ingestEvent hash store event = .ok (store', outcome)) :
    Grows event store store' outcome := by
  obtain ⟨middle, hensure, ⟨-, -, -, rfl, rfl⟩ | ⟨-, rfl, hfold⟩⟩ := ingestEvent_ok h
  · change store'.storageTransitions = _
    rw [ensurePeriod_frame hensure]
  · have hcounted : Grows event (countEvent hash middle event) store' .inserted := recordSnapshots_ok hfold
    refine hcounted.of_same ?_ rfl
    rw [ensurePeriod_frame hensure]
    rfl

/-- An event that is known already is not counted again. -/
theorem ingestEvent_of_known (hknown : (store.eventReceipts.lookup event.eventId).isSome = true)
    (h : ingestEvent hash store event = .ok (store', outcome)) :
    ensurePeriod store event.period = .ok store' ∧ outcome = .duplicate := by
  obtain ⟨middle, hensure, ⟨-, -, -, rfl, rfl⟩ | ⟨hnone, -, -⟩⟩ := ingestEvent_ok h
  · exact ⟨hensure, rfl⟩
  · rw [hnone] at hknown
    cases hknown

theorem receipt_of_ingested (h : ingestEvent hash store event = .ok (store', outcome)) :
    (store'.eventReceipts.lookup event.eventId).isSome = true := by
  obtain ⟨middle, hensure, ⟨stored, hstored, -, rfl, -⟩ | ⟨-, -, hfold⟩⟩ := ingestEvent_ok h
  · rw [ensurePeriod_frame hensure, hstored]
    rfl
  · rw [recordSnapshots_frame hfold]
    exact AList.isSome_lookup_insert.mpr (.inl rfl)

theorem steady_ingested (h : ingestEvent hash store event = .ok (store', outcome)) : Steady store store' := by
  obtain ⟨middle, hensure, ⟨-, -, -, rfl, -⟩ | ⟨-, -, hfold⟩⟩ := ingestEvent_ok h
  · exact (quiet_ensured hensure).toSteady
  · refine (quiet_ensured hensure).toSteady.trans ?_
    rw [recordSnapshots_frame hfold]
    refine ⟨fun _ => id, fun hknown id row hlookup hsettled => ?_⟩
    obtain ⟨e, hevent, hreceipt⟩ := hknown id row hlookup hsettled
    exact ⟨e, hevent, AList.isSome_lookup_insert.mpr (.inr hreceipt)⟩

/-- An event of a period with another start. -/
theorem countsKept_ingested (hother : event.period.startMs ≠ period.startMs)
    (h : ingestEvent hash store event = .ok (store', outcome)) : CountsKept period.startMs store store' := by
  obtain ⟨middle, hensure, ⟨-, -, -, rfl, -⟩ | ⟨-, -, hfold⟩⟩ := ingestEvent_ok h
  · exact (quiet_ensured hensure).counts _
  · refine ((quiet_ensured hensure).counts _).trans ?_
    rw [recordSnapshots_frame hfold]
    refine ⟨fun throughMs amount => ?_, fun throughMs => ?_⟩
    · have hzero (usage : HourlyUsage) : (if (event.period.startMs, event.bucketMs, event.projectId).1 = period.startMs ∧
          (event.period.startMs, event.bucketMs, event.projectId).2.1 < throughMs then amount usage else 0) = 0 :=
        if_neg fun hboth => hother hboth.1
      exact total_addUsage _ 0 _ (hzero _) fun old => (hzero _).trans (hzero old).symm
    · change usersThrough (countEvent hash middle event).activeUserClaims _ _ = _
      unfold countEvent
      dsimp only
      cases event.activeSubjectHash with
      | none => rfl
      | some subject => exact usersThrough_insert_other hother

theorem steady_recorded (h : recordEvent hash store event = .ok (store', outcome)) : Steady store store' := by
  obtain ⟨-, middle, hensure, -, hingest⟩ := recordEvent_ok h
  exact (quiet_ensured hensure).toSteady.trans (steady_ingested hingest)

theorem countsKept_recorded (hshut : IsShut store period)
    (h : recordEvent hash store event = .ok (store', outcome)) : CountsKept period.startMs store store' := by
  obtain ⟨-, middle, hensure, haccepting, hingest⟩ := recordEvent_ok h
  have hother : event.period.startMs ≠ period.startMs := fun hstart =>
    ((quiet_ensured hensure).shut period hshut).not_accepting hstart haccepting
  exact ((quiet_ensured hensure).counts _).trans (countsKept_ingested hother hingest)

theorem grows_recorded (h : recordEvent hash store event = .ok (store', outcome)) : Grows event store store' outcome := by
  obtain ⟨-, middle, hensure, -, hingest⟩ := recordEvent_ok h
  refine (grows_ingestEvent hingest).of_same ?_ rfl
  rw [ensurePeriod_frame hensure]

omit [DecidableEq δ] in
theorem activateMauClaim_users {row : Reservation δ} {nowMs startMs : Int} (hother : row.periodStartMs ≠ startMs)
    (h : activateMauClaim store row nowMs = .ok store') (throughMs : Int) :
    activeThrough store' startMs throughMs = activeThrough store startMs throughMs := by
  unfold activateMauClaim at h
  split at h
  · obtain rfl := (pure_ok_iff _ _).mp h
    rfl
  · simp only [bind_ok_iff, pure_ok_iff] at h
    obtain ⟨subject, -, rfl⟩ := h
    exact usersThrough_convertClaim_other hother

theorem steady_settled {id : List Char} (h : settleReservation hash store id event = .ok (store', outcome)) :
    Steady store store' := by
  obtain ⟨-, row, -, ⟨-, -, hingest⟩ | ⟨-, -, -, ingested, activated, hingest, hactivate, rfl⟩⟩ := settleReservation_ok h
  · exact steady_ingested hingest
  · have hreceipt := receipt_of_ingested hingest
    refine (steady_ingested hingest).trans ?_
    rw [activateMauClaim_frame hactivate]
    refine ⟨fun _ hshut => hshut, fun hknown => ?_⟩
    have hactivated : SettledKnown { ingested with activeUserClaims := activated.activeUserClaims } := hknown
    exact hactivated.insert fun _ => ⟨event.eventId, rfl, hreceipt⟩

/-- A shut period takes no event with a reservation either: what is settled already is known. -/
theorem countsKept_settled (hshut : IsShut store period) (hknown : SettledKnown store) {id : List Char}
    (h : settleReservation hash store id event = .ok (store', outcome)) : CountsKept period.startMs store store' := by
  obtain ⟨-, row, hrow, ⟨hsettled, hevent, hingest⟩ | ⟨-, hcovers, haccepting, ingested, activated, hingest, hactivate, rfl⟩⟩ :=
    settleReservation_ok h
  · obtain ⟨e, hown, hreceipt⟩ := hknown id row hrow hsettled
    rw [hevent] at hown
    obtain rfl := Option.some.inj hown
    exact (quiet_ensured (ingestEvent_of_known hreceipt hingest).1).counts _
  · have hother : event.period.startMs ≠ period.startMs := fun hstart => hshut.not_accepting hstart haccepting
    simp only [Reservation.covers, Bool.and_eq_true, decide_eq_true_eq] at hcovers
    obtain ⟨⟨⟨⟨⟨-, hstart⟩, -⟩, -⟩, -⟩, -⟩ := hcovers
    have husers := activateMauClaim_users (hstart ▸ hother) hactivate
    refine (countsKept_ingested hother hingest).trans ?_
    rw [activateMauClaim_frame hactivate] at husers ⊢
    exact ⟨fun _ _ => rfl, husers⟩

theorem grows_settled {id : List Char} (h : settleReservation hash store id event = .ok (store', outcome)) :
    Grows event store store' outcome := by
  obtain ⟨-, row, -, ⟨-, -, hingest⟩ | ⟨-, -, -, ingested, activated, hingest, hactivate, rfl⟩⟩ := settleReservation_ok h
  · exact grows_ingestEvent hingest
  · refine (grows_ingestEvent hingest).of_same rfl ?_
    rw [activateMauClaim_frame hactivate]

theorem quiet_reserved {request : ReservationRequest} {limits : UsageLimits} {admission : ReservationAdmission}
    (h : reserve hash store request limits = .ok (store', admission)) : Quiet store store' := by
  obtain ⟨-, ensured, swept, hensure, -, hexpire, hrest⟩ := reserve_ok h
  have hswept := (quiet_ensured hensure).trans (quiet_swept hexpire)
  obtain ⟨_, -, -, rfl, -⟩ | ⟨-, -, -, claimed, hclaim, rfl⟩ := hrest
  · exact hswept
  · have hclaimed : Quiet swept claimed := by
      rw [claimSubject_ok hclaim]
      refine quiet_of_same (fun _ => id) rfl rfl rfl fun startMs throughMs => ?_
      change usersThrough _ _ _ = usersThrough _ _ _
      cases request.activeSubjectHash with
      | none => rfl
      | some subject => exact usersThrough_holdClaim
    exact (hswept.trans hclaimed).trans (quiet_written fun hsettled => nomatch hsettled)

end Ingest

section Frames
variable {call : OutboxCall} {happenings : List Happening}

theorem transitions_swept {nowMs : Int} (h : expireReservations store nowMs = .ok store') :
    store'.storageTransitions = store.storageTransitions := by
  simp only [expireReservations, bind_ok_iff, pure_ok_iff] at h
  obtain ⟨released, hrelease, rfl⟩ := h
  have hreleased : released.storageTransitions = store.storageTransitions := by
    refine foldlM_keeps (P := fun later : Store δ => later.storageTransitions = store.storageTransitions) ?_ hrelease rfl
    intro s row s' _ hstep hs
    rw [releaseMauClaim_frame hs]
    exact hstep
  exact hreleased

theorem transitions_released {id : List Char} {nowMs : Int} {status : ReservationStatus}
    (h : releaseReservation store id nowMs = .ok (store', status)) :
    store'.storageTransitions = store.storageTransitions := by
  obtain ⟨row, -, ⟨-, -, released, hclaim, rfl⟩ | ⟨-, -, rfl⟩⟩ := releaseReservation_ok h
  · rw [releaseMauClaim_frame hclaim]
  · rfl

theorem transitions_ensured (h : ensurePeriod store other = .ok store') :
    store'.storageTransitions = store.storageTransitions := by
  rw [ensurePeriod_frame h]

/-- A call about reports registers a period at most, and changes the reports. -/
theorem outbox_frame [DecidableEq δ] (h : call.perform hash store = .ok (store', happenings)) :
    ∃ ensured, (ensured = store ∨ ∃ period, ensurePeriod store period = .ok ensured) ∧
      store' = { ensured with outbox := store'.outbox } := by
  have hresolve {identifier token : List Char} {change : OutboxRow δ → OutboxRow δ} {resolved : Store δ}
      (h : resolveReport store identifier token change = .ok resolved) : resolved = { store with outbox := resolved.outbox } := by
    simp only [resolveReport, bind_ok_iff, pure_ok_iff] at h
    obtain ⟨_, -, _, -, rfl⟩ := h
    rfl
  have hclaim {period : Option BillingPeriod} {nowMs leaseDurationMs : Int} {limit : Nat} {draw : Nat → DatabaseWorker.Uuid}
      {claimed : List ClaimedReport} {leased : Store δ}
      (h : claimReportsInner store period nowMs leaseDurationMs limit draw = .ok (leased, claimed)) :
      leased = { store with outbox := leased.outbox } := by
    simp only [claimReportsInner, bind_ok_iff, pure_ok_iff, Prod.exists, Prod.mk.injEq] at h
    obtain ⟨_, -, _, _, -, rfl, -⟩ := h
    rfl
  cases call with
  | enqueue report =>
    simp only [OutboxCall.perform, bind_ok_iff, Prod.exists] at h
    obtain ⟨enqueued, outcome, henqueue, hrest⟩ := h
    have hstore : enqueued = store' := by
      cases outcome <;> exact congrArg Prod.fst (Except.ok.inj hrest)
    subst hstore
    simp only [enqueueReport, bind_ok_iff] at henqueue
    obtain ⟨_, -, ensured, hensure, hrest⟩ := henqueue
    refine ⟨ensured, .inr ⟨report.period, hensure⟩, ?_⟩
    split at hrest
    · simp only [bind_ok_iff, pure_ok_iff, Prod.mk.injEq] at hrest
      obtain ⟨_, -, rfl, -⟩ := hrest
      rfl
    · simp only [pure_ok_iff, Prod.mk.injEq] at hrest
      obtain ⟨rfl, -⟩ := hrest
      rfl
  | claim period nowMs leaseDurationMs limit draw =>
    simp only [OutboxCall.perform, bind_ok_iff, pure_ok_iff, Prod.exists, Prod.mk.injEq] at h
    obtain ⟨_, _, hclaimed, rfl, -⟩ := h
    refine ⟨store, .inl rfl, ?_⟩
    cases period with
    | none => exact hclaim hclaimed
    | some period =>
      simp only [claimOf, claimReportsForPeriod, bind_ok_iff] at hclaimed
      obtain ⟨_, -, hinner⟩ := hclaimed
      exact hclaim hinner
  | acknowledge identifier leaseToken providerEventId nowMs =>
    simp only [OutboxCall.perform, acknowledgeReport, bind_ok_iff, pure_ok_iff, Prod.mk.injEq] at h
    obtain ⟨_, ⟨_, -, hresolved⟩, rfl, -⟩ := h
    exact ⟨store, .inl rfl, hresolve hresolved⟩
  | fail identifier leaseToken retryAtMs error =>
    simp only [OutboxCall.perform, failReport, bind_ok_iff, pure_ok_iff, Prod.mk.injEq] at h
    obtain ⟨_, ⟨_, -, _, -, hresolved⟩, rfl, -⟩ := h
    exact ⟨store, .inl rfl, hresolve hresolved⟩

end Frames

section Advance
variable [DecidableEq δ]

def Took (world world' : World δ) : Prop :=
  world'.events = world.events ∧ world'.store.storageTransitions = world.store.storageTransitions ∨
    ∃ event, event.Valid ∧ world'.events = world.events ++ [event] ∧ Grows event world.store world'.store .inserted

omit [DecidableEq δ] in
theorem Took.ingested {events : List UsageEvent} (hvalid : event.Valid) (h : Grows event store store' outcome) :
    Took ⟨store, events⟩ ⟨store', events ++ outcome.events event⟩ := by
  cases outcome with
  | inserted => exact .inr ⟨event, hvalid, rfl, h⟩
  | duplicate => exact .inl ⟨List.append_nil _, h⟩

/-- Every step keeps what is shut, ingests an event at most, and leaves the counters of a shut period alone. -/
theorem advance_spec (world : World δ) (call : MetricsCall) :
    Steady world.store (advance hash world call).store ∧ Took world (advance hash world call) ∧
      ∀ period, IsShut world.store period → SettledKnown world.store →
        CountsKept period.startMs world.store (advance hash world call).store := by
  have hquiet {world' : World δ} (h : Quiet world.store world'.store) (hevents : world'.events = world.events)
      (htransitions : world'.store.storageTransitions = world.store.storageTransitions) :
      Steady world.store world'.store ∧ Took world world' ∧ ∀ period, IsShut world.store period →
        SettledKnown world.store → CountsKept period.startMs world.store world'.store :=
    ⟨h.toSteady, .inl ⟨hevents, htransitions⟩, fun period _ _ => h.counts period.startMs⟩
  have hsame := hquiet .refl rfl rfl
  cases call with
  | usage call =>
    simp only [advance, step]
    cases hperform : call.perform hash world with
    | error e => exact hsame
    | ok world' =>
      cases performed_of_ok hperform with
      | reserve hreserve =>
        refine hquiet (quiet_reserved hreserve) rfl ?_
        obtain ⟨-, ensured, swept, hensure, -, hexpire, hrest⟩ := reserve_ok hreserve
        have hswept := (transitions_swept hexpire).trans (transitions_ensured hensure)
        obtain ⟨_, -, -, rfl, -⟩ | ⟨-, -, -, claimed, hclaim, rfl⟩ := hrest
        · exact hswept
        · rw [claimSubject_ok hclaim]
          exact hswept
      | release hrelease => exact hquiet (quiet_released hrelease) rfl (transitions_released hrelease)
      | settle hsettle =>
        exact ⟨steady_settled hsettle, .ingested (settleReservation_ok hsettle).1 (grows_settled hsettle),
          fun _ hshut hknown => countsKept_settled hshut hknown hsettle⟩
      | record hrecord =>
        exact ⟨steady_recorded hrecord, .ingested (recordEvent_ok hrecord).1 (grows_recorded hrecord),
          fun _ hshut _ => countsKept_recorded hshut hrecord⟩
      | close hclose =>
        refine hquiet (quiet_sealed hclose) rfl ?_
        rw [sealPeriod_frame hclose]
  | report call =>
    simp only [advance, outboxStep]
    cases hperform : call.perform hash world.store with
    | error e => exact hsame
    | ok result =>
      obtain ⟨ensured, hensured, hframe⟩ := outbox_frame hperform
      have hkept : Quiet world.store ensured ∧ ensured.storageTransitions = world.store.storageTransitions := by
        obtain rfl | ⟨other, hensure⟩ := hensured
        · exact ⟨.refl, rfl⟩
        · exact ⟨quiet_ensured hensure, transitions_ensured hensure⟩
      dsimp only
      rw [hframe]
      have hreported : Quiet ensured { ensured with outbox := result.1.outbox } :=
        quiet_of_same (fun _ => id) rfl rfl rfl fun _ _ => rfl
      exact @hquiet ⟨_, world.events⟩ (hkept.1.trans hreported) rfl hkept.2
  | reconcile other dimension localQuantity providerQuantity =>
    simp only [advance, recordReconciliation]
    cases hensure : ensurePeriod world.store other with
    | error e => exact hsame
    | ok ensured =>
      have hkept := quiet_ensured hensure
      have htransitions := transitions_ensured hensure
      dsimp only
      split
      · have hreconciled (table : Table (Int × UsageDimension) Reconciliation) :
            Quiet ensured { ensured with reconciliations := table } :=
          quiet_of_same (fun _ => id) rfl rfl rfl fun _ _ => rfl
        exact @hquiet ⟨_, world.events⟩ (hkept.trans (hreconciled _)) rfl htransitions
      · exact @hquiet ⟨ensured, world.events⟩ hkept rfl htransitions
  | finalize other =>
    simp only [advance]
    cases hfinalize : finalizePeriod world.store other with
    | error e => exact hsame
    | ok store =>
      refine @hquiet ⟨store, world.events⟩ (quiet_finalized hfinalize) rfl ?_
      simp only [finalizePeriod, bind_ok_iff, pure_ok_iff] at hfinalize
      obtain ⟨_, -, _, -, _, -, rfl⟩ := hfinalize
      rfl

end Advance

end Shut

end Ffdb.Metrics
