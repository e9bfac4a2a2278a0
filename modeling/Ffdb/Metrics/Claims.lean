import Ffdb.Lib.Machine
import Ffdb.Lib.Tally
import Ffdb.Metrics.Effects

/-! Active-user claims: a row for a subject stands for the events that were ingested and for the
reservations that are still active, through every run of the operations. -/
namespace Ffdb.Metrics
open Fallible
open Tally (Mark Stands)

variable {δ : Type} {hash : List UInt8 → δ}

section Marks
variable {claims : Table ClaimKey ActiveUserClaim} {key other : ClaimKey}

def ActiveUserClaim.mark (claim : ActiveUserClaim) : Mark := ⟨claim.active, claim.reservationCount⟩

def markAt (claims : Table ClaimKey ActiveUserClaim) (key : ClaimKey) : Option Mark :=
  (claims.lookup key).map ActiveUserClaim.mark

theorem markAt_insert (claim : ActiveUserClaim) :
    markAt (claims.insert key claim) other = if other = key then some claim.mark else markAt claims other := by
  unfold markAt
  by_cases hkey : other = key
  · rw [if_pos hkey, hkey, AList.lookup_insert]
    rfl
  · rw [if_neg hkey, AList.lookup_insert_ne hkey]

theorem markAt_markActive (periodEndMs seenMs : Int) : markAt (markActive claims key periodEndMs seenMs) other =
    if other = key then Tally.flag (markAt claims key) else markAt claims other := by
  unfold markActive
  rw [markAt_insert]
  by_cases hkey : other = key
  · rw [if_pos hkey, if_pos hkey, markAt]
    cases claims.lookup key <;> rfl
  · rw [if_neg hkey, if_neg hkey]

theorem markAt_holdClaim (periodEndMs : Int) : markAt (holdClaim claims key periodEndMs) other =
    if other = key then Tally.hold (markAt claims key) else markAt claims other := by
  unfold holdClaim
  rw [markAt_insert]
  by_cases hkey : other = key
  · rw [if_pos hkey, if_pos hkey, markAt]
    cases claims.lookup key <;> rfl
  · rw [if_neg hkey, if_neg hkey]

theorem markAt_dropClaim : markAt (dropClaim claims key) other =
    if other = key then Tally.drop (markAt claims key) else markAt claims other := by
  unfold dropClaim
  cases hclaim : claims.lookup key with
  | none =>
    by_cases hkey : other = key
    · rw [if_pos hkey, hkey, markAt, hclaim]
      rfl
    · rw [if_neg hkey]
  | some claim =>
    have hmark : markAt claims key = some claim.mark := by rw [markAt, hclaim, Option.map_some]
    rw [hmark]
    dsimp only [Tally.drop, ActiveUserClaim.mark]
    by_cases hgone : (!claim.active && claim.reservationCount - 1 = 0) = true
    · rw [if_pos hgone, if_pos hgone]
      by_cases hkey : other = key
      · rw [if_pos hkey, hkey, markAt, AList.lookup_erase]
        rfl
      · rw [if_neg hkey, markAt, AList.lookup_erase_ne hkey, markAt]
    · rw [if_neg hgone, if_neg hgone, markAt_insert]
      rfl

theorem markAt_convertClaim (periodEndMs nowMs : Int) : markAt (convertClaim claims key periodEndMs nowMs) other =
    if other = key then Tally.convert (markAt claims key) else markAt claims other := by
  unfold convertClaim
  cases hclaim : claims.lookup key with
  | none =>
    dsimp only
    rw [markAt_markActive, markAt, hclaim]
    rfl
  | some claim =>
    have hmark : markAt claims key = some claim.mark := by rw [markAt, hclaim, Option.map_some]
    dsimp only
    by_cases hheld : 0 < claim.reservationCount
    · rw [if_pos hheld, markAt_insert, hmark]
      rfl
    · have hzero : claim.reservationCount = 0 := Nat.eq_zero_of_not_pos hheld
      rw [if_neg hheld, markAt_markActive, hmark]
      simp [Tally.flag, Tally.convert, ActiveUserClaim.mark, hzero]

end Marks

section Holders
variable {reservations : Table (List Char) (Reservation δ)} {row : Reservation δ} {key : ClaimKey} {id : List Char}

def Reservation.holds (key : ClaimKey) (row : Reservation δ) : Bool := row.status = .active && row.claimKey = some key

def holders (reservations : Table (List Char) (Reservation δ)) (key : ClaimKey) : Nat :=
  reservations.total fun _ row => if row.holds key then 1 else 0

theorem holders_insert_new (key : ClaimKey) (row : Reservation δ) (h : reservations.lookup id = none) :
    holders (reservations.insert id row) key = holders reservations key + if row.holds key then 1 else 0 :=
  AList.total_insert _ h row

theorem holders_resolve (key : ClaimKey) (row' : Reservation δ) (h : reservations.lookup id = some row)
    (hresolved : row'.status ≠ .active) :
    holders (reservations.insert id row') key + (if row.holds key then 1 else 0) = holders reservations key := by
  have htotal := AList.total_insert_of_lookup (fun _ (row : Reservation δ) => if row.holds key then 1 else 0) h row'
  have hweight : row'.holds key = false := by simp [Reservation.holds, hresolved]
  rw [hweight] at htotal
  exact htotal

theorem holders_pos : 0 < holders reservations key ↔
    ∃ id row, reservations.lookup id = some row ∧ row.status = .active ∧ row.claimKey = some key := by
  unfold holders AList.total
  rw [Nat.pos_iff_ne_zero, ne_eq, List.sum_eq_zero_iff]
  constructor
  · intro h
    simp only [List.mem_map, not_forall] at h
    obtain ⟨_, ⟨entry, hentry, rfl⟩, hweight⟩ := h
    have hholds : entry.2.holds key = true := by
      by_contra hnot
      exact hweight (if_neg hnot)
    simp only [Reservation.holds, Bool.and_eq_true, decide_eq_true_eq] at hholds
    exact ⟨entry.1, entry.2, AList.mem_entries.mp hentry, hholds⟩
  · intro h hzero
    obtain ⟨id, row, hrow, hactive, hkey⟩ := h
    have := hzero _ (List.mem_map.mpr ⟨⟨id, row⟩, AList.mem_entries.mpr hrow, rfl⟩)
    simp [Reservation.holds, hactive, hkey] at this

/-- The claims of the reservations that are due are the ones that go. -/
theorem holders_expire (store : Store δ) (nowMs : Int) (key : ClaimKey) :
    holders store.reservations key =
      holders (store.reservations.mapValues fun _ => Reservation.expire nowMs) key +
        (dueRows store nowMs).countP fun row => decide (row.claimKey = some key) := by
  unfold holders dueRows
  rw [AList.total_mapValues]
  unfold AList.total
  induction store.reservations.entries with
  | nil => rfl
  | cons entry entries ih =>
    simp only [List.map_cons, List.sum_cons, List.filter_cons]
    rw [ih]
    by_cases hdue : entry.2.isDue nowMs = true
    · have hactive : entry.2.status = .active := by
        simp only [Reservation.isDue, Bool.and_eq_true, decide_eq_true_eq] at hdue
        exact hdue.1
      have hexpired : (entry.2.expire nowMs).holds key = false := by simp [Reservation.expire, hdue, Reservation.holds]
      rw [if_pos hdue, List.countP_cons, hexpired]
      simp only [Reservation.holds, hactive, decide_true, Bool.true_and, Bool.false_eq_true, if_false]
      omega
    · have hkept : entry.2.expire nowMs = entry.2 := if_neg hdue
      rw [if_neg hdue, hkept]
      dsimp only
      omega

theorem stands_dropClaims {claims : Table ClaimKey ActiveUserClaim} {rows : List (Reservation δ)} {flagged : Prop}
    {count : Nat} (h : Stands (markAt claims key) flagged (count + rows.countP fun row => decide (row.claimKey = some key))) :
    Stands (markAt (dropClaims claims rows) key) flagged count := by
  induction rows generalizing claims with
  | nil => exact h
  | cons row rows ih =>
    rw [List.countP_cons] at h
    refine ih ?_
    cases hkey : row.claimKey with
    | none =>
      simpa [hkey] using h
    | some own =>
      rw [hkey] at h
      dsimp only
      rw [hkey, Option.elim_some, markAt_dropClaim]
      by_cases hown : key = own
      · subst hown
        rw [if_pos rfl]
        refine Stands.drop ?_
        simpa [Nat.add_assoc] using h
      · rw [if_neg hown]
        have hother : some own ≠ some key := fun hsame => hown (Option.some.inj hsame).symm
        simpa [hother] using h

end Holders

structure World (δ : Type) where
  store : Store δ := {}
  events : List UsageEvent := []

inductive StoreCall where
  | reserve (request : ReservationRequest) (limits : UsageLimits)
  | release (reservationId : List Char) (nowMs : Int)
  | settle (reservationId : List Char) (event : UsageEvent)
  | record (event : UsageEvent)
  | close (period : BillingPeriod) (nowMs : Int)

def IngestOutcome.events (outcome : IngestOutcome) (event : UsageEvent) : List UsageEvent :=
  match outcome with
  | .inserted => [event]
  | .duplicate => []

def StoreCall.perform [DecidableEq δ] (hash : List UInt8 → δ) (world : World δ) : StoreCall → Except MetricsError (World δ)
  | .reserve request limits => do
    let (store, _) ← Metrics.reserve hash world.store request limits
    pure { world with store }
  | .release reservationId nowMs => do
    let (store, _) ← releaseReservation world.store reservationId nowMs
    pure { world with store }
  | .settle reservationId event => do
    let (store, outcome) ← settleReservation hash world.store reservationId event
    pure ⟨store, world.events ++ outcome.events event⟩
  | .record event => do
    let (store, outcome) ← recordEvent hash world.store event
    pure ⟨store, world.events ++ outcome.events event⟩
  | .close period nowMs => do
    let store ← sealPeriod world.store period nowMs
    pure { world with store }

def step [DecidableEq δ] (hash : List UInt8 → δ) (world : World δ) (call : StoreCall) : World δ :=
  match call.perform hash world with
  | .ok world' => world'
  | .error _ => world

inductive Performed [DecidableEq δ] (hash : List UInt8 → δ) (world : World δ) : StoreCall → World δ → Prop
  | reserve {request : ReservationRequest} {limits : UsageLimits} {store : Store δ} {admission : ReservationAdmission}
      (h : Metrics.reserve hash world.store request limits = .ok (store, admission)) :
      Performed hash world (.reserve request limits) ⟨store, world.events⟩
  | release {id : List Char} {nowMs : Int} {store : Store δ} {status : ReservationStatus}
      (h : releaseReservation world.store id nowMs = .ok (store, status)) :
      Performed hash world (.release id nowMs) ⟨store, world.events⟩
  | settle {id : List Char} {event : UsageEvent} {store : Store δ} {outcome : IngestOutcome}
      (h : settleReservation hash world.store id event = .ok (store, outcome)) :
      Performed hash world (.settle id event) ⟨store, world.events ++ outcome.events event⟩
  | record {event : UsageEvent} {store : Store δ} {outcome : IngestOutcome}
      (h : recordEvent hash world.store event = .ok (store, outcome)) :
      Performed hash world (.record event) ⟨store, world.events ++ outcome.events event⟩
  | close {period : BillingPeriod} {nowMs : Int} {store : Store δ} (h : sealPeriod world.store period nowMs = .ok store) :
      Performed hash world (.close period nowMs) ⟨store, world.events⟩

theorem performed_of_ok [DecidableEq δ] {world world' : World δ} {call : StoreCall}
    (h : call.perform hash world = .ok world') : Performed hash world call world' := by
  cases call with
  | reserve request limits =>
    simp only [StoreCall.perform, bind_ok_iff, pure_ok_iff, Prod.exists] at h
    obtain ⟨store, _, hreserve, rfl⟩ := h
    exact .reserve hreserve
  | release id nowMs =>
    simp only [StoreCall.perform, bind_ok_iff, pure_ok_iff, Prod.exists] at h
    obtain ⟨store, _, hrelease, rfl⟩ := h
    exact .release hrelease
  | settle id event =>
    simp only [StoreCall.perform, bind_ok_iff, pure_ok_iff, Prod.exists] at h
    obtain ⟨store, _, hsettle, rfl⟩ := h
    exact .settle hsettle
  | record event =>
    simp only [StoreCall.perform, bind_ok_iff, pure_ok_iff, Prod.exists] at h
    obtain ⟨store, _, hrecord, rfl⟩ := h
    exact .record hrecord
  | close period nowMs =>
    simp only [StoreCall.perform, bind_ok_iff, pure_ok_iff] at h
    obtain ⟨store, hclose, rfl⟩ := h
    exact .close hclose

/-- What holds of the world and of what a call that succeeds makes of it holds after the call. -/
theorem step_keeps [DecidableEq δ] {P : World δ → Prop} {world : World δ} {call : StoreCall} (h : P world)
    (hdone : ∀ world', Performed hash world call world' → P world') : P (step hash world call) := by
  unfold step
  cases hperform : call.perform hash world with
  | error _ => exact h
  | ok world' => exact hdone world' (performed_of_ok hperform)

/-- The claims stand for the events and the active reservations, and the receipts for the events. -/
structure Exact (hash : List UInt8 → δ) (world : World δ) : Prop where
  receipts : ∀ id row, world.store.eventReceipts.lookup id = some row →
    ∃ event ∈ world.events, event.Valid ∧ event.eventId = id ∧ row.payloadSha256 = hash event.bytes
  claims : ClaimsSubjects world.store
  stands : ∀ key, Stands (markAt world.store.activeUserClaims key) (∃ event ∈ world.events, event.claimKey = some key)
    (holders world.store.reservations key)

section Steps
variable {store store' : Store δ} {events : List UsageEvent}

theorem ClaimsSubjects.insert (h : ClaimsSubjects store) {id : List Char} {row : Reservation δ}
    (hrow : row.mauClaimed = row.subjectHash.isSome) :
    ClaimsSubjects { store with reservations := store.reservations.insert id row } := by
  intro other row' hlookup
  obtain ⟨-, rfl⟩ | ⟨-, hlookup⟩ := AList.lookup_insert_eq_some_iff.mp hlookup
  · exact hrow
  · exact h other row' hlookup

theorem Exact.ensured (h : Exact hash ⟨store, events⟩) {period : BillingPeriod}
    (hensure : ensurePeriod store period = .ok store') : Exact hash ⟨store', events⟩ := by
  rw [ensurePeriod_frame hensure]
  exact ⟨h.receipts, h.claims, h.stands⟩

theorem Exact.swept (h : Exact hash ⟨store, events⟩) {nowMs : Int}
    (hexpire : expireReservations store nowMs = .ok store') : Exact hash ⟨store', events⟩ := by
  rw [expireReservations_eq h.claims] at hexpire
  obtain rfl := Except.ok.inj hexpire
  refine ⟨h.receipts, ?_, ?_⟩
  · intro id row hrow
    rw [AList.lookup_mapValues] at hrow
    obtain ⟨old, hold, rfl⟩ := Option.map_eq_some_iff.mp hrow
    have hclaimed := h.claims id old hold
    unfold Reservation.expire
    split <;> exact hclaimed
  · intro key
    refine stands_dropClaims ?_
    have hstands := h.stands key
    rw [holders_expire store nowMs key] at hstands
    exact hstands

/-- The subject of a repeated event was counted with the first one. -/
theorem Exact.known (hinj : Function.Injective hash) (h : Exact hash ⟨store, events⟩) {event : UsageEvent}
    (hvalid : event.Valid) {stored : EventReceipt δ} (hstored : store.eventReceipts.lookup event.eventId = some stored)
    (hsame : stored.payloadSha256 = hash event.bytes) : ∃ other ∈ events, other.claimKey = event.claimKey := by
  obtain ⟨other, hother, hvalid', hid, hdigest⟩ := h.receipts _ _ hstored
  refine ⟨other, hother, ?_⟩
  have hbytes := hinj (hdigest.symm.trans hsame)
  obtain ⟨hperiod, hsubject, -⟩ := UsageEvent.bytes_inj hvalid' hvalid hid hbytes
  rw [UsageEvent.claimKey, UsageEvent.claimKey, hperiod, hsubject]

theorem Exact.counted (h : Exact hash ⟨store, events⟩) {event : UsageEvent} (hvalid : event.Valid) :
    Exact hash ⟨countEvent hash store event, events ++ [event]⟩ := by
  refine ⟨?_, h.claims, ?_⟩
  · intro id row hrow
    obtain ⟨rfl, rfl⟩ | ⟨-, hrow⟩ := AList.lookup_insert_eq_some_iff.mp hrow
    · exact ⟨event, by simp, hvalid, rfl, rfl⟩
    · obtain ⟨other, hother, hrest⟩ := h.receipts id row hrow
      exact ⟨other, List.mem_append_left _ hother, hrest⟩
  · intro key
    have hstands := h.stands key
    have hseen : (∃ other ∈ events ++ [event], other.claimKey = some key) ↔
        (∃ other ∈ events, other.claimKey = some key) ∨ event.claimKey = some key := by
      simp only [List.mem_append, List.mem_singleton, or_and_right, exists_or, exists_eq_left]
    unfold countEvent
    dsimp only
    cases hsubject : event.activeSubjectHash with
    | none =>
      have hnone : event.claimKey ≠ some key := by simp [UsageEvent.claimKey, hsubject]
      exact hstands.congr (hseen.trans (or_iff_left hnone)).symm
    | some subject =>
      have hown : event.claimKey = some (event.period.startMs, subject) := by rw [UsageEvent.claimKey, hsubject]; rfl
      dsimp only
      rw [markAt_markActive]
      by_cases hkey : key = (event.period.startMs, subject)
      · rw [if_pos hkey, ← hkey]
        exact hstands.flag.congr (iff_of_true trivial (hseen.mpr (.inr (hkey ▸ hown))))
      · rw [if_neg hkey]
        have hother : event.claimKey ≠ some key := fun hsame => hkey (Option.some.inj (hsame.symm.trans hown))
        exact hstands.congr (hseen.trans (or_iff_left hother)).symm

theorem Exact.released (h : Exact hash ⟨store, events⟩) {id : List Char} {nowMs : Int} {status : ReservationStatus}
    (hrelease : releaseReservation store id nowMs = .ok (store', status)) : Exact hash ⟨store', events⟩ := by
  obtain ⟨row, hrow, ⟨hactive, -, released, hclaim, rfl⟩ | ⟨-, -, rfl⟩⟩ := releaseReservation_ok hrelease
  · have hclaimed := h.claims id row hrow
    rw [releaseMauClaim_eq hclaimed] at hclaim
    obtain rfl := Except.ok.inj hclaim
    refine ⟨h.receipts, h.claims.insert hclaimed, ?_⟩
    intro key
    have hstands := h.stands key
    have hresolve := holders_resolve key { row with status := .released, resolvedAtMs := some nowMs } hrow (by simp)
    change holders (store.reservations.insert id _) key + _ = _ at hresolve
    rw [← hresolve] at hstands
    change Stands (markAt (row.claimKey.elim store.activeUserClaims (dropClaim store.activeUserClaims)) key) _ _
    cases hkey : row.claimKey with
    | none => simpa [Reservation.holds, hkey] using hstands
    | some own =>
      rw [Option.elim_some, markAt_dropClaim]
      by_cases hown : key = own
      · subst hown
        rw [if_pos rfl]
        exact Stands.drop (by simpa [Reservation.holds, hactive, hkey] using hstands)
      · rw [if_neg hown]
        have hother : some own ≠ some key := fun hsame => hown (Option.some.inj hsame).symm
        simpa [Reservation.holds, hkey, hother] using hstands
  · exact h

theorem Reservation.claimKey_of_covers {row : Reservation δ} {event : UsageEvent} (h : row.covers event = true) :
    row.claimKey = event.claimKey := by
  simp only [Reservation.covers, Bool.and_eq_true, decide_eq_true_eq] at h
  obtain ⟨⟨⟨⟨⟨-, hstart⟩, -⟩, -⟩, -⟩, hsubject⟩ := h
  rw [Reservation.claimKey, UsageEvent.claimKey, hstart, hsubject]

end Steps

section Rows
variable {world : World δ} {store swept : Store δ} {events : List UsageEvent} {request : ReservationRequest}
  {limits : UsageLimits}

theorem markAt_isSome {claims : Table ClaimKey ActiveUserClaim} {key : ClaimKey} :
    (markAt claims key).isSome = (claims.lookup key).isSome := Option.isSome_map

theorem Exact.isCounted (h : Exact hash world) {key : ClaimKey} {claim : ActiveUserClaim}
    (hclaim : world.store.activeUserClaims.lookup key = some claim) : claim.isCounted = true := by
  have hstands := h.stands key
  rw [markAt, hclaim] at hstands
  exact Stands.isCounted hstands

theorem Exact.isSome_iff (h : Exact hash world) (key : ClaimKey) :
    (world.store.activeUserClaims.lookup key).isSome = true ↔ (∃ event ∈ world.events, event.claimKey = some key) ∨
      ∃ id row, world.store.reservations.lookup id = some row ∧ row.status = .active ∧ row.claimKey = some key := by
  rw [← markAt_isSome, (h.stands key).isSome_iff, holders_pos]

theorem claimSubject_refused_iff {subject : SubjectHash} (hsubject : request.activeSubjectHash = some subject)
    (hnone : store.activeUserClaims.lookup (request.period.startMs, subject) = none) (henforced : limits.enforceMauLimit = true) :
    claimSubject store request limits = .error (.limitExceeded .monthlyActiveUsers) ↔
      limits.monthlyActiveUsers ≤ countedSubjects store request.period.startMs := by
  unfold claimSubject
  rw [hsubject]
  dsimp only
  rw [hnone, henforced, bind_error_iff, enforceLimit, require_error_iff]
  simp only [pure, Except.pure, reduceCtorEq, and_false, exists_const, or_false, and_true, Option.isNone_none,
    Bool.not_true, Bool.false_or, Bool.and_self, decide_eq_false_iff_not]
  omega

theorem Exact.lookup_swept (h : Exact hash ⟨store, events⟩) {nowMs : Int}
    (hexpire : expireReservations store nowMs = .ok swept) {key : ClaimKey}
    (hevents : ¬∃ event ∈ events, event.claimKey = some key)
    (hdue : ∀ id row, store.reservations.lookup id = some row → row.status = .active → row.claimKey = some key →
      row.expiresAtMs ≤ nowMs) : swept.activeUserClaims.lookup key = none := by
  have hsome := (h.swept hexpire).isSome_iff key
  rw [← Option.not_isSome_iff_eq_none, hsome]
  refine not_or.mpr ⟨hevents, ?_⟩
  intro hheld
  obtain ⟨id, row, hrow, hactive, hkey⟩ := hheld
  rw [expireReservations_eq h.claims] at hexpire
  obtain rfl := Except.ok.inj hexpire
  dsimp only at hrow
  rw [AList.lookup_mapValues] at hrow
  obtain ⟨old, hold, rfl⟩ := Option.map_eq_some_iff.mp hrow
  unfold Reservation.expire at hactive hkey
  split at hactive
  · cases hactive
  · rename_i hlive
    rw [if_neg hlive] at hkey
    have := hdue id old hold hactive hkey
    exact hlive (by simp [Reservation.isDue, hactive, this])

theorem exact_empty : Exact hash ({} : World δ) where
  receipts := fun _ _ h => nomatch h
  claims := fun _ _ h => nomatch h
  stands := fun _ => ⟨by simp, rfl⟩

end Rows

variable [DecidableEq δ]

section Calls
variable {store store' : Store δ} {events : List UsageEvent}

/-- Ingesting an event keeps the claims exact, and leaves its subject among those seen. -/
theorem Exact.ingested (hinj : Function.Injective hash) (h : Exact hash ⟨store, events⟩) {event : UsageEvent}
    (hvalid : event.Valid) {outcome : IngestOutcome} (hingest : ingestEvent hash store event = .ok (store', outcome)) :
    Exact hash ⟨store', events ++ outcome.events event⟩ ∧ store'.reservations = store.reservations ∧
      ∃ other ∈ events ++ outcome.events event, other.claimKey = event.claimKey := by
  obtain ⟨middle, hensure, hknown | hnew⟩ := ingestEvent_ok hingest
  · obtain ⟨stored, hstored, hsame, rfl, rfl⟩ := hknown
    have hmiddle := h.ensured hensure
    obtain ⟨other, hother, hkey⟩ := h.known hinj hvalid hstored hsame
    rw [IngestOutcome.events, List.append_nil]
    refine ⟨hmiddle, ?_, other, hother, hkey⟩
    rw [ensurePeriod_frame hensure]
  · obtain ⟨-, rfl, hfold⟩ := hnew
    have hcounted := (h.ensured hensure).counted hvalid
    have hframe := recordSnapshots_frame hfold
    have hreservations : (countEvent hash middle event).reservations = store.reservations := by
      rw [ensurePeriod_frame hensure]
      rfl
    refine ⟨?_, ?_, event, by simp [IngestOutcome.events], rfl⟩
    · rw [hframe]
      exact ⟨hcounted.receipts, hcounted.claims, hcounted.stands⟩
    · rw [hframe]
      exact hreservations

theorem Exact.recorded (hinj : Function.Injective hash) (h : Exact hash ⟨store, events⟩) {event : UsageEvent}
    {outcome : IngestOutcome} (hrecord : recordEvent hash store event = .ok (store', outcome)) :
    Exact hash ⟨store', events ++ outcome.events event⟩ := by
  obtain ⟨hvalid, middle, hensure, -, hingest⟩ := recordEvent_ok hrecord
  exact ((h.ensured hensure).ingested hinj hvalid hingest).1

theorem Exact.settled (hinj : Function.Injective hash) (h : Exact hash ⟨store, events⟩) {id : List Char}
    {event : UsageEvent} {outcome : IngestOutcome}
    (hsettle : settleReservation hash store id event = .ok (store', outcome)) :
    Exact hash ⟨store', events ++ outcome.events event⟩ := by
  obtain ⟨hvalid, row, hrow, ⟨-, -, hingest⟩ | ⟨hstatus, hcovers, -, ingested, activated, hingest, hactivate, rfl⟩⟩ :=
    settleReservation_ok hsettle
  · exact (h.ingested hinj hvalid hingest).1
  · obtain ⟨hexact, hreservations, hseen⟩ := h.ingested hinj hvalid hingest
    have hrow' : ingested.reservations.lookup id = some row := hreservations ▸ hrow
    have hclaimed := hexact.claims id row hrow'
    rw [activateMauClaim_eq hclaimed] at hactivate
    obtain rfl := Except.ok.inj hactivate
    refine ⟨hexact.receipts, hexact.claims.insert hclaimed, ?_⟩
    intro key
    have hstands := hexact.stands key
    have hresolve := holders_resolve key
      { row with status := .settled, eventId := some event.eventId, resolvedAtMs := some event.recordedAtMs } hrow'
      (by simp)
    change holders (ingested.reservations.insert id _) key + _ = _ at hresolve
    change Stands (markAt (row.claimKey.elim ingested.activeUserClaims fun key =>
      convertClaim ingested.activeUserClaims key row.periodEndMs event.recordedAtMs) key) _ _
    rw [← Reservation.claimKey_of_covers hcovers] at hseen
    cases hkey : row.claimKey with
    | none =>
      rw [← hresolve] at hstands
      simpa [Reservation.holds, hkey] using hstands
    | some own =>
      rw [Option.elim_some, markAt_convertClaim]
      by_cases hown : key = own
      · subst hown
        rw [if_pos rfl]
        rw [hkey] at hseen
        refine (hstands.convert ?_).congr (by simpa using hseen)
        have hone : (if row.holds key = true then 1 else 0) ≤ 1 := by split <;> omega
        exact hresolve ▸ Nat.add_le_add_left hone _
      · rw [if_neg hown]
        have hother : some own ≠ some key := fun hsame => hown (Option.some.inj hsame).symm
        rw [← hresolve] at hstands
        simpa [Reservation.holds, hkey, hother] using hstands

theorem Exact.reserved (h : Exact hash ⟨store, events⟩) {request : ReservationRequest} {limits : UsageLimits}
    {admission : ReservationAdmission} (hreserve : reserve hash store request limits = .ok (store', admission)) :
    Exact hash ⟨store', events⟩ := by
  obtain ⟨-, ensured, swept, hensure, -, hexpire, ⟨_, -, -, rfl, -⟩ | ⟨hnew, -, -, claimed, hclaim, rfl⟩⟩ :=
    reserve_ok hreserve
  · exact (h.ensured hensure).swept hexpire
  · have hexact := (h.ensured hensure).swept hexpire
    obtain rfl := claimSubject_ok hclaim
    have hclaims : (request.row hash).mauClaimed = (request.row hash).subjectHash.isSome := rfl
    refine ⟨hexact.receipts, hexact.claims.insert hclaims, ?_⟩
    intro key
    have hstands := hexact.stands key
    have hholders := holders_insert_new key (request.row hash) hnew
    have hrow : (request.row hash).claimKey = request.activeSubjectHash.map (request.period.startMs, ·) := rfl
    change Stands (markAt ((request.activeSubjectHash.map (request.period.startMs, ·)).elim swept.activeUserClaims
      fun key => holdClaim swept.activeUserClaims key request.period.endMs) key) _
      (holders (swept.reservations.insert request.reservationId (request.row hash)) key)
    rw [hholders, ← hrow]
    have hactive : (request.row hash).status = .active := rfl
    cases hkey : (request.row hash).claimKey with
    | none => simpa [Reservation.holds, hkey] using hstands
    | some own =>
      rw [Option.elim_some, markAt_holdClaim]
      by_cases hown : key = own
      · subst hown
        rw [if_pos rfl]
        simpa [Reservation.holds, hactive, hkey] using hstands.hold
      · rw [if_neg hown]
        have hother : some own ≠ some key := fun hsame => hown (Option.some.inj hsame).symm
        simpa [Reservation.holds, hkey, hother] using hstands

end Calls

section Runs
variable {world : World δ}

theorem Exact.step (hinj : Function.Injective hash) (h : Exact hash world) (call : StoreCall) :
    Exact hash (step hash world call) := by
  refine step_keeps h fun world' hdone => ?_
  cases hdone with
  | reserve hreserve => exact Exact.reserved h hreserve
  | release hrelease => exact Exact.released h hrelease
  | settle hsettle => exact Exact.settled hinj h hsettle
  | record hrecord => exact Exact.recorded hinj h hrecord
  | close hclose =>
    rw [sealPeriod_frame hclose]
    exact ⟨h.receipts, h.claims, h.stands⟩

theorem exact_run (hinj : Function.Injective hash) (calls : List StoreCall) :
    Exact hash (Machine.run (step hash) {} calls) :=
  Machine.run_preserves (P := Exact hash) (fun _ call h => h.step hinj call) _ calls exact_empty

end Runs

section Refusal
variable {store swept : Store δ} {events : List UsageEvent} {request : ReservationRequest} {limits : UsageLimits}

/-- What a new reservation comes to, after all that does not depend on the subject. -/
theorem reserve_eq {ensured : Store δ} (hvalid : request.Valid) (hensure : ensurePeriod store request.period = .ok ensured)
    (haccepting : ensureAccepting ensured request.period request.createdAtMs = .ok ())
    (hexpire : expireReservations ensured request.createdAtMs = .ok swept)
    (hnew : swept.reservations.lookup request.reservationId = none) (hamounts : checkAmounts swept request limits = .ok ()) :
    reserve hash store request limits = (claimSubject swept request limits).map fun claimed =>
      ({ claimed with
        reservations := claimed.reservations.insert request.reservationId (request.row hash) }, .reserved) := by
  unfold reserve
  simp only [hvalid, decide_true, require, if_true, hensure, haccepting, hexpire, hnew, hamounts, bind, Except.bind]
  cases claimSubject swept request limits <;> rfl

/-- A subject that nothing stands for is refused exactly when the counted ones have reached the limit. -/
theorem Exact.refused_iff (h : Exact hash ⟨store, events⟩) {key : ClaimKey} (hkey : (request.row hash).claimKey = some key)
    (henforced : limits.enforceMauLimit = true) (hevents : ¬∃ event ∈ events, event.claimKey = some key)
    (hdue : ∀ id row, store.reservations.lookup id = some row → row.status = .active → row.claimKey = some key →
      row.expiresAtMs ≤ request.createdAtMs) {store' : Store δ}
    (hreserve : reserve hash store request { limits with enforceMauLimit := false } = .ok (store', .reserved)) :
    ∃ swept, expireReservations store request.createdAtMs = .ok swept ∧
      (reserve hash store request limits = .error (.limitExceeded .monthlyActiveUsers) ↔
        limits.monthlyActiveUsers ≤ countedSubjects swept key.1) := by
  obtain ⟨hvalid, ensured, swept, hensure, haccepting, hexpire, ⟨_, -, -, -, hduplicate⟩ | ⟨hnew, hamounts, -, -⟩⟩ :=
    reserve_ok hreserve
  · cases hduplicate
  · have hframe := ensurePeriod_frame hensure
    have hensured : Exact hash ⟨ensured, events⟩ := h.ensured hensure
    have hreservations : ensured.reservations = store.reservations := by rw [hframe]
    have hgone := hensured.lookup_swept hexpire hevents (hreservations ▸ hdue)
    obtain ⟨subject, hsubject, rfl⟩ := Option.map_eq_some_iff.mp hkey
    have hrefused := claimSubject_refused_iff hsubject hgone henforced
    have hamounts : checkAmounts swept request limits = .ok () := hamounts
    refine ⟨_, expireReservations_eq h.claims _, ?_⟩
    rw [reserve_eq hvalid hensure haccepting hexpire hnew hamounts]
    rw [expireReservations_eq hensured.claims] at hexpire
    obtain rfl := Except.ok.inj hexpire
    rw [map_error_iff, hrefused, hframe]
    rfl

end Refusal

/-- In every state that the operations reach, a row for a subject counts exactly when an event that was
ingested or a reservation that is still active carries it, every row counts, and of the subjects that
neither does, the limit refuses a new one exactly when the counted ones have reached it. -/
theorem active_user_claims_exact (hinj : Function.Injective hash) (calls : List StoreCall) (key : ClaimKey) :
    let world := Machine.run (step hash) {} calls
    ((∃ claim, world.store.activeUserClaims.lookup key = some claim ∧ claim.isCounted = true) ↔
      (∃ event ∈ world.events, event.claimKey = some key) ∨
        ∃ id row, world.store.reservations.lookup id = some row ∧ row.status = .active ∧ row.claimKey = some key) ∧
    (∀ claim, world.store.activeUserClaims.lookup key = some claim → claim.isCounted = true) ∧
    ∀ request limits, request.activeSubjectHash.map (request.period.startMs, ·) = some key →
      limits.enforceMauLimit = true → (¬∃ event ∈ world.events, event.claimKey = some key) →
      (∀ id row, world.store.reservations.lookup id = some row → row.status = .active → row.claimKey = some key →
        row.expiresAtMs ≤ request.createdAtMs) →
      (∃ store', reserve hash world.store request { limits with enforceMauLimit := false } = .ok (store', .reserved)) →
      ∃ swept, expireReservations world.store request.createdAtMs = .ok swept ∧
        (reserve hash world.store request limits = .error (.limitExceeded .monthlyActiveUsers) ↔
          limits.monthlyActiveUsers ≤ countedSubjects swept key.1) := by
  intro world
  have h : Exact hash world := exact_run hinj calls
  refine ⟨?_, fun claim hclaim => h.isCounted hclaim, ?_⟩
  · rw [← h.isSome_iff key, Option.isSome_iff_exists]
    refine exists_congr fun claim => and_iff_left_of_imp fun hclaim => h.isCounted hclaim
  · intro request limits hkey henforced hevents hdue hreserve
    obtain ⟨store', hreserve⟩ := hreserve
    exact h.refused_iff hkey henforced hevents hdue hreserve

section Sample

def samplePeriod : BillingPeriod := ⟨0, 30*dayMs, 32*dayMs, by decide⟩

def sampleSubject (n : UInt8) : SubjectHash := ⟨List.replicate 32 n, by simp⟩

def sampleReservation (id : Char) (subject : UInt8) (createdAtMs : Int) : ReservationRequest where
  reservationId := [id]
  projectId := 1
  period := samplePeriod
  createdAtMs := createdAtMs
  expiresAtMs := createdAtMs + 60000
  readUnits := 0
  writeUnits := 1
  storageGrowthBytes := 0
  activeSubjectHash := some (sampleSubject subject)

def sampleLimits (monthlyActiveUsers : Nat) : UsageLimits := ⟨0, 0, monthlyActiveUsers, 0, false, false, true, false⟩

def sampleEvent (id : Char) (subject : UInt8) (occurredAtMs recordedAtMs : Int) : UsageEvent where
  eventId := [id]
  projectId := 1
  period := samplePeriod
  occurredAtMs := occurredAtMs
  recordedAtMs := recordedAtMs
  readUnits := 0
  writeUnits := 1
  activeSubjectHash := some (sampleSubject subject)
  storageSnapshots := []

def sampleCalls : List StoreCall :=
  [.reserve (sampleReservation 'a' 1 1000) (sampleLimits 1), .reserve (sampleReservation 'b' 2 70000) (sampleLimits 1),
    .settle ['a'] (sampleEvent 'a' 1 1500 80000)]

/-- A third subject is refused after that when two are allowed, and admitted when three are. -/
theorem third_subject_refused :
    let world := Machine.run (step id) {} sampleCalls
    (∃ claim, world.store.activeUserClaims.lookup (0, sampleSubject 1) = some claim ∧ claim.isCounted = true) ∧
      ∃ swept, expireReservations world.store 90000 = .ok swept ∧
        (reserve id world.store (sampleReservation 'c' 3 90000) (sampleLimits 2) =
          .error (.limitExceeded .monthlyActiveUsers) ↔ 2 ≤ countedSubjects swept 0) := by
  intro world
  have hfirst := active_user_claims_exact Function.injective_id sampleCalls (0, sampleSubject 1)
  have hthird := active_user_claims_exact Function.injective_id sampleCalls (0, sampleSubject 3)
  have hheld : ∀ entry ∈ world.store.reservations.entries, entry.2.claimKey ≠ some (0, sampleSubject 3) := by
    decide +kernel
  have hadmitted : (reserve id world.store (sampleReservation 'c' 3 90000)
      { sampleLimits 2 with enforceMauLimit := false }).map Prod.snd = .ok .reserved := by decide +kernel
  refine ⟨hfirst.1.mpr (.inl ⟨sampleEvent 'a' 1 1500 80000, by decide +kernel, rfl⟩),
    hthird.2.2 (sampleReservation 'c' 3 90000) (sampleLimits 2) rfl rfl (by decide +kernel) ?_ ?_⟩
  · intro id row hrow _ hkey
    exact absurd hkey (hheld ⟨id, row⟩ (AList.mem_entries.mpr hrow))
  · cases hreserve : reserve id world.store (sampleReservation 'c' 3 90000)
      { sampleLimits 2 with enforceMauLimit := false } with
    | error _ =>
      rw [hreserve] at hadmitted
      cases hadmitted
    | ok result =>
      rw [hreserve] at hadmitted
      exact ⟨result.1, congrArg Except.ok (Prod.ext rfl (Except.ok.inj hadmitted))⟩

end Sample

end Ffdb.Metrics
