import Ffdb.Metrics.Closing
import Ffdb.Metrics.Ingestion

/-! What is sent again under one identifier: a digest of the request that was taken is kept, and compared with. -/
namespace Ffdb.Metrics
open Fallible
open DatabaseWorker (Uuid)
open Sha256 (bytesOf length_bytesOf)

section Covered

def UsageEvent.SameAs (event other : UsageEvent) : Prop :=
  { event with storageSnapshots := other.storageSnapshots } = other ∧
    ∀ snapshot, snapshot ∈ event.storageSnapshots ↔ snapshot ∈ other.storageSnapshots

/-- What the digest of a report tells apart: where the name of the event ends is not written down. -/
def ReportRequest.SameAs (report other : ReportRequest) : Prop :=
  report.eventName ++ report.customerId = other.eventName ++ other.customerId ∧
    report.period.startMs = other.period.startMs ∧ report.period.endMs = other.period.endMs ∧
    report.dimension = other.dimension ∧ report.windowStartMs = other.windowStartMs ∧
    report.windowEndMs = other.windowEndMs ∧ report.quantity = other.quantity ∧
    report.providerTimestampMs = other.providerTimestampMs

theorem length_timeBytes (t : Int) : (timeBytes t).length = 8 := length_bytesOf 8 _

theorem length_countBytes (n : Nat) : (countBytes n).length = 8 := length_bytesOf 8 _

theorem projectBytes_injective {projectId projectId' : ProjectId}
    (h : bytesOf 16 projectId.toNat = bytesOf 16 projectId'.toNat) : projectId = projectId' := by
  have hrange : (2:Nat)^128 = 256^16 := by decide
  have hlt := projectId.isLt
  have hlt' := projectId'.isLt
  exact BitVec.eq_of_toNat_eq (Octets.bytesOf_injective (hrange ▸ hlt) (hrange ▸ hlt') h)

def StorageSnapshot.Fits (snapshot : StorageSnapshot) : Prop :=
  Text.byteLength snapshot.resourceId ≤ 200 ∧ snapshot.logicalBytes ≤ i64Max

theorem StorageSnapshot.bytes_append_inj {snapshot other : StorageSnapshot} {rest rest' : List UInt8}
    (hfits : snapshot.Fits) (hfits' : other.Fits) (h : snapshot.bytes ++ rest = other.bytes ++ rest') :
    snapshot = other ∧ rest = rest' := by
  have hrange : 200 ≤ i64Max := by decide
  have hlength := Text.length_utf8 snapshot.resourceId
  have hlength' := Text.length_utf8 other.resourceId
  obtain ⟨hid, hbytes⟩ := hfits
  obtain ⟨hid', hbytes'⟩ := hfits'
  simp only [StorageSnapshot.bytes, List.append_assoc] at h
  obtain ⟨hcount, h⟩ := List.append_inj h (by rw [length_countBytes, length_countBytes])
  have hcount := countBytes_injective (by omega) (by omega) hcount
  obtain ⟨hresource, h⟩ := List.append_inj h hcount
  obtain ⟨hsize, h⟩ := List.append_inj h (by rw [length_countBytes, length_countBytes])
  refine ⟨?_, h⟩
  have hresource := Text.utf8_injective hresource
  have hsize := countBytes_injective hbytes hbytes' hsize
  cases snapshot
  cases other
  congr

theorem StorageSnapshot.bytes_ne_nil (snapshot : StorageSnapshot) (rest : List UInt8) : snapshot.bytes ++ rest ≠ [] := by
  have hlength := length_countBytes (Text.utf8 snapshot.resourceId).length
  intro h
  have hnil := congrArg List.length h
  simp only [StorageSnapshot.bytes, List.length_append, List.length_nil] at hnil
  omega

/-- Every size says how long it is, so the sizes one after another can be told apart. -/
theorem snapshots_injective {snapshots others : List StorageSnapshot} (hfits : ∀ snapshot ∈ snapshots, snapshot.Fits)
    (hfits' : ∀ snapshot ∈ others, snapshot.Fits)
    (h : snapshots.flatMap StorageSnapshot.bytes = others.flatMap StorageSnapshot.bytes) : snapshots = others := by
  induction snapshots generalizing others with
  | nil =>
    cases others with
    | nil => rfl
    | cons other others => exact absurd h.symm (other.bytes_ne_nil _)
  | cons snapshot snapshots ih =>
    cases others with
    | nil => exact absurd h (snapshot.bytes_ne_nil _)
    | cons other others =>
      simp only [List.flatMap_cons] at h
      obtain ⟨rfl, htail⟩ := StorageSnapshot.bytes_append_inj (hfits _ List.mem_cons_self) (hfits' _ List.mem_cons_self) h
      have hrest := ih (fun s hs => hfits s (List.mem_cons_of_mem _ hs))
        (fun s hs => hfits' s (List.mem_cons_of_mem _ hs)) htail
      rw [hrest]

theorem UsageEvent.Valid.fits {event : UsageEvent} (h : event.Valid) :
    ∀ snapshot ∈ event.storageSnapshots, snapshot.Fits := by
  obtain ⟨-, -, -, -, hresources, -, -, -, hbytes⟩ := h
  intro snapshot hsnapshot
  have hresource := hresources snapshot hsnapshot
  simp only [validateResourceId, Bool.and_eq_true, decide_eq_true_eq] at hresource
  exact ⟨hresource.1.2, hbytes snapshot hsnapshot⟩

/-- Among the events of one identifier the digest tells all apart that differ. -/
theorem UsageEvent.sameAs_of_bytes {event other : UsageEvent} (hvalid : event.Valid) (hvalid' : other.Valid)
    (hid : event.eventId = other.eventId) (h : event.bytes = other.bytes) : event.SameAs other := by
  obtain ⟨hperiod, hsubject, hoccurred, hrecorded, hsnapshots⟩ := UsageEvent.bytes_inj hvalid hvalid' hid h
  have hfits := hvalid.fits
  have hfits' := hvalid'.fits
  obtain ⟨-, -, -, -, -, -, hreads, hwrites, -⟩ := hvalid
  obtain ⟨-, -, -, -, -, -, hreads', hwrites', -⟩ := hvalid'
  simp only [UsageEvent.bytes, List.append_assoc, hid, hperiod, hoccurred, hrecorded] at h
  have h := List.append_cancel_left (List.append_cancel_left h)
  obtain ⟨hproject, h⟩ := List.append_inj h (by rw [length_bytesOf, length_bytesOf])
  have h := List.append_cancel_left (List.append_cancel_left (List.append_cancel_left h))
  obtain ⟨hread, h⟩ := List.append_inj h (by rw [length_countBytes, length_countBytes])
  obtain ⟨hwrite, -⟩ := List.append_inj h (by rw [length_countBytes, length_countBytes])
  have hprojectId := projectBytes_injective hproject
  have hreadUnits := countBytes_injective hreads hreads' hread
  have hwriteUnits := countBytes_injective hwrites hwrites' hwrite
  have hsorted := snapshots_injective (fun s hs => hfits s ((List.mem_insertionSort _).mp hs))
    (fun s hs => hfits' s ((List.mem_insertionSort _).mp hs)) hsnapshots
  constructor
  · cases event
    cases other
    simp only at hid hprojectId hperiod hoccurred hrecorded hreadUnits hwriteUnits hsubject
    subst hid hprojectId hperiod hoccurred hrecorded hreadUnits hwriteUnits hsubject
    rfl
  · intro snapshot
    rw [← List.mem_insertionSort StorageSnapshot.le, hsorted, List.mem_insertionSort]

/-- Among the reservations of one identifier the digest tells all apart that differ. -/
theorem ReservationRequest.eq_of_bytes {request other : ReservationRequest} (hvalid : request.Valid)
    (hvalid' : other.Valid) (hid : request.reservationId = other.reservationId) (h : request.bytes = other.bytes) :
    request = other := by
  obtain ⟨hperiod, hcreated, hgrowth, hsubject⟩ := ReservationRequest.bytes_inj hvalid hvalid' hid h
  have hrange := request.period.inRange
  have hrange' := other.period.inRange
  obtain ⟨-, hvalidPeriod, ⟨hfrom, hto, hbefore, hcutoff, -⟩, hreads, hwrites, -⟩ := hvalid
  obtain ⟨-, -, ⟨hfrom', hto', hbefore', hcutoff', -⟩, hreads', hwrites', -⟩ := hvalid'
  have hstart := hvalidPeriod.1
  simp only [ReservationRequest.bytes, List.append_assoc, hid, hperiod, hcreated] at h
  have h := List.append_cancel_left (List.append_cancel_left h)
  obtain ⟨hproject, h⟩ := List.append_inj h (by rw [length_bytesOf, length_bytesOf])
  have h := List.append_cancel_left (List.append_cancel_left h)
  obtain ⟨hexpires, h⟩ := List.append_inj h (by rw [length_timeBytes, length_timeBytes])
  obtain ⟨hread, h⟩ := List.append_inj h (by rw [length_countBytes, length_countBytes])
  obtain ⟨hwrite, -⟩ := List.append_inj h (by rw [length_countBytes, length_countBytes])
  have hproject := projectBytes_injective hproject
  have hexpires := timeBytes_injective (by omega) (by omega) (by omega) (by omega) hexpires
  have hread := countBytes_injective hreads hreads' hread
  have hwrite := countBytes_injective hwrites hwrites' hwrite
  cases request
  cases other
  congr

def UsageDimension.bytes (dimension : UsageDimension) : List UInt8 := Text.utf8 dimension.asStr.toList

/-- No name of a dimension ends in another. -/
theorem UsageDimension.eq_of_suffix : ∀ dimension other : UsageDimension, dimension.bytes <:+ other.bytes →
    dimension = other := by
  intro dimension other
  cases dimension <;> cases other <;> decide +kernel

theorem UsageDimension.append_bytes_inj {dimension other : UsageDimension} {front front' : List UInt8}
    (h : front ++ dimension.bytes = front' ++ other.bytes) : front = front' ∧ dimension = other := by
  have hsuffix : dimension.bytes <:+ front' ++ other.bytes := ⟨front, h⟩
  have hsame : dimension = other := by
    obtain hshorter | hlonger := List.suffix_or_suffix_of_suffix hsuffix (List.suffix_append front' other.bytes)
    · exact eq_of_suffix dimension other hshorter
    · exact (eq_of_suffix other dimension hlonger).symm
  subst hsame
  exact ⟨List.append_cancel_right h, rfl⟩

/-- Among the reports of one identifier the digest tells apart what it covers. -/
theorem ReportRequest.sameAs_of_bytes {report other : ReportRequest} (hvalid : report.Valid) (hvalid' : other.Valid)
    (hid : report.identifier = other.identifier) (h : report.bytes = other.bytes) : report.SameAs other := by
  have hrange := report.period.inRange
  have hrange' := other.period.inRange
  obtain ⟨-, -, -, hperiod, ⟨hfrom, hwindow, hto, hsince, huntil, -⟩, -, hquantity⟩ := hvalid
  obtain ⟨-, -, -, hperiod', ⟨hfrom', hwindow', hto', hsince', huntil', -⟩, -, hquantity'⟩ := hvalid'
  obtain ⟨hstart, -, -, hcutoff, -⟩ := hperiod
  obtain ⟨hstart', -, -, hcutoff', -⟩ := hperiod'
  have htimes (t t' : Int) : (timeBytes t).length = (timeBytes t').length := by
    rw [length_timeBytes, length_timeBytes]
  have hcounts (n n' : Nat) : (countBytes n).length = (countBytes n').length := by
    rw [length_countBytes, length_countBytes]
  obtain ⟨h, hsent⟩ := List.append_inj' h (htimes _ _)
  obtain ⟨h, hcount⟩ := List.append_inj' h (hcounts _ _)
  obtain ⟨h, hwindowEnd⟩ := List.append_inj' h (htimes _ _)
  obtain ⟨h, hwindowStart⟩ := List.append_inj' h (htimes _ _)
  obtain ⟨h, hdimension⟩ := UsageDimension.append_bytes_inj h
  obtain ⟨h, hend⟩ := List.append_inj' h (htimes _ _)
  obtain ⟨h, hfirst⟩ := List.append_inj' h (htimes _ _)
  have hnames : Text.utf8 (report.eventName ++ report.customerId) = Text.utf8 (other.eventName ++ other.customerId) := by
    rw [Text.utf8_append, Text.utf8_append]
    simp only [hid, List.append_assoc] at h
    exact List.append_cancel_left (List.append_cancel_left h)
  exact ⟨Text.utf8_injective hnames, timeBytes_injective (by omega) (by omega) (by omega) (by omega) hfirst,
    timeBytes_injective (by omega) (by omega) (by omega) (by omega) hend, hdimension,
    timeBytes_injective (by omega) (by omega) (by omega) (by omega) hwindowStart,
    timeBytes_injective (by omega) (by omega) (by omega) (by omega) hwindowEnd,
    countBytes_injective hquantity hquantity' hcount,
    timeBytes_injective (by omega) (by omega) (by omega) (by omega) hsent⟩

end Covered

variable {δ : Type} {hash : List UInt8 → δ} {store store' : Store δ}

section Kept

/-- What is recorded under a key is still recorded, and what it is read for has not changed. -/
def Keeps {κ ν ρ : Type} [DecidableEq κ] (read : ν → ρ) (table table' : Table κ ν) : Prop :=
  ∀ key row, table.lookup key = some row → ∃ row', table'.lookup key = some row' ∧ read row' = read row

theorem Keeps.insert {κ ν ρ : Type} [DecidableEq κ] {read : ν → ρ} {table : Table κ ν} {key : κ} {row : ν}
    (h : ∀ old, table.lookup key = some old → read row = read old) : Keeps read table (table.insert key row) := by
  intro other old hold
  by_cases hkey : other = key
  · subst hkey
    exact ⟨row, AList.lookup_insert _, h old hold⟩
  · exact ⟨old, (AList.lookup_insert_ne hkey).trans hold, rfl⟩

theorem Keeps.mapValues {κ ν ρ : Type} [DecidableEq κ] {read : ν → ρ} {table : Table κ ν} {f : κ → ν → ν}
    (h : ∀ key row, read (f key row) = read row) : Keeps read table (table.mapValues f) := by
  intro key row hrow
  exact ⟨f key row, by rw [AList.lookup_mapValues, hrow]; rfl, h key row⟩

def Reservation.identity (row : Reservation δ) : δ × Int × Bool × Option SubjectHash :=
  (row.requestSha256, row.periodStartMs, row.mauClaimed, row.subjectHash)

def Grounded (store : Store δ) : Prop :=
  ∀ id row, store.reservations.lookup id = some row →
    row.mauClaimed = row.subjectHash.isSome ∧ (store.periods.lookup row.periodStartMs).isSome = true

structure Remembers (store store' : Store δ) : Prop where
  grounded : Grounded store → Grounded store'
  periods : Keeps (fun _ : PeriodRow => ()) store.periods store'.periods
  events : Keeps EventReceipt.payloadSha256 store.eventReceipts store'.eventReceipts
  reservations : Keeps Reservation.identity store.reservations store'.reservations
  reports : Keeps OutboxRow.payloadSha256 store.outbox store'.outbox

theorem Keeps.refl {κ ν ρ : Type} [DecidableEq κ] {read : ν → ρ} {table : Table κ ν} : Keeps read table table :=
  fun _ row hrow => ⟨row, hrow, rfl⟩

theorem Keeps.trans {κ ν ρ : Type} [DecidableEq κ] {read : ν → ρ} {table table' table'' : Table κ ν}
    (h : Keeps read table table') (h' : Keeps read table' table'') : Keeps read table table'' := by
  intro key row hrow
  obtain ⟨row', hrow', hread⟩ := h key row hrow
  obtain ⟨row'', hrow'', hread'⟩ := h' key row' hrow'
  exact ⟨row'', hrow'', hread'.trans hread⟩

theorem Remembers.trans {store'' : Store δ} (h : Remembers store store') (h' : Remembers store' store'') :
    Remembers store store'' :=
  ⟨h'.grounded ∘ h.grounded, h.periods.trans h'.periods, h.events.trans h'.events,
    h.reservations.trans h'.reservations, h.reports.trans h'.reports⟩

theorem Keeps.isSome {κ ν ρ : Type} [DecidableEq κ] {read : ν → ρ} {table table' : Table κ ν}
    (h : Keeps read table table') {key : κ} (hkey : (table.lookup key).isSome = true) :
    (table'.lookup key).isSome = true := by
  obtain ⟨row, hrow⟩ := Option.isSome_iff_exists.mp hkey
  obtain ⟨row', hrow', -⟩ := h key row hrow
  exact Option.isSome_iff_exists.mpr ⟨row', hrow'⟩

/-- Reservations, receipts and reports are not touched. -/
theorem remembers_of_same (hperiods : Keeps (fun _ : PeriodRow => ()) store.periods store'.periods)
    (hreservations : store'.reservations = store.reservations) (hreceipts : store'.eventReceipts = store.eventReceipts)
    (houtbox : store'.outbox = store.outbox) : Remembers store store' where
  grounded hgrounded id row hrow := by
    rw [hreservations] at hrow
    exact ⟨(hgrounded id row hrow).1, hperiods.isSome (hgrounded id row hrow).2⟩
  periods := hperiods
  events := hreceipts ▸ .refl
  reservations := hreservations ▸ .refl
  reports := houtbox ▸ .refl

theorem Remembers.refl : Remembers store store := remembers_of_same .refl rfl rfl rfl

theorem remembers_ensured {period : BillingPeriod} (h : ensurePeriod store period = .ok store') :
    Remembers store store' := by
  obtain ⟨-, row, -, -, -, ⟨-, rfl⟩ | ⟨-, -, rfl⟩⟩ := ensurePeriod_ok h
  · exact .refl
  · exact remembers_of_same (.insert fun _ _ => rfl) rfl rfl rfl

theorem remembers_claims (claims : Table ClaimKey ActiveUserClaim) :
    Remembers store { store with activeUserClaims := claims } :=
  remembers_of_same .refl rfl rfl rfl

/-- The row of a reservation is written again, for the same request. -/
theorem remembers_written {id : List Char} {row old : Reservation δ} (hold : store.reservations.lookup id = some old)
    (hidentity : row.identity = old.identity) :
    Remembers store { store with reservations := store.reservations.insert id row } where
  grounded hgrounded := by
    intro other row' hrow'
    obtain ⟨rfl, rfl⟩ | ⟨-, hrow'⟩ := AList.lookup_insert_eq_some_iff.mp hrow'
    · obtain ⟨-, hperiod, hclaimed, hsubject⟩ := by simpa only [Reservation.identity, Prod.mk.injEq] using hidentity
      rw [hclaimed, hsubject, hperiod]
      exact hgrounded other old hold
    · exact hgrounded other row' hrow'
  periods := .refl
  events := .refl
  reservations := .insert fun row' hrow' => by
    rw [hold] at hrow'
    rw [hidentity, Option.some.inj hrow']
  reports := .refl

theorem remembers_swept {nowMs : Int} (h : expireReservations store nowMs = .ok store') : Remembers store store' := by
  simp only [expireReservations, bind_ok_iff, pure_ok_iff] at h
  obtain ⟨released, hrelease, rfl⟩ := h
  have hreleased : Remembers store released := by
    refine foldlM_keeps (P := Remembers store) ?_ hrelease .refl
    intro s row s' _ hstep hs
    rw [releaseMauClaim_frame hs]
    exact hstep.trans (remembers_claims _)
  have hidentity (row : Reservation δ) : (row.expire nowMs).identity = row.identity := by
    unfold Reservation.expire
    split <;> rfl
  refine hreleased.trans ⟨fun hgrounded id row hrow => ?_, .refl, .refl, .mapValues fun _ row => hidentity row, .refl⟩
  rw [AList.lookup_mapValues, Option.map_eq_some_iff] at hrow
  obtain ⟨old, hold, rfl⟩ := hrow
  obtain ⟨-, hperiod, hclaimed, hsubject⟩ := by simpa only [Reservation.identity, Prod.mk.injEq] using hidentity old
  rw [hclaimed, hsubject, hperiod]
  exact hgrounded id old hold

end Kept

section Calls
variable [DecidableEq δ] {event : UsageEvent} {outcome : IngestOutcome} {id : List Char}

theorem remembers_ingested (h : ingestEvent hash store event = .ok (store', outcome)) : Remembers store store' := by
  obtain ⟨middle, hensure, ⟨-, -, -, rfl, -⟩ | ⟨hnone, -, hfold⟩⟩ := ingestEvent_ok h
  · exact remembers_ensured hensure
  · have hcounted : Remembers middle (countEvent hash middle event) := by
      refine ⟨fun hgrounded => hgrounded, .refl, .insert fun old hold => ?_, .refl, .refl⟩
      rw [ensurePeriod_frame hensure, hnone] at hold
      cases hold
    rw [recordSnapshots_frame hfold]
    exact ((remembers_ensured hensure).trans hcounted).trans (remembers_of_same .refl rfl rfl rfl)

theorem remembers_recorded (h : recordEvent hash store event = .ok (store', outcome)) : Remembers store store' := by
  obtain ⟨-, middle, hensure, -, hingest⟩ := recordEvent_ok h
  exact (remembers_ensured hensure).trans (remembers_ingested hingest)

theorem remembers_settled (h : settleReservation hash store id event = .ok (store', outcome)) :
    Remembers store store' := by
  obtain ⟨-, row, hrow, ⟨-, -, hingest⟩ | ⟨-, -, -, ingested, activated, hingest, hactivate, rfl⟩⟩ := settleReservation_ok h
  · exact remembers_ingested hingest
  · have hingested := remembers_ingested hingest
    obtain ⟨row', hrow', hidentity⟩ := hingested.reservations id row hrow
    rw [activateMauClaim_frame hactivate]
    refine (hingested.trans (remembers_claims _)).trans (@remembers_written _ _ _ _ row' hrow' ?_)
    exact hidentity.symm

omit [DecidableEq δ] in
theorem remembers_released {nowMs : Int} {status : ReservationStatus}
    (h : releaseReservation store id nowMs = .ok (store', status)) : Remembers store store' := by
  obtain ⟨row, hrow, ⟨-, -, released, hclaim, rfl⟩ | ⟨-, -, rfl⟩⟩ := releaseReservation_ok h
  · rw [releaseMauClaim_frame hclaim]
    exact (remembers_claims _).trans (@remembers_written _ _ _ _ row hrow rfl)
  · exact .refl

theorem remembers_reserved {request : ReservationRequest} {limits : UsageLimits} {admission : ReservationAdmission}
    (h : reserve hash store request limits = .ok (store', admission)) : Remembers store store' := by
  obtain ⟨-, ensured, swept, hensure, -, hexpire, hrest⟩ := reserve_ok h
  have hswept := (remembers_ensured hensure).trans (remembers_swept hexpire)
  obtain ⟨_, -, -, rfl, -⟩ | ⟨hnone, -, -, claimed, hclaim, rfl⟩ := hrest
  · exact hswept
  · have hclaimed : Remembers swept claimed := by
      rw [claimSubject_ok hclaim]
      exact remembers_claims _
    have hregistered : (claimed.periods.lookup request.period.startMs).isSome = true := by
      obtain ⟨row, hrow, -⟩ := registered_of_ensured hensure
      exact ((remembers_swept hexpire).trans hclaimed).periods.isSome (Option.isSome_iff_exists.mpr ⟨row, hrow⟩)
    refine (hswept.trans hclaimed).trans ⟨fun hgrounded other row hrow => ?_, .refl, .refl, .insert fun old hold => ?_, .refl⟩
    · obtain ⟨-, rfl⟩ | ⟨-, hrow⟩ := AList.lookup_insert_eq_some_iff.mp hrow
      · exact ⟨rfl, hregistered⟩
      · exact hgrounded other row hrow
    · rw [claimSubject_ok hclaim, hnone] at hold
      cases hold

omit [DecidableEq δ] in
theorem remembers_sealed {period : BillingPeriod} {nowMs : Int} (h : sealPeriod store period nowMs = .ok store') :
    Remembers store store' := by
  simp only [sealPeriod, bind_ok_iff, orError_ok_iff] at h
  obtain ⟨_, -, _, -, middle, hensure, row, hrow, hrest⟩ := h
  refine (remembers_ensured hensure).trans ?_
  split at hrest
  · obtain rfl := (pure_ok_iff _ _).mp hrest
    exact .refl
  · obtain rfl := (pure_ok_iff _ _).mp hrest
    exact remembers_of_same (.insert fun _ _ => rfl) rfl rfl rfl

theorem remembers_reported {call : OutboxCall} {happenings : List Happening}
    (h : call.perform hash store = .ok (store', happenings)) : Remembers store store' := by
  obtain ⟨ensured, hensured, hframe⟩ := outbox_frame h
  have hkept : Remembers store ensured := by
    obtain rfl | ⟨period, hensure⟩ := hensured
    · exact .refl
    · exact remembers_ensured hensure
  rw [hframe]
  refine ⟨hkept.grounded, hkept.periods, hkept.events, hkept.reservations, fun identifier row hrow => ?_⟩
  have hsteps := rowSteps_perform h identifier
  rw [hrow] at hsteps
  obtain ⟨next, hnext, hcontents⟩ := hsteps.contents
  have hdigest := congrArg OutboxRow.payloadSha256 hcontents
  exact ⟨next, hnext, hdigest⟩

/-- What one call leaves of what was recorded before. -/
theorem remembers_advance (world : World δ) (call : MetricsCall) :
    Remembers world.store (advance hash world call).store := by
  cases call with
  | usage call =>
    simp only [advance, step]
    cases hperform : call.perform hash world with
    | error e => exact .refl
    | ok world' =>
      cases performed_of_ok hperform with
      | reserve hreserve => exact remembers_reserved hreserve
      | release hrelease => exact remembers_released hrelease
      | settle hsettle => exact remembers_settled hsettle
      | record hrecord => exact remembers_recorded hrecord
      | close hclose => exact remembers_sealed hclose
  | report call =>
    simp only [advance, outboxStep]
    cases hperform : call.perform hash world.store with
    | error e => exact .refl
    | ok result => exact remembers_reported hperform
  | reconcile period dimension localQuantity providerQuantity =>
    simp only [advance, recordReconciliation]
    cases hensure : ensurePeriod world.store period with
    | error e => exact .refl
    | ok ensured =>
      have hkept := remembers_ensured hensure
      dsimp only
      split
      · exact hkept.trans (remembers_of_same .refl rfl rfl rfl)
      · exact hkept
  | finalize period =>
    simp only [advance]
    cases hfinalize : finalizePeriod world.store period with
    | error e => exact .refl
    | ok store =>
      simp only [finalizePeriod, bind_ok_iff, pure_ok_iff] at hfinalize
      obtain ⟨_, -, _, -, _, -, rfl⟩ := hfinalize
      exact remembers_of_same (.insert fun _ _ => rfl) rfl rfl rfl

theorem remembers_run (world : World δ) (calls : List MetricsCall) :
    Remembers world.store (Machine.run (advance hash) world calls).store := by
  induction calls generalizing world with
  | nil => exact .refl
  | cons call calls ih => exact (remembers_advance world call).trans (ih _)

end Calls

section Refusals
variable {period : BillingPeriod} {event : UsageEvent}

def TakesNoUsage (store : Store δ) (period : BillingPeriod) : Prop :=
  ∃ row, store.periods.lookup period.startMs = some row ∧ row.status.isShut = true

theorem failsOnly_ensurePeriod (hvalid : period.Valid) : FailsOnly .hashConflict (ensurePeriod store period) := by
  refine FailsOnly.bind (fun error herror => ?_) fun _ _ => ?_
  · simp [require, hvalid] at herror
  · cases store.periods.lookup period.startMs with
    | none => exact .ok _
    | some row => exact .bind (.require _) fun _ _ => .ok _

theorem ensureAccepting_error (hregistered : (store.periods.lookup period.startMs).isSome = true) {recordedAtMs : Int}
    (hcutoff : recordedAtMs ≤ period.cutoffMs) {error : MetricsError}
    (h : ensureAccepting store period recordedAtMs = .error error) : error = .periodSealed ∧ TakesNoUsage store period := by
  obtain ⟨row, hrow⟩ := Option.isSome_iff_exists.mp hregistered
  simp only [ensureAccepting, hrow, orError, bind, Except.bind, hcutoff, decide_true, Bool.and_true, require] at h
  cases hshut : row.status.isShut with
  | false => simp [hshut] at h
  | true =>
    simp only [hshut, Bool.not_true, Bool.false_eq_true, if_false, Except.error.injEq] at h
    exact ⟨h.symm, row, hrow, hshut⟩

/-- A period that is registered anew takes usage. -/
theorem takesNoUsage_of_ensured (h : ensurePeriod store period = .ok store') (hshut : TakesNoUsage store' period) :
    TakesNoUsage store period := by
  obtain ⟨-, row, hrow, -, -, ⟨-, rfl⟩ | ⟨-, hopened, -⟩⟩ := ensurePeriod_ok h
  · exact hshut
  · obtain ⟨own, hown, hclosed⟩ := hshut
    rw [hrow] at hown
    rw [← Option.some.inj hown, hopened] at hclosed
    cases hclosed

theorem ensured_accepting_error (h : ensurePeriod store period = .ok store') {recordedAtMs : Int}
    (hcutoff : recordedAtMs ≤ period.cutoffMs) {error : MetricsError}
    (herror : ensureAccepting store' period recordedAtMs = .error error) :
    error = .periodSealed ∧ TakesNoUsage store period := by
  obtain ⟨row, hrow, -⟩ := registered_of_ensured h
  obtain ⟨hsealed, hshut⟩ := ensureAccepting_error (Option.isSome_iff_exists.mpr ⟨row, hrow⟩) hcutoff herror
  exact ⟨hsealed, takesNoUsage_of_ensured h hshut⟩

/-- The checks in front of the comparison of an event: of its period, and of the reservation that it is for. -/
inductive EventGuard (store : Store δ) (event : UsageEvent) : Option (List Char) → MetricsError → Prop
  | shut {origin : Option (List Char)} (h : TakesNoUsage store event.period) : EventGuard store event origin .periodSealed
  | unknown {id : List Char} (h : store.reservations.lookup id = none) :
    EventGuard store event (some id) .reservationNotFound
  | mismatch {id : List Char} {row : Reservation δ} (hrow : store.reservations.lookup id = some row)
    (h : row.status = .released ∨ row.status = .settled ∧ row.eventId ≠ some event.eventId ∨ row.covers event = false) :
    EventGuard store event (some id) .reservationMismatch

variable [DecidableEq δ] {digest : δ}

def EventKnown (store : Store δ) (eventId : List Char) (digest : δ) : Prop :=
  ∃ row, store.eventReceipts.lookup eventId = some row ∧ row.payloadSha256 = digest

omit [DecidableEq δ] in
theorem EventKnown.later {eventId : List Char} (h : EventKnown store eventId digest) (hkept : Remembers store store') :
    EventKnown store' eventId digest := by
  obtain ⟨row, hrow, rfl⟩ := h
  exact hkept.events eventId row hrow

theorem ingestEvent_compared (hknown : EventKnown store event.eventId digest) {outcome : IngestOutcome}
    (h : ingestEvent hash store event = .ok (store', outcome)) : outcome = .duplicate ∧ digest = hash event.bytes := by
  obtain ⟨row, hrow, rfl⟩ := hknown
  obtain ⟨middle, -, ⟨stored, hstored, hsame, -, rfl⟩ | ⟨hnone, -, -⟩⟩ := ingestEvent_ok h
  · rw [hrow] at hstored
    rw [Option.some.inj hstored]
    exact ⟨rfl, hsame⟩
  · rw [hrow] at hnone
    cases hnone

theorem failsOnly_ingestEvent (hknown : EventKnown store event.eventId digest) (hvalid : event.period.Valid) :
    FailsOnly .hashConflict (ingestEvent hash store event) := by
  refine FailsOnly.bind (failsOnly_ensurePeriod hvalid) fun middle hensure => ?_
  obtain ⟨row, hrow, -⟩ := hknown.later (remembers_ensured hensure)
  rw [hrow]
  exact .bind (.require _) fun _ _ => .ok _

theorem submit_compared (hknown : EventKnown store event.eventId digest) {origin : Option (List Char)}
    {outcome : IngestOutcome} (h : submit hash store origin event = .ok (store', outcome)) :
    outcome = .duplicate ∧ digest = hash event.bytes := by
  cases origin with
  | none =>
    obtain ⟨-, middle, hensure, -, hingest⟩ := recordEvent_ok h
    exact ingestEvent_compared (hknown.later (remembers_ensured hensure)) hingest
  | some id =>
    obtain ⟨-, row, -, ⟨-, -, hingest⟩ | ⟨-, -, -, ingested, activated, hingest, -, -⟩⟩ := settleReservation_ok h
    · exact ingestEvent_compared hknown hingest
    · exact ingestEvent_compared hknown hingest

omit [DecidableEq δ] in
theorem activateMauClaim_succeeds {row : Reservation δ} (h : row.mauClaimed = row.subjectHash.isSome) {nowMs : Int}
    {error : MetricsError} : activateMauClaim store row nowMs ≠ .error error := by
  rw [activateMauClaim_eq h]
  intro herror
  cases herror

/-- The error of a settlement is one about the reservation, one of the period, or the one of what is ingested. -/
theorem settleReservation_error {id : List Char} (hid : validateIdentifier id = true) (hvalid : event.Valid)
    {error : MetricsError} (h : settleReservation hash store id event = .error error) :
    EventGuard store event (some id) error ∨ ingestEvent hash store event = .error error ∨
      ∃ row, store.reservations.lookup id = some row ∧
        (row.covers event = true ∧ ensureAccepting store event.period event.recordedAtMs = .error error ∨
          ∃ ingested, activateMauClaim ingested row event.recordedAtMs = .error error) := by
  simp only [settleReservation, bind_error_iff, require_error_iff, hvalid, hid, decide_true, Bool.true_eq_false, false_and,
    false_or, orError_error_iff, orError_ok_iff] at h
  obtain ⟨_, -, _, -, ⟨hnone, rfl⟩ | ⟨row, hrow, h⟩⟩ := h
  · exact .inl (.unknown hnone)
  · cases hstatus : row.status with
    | active | expired =>
      rw [hstatus] at h
      simp only [bind_error_iff, require_error_iff, require_ok_iff] at h
      obtain ⟨huncovered, rfl⟩ | ⟨_, hcovers, herror | ⟨_, -, herror | ⟨ingested, -, herror | ⟨_, -, hpure⟩⟩⟩⟩ := h
      · exact .inl (.mismatch hrow (.inr (.inr huncovered)))
      · exact .inr (.inr ⟨row, hrow, .inl ⟨hcovers, herror⟩⟩)
      · exact .inr (.inl herror)
      · exact .inr (.inr ⟨row, hrow, .inr ⟨_, herror⟩⟩)
      · cases hpure
    | released =>
      rw [hstatus] at h
      obtain rfl := Except.error.inj h
      exact .inl (.mismatch hrow (.inl hstatus))
    | settled =>
      rw [hstatus] at h
      simp only [bind_error_iff, require_error_iff, decide_eq_false_iff_not] at h
      obtain ⟨hother, rfl⟩ | ⟨_, -, herror⟩ := h
      · exact .inl (.mismatch hrow (.inr (.inl ⟨hstatus, hother⟩)))
      · exact .inr (.inl herror)

/-- A known event is refused as another one, or by a check in front of that. -/
theorem submit_refused (hgrounded : Grounded store) (hknown : EventKnown store event.eventId digest) (hvalid : event.Valid)
    {origin : Option (List Char)} (horigin : ∀ id, origin = some id → validateIdentifier id = true) {error : MetricsError}
    (h : submit hash store origin event = .error error) : error = .hashConflict ∨ EventGuard store event origin error := by
  have hcutoff : event.recordedAtMs ≤ event.period.cutoffMs := hvalid.2.2.1.2.2.2
  have hperiod : event.period.Valid := hvalid.2.1
  cases origin with
  | none =>
    simp only [submit, recordEvent, bind_error_iff, require_error_iff, hvalid, decide_true, Bool.true_eq_false, false_and,
      false_or] at h
    obtain ⟨_, -, h⟩ := h
    obtain herror | ⟨middle, hensure, h⟩ := h
    · exact .inl (failsOnly_ensurePeriod hperiod _ herror)
    · obtain herror | ⟨_, -, herror⟩ := h
      · obtain ⟨rfl, hshut⟩ := ensured_accepting_error hensure hcutoff herror
        exact .inr (.shut hshut)
      · exact .inl (failsOnly_ingestEvent (hknown.later (remembers_ensured hensure)) hperiod _ herror)
  | some id =>
    obtain hguard | hingest | ⟨row, hrow, ⟨hcovers, haccepting⟩ | ⟨ingested, hactivate⟩⟩ :=
      settleReservation_error (horigin id rfl) hvalid h
    · exact .inr hguard
    · exact .inl (failsOnly_ingestEvent hknown hperiod _ hingest)
    · simp only [Reservation.covers, Bool.and_eq_true, decide_eq_true_eq] at hcovers
      obtain ⟨⟨⟨⟨⟨-, hstart⟩, -⟩, -⟩, -⟩, -⟩ := hcovers
      have hregistered := (hgrounded id row hrow).2
      rw [hstart] at hregistered
      obtain ⟨rfl, hshut⟩ := ensureAccepting_error hregistered hcutoff haccepting
      exact .inr (.shut hshut)
    · exact absurd hactivate (activateMauClaim_succeeds (hgrounded id row hrow).1)

def ReservationKnown (store : Store δ) (reservationId : List Char) (digest : δ) : Prop :=
  ∃ row, store.reservations.lookup reservationId = some row ∧ row.requestSha256 = digest

omit [DecidableEq δ] in
theorem ReservationKnown.later {id : List Char} (h : ReservationKnown store id digest) (hkept : Remembers store store') :
    ReservationKnown store' id digest := by
  obtain ⟨row, hrow, rfl⟩ := h
  obtain ⟨row', hrow', hidentity⟩ := hkept.reservations id row hrow
  exact ⟨row', hrow', congrArg Prod.fst hidentity⟩

section Reservations
variable {request : ReservationRequest} {limits : UsageLimits}

theorem reserve_compared (hknown : ReservationKnown store request.reservationId digest) {admission : ReservationAdmission}
    (h : reserve hash store request limits = .ok (store', admission)) :
    (∃ status, admission = .duplicate status) ∧ digest = hash request.bytes := by
  obtain ⟨-, ensured, swept, hensure, -, hexpire, hrest⟩ := reserve_ok h
  obtain ⟨row, hrow, rfl⟩ := hknown.later ((remembers_ensured hensure).trans (remembers_swept hexpire))
  obtain ⟨stored, hstored, hsame, -, rfl⟩ | ⟨hnone, -⟩ := hrest
  · rw [hrow] at hstored
    rw [Option.some.inj hstored]
    exact ⟨⟨stored.status, rfl⟩, hsame⟩
  · rw [hrow] at hnone
    cases hnone

theorem reserve_refused (hgrounded : Grounded store) (hknown : ReservationKnown store request.reservationId digest)
    (hvalid : request.Valid) {error : MetricsError} (h : reserve hash store request limits = .error error) :
    error = .hashConflict ∨ error = .periodSealed ∧ TakesNoUsage store request.period := by
  have hcutoff : request.createdAtMs ≤ request.period.cutoffMs := by
    obtain ⟨-, -, ⟨-, -, hbefore, hcutoff, -⟩, -⟩ := hvalid
    omega
  simp only [reserve, bind_error_iff, require_error_iff, hvalid, decide_true, Bool.true_eq_false, false_and, false_or] at h
  obtain ⟨_, -, herror | ⟨ensured, hensure, herror | ⟨_, -, herror | ⟨swept, hexpire, h⟩⟩⟩⟩ := h
  · exact .inl (failsOnly_ensurePeriod hvalid.2.1 _ herror)
  · exact .inr (ensured_accepting_error hensure hcutoff herror)
  · have hclaims : ClaimsSubjects ensured := fun id row hrow => ((remembers_ensured hensure).grounded hgrounded id row hrow).1
    rw [expireReservations_eq hclaims] at herror
    cases herror
  · obtain ⟨row, hrow, -⟩ := hknown.later ((remembers_ensured hensure).trans (remembers_swept hexpire))
    rw [hrow] at h
    simp only [bind_error_iff, require_error_iff] at h
    obtain ⟨-, rfl⟩ | ⟨_, -, hpure⟩ := h
    · exact .inl rfl
    · cases hpure

end Reservations

section Reports
variable {report : ReportRequest}

def ReportKnown (store : Store δ) (identifier : List Char) (digest : δ) : Prop :=
  ∃ row, store.outbox.lookup identifier = some row ∧ row.payloadSha256 = digest

omit [DecidableEq δ] in
theorem ReportKnown.later {identifier : List Char} (h : ReportKnown store identifier digest)
    (hkept : Remembers store store') : ReportKnown store' identifier digest := by
  obtain ⟨row, hrow, rfl⟩ := h
  exact hkept.reports identifier row hrow

theorem enqueueReport_compared (hknown : ReportKnown store report.identifier digest) {outcome : IngestOutcome}
    (h : enqueueReport hash store report = .ok (store', outcome)) : outcome = .duplicate ∧ digest = hash report.bytes := by
  simp only [enqueueReport, bind_ok_iff] at h
  obtain ⟨_, -, ensured, hensure, h⟩ := h
  obtain ⟨row, hrow, rfl⟩ := hknown.later (remembers_ensured hensure)
  rw [hrow] at h
  simp only [bind_ok_iff, require_ok_iff, decide_eq_true_eq, pure_ok_iff, Prod.mk.injEq] at h
  obtain ⟨_, hsame, -, rfl⟩ := h
  exact ⟨rfl, hsame⟩

theorem enqueueReport_refused (hknown : ReportKnown store report.identifier digest) (hvalid : report.Valid)
    {error : MetricsError} (h : enqueueReport hash store report = .error error) : error = .hashConflict := by
  simp only [enqueueReport, bind_error_iff, require_error_iff, hvalid, decide_true, Bool.true_eq_false, false_and,
    false_or] at h
  obtain ⟨_, -, herror | ⟨ensured, hensure, h⟩⟩ := h
  · exact failsOnly_ensurePeriod hvalid.2.2.2.1 _ herror
  · obtain ⟨row, hrow, -⟩ := hknown.later (remembers_ensured hensure)
    rw [hrow] at h
    simp only [bind_error_iff, require_error_iff] at h
    obtain ⟨-, rfl⟩ | ⟨_, -, hpure⟩ := h
    · rfl
    · cases hpure

end Reports

end Refusals

section Runs
variable [DecidableEq δ]

def storeAfter (hash : List UInt8 → δ) (calls : List MetricsCall) : Store δ := (Machine.run (advance hash) {} calls).store

def submission (origin : Option (List Char)) (event : UsageEvent) : MetricsCall :=
  match origin with
  | some id => .usage (.settle id event)
  | none => .usage (.record event)

def ReservationAdmission.outcome : ReservationAdmission → IngestOutcome
  | .reserved => .inserted
  | .duplicate _ => .duplicate

structure Performs (hash : List UInt8 → δ) (call : MetricsCall) {α : Type}
    (act : Store δ → Except MetricsError (Store δ × α)) : Prop where
  ok : ∀ (world : World δ) (store' : Store δ) (a : α), act world.store = .ok (store', a) →
    (advance hash world call).store = store'
  error : ∀ (world : World δ) (e : MetricsError), act world.store = .error e → advance hash world call = world

theorem performs_submission (origin : Option (List Char)) (event : UsageEvent) :
    Performs hash (submission origin event) (submit hash · origin event) where
  ok world store' outcome h := by
    cases origin with
    | none =>
      have h : recordEvent hash world.store event = .ok (store', outcome) := h
      simp [submission, advance, step, StoreCall.perform, h, bind, Except.bind, pure, Except.pure]
    | some id =>
      have h : settleReservation hash world.store id event = .ok (store', outcome) := h
      simp [submission, advance, step, StoreCall.perform, h, bind, Except.bind, pure, Except.pure]
  error world e h := by
    cases origin with
    | none =>
      have h : recordEvent hash world.store event = .error e := h
      simp [submission, advance, step, StoreCall.perform, h, bind, Except.bind]
    | some id =>
      have h : settleReservation hash world.store id event = .error e := h
      simp [submission, advance, step, StoreCall.perform, h, bind, Except.bind]

theorem performs_reserve (request : ReservationRequest) (limits : UsageLimits) :
    Performs hash (.usage (.reserve request limits)) (reserve hash · request limits) where
  ok world store' admission h := by
    simp [advance, step, StoreCall.perform, h, bind, Except.bind, pure, Except.pure]
  error world e h := by
    simp [advance, step, StoreCall.perform, h, bind, Except.bind]

theorem performs_enqueue (report : ReportRequest) :
    Performs hash (.report (.enqueue report)) (enqueueReport hash · report) where
  ok world store' outcome h := by
    cases outcome <;>
      simp [advance, outboxStep, OutboxCall.perform, h, bind, Except.bind, pure, Except.pure]
  error world e h := by
    simp [advance, outboxStep, OutboxCall.perform, h, bind, Except.bind]

theorem grounded_after (calls : List MetricsCall) : Grounded (storeAfter hash calls) :=
  (remembers_run {} calls).grounded fun _ _ hrow => by cases hrow

/-- What a call leaves is remembered by all that come after it. -/
theorem remembers_after {call : MetricsCall} {α : Type} {act : Store δ → Except MetricsError (Store δ × α)}
    (hperforms : Performs hash call act) {before : List MetricsCall} {a : α}
    (h : act (storeAfter hash before) = .ok (store', a)) (after : List MetricsCall) :
    Remembers store' (storeAfter hash (before ++ call :: after)) := by
  have hcall := hperforms.ok (Machine.run (advance hash) {} before) store' a h
  rw [storeAfter, Machine.run_append, Machine.run, ← hcall]
  exact remembers_run _ after

/-- A request under an identifier that is known: it is a duplicate only if it is the same as the one before; otherwise it
is refused, and an error changes nothing. -/
structure AnsweredExactly (hash : List UInt8 → δ) (calls : List MetricsCall) (call : MetricsCall)
    (answer : Except MetricsError IngestOutcome) (same : Prop) (guarded : MetricsError → Prop) : Prop where
  duplicate : ∀ outcome, answer = .ok outcome → outcome = .duplicate ∧ same
  refused : ¬ same → ∃ error, answer = .error error ∧ (error = .hashConflict ∨ guarded error)
  unchanged : ∀ error, answer = .error error → storeAfter hash (calls ++ [call]) = storeAfter hash calls

theorem answeredExactly {calls : List MetricsCall} {call : MetricsCall} {α : Type} {same : Prop}
    {act : Store δ → Except MetricsError (Store δ × α)} {read : α → IngestOutcome} {guarded : MetricsError → Prop}
    (hperforms : Performs hash call act)
    (hok : ∀ store' a, act (storeAfter hash calls) = .ok (store', a) → read a = .duplicate ∧ same)
    (herror : ∀ e, act (storeAfter hash calls) = .error e → e = .hashConflict ∨ guarded e) :
    AnsweredExactly hash calls call ((act (storeAfter hash calls)).map fun result => read result.2) same guarded := by
  cases hact : act (storeAfter hash calls) with
  | ok result =>
    have hsame := hok result.1 result.2 hact
    refine ⟨fun outcome houtcome => ?_, fun hother => absurd hsame.2 hother, fun error herror => ?_⟩
    · rw [← Except.ok.inj houtcome]
      exact hsame
    · cases herror
  | error e =>
    refine ⟨fun outcome houtcome => ?_, fun _ => ⟨e, rfl, herror e hact⟩, fun _ _ => ?_⟩
    · cases houtcome
    · have hworld := hperforms.error (Machine.run (advance hash) {} calls) e hact
      rw [storeAfter, Machine.run_append, Machine.run, hworld]
      rfl

theorem eventKnown_of_taken {origin : Option (List Char)} {event : UsageEvent}
    (h : submit hash store origin event = .ok (store', .inserted)) :
    event.Valid ∧ EventKnown store' event.eventId (hash event.bytes) := by
  have hingested {before after : Store δ} (h : ingestEvent hash before event = .ok (after, .inserted)) :
      EventKnown after event.eventId (hash event.bytes) := by
    obtain ⟨middle, -, ⟨-, -, -, -, hduplicate⟩ | ⟨-, -, hfold⟩⟩ := ingestEvent_ok h
    · cases hduplicate
    · rw [recordSnapshots_frame hfold]
      exact ⟨_, AList.lookup_insert _, rfl⟩
  cases origin with
  | none =>
    obtain ⟨hvalid, middle, -, -, hingest⟩ := recordEvent_ok h
    exact ⟨hvalid, hingested hingest⟩
  | some id =>
    obtain ⟨hvalid, row, -, ⟨-, -, hingest⟩ | ⟨-, -, -, ingested, activated, hingest, hactivate, rfl⟩⟩ :=
      settleReservation_ok h
    · exact ⟨hvalid, hingested hingest⟩
    · obtain ⟨receipt, hreceipt, hdigest⟩ := hingested hingest
      rw [activateMauClaim_frame hactivate]
      exact ⟨hvalid, receipt, hreceipt, hdigest⟩

theorem reservationKnown_of_taken {request : ReservationRequest} {limits : UsageLimits}
    (h : reserve hash store request limits = .ok (store', .reserved)) :
    request.Valid ∧ ReservationKnown store' request.reservationId (hash request.bytes) := by
  obtain ⟨hvalid, ensured, swept, -, -, -, ⟨_, -, -, -, hduplicate⟩ | ⟨-, -, -, claimed, -, rfl⟩⟩ := reserve_ok h
  · cases hduplicate
  · exact ⟨hvalid, _, AList.lookup_insert _, rfl⟩

theorem reportKnown_of_taken {report : ReportRequest} (h : enqueueReport hash store report = .ok (store', .inserted)) :
    report.Valid ∧ ReportKnown store' report.identifier (hash report.bytes) := by
  simp only [enqueueReport, bind_ok_iff, require_ok_iff, decide_eq_true_eq] at h
  obtain ⟨_, hvalid, ensured, -, h⟩ := h
  refine ⟨hvalid, ?_⟩
  split at h
  · simp only [bind_ok_iff, pure_ok_iff, Prod.mk.injEq] at h
    obtain ⟨_, -, -, hduplicate⟩ := h
    cases hduplicate
  · simp only [pure_ok_iff, Prod.mk.injEq] at h
    obtain ⟨rfl, -⟩ := h
    exact ⟨_, AList.lookup_insert _, rfl⟩

/-- Whatever happens after a request was taken, another one under its identifier is told apart from it. -/
theorem replays_told_apart (hinj : Function.Injective hash) (before after : List MetricsCall) :
    (∀ (origin origin' : Option (List Char)) (first second : UsageEvent) (taken : Store δ),
      first.eventId = second.eventId → second.Valid → (∀ id, origin' = some id → validateIdentifier id = true) →
      submit hash (storeAfter hash before) origin first = .ok (taken, .inserted) →
      let calls := before ++ submission origin first :: after
      AnsweredExactly hash calls (submission origin' second)
        ((submit hash (storeAfter hash calls) origin' second).map Prod.snd) (first.SameAs second)
        (EventGuard (storeAfter hash calls) second origin')) ∧
    (∀ (first second : ReservationRequest) (limits limits' : UsageLimits) (taken : Store δ),
      first.reservationId = second.reservationId → second.Valid →
      reserve hash (storeAfter hash before) first limits = .ok (taken, .reserved) →
      let calls := before ++ .usage (.reserve first limits) :: after
      AnsweredExactly hash calls (.usage (.reserve second limits'))
        ((reserve hash (storeAfter hash calls) second limits').map fun result => result.2.outcome) (first = second)
        fun error => error = .periodSealed ∧ TakesNoUsage (storeAfter hash calls) second.period) ∧
    (∀ (first second : ReportRequest) (taken : Store δ),
      first.identifier = second.identifier → second.Valid →
      enqueueReport hash (storeAfter hash before) first = .ok (taken, .inserted) →
      let calls := before ++ .report (.enqueue first) :: after
      AnsweredExactly hash calls (.report (.enqueue second))
        ((enqueueReport hash (storeAfter hash calls) second).map Prod.snd) (first.SameAs second) fun _ => False) := by
  refine ⟨?_, ?_, ?_⟩
  · intro origin origin' first second taken hid hvalid horigin htaken calls
    obtain ⟨hfirst, hknown⟩ := eventKnown_of_taken htaken
    have hknown := hknown.later (remembers_after (performs_submission origin first) htaken after)
    rw [hid] at hknown
    refine @answeredExactly _ _ _ _ _ _ _ _ id _ (performs_submission origin' second) (fun store' outcome hanswer => ?_)
      fun error herror => submit_refused (grounded_after _) hknown hvalid horigin herror
    obtain ⟨hduplicate, hdigest⟩ := submit_compared hknown hanswer
    exact ⟨hduplicate, UsageEvent.sameAs_of_bytes hfirst hvalid hid (hinj hdigest)⟩
  · intro first second limits limits' taken hid hvalid htaken calls
    obtain ⟨hfirst, hknown⟩ := reservationKnown_of_taken htaken
    have hknown := hknown.later (remembers_after (performs_reserve first limits) htaken after)
    rw [hid] at hknown
    refine answeredExactly (performs_reserve second limits') (fun store' admission hanswer => ?_)
      fun error herror => reserve_refused (grounded_after _) hknown hvalid herror
    obtain ⟨⟨status, rfl⟩, hdigest⟩ := reserve_compared hknown hanswer
    exact ⟨rfl, ReservationRequest.eq_of_bytes hfirst hvalid hid (hinj hdigest)⟩
  · intro first second taken hid hvalid htaken calls
    obtain ⟨hfirst, hknown⟩ := reportKnown_of_taken htaken
    have hknown := hknown.later (remembers_after (performs_enqueue first) htaken after)
    rw [hid] at hknown
    refine @answeredExactly _ _ _ _ _ _ _ _ id _ (performs_enqueue second) (fun store' outcome hanswer => ?_)
      fun error herror => .inl (enqueueReport_refused hknown hvalid herror)
    obtain ⟨hduplicate, hdigest⟩ := enqueueReport_compared hknown hanswer
    exact ⟨hduplicate, ReportRequest.sameAs_of_bytes hfirst hvalid hid (hinj hdigest)⟩

/-- A write that was recorded, then one under its identifier that has another time, and the same for a report. -/
theorem samples_told_apart :
    AnsweredExactly id ([] ++ submission none (sampleEvent 'a' 1 1500 80000) :: [.finalize samplePeriod])
        (submission none (sampleEvent 'a' 1 1600 80000))
        ((submit id (storeAfter id ([] ++ submission none (sampleEvent 'a' 1 1500 80000) :: [.finalize samplePeriod])) none
          (sampleEvent 'a' 1 1600 80000)).map Prod.snd)
        ((sampleEvent 'a' 1 1500 80000).SameAs (sampleEvent 'a' 1 1600 80000))
        (EventGuard (storeAfter id ([] ++ submission none (sampleEvent 'a' 1 1500 80000) :: [.finalize samplePeriod]))
          (sampleEvent 'a' 1 1600 80000) none) ∧
      (enqueueReport id (storeAfter id ([] ++ .report (.enqueue sampleReport) :: [])) { sampleReport with quantity := 2 }).map
        Prod.snd = .error .hashConflict := by
  constructor
  · refine (replays_told_apart Function.injective_id [] [.finalize samplePeriod]).1 none none
      (sampleEvent 'a' 1 1500 80000) (sampleEvent 'a' 1 1600 80000)
      (storeAfter id [submission none (sampleEvent 'a' 1 1500 80000)]) rfl (by decide +kernel) (fun _ h => by cases h) ?_
    rfl
  · obtain ⟨error, herror, hconflict⟩ := ((replays_told_apart Function.injective_id [] []).2.2 sampleReport
      { sampleReport with quantity := 2 } (storeAfter id [.report (.enqueue sampleReport)]) rfl (by decide +kernel)
      (by rfl)).refused (fun hsame => absurd hsame.2.2.2.2.2.2.1 (by decide))
    obtain rfl | hfalse := hconflict
    · exact herror
    · exact hfalse.elim

/-- One report of a customer, written with the boundary between its event and its customer at two places, and an event
that comes again with another time when its period is sealed. -/
theorem replays_not_told_apart :
    (enqueueReport id (storeAfter id [.report (.enqueue { sampleReport with eventName := ['a', 'b'], customerId := ['c'] })])
        { sampleReport with eventName := ['a'], customerId := ['b', 'c'] }).map Prod.snd = .ok .duplicate ∧
      (recordEvent id (storeAfter id [submission none (sampleEvent 'a' 1 1500 80000), .usage (.close samplePeriod (32*dayMs))])
        (sampleEvent 'a' 1 1600 80000)).map Prod.snd = .error .periodSealed := by
  decide +kernel

end Runs

end Ffdb.Metrics
