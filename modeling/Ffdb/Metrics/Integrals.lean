import Mathlib.Data.List.MinMax
import Ffdb.Lib.Machine
import Ffdb.Metrics.Counting
import Ffdb.Metrics.Periods
import Ffdb.Metrics.Sizes

/-! The storage of a window is the exact integral of the sizes that were reported, in whatever order they came in. -/
namespace Ffdb.Metrics
open Fallible

variable {δ : Type}

def reports (events : List UsageEvent) (resourceId : List Char) : List (Int × List Char × Nat) :=
  events.flatMap fun event => (event.storageSnapshots.filter (·.resourceId = resourceId)).map fun snapshot =>
    (event.occurredAtMs, event.eventId, snapshot.logicalBytes)

def reportStamp (report : Int × List Char × Nat) : Stamp := toLex (report.1, report.2.1)

/-- The last size that was reported at or before a time, by time and event id; zero before the first. -/
noncomputable def reportedAt (events : List UsageEvent) (resourceId : List Char) (t : Int) : Nat :=
  (((reports events resourceId).filter (·.1 ≤ t)).argmax reportStamp).elim 0 (·.2.2)

def reportedResources (events : List UsageEvent) : Finset (List Char) :=
  (events.flatMap fun event => event.storageSnapshots.map (·.resourceId)).toFinset

/-- The sizes just before the end of a window, and the integral over it: sizes change at whole milliseconds only. -/
noncomputable def reportedIn (events : List UsageEvent) (startMs endMs : Int) : Nat × Nat :=
  (∑ r ∈ reportedResources events, reportedAt events r (endMs - 1),
    ∑ r ∈ reportedResources events, ∑ t ∈ Finset.Ico startMs endMs, reportedAt events r t)

theorem mem_reports {events : List UsageEvent} {resourceId e : List Char} {atMs : Int} {bytes : Nat} :
    (atMs, e, bytes) ∈ reports events resourceId ↔ ∃ event ∈ events, event.eventId = e ∧ event.occurredAtMs = atMs ∧
      ⟨resourceId, bytes⟩ ∈ event.storageSnapshots := by
  unfold reports
  simp only [List.mem_flatMap, List.mem_map, List.mem_filter, decide_eq_true_eq, Prod.mk.injEq]
  constructor
  · rintro ⟨event, hevent, snapshot, ⟨hsnapshot, rfl⟩, rfl, rfl, rfl⟩
    exact ⟨event, hevent, rfl, rfl, hsnapshot⟩
  · rintro ⟨event, hevent, rfl, rfl, hsnapshot⟩
    exact ⟨event, hevent, ⟨resourceId, bytes⟩, ⟨hsnapshot, rfl⟩, rfl, rfl, rfl⟩

structure Reported (world : World δ) : Prop where
  sizes : SizesSound world.store.storageTransitions world.store.storageCurrent
  transitions : ∀ r atMs e bytes, world.store.storageTransitions.lookup (r, atMs, e) = some bytes ↔
    (atMs, e, bytes) ∈ reports world.events r

section Steps
variable {store store' : Store δ} {events : List UsageEvent} {event : UsageEvent} {outcome : IngestOutcome}

theorem Reported.same (h : Reported ⟨store, events⟩) (htransitions : store'.storageTransitions = store.storageTransitions)
    (hcurrent : store'.storageCurrent = store.storageCurrent) : Reported ⟨store', events⟩ where
  sizes := by
    simp only [htransitions, hcurrent]
    exact h.sizes
  transitions := by
    simp only [htransitions]
    exact h.transitions

theorem sizesSound_recordSnapshots {snapshots : List StorageSnapshot}
    (h : SizesSound store.storageTransitions store.storageCurrent)
    (hfold : snapshots.foldlM (recordSnapshot event) store = .ok store') :
    SizesSound store'.storageTransitions store'.storageCurrent := by
  refine foldlM_keeps (P := fun later : Store δ => SizesSound later.storageTransitions later.storageCurrent) ?_ hfold h
  intro s snapshot s' _ hs hstep
  simp only [recordSnapshot, bind_ok_iff, require_ok_iff, pure_ok_iff, Option.isNone_iff_eq_none] at hstep
  obtain ⟨_, hnew, rfl⟩ := hstep
  exact hs.record ⟨event.occurredAtMs, event.eventId, snapshot.logicalBytes⟩ hnew

/-- The sizes of a new event are added to what was reported. -/
theorem Reported.snapshots (h : Reported ⟨store, events⟩)
    (hfold : event.storageSnapshots.foldlM (recordSnapshot event) store = .ok store') :
    Reported ⟨store', events ++ [event]⟩ where
  sizes := sizesSound_recordSnapshots h.sizes hfold
  transitions := by
    obtain ⟨hrecorded, hkept, hgrown⟩ := recordSnapshots_ok hfold
    intro r atMs e bytes
    have happend : (atMs, e, bytes) ∈ reports (events ++ [event]) r ↔
        (atMs, e, bytes) ∈ reports events r ∨ (atMs, e, bytes) ∈ reports [event] r := by
      simp only [reports, List.flatMap_append, List.mem_append]
    rw [happend, ← h.transitions]
    constructor
    · intro hlookup
      obtain hold | ⟨snapshot, hsnapshot, hkey, rfl⟩ := hkept _ bytes hlookup
      · exact .inl hold
      · simp only [StorageSnapshot.key, Prod.mk.injEq] at hkey
        obtain ⟨rfl, rfl, rfl⟩ := hkey
        exact .inr (mem_reports.mpr ⟨event, List.mem_singleton_self event, rfl, rfl, hsnapshot⟩)
    · rintro (hold | hnew)
      · exact hgrown _ bytes hold
      · obtain ⟨_, hevent, rfl, rfl, hsnapshot⟩ := mem_reports.mp hnew
        obtain rfl := List.mem_singleton.mp hevent
        exact (hrecorded _ hsnapshot).2

variable [DecidableEq δ] {hash : List UInt8 → δ}

theorem Reported.ingested (h : Reported ⟨store, events⟩) (hingest : ingestEvent hash store event = .ok (store', outcome)) :
    Reported ⟨store', events ++ outcome.events event⟩ := by
  obtain ⟨middle, hensure, ⟨_, _, -, rfl, rfl⟩ | ⟨-, rfl, hfold⟩⟩ := ingestEvent_ok hingest
  · rw [IngestOutcome.events, List.append_nil]
    rw [ensurePeriod_frame hensure]
    exact h.same rfl rfl
  · have hcounted : Reported ⟨countEvent hash middle event, events⟩ := by
      rw [ensurePeriod_frame hensure]
      exact h.same rfl rfl
    exact hcounted.snapshots hfold

theorem Reported.recorded (h : Reported ⟨store, events⟩) (hrecord : recordEvent hash store event = .ok (store', outcome)) :
    Reported ⟨store', events ++ outcome.events event⟩ := by
  obtain ⟨-, middle, hensure, -, hingest⟩ := recordEvent_ok hrecord
  have hmiddle : Reported ⟨middle, events⟩ := by
    rw [ensurePeriod_frame hensure]
    exact h.same rfl rfl
  exact hmiddle.ingested hingest

end Steps

structure SameSizes (store store' : Store δ) : Prop where
  transitions : store'.storageTransitions = store.storageTransitions
  current : store'.storageCurrent = store.storageCurrent

section Frames
variable {store store' : Store δ} {row : Reservation δ}

theorem SameSizes.trans {store'' : Store δ} (h : SameSizes store store') (h' : SameSizes store' store'') :
    SameSizes store store'' :=
  ⟨h'.transitions.trans h.transitions, h'.current.trans h.current⟩

theorem sameSizes_releaseMauClaim (h : releaseMauClaim store row = .ok store') : SameSizes store store' := by
  rw [releaseMauClaim_frame h]
  exact ⟨rfl, rfl⟩

theorem sameSizes_activateMauClaim {nowMs : Int} (h : activateMauClaim store row nowMs = .ok store') :
    SameSizes store store' := by
  rw [activateMauClaim_frame h]
  exact ⟨rfl, rfl⟩

theorem sameSizes_expireReservations {nowMs : Int} (h : expireReservations store nowMs = .ok store') :
    SameSizes store store' := by
  simp only [expireReservations, bind_ok_iff, pure_ok_iff] at h
  obtain ⟨released, hfold, rfl⟩ := h
  have hreleased : SameSizes store released := by
    refine foldlM_keeps (P := fun later : Store δ => SameSizes store later) ?_ hfold ⟨rfl, rfl⟩
    intro s row s' _ hs hstep
    exact hs.trans (sameSizes_releaseMauClaim hstep)
  exact ⟨hreleased.transitions, hreleased.current⟩

theorem sameSizes_ensurePeriod {period : BillingPeriod} (h : ensurePeriod store period = .ok store') :
    SameSizes store store' := by
  rw [ensurePeriod_frame h]
  exact ⟨rfl, rfl⟩

variable [DecidableEq δ] {hash : List UInt8 → δ}

theorem sameSizes_reserve {request : ReservationRequest} {limits : UsageLimits} {admission : ReservationAdmission}
    (h : reserve hash store request limits = .ok (store', admission)) : SameSizes store store' := by
  obtain ⟨-, ensured, swept, hensure, -, hexpire, hrest⟩ := reserve_ok h
  have hswept := (sameSizes_ensurePeriod hensure).trans (sameSizes_expireReservations hexpire)
  obtain ⟨_, -, -, rfl, -⟩ | ⟨-, -, -, claimed, hclaim, rfl⟩ := hrest
  · exact hswept
  · have hclaimed : SameSizes swept claimed := by
      rw [claimSubject_ok hclaim]
      exact ⟨rfl, rfl⟩
    exact ⟨hclaimed.transitions.trans hswept.transitions, hclaimed.current.trans hswept.current⟩

omit [DecidableEq δ] in
theorem sameSizes_releaseReservation {id : List Char} {nowMs : Int} {status : ReservationStatus}
    (h : releaseReservation store id nowMs = .ok (store', status)) : SameSizes store store' := by
  obtain ⟨row, -, ⟨-, -, released, hrelease, rfl⟩ | ⟨-, -, rfl⟩⟩ := releaseReservation_ok h
  · have hreleased := sameSizes_releaseMauClaim hrelease
    exact ⟨hreleased.transitions, hreleased.current⟩
  · exact ⟨rfl, rfl⟩

end Frames

section Runs
variable [DecidableEq δ] {hash : List UInt8 → δ} {store store' : Store δ} {events : List UsageEvent}
  {event : UsageEvent} {outcome : IngestOutcome}

theorem Reported.settled {id : List Char} (h : Reported ⟨store, events⟩)
    (hsettle : settleReservation hash store id event = .ok (store', outcome)) :
    Reported ⟨store', events ++ outcome.events event⟩ := by
  obtain ⟨-, row, -, ⟨-, -, hingest⟩ | ⟨-, -, -, ingested, activated, hingest, hactivate, rfl⟩⟩ :=
    settleReservation_ok hsettle
  · exact h.ingested hingest
  · have hsame := sameSizes_activateMauClaim hactivate
    exact (h.ingested hingest).same hsame.transitions hsame.current

theorem Reported.step {world : World δ} (h : Reported world) (call : StoreCall) : Reported (step hash world call) := by
  refine step_keeps h fun world' hdone => ?_
  cases hdone with
  | reserve hreserve =>
    have hsame := sameSizes_reserve hreserve
    exact h.same hsame.transitions hsame.current
  | release hrelease =>
    have hsame := sameSizes_releaseReservation hrelease
    exact h.same hsame.transitions hsame.current
  | settle hsettle => exact h.settled hsettle
  | record hrecord => exact h.recorded hrecord
  | close hclose =>
    rw [sealPeriod_frame hclose]
    exact h.same rfl rfl

omit [DecidableEq δ] in
theorem reported_empty : Reported ({} : World δ) where
  sizes := (sound_empty : Sound (fun bytes : List UInt8 => bytes) {}).sizes
  transitions r atMs e bytes := by
    constructor <;> intro hnone <;> cases hnone

theorem reported_run (calls : List StoreCall) : Reported (Machine.run (step hash) {} calls) :=
  Machine.run_preserves (P := Reported) (fun _ call h => h.step call) _ calls reported_empty

end Runs

section Values
variable {world : World δ} {resourceId : List Char} {startMs endMs t : Int}

/-- The recorded sizes are the last ones that were reported. -/
theorem Reported.isSizeAt (h : Reported world) (resourceId : List Char) (t : Int) :
    IsSizeAt world.store resourceId t (reportedAt world.events resourceId t) := by
  unfold reportedAt
  cases hlast : ((reports world.events resourceId).filter (·.1 ≤ t)).argmax reportStamp with
  | none =>
    refine .inl ⟨rfl, fun atMs e b hlookup => ?_⟩
    by_contra hearly
    have hmem : (atMs, e, b) ∈ (reports world.events resourceId).filter (·.1 ≤ t) :=
      List.mem_filter.mpr ⟨(h.transitions _ _ _ _).mp hlookup, decide_eq_true (not_lt.mp hearly)⟩
    rw [List.argmax_eq_none.mp hlast] at hmem
    cases hmem
  | some last =>
    obtain ⟨hreport, hearly⟩ := List.mem_filter.mp (List.argmax_mem hlast)
    refine .inr ⟨last.1, last.2.1, (h.transitions _ _ _ _).mpr hreport, of_decide_eq_true hearly, ?_⟩
    intro atMs e b hlookup hearly' hlater
    have hmem : (atMs, e, b) ∈ (reports world.events resourceId).filter (·.1 ≤ t) :=
      List.mem_filter.mpr ⟨(h.transitions _ _ _ _).mp hlookup, decide_eq_true hearly'⟩
    have hle := List.le_of_mem_argmax hmem hlast
    have hlt : reportStamp last < reportStamp (atMs, e, b) := Prod.Lex.lt_iff.mpr hlater
    exact absurd hlt (not_lt.mpr hle)

theorem Reported.sizeAt_eq (h : Reported world) (resourceId : List Char) (t : Int) :
    sizeAt world.store resourceId t = reportedAt world.events resourceId t :=
  (isSizeAt_sizeAt _ _ _).unique (h.isSizeAt _ _)

theorem Reported.mem_resources (h : Reported world) {atMs : Int} {e : List Char} {b : Nat}
    (hlookup : world.store.storageTransitions.lookup (resourceId, atMs, e) = some b) :
    resourceId ∈ reportedResources world.events := by
  obtain ⟨event, hevent, -, -, hsnapshot⟩ := mem_reports.mp ((h.transitions _ _ _ _).mp hlookup)
  exact List.mem_toFinset.mpr (List.mem_flatMap.mpr ⟨event, hevent, List.mem_map.mpr ⟨_, hsnapshot, rfl⟩⟩)

theorem Reported.resources (h : Reported world) : resourcesBefore world.store endMs ⊆ reportedResources world.events := by
  intro r hr
  obtain ⟨transition, htransition, rfl⟩ := List.mem_map.mp (List.mem_toFinset.mp hr)
  exact h.mem_resources (mem_transitionsBefore.mp htransition).1

theorem Reported.storedIn_eq (h : Reported world) :
    storedIn world.store (reportedResources world.events) startMs endMs = reportedIn world.events startMs endMs := by
  unfold storedIn reportedIn
  simp only [h.sizeAt_eq]

theorem Reported.integral (h : Reported world) (hlength : startMs < endMs) :
    storageIntegral world.store startMs endMs =
      if (reportedIn world.events startMs endMs).1 ≤ u64Max ∧ (reportedIn world.events startMs endMs).2 ≤ u128Max then
        .ok (reportedIn world.events startMs endMs)
      else .error .unavailable := by
  rw [storageIntegral_eq hlength h.resources, h.storedIn_eq]

/-- A sum over the entries of a table, over keys that include its own. -/
theorem total_eq_sum {κ ν : Type} [DecidableEq κ] (table : Table κ ν) (weight : ν → Nat) (keys : Finset κ)
    (hkeys : ∀ k v, table.lookup k = some v → k ∈ keys) :
    table.total (fun _ => weight) = ∑ k ∈ keys, (table.lookup k).elim 0 weight := by
  have hentries : table.total (fun _ => weight) = (table.keys.map fun k => (table.lookup k).elim 0 weight).sum := by
    unfold AList.total AList.keys List.keys
    rw [List.map_map]
    refine congrArg List.sum (List.map_congr_left fun entry hentry => ?_)
    have hlookup := AList.mem_entries.mp hentry
    simp only [Function.comp_apply, hlookup, Option.elim]
  rw [hentries, ← List.sum_toFinset _ table.keys_nodup]
  refine Finset.sum_subset ?_ ?_
  · intro k hk
    obtain ⟨v, hv⟩ := AList.lookup_isSome.mpr (List.mem_toFinset.mp hk) |> Option.isSome_iff_exists.mp
    exact hkeys k v hv
  · intro k _ habsent
    have hnone : table.lookup k = none := AList.lookup_eq_none.mpr fun hk => habsent (List.mem_toFinset.mpr hk)
    rw [hnone]
    rfl

/-- The current sizes are those at any time that no report comes after. -/
theorem Reported.current_eq (h : Reported world)
    (hbefore : ∀ event ∈ world.events, event.storageSnapshots ≠ [] → event.occurredAtMs < endMs) (r : List Char) :
    (world.store.storageCurrent.lookup r).elim 0 (·.logicalBytes) = reportedAt world.events r (endMs - 1) := by
  refine IsSizeAt.unique ?_ (h.isSizeAt r (endMs - 1))
  have hearly (atMs : Int) (e : List Char) (b : Nat)
      (hlookup : world.store.storageTransitions.lookup (r, atMs, e) = some b) : atMs < endMs := by
    obtain ⟨event, hevent, -, rfl, hsnapshot⟩ := mem_reports.mp ((h.transitions _ _ _ _).mp hlookup)
    exact hbefore event hevent (List.ne_nil_of_mem hsnapshot)
  cases hcurrent : world.store.storageCurrent.lookup r with
  | none =>
    refine .inl ⟨rfl, fun atMs e b hlookup => ?_⟩
    rw [h.sizes.absent r hcurrent] at hlookup
    cases hlookup
  | some size =>
    have hrecorded := h.sizes.recorded r size hcurrent
    refine .inr ⟨size.occurredAtMs, size.eventId, hrecorded, by have := hearly _ _ _ hrecorded; omega, ?_⟩
    intro atMs e b hlookup _ hlater
    have hle := h.sizes.latest r size hcurrent atMs e (by rw [hlookup]; rfl)
    have hlt : size.stamp < toLex (atMs, e) := Prod.Lex.lt_iff.mpr hlater
    exact absurd hlt (not_lt.mpr hle)

theorem Reported.storedBytes_eq (h : Reported world)
    (hbefore : ∀ event ∈ world.events, event.storageSnapshots ≠ [] → event.occurredAtMs < endMs) :
    storedBytes world.store = (reportedIn world.events startMs endMs).1 := by
  unfold storedBytes
  rw [total_eq_sum _ _ (reportedResources world.events)]
  · exact Finset.sum_congr rfl fun r _ => h.current_eq hbefore r
  · intro r size hcurrent
    exact h.mem_resources (h.sizes.recorded r size hcurrent)

theorem reportedIn_split {middleMs : Int} (events : List UsageEvent) (hfirst : startMs ≤ middleMs) (hlast : middleMs ≤ endMs) :
    reportedIn events startMs endMs = ((reportedIn events middleMs endMs).1,
      (reportedIn events startMs middleMs).2 + (reportedIn events middleMs endMs).2) := by
  unfold reportedIn
  rw [← Finset.sum_add_distrib]
  refine congrArg (Prod.mk _) (Finset.sum_congr rfl fun r _ => ?_)
  rw [← Finset.Ico_union_Ico_eq_Ico hfirst hlast, Finset.sum_union (Finset.Ico_disjoint_Ico_consecutive _ _ _)]

end Values

section Claim
variable [DecidableEq δ] (hash : List UInt8 → δ)

/-- In every state that the operations reach: the storage of a window is the exact integral of what was reported, unless
its totals do not fit their words; it is additive over adjacent windows; and its sizes are the current ones when no
report comes later. -/
theorem storageIntegral_exact (calls : List StoreCall) {startMs endMs : Int} (hlength : startMs < endMs) :
    let world := Machine.run (step hash) {} calls
    let reported := reportedIn world.events startMs endMs
    storageIntegral world.store startMs endMs =
        (if reported.1 ≤ u64Max ∧ reported.2 ≤ u128Max then .ok reported else .error .unavailable) ∧
      (∀ middleMs, startMs < middleMs → middleMs < endMs → ∀ first last,
        storageIntegral world.store startMs middleMs = .ok first → storageIntegral world.store middleMs endMs = .ok last →
          storageIntegral world.store startMs endMs =
            if first.2 + last.2 ≤ u128Max then .ok (last.1, first.2 + last.2) else .error .unavailable) ∧
      ((∀ event ∈ world.events, event.storageSnapshots ≠ [] → event.occurredAtMs < endMs) →
        reported.1 = storedBytes world.store) := by
  intro world reported
  have h : Reported world := reported_run calls
  refine ⟨h.integral hlength, ?_, fun hbefore => (h.storedBytes_eq hbefore).symm⟩
  intro middleMs hfirst hlast first last hintegral hintegral'
  rw [h.integral hfirst] at hintegral
  rw [h.integral hlast] at hintegral'
  rw [h.integral hlength, reportedIn_split world.events hfirst.le hlast.le]
  split at hintegral
  next hfits =>
    split at hintegral'
    next hfits' =>
      obtain rfl := Except.ok.inj hintegral
      obtain rfl := Except.ok.inj hintegral'
      simp only [hfits'.1, true_and]
    · cases hintegral'
  · cases hintegral

end Claim

section Sample

def fullSizes : UsageEvent :=
  { sampleEvent 'a' 1 0 0 with
    storageSnapshots := [⟨['x'], i64Max⟩, ⟨['y'], i64Max⟩, ⟨['z'], i64Max⟩] }

def twoSizes : List StoreCall :=
  [.record { sampleEvent 'b' 1 500 900 with storageSnapshots := [⟨['x'], 7⟩] },
    .record { sampleEvent 'a' 1 0 800 with storageSnapshots := [⟨['x'], 3⟩, ⟨['y'], 5⟩] }]

theorem storageIntegral_twoSizes :
    let world := Machine.run (step id) {} twoSizes
    storageIntegral world.store 0 1000 = .ok (12, 10000) ∧ reportedIn world.events 0 1000 = (12, 10000) := by
  intro world
  have hintegral : storageIntegral world.store 0 1000 = .ok (12, 10000) := by decide +kernel
  have hexact := (storageIntegral_exact id twoSizes (show (0 : Int) < 1000 by decide)).1
  refine ⟨hintegral, ?_⟩
  rw [hintegral] at hexact
  split at hexact
  · exact (Except.ok.inj hexact).symm
  · cases hexact

theorem storageIntegral_fullSizes :
    let world := Machine.run (step id) {} [.record fullSizes]
    world.events = [fullSizes] ∧ storageIntegral world.store 0 1000 = .error .unavailable := by
  decide +kernel

end Sample

end Ffdb.Metrics
