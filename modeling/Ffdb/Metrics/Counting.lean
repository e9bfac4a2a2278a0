import Ffdb.Metrics.Sound

/-! What the operations add to the summaries: an event that is ingested adds its own usage and, the
first time it is seen, its subject; nothing else adds anything. -/
namespace Ffdb.Metrics
open Fallible

variable {δ : Type} {hash : List UInt8 → δ} {store store' : Store δ} {event : UsageEvent}

def UsageEvent.bucketMs (event : UsageEvent) : Int := event.occurredAtMs - event.occurredAtMs % hourMs

def isNewUser (store : Store δ) (event : UsageEvent) : Bool :=
  event.claimKey.any fun key => !(store.activeUserClaims.lookup key).any (·.active)

structure SameCounts (store store' : Store δ) : Prop where
  usage : store'.usageHourly = store.usageHourly
  users : ∀ startMs throughMs, activeThrough store' startMs throughMs = activeThrough store startMs throughMs
  transitions : store'.storageTransitions = store.storageTransitions
  outbox : store'.outbox = store.outbox

structure Counts (event : UsageEvent) (store store' : Store δ) : Prop where
  usage : store'.usageHourly = addUsage store.usageHourly event
  users : ∀ startMs throughMs, activeThrough store' startMs throughMs = activeThrough store startMs throughMs +
    if isNewUser store event ∧ event.period.startMs = startMs ∧ event.occurredAtMs < throughMs then 1 else 0
  recorded : ∀ snapshot ∈ event.storageSnapshots,
    store.storageTransitions.lookup (snapshot.resourceId, event.occurredAtMs, event.eventId) = none ∧
      store'.storageTransitions.lookup (snapshot.resourceId, event.occurredAtMs, event.eventId) =
        some snapshot.logicalBytes
  kept : ∀ r at' e bytes, store'.storageTransitions.lookup (r, at', e) = some bytes →
    store.storageTransitions.lookup (r, at', e) = some bytes ∨
      ⟨r, bytes⟩ ∈ event.storageSnapshots ∧ at' = event.occurredAtMs ∧ e = event.eventId
  grown : ∀ r at' e bytes, store.storageTransitions.lookup (r, at', e) = some bytes →
    store'.storageTransitions.lookup (r, at', e) = some bytes
  outbox : store'.outbox = store.outbox

theorem SameCounts.refl : SameCounts store store := ⟨rfl, fun _ _ => rfl, rfl, rfl⟩

theorem SameCounts.trans {store'' : Store δ} (h : SameCounts store store') (h' : SameCounts store' store'') :
    SameCounts store store'' :=
  ⟨h'.usage.trans h.usage, fun startMs throughMs => (h'.users startMs throughMs).trans (h.users startMs throughMs),
    h'.transitions.trans h.transitions, h'.outbox.trans h.outbox⟩

section Users
variable {claims : Table ClaimKey ActiveUserClaim} {key : ClaimKey} {claim claim' : ActiveUserClaim}
  {startMs throughMs : Int}

def userWeight (startMs throughMs : Int) (key : ClaimKey) (claim : ActiveUserClaim) : Nat :=
  if key.1 = startMs ∧ claim.isSeenBefore throughMs then 1 else 0

def usersThrough (claims : Table ClaimKey ActiveUserClaim) (startMs throughMs : Int) : Nat :=
  claims.total (userWeight startMs throughMs)

theorem usersThrough_replace (h : claims.lookup key = some claim) (hactive : claim'.active = claim.active)
    (hseen : claim'.firstSeenMs = claim.firstSeenMs) :
    usersThrough (claims.insert key claim') startMs throughMs = usersThrough claims startMs throughMs := by
  have htotal := AList.total_insert_of_lookup (userWeight startMs throughMs) h claim'
  have hbefore : claim'.isSeenBefore throughMs = claim.isSeenBefore throughMs := by
    rw [ActiveUserClaim.isSeenBefore, ActiveUserClaim.isSeenBefore, hactive, hseen]
  have hsame : userWeight startMs throughMs key claim' = userWeight startMs throughMs key claim := by
    rw [userWeight, userWeight, hbefore]
  rw [hsame] at htotal
  exact Nat.add_right_cancel htotal

theorem usersThrough_insert (h : claims.lookup key = none) : usersThrough (claims.insert key claim) startMs throughMs =
    usersThrough claims startMs throughMs + userWeight startMs throughMs key claim :=
  AList.total_insert _ h claim

theorem userWeight_of_inactive (h : claim.active = false) : userWeight startMs throughMs key claim = 0 := by
  simp [userWeight, ActiveUserClaim.isSeenBefore, h]

theorem usersThrough_dropClaim : usersThrough (dropClaim claims key) startMs throughMs =
    usersThrough claims startMs throughMs := by
  unfold dropClaim
  cases hclaim : claims.lookup key with
  | none => rfl
  | some claim =>
    dsimp only
    split
    · rename_i hgone
      simp only [Bool.and_eq_true, Bool.not_eq_true'] at hgone
      have htotal := AList.total_erase (userWeight startMs throughMs) hclaim
      rw [userWeight_of_inactive hgone.1] at htotal
      exact htotal
    · exact usersThrough_replace hclaim rfl rfl

theorem usersThrough_dropClaims (rows : List (Reservation δ)) :
    usersThrough (dropClaims claims rows) startMs throughMs = usersThrough claims startMs throughMs := by
  induction rows generalizing claims with
  | nil => rfl
  | cons row rows ih =>
    refine ih.trans ?_
    dsimp only
    cases row.claimKey with
    | none => rfl
    | some own => exact usersThrough_dropClaim

theorem usersThrough_holdClaim {periodEndMs : Int} : usersThrough (holdClaim claims key periodEndMs) startMs throughMs =
    usersThrough claims startMs throughMs := by
  unfold holdClaim
  cases hclaim : claims.lookup key with
  | none =>
    rw [usersThrough_insert hclaim]
    exact congrArg (_ + ·) (userWeight_of_inactive rfl)
  | some claim => exact usersThrough_replace hclaim rfl rfl

/-- A user that is active already stays the one it is. -/
theorem usersThrough_convertClaim {periodEndMs nowMs t : Int} (hclaim : claims.lookup key = some claim)
    (hactive : claim.active = true) (hseen : claim.firstSeenMs = some t) :
    usersThrough (convertClaim claims key periodEndMs nowMs) startMs throughMs =
      usersThrough claims startMs throughMs := by
  unfold convertClaim markActive
  rw [hclaim]
  dsimp only
  split <;> exact usersThrough_replace hclaim (by simp [ActiveUserClaim.seen, hactive])
    (by simp [ActiveUserClaim.seen, hseen])

theorem usersThrough_markActive {periodEndMs seenMs : Int}
    (hdated : ∀ claim, claims.lookup key = some claim → ∃ e, claim.Dated e) :
    usersThrough (markActive claims key periodEndMs seenMs) startMs throughMs = usersThrough claims startMs throughMs +
      if (claims.lookup key).any (·.active) = false ∧ key.1 = startMs ∧ seenMs < throughMs then 1 else 0 := by
  unfold markActive
  cases hclaim : claims.lookup key with
  | none => simp [usersThrough_insert hclaim, userWeight, ActiveUserClaim.isSeenBefore]
  | some claim =>
    obtain ⟨e, hdated⟩ := hdated claim hclaim
    cases hactive : claim.active with
    | true =>
      obtain ⟨t, hseen, -⟩ := hdated.seen hactive
      simp only [Option.any_some, hactive, Bool.true_eq_false, false_and, if_false, Nat.add_zero]
      exact usersThrough_replace hclaim (by simp [ActiveUserClaim.seen, hactive])
        (by simp [ActiveUserClaim.seen, hseen])
    | false =>
      have htotal := AList.total_insert_of_lookup (userWeight startMs throughMs) hclaim (claim.seen seenMs)
      rw [userWeight_of_inactive hactive] at htotal
      have hweight : userWeight startMs throughMs key (claim.seen seenMs) =
          if key.1 = startMs ∧ seenMs < throughMs then 1 else 0 := by
        simp [userWeight, ActiveUserClaim.isSeenBefore, ActiveUserClaim.seen, hdated.unseen hactive]
      rw [hweight] at htotal
      simpa [usersThrough, hactive] using htotal

end Users

theorem activeThrough_eq (store : Store δ) (startMs throughMs : Int) :
    activeThrough store startMs throughMs = usersThrough store.activeUserClaims startMs throughMs := rfl

section Usage

theorem total_addUsage (weight : Int × Int × ProjectId → HourlyUsage → Nat) (extra : Nat)
    (usage : Table (Int × Int × ProjectId) HourlyUsage)
    (hzero : weight (event.period.startMs, event.bucketMs, event.projectId) ⟨0, 0⟩ = 0)
    (hadd : ∀ old, weight (event.period.startMs, event.bucketMs, event.projectId)
      ⟨old.readUnits + event.readUnits, old.writeUnits + event.writeUnits⟩ =
        weight (event.period.startMs, event.bucketMs, event.projectId) old + extra) :
    (addUsage usage event).total weight = usage.total weight + extra := by
  unfold addUsage
  cases hold : usage.lookup (event.period.startMs, event.bucketMs, event.projectId) with
  | none =>
    change (usage.insert (event.period.startMs, event.bucketMs, event.projectId) _).total weight = _
    rw [AList.total_insert weight hold]
    simp only [UsageEvent.bucketMs] at hold hadd hzero ⊢
    rw [hold, Option.getD_none, hadd, hzero, Nat.zero_add]
  | some old =>
    have htotal := AList.total_insert_of_lookup weight hold
      ⟨old.readUnits + event.readUnits, old.writeUnits + event.writeUnits⟩
    rw [hadd] at htotal
    simp only [UsageEvent.bucketMs] at hold htotal ⊢
    rw [hold, Option.getD_some]
    omega

theorem Counts.reads (h : Counts event store store') (startMs throughMs : Int) :
    usedThrough store' startMs throughMs (·.readUnits) = usedThrough store startMs throughMs (·.readUnits) +
      if event.period.startMs = startMs ∧ event.bucketMs < throughMs then event.readUnits else 0 := by
  unfold usedThrough
  rw [h.usage]
  refine total_addUsage _ _ _ (by simp) fun old => ?_
  dsimp only
  split <;> rfl

theorem Counts.writes (h : Counts event store store') (startMs throughMs : Int) :
    usedThrough store' startMs throughMs (·.writeUnits) = usedThrough store startMs throughMs (·.writeUnits) +
      if event.period.startMs = startMs ∧ event.bucketMs < throughMs then event.writeUnits else 0 := by
  unfold usedThrough
  rw [h.usage]
  refine total_addUsage _ _ _ (by simp) fun old => ?_
  dsimp only
  split <;> rfl

end Usage

section Snapshots
variable {snapshots : List StorageSnapshot} {snapshot : StorageSnapshot}

def StorageSnapshot.key (event : UsageEvent) (snapshot : StorageSnapshot) : List Char × Int × List Char :=
  (snapshot.resourceId, event.occurredAtMs, event.eventId)

theorem recordSnapshot_ok (h : recordSnapshot event store snapshot = .ok store') :
    store.storageTransitions.lookup (snapshot.key event) = none ∧
      store'.storageTransitions = store.storageTransitions.insert (snapshot.key event) snapshot.logicalBytes := by
  simp only [recordSnapshot, bind_ok_iff, require_ok_iff, pure_ok_iff, Option.isNone_iff_eq_none] at h
  obtain ⟨_, hnew, rfl⟩ := h
  exact ⟨hnew, rfl⟩

/-- The sizes of an event are added, each for the first time, to what is there. -/
theorem recordSnapshots_ok (h : snapshots.foldlM (recordSnapshot event) store = .ok store') :
    (∀ snapshot ∈ snapshots, store.storageTransitions.lookup (snapshot.key event) = none ∧
      store'.storageTransitions.lookup (snapshot.key event) = some snapshot.logicalBytes) ∧
    (∀ key bytes, store'.storageTransitions.lookup key = some bytes →
      store.storageTransitions.lookup key = some bytes ∨
        ∃ snapshot ∈ snapshots, snapshot.key event = key ∧ snapshot.logicalBytes = bytes) ∧
    ∀ key bytes, store.storageTransitions.lookup key = some bytes →
      store'.storageTransitions.lookup key = some bytes := by
  induction snapshots generalizing store with
  | nil =>
    obtain rfl := Except.ok.inj h
    exact ⟨fun _ hmem => (nomatch hmem), fun _ _ hkey => .inl hkey, fun _ _ hkey => hkey⟩
  | cons snapshot snapshots ih =>
    rw [List.foldlM_cons, bind_ok_iff] at h
    obtain ⟨middle, hfirst, hrest⟩ := h
    obtain ⟨hnew, hmiddle⟩ := recordSnapshot_ok hfirst
    obtain ⟨hrecorded, hkept, hgrown⟩ := ih hrest
    have hgrows (key) (bytes : Nat) (hkey : store.storageTransitions.lookup key = some bytes) :
        middle.storageTransitions.lookup key = some bytes := by
      have hne : key ≠ snapshot.key event := by
        intro hsame
        rw [hsame, hnew] at hkey
        cases hkey
      rw [hmiddle, AList.lookup_insert_ne hne, hkey]
    refine ⟨?_, ?_, fun key bytes hkey => hgrown key bytes (hgrows key bytes hkey)⟩
    · intro other hother
      obtain rfl | hother := List.mem_cons.mp hother
      · refine ⟨hnew, hgrown _ _ ?_⟩
        rw [hmiddle, AList.lookup_insert]
      · obtain ⟨hnone, hsome⟩ := hrecorded other hother
        refine ⟨?_, hsome⟩
        by_contra hthere
        obtain ⟨bytes, hbytes⟩ := Option.ne_none_iff_exists'.mp hthere
        rw [hgrows _ bytes hbytes] at hnone
        cases hnone
    · intro key bytes hkey
      obtain hkey | ⟨other, hother, hrest⟩ := hkept key bytes hkey
      · rw [hmiddle] at hkey
        obtain ⟨rfl, rfl⟩ | ⟨-, hkey⟩ := AList.lookup_insert_eq_some_iff.mp hkey
        · exact .inr ⟨snapshot, List.mem_cons_self, rfl, rfl⟩
        · exact .inl hkey
      · exact .inr ⟨other, List.mem_cons_of_mem snapshot hother, hrest⟩

/-- Sizes of different resources can be recorded if the event has none yet. -/
theorem recordSnapshots_exists (hnew : ∀ snapshot ∈ snapshots, store.storageTransitions.lookup (snapshot.key event) = none)
    (hdistinct : (snapshots.map (·.resourceId)).Nodup) :
    ∃ store', snapshots.foldlM (recordSnapshot event) store = .ok store' := by
  induction snapshots generalizing store with
  | nil => exact ⟨store, rfl⟩
  | cons snapshot snapshots ih =>
    rw [List.map_cons, List.nodup_cons] at hdistinct
    have hfirst := hnew snapshot List.mem_cons_self
    have hrecord : ∃ middle, recordSnapshot event store snapshot = .ok middle := by
      unfold recordSnapshot
      unfold StorageSnapshot.key at hfirst
      dsimp only
      rw [hfirst]
      exact ⟨_, rfl⟩
    obtain ⟨middle, hmiddle⟩ := hrecord
    rw [List.foldlM_cons, hmiddle]
    refine ih ?_ hdistinct.2
    intro other hother
    have hne : other.key event ≠ snapshot.key event := by
      intro hsame
      exact hdistinct.1 (List.mem_map.mpr ⟨other, hother, (Prod.ext_iff.mp hsame).1⟩)
    rw [(recordSnapshot_ok hmiddle).2, AList.lookup_insert_ne hne]
    exact hnew other (List.mem_cons_of_mem snapshot hother)

end Snapshots

section Steps
variable {events : List UsageEvent} {period : BillingPeriod}

theorem sameCounts_ensured (h : ensurePeriod store period = .ok store') : SameCounts store store' := by
  rw [ensurePeriod_frame h]
  exact ⟨rfl, fun _ _ => rfl, rfl, rfl⟩

theorem sameCounts_swept (hclaims : ClaimsSubjects store) {nowMs : Int}
    (h : expireReservations store nowMs = .ok store') : SameCounts store store' := by
  rw [expireReservations_eq hclaims] at h
  obtain rfl := Except.ok.inj h
  exact ⟨rfl, fun _ _ => usersThrough_dropClaims _, rfl, rfl⟩

theorem sameCounts_released (hclaims : ClaimsSubjects store) {id : List Char} {nowMs : Int} {status : ReservationStatus}
    (h : releaseReservation store id nowMs = .ok (store', status)) : SameCounts store store' := by
  obtain ⟨row, hrow, ⟨-, -, released, hclaim, rfl⟩ | ⟨-, -, rfl⟩⟩ := releaseReservation_ok h
  · rw [releaseMauClaim_eq (hclaims id row hrow)] at hclaim
    obtain rfl := Except.ok.inj hclaim
    refine ⟨rfl, fun startMs throughMs => ?_, rfl, rfl⟩
    rw [activeThrough_eq, activeThrough_eq]
    dsimp only
    cases row.claimKey with
    | none => rfl
    | some own => exact usersThrough_dropClaim
  · exact SameCounts.refl

/-- The event is counted, before its sizes are recorded. -/
theorem users_countEvent (hash : List UInt8 → δ) (hdated : ClaimsDated store) (startMs throughMs : Int) :
    activeThrough (countEvent hash store event) startMs throughMs = activeThrough store startMs throughMs +
      if isNewUser store event ∧ event.period.startMs = startMs ∧ event.occurredAtMs < throughMs then 1 else 0 := by
  rw [activeThrough_eq, activeThrough_eq]
  unfold countEvent isNewUser UsageEvent.claimKey
  dsimp only
  cases event.activeSubjectHash with
  | none => simp
  | some subject =>
    dsimp only
    rw [usersThrough_markActive]
    · simp
    · intro claim hclaim
      obtain ⟨e, -, hclaim⟩ := hdated _ claim hclaim
      exact ⟨e, hclaim⟩

end Steps

section Calls
variable {events : List UsageEvent} {outcome : IngestOutcome}

def Ingests (event : UsageEvent) (store store' : Store δ) : IngestOutcome → Prop
  | .inserted => Counts event store store'
  | .duplicate => SameCounts store store'

theorem Ingests.after {middle : Store δ} (h : Ingests event middle store' outcome) (hsame : SameCounts store middle)
    (hclaims : middle.activeUserClaims = store.activeUserClaims) : Ingests event store store' outcome := by
  cases outcome with
  | duplicate => exact hsame.trans h
  | inserted =>
    have hnew : isNewUser middle event = isNewUser store event := by rw [isNewUser, isNewUser, hclaims]
    refine ⟨h.usage.trans (by rw [hsame.usage]), ?_, ?_, ?_, ?_, h.outbox.trans hsame.outbox⟩
    · intro startMs throughMs
      rw [h.users, hsame.users, hnew]
    · exact hsame.transitions ▸ h.recorded
    · exact hsame.transitions ▸ h.kept
    · exact hsame.transitions ▸ h.grown

theorem Ingests.before {middle : Store δ} (h : Ingests event store middle outcome) (hsame : SameCounts middle store') :
    Ingests event store store' outcome := by
  cases outcome with
  | duplicate => exact SameCounts.trans h hsame
  | inserted =>
    refine ⟨hsame.usage.trans h.usage, ?_, ?_, ?_, ?_, hsame.outbox.trans h.outbox⟩
    · intro startMs throughMs
      rw [hsame.users, h.users]
    · exact hsame.transitions ▸ h.recorded
    · exact hsame.transitions ▸ h.kept
    · exact hsame.transitions ▸ h.grown

variable [DecidableEq δ]

theorem ingests_ingestEvent (hdated : ClaimsDated store) (h : ingestEvent hash store event = .ok (store', outcome)) :
    Ingests event store store' outcome := by
  obtain ⟨middle, hensure, ⟨stored, -, -, rfl, rfl⟩ | ⟨-, rfl, hfold⟩⟩ := ingestEvent_ok h
  · exact sameCounts_ensured hensure
  · have hclaims : middle.activeUserClaims = store.activeUserClaims := by rw [ensurePeriod_frame hensure]
    have hmiddle : ClaimsDated middle :=
      hdated.kept (hclaims ▸ SeenKept.refl) fun _ _ => (ensurePeriod_kept hensure).periodEnd
    refine Ingests.after ?_ (sameCounts_ensured hensure) hclaims
    obtain ⟨hrecorded, hkept, hgrown⟩ := recordSnapshots_ok hfold
    have hframe := recordSnapshots_frame hfold
    refine ⟨?_, ?_, hrecorded, ?_, fun r at' e => hgrown (r, at', e), ?_⟩
    · rw [hframe]
      rfl
    · intro startMs throughMs
      rw [hframe]
      exact users_countEvent hash hmiddle startMs throughMs
    · intro r at' e bytes hlookup
      obtain hlookup | ⟨snapshot, hsnapshot, hkey, rfl⟩ := hkept _ _ hlookup
      · exact .inl hlookup
      · simp only [StorageSnapshot.key, Prod.mk.injEq] at hkey
        obtain ⟨rfl, rfl, rfl⟩ := hkey
        exact .inr ⟨hsnapshot, rfl, rfl⟩
    · rw [hframe]
      rfl

theorem ingests_recordEvent (hdated : ClaimsDated store) (h : recordEvent hash store event = .ok (store', outcome)) :
    Ingests event store store' outcome := by
  obtain ⟨-, middle, hensure, -, hingest⟩ := recordEvent_ok h
  have hclaims : middle.activeUserClaims = store.activeUserClaims := by rw [ensurePeriod_frame hensure]
  have hmiddle : ClaimsDated middle :=
    hdated.kept (hclaims ▸ SeenKept.refl) fun _ _ => (ensurePeriod_kept hensure).periodEnd
  exact (ingests_ingestEvent hmiddle hingest).after (sameCounts_ensured hensure) hclaims

theorem ingests_settle (hinj : Function.Injective hash) (hsound : Sound hash ⟨store, events⟩) {id : List Char}
    (h : settleReservation hash store id event = .ok (store', outcome)) : Ingests event store store' outcome := by
  obtain ⟨hvalid, row, hrow, ⟨-, -, hingest⟩ | ⟨-, hcovers, -, ingested, activated, hingest, hactivate, rfl⟩⟩ :=
    settleReservation_ok h
  · exact ingests_ingestEvent hsound.dated hingest
  · refine (ingests_ingestEvent hsound.dated hingest).before ?_
    have hingested := hsound.ingested hvalid hingest
    obtain ⟨-, hreservations, hseen⟩ := hsound.exact.ingested hinj hvalid hingest
    have hrow' : ingested.reservations.lookup id = some row := hreservations ▸ hrow
    rw [activateMauClaim_eq (hingested.exact.claims id row hrow')] at hactivate
    obtain rfl := Except.ok.inj hactivate
    refine ⟨rfl, fun startMs throughMs => ?_, rfl, rfl⟩
    rw [activeThrough_eq, activeThrough_eq]
    dsimp only
    rw [← Reservation.claimKey_of_covers hcovers] at hseen
    cases hkey : row.claimKey with
    | none => rfl
    | some key =>
      rw [hkey] at hseen
      obtain ⟨claim, hclaim, hactive⟩ := hingested.exact.active hseen
      obtain ⟨e, -, hdated⟩ := hingested.dated key claim hclaim
      obtain ⟨t, hfirst, -⟩ := hdated.seen hactive
      exact usersThrough_convertClaim hclaim hactive hfirst

theorem sameCounts_reserved (hclaims : ClaimsSubjects store) {request : ReservationRequest} {limits : UsageLimits}
    {admission : ReservationAdmission} (h : reserve hash store request limits = .ok (store', admission)) :
    SameCounts store store' := by
  obtain ⟨-, ensured, swept, hensure, -, hexpire, hrest⟩ := reserve_ok h
  have hensured : ClaimsSubjects ensured := by
    rw [ensurePeriod_frame hensure]
    exact hclaims
  have hswept := (sameCounts_ensured hensure).trans (sameCounts_swept hensured hexpire)
  obtain ⟨_, -, -, rfl, -⟩ | ⟨-, -, -, claimed, hclaim, rfl⟩ := hrest
  · exact hswept
  · obtain rfl := claimSubject_ok hclaim
    refine hswept.trans ⟨rfl, fun startMs throughMs => ?_, rfl, rfl⟩
    rw [activeThrough_eq, activeThrough_eq]
    dsimp only
    cases request.activeSubjectHash with
    | none => rfl
    | some subject => exact usersThrough_holdClaim

def Adds (world world' : World δ) : Prop :=
  SameCounts world.store world'.store ∧ world'.events = world.events ∨
    ∃ event, Counts event world.store world'.store ∧ world'.events = world.events ++ [event]

omit [DecidableEq δ] in
theorem Ingests.adds (h : Ingests event store store' outcome) (events : List UsageEvent) :
    Adds ⟨store, events⟩ ⟨store', events ++ outcome.events event⟩ := by
  cases outcome with
  | inserted => exact .inr ⟨event, h, rfl⟩
  | duplicate => exact .inl ⟨h, List.append_nil _⟩

theorem adds_step (hinj : Function.Injective hash) {world : World δ} (hsound : Sound hash world) (call : StoreCall) :
    Adds world (step hash world call) := by
  refine step_keeps (P := Adds world) (.inl ⟨SameCounts.refl, rfl⟩) fun world' hdone => ?_
  cases hdone with
  | reserve hreserve => exact .inl ⟨sameCounts_reserved hsound.exact.claims hreserve, rfl⟩
  | release hrelease => exact .inl ⟨sameCounts_released hsound.exact.claims hrelease, rfl⟩
  | settle hsettle => exact (ingests_settle hinj hsound hsettle).adds world.events
  | record hrecord => exact (ingests_recordEvent hsound.dated hrecord).adds world.events
  | close hclose =>
    rw [sealPeriod_frame hclose]
    exact .inl ⟨⟨rfl, fun _ _ => rfl, rfl, rfl⟩, rfl⟩

end Calls

section Tally

def tally (events : List UsageEvent) (startMs throughMs : Int) (amount : UsageEvent → Nat) : Nat :=
  ((events.filter fun event => event.period.startMs = startMs ∧ event.bucketMs < throughMs).map amount).sum

theorem tally_append (events : List UsageEvent) (event : UsageEvent) (startMs throughMs : Int)
    (amount : UsageEvent → Nat) : tally (events ++ [event]) startMs throughMs amount =
      tally events startMs throughMs amount +
        if event.period.startMs = startMs ∧ event.bucketMs < throughMs then amount event else 0 := by
  unfold tally
  rw [List.filter_append, List.map_append, List.sum_append]
  congr 1
  by_cases h : event.period.startMs = startMs ∧ event.bucketMs < throughMs
  · simp [h]
  · rw [if_neg h, List.filter_cons_of_neg (by simpa using h)]
    rfl

structure Tallied (world : World δ) : Prop where
  reads : ∀ startMs throughMs, usedThrough world.store startMs throughMs (·.readUnits) =
    tally world.events startMs throughMs (·.readUnits)
  writes : ∀ startMs throughMs, usedThrough world.store startMs throughMs (·.writeUnits) =
    tally world.events startMs throughMs (·.writeUnits)

theorem Tallied.adds {world world' : World δ} (h : Tallied world) (hadds : Adds world world') : Tallied world' := by
  obtain ⟨hsame, hevents⟩ | ⟨event, hcounts, hevents⟩ := hadds
  · constructor <;> intro startMs throughMs <;> rw [hevents]
    · rw [← h.reads, usedThrough, hsame.usage, usedThrough]
    · rw [← h.writes, usedThrough, hsame.usage, usedThrough]
  · constructor <;> intro startMs throughMs <;> rw [hevents, tally_append]
    · rw [hcounts.reads, h.reads]
    · rw [hcounts.writes, h.writes]

theorem tallied_empty : Tallied ({} : World δ) := ⟨fun _ _ => rfl, fun _ _ => rfl⟩

theorem tallied_run [DecidableEq δ] (hinj : Function.Injective hash) (calls : List StoreCall) :
    Tallied (Machine.run (step hash) {} calls) := by
  have hboth : Sound hash (Machine.run (step hash) {} calls) ∧ Tallied (Machine.run (step hash) {} calls) :=
    Machine.run_preserves (P := fun world => Sound hash world ∧ Tallied world)
      (fun _ call h => ⟨h.1.step hinj call, h.2.adds (adds_step hinj h.1 call)⟩) _ calls ⟨sound_empty, tallied_empty⟩
  exact hboth.2

end Tally

end Ffdb.Metrics
