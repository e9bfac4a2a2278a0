import Ffdb.Metrics.Counting
import Ffdb.Metrics.Metering

/-! Ingesting one receipt again and again. What is ingested is compared with the receipt by a digest
over the event that the API made of it, and the event has the clock of the API in it. -/
namespace Ffdb.Metrics
open Fallible
open DatabaseWorker (UsageReceipt Uuid)
open Sha256 (bytesOf length_bytesOf)

variable {δ : Type} {hash : List UInt8 → δ} {store store' : Store δ}

section Names

theorem hexDigit_plain : ∀ n < 16, isIdentifierChar (Text.hexDigit n) = true ∧ (Text.hexDigit n).utf8Size = 1 ∧
    ¬(Text.hexDigit n).toNat < 0x20 ∧ (Text.hexDigit n).toNat ≠ 0x7f := by
  decide

def IsPlain (text : List Char) : Prop :=
  ∀ c ∈ text, isIdentifierChar c = true ∧ c.utf8Size = 1 ∧ ¬c.toNat < 0x20 ∧ c.toNat ≠ 0x7f

instance (text : List Char) : Decidable (IsPlain text) := by
  unfold IsPlain
  exact List.decidableBAll _ _

theorem IsPlain.append {text text' : List Char} (h : IsPlain text) (h' : IsPlain text') : IsPlain (text ++ text') := by
  intro c hc
  obtain hc | hc := List.mem_append.mp hc
  · exact h c hc
  · exact h' c hc

theorem isPlain_hex (bytes : List UInt8) : IsPlain (Text.hex bytes) := by
  intro c hc
  obtain ⟨byte, -, hc⟩ := List.mem_flatMap.mp hc
  have hbyte := byte.toNat_lt
  simp only [List.mem_cons, List.not_mem_nil, or_false] at hc
  obtain rfl | rfl := hc
  · exact hexDigit_plain _ (by omega)
  · exact hexDigit_plain _ (by omega)

theorem length_hex (bytes : List UInt8) : (Text.hex bytes).length = 2*bytes.length := by
  induction bytes with
  | nil => rfl
  | cons byte bytes ih =>
    rw [Text.hex, List.flatMap_cons, List.length_append, List.length_cons]
    simp only [Text.hex] at ih
    rw [ih]
    simp
    omega

theorem IsPlain.sublist {text text' : List Char} (h : IsPlain text) (hsub : text'.Sublist text) : IsPlain text' :=
  fun c hc => h c (hsub.subset hc)

theorem IsPlain.dash {text : List Char} (h : IsPlain text) : IsPlain ('-' :: text) := by
  intro c hc
  obtain rfl | hc := List.mem_cons.mp hc
  · decide
  · exact h c hc

theorem isPlain_uuidText (id : Uuid) : IsPlain (uuidText id) := by
  have hplain := isPlain_hex (bytesOf 16 id.toNat)
  have hpart (from' count : Nat) : IsPlain (((Text.hex (bytesOf 16 id.toNat)).drop from').take count) :=
    hplain.sublist ((List.take_sublist _ _).trans (List.drop_sublist _ _))
  refine ((((hplain.sublist (List.take_sublist _ _)).append (hpart 8 4).dash).append (hpart 12 4).dash).append
    (hpart 16 4).dash).append (hplain.sublist (List.drop_sublist _ _)).dash

theorem length_uuidText (id : Uuid) : (uuidText id).length = 36 := by
  have hlength : (Text.hex (bytesOf 16 id.toNat)).length = 32 := by rw [length_hex, length_bytesOf]
  simp [uuidText, hlength]

theorem validateIdentifier_of_plain {text : List Char} (h : IsPlain text) (hpos : 0 < text.length)
    (hlength : text.length ≤ 100) : validateIdentifier text = true := by
  have hbytes := Text.byteLength_of_ascii fun c hc => (h c hc).2.1
  simp only [validateIdentifier, Bool.and_eq_true, Bool.not_eq_true', List.isEmpty_eq_false_iff, decide_eq_true_eq,
    List.all_eq_true]
  exact ⟨⟨List.ne_nil_of_length_pos hpos, by omega⟩, fun c hc => (h c hc).1⟩

theorem validateResourceId_of_plain {text : List Char} (h : IsPlain text) (hpos : 0 < text.length)
    (hlength : text.length ≤ 200) : validateResourceId text = true := by
  have hbytes := Text.byteLength_of_ascii fun c hc => (h c hc).2.1
  simp only [validateResourceId, Bool.and_eq_true, Bool.not_eq_true', List.isEmpty_eq_false_iff, decide_eq_true_eq,
    List.all_eq_true, Bool.or_eq_false_iff, decide_eq_false_iff_not]
  exact ⟨⟨List.ne_nil_of_length_pos hpos, by omega⟩, fun c hc => (h c hc).2.2⟩

theorem valid_uuidText (id : Uuid) : validateIdentifier (uuidText id) = true :=
  validateIdentifier_of_plain (isPlain_uuidText id) (by rw [length_uuidText]; decide)
    (by rw [length_uuidText]; decide)

theorem valid_storageReservationId (nonce : List Char) : validateIdentifier (storageReservationId nonce) = true := by
  have hword : IsPlain "storage:".toList := by decide
  have hlength : "storage:".toList.length = 8 := by decide
  unfold storageReservationId
  refine validateIdentifier_of_plain (hword.append (isPlain_hex _)) ?_ ?_ <;>
    rw [List.length_append, length_hex, Sha256.length_digest, hlength] <;> decide

theorem valid_resource {word : List Char} (hword : IsPlain word) (hlength : word.length ≤ 100) (projectId : ProjectId) :
    validateResourceId (word ++ uuidText projectId) = true := by
  refine validateResourceId_of_plain (hword.append (isPlain_uuidText projectId)) ?_ ?_ <;>
    rw [List.length_append, length_uuidText] <;> omega

theorem valid_databaseResource (projectId : ProjectId) : validateResourceId (databaseResource projectId) = true :=
  valid_resource (by decide) (by decide) projectId

theorem valid_objectStorageResource (projectId : ProjectId) :
    validateResourceId (objectStorageResource projectId) = true :=
  valid_resource (by decide) (by decide) projectId

end Names

section Known
variable {event : UsageEvent} {period : BillingPeriod}

def Open (store : Store δ) (period : BillingPeriod) : Prop :=
  ∃ row, store.periods.lookup period.startMs = some row ∧ row.endMs = period.endMs ∧ row.cutoffMs = period.cutoffMs ∧
    row.status.isShut = false

def Accepts (store : Store δ) (period : BillingPeriod) : Prop :=
  ∀ row, store.periods.lookup period.startMs = some row →
    row.endMs = period.endMs ∧ row.cutoffMs = period.cutoffMs ∧ row.status.isShut = false

theorem Open.registered (h : Open store period) : Registered store period := by
  obtain ⟨row, hrow, hend, hcutoff, -⟩ := h
  exact ⟨row, hrow, hend, hcutoff⟩

theorem Open.accepting (h : Open store period) {recordedAtMs : Int} (hcutoff : recordedAtMs ≤ period.cutoffMs) :
    ensureAccepting store period recordedAtMs = .ok () := by
  obtain ⟨row, hrow, -, -, hshut⟩ := h
  exact ensureAccepting_ok_iff.mpr ⟨row, hrow, hshut, hcutoff⟩

theorem Accepts.ensure (h : Accepts store period) (hvalid : period.Valid) :
    ∃ ensured, ensurePeriod store period = .ok ensured ∧ Open ensured period := by
  cases hrow : store.periods.lookup period.startMs with
  | none =>
    refine ⟨{ store with periods := store.periods.insert period.startMs ⟨period.endMs, period.cutoffMs, .opened⟩ }, ?_,
      _, AList.lookup_insert _, rfl, rfl, rfl⟩
    unfold ensurePeriod
    rw [hrow]
    simp [hvalid, require, bind, Except.bind, pure, Except.pure]
  | some row =>
    obtain ⟨hend, hcutoff, hshut⟩ := h row hrow
    exact ⟨store, ensurePeriod_registered ⟨row, hrow, hend, hcutoff⟩ hvalid, row, hrow, hend, hcutoff, hshut⟩

variable [DecidableEq δ]

/-- An event that is known already is compared, and nothing else is done. -/
theorem ingestEvent_known (hregistered : Registered store event.period) (hvalid : event.period.Valid)
    {stored : EventReceipt δ} (hstored : store.eventReceipts.lookup event.eventId = some stored) :
    ingestEvent hash store event =
      if stored.payloadSha256 = hash event.bytes then .ok (store, .duplicate) else .error .hashConflict := by
  unfold ingestEvent
  rw [ensurePeriod_registered hregistered hvalid]
  simp only [bind, Except.bind, hstored]
  by_cases hsame : stored.payloadSha256 = hash event.bytes
  · simp [require, hsame, pure, Except.pure]
  · simp [require, hsame]

theorem ingestEvent_new {events : List UsageEvent} (hsound : Sound hash ⟨store, events⟩) (hvalid : event.Valid)
    (hregistered : Registered store event.period) (hnew : store.eventReceipts.lookup event.eventId = none) :
    ∃ store', ingestEvent hash store event = .ok (store', .inserted) := by
  have htransitions : ∀ snapshot ∈ event.storageSnapshots,
      (countEvent hash store event).storageTransitions.lookup (snapshot.key event) = none := by
    intro snapshot _
    by_contra hthere
    obtain ⟨bytes, hbytes⟩ := Option.ne_none_iff_exists'.mp hthere
    obtain ⟨other, hother, hid, -⟩ := hsound.transitions _ _ _ bytes hbytes
    obtain ⟨-, -, row, hrow, -⟩ := hsound.receipted other hother
    rw [hid, hnew] at hrow
    cases hrow
  obtain ⟨-, hperiod, -, -, -, hdistinct, -⟩ := hvalid
  obtain ⟨store', hfold⟩ := recordSnapshots_exists htransitions hdistinct
  refine ⟨store', ?_⟩
  unfold ingestEvent
  rw [ensurePeriod_registered hregistered hperiod]
  simp only [bind, Except.bind, hnew]
  rw [hfold]
  rfl

end Known

section Submit
variable [DecidableEq δ] {reservationId : Option (List Char)} {event event' : UsageEvent}

def submit (hash : List UInt8 → δ) (store : Store δ) (reservationId : Option (List Char)) (event : UsageEvent) :
    Except MetricsError (Store δ × IngestOutcome) :=
  match reservationId with
  | some id => settleReservation hash store id event
  | none => recordEvent hash store event

/-- Everything but the event's own times is as it has to be for its first submission. -/
structure Submittable (store : Store δ) (reservationId : Option (List Char)) (event : UsageEvent) : Prop where
  period : event.period.Valid
  accepts : Accepts store event.period
  fresh : store.eventReceipts.lookup event.eventId = none
  reserved : ∀ id, reservationId = some id → validateIdentifier id = true ∧
    (store.periods.lookup event.period.startMs).isSome = true ∧
    ∃ row, store.reservations.lookup id = some row ∧ (row.status = .active ∨ row.status = .expired) ∧
      row.covers event = true

structure Submitted (hash : List UInt8 → δ) (store : Store δ) (reservationId : Option (List Char))
    (event : UsageEvent) : Prop where
  period : event.period.Valid
  accepts : Open store event.period
  known : ∃ stored, store.eventReceipts.lookup event.eventId = some stored ∧ stored.payloadSha256 = hash event.bytes
  settled : ∀ id, reservationId = some id → validateIdentifier id = true ∧
    ∃ row, store.reservations.lookup id = some row ∧ row.status = .settled ∧ row.eventId = some event.eventId ∧
      row.projectId = event.projectId ∧ row.periodStartMs = event.period.startMs ∧
      row.periodEndMs = event.period.endMs

theorem submit_invalid (hid : ∀ id, reservationId = some id → validateIdentifier id = true) (hvalid : ¬event.Valid) :
    submit hash store reservationId event = .error .invalidInput := by
  cases reservationId with
  | none => simp [submit, recordEvent, require, hvalid, bind, Except.bind]
  | some id => simp [submit, settleReservation, require, hvalid, hid id rfl, bind, Except.bind]

theorem settleReservation_eq {id : List Char} {row : Reservation δ} (hid : validateIdentifier id = true)
    (hvalid : event.Valid) (hrow : store.reservations.lookup id = some row)
    (hstatus : row.status = .active ∨ row.status = .expired) (hcovers : row.covers event = true)
    (haccepting : ensureAccepting store event.period event.recordedAtMs = .ok ()) :
    settleReservation hash store id event = (ingestEvent hash store event >>= fun result =>
      activateMauClaim result.1 row event.recordedAtMs >>= fun activated =>
        pure ({ activated with
          reservations := activated.reservations.insert id
            { row with status := .settled, eventId := some event.eventId, resolvedAtMs := some event.recordedAtMs } },
          result.2)) := by
  unfold settleReservation
  obtain hstatus | hstatus := hstatus <;>
    simp [require, hid, hvalid, orError, hrow, hstatus, hcovers, haccepting, bind, Except.bind]

theorem Registered.ingested {outcome : IngestOutcome} (h : Registered store event.period) (hvalid : event.period.Valid)
    (hingest : ingestEvent hash store event = .ok (store', outcome)) : store'.periods = store.periods := by
  obtain ⟨middle, hensure, ⟨-, -, -, rfl, -⟩ | ⟨-, -, hfold⟩⟩ := ingestEvent_ok hingest
  · rw [ensurePeriod_registered h hvalid] at hensure
    rw [← Except.ok.inj hensure]
  · rw [ensurePeriod_registered h hvalid] at hensure
    obtain rfl := Except.ok.inj hensure
    rw [recordSnapshots_frame hfold]
    rfl

/-- The first submission of a valid event is ingested. -/
theorem Submittable.first (hinj : Function.Injective hash) {events : List UsageEvent}
    (hsound : Sound hash ⟨store, events⟩) (h : Submittable store reservationId event) (hvalid : event.Valid) :
    ∃ store', submit hash store reservationId event = .ok (store', .inserted) ∧
      Submitted hash store' reservationId event ∧ Counts event store store' ∧
      Sound hash ⟨store', events ++ [event]⟩ := by
  obtain ⟨ensured, hensure, hopen⟩ := h.accepts.ensure h.period
  have hcutoff : event.recordedAtMs ≤ event.period.cutoffMs := hvalid.2.2.1.2.2.2
  cases reservationId with
  | none =>
    have hensured := hsound.ensured hensure
    have hfresh : ensured.eventReceipts.lookup event.eventId = none := by
      rw [ensurePeriod_frame hensure]
      exact h.fresh
    obtain ⟨store', hingest⟩ := ingestEvent_new hensured hvalid hopen.registered hfresh
    have hrecord : recordEvent hash store event = .ok (store', .inserted) := by
      simp [recordEvent, require, hvalid, hensure, hopen.accepting hcutoff, hingest, bind, Except.bind]
    have hsound' := hsound.recorded hrecord
    obtain ⟨-, -, row, hrow, hdigest⟩ := hsound'.receipted event (by simp [IngestOutcome.events])
    refine ⟨store', hrecord, ⟨h.period, ?_, ⟨row, hrow, hdigest⟩, fun _ hnone => (by cases hnone)⟩,
      ingests_recordEvent hsound.dated hrecord, hsound'⟩
    rw [Open, hopen.registered.ingested h.period hingest]
    exact hopen
  | some id =>
    obtain ⟨hid, hregistered, row, hrow, hstatus, hcovers⟩ := h.reserved id rfl
    have hstore : ensured = store := by
      obtain ⟨-, -, -, -, -, ⟨-, hsame⟩ | ⟨hnone, -, -⟩⟩ := ensurePeriod_ok hensure
      · exact hsame
      · rw [hnone] at hregistered
        cases hregistered
    subst hstore
    obtain ⟨ingested, hingest⟩ := ingestEvent_new hsound hvalid hopen.registered h.fresh
    have hingested := hsound.ingested hvalid hingest
    obtain ⟨-, hreservations, -⟩ := hsound.exact.ingested hinj hvalid hingest
    have hactivate : activateMauClaim ingested row event.recordedAtMs = _ :=
      activateMauClaim_eq (hingested.exact.claims id row (hreservations ▸ hrow)) event.recordedAtMs
    have hsettle : settleReservation hash ensured id event = _ :=
      settleReservation_eq hid hvalid hrow hstatus hcovers (hopen.accepting hcutoff)
    rw [hingest] at hsettle
    change _ = (activateMauClaim ingested row event.recordedAtMs >>= _) at hsettle
    rw [hactivate] at hsettle
    have hsound' := hsound.settled hinj hsettle
    obtain ⟨-, -, receipt, hreceipt, hdigest⟩ := hsound'.receipted event (by simp [IngestOutcome.events])
    simp only [Reservation.covers, Bool.and_eq_true, decide_eq_true_eq] at hcovers
    obtain ⟨⟨⟨⟨⟨hproject, hstart⟩, hend⟩, -⟩, -⟩, -⟩ := hcovers
    refine ⟨_, hsettle, ⟨h.period, ?_, ⟨receipt, hreceipt, hdigest⟩, ?_⟩, ingests_settle hinj hsound hsettle, hsound'⟩
    · change Open ingested event.period
      rw [Open, hopen.registered.ingested h.period hingest]
      exact hopen
    · intro other hother
      obtain rfl := Option.some.inj hother
      exact ⟨hid, _, AList.lookup_insert _, rfl, rfl, hproject, hstart, hend⟩

/-- Every later submission is compared with the first. -/
theorem Submitted.again (h : Submitted hash store reservationId event) (hperiod : event'.period = event.period)
    (hid : event'.eventId = event.eventId) (hvalid : event'.Valid) : submit hash store reservationId event' =
      if hash event'.bytes = hash event.bytes then .ok (store, .duplicate) else .error .hashConflict := by
  obtain ⟨stored, hstored, hdigest⟩ := h.known
  have hopen : Open store event'.period := hperiod ▸ h.accepts
  have hvalid' : event'.period.Valid := hperiod ▸ h.period
  have hknown : ingestEvent hash store event' = _ := ingestEvent_known hopen.registered hvalid' (hid ▸ hstored)
  have hsame : (stored.payloadSha256 = hash event'.bytes) = (hash event'.bytes = hash event.bytes) := by
    rw [hdigest]
    exact propext eq_comm
  cases reservationId with
  | none =>
    have haccepting := hopen.accepting hvalid.2.2.1.2.2.2
    simp only [submit, recordEvent, require, hvalid, decide_true, if_true, ensurePeriod_registered hopen.registered hvalid',
      haccepting, hknown, hsame, bind, Except.bind]
  | some id =>
    obtain ⟨hvalidId, row, hrow, hstatus, hevent, -⟩ := h.settled id rfl
    simp only [submit, settleReservation, require, hvalid, hvalidId, decide_true, if_true, orError, hrow, hstatus, hevent,
      hid, hknown, hsame, bind, Except.bind]

end Submit

section Repeated
variable {ι : Type} {act : ι → Store δ → Except MetricsError (Store δ × IngestOutcome)}

def repeatCalls (act : ι → Store δ → Except MetricsError (Store δ × IngestOutcome)) :
    Store δ → List ι → Store δ × List (Except MetricsError IngestOutcome)
  | store, [] => (store, [])
  | store, call :: rest =>
    match act call store with
    | .ok (store', outcome) => ((repeatCalls act store' rest).1, .ok outcome :: (repeatCalls act store' rest).2)
    | .error error => ((repeatCalls act store rest).1, .error error :: (repeatCalls act store rest).2)

/-- The first call ingests an event, the others find it, and the summary of its period counts it once. -/
structure IngestedOnce (act : ι → Store δ → Except MetricsError (Store δ × IngestOutcome)) (store : Store δ)
    (first : ι) (later : List ι) (event : UsageEvent) : Prop where
  outcomes : (repeatCalls act store (first :: later)).2 = .ok .inserted :: later.map fun _ => .ok .duplicate
  reads : usedThrough (repeatCalls act store (first :: later)).1 event.period.startMs event.period.endMs (·.readUnits) =
    usedThrough store event.period.startMs event.period.endMs (·.readUnits) + event.readUnits
  writes : usedThrough (repeatCalls act store (first :: later)).1 event.period.startMs event.period.endMs (·.writeUnits) =
    usedThrough store event.period.startMs event.period.endMs (·.writeUnits) + event.writeUnits
  users : activeThrough (repeatCalls act store (first :: later)).1 event.period.startMs event.period.endMs =
    activeThrough store event.period.startMs event.period.endMs + if isNewUser store event then 1 else 0

theorem repeatCalls_same {outcome : ι → Except MetricsError IngestOutcome} {calls : List ι}
    (h : ∀ call ∈ calls, act call store = (outcome call).map fun result => (store, result)) :
    repeatCalls act store calls = (store, calls.map outcome) := by
  induction calls with
  | nil => rfl
  | cons call calls ih =>
    have hcall := h call List.mem_cons_self
    have hrest := ih fun other hother => h other (List.mem_cons_of_mem call hother)
    unfold repeatCalls
    rw [hcall, List.map_cons]
    cases outcome call with
    | ok result => exact congrArg (fun rest => (rest.1, .ok result :: rest.2)) hrest
    | error error => exact congrArg (fun rest => (rest.1, .error error :: rest.2)) hrest

variable [DecidableEq δ] {first : ι} {later : List ι} {reservationId : Option (List Char)}

/-- Submissions of one event are ingested once exactly when the first is valid and the others have the same content. -/
theorem ingestedOnce_iff (event : ι → UsageEvent) (hinj : Function.Injective hash) {events : List UsageEvent}
    (hsound : Sound hash ⟨store, events⟩) (h : Submittable store reservationId (event first))
    (hfirst : act first store = submit hash store reservationId (event first))
    (hagain : ∀ store', Submitted hash store' reservationId (event first) → ∀ call ∈ later,
      act call store' = submit hash store' reservationId (event call))
    (hsame : ∀ call ∈ later, (event call).period = (event first).period ∧ (event call).eventId = (event first).eventId)
    (hlater : (event first).Valid → ∀ call ∈ later, (event call).Valid) :
    IngestedOnce act store first later (event first) ↔
      (event first).Valid ∧ ∀ call ∈ later, (event call).bytes = (event first).bytes := by
  have hids : ∀ id, reservationId = some id → validateIdentifier id = true := fun id hid => (h.reserved id hid).1
  by_cases hvalid : (event first).Valid
  · obtain ⟨store', hsubmit, hsubmitted, hcounts, -⟩ := h.first hinj hsound hvalid
    have hrest : repeatCalls act store' later = (store', later.map fun call =>
        if (event call).bytes = (event first).bytes then .ok .duplicate else .error .hashConflict) := by
      refine repeatCalls_same fun call hcall => ?_
      obtain ⟨hperiod, hid⟩ := hsame call hcall
      rw [hagain store' hsubmitted call hcall, hsubmitted.again hperiod hid (hlater hvalid call hcall)]
      by_cases hbytes : (event call).bytes = (event first).bytes
      · rw [if_pos hbytes, if_pos (congrArg hash hbytes)]
        rfl
      · rw [if_neg hbytes, if_neg fun hdigest => hbytes (hinj hdigest)]
        rfl
    have hall : repeatCalls act store (first :: later) = (store', .ok .inserted :: later.map fun call =>
        if (event call).bytes = (event first).bytes then .ok .duplicate else .error .hashConflict) := by
      unfold repeatCalls
      rw [hfirst, hsubmit]
      exact congrArg (fun rest => (rest.1, .ok .inserted :: rest.2)) hrest
    have ⟨_, _, ⟨_, hend, _⟩, _⟩ := hvalid
    have hhour : 0 ≤ (event first).occurredAtMs % hourMs := Int.emod_nonneg _ (by decide)
    have hbucket : (event first).bucketMs < (event first).period.endMs := by
      unfold UsageEvent.bucketMs
      omega
    constructor
    · intro honce
      refine ⟨hvalid, fun call hcall => ?_⟩
      have houtcomes := honce.outcomes
      rw [hall, List.cons.injEq, List.map_inj_left] at houtcomes
      have hcall := houtcomes.2 call hcall
      by_contra hbytes
      rw [if_neg hbytes] at hcall
      cases hcall
    · intro hbytes
      refine ⟨?_, ?_, ?_, ?_⟩ <;> rw [hall]
      · exact congrArg _ (List.map_congr_left fun call hcall => if_pos (hbytes.2 call hcall))
      · rw [hcounts.reads, if_pos ⟨rfl, hbucket⟩]
      · rw [hcounts.writes, if_pos ⟨rfl, hbucket⟩]
      · rw [hcounts.users]
        simp [hend]
  · refine iff_of_false (fun honce => ?_) fun hboth => hvalid hboth.1
    have houtcomes := honce.outcomes
    unfold repeatCalls at houtcomes
    rw [hfirst, submit_invalid hids hvalid] at houtcomes
    cases houtcomes

end Repeated

section Receipts
variable {prepared : PreparedUsage} {receipt : UsageReceipt} {period : BillingPeriod}

theorem clamp_mem (hvalid : period.Valid) (t : Int) : period.startMs ≤ period.clamp t ∧ period.clamp t < period.endMs := by
  have hlength := hvalid.2.1
  unfold BillingPeriod.clamp
  split
  · omega
  · split <;> omega

theorem clamp_of_mem {t : Int} (hstart : period.startMs ≤ t) (hend : t < period.endMs) : period.clamp t = t := by
  unfold BillingPeriod.clamp
  rw [if_neg (by omega), if_neg (by omega)]

structure PreparedUsage.Ready (store : Store δ) (prepared : PreparedUsage) (receipt : UsageReceipt) : Prop where
  period : prepared.period.Valid
  accepts : Accepts store prepared.period
  fresh : store.eventReceipts.lookup (uuidText receipt.receiptId) = none
  reads : receipt.reads ≤ i64Max
  writes : receipt.writes ≤ i64Max
  bytes : receipt.logicalDatabaseBytes ≤ i64Max
  reserved : ∀ id, prepared.reservationId = some id → validateIdentifier id = true ∧
    (store.periods.lookup prepared.period.startMs).isSome = true ∧
    ∃ row, store.reservations.lookup id = some row ∧ (row.status = .active ∨ row.status = .expired) ∧
      row.projectId = prepared.projectId ∧ row.periodStartMs = prepared.period.startMs ∧
      row.periodEndMs = prepared.period.endMs ∧ receipt.reads ≤ row.readUnits ∧ receipt.writes ≤ row.writeUnits ∧
      row.subjectHash = prepared.subjectHash

theorem PreparedUsage.Ready.submittable (h : prepared.Ready store receipt) (nowMs : Int) :
    Submittable store prepared.reservationId (receiptEvent prepared receipt nowMs) := by
  refine ⟨h.period, h.accepts, h.fresh, fun id hid => ?_⟩
  obtain ⟨hvalid, hregistered, row, hrow, hstatus, hproject, hstart, hend, hreads, hwrites, hsubject⟩ := h.reserved id hid
  refine ⟨hvalid, hregistered, row, hrow, hstatus, ?_⟩
  simp [Reservation.covers, receiptEvent, hproject, hstart, hend, hreads, hwrites, hsubject]

theorem PreparedUsage.Ready.valid_iff (h : prepared.Ready store receipt) {nowMs : Int}
    (hnow : nowMs ≤ prepared.period.cutoffMs) :
    (receiptEvent prepared receipt nowMs).Valid ↔ prepared.period.clamp receipt.recordedAtMs ≤ nowMs := by
  obtain ⟨hstart, hend⟩ := clamp_mem h.period receipt.recordedAtMs
  constructor
  · intro hvalid
    exact hvalid.2.2.1.2.2.1
  · intro hbefore
    refine ⟨valid_uuidText _, h.period, ⟨hstart, hend, hbefore, hnow⟩, ?_, ?_, ?_, h.reads, h.writes, ?_⟩
    · exact (by decide : 1 ≤ 64)
    · intro snapshot hsnapshot
      obtain rfl := List.mem_singleton.mp hsnapshot
      exact valid_databaseResource _
    · exact List.nodup_singleton _
    · intro snapshot hsnapshot
      obtain rfl := List.mem_singleton.mp hsnapshot
      exact h.bytes

end Receipts

section Objects
variable {organization : Organization} {projectId : ProjectId} {nonce subject : List Char} {period : BillingPeriod}
  {subjectHash : SubjectHash}

structure ObjectReady (store : Store δ) (organization : Organization) (projectId : ProjectId)
    (nonce subject : List Char) (period : BillingPeriod) (subjectHash : SubjectHash) : Prop where
  valid : period.Valid
  accepts : Open store period
  fresh : store.eventReceipts.lookup (storageReservationId nonce) = none
  subject : hashActiveSubject organization period subject = .ok subjectHash
  reserved : ∃ row, store.reservations.lookup (storageReservationId nonce) = some row ∧
    (row.status = .active ∨ row.status = .expired) ∧ row.projectId = projectId ∧
    BillingPeriod.ofBounds row.periodStartMs row.periodEndMs = period ∧ row.subjectHash = some subjectHash

theorem settleObjectStorage_found [DecidableEq δ] {row : Reservation δ}
    (hrow : store.reservations.lookup (storageReservationId nonce) = some row) (currentBytes : Nat) (nowMs : Int) :
    settleObjectStorage hash organization projectId nonce subject currentBytes nowMs store =
      (require (row.projectId = projectId) .reservationMismatch >>= fun _ =>
        hashActiveSubject organization (BillingPeriod.ofBounds row.periodStartMs row.periodEndMs) subject >>=
          fun subjectHash => settleReservation hash store (storageReservationId nonce)
            (objectEvent projectId (storageReservationId nonce)
              (BillingPeriod.ofBounds row.periodStartMs row.periodEndMs) subjectHash currentBytes nowMs)) := by
  have hcontext : reservationContext store (storageReservationId nonce) =
      .ok (some ⟨row.projectId, row.periodStartMs, row.periodEndMs, row.status⟩) := by
    unfold reservationContext
    rw [valid_storageReservationId, hrow]
    rfl
  unfold settleObjectStorage
  dsimp only
  rw [hcontext]
  rfl

theorem settleObjectStorage_eq [DecidableEq δ] {row : Reservation δ}
    (hrow : store.reservations.lookup (storageReservationId nonce) = some row) (hproject : row.projectId = projectId)
    (hperiod : BillingPeriod.ofBounds row.periodStartMs row.periodEndMs = period)
    (hsubject : hashActiveSubject organization period subject = .ok subjectHash) (currentBytes : Nat) (nowMs : Int) :
    settleObjectStorage hash organization projectId nonce subject currentBytes nowMs store =
      submit hash store (some (storageReservationId nonce))
        (objectEvent projectId (storageReservationId nonce) period subjectHash currentBytes nowMs) := by
  rw [settleObjectStorage_found hrow, hperiod, hsubject, hproject]
  simp only [require, decide_true, if_true]
  rfl

theorem valid_objectEvent {eventId : List Char} (hid : validateIdentifier eventId = true) (hperiod : period.Valid)
    {currentBytes : Nat} (hbytes : currentBytes ≤ i64Max) {nowMs : Int} (hstart : period.startMs ≤ nowMs)
    (hend : nowMs < period.endMs) : (objectEvent projectId eventId period subjectHash currentBytes nowMs).Valid := by
  have hclamp := clamp_of_mem hstart hend
  have hcutoff : period.endMs ≤ period.cutoffMs := hperiod.2.2.2.1
  refine ⟨hid, hperiod, ?_, ?_, ?_, ?_, Nat.zero_le _, Nat.zero_le _, ?_⟩
  · simp only [objectEvent, hclamp]
    omega
  · exact (by decide : 1 ≤ 64)
  · intro snapshot hsnapshot
    obtain rfl := List.mem_singleton.mp hsnapshot
    exact valid_objectStorageResource _
  · exact List.nodup_singleton _
  · intro snapshot hsnapshot
    obtain rfl := List.mem_singleton.mp hsnapshot
    exact hbytes

theorem objectEvent_valid (hperiod : period.Valid) {currentBytes : Nat} (hbytes : currentBytes ≤ i64Max) {nowMs : Int}
    (hstart : period.startMs ≤ nowMs) (hend : nowMs < period.endMs) :
    (objectEvent projectId (storageReservationId nonce) period subjectHash currentBytes nowMs).Valid :=
  valid_objectEvent (valid_storageReservationId _) hperiod hbytes hstart hend

/-- The content of an object's event is its time and its size. -/
theorem objectEvent_bytes_iff {currentBytes currentBytes' : Nat} {nowMs nowMs' : Int}
    (hvalid : (objectEvent projectId (storageReservationId nonce) period subjectHash currentBytes nowMs).Valid)
    (hvalid' : (objectEvent projectId (storageReservationId nonce) period subjectHash currentBytes' nowMs').Valid) :
    (objectEvent projectId (storageReservationId nonce) period subjectHash currentBytes nowMs).bytes =
        (objectEvent projectId (storageReservationId nonce) period subjectHash currentBytes' nowMs').bytes ↔
      nowMs = nowMs' ∧ currentBytes = currentBytes' := by
  constructor
  · intro h
    obtain ⟨-, -, -, hrecorded, hsnapshots⟩ := UsageEvent.bytes_inj hvalid hvalid' rfl h
    refine ⟨hrecorded, ?_⟩
    change StorageSnapshot.bytes ⟨objectStorageResource projectId, currentBytes⟩ ++ [] =
      StorageSnapshot.bytes ⟨objectStorageResource projectId, currentBytes'⟩ ++ [] at hsnapshots
    rw [List.append_nil, List.append_nil] at hsnapshots
    have hsnapshots := List.append_cancel_left hsnapshots
    have hsize := hvalid.2.2.2.2.2.2.2.2 _ List.mem_cons_self
    have hsize' := hvalid'.2.2.2.2.2.2.2.2 _ List.mem_cons_self
    exact countBytes_injective hsize hsize' hsnapshots
  · intro h
    rw [h.1, h.2]

end Objects

section Claim
variable [DecidableEq δ]

/-- A receipt of the worker that is ingested again and again is counted once, and found again every time,
exactly when the worker's clock was not ahead of the first ingestion and every other one is made in the same
millisecond as the first. For the commit of an upload, the size has to be the same as well. -/
theorem ingested_once_iff (hinj : Function.Injective hash) (calls : List StoreCall) :
    let store := (Machine.run (step hash) {} calls).store
    (∀ prepared receipt, prepared.Ready store receipt → ∀ nowMs later, (nowMs :: later).Pairwise (· ≤ ·) →
      (∀ t ∈ nowMs :: later, prepared.period.startMs ≤ t ∧ t < prepared.period.endMs) →
      (IngestedOnce (fun t store => ingest hash prepared receipt t store) store nowMs later
          (receiptEvent prepared receipt nowMs) ↔
        prepared.period.clamp receipt.recordedAtMs ≤ nowMs ∧ ∀ t ∈ later, t = nowMs)) ∧
    ∀ organization projectId nonce subject period subjectHash,
      ObjectReady store organization projectId nonce subject period subjectHash →
      ∀ first later, (first :: later).Pairwise (fun call call' : Int × Nat => call.1 ≤ call'.1) →
      (∀ call ∈ first :: later, period.startMs ≤ call.1 ∧ call.1 < period.endMs ∧ call.2 ≤ i64Max) →
      (IngestedOnce (fun call store => settleObjectStorage hash organization projectId nonce subject call.2 call.1 store)
          store first later
          (objectEvent projectId (storageReservationId nonce) period subjectHash first.2 first.1) ↔
        ∀ call ∈ later, call = first) := by
  intro store
  have hsound : Sound hash ⟨store, (Machine.run (step hash) {} calls).events⟩ := sound_run hinj calls
  refine ⟨?_, ?_⟩
  · intro prepared receipt hready nowMs later hsorted hinside
    have hcutoff (t : Int) (ht : t ∈ nowMs :: later) : t ≤ prepared.period.cutoffMs := by
      have hend := (hinside t ht).2
      have := hready.period.2.2.2.1
      omega
    have hvalid (t : Int) (ht : t ∈ nowMs :: later) := hready.valid_iff (hcutoff t ht)
    have hsubmit (t : Int) (store : Store δ) : ingest hash prepared receipt t store =
        submit hash store prepared.reservationId (receiptEvent prepared receipt t) := rfl
    have hlater : (receiptEvent prepared receipt nowMs).Valid →
        ∀ t ∈ later, (receiptEvent prepared receipt t).Valid := by
      intro hfirst t ht
      have hbefore := (hvalid nowMs List.mem_cons_self).mp hfirst
      have horder := (List.pairwise_cons.mp hsorted).1 t ht
      exact (hvalid t (List.mem_cons_of_mem _ ht)).mpr (hbefore.trans horder)
    rw [ingestedOnce_iff (receiptEvent prepared receipt) hinj hsound (hready.submittable nowMs)
      (hsubmit nowMs store) (fun store' _ t _ => hsubmit t store') (fun _ _ => ⟨rfl, rfl⟩) hlater,
      hvalid nowMs List.mem_cons_self]
    refine and_congr_right fun hbefore => forall₂_congr fun t ht => ?_
    have hfirst := (hvalid nowMs List.mem_cons_self).mpr hbefore
    constructor
    · intro hbytes
      exact (UsageEvent.bytes_inj (hlater hfirst t ht) hfirst rfl hbytes).2.2.2.1
    · rintro rfl
      rfl
  · intro organization projectId nonce subject period subjectHash hready first later hsorted hinside
    obtain ⟨row, hrow, hstatus, hproject, hperiod, hsubject⟩ := hready.reserved
    have hstart : row.periodStartMs = period.startMs := by rw [← hperiod]; rfl
    have hend : row.periodEndMs = period.endMs := by rw [← hperiod]; rfl
    have hvalid (call : Int × Nat) (hcall : call ∈ first :: later) : (objectEvent projectId (storageReservationId nonce)
        period subjectHash call.2 call.1).Valid := by
      obtain ⟨hstart, hend, hbytes⟩ := hinside call hcall
      exact objectEvent_valid hready.valid hbytes hstart hend
    have hsubmittable : Submittable store (some (storageReservationId nonce))
        (objectEvent projectId (storageReservationId nonce) period subjectHash first.2 first.1) := by
      refine ⟨hready.valid, ?_, hready.fresh, ?_⟩
      · obtain ⟨known, hknown, hrest⟩ := hready.accepts
        intro other hother
        obtain rfl := Option.some.inj (hknown.symm.trans hother)
        exact hrest
      · intro id hid
        obtain rfl := Option.some.inj hid
        obtain ⟨known, hknown, -⟩ := hready.accepts
        refine ⟨valid_storageReservationId _, Option.isSome_iff_exists.mpr ⟨known, hknown⟩, row, hrow, hstatus, ?_⟩
        simp [Reservation.covers, objectEvent, hproject, hstart, hend, hsubject]
    rw [ingestedOnce_iff (fun call : Int × Nat => objectEvent projectId (storageReservationId nonce) period
      subjectHash call.2 call.1) hinj hsound hsubmittable
      (settleObjectStorage_eq hrow hproject hperiod hready.subject _ _) ?_ (fun _ _ => ⟨rfl, rfl⟩)
      (fun _ call hcall => hvalid call (List.mem_cons_of_mem _ hcall)), and_iff_right (hvalid first List.mem_cons_self)]
    · refine forall₂_congr fun call hcall => ?_
      rw [objectEvent_bytes_iff (hvalid call (List.mem_cons_of_mem _ hcall)) (hvalid first List.mem_cons_self),
        Prod.ext_iff]
    · intro store' hsubmitted call _
      obtain ⟨-, row', hrow', -, -, hproject', hstart', hend'⟩ := hsubmitted.settled _ rfl
      refine settleObjectStorage_eq hrow' hproject' ?_ hready.subject _ _
      rw [hstart', hend']
      change BillingPeriod.ofBounds period.startMs period.endMs = period
      rw [← hstart, ← hend, hperiod]

end Claim

section Sample

def sampleReceipt (recordedAtMs : Int) : UsageReceipt := ⟨7, 7, 1, 0, 4096, some "bob", recordedAtMs⟩

def samplePull : PreparedUsage := ⟨samplePeriod, 1, none, some (sampleSubject 1), 8192⟩

/-- A long poll pulls twice under one request id; the second pull is answered with an error. -/
theorem second_pull_conflicts :
    (repeatCalls (fun t store => ingest Sha256.digest samplePull (sampleReceipt 900) t store) {} [1000, 1500]).2 =
      [.ok .inserted, .error .hashConflict] := by
  decide +kernel

def sampleOrganization : Organization := ⟨5, [1, 2, 3]⟩

def sampleNonce : List Char := ['n']

def bobSubject : SubjectHash := ((hashActiveSubject sampleOrganization samplePeriod ['b', 'o', 'b']).toOption).getD (sampleSubject 0)

def sampleGrant : List StoreCall :=
  [.reserve ⟨storageReservationId sampleNonce, 1, samplePeriod, 500, 60500, 0, 0, 100, some bobSubject⟩ (sampleLimits 9)]

theorem ready_samplePull : samplePull.Ready (Machine.run (step id) {} sampleGrant).store (sampleReceipt 900) where
  period := by decide
  accepts := by
    intro row hrow
    have hperiods : ∀ entry ∈ (Machine.run (step id) {} sampleGrant).store.periods.entries, entry.1 = 0 →
      entry.2 = ⟨30*dayMs, 32*dayMs, .opened⟩ := by decide +kernel
    obtain rfl := hperiods ⟨_, row⟩ (AList.mem_entries.mpr hrow) rfl
    exact ⟨rfl, rfl, rfl⟩
  fresh := by decide +kernel
  reads := by decide
  writes := by decide
  bytes := by decide
  reserved := fun _ h => nomatch h

theorem ready_sampleGrant : ObjectReady (Machine.run (step id) {} sampleGrant).store sampleOrganization 1 sampleNonce
    ['b', 'o', 'b'] samplePeriod bobSubject where
  valid := by decide
  accepts := ⟨⟨30*dayMs, 32*dayMs, .opened⟩, by decide +kernel, rfl, rfl, rfl⟩
  fresh := by decide +kernel
  subject := by decide +kernel
  reserved := by
    have hrow : ((Machine.run (step id) {} sampleGrant).store.reservations.lookup
        (storageReservationId sampleNonce)).any (fun row => row.status = .active ∧ row.projectId = 1 ∧
          BillingPeriod.ofBounds row.periodStartMs row.periodEndMs = samplePeriod ∧
          row.subjectHash = some bobSubject) = true := by decide +kernel
    obtain ⟨row, hrow, hthat⟩ := (Option.any_eq_true _ _).mp hrow
    obtain ⟨hstatus, hproject, hperiod, hsubject⟩ := of_decide_eq_true hthat
    exact ⟨row, hrow, Or.inl hstatus, hproject, hperiod, hsubject⟩

/-- A receipt that comes three times within a millisecond, and an upload that is committed twice. -/
theorem samples_ingested_once :
    IngestedOnce (fun t store => ingest id samplePull (sampleReceipt 900) t store)
        (Machine.run (step id) {} sampleGrant).store 1000 [1000, 1000] (receiptEvent samplePull (sampleReceipt 900) 1000) ∧
      IngestedOnce (fun call : Int × Nat => settleObjectStorage id sampleOrganization 1 sampleNonce ['b', 'o', 'b']
          call.2 call.1)
        (Machine.run (step id) {} sampleGrant).store (2000, 100) [(2000, 100)]
        (objectEvent 1 (storageReservationId sampleNonce) samplePeriod bobSubject 100 2000) :=
  ⟨((ingested_once_iff Function.injective_id sampleGrant).1 samplePull (sampleReceipt 900) ready_samplePull 1000
      [1000, 1000] (by decide) (by decide)).mpr ⟨by decide, by decide⟩,
    ((ingested_once_iff Function.injective_id sampleGrant).2 sampleOrganization 1 sampleNonce ['b', 'o', 'b'] samplePeriod
      bobSubject ready_sampleGrant (2000, 100) [(2000, 100)] (by decide) (by decide)).mpr (by decide)⟩

end Sample

end Ffdb.Metrics
