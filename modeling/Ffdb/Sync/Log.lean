import Ffdb.Sync.Versions

/-! The invariant `validate_state` checks, kept by every operation while sequences are
not exhausted, and what compaction may forget. -/
namespace Ffdb.Sync
open Saturating Fallible
variable {crates : Crates}

structure Valid (state : EngineState) (config : SyncConfig) : Prop where
  minimum : state.minimumAvailableSequence < state.nextSequence
  records : state.idempotency.size ≤ config.maxIdempotencyRecords
  ordered : (state.events.map LogicalEvent.sequence).Pairwise (· < ·)
  events : ∀ event ∈ state.events, 0 < event.sequence ∧ event.sequence < state.nextSequence
  rows : ∀ (key : String) row, state.rows[key]? = some row → unitSeparator ∈ key.toList ∧
    0 < row.serverSequence ∧ row.serverSequence < state.nextSequence ∧ 0 < row.rowVersion
  receipts : ∀ (key : String) record, state.idempotency[key]? = some record →
    0 < record.receipt.sequence ∧ record.receipt.sequence < state.nextSequence

theorem eventsInOrder_iff (nextSequence prior : Nat) (events : List LogicalEvent) :
    eventsInOrder nextSequence prior events = true ↔
      (events.map LogicalEvent.sequence).Pairwise (· < ·) ∧
      ∀ event ∈ events, prior < event.sequence ∧ event.sequence < nextSequence := by
  induction events generalizing prior with
  | nil => simp [eventsInOrder]
  | cons event rest ih =>
    simp only [eventsInOrder, Bool.and_eq_true, ih, Bool.not_eq_true', Bool.or_eq_false_iff,
      decide_eq_false_iff_not, not_le, List.map_cons, List.pairwise_cons, List.mem_map,
      forall_exists_index, and_imp, forall_apply_eq_imp_iff₂, List.forall_mem_cons]
    constructor
    · rintro ⟨hevent, hordered, hrest⟩
      refine ⟨⟨fun e he => (hrest e he).1, hordered⟩, hevent, fun e he => ?_⟩
      exact ⟨lt_trans hevent.1 (hrest e he).1, (hrest e he).2⟩
    · rintro ⟨⟨hlt, hordered⟩, hevent, hrest⟩
      exact ⟨hevent, hordered, fun e he => ⟨hlt e he, (hrest e he).2⟩⟩

theorem validateState_iff (state : EngineState) (config : SyncConfig) :
    validateState state config = .ok () ↔ Valid state config := by
  simp only [validateState, bind_ok_iff, require_ok_iff, eventsInOrder_iff, Bool.and_eq_true,
    decide_eq_true_eq, List.any_eq_false, Bool.or_eq_true, not_or,
    Std.ExtTreeMap.mem_toList_iff_getElem?_eq_some, Prod.forall, exists_const, not_le,
    List.contains_iff_mem, Bool.not_eq_eq_eq_not, Bool.not_true, Bool.not_eq_false]
  constructor
  · rintro ⟨⟨⟨hnext, hmin⟩, hrecords⟩, ⟨hordered, hevents⟩, hrows, hreceipts⟩
    refine ⟨by omega, hrecords, hordered, hevents, fun key row h => ?_, fun key record h => ?_⟩
    · obtain ⟨⟨⟨hkey, hs⟩, hb⟩, hv⟩ := hrows key row h
      exact ⟨by simpa using hkey, by omega, hb, by omega⟩
    · obtain ⟨hs, hb⟩ := hreceipts key record h
      exact ⟨by omega, hb⟩
  · rintro ⟨hmin, hrecords, hordered, hevents, hrows, hreceipts⟩
    refine ⟨⟨⟨by omega, by omega⟩, hrecords⟩, ⟨hordered, hevents⟩, fun key row h => ?_,
      fun key record h => ?_⟩
    · obtain ⟨hkey, hs, hb, hv⟩ := hrows key row h
      exact ⟨⟨⟨by simpa using hkey, by omega⟩, hb⟩, by omega⟩
    · obtain ⟨hs, hb⟩ := hreceipts key record h
      exact ⟨by omega, hb⟩

theorem valid_initial (config : SyncConfig) : Valid .initial config := by
  constructor <;> simp [EngineState.initial]

/-- Engines start valid: fresh, or behind the checks of `restore`. -/
theorem Started.valid {engine : SyncEngine} (h : Started crates engine) :
    Valid engine.state engine.config := by
  rcases h with ⟨projectId, schemaVersion, secret, config, h⟩ |
    ⟨projectId, secret, config, checkpoint, h⟩
  · simp only [SyncEngine.new, bind_ok_iff, pure_ok_iff] at h
    obtain ⟨_, _, rfl⟩ := h
    exact valid_initial config
  · simp only [SyncEngine.restore, SyncEngine.new, bind_ok_iff, pure_ok_iff] at h
    obtain ⟨envelope, _, _, _, _, hvalid, _, ⟨_, _, rfl⟩, rfl⟩ := h
    exact (validateState_iff _ _).mp hvalid

theorem Valid.prune {state : EngineState} {config : SyncConfig} (h : Valid state config)
    (nowMs : Int64) : Valid (pruneIdempotency config state nowMs) config where
  minimum := h.minimum
  records := le_trans Std.ExtTreeMap.size_filter_le_size h.records
  ordered := h.ordered
  events := h.events
  rows := h.rows
  receipts key record hr := by
    simp only [pruneIdempotency, Std.ExtTreeMap.getElem?_filter', Option.filter_eq_some_iff] at hr
    exact h.receipts key record hr.1

theorem Valid.append {state : EngineState} {config : SyncConfig} (h : Valid state config)
    (hmax : state.nextSequence < u64Max) (event : LogicalEvent)
    (hevent : event.sequence = state.nextSequence) :
    Valid { state with
      nextSequence := succ state.nextSequence
      events := state.events ++ [event] } config := by
  have hmin := h.minimum
  have hnext : succ state.nextSequence = state.nextSequence+1 := succ_of_lt hmax
  refine ⟨?_, h.records, ?_, ?_, ?_, ?_⟩
  · simp only [hnext]
    omega
  · simp only [List.map_append, List.map_cons, List.map_nil]
    refine List.pairwise_append.mpr ⟨h.ordered, List.pairwise_singleton _ _, ?_⟩
    simp only [List.mem_map, List.mem_singleton, forall_exists_index, and_imp]
    rintro _ e he rfl _ rfl
    rw [hevent]
    exact (h.events e he).2
  · simp only [List.mem_append, List.mem_singleton, hnext]
    rintro e (he | rfl)
    · have := h.events e he
      omega
    · omega
  · intro key row hrow
    obtain ⟨hkey, hs, hb, hv⟩ := h.rows key row hrow
    exact ⟨hkey, hs, by simp only [hnext]; omega, hv⟩
  · intro key record hrecord
    obtain ⟨hs, hb⟩ := h.receipts key record hrecord
    exact ⟨hs, by simp only [hnext]; omega⟩

theorem Valid.insertRow {state : EngineState} {config : SyncConfig} (h : Valid state config)
    (key : String) (row : StoredRow) (hkey : unitSeparator ∈ key.toList)
    (hrow : 0 < row.serverSequence ∧ row.serverSequence < state.nextSequence ∧
      0 < row.rowVersion) :
    Valid { state with rows := state.rows.insert key row } config := by
  refine ⟨h.minimum, h.records, h.ordered, h.events, ?_, h.receipts⟩
  intro key' row' hrow'
  simp only [Std.ExtTreeMap.getElem?_insert, compare_eq_iff_eq] at hrow'
  split at hrow'
  · next he =>
    cases hrow'
    exact ⟨he ▸ hkey, hrow⟩
  · exact h.rows key' row' hrow'

theorem Valid.insertReceipt {state : EngineState} {config : SyncConfig} (h : Valid state config)
    (key : String) (record : IdempotencyRecord)
    (hsize : state.idempotency.size < config.maxIdempotencyRecords)
    (hrecord : 0 < record.receipt.sequence ∧ record.receipt.sequence < state.nextSequence) :
    Valid { state with idempotency := state.idempotency.insert key record } config := by
  refine ⟨h.minimum, ?_, h.ordered, h.events, h.rows, ?_⟩
  · have hinsert : (state.idempotency.insert key record).size ≤ state.idempotency.size+1 :=
      Std.ExtTreeMap.size_insert_le
    exact le_trans hinsert hsize
  · intro key' record' hrecord'
    simp only [Std.ExtTreeMap.getElem?_insert, compare_eq_iff_eq] at hrecord'
    split at hrecord'
    · cases hrecord'
      exact hrecord
    · exact h.receipts key' record' hrecord'

theorem nextRowVersion_pos (prior : Option StoredRow) : 0 < nextRowVersion prior := by
  cases prior with
  | none => exact Nat.one_pos
  | some row => exact succ_pos

@[simp] theorem mutationEvent_sequence (engine : SyncEngine) (context : SyncContext)
    (transactionId : String) (mutation : ClientMutation) (prior : Option StoredRow)
    (sequence : Nat) (nowMs : Int64) :
    (mutationEvent engine context transactionId mutation prior sequence nowMs).sequence =
      sequence := by
  unfold mutationEvent
  cases mutation.operation <;> rfl

theorem unitSeparator_mem_of_target {mutation : ClientMutation} {hash : Bytes} {key : String}
    (h : mutationTarget crates mutation = .ok (hash, key)) : unitSeparator ∈ key.toList := by
  obtain ⟨text, _, hkey⟩ := rowKey_toList (mutationTarget_ok h).2.2
  simp [hkey]

/-- A commit is an append, a row and a receipt, after pruning. -/
theorem Valid.commit {engine : SyncEngine} (h : Valid engine.state engine.config)
    (hmax : engine.state.nextSequence < u64Max) (context : SyncContext) (transactionId : String)
    (mutation : ClientMutation) (hash : Bytes) {key : String} (prior : Option StoredRow)
    (nowMs : Int64) (hkey : unitSeparator ∈ key.toList)
    (hsize : (pruneIdempotency engine.config engine.state nowMs).idempotency.size
      < engine.config.maxIdempotencyRecords) :
    Valid (commitMutation engine context transactionId mutation hash key prior nowMs)
      engine.config := by
  have hpos : 0 < engine.state.nextSequence := lt_of_le_of_lt (Nat.zero_le _) h.minimum
  have hnext : succ engine.state.nextSequence = engine.state.nextSequence+1 := succ_of_lt hmax
  have happend := (h.prune nowMs).append hmax (mutationEvent engine context transactionId
    mutation prior engine.state.nextSequence nowMs) (mutationEvent_sequence ..)
  have hrow := happend.insertRow key
    (writtenRow mutation prior engine.state.nextSequence nowMs) hkey
    ⟨by simpa using hpos, by simp [pruneIdempotency, hnext], by simp [nextRowVersion_pos]⟩
  exact hrow.insertReceipt (idempotencyKey context mutation)
    ⟨hash, mutationReceipt mutation prior engine.state.nextSequence, nowMs⟩ hsize
    ⟨hpos, by simp [mutationReceipt, pruneIdempotency, hnext]⟩

theorem retainEvents_events (cutoff : Int64) (events : List LogicalEvent) (minimum : Nat) :
    (retainEvents cutoff events minimum).1 =
      events.filter fun event => cutoff ≤ event.committedAtMs := by
  induction events generalizing minimum with
  | nil => rfl
  | cons event rest ih =>
    by_cases h : cutoff ≤ event.committedAtMs <;> simp [retainEvents, h, ih]

/-- The new minimum covers the old one and every removed event, and nothing higher. -/
theorem retainEvents_minimum (cutoff : Int64) (events : List LogicalEvent) (minimum : Nat) :
    minimum ≤ (retainEvents cutoff events minimum).2.2 ∧
    (∀ event ∈ events, ¬ cutoff ≤ event.committedAtMs →
      event.sequence ≤ (retainEvents cutoff events minimum).2.2) ∧
    ∀ bound, minimum < bound → (∀ event ∈ events, event.sequence < bound) →
      (retainEvents cutoff events minimum).2.2 < bound := by
  induction events generalizing minimum with
  | nil => simp [retainEvents]
  | cons event rest ih =>
    by_cases h : cutoff ≤ event.committedAtMs
    · obtain ⟨hmin, hremoved, hbound⟩ := ih minimum
      simp only [retainEvents, h, if_true]
      refine ⟨hmin, ?_, fun bound hb he => hbound bound hb fun e hm => he e (by simp [hm])⟩
      intro e hm hlate
      rcases List.mem_cons.mp hm with rfl | hm
      · exact absurd h hlate
      · exact hremoved e hm hlate
    · obtain ⟨hmin, hremoved, hbound⟩ := ih (max minimum event.sequence)
      simp only [retainEvents, h, if_false]
      refine ⟨le_trans (le_max_left _ _) hmin, ?_, fun bound hb he => hbound bound ?_
        fun e hm => he e (by simp [hm])⟩
      · intro e hm hlate
        rcases List.mem_cons.mp hm with rfl | hm
        · exact le_trans (le_max_right _ _) hmin
        · exact hremoved e hm hlate
      · exact max_lt hb (he event (by simp))

theorem Valid.compact {engine : SyncEngine} (h : Valid engine.state engine.config)
    (nowMs : Int64) : Valid (engine.compact nowMs).2.state (engine.compact nowMs).2.config := by
  let cutoff := Saturating.sub nowMs engine.config.changeRetentionMs
  have hevents := retainEvents_events cutoff engine.state.events
    engine.state.minimumAvailableSequence
  have hmin := (retainEvents_minimum cutoff engine.state.events
    engine.state.minimumAvailableSequence).2.2 engine.state.nextSequence h.minimum
    fun event he => (h.events event he).2
  have hkept : Valid { engine.state with
      minimumAvailableSequence :=
        (retainEvents cutoff engine.state.events engine.state.minimumAvailableSequence).2.2
      events := (retainEvents cutoff engine.state.events
        engine.state.minimumAvailableSequence).1
      rows := engine.state.rows.filter fun _ row =>
        keepRow (Saturating.sub nowMs engine.config.tombstoneRetentionMs) row } engine.config := by
    refine ⟨hmin, h.records, ?_, ?_, ?_, h.receipts⟩
    · simp only [hevents]
      exact h.ordered.sublist (List.filter_sublist.map _)
    · simp only [hevents, List.mem_filter]
      exact fun event he => h.events event he.1
    · intro key row hrow
      simp only [Std.ExtTreeMap.getElem?_filter', Option.filter_eq_some_iff] at hrow
      exact h.rows key row hrow.1
  exact hkept.prune nowMs

/-- Operations keep the state valid until sequences are exhausted. -/
theorem valid_preserved : Preserved crates fun engine =>
    engine.state.nextSequence < u64Max → Valid engine.state engine.config where
  ticket engine h hmax := by
    obtain ⟨hmin, hrecords, hordered, hevents, hrows, hreceipts⟩ := h hmax
    exact ⟨hmin, hrecords, hordered, hevents, hrows, hreceipts⟩
  call call h hmax := by
    rcases call.cases crates with ⟨error, _, ha⟩ | ⟨_, _, _, _, _, _, _, _, ha⟩ | ⟨_, ha⟩ |
      ⟨hash, key, ht, _, _, hsize, _, ha⟩
    · rw [ha] at hmax ⊢
      exact h hmax
    · rw [ha] at hmax ⊢
      exact h hmax
    · rw [ha] at hmax ⊢
      exact (h hmax).prune call.nowMs
    · rw [ha] at hmax ⊢
      have hlt : call.engine.state.nextSequence < u64Max := lt_of_succ_lt hmax
      exact (h hlt).commit hlt call.context call.transactionId call.mutation hash _ call.nowMs
        (unitSeparator_mem_of_target ht) hsize
  announced engine reason schemaVersion nowMs _ h hmax := by
    have hlt : engine.state.nextSequence < u64Max := lt_of_succ_lt hmax
    exact (h hlt).append hlt _ rfl
  compact engine nowMs h hmax := (h hmax).compact nowMs

theorem Started.run_valid {engine : SyncEngine} (h : Started crates engine) (ops : List Op)
    (hmax : (engine.run crates ops).state.nextSequence < u64Max) :
    Valid (engine.run crates ops).state (engine.run crates ops).config :=
  (valid_preserved.run engine ops fun _ => h.valid).1 hmax

def LogicalEvent.records (event : LogicalEvent) (mutation : ClientMutation)
    (receipt : MutationReceipt) : Prop :=
  match event, mutation.operation with
  | .upsert sequence _ table primaryKey values rowVersion _ _ _ clientMutationId, .upsert =>
    sequence = receipt.sequence ∧ table = mutation.table ∧ primaryKey = mutation.primaryKey ∧
      values = mutation.values ∧ rowVersion = receipt.rowVersion ∧
      clientMutationId = some mutation.mutationId
  | .delete sequence _ table primaryKey _ rowVersion _ _ _ clientMutationId, .delete =>
    sequence = receipt.sequence ∧ table = mutation.table ∧ primaryKey = mutation.primaryKey ∧
      rowVersion = receipt.rowVersion ∧ clientMutationId = some mutation.mutationId
  | _, _ => False

theorem LogicalEvent.records_sequence {event : LogicalEvent} {mutation : ClientMutation}
    {receipt : MutationReceipt} (h : event.records mutation receipt) :
    event.sequence = receipt.sequence := by
  cases event <;> cases hop : mutation.operation <;> simp [records, hop] at h <;> exact h.1

theorem mutationEvent_records (engine : SyncEngine) (context : SyncContext)
    (transactionId : String) (mutation : ClientMutation) (prior : Option StoredRow)
    (sequence : Nat) (nowMs : Int64) :
    (mutationEvent engine context transactionId mutation prior sequence nowMs).records mutation
      (mutationReceipt mutation prior sequence) := by
  cases hop : mutation.operation <;>
    simp [mutationEvent, writtenRow, LogicalEvent.records, mutationReceipt, hop]

/-- Between two engines only events up to the later minimum may have left the log, and
every commit above it is there. -/
structure Retains (start : SyncEngine) (history : List Entry) (engine : SyncEngine) : Prop where
  minimum : start.state.minimumAvailableSequence ≤ engine.state.minimumAvailableSequence
  kept : ∀ event ∈ start.state.events,
    engine.state.minimumAvailableSequence < event.sequence → event ∈ engine.state.events
  logged : ∀ mutation key receipt, .committed mutation key receipt ∈ history →
    engine.state.minimumAvailableSequence < receipt.sequence →
    ∃ event ∈ engine.state.events, event.records mutation receipt

theorem Retains.trans {e f g : SyncEngine} {h h' : List Entry} (hl : Retains e h f)
    (hr : Retains f h' g) : Retains e (h ++ h') g := by
  have hmin := hr.minimum
  refine ⟨le_trans hl.minimum hmin, fun event he hs => ?_, fun mutation key receipt hm hs => ?_⟩
  · exact hr.kept event (hl.kept event he (lt_of_le_of_lt hmin hs)) hs
  · rcases List.mem_append.mp hm with hm | hm
    · obtain ⟨event, he, hrec⟩ := hl.logged mutation key receipt hm (lt_of_le_of_lt hmin hs)
      exact ⟨event, hr.kept event he (by rwa [LogicalEvent.records_sequence hrec]), hrec⟩
    · exact hr.logged mutation key receipt hm hs

theorem retains_nil {start engine : SyncEngine}
    (hmin : engine.state.minimumAvailableSequence = start.state.minimumAvailableSequence)
    (hevents : ∀ event ∈ start.state.events, event ∈ engine.state.events) :
    Retains start [] engine :=
  ⟨hmin.ge, fun event he _ => hevents event he, by simp⟩

theorem retains_call (call : Call) :
    Retains call.engine (call.entries crates) (call.after crates) := by
  rcases call.cases crates with ⟨error, hr, ha⟩ | ⟨hash, key, record, _, _, _, _, hr, ha⟩ |
    ⟨hr, ha⟩ | ⟨hash, key, ht, _, _, _, hr, ha⟩
  · rw [Call.entries_error hr, ha]
    exact retains_nil rfl fun _ he => he
  · rw [Call.entries_duplicate hr, ha]
    exact retains_nil rfl fun _ he => he
  · rw [Call.entries_error hr, ha]
    exact retains_nil rfl fun _ he => he
  · rw [Call.entries_commit ht hr, ha]
    refine ⟨le_rfl, fun event he _ => List.mem_append_left _ he, ?_⟩
    intro mutation key' receipt hm _
    simp only [List.mem_singleton, Entry.committed.injEq] at hm
    obtain ⟨rfl, rfl, rfl⟩ := hm
    exact ⟨_, List.mem_append_right _ (List.mem_singleton_self _), mutationEvent_records ..⟩

theorem retains_compact (engine : SyncEngine) (nowMs : Int64) :
    Retains engine (engine.droppedEntries nowMs) (engine.compact nowMs).2 := by
  let cutoff := Saturating.sub nowMs engine.config.changeRetentionMs
  obtain ⟨hmin, hremoved, _⟩ := retainEvents_minimum cutoff engine.state.events
    engine.state.minimumAvailableSequence
  refine ⟨hmin, fun event he hs => ?_, by simp⟩
  change event ∈ (retainEvents cutoff engine.state.events
    engine.state.minimumAvailableSequence).1
  rw [retainEvents_events, List.mem_filter]
  refine ⟨he, ?_⟩
  by_contra hlate
  have hle := hremoved event he (by simpa using hlate)
  exact absurd hs (not_lt.mpr hle)

theorem retains_related :
    Related crates (fun _ => True) (Call.entries crates) SyncEngine.droppedEntries Retains where
  refl _ := retains_nil rfl fun _ he => he
  trans := Retains.trans
  ticket _ := retains_nil rfl fun _ he => he
  call call _ := retains_call call
  announced _ _ _ _ _ _ := retains_nil rfl fun _ he => List.mem_append_left _ he
  compact engine nowMs _ := retains_compact engine nowMs

theorem retains_run (crates : Crates) (engine : SyncEngine) (ops : List Op) :
    Retains engine (engine.history crates ops) (engine.run crates ops) :=
  retains_related.run engine ops fun _ _ => trivial

/-- A cursor that `pull` accepts is not behind the log. -/
theorem minimum_le_of_acceptCursor {engine : SyncEngine} {context : SyncContext}
    {cursor : OpaqueCursor} {nowMs : Int64} {claims : CursorClaims}
    (h : engine.acceptCursor crates context cursor nowMs = .ok claims) :
    engine.state.minimumAvailableSequence ≤ claims.sequence := by
  simp only [SyncEngine.acceptCursor, bind_ok_iff, require_ok_iff, decide_eq_true_eq,
    pure_ok_iff] at h
  obtain ⟨_, _, _, _, _, _, _, _, _, _, _, _, _, _, _, _, _, hmin, rfl⟩ := h
  exact hmin

/-- The stored row of a key shows its last commit. -/
theorem Refines.last_commit {start engine : SyncEngine} {before after : List Entry} {key : String}
    {mutation : ClientMutation} {receipt : MutationReceipt} {row : StoredRow}
    (h : Refines start (before ++ .committed mutation key receipt :: after) engine)
    (hlast : ∀ mutation receipt, .committed mutation key receipt ∉ after)
    (hrow : engine.state.rows[key]? = some row) :
    row.rowVersion = receipt.rowVersion ∧ row.serverSequence = receipt.sequence := by
  have htracks := h.tracks key
  have hafter := ledger_of_no_commit _ _ hlast (some (receipt.rowVersion, receipt.sequence))
  have hsplit : ledger key (before ++ .committed mutation key receipt :: after)
      (start.versionOf key) = ledger key after (some (receipt.rowVersion, receipt.sequence)) := by
    simp [ledger, Entry.record]
  rw [hsplit, SyncEngine.versionOf, hrow] at htracks
  by_cases hdrop : .dropped key ∈ after
  · rw [hafter.1 hdrop] at htracks
    simp at htracks
  · rw [hafter.2 hdrop] at htracks
    simpa using htracks

/-- A row that no commit touched is the one the run started from. -/
theorem Refines.untouched {start engine : SyncEngine} {history : List Entry} {key : String}
    {row : StoredRow} (h : Refines start history engine)
    (hnone : ∀ mutation receipt, .committed mutation key receipt ∉ history)
    (hrow : engine.state.rows[key]? = some row) :
    start.versionOf key = some (row.rowVersion, row.serverSequence) := by
  have htracks := h.tracks key
  have hledger := ledger_of_no_commit _ _ hnone (start.versionOf key)
  rw [SyncEngine.versionOf, hrow] at htracks
  by_cases hdrop : .dropped key ∈ history
  · rw [hledger.1 hdrop] at htracks
    simp at htracks
  · rw [hledger.2 hdrop] at htracks
    exact htracks.symm

/-- The log and compaction invariant. `more` runs on from any state a run reaches. -/
theorem log_invariant (start : SyncEngine) (ops more : List Op) (hstart : Started crates start)
    (hmax : (start.run crates (ops ++ more)).state.nextSequence < u64Max) :
    let earlier := start.run crates ops
    let engine := start.run crates (ops ++ more)
    let history := start.history crates (ops ++ more)
    (engine.state.events.map LogicalEvent.sequence).Pairwise (· < ·) ∧
    (∀ event ∈ engine.state.events, event.sequence < engine.state.nextSequence) ∧
    earlier.state.minimumAvailableSequence ≤ engine.state.minimumAvailableSequence ∧
    engine.state.minimumAvailableSequence < engine.state.nextSequence ∧
    (∀ event ∈ earlier.state.events,
      engine.state.minimumAvailableSequence < event.sequence → event ∈ engine.state.events) ∧
    (∀ mutation key receipt, .committed mutation key receipt ∈ history →
      engine.state.minimumAvailableSequence < receipt.sequence →
      ∃ event ∈ engine.state.events, event.records mutation receipt) ∧
    (∀ context cursor nowMs claims,
      engine.acceptCursor crates context cursor nowMs = .ok claims →
      ∀ event ∈ earlier.state.events, claims.sequence < event.sequence →
        event ∈ engine.state.events) ∧
    (∀ (key : String) row, engine.state.rows[key]? = some row →
      (∀ before mutation receipt after,
        history = before ++ .committed mutation key receipt :: after →
        (∀ mutation receipt, .committed mutation key receipt ∉ after) →
        row.rowVersion = receipt.rowVersion ∧ row.serverSequence = receipt.sequence) ∧
      ((∀ mutation receipt, .committed mutation key receipt ∉ history) →
        start.versionOf key = some (row.rowVersion, row.serverSequence))) ∧
    validateState engine.state engine.config = .ok () := by
  intro earlier engine history
  have hvalid := hstart.run_valid (ops ++ more) hmax
  have hrefines : Refines start history engine := refines_run crates start (ops ++ more)
  have hretains : Retains earlier (earlier.history crates more) engine := by
    have h := retains_run crates earlier more
    rwa [← run_append] at h
  have hlogged := (retains_run crates start (ops ++ more)).logged
  refine ⟨hvalid.ordered, fun event he => (hvalid.events event he).2, hretains.minimum,
    hvalid.minimum, hretains.kept, hlogged, ?_, ?_, (validateState_iff _ _).mpr hvalid⟩
  · intro context cursor nowMs claims haccept event he hs
    exact hretains.kept event he (lt_of_le_of_lt (minimum_le_of_acceptCursor haccept) hs)
  · intro key row hrow
    refine ⟨?_, fun hnone => hrefines.untouched hnone hrow⟩
    intro before mutation receipt after hsplit hlast
    rw [hsplit] at hrefines
    exact hrefines.last_commit hlast hrow

/-- The run that compacts a tombstone away: its log moved on and is still valid. -/
theorem log_invariant_of_recreated :
    (sampleEngine.run recreatedCrates (recreated.take 2)).state.minimumAvailableSequence ≤
      (sampleEngine.run recreatedCrates (recreated.take 2 ++ recreated.drop 2)).state.minimumAvailableSequence ∧
    validateState
      (sampleEngine.run recreatedCrates (recreated.take 2 ++ recreated.drop 2)).state
      (sampleEngine.run recreatedCrates (recreated.take 2 ++ recreated.drop 2)).config = .ok () :=
  have h := log_invariant sampleEngine (recreated.take 2) (recreated.drop 2)
    (sampleEngine_started recreatedCrates) run_recreated
  ⟨h.2.2.1, h.2.2.2.2.2.2.2.2⟩

end Ffdb.Sync
