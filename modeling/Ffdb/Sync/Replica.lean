import Ffdb.Sync.Pull

/-! Replicas: a snapshot and the events pulled after it. A replica shows what the reader
may see as long as no row is updated out of the reader's scope. -/
namespace Ffdb.Sync
open Saturating Fallible
variable (crates : Crates)

abbrev Replica := String × Value → Option ReplicaRow

def Replica.ofRows (rows : List ReplicaRow) : Replica :=
  fun id => rows.find? fun row => (row.table, row.primaryKey) = id

def Replica.apply (replica : Replica) : LogicalEvent → Replica
  | .upsert sequence _ table primaryKey values rowVersion _ _ _ _ =>
    Function.update replica (table, primaryKey)
      (some ⟨table, primaryKey, values, rowVersion, sequence⟩)
  | .delete _ _ table primaryKey _ _ _ _ _ _ => Function.update replica (table, primaryKey) none
  | .resnapshotRequired _ _ _ _ => replica

def Replica.Holds (replica : Replica) (rows : List ReplicaRow) : Prop :=
  ∀ id row, replica id = some row ↔ row ∈ rows ∧ (row.table, row.primaryKey) = id

/-- Engines a server can be running: new ones, restarted from their own checkpoints, after
any operations. -/
inductive Served : SyncEngine → Prop where
  | new {projectId schemaVersion secret config engine} :
    SyncEngine.new projectId schemaVersion secret config = .ok engine → Served engine
  | step {engine} (op : Op) : Served engine → Served (engine.step crates op)
  | restored {engine checkpoint projectId secret config restored} :
    Served engine → engine.checkpoint crates = .ok checkpoint →
    SyncEngine.restore crates projectId secret config checkpoint = .ok restored → Served restored

def RowsKeyed (engine : SyncEngine) : Prop :=
  ∀ (key : String) row, engine.state.rows[key]? = some row →
    tableNameAccepted (tableOfKey key) = true ∧
      rowKey crates (tableOfKey key) row.primaryKey = .ok key

def ValuesTellApart : Prop :=
  ∀ value value' text, crates.valueToString value = some text →
    crates.valueToString value' = some text → value = value'

variable {crates}

@[simp] theorem writtenRow_primaryKey (mutation : ClientMutation) (prior : Option StoredRow)
    (sequence : Nat) (nowMs : Int64) :
    (writtenRow mutation prior sequence nowMs).primaryKey = mutation.primaryKey := by
  unfold writtenRow
  cases mutation.operation <;> rfl

theorem RowsKeyed.insert {engine after : SyncEngine} (h : RowsKeyed crates engine)
    {mutation : ClientMutation} {hash : Bytes} {key : String} {row : StoredRow}
    (ht : mutationTarget crates mutation = .ok (hash, key))
    (hrow : row.primaryKey = mutation.primaryKey)
    (hrows : after.state.rows = engine.state.rows.insert key row) : RowsKeyed crates after := by
  intro key' row' hget
  rw [hrows, Std.ExtTreeMap.getElem?_insert] at hget
  split at hget
  · next he =>
    rw [compare_eq_iff_eq] at he
    subst he
    cases hget
    obtain ⟨hvalid, _, hkey⟩ := mutationTarget_ok ht
    have htable := (validateMutation_ok hvalid).1
    rw [tableOfKey_of_rowKey htable hkey, hrow]
    exact ⟨htable, hkey⟩
  · exact h key' row' hget

theorem rowsKeyed_preserved : Preserved crates (RowsKeyed crates) where
  ticket _ h := h
  call call h := by
    rcases call.rows_cases crates with ⟨_, hrows⟩ | ⟨hash, key, ht, _, hs⟩
    · intro key row hrow
      rw [hrows] at hrow
      exact h key row hrow
    · exact h.insert ht (writtenRow_primaryKey ..) (by rw [hs]; rfl)
  announced _ _ _ _ _ h := h
  compact engine nowMs h := by
    intro key row hrow
    simp only [compact_rows, Std.ExtTreeMap.getElem?_filter', Option.filter_eq_some_iff] at hrow
    exact h key row hrow.1

theorem restored_state {engine restored : SyncEngine} {checkpoint : SyncCheckpoint}
    {projectId : String} {secret : Bytes} {config : SyncConfig}
    (hround : EnvelopeRoundTrip crates) (hcheckpoint : engine.checkpoint crates = .ok checkpoint)
    (hrestore : SyncEngine.restore crates projectId secret config checkpoint = .ok restored) :
    restored.state = engine.state := by
  simp only [SyncEngine.checkpoint, SyncCheckpoint.fromBytes, bind_ok_iff, orError_ok_iff,
    pure_ok_iff] at hcheckpoint
  obtain ⟨bytes, hbytes, _, _, rfl⟩ := hcheckpoint
  simp only [SyncEngine.restore, bind_ok_iff, orError_ok_iff, pure_ok_iff, hround _ _ hbytes,
    Option.some.injEq] at hrestore
  obtain ⟨_, rfl, _, _, _, _, _, _, rfl⟩ := hrestore
  rfl

theorem Served.rowsKeyed (hround : EnvelopeRoundTrip crates) {engine : SyncEngine}
    (h : Served crates engine) : RowsKeyed crates engine := by
  induction h with
  | new hnew =>
    simp only [SyncEngine.new, bind_ok_iff, pure_ok_iff] at hnew
    obtain ⟨_, _, rfl⟩ := hnew
    intro key row hrow
    cases hrow
  | step op _ ih => exact (rowsKeyed_preserved.step _ op ih).1
  | restored _ hcheckpoint hrestore ih =>
    intro key row hrow
    rw [restored_state hround hcheckpoint hrestore] at hrow
    exact ih key row hrow

theorem Served.valid {engine : SyncEngine} (h : Served crates engine)
    (hmax : engine.state.nextSequence < u64Max) : Valid engine.state engine.config := by
  induction h with
  | new hnew => exact Started.valid (.inl ⟨_, _, _, _, hnew⟩ : Started crates _)
  | step op _ ih => exact (valid_preserved.step _ op ih).1 hmax
  | restored _ _ hrestore _ => exact Started.valid (.inr ⟨_, _, _, _, hrestore⟩ : Started crates _)

section Reader
variable (context : SyncContext) (authorizer : SyncAuthorizer)

def Shows (replica : Replica) (engine : SyncEngine) : Prop :=
  ∀ id row, replica id = some row ↔
    ∃ key stored, engine.state.rows[key]? = some stored ∧
      snapshotRow context authorizer key stored = some row ∧ (row.table, row.primaryKey) = id

variable {context authorizer}

theorem snapshotRow_id {key : String} {stored : StoredRow} {row : ReplicaRow}
    (h : snapshotRow context authorizer key stored = some row) :
    row.table = tableOfKey key ∧ row.primaryKey = stored.primaryKey := by
  unfold snapshotRow at h
  split at h
  · cases h
  · split at h
    · cases h
      exact ⟨rfl, rfl⟩
    · cases h

section Commit
variable {engine after : SyncEngine} {mutation : ClientMutation} {hash : Bytes} {key : String}

/-- The key of a row and the row behind a key determine each other. -/
theorem RowsKeyed.key_iff (h : RowsKeyed crates engine) (hvalues : ValuesTellApart crates)
    (ht : mutationTarget crates mutation = .ok (hash, key)) {key' : String} {stored : StoredRow}
    (hstored : engine.state.rows[key']? = some stored) :
    (tableOfKey key', stored.primaryKey) = (mutation.table, mutation.primaryKey) ↔ key' = key := by
  obtain ⟨hvalid, _, hkey⟩ := mutationTarget_ok ht
  have htable := (validateMutation_ok hvalid).1
  obtain ⟨_, hkey'⟩ := h key' stored hstored
  constructor
  · intro hid
    simp only [Prod.mk.injEq] at hid
    rw [hid.1, hid.2, hkey] at hkey'
    exact (Except.ok.inj hkey').symm
  · rintro rfl
    rw [tableOfKey_of_rowKey htable hkey] at hkey' ⊢
    obtain ⟨text, htext, hlist⟩ := rowKey_toList hkey
    obtain ⟨text', htext', hlist'⟩ := rowKey_toList hkey'
    rw [hlist, List.append_cancel_left_eq, List.cons.injEq] at hlist'
    rw [← String.toList_inj.mp hlist'.2] at htext'
    rw [hvalues _ _ _ htext' htext]

/-- What the replica holds for the row of a key. -/
theorem Shows.at_key {replica : Replica} (h : Shows context authorizer replica engine)
    (hkeyed : RowsKeyed crates engine) (hvalues : ValuesTellApart crates)
    (ht : mutationTarget crates mutation = .ok (hash, key)) :
    replica (mutation.table, mutation.primaryKey) =
      engine.state.rows[key]?.bind (snapshotRow context authorizer key) := by
  ext row
  rw [h, Option.bind_eq_some_iff]
  constructor
  · rintro ⟨key', stored, hstored, hrow, hid⟩
    obtain ⟨htable, hpk⟩ := snapshotRow_id hrow
    rw [htable, hpk, hkeyed.key_iff hvalues ht hstored] at hid
    subst hid
    exact ⟨stored, hstored, hrow⟩
  · rintro ⟨stored, hstored, hrow⟩
    refine ⟨key, stored, hstored, hrow, ?_⟩
    obtain ⟨htable, hpk⟩ := snapshotRow_id hrow
    rw [htable, hpk, hkeyed.key_iff hvalues ht hstored]

/-- A replica that follows the change of one row. -/
theorem Shows.insert {replica replica' : Replica} (h : Shows context authorizer replica engine)
    (hkeyed : RowsKeyed crates engine) (hvalues : ValuesTellApart crates)
    (ht : mutationTarget crates mutation = .ok (hash, key)) {row : StoredRow}
    (hpk : row.primaryKey = mutation.primaryKey)
    (hrows : after.state.rows = engine.state.rows.insert key row)
    (hother : ∀ id, id ≠ (mutation.table, mutation.primaryKey) → replica' id = replica id)
    (hself : replica' (mutation.table, mutation.primaryKey) =
      snapshotRow context authorizer key row) :
    Shows context authorizer replica' after := by
  have hkeyed' : RowsKeyed crates after := hkeyed.insert ht hpk hrows
  have hget : after.state.rows[key]? = some row := by
    rw [hrows]
    exact Std.ExtTreeMap.getElem?_insert_self
  have hget' (key' : String) (hne : key' ≠ key) :
      after.state.rows[key']? = engine.state.rows[key']? := by
    rw [hrows, Std.ExtTreeMap.getElem?_insert, if_neg]
    simpa using hne.symm
  intro id shown
  by_cases hid : id = (mutation.table, mutation.primaryKey)
  · subst hid
    rw [hself]
    constructor
    · intro hshown
      refine ⟨key, row, hget, hshown, ?_⟩
      obtain ⟨htable, hpk'⟩ := snapshotRow_id hshown
      rw [htable, hpk', hkeyed'.key_iff hvalues ht hget]
    · rintro ⟨key', stored, hstored, hshown, hid⟩
      obtain ⟨htable, hpk'⟩ := snapshotRow_id hshown
      rw [htable, hpk', hkeyed'.key_iff hvalues ht hstored] at hid
      subst hid
      rw [hget] at hstored
      cases hstored
      exact hshown
  · rw [hother id hid, h]
    constructor
    · rintro ⟨key', stored, hstored, hshown, rfl⟩
      obtain ⟨htable, hpk'⟩ := snapshotRow_id hshown
      have hne : key' ≠ key := by
        rw [htable, hpk'] at hid
        exact fun he => hid ((hkeyed.key_iff hvalues ht hstored).mpr he)
      exact ⟨key', stored, by rw [hget' key' hne]; exact hstored, hshown, rfl⟩
    · rintro ⟨key', stored, hstored, hshown, rfl⟩
      obtain ⟨htable, hpk'⟩ := snapshotRow_id hshown
      have hne : key' ≠ key := by
        rw [htable, hpk'] at hid
        exact fun he => hid ((hkeyed'.key_iff hvalues ht hstored).mpr he)
      exact ⟨key', stored, by rw [← hget' key' hne]; exact hstored, hshown, rfl⟩

end Commit

def deliver (context : SyncContext) (authorizer : SyncAuthorizer) (events : List LogicalEvent)
    (replica : Replica) : Replica :=
  (events.filter fun event => isVisible event context authorizer).foldl Replica.apply replica

/-- The call does not update a live row the reader sees into one the reader does not see. -/
def StaysInScope (crates : Crates) (context : SyncContext) (authorizer : SyncAuthorizer)
    (call : Call) : Prop :=
  ∀ receipt hash key row, call.Applied crates receipt → call.mutation.operation = .upsert →
    mutationTarget crates call.mutation = .ok (hash, key) →
    call.prior key = some row → row.deletedAtMs = none →
    authorizer.canRead context call.mutation.table row.values = true →
    authorizer.canRead context call.mutation.table call.mutation.values = true

/-- After the event of a commit the replica holds what the new row shows. -/
theorem deliver_at_key {call : Call} {hash : Bytes} {key : String} {replica : Replica}
    (ht : mutationTarget crates call.mutation = .ok (hash, key)) {receipt : MutationReceipt}
    (happlied : call.Applied crates receipt) (hscope : StaysInScope crates context authorizer call)
    (hprior : replica (call.mutation.table, call.mutation.primaryKey) =
      (call.prior key).bind (snapshotRow context authorizer key)) :
    deliver context authorizer [mutationEvent call.engine call.context call.transactionId
        call.mutation (call.prior key) call.engine.state.nextSequence call.nowMs] replica
        (call.mutation.table, call.mutation.primaryKey) =
      snapshotRow context authorizer key (writtenRow call.mutation (call.prior key)
        call.engine.state.nextSequence call.nowMs) := by
  obtain ⟨hvalid, _, hkey⟩ := mutationTarget_ok ht
  have htable := tableOfKey_of_rowKey (validateMutation_ok hvalid).1 hkey
  cases hop : call.mutation.operation with
  | upsert =>
    by_cases hread : authorizer.canRead context call.mutation.table call.mutation.values = true
    · simp [deliver, mutationEvent, writtenRow, hop, isVisible, hread, Replica.apply, snapshotRow,
        htable]
    · -- not delivered: then the row was not shown before either
      have hhidden : (call.prior key).bind (snapshotRow context authorizer key) = none := by
        cases hrow : call.prior key with
        | none => rfl
        | some row =>
          cases hdeleted : row.deletedAtMs with
          | some deletedAt => simp [snapshotRow, hdeleted]
          | none =>
            have hold : authorizer.canRead context call.mutation.table row.values = false := by
              rw [Bool.eq_false_iff]
              exact fun hold => hread (hscope receipt hash key row happlied hop ht hrow hdeleted hold)
            simp [snapshotRow, hdeleted, htable, hold]
      simp only [deliver, mutationEvent, writtenRow, hop, isVisible, hread, List.filter_cons,
        List.filter_nil, Bool.false_eq_true, if_false, List.foldl_nil, snapshotRow, htable,
        Option.isSome_none]
      rw [hprior, hhidden]
  | delete =>
    cases hrow : call.prior key with
    | none =>
      rw [hrow] at hprior
      by_cases hread : authorizer.canRead context call.mutation.table [] = true
      · simp [deliver, mutationEvent, writtenRow, hop, isVisible, hread, Replica.apply, snapshotRow]
      · simp [deliver, mutationEvent, writtenRow, hop, isVisible, hread, snapshotRow, hprior]
    | some row =>
      rw [hrow] at hprior
      by_cases hread : authorizer.canRead context call.mutation.table row.values = true
      · simp [deliver, mutationEvent, writtenRow, hop, isVisible, hread, Replica.apply, snapshotRow]
      · simp [deliver, mutationEvent, writtenRow, hop, isVisible, hread, snapshotRow, hprior, htable]

theorem deliver_other {call : Call} {replica : Replica} {prior : Option StoredRow}
    {sequence : Nat} {id : String × Value}
    (hid : id ≠ (call.mutation.table, call.mutation.primaryKey)) :
    deliver context authorizer [mutationEvent call.engine call.context call.transactionId
      call.mutation prior sequence call.nowMs] replica id = replica id := by
  cases hop : call.mutation.operation <;>
    simp only [deliver, mutationEvent, hop, isVisible, List.filter_cons, List.filter_nil] <;>
    split <;> simp [Replica.apply, hid]

variable (crates context authorizer)

/-- Across the calls the log grows by events behind the start, and delivering the visible
ones keeps a replica up to date. -/
structure Follows (e : SyncEngine) (calls : List Call) (f : SyncEngine) : Prop where
  grows : e.state.nextSequence ≤ f.state.nextSequence
  keyed : RowsKeyed crates e → RowsKeyed crates f
  delivered : ∃ new, f.state.events = e.state.events ++ new ∧
    (∀ event ∈ new, e.state.nextSequence ≤ event.sequence) ∧
    (RowsKeyed crates e → (∀ call ∈ calls, StaysInScope crates context authorizer call) →
      ∀ replica, Shows context authorizer replica e →
        Shows context authorizer (deliver context authorizer new replica) f)

variable {crates context authorizer}

theorem follows_unchanged {e f : SyncEngine} {calls : List Call}
    (hnext : e.state.nextSequence = f.state.nextSequence)
    (hrows : f.state.rows = e.state.rows) (hevents : f.state.events = e.state.events) :
    Follows crates context authorizer e calls f where
  grows := hnext.le
  keyed h := by
    intro key row hrow
    rw [hrows] at hrow
    exact h key row hrow
  delivered := by
    refine ⟨[], by simp [hevents], by simp, fun _ _ replica h id row => ?_⟩
    rw [hrows]
    exact h id row

theorem follows_call (hvalues : ValuesTellApart crates) (call : Call) :
    Follows crates context authorizer call.engine [call] (call.after crates) := by
  rcases call.cases crates with ⟨_, _, ha⟩ | ⟨_, _, _, _, _, _, _, _, ha⟩ | ⟨_, ha⟩ |
    ⟨hash, key, ht, _, _, _, hr, ha⟩
  · rw [ha]
    exact follows_unchanged rfl rfl rfl
  · rw [ha]
    exact follows_unchanged rfl rfl rfl
  · rw [ha]
    exact follows_unchanged rfl rfl rfl
  · rw [ha]
    have happlied : call.Applied crates _ := ⟨hr, rfl⟩
    refine ⟨le_succ _, fun h => h.insert ht (writtenRow_primaryKey ..) rfl, ?_⟩
    refine ⟨[mutationEvent call.engine call.context call.transactionId call.mutation
      (call.prior key) call.engine.state.nextSequence call.nowMs], rfl, by simp, ?_⟩
    intro hkeyed hscope replica hshows
    exact hshows.insert hkeyed hvalues ht (writtenRow_primaryKey ..) rfl
      (fun id hid => deliver_other hid)
      (deliver_at_key ht happlied (hscope call (List.mem_singleton_self _))
        (hshows.at_key hkeyed hvalues ht))

theorem follows_related (hvalues : ValuesTellApart crates) (context : SyncContext)
    (authorizer : SyncAuthorizer) :
    CallRelated crates (fun _ => True) (fun call => [call])
      (Follows crates context authorizer) where
  refl _ := follows_unchanged rfl rfl rfl
  trans hl hr := by
    obtain ⟨hgrows, hkeyed, new, hevents, hnew, hdeliver⟩ := hl
    obtain ⟨hgrows', hkeyed', new', hevents', hnew', hdeliver'⟩ := hr
    refine ⟨hgrows.trans hgrows', fun h => hkeyed' (hkeyed h), new ++ new', ?_, ?_, ?_⟩
    · rw [hevents', hevents, List.append_assoc]
    · intro event he
      rcases List.mem_append.mp he with he | he
      · exact hnew event he
      · exact hgrows.trans (hnew' event he)
    · intro hk hscope replica hshows
      have hmid := hdeliver hk (fun call hc => hscope call (List.mem_append_left _ hc)) replica hshows
      have hend := hdeliver' (hkeyed hk) (fun call hc => hscope call (List.mem_append_right _ hc)) _
        hmid
      simpa [deliver, List.filter_append, List.foldl_append] using hend
  ticket _ := follows_unchanged rfl rfl rfl
  call call _ := follows_call hvalues call

/-- A snapshot lists what it shows. -/
theorem mem_snapshot {engine : SyncEngine} {nowMs : Int64} {snapshot : Snapshot}
    (h : engine.snapshot crates context authorizer nowMs = .ok snapshot) {row : ReplicaRow} :
    row ∈ snapshot.rows ↔ ∃ key stored, engine.state.rows[key]? = some stored ∧
      snapshotRow context authorizer key stored = some row := by
  simp only [SyncEngine.snapshot, bind_ok_iff, pure_ok_iff] at h
  obtain ⟨_, _, cursor, _, rfl⟩ := h
  simp [List.mem_mergeSort, Std.ExtTreeMap.mem_toList_iff_getElem?_eq_some]

/-- A snapshot shows no row twice, so it can be stored by table and primary key. -/
theorem shows_snapshot {engine : SyncEngine} {nowMs : Int64} {snapshot : Snapshot}
    (hkeyed : RowsKeyed crates engine)
    (h : engine.snapshot crates context authorizer nowMs = .ok snapshot) :
    Shows context authorizer (.ofRows snapshot.rows) engine := by
  have hunique : ∀ row ∈ snapshot.rows, ∀ row' ∈ snapshot.rows,
      (row.table, row.primaryKey) = (row'.table, row'.primaryKey) → row = row' := by
    intro row hrow row' hrow' hid
    obtain ⟨key, stored, hstored, hshown⟩ := (mem_snapshot h).mp hrow
    obtain ⟨key', stored', hstored', hshown'⟩ := (mem_snapshot h).mp hrow'
    obtain ⟨htable, hpk⟩ := snapshotRow_id hshown
    obtain ⟨htable', hpk'⟩ := snapshotRow_id hshown'
    rw [htable, hpk, htable', hpk', Prod.mk.injEq] at hid
    have hkey := (hkeyed key stored hstored).2
    have hkey' := (hkeyed key' stored' hstored').2
    rw [hid.1, hid.2, hkey'] at hkey
    cases hkey
    rw [hstored] at hstored'
    cases hstored'
    rw [hshown] at hshown'
    exact Option.some.inj hshown'
  intro id row
  constructor
  · intro hfind
    have hmem := List.mem_of_find?_eq_some hfind
    have hid := List.find?_some hfind
    obtain ⟨key, stored, hstored, hshown⟩ := (mem_snapshot h).mp hmem
    exact ⟨key, stored, hstored, hshown, by simpa using hid⟩
  · rintro ⟨key, stored, hstored, hshown, hid⟩
    have hmem : row ∈ snapshot.rows := (mem_snapshot h).mpr ⟨key, stored, hstored, hshown⟩
    obtain ⟨found, hfound⟩ : ∃ found, Replica.ofRows snapshot.rows id = some found := by
      rw [← Option.isSome_iff_exists]
      simp only [Replica.ofRows, List.find?_isSome]
      exact ⟨row, hmem, by simpa using hid⟩
    have hfoundid := List.find?_some hfound
    rw [hfound, hunique found (List.mem_of_find?_eq_some hfound) row hmem
      (by rw [hid]; simpa using hfoundid)]

variable (crates context authorizer)

/-- A client in step with the server: it took a snapshot, and then pulled all that was
visible after any number of pushes, none of which moved a row out of its scope. -/
inductive Synced : SyncEngine → Replica → OpaqueCursor → Prop where
  | snapshot {engine nowMs snapshot} : Served crates engine →
    engine.snapshot crates context authorizer nowMs = .ok snapshot →
    Synced engine (.ofRows snapshot.rows) snapshot.cursor
  | pulled {engine replica cursor ops limit nowMs page} : Synced engine replica cursor →
    (∀ op ∈ ops, op.isPush = true) →
    (∀ call ∈ engine.runCalls crates ops, StaysInScope crates context authorizer call) →
    (engine.run crates ops).pull crates context cursor limit authorizer nowMs = .ok page →
    ((engine.run crates ops).visibleAfter context authorizer engine.latestSequence).length ≤
      (engine.run crates ops).pageLimit limit →
    Synced (engine.run crates ops) (page.events.foldl Replica.apply replica) page.cursor

variable {crates context authorizer}

theorem Served.run {engine : SyncEngine} (h : Served crates engine) (ops : List Op) :
    Served crates (engine.run crates ops) := by
  induction ops generalizing engine with
  | nil => exact h
  | cons op ops ih => exact ih (.step op h)

theorem cursorCodec_preserved (crates : Crates) (start : SyncEngine) :
    Preserved crates fun engine => engine.cursorCodec = start.cursorCodec where
  ticket _ h := h
  call call h := by
    rw [call.after_eq crates]
    exact h
  announced _ _ _ _ _ h := h
  compact _ _ h := h

/-- The events behind a sequence that was the latest once are the ones that came later. -/
theorem visibleAfter_latest {e f : SyncEngine} {new : List LogicalEvent}
    (hvalid : Valid e.state e.config) (hevents : f.state.events = e.state.events ++ new)
    (hnew : ∀ event ∈ new, e.state.nextSequence ≤ event.sequence) :
    f.visibleAfter context authorizer e.latestSequence =
      new.filter fun event => isVisible event context authorizer := by
  have hmin := hvalid.minimum
  have hold : e.state.events.filter (fun event => e.latestSequence < event.sequence) = [] := by
    rw [List.filter_eq_nil_iff]
    intro event he
    have hevent := (hvalid.events event he).2
    have hle : event.sequence ≤ e.latestSequence := by
      unfold SyncEngine.latestSequence
      omega
    simpa using hle
  have hlate : new.filter (fun event => e.latestSequence < event.sequence) = new := by
    rw [List.filter_eq_self]
    intro event he
    have hevent := hnew event he
    have hlt : e.latestSequence < event.sequence := by
      unfold SyncEngine.latestSequence
      omega
    simpa using hlt
  rw [SyncEngine.visibleAfter, hevents, List.filter_append, hold, hlate, List.nil_append]

/-- A client in step shows what the server shows, and holds a cursor at its latest
sequence. -/
theorem Synced.shows (henvelopes : EnvelopeRoundTrip crates) (hclaims : ClaimsRoundTrip crates)
    (hvalues : ValuesTellApart crates) {engine : SyncEngine} {replica : Replica}
    {cursor : OpaqueCursor} (h : Synced crates context authorizer engine replica cursor)
    (hmax : engine.state.nextSequence < u64Max) :
    Served crates engine ∧ Shows context authorizer replica engine ∧
      ∃ nowMs, engine.cursor crates context engine.latestSequence nowMs = .ok cursor := by
  induction h with
  | snapshot hserved hsnapshot =>
    refine ⟨hserved, shows_snapshot (hserved.rowsKeyed henvelopes) hsnapshot, ?_⟩
    simp only [SyncEngine.snapshot, bind_ok_iff, pure_ok_iff] at hsnapshot
    obtain ⟨_, _, cursor, hcursor, rfl⟩ := hsnapshot
    exact ⟨_, hcursor⟩
  | @pulled engine replica cursor ops limit nowMs page _ hpush hscope hpull hfits ih =>
    obtain ⟨hgrows, _, new, hevents, hnew, hdeliver⟩ :=
      (follows_related hvalues context authorizer).run engine ops hpush
        fun _ _ => trivial
    rw [← runCalls_eq_observed] at hdeliver
    have hlt : engine.state.nextSequence < u64Max := lt_of_le_of_lt hgrows hmax
    obtain ⟨hserved, hshows, issuedAt, hcursor⟩ := ih hlt
    have hvisible : (engine.run crates ops).visibleAfter context authorizer engine.latestSequence =
        new.filter fun event => isVisible event context authorizer :=
      visibleAfter_latest (hserved.valid hlt) hevents hnew
    have hcodec := ((cursorCodec_preserved crates engine).run engine ops rfl).1
    obtain ⟨claims, hdecode, hpage⟩ := pull_cases hpull
    rw [hcodec] at hdecode
    have hissued : claims.sequence = engine.latestSequence := by
      rw [decode_encode hclaims hcursor hdecode]
      rfl
    rw [hissued] at hpage
    rcases hpage with ⟨_, hevents', _, hcursor'⟩ | ⟨hover, _⟩
    · refine ⟨hserved.run ops, ?_, nowMs, hcursor'⟩
      rw [hevents', hvisible]
      exact hdeliver (hserved.rowsKeyed henvelopes) hscope replica hshows
    · exact absurd hfits (not_le.mpr hover)

/-- Convergence: a client in step holds exactly the rows of a fresh snapshot. -/
theorem replica_converges (engine : SyncEngine) (replica : Replica) (cursor : OpaqueCursor)
    (nowMs : Int64) (fresh : Snapshot) (henvelopes : EnvelopeRoundTrip crates)
    (hclaims : ClaimsRoundTrip crates) (hvalues : ValuesTellApart crates)
    (hsynced : Synced crates context authorizer engine replica cursor)
    (hmax : engine.state.nextSequence < u64Max)
    (hfresh : engine.snapshot crates context authorizer nowMs = .ok fresh) :
    replica.Holds fresh.rows := by
  obtain ⟨_, hshows, _⟩ := hsynced.shows henvelopes hclaims hvalues hmax
  intro id row
  rw [hshows, mem_snapshot hfresh]
  constructor
  · rintro ⟨key, stored, hstored, hshown, hid⟩
    exact ⟨⟨key, stored, hstored, hshown⟩, hid⟩
  · rintro ⟨⟨key, stored, hstored, hshown⟩, hid⟩
    exact ⟨key, stored, hstored, hshown, hid⟩

end Reader

def Converges (crates : Crates) (context : SyncContext) (authorizer : SyncAuthorizer)
    (engine : SyncEngine) (ops : List Op) : Prop :=
  ∀ snapshot page fresh limit nowMs nowMs' nowMs'',
    engine.snapshot crates context authorizer nowMs = .ok snapshot →
    (engine.run crates ops).pull crates context snapshot.cursor limit authorizer nowMs' =
      .ok page → page.hasMore = false →
    (engine.run crates ops).snapshot crates context authorizer nowMs'' = .ok fresh →
    Replica.Holds (page.events.foldl Replica.apply (.ofRows snapshot.rows)) fresh.rows

section Runs

/-- A snapshot in terms of its unsorted rows. -/
theorem Crates.Lists.snapshot {known : List CursorClaims} (h : crates.Lists known)
    (engine : SyncEngine) (context : SyncContext) (authorizer : SyncAuthorizer) (nowMs : Int64)
    (rows : List ReplicaRow) (hv : engine.verifyContext context = .ok ())
    (hrows : (engine.state.rows.toList.filterMap fun (key, row) =>
      snapshotRow context authorizer key row) = rows)
    (hmem : engine.claims context engine.latestSequence nowMs ∈ known) :
    engine.snapshot crates context authorizer nowMs =
      .ok ⟨engine.schemaVersion, rows.mergeSort ReplicaRow.beforeOrSame,
        issuedCursor engine.cursorCodec.secret
          (engine.claims context engine.latestSequence nowMs)⟩ := by
  simp only [SyncEngine.snapshot, bind_ok_iff, pure_ok_iff]
  exact ⟨(), hv, _, h.encode _ hmem, by rw [hrows]⟩

/-- A pull that finds the end of the log with a listed cursor. -/
theorem Crates.Lists.pull {known : List CursorClaims} (h : crates.Lists known)
    (engine : SyncEngine) (context : SyncContext) (authorizer : SyncAuthorizer) (secret : Bytes)
    (claims : CursorClaims) (limit examined : Nat) (nowMs : Int64) (events : List LogicalEvent)
    (hround : ClaimsRoundTrip crates) (hmem : claims ∈ known)
    (hsize : (utf8 (renderClaims claims)).length ≤ maxPayloadBytes)
    (hissued : engine.verifyContext context = .ok () ∧ engine.cursorCodec.secret = secret ∧
      claims.projectId = engine.projectId ∧ claims.subject = context.subject ∧
      claims.trustedClientId = context.trustedClientId ∧
      claims.scopeFingerprint = context.scopeFingerprint ∧
      claims.schemaVersion = engine.schemaVersion ∧
      engine.state.minimumAvailableSequence ≤ claims.sequence)
    (htime : claims.issuedAtMs ≤ nowMs ∧ nowMs < claims.expiresAtMs)
    (hloop : pullLoop (fun event => isVisible event context authorizer) (engine.pageLimit limit)
      (engine.state.events.filter fun event => claims.sequence < event.sequence) []
      claims.sequence = (events, examined, false))
    (hnext : engine.claims context engine.latestSequence nowMs ∈ known) :
    engine.pull crates context (issuedCursor secret claims) limit authorizer nowMs =
      .ok ⟨events, issuedCursor secret (engine.claims context engine.latestSequence nowMs),
        false⟩ := by
  obtain ⟨hv, rfl, hproject, hsubject, hclient, hscope, hschema, hsequence⟩ := hissued
  exact pull_of_accepted examined (h.acceptCursor hround hmem hsize hv
    ⟨hproject, hsubject, hclient, hscope, hschema⟩ htime hsequence) hloop (h.encode _ hnext)

def readOwn : SyncAuthorizer where
  canRead context _ values := values.any fun (name, value) =>
    name = "owner" && value = .string context.subject
  canWrite _ _ _ _ := true

def aliceRow (sequence : Nat) : ReplicaRow :=
  ⟨"docs", .string "a", [("owner", .string "alice")], 1, sequence⟩

def Crates.knowing (values : List Value) (crates : Crates) : Crates :=
  { crates with
    valueToString := fun value => if value ∈ values then crates.valueToString value else none }

def syncedClaims : List CursorClaims :=
  [aliceClaims 0 5, aliceClaims 1 6, aliceClaims 1 10, aliceClaims 1 11]

def syncedCrates : Crates := .knowing [.string "a"] (.listing syncedClaims [])

def syncedOps : List Op := [pushAs alice (sampleUpsert "m1" "a" "alice") 6]

def syncedEnd : SyncEngine := sampleEngine.run syncedCrates syncedOps

theorem syncedCrates_lists : syncedCrates.Lists syncedClaims := ⟨rfl, rfl, rfl⟩

theorem syncedCrates_roundTrip : EnvelopeRoundTrip syncedCrates ∧ ClaimsRoundTrip syncedCrates ∧
    ValuesTellApart syncedCrates := by
  refine ⟨readListed_writeListed renderEnvelope List.Pairwise.nil,
    syncedCrates_lists.roundTrip (by decide +kernel), ?_⟩
  intro value value' text h h'
  simp only [syncedCrates, Crates.knowing, List.mem_singleton, Option.ite_none_right_eq_some] at h h'
  rw [h.1, h'.1]

def syncedSnapshot : Snapshot := ⟨1, [], issuedCursor sampleSecret (aliceClaims 0 5)⟩

theorem snapshot_synced :
    sampleEngine.snapshot syncedCrates alice readOwn 5 = .ok syncedSnapshot := by
  have h := syncedCrates_lists.snapshot sampleEngine alice readOwn 5 [] (by decide +kernel) (by decide +kernel)
    (by decide)
  rw [List.mergeSort_nil] at h
  exact h

theorem pull_synced :
    syncedEnd.pull syncedCrates alice syncedSnapshot.cursor 5 readOwn 10 =
      .ok ⟨[pagedEvent 1 "tx-1" "a" "m1" 6], issuedCursor sampleSecret (aliceClaims 1 10),
        false⟩ := by
  have hnext : syncedEnd.claims alice syncedEnd.latestSequence 10 = aliceClaims 1 10 := by
    decide +kernel
  have h := syncedCrates_lists.pull syncedEnd alice readOwn sampleSecret (aliceClaims 0 5) 5 1 10
    [pagedEvent 1 "tx-1" "a" "m1" 6] syncedCrates_roundTrip.2.1 (by decide) (by decide +kernel) (by decide +kernel) (by decide)
    (by decide +kernel) (by rw [hnext]; decide)
  rw [hnext] at h
  exact h

/-- Alice's replica after the pull holds the row of her fresh snapshot. -/
theorem replica_converges_of_synced :
    Replica.Holds (Replica.apply (.ofRows []) (pagedEvent 1 "tx-1" "a" "m1" 6)) [aliceRow 1] := by
  obtain ⟨henvelopes, hclaims, hvalues⟩ := syncedCrates_roundTrip
  have hfresh := syncedCrates_lists.snapshot syncedEnd alice readOwn 11 [aliceRow 1]
    (by decide +kernel) (by decide +kernel) (by decide +kernel)
  have hreadable : ∀ call ∈ sampleEngine.runCalls syncedCrates syncedOps,
      readOwn.canRead alice call.mutation.table call.mutation.values = true := by decide +kernel
  have hnew : SyncEngine.new "p" 1 sampleSecret sampleConfig = .ok sampleEngine := rfl
  have hsynced : Synced syncedCrates alice readOwn (sampleEngine.run syncedCrates syncedOps) _ _ :=
    .pulled (.snapshot (.new hnew) snapshot_synced) (by decide)
      (fun call hcall _ _ _ _ _ _ _ _ _ _ => hreadable call hcall) pull_synced (by decide +kernel)
  have hholds := replica_converges syncedEnd _ _ 11 _ henvelopes hclaims hvalues hsynced
    (by decide +kernel) hfresh
  rw [List.mergeSort_singleton] at hholds
  exact hholds

structure EndsStale (crates : Crates) (context : SyncContext) (authorizer : SyncAuthorizer)
    (engine : SyncEngine) (ops : List Op) (row : ReplicaRow) : Prop where
  answers : ∃ snapshot page fresh limit nowMs nowMs' nowMs'',
    engine.snapshot crates context authorizer nowMs = .ok snapshot ∧
    (engine.run crates ops).pull crates context snapshot.cursor limit authorizer nowMs' = .ok page ∧
    page.hasMore = false ∧ (engine.run crates ops).snapshot crates context authorizer nowMs'' = .ok fresh ∧
    page.events.foldl Replica.apply (.ofRows snapshot.rows) (row.table, row.primaryKey) = some row ∧
      row ∉ fresh.rows

theorem EndsStale.diverges {crates : Crates} {context : SyncContext} {authorizer : SyncAuthorizer}
    {engine : SyncEngine} {ops : List Op} {row : ReplicaRow}
    (h : EndsStale crates context authorizer engine ops row) : ¬ Converges crates context authorizer engine ops := by
  obtain ⟨snapshot, page, fresh, limit, nowMs, nowMs', nowMs'', hsnapshot, hpull, hdone, hfresh, hshown, hgone⟩ :=
    h.answers
  intro hconverges
  have hholds := hconverges snapshot page fresh limit nowMs nowMs' nowMs'' hsnapshot hpull hdone hfresh
  exact hgone ((hholds (row.table, row.primaryKey) row).mp hshown).1

def handedOver : List Op := [pushAs bob (sampleUpsert "m2" "a" "bob") 6]

def handedOverClaims : List CursorClaims :=
  [aliceClaims 1 0, aliceClaims 1 5, sampleEngine.claims bob 2 6, aliceClaims 2 10,
   aliceClaims 2 11]

def handedOverCrates : Crates := .listing handedOverClaims []

def handedOverEngine : SyncEngine :=
  sampleEngine.run handedOverCrates [pushAs alice (sampleUpsert "m1" "a" "alice") 0]

def handedOverEnd : SyncEngine := handedOverEngine.run handedOverCrates handedOver

theorem handedOver_endsStale :
    EndsStale handedOverCrates alice readOwn handedOverEngine handedOver (aliceRow 1) := by
  have hlists : handedOverCrates.Lists handedOverClaims := ⟨rfl, rfl, rfl⟩
  have hsecret : handedOverEngine.cursorCodec.secret = sampleSecret := by decide +kernel
  have hclaims : handedOverEngine.claims alice handedOverEngine.latestSequence 5 =
      aliceClaims 1 5 := by decide +kernel
  have hsnapshot : handedOverEngine.snapshot handedOverCrates alice readOwn 5 = _ :=
    hlists.snapshot handedOverEngine alice readOwn 5 [aliceRow 1] (by decide +kernel) (by decide +kernel)
      (by rw [hclaims]; decide)
  rw [hsecret, hclaims] at hsnapshot
  have hpull : handedOverEnd.pull handedOverCrates alice
      (issuedCursor sampleSecret (aliceClaims 1 5)) 5 readOwn 10 = _ :=
    hlists.pull handedOverEnd alice readOwn sampleSecret (aliceClaims 1 5) 5 2 10 [] (hlists.roundTrip (by decide +kernel))
      (by decide) (by decide +kernel) (by decide +kernel) (by decide) (by decide +kernel)
      (by decide +kernel)
  have hfresh : handedOverEnd.snapshot handedOverCrates alice readOwn 11 = _ :=
    hlists.snapshot handedOverEnd alice readOwn 11 [] (by decide +kernel) (by decide +kernel) (by decide +kernel)
  exact ⟨_, _, _, 5, 5, 10, 11, hsnapshot, hpull, rfl, hfresh,
    by simp [Replica.ofRows, aliceRow], by simp⟩

def exhausted : SyncEngine :=
  { sampleEngine with state := { EngineState.initial with nextSequence := u64Max } }

def exhaustedClaims (context : SyncContext) (nowMs : Int64) : CursorClaims :=
  sampleEngine.claims context (u64Max-1) nowMs

def exhaustedKnown : List CursorClaims :=
  [exhaustedClaims alice 0, exhaustedClaims bob 1, exhaustedClaims alice 5,
   exhaustedClaims alice 10, exhaustedClaims alice 11]

def exhaustedCrates : Crates := .listing exhaustedKnown [exhausted.envelope]

theorem exhausted_started : Started exhaustedCrates exhausted := by
  have hsome : ((renderEnvelope exhausted.envelope).map utf8).isSome = true := by decide +kernel
  obtain ⟨bytes, hbytes⟩ := Option.isSome_iff_exists.mp hsome
  have hwritten : writeListed renderEnvelope [exhausted.envelope] exhausted.envelope =
      some bytes := by
    rw [writeListed_of_mem _ (List.mem_singleton_self _)]
    exact hbytes
  have hread : exhaustedCrates.envelopeFromSlice bytes = some exhausted.envelope :=
    readListed_writeListed _ (List.pairwise_singleton _ _) _ _ hwritten
  have hvalid : Valid exhausted.state exhausted.config :=
    (validateState_iff _ _).mp (by decide +kernel)
  exact .inr ⟨"p", sampleSecret, sampleConfig, ⟨bytes⟩,
    restore_of_fromSlice exhausted hread hvalid (by decide +kernel)⟩

def exhaustedEngine : SyncEngine :=
  exhausted.run exhaustedCrates
    [pushAs alice (sampleUpsert "m1" "a" "alice") 0, pushAs bob (sampleUpsert "m2" "a" "bob") 1]

theorem exhausted_endsStale :
    EndsStale exhaustedCrates alice readOwn exhaustedEngine [] (aliceRow u64Max) := by
  have hlists : exhaustedCrates.Lists exhaustedKnown := ⟨rfl, rfl, rfl⟩
  have hsecret : exhaustedEngine.cursorCodec.secret = sampleSecret := by decide +kernel
  have hclaims : exhaustedEngine.claims alice exhaustedEngine.latestSequence 5 =
      exhaustedClaims alice 5 := by decide +kernel
  have hsnapshot : exhaustedEngine.snapshot exhaustedCrates alice readOwn 5 = _ :=
    hlists.snapshot exhaustedEngine alice readOwn 5 [] (by decide +kernel) (by decide +kernel)
      (by rw [hclaims]; decide)
  rw [hsecret, hclaims] at hsnapshot
  have hpull : exhaustedEngine.pull exhaustedCrates alice
      (issuedCursor sampleSecret (exhaustedClaims alice 5)) 5 readOwn 10 = _ :=
    hlists.pull exhaustedEngine alice readOwn sampleSecret (exhaustedClaims alice 5) 5 u64Max 10
      [.upsert u64Max "tx-1" "docs" (.string "a") [("owner", .string "alice")] 1 "alice" 1 0
        (some "m1")]
      (hlists.roundTrip (by decide +kernel)) (by decide) (by decide +kernel)
      (by decide +kernel) (by decide) (by decide +kernel) (by decide +kernel)
  have hfresh : exhaustedEngine.snapshot exhaustedCrates alice readOwn 11 = _ :=
    hlists.snapshot exhaustedEngine alice readOwn 11 [] (by decide +kernel) (by decide +kernel) (by decide +kernel)
  exact ⟨_, _, _, 5, 5, 10, 11, hsnapshot, hpull, rfl, hfresh,
    by simp [Replica.apply, aliceRow], by simp⟩

/-- Convergence fails where a row leaves the reader's scope, and where sequences are
exhausted. -/
theorem replica_diverges :
    (Reachable handedOverCrates handedOverEngine ∧ (∀ op ∈ handedOver, op.isPush = true) ∧
      handedOverEnd.state.nextSequence < u64Max ∧
      ¬ Converges handedOverCrates alice readOwn handedOverEngine handedOver) ∧
    (Reachable exhaustedCrates exhaustedEngine ∧
      ¬ Converges exhaustedCrates alice readOwn exhaustedEngine []) :=
  ⟨⟨⟨sampleEngine, _, sampleEngine_started _, rfl⟩, by decide, by decide +kernel,
    handedOver_endsStale.diverges⟩, ⟨exhausted, _, exhausted_started, rfl⟩, exhausted_endsStale.diverges⟩

end Runs

end Ffdb.Sync
