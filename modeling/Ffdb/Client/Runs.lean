import Ffdb.Client.Transactions
import Mathlib.Data.List.Dedup

/-! What the transactions of the client make of a replica when nothing comes between. -/
namespace Ffdb.Client
open Turns Sync

def SyncMutation.Complete (mutation : SyncMutation) : Prop := mutation.operation = .delete ∨ mutation.values ≠ none

def optimisticRow (mutation : PendingMutation) (existing : Option ReplicaRecord) : Option ReplicaRecord :=
  match mutation.operation, mutation.values with
  | .delete, _ => none
  | _, none => existing
  | operation, some values => some {
      table := mutation.table
      primaryKey := mutation.primaryKey
      values := match operation, existing with
        | .update, some row => spread row.values values
        | _, _ => values
      rowVersion := (existing.map (·.rowVersion)).getD (mutation.baseRowVersion.getD 0)
      serverSequence := (existing.map (·.serverSequence)).getD (-1) }

def setRow (rows : Map ReplicaRecord) (key : String) : Option ReplicaRecord → Map ReplicaRecord
  | some row => rows.insert key row
  | none => rows.erase key

def PendingMutation.rowKey (js : Js) (mutation : PendingMutation) : String :=
  replicaKey js mutation.table mutation.primaryKey

def showMutation (js : Js) (rows : Map ReplicaRecord) (mutation : PendingMutation) : Map ReplicaRecord :=
  setRow rows (mutation.rowKey js) (optimisticRow mutation rows[mutation.rowKey js]?)

section Rows
variable {js : Js}

theorem getElem?_setRow (rows : Map ReplicaRecord) (key other : String) (row : Option ReplicaRecord) :
    (setRow rows key row)[other]? = if key = other then row else rows[other]? := by
  cases row with
  | some row => exact (Std.ExtTreeMap.getElem?_insert ..).trans (by simp)
  | none => exact (Std.ExtTreeMap.getElem?_erase ..).trans (by simp)

theorem setRow_self (rows : Map ReplicaRecord) (key : String) : setRow rows key rows[key]? = rows := by
  refine Std.ExtTreeMap.ext_getElem? fun {other} => ?_
  rw [getElem?_setRow]
  split
  next heq => rw [heq]
  · rfl

theorem upsert_eq (replica : MemoryReplica) {record : ReplicaRecord}
    (h : ∀ existing, replica.rows[record.key js]? = some existing → existing.serverSequence ≤ record.serverSequence) :
    replica.upsert js record = { replica with rows := setRow replica.rows (record.key js) (some record) } := by
  unfold MemoryReplica.upsert
  refine if_pos ?_
  cases hrow : replica.rows[record.key js]? with
  | none => rfl
  | some existing => simpa using h existing hrow

theorem delete_eq (replica : MemoryReplica) {table : String} {primaryKey : Value} {serverSequence : Int}
    (h : ∀ existing, replica.rows[replicaKey js table primaryKey]? = some existing →
      existing.serverSequence ≤ serverSequence) :
    replica.delete js table primaryKey serverSequence =
      { replica with rows := setRow replica.rows (replicaKey js table primaryKey) none } := by
  unfold MemoryReplica.delete
  refine if_pos ?_
  cases hrow : replica.rows[replicaKey js table primaryKey]? with
  | none => rfl
  | some existing => simpa using h existing hrow

theorem upsert_run (replica : MemoryReplica) {record : ReplicaRecord}
    (h : ∀ existing, replica.rows[record.key js]? = some existing → existing.serverSequence ≤ record.serverSequence) :
    (Transaction.upsert record).run (MemoryReplica.perform js) replica =
      ({ replica with rows := setRow replica.rows (record.key js) (some record) }, .ok ()) :=
  congrArg (·, _) (upsert_eq replica h)

theorem delete_run (replica : MemoryReplica) {table : String} {primaryKey : Value} {serverSequence : Int}
    (h : ∀ existing, replica.rows[replicaKey js table primaryKey]? = some existing →
      existing.serverSequence ≤ serverSequence) :
    (Transaction.delete table primaryKey serverSequence).run (MemoryReplica.perform js) replica =
      ({ replica with rows := setRow replica.rows (replicaKey js table primaryKey) none }, .ok ()) :=
  congrArg (·, _) (delete_eq replica h)

theorem applyOptimisticMutation_run (replica : MemoryReplica) {mutation : PendingMutation}
    (h : mutation.toSyncMutation.Complete) :
    (applyOptimisticMutation mutation).run (MemoryReplica.perform js) replica =
      ({ replica with rows := showMutation js replica.rows mutation }, .ok ()) := by
  have hget : (Transaction.getRow mutation.table mutation.primaryKey).run (MemoryReplica.perform js) replica =
      (replica, .ok replica.rows[mutation.rowKey js]?) := rfl
  have hsame : ∀ (row : ReplicaRecord) {existing : ReplicaRecord}, replica.rows[mutation.rowKey js]? = some row →
      replica.rows[mutation.rowKey js]? = some existing → existing.serverSequence ≤ row.serverSequence := by
    intro row existing hrow hother
    rw [hrow] at hother
    cases hother
    exact Int.le_refl _
  have hnone : ∀ {existing : ReplicaRecord} {serverSequence : Int}, replica.rows[mutation.rowKey js]? = none →
      replica.rows[mutation.rowKey js]? = some existing → existing.serverSequence ≤ serverSequence :=
    fun hrow hother => by cases hrow.symm.trans hother
  unfold applyOptimisticMutation showMutation optimisticRow
  rw [run_bind, hget]
  cases hop : mutation.operation with
  | delete =>
    dsimp only
    cases hrow : replica.rows[mutation.rowKey js]? with
    | none =>
      rw [← hrow, setRow_self, hrow]
      rfl
    | some row => exact delete_run replica fun existing => hsame row hrow
  | insert =>
    obtain ⟨values, hvalues⟩ := Option.ne_none_iff_exists'.mp (h.resolve_left (by rw [hop]; decide))
    dsimp only
    rw [hvalues]
    cases hrow : replica.rows[mutation.rowKey js]? with
    | none => exact upsert_run replica fun existing => hnone hrow
    | some row => exact upsert_run replica fun existing => hsame row hrow
  | update =>
    obtain ⟨values, hvalues⟩ := Option.ne_none_iff_exists'.mp (h.resolve_left (by rw [hop]; decide))
    dsimp only
    rw [hvalues]
    cases hrow : replica.rows[mutation.rowKey js]? with
    | none => exact upsert_run replica fun existing => hnone hrow
    | some row => exact upsert_run replica fun existing => hsame row hrow

def putRow (rows : Map ReplicaRecord) (key : String) (serverSequence : Int) (row : Option ReplicaRecord) :
    Map ReplicaRecord :=
  if (rows[key]?).all fun existing => existing.serverSequence ≤ serverSequence then setRow rows key row else rows

theorem upsert_eq_putRow (replica : MemoryReplica) (record : ReplicaRecord) : replica.upsert js record =
    { replica with rows := putRow replica.rows (record.key js) record.serverSequence (some record) } := by
  unfold MemoryReplica.upsert putRow
  split <;> rfl

theorem delete_eq_putRow (replica : MemoryReplica) (table : String) (primaryKey : Value) (serverSequence : Int) :
    replica.delete js table primaryKey serverSequence =
      { replica with rows := putRow replica.rows (replicaKey js table primaryKey) serverSequence none } := by
  unfold MemoryReplica.delete putRow
  split <;> rfl

end Rows

def LogicalChange.Complete (change : LogicalChange) : Prop := change.operation = .delete ∨ change.values ≠ none

def LogicalChange.row (change : LogicalChange) : Option ReplicaRecord :=
  match change.operation, change.values with
  | .delete, _ => none
  | _, none => none
  | _, some values => some {
      table := change.table
      primaryKey := normalizePrimaryKey change.primaryKey
      values
      rowVersion := change.rowVersion
      serverSequence := change.sequence }

def LogicalChange.rowKey (js : Js) (change : LogicalChange) : String :=
  replicaKey js change.table (normalizePrimaryKey change.primaryKey)

def receiveChange (js : Js) (rows : Map ReplicaRecord) (change : LogicalChange) : Map ReplicaRecord :=
  putRow
    (if stableJson js (normalizePrimaryKey change.primaryKey) = stableJson js change.primaryKey then rows
      else putRow rows (replicaKey js change.table change.primaryKey) change.sequence none)
    (change.rowKey js) change.sequence change.row

section Pages
variable {js : Js}

theorem applyUnder_run (replica : MemoryReplica) {change : LogicalChange} (h : change.Complete) :
    (applyUnder change (normalizePrimaryKey change.primaryKey)).run (MemoryReplica.perform js) replica =
      ({ replica with rows := putRow replica.rows (change.rowKey js) change.sequence change.row }, .ok ()) := by
  unfold applyUnder LogicalChange.row
  cases hop : change.operation with
  | delete => exact congrArg (·, _) (delete_eq_putRow replica _ _ _)
  | insert =>
    obtain ⟨values, hvalues⟩ := Option.ne_none_iff_exists'.mp (h.resolve_left (by rw [hop]; decide))
    rw [hvalues]
    exact congrArg (·, _) (upsert_eq_putRow replica _)
  | update =>
    obtain ⟨values, hvalues⟩ := Option.ne_none_iff_exists'.mp (h.resolve_left (by rw [hop]; decide))
    rw [hvalues]
    exact congrArg (·, _) (upsert_eq_putRow replica _)

theorem applyChange_run (replica : MemoryReplica) {change : LogicalChange} (h : change.Complete) :
    (applyChange js change).run (MemoryReplica.perform js) replica =
      ({ replica with rows := receiveChange js replica.rows change }, .ok ()) := by
  unfold applyChange receiveChange
  dsimp only
  split
  · exact applyUnder_run replica h
  · rw [run_bind]
    have hold : (Transaction.delete change.table change.primaryKey change.sequence).run (MemoryReplica.perform js) replica =
        ({ replica with rows := putRow replica.rows (replicaKey js change.table change.primaryKey) change.sequence none },
          .ok ()) := congrArg (·, _) (delete_eq_putRow replica _ _ _)
    rw [hold]
    exact applyUnder_run _ h

theorem forEach_run {α : Type} {work : α → Transaction Unit} {change : Map ReplicaRecord → α → Map ReplicaRecord}
    {xs : List α} (h : ∀ x ∈ xs, ∀ replica : MemoryReplica, (work x).run (MemoryReplica.perform js) replica =
      ({ replica with rows := change replica.rows x }, .ok ())) (replica : MemoryReplica) :
    (Transaction.forEach work xs).run (MemoryReplica.perform js) replica =
      ({ replica with rows := xs.foldl change replica.rows }, .ok ()) := by
  induction xs generalizing replica with
  | nil => rfl
  | cons x xs ih =>
    change ((work x) >>= fun _ => Transaction.forEach work xs).run _ replica = _
    rw [run_bind, h x List.mem_cons_self]
    exact ih (fun other hother => h other (List.mem_cons_of_mem x hother)) _

theorem applyPage_run (js : Js) (replica : MemoryReplica) {changes : List LogicalChange} (position : Position)
    (h : ∀ change ∈ changes, change.Complete) :
    (applyPage js changes position).run (MemoryReplica.perform js) replica = ({ replica with
      rows := changes.foldl (receiveChange js) replica.rows
      cursor := some position }, .ok ()) := by
  change ((Transaction.forEach (applyChange js) changes) >>= fun _ => Transaction.setCursor position).run _ replica = _
  rw [run_bind, forEach_run fun change hmem replica => applyChange_run replica (h change hmem)]
  rfl

def SnapshotResponse.Decodes (js : Js) (snapshot : SnapshotResponse) : Prop :=
  (MemoryReplica.snapshotRows js ∅ snapshot.tables).2 = .ok ()

def SnapshotResponse.rows (js : Js) (snapshot : SnapshotResponse) : Map ReplicaRecord :=
  (MemoryReplica.snapshotRows js ∅ snapshot.tables).1

theorem getPending_eq (js : Js) (replica : MemoryReplica) {limit : Nat} (hpos : 1 ≤ limit) (hlimit : limit ≤ maxSafeInteger) :
    replica.getPending js limit = .ok ((replica.queue js).take limit) := by
  unfold MemoryReplica.getPending
  have hbounds : ¬(decide (limit < 1) || decide (maxSafeInteger < limit)) = true := by simp; omega
  rw [if_neg hbounds]

def MemoryReplica.shown (js : Js) (replica : MemoryReplica) : List PendingMutation :=
  (replica.queue js).take maxSafeInteger

theorem applySnapshot_run (replica : MemoryReplica) {snapshot : SnapshotResponse} (hdecodes : snapshot.Decodes js)
    (hcomplete : ∀ mutation ∈ replica.shown js, mutation.toSyncMutation.Complete) :
    (applySnapshot snapshot).run (MemoryReplica.perform js) replica = ({ replica with
      rows := (replica.shown js).foldl (showMutation js) (snapshot.rows js)
      cursor := some ⟨snapshot.cursor, snapshot.schemaVersion⟩ }, .ok ()) := by
  have hreplace : (Transaction.replaceSnapshot snapshot).run (MemoryReplica.perform js) replica =
      ({ replica with rows := snapshot.rows js }, .ok ()) := by
    change (Transaction.lift (MemoryReplica.snapshotRows js ∅ snapshot.tables).2).run (MemoryReplica.perform js)
      { replica with rows := snapshot.rows js } = _
    rw [hdecodes]
    rfl
  have hpending : (Transaction.getPending maxSafeInteger).run (MemoryReplica.perform js)
      { replica with rows := snapshot.rows js } = ({ replica with rows := snapshot.rows js }, .ok (replica.shown js)) := by
    change (Transaction.lift (({ replica with rows := snapshot.rows js } : MemoryReplica).getPending js
      maxSafeInteger)).run (MemoryReplica.perform js) { replica with rows := snapshot.rows js } = _
    rw [getPending_eq js { replica with rows := snapshot.rows js } (by decide) (Nat.le_refl _)]
    rfl
  unfold applySnapshot
  rw [run_bind, hreplace]
  dsimp only
  rw [run_bind, hpending]
  dsimp only
  rw [run_bind, forEach_run fun mutation hmem replica => applyOptimisticMutation_run replica (hcomplete mutation hmem)]
  rfl

end Pages

def settleResult (nowMs : Int) (replica : MemoryReplica) (result : SyncMutationResult) : MemoryReplica :=
  match result.status with
  | .rejected => replica.rejectPending result.mutationId (result.errorCode.getD "sync.rejected") nowMs
  | _ => { replica with pending := replica.pending.erase result.mutationId }

def requiresSnapshot (results : List SyncMutationResult) : Bool := results.any fun result => result.status ≠ .applied

def settleBatch (nowMs : Int) (replica : MemoryReplica) (results : List SyncMutationResult) : MemoryReplica :=
  if requiresSnapshot results then { results.foldl (settleResult nowMs) replica with cursor := none }
  else results.foldl (settleResult nowMs) replica

section Results
variable {js : Js}

omit js in
theorem pending_settleBatch (nowMs : Int) (replica : MemoryReplica) (results : List SyncMutationResult) :
    (settleBatch nowMs replica results).pending = (results.foldl (settleResult nowMs) replica).pending := by
  unfold settleBatch
  split <;> rfl

omit js in
theorem rejected_settleBatch (nowMs : Int) (replica : MemoryReplica) (results : List SyncMutationResult) :
    (settleBatch nowMs replica results).rejected = (results.foldl (settleResult nowMs) replica).rejected := by
  unfold settleBatch
  split <;> rfl

theorem consumeResult_run (replica : MemoryReplica) {pendingIds returnedIds : List String} {nowMs : Int}
    {result : SyncMutationResult} (hknown : result.mutationId ∈ pendingIds) (hnew : result.mutationId ∉ returnedIds) :
    (consumeResult pendingIds returnedIds nowMs result).run (MemoryReplica.perform js) replica =
      (settleResult nowMs replica result, .ok (result.status ≠ .applied)) := by
  unfold consumeResult settleResult
  dsimp only
  rw [if_pos hknown, if_neg hnew]
  cases result.status <;> rfl

theorem consumeResults_run (replica : MemoryReplica) {pendingIds returnedIds : List String} {nowMs : Int}
    {requires : Bool} {results : List SyncMutationResult}
    (hknown : ∀ result ∈ results, result.mutationId ∈ pendingIds)
    (hnodup : (results.map (·.mutationId)).Nodup)
    (hnew : ∀ result ∈ results, result.mutationId ∉ returnedIds) :
    (consumeResults pendingIds nowMs returnedIds requires results).run (MemoryReplica.perform js) replica =
      (results.foldl (settleResult nowMs) replica,
        .ok (requiresSnapshot results || requires)) := by
  unfold requiresSnapshot
  induction results generalizing replica returnedIds requires with
  | nil => rfl
  | cons result results ih =>
    obtain ⟨hother, hnodup⟩ := List.nodup_cons.mp hnodup
    unfold consumeResults
    rw [run_bind, consumeResult_run replica (hknown result List.mem_cons_self) (hnew result List.mem_cons_self)]
    dsimp only
    rw [ih _ (fun other hmem => hknown other (List.mem_cons_of_mem result hmem)) hnodup ?_]
    · rw [List.foldl_cons, List.any_cons]
      simp only [Bool.or_assoc, Bool.or_comm]
    · intro other hmem
      refine List.mem_cons.not.mpr (not_or.mpr ⟨?_, hnew other (List.mem_cons_of_mem result hmem)⟩)
      exact fun heq => hother (List.mem_map.mpr ⟨other, hmem, heq⟩)

theorem consumePushResults_run (js : Js) (replica : MemoryReplica) {batch : List PendingMutation}
    {results : List SyncMutationResult} (nowMs : Int) (hnodup : (batch.map (·.mutationId)).Nodup)
    (hids : results.map (·.mutationId) = batch.map (·.mutationId)) :
    (consumePushResults batch results nowMs).run (MemoryReplica.perform js) replica =
      (settleBatch nowMs replica results, .ok (requiresSnapshot results)) := by
  have hlength : results.length = ((batch.map (·.mutationId)).dedup).length := by
    rw [List.dedup_eq_self.mpr hnodup, ← hids, List.length_map]
  unfold consumePushResults settleBatch
  dsimp only
  rw [if_pos hlength, run_bind, consumeResults_run]
  · dsimp only
    rw [Bool.or_false]
    cases requiresSnapshot results <;> rfl
  · intro result hmem
    rw [List.mem_dedup, ← hids]
    exact List.mem_map_of_mem hmem
  · rwa [hids]
  · exact fun _ _ => List.not_mem_nil

omit js in
theorem pending_settleResult (nowMs : Int) (replica : MemoryReplica) (result : SyncMutationResult) (id : String) :
    (settleResult nowMs replica result).pending[id]? =
      if result.mutationId = id then none else replica.pending[id]? := by
  have herase : (replica.pending.erase result.mutationId)[id]? =
      if result.mutationId = id then none else replica.pending[id]? :=
    (Std.ExtTreeMap.getElem?_erase ..).trans (by simp)
  unfold settleResult MemoryReplica.rejectPending
  cases result.status with
  | rejected =>
    dsimp only
    cases hpending : replica.pending[result.mutationId]? with
    | none =>
      dsimp only
      by_cases hid : result.mutationId = id
      · rw [if_pos hid, ← hid, hpending]
      · rw [if_neg hid]
    | some mutation => exact herase
  | applied => exact herase
  | duplicate => exact herase
  | superseded => exact herase

omit js in
theorem pending_settled (nowMs : Int) (replica : MemoryReplica) (results : List SyncMutationResult) (id : String) :
    (results.foldl (settleResult nowMs) replica).pending[id]? =
      if id ∈ results.map (·.mutationId) then none else replica.pending[id]? := by
  induction results generalizing replica with
  | nil => simp
  | cons result results ih =>
    rw [List.foldl_cons, ih, pending_settleResult]
    by_cases hid : result.mutationId = id
    · simp [hid]
    · by_cases hmem : id ∈ results.map (·.mutationId)
      · simp [hmem]
      · simp [hid, hmem, Ne.symm hid]

omit js in
theorem rejected_settleResult (nowMs : Int) (replica : MemoryReplica) (result : SyncMutationResult) (id : String)
    (h : replica.rejected[id]?.isSome) : (settleResult nowMs replica result).rejected[id]?.isSome := by
  unfold settleResult MemoryReplica.rejectPending
  cases result.status with
  | rejected =>
    dsimp only
    cases replica.pending[result.mutationId]? with
    | none => exact h
    | some mutation =>
      by_cases hid : result.mutationId = id
      · rw [hid]
        exact Option.isSome_iff_exists.mpr ⟨_, Std.ExtTreeMap.getElem?_insert_self⟩
      · change ((replica.rejected.insert result.mutationId _)[id]?).isSome
        rwa [getElem?_insert_of_ne _ hid]
  | applied => exact h
  | duplicate => exact h
  | superseded => exact h

omit js in
theorem rejected_kept (nowMs : Int) (replica : MemoryReplica) (results : List SyncMutationResult) (id : String)
    (h : replica.rejected[id]?.isSome) : (results.foldl (settleResult nowMs) replica).rejected[id]?.isSome := by
  induction results generalizing replica with
  | nil => exact h
  | cons result results ih => exact ih _ (rejected_settleResult nowMs replica result id h)

omit js in
/-- A pending mutation with the result that it is rejected is kept as such. -/
theorem rejected_settled (nowMs : Int) (replica : MemoryReplica) {results : List SyncMutationResult}
    (hnodup : (results.map (·.mutationId)).Nodup) {result : SyncMutationResult} (hmem : result ∈ results)
    (hrejected : result.status = .rejected) (hpending : replica.pending[result.mutationId]?.isSome) :
    (results.foldl (settleResult nowMs) replica).rejected[result.mutationId]?.isSome := by
  induction results generalizing replica with
  | nil => cases hmem
  | cons first results ih =>
    obtain ⟨hfirst, hnodup⟩ := List.nodup_cons.mp hnodup
    rw [List.foldl_cons]
    obtain rfl | hmem := List.mem_cons.mp hmem
    · refine rejected_kept nowMs _ results _ ?_
      obtain ⟨mutation, hpending⟩ := Option.isSome_iff_exists.mp hpending
      unfold settleResult MemoryReplica.rejectPending
      rw [hrejected]
      dsimp only
      rw [hpending]
      exact Option.isSome_iff_exists.mpr ⟨_, Std.ExtTreeMap.getElem?_insert_self⟩
    · refine ih _ hnodup hmem ?_
      have hne : first.mutationId ≠ result.mutationId := fun heq =>
        hfirst (List.mem_map.mpr ⟨result, hmem, heq.symm⟩)
      rw [pending_settleResult, if_neg hne]
      exact hpending

end Results

end Ffdb.Client
