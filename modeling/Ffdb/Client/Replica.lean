import Ffdb.Lib.Turns
import Ffdb.Sync.Types
import Std.Data.ExtTreeMap

/-! The replica of an offline client that is kept in memory: rows with what the server knows of them, the queue of
mutations that are pending, those that were rejected, and the cursor. -/
namespace Ffdb.Client
open Turns Sync

inductive ChangeOperation where
  | insert
  | update
  | delete
  deriving DecidableEq

inductive MutationStatus where
  | applied
  | duplicate
  | rejected
  | superseded
  deriving DecidableEq

structure SyncMutation where
  mutationId : String
  table : String
  primaryKey : Value
  operation : ChangeOperation
  values : Option JsonMap
  baseRowVersion : Option Int
  clientTimestampMs : Option Int
  deriving DecidableEq

structure PendingMutation extends SyncMutation where
  enqueuedAtMs : Int
  deriving DecidableEq

structure RejectedMutation extends PendingMutation where
  errorCode : String
  rejectedAtMs : Int
  deriving DecidableEq

structure ReplicaRecord where
  table : String
  primaryKey : Value
  values : JsonMap
  rowVersion : Int
  serverSequence : Int
  deriving DecidableEq

structure LogicalChange where
  sequence : Int
  table : String
  primaryKey : Value
  operation : ChangeOperation
  rowVersion : Int
  values : Option JsonMap

structure SyncMutationResult where
  mutationId : String
  status : MutationStatus
  errorCode : Option String

structure QueryResult where
  columns : List String
  rows : List (List Value)

structure SnapshotResponse where
  schemaVersion : Nat
  cursor : String
  tables : List (String × QueryResult)

structure Position where
  cursor : String
  schemaVersion : Nat
  deriving DecidableEq

structure Js where
  /-- the JSON text of a value that is no array and no object -/
  stringify : Value → String
  parse : String → Option Value
  localeCompare : String → String → Ordering
  number : Value → Int

def maxSafeInteger : Nat := 2^53-1

section Json
variable (js : Js)

def sortBy {α : Type} (order : α → α → Ordering) (xs : List α) : List α :=
  xs.mergeSort fun a b => (order a b).isLE

mutual
def stableJson : Value → String
  | .array items => "[" ++ ",".intercalate (stableItems items) ++ "]"
  | .object fields =>
    "\x7b" ++ ",".intercalate ((sortBy (fun a b => js.localeCompare a.1 b.1) (stableFields fields)).map fun field =>
      js.stringify (.string field.1) ++ ":" ++ field.2) ++ "\x7d"
  | value => js.stringify value

def stableItems : List Value → List String
  | [] => []
  | item :: items => stableJson item :: stableItems items

def stableFields : List (String × Value) → List (String × String)
  | [] => []
  | (name, value) :: fields => (name, stableJson value) :: stableFields fields
end

def replicaKey (table : String) (primaryKey : Value) : String := table ++ "\u001f" ++ stableJson js primaryKey

def ReplicaRecord.key (record : ReplicaRecord) : String := replicaKey js record.table record.primaryKey

def ChangeOperation.text : ChangeOperation → String
  | .insert => "insert"
  | .update => "update"
  | .delete => "delete"

def intValue (n : Int) : Value := .number (if 0 ≤ n then .posInt n.toNat else .negInt n)

def SyncMutation.json (mutation : SyncMutation) : Value := .object [
  ("mutation_id", .string mutation.mutationId),
  ("table", .string mutation.table),
  ("primary_key", mutation.primaryKey),
  ("operation", .string mutation.operation.text),
  ("values", mutation.values.elim .null .object),
  ("base_row_version", mutation.baseRowVersion.elim .null intValue),
  ("client_timestamp_ms", mutation.clientTimestampMs.elim .null intValue)]

def sameMutationContent (left right : SyncMutation) : Bool := stableJson js left.json = stableJson js right.json

def setField (name : String) (value : Value) : JsonMap → JsonMap
  | [] => [(name, value)]
  | (other, old) :: fields => if other = name then (name, value) :: fields else (other, old) :: setField name value fields

def spread (fields others : JsonMap) : JsonMap :=
  others.foldl (fun fields field => setField field.1 field.2 fields) fields

/-- A key of one column is the value of that column. -/
def normalizePrimaryKey : Value → Value
  | .object [(_, value)] => value
  | primaryKey => primaryKey

/-- The columns that begin so are not data. -/
def snapshotValues (names : List String) (cells : List Value) : JsonMap :=
  ((names.zip cells).filter fun column => !column.1.startsWith "__ffdb_").foldl
    (fun fields column => setField column.1 column.2 fields) []

def decodeSnapshotRow (table : String) (names : List String) (primaryKeyIndex rowVersionIndex sequenceIndex : Nat)
    (cells : List Value) : Except String ReplicaRecord :=
  match cells[primaryKeyIndex]? with
  | some (.string encoded) =>
    match js.parse encoded with
    | some primaryKey => .ok {
        table
        primaryKey
        values := snapshotValues names cells
        rowVersion := js.number (cells.getD rowVersionIndex .null)
        serverSequence := js.number (cells.getD sequenceIndex .null) }
    | none => .error "Snapshot primary key is invalid"
  | _ => .error "Snapshot primary key is invalid"

/-- Tables without the columns about their rows have none. -/
def decodeSnapshotTable (table : String) (result : QueryResult) : Except String (List ReplicaRecord) :=
  match result.columns.idxOf? "__ffdb_primary_key", result.columns.idxOf? "__ffdb_row_version",
    result.columns.idxOf? "__ffdb_server_sequence" with
  | some primaryKeyIndex, some rowVersionIndex, some sequenceIndex =>
    result.rows.mapM (decodeSnapshotRow js table result.columns primaryKeyIndex rowVersionIndex sequenceIndex)
  | _, _, _ => .ok []

end Json

abbrev Map (α : Type) := Std.ExtTreeMap String α

structure MemoryReplica where
  rows : Map ReplicaRecord := ∅
  pending : Map PendingMutation := ∅
  rejected : Map RejectedMutation := ∅
  cursor : Option Position := none

def sortPending (js : Js) (values : List PendingMutation) : List PendingMutation :=
  sortBy (fun left right =>
    (compare left.enqueuedAtMs right.enqueuedAtMs).then (js.localeCompare left.mutationId right.mutationId)) values

/-- What a call does to the maps at once. The last three are what enqueueing does to them itself. -/
inductive ReplicaOp where
  | getRow (table : String) (primaryKey : Value)
  | getPending (limit : Nat)
  | upsert (record : ReplicaRecord)
  | delete (table : String) (primaryKey : Value) (serverSequence : Int)
  | replaceSnapshot (snapshot : SnapshotResponse)
  | setCursor (position : Position)
  | clearCursor
  | removePending (mutationIds : List String)
  /-- the time is that of the replica's clock -/
  | rejectPending (mutationId errorCode : String) (nowMs : Int)
  | findPending (mutationId : String)
  | findRejected (mutationId : String)
  | setPending (mutation : PendingMutation)

def ReplicaOp.Answer : ReplicaOp → Type
  | .getRow .. => Option ReplicaRecord
  | .getPending _ => Except String (List PendingMutation)
  | .replaceSnapshot _ => Except String Unit
  | .findPending _ => Option PendingMutation
  | .findRejected _ => Option RejectedMutation
  | _ => Unit

namespace MemoryReplica
variable (js : Js) (replica : MemoryReplica)

def getRow (table : String) (primaryKey : Value) : Option ReplicaRecord := replica.rows[replicaKey js table primaryKey]?

def queue : List PendingMutation := sortPending js (replica.pending.toList.map (·.2))

def getPending (limit : Nat) : Except String (List PendingMutation) :=
  if limit < 1 || maxSafeInteger < limit then .error "limit must be a positive integer"
  else .ok ((replica.queue js).take limit)

/-- A row that the server has changed since stays. -/
def upsert (record : ReplicaRecord) : MemoryReplica :=
  if (replica.rows[record.key js]?).all fun existing => existing.serverSequence ≤ record.serverSequence then
    { replica with rows := replica.rows.insert (record.key js) record }
  else replica

def delete (table : String) (primaryKey : Value) (serverSequence : Int) : MemoryReplica :=
  if (replica.rows[replicaKey js table primaryKey]?).all fun existing => existing.serverSequence ≤ serverSequence then
    { replica with rows := replica.rows.erase (replicaKey js table primaryKey) }
  else replica

def snapshotRows (rows : Map ReplicaRecord) : List (String × QueryResult) → Map ReplicaRecord × Except String Unit
  | [] => (rows, .ok ())
  | (table, result) :: tables =>
    match decodeSnapshotTable js table result with
    | .ok decoded => snapshotRows (decoded.foldl (fun rows row => rows.insert (row.key js) row) rows) tables
    | .error error => (rows, .error error)

def rejectPending (mutationId errorCode : String) (nowMs : Int) : MemoryReplica :=
  match replica.pending[mutationId]? with
  | none => replica
  | some mutation => { replica with
      pending := replica.pending.erase mutationId
      rejected := replica.rejected.insert mutationId { mutation with errorCode, rejectedAtMs := nowMs } }

def perform : (op : ReplicaOp) → MemoryReplica × op.Answer
  | .getRow table primaryKey => (replica, replica.getRow js table primaryKey)
  | .getPending limit => (replica, replica.getPending js limit)
  | .upsert record => (replica.upsert js record, ())
  | .delete table primaryKey serverSequence => (replica.delete js table primaryKey serverSequence, ())
  | .replaceSnapshot snapshot =>
    ({ replica with rows := (snapshotRows js ∅ snapshot.tables).1 }, (snapshotRows js ∅ snapshot.tables).2)
  | .setCursor position => ({ replica with cursor := some position }, ())
  | .clearCursor => ({ replica with cursor := none }, ())
  | .removePending mutationIds =>
    ({ replica with pending := mutationIds.foldl (fun pending id => pending.erase id) replica.pending }, ())
  | .rejectPending mutationId errorCode nowMs => (replica.rejectPending mutationId errorCode nowMs, ())
  | .findPending mutationId => (replica, replica.pending[mutationId]?)
  | .findRejected mutationId => (replica, replica.rejected[mutationId]?)
  | .setPending mutation => ({ replica with pending := replica.pending.insert mutation.mutationId mutation }, ())

end MemoryReplica

abbrev Transaction (ρ : Type) := Work ReplicaOp ReplicaOp.Answer String ρ

namespace Transaction

def lift {α : Type} : Except String α → Transaction α
  | .ok a => .done a
  | .error error => .fail error

def getRow (table : String) (primaryKey : Value) : Transaction (Option ReplicaRecord) :=
  .await (.getRow table primaryKey) .done

def getPending (limit : Nat) : Transaction (List PendingMutation) := .await (.getPending limit) lift

def upsert (record : ReplicaRecord) : Transaction Unit := .await (.upsert record) .done

def delete (table : String) (primaryKey : Value) (serverSequence : Int) : Transaction Unit :=
  .await (.delete table primaryKey serverSequence) .done

def replaceSnapshot (snapshot : SnapshotResponse) : Transaction Unit := .await (.replaceSnapshot snapshot) lift

def setCursor (position : Position) : Transaction Unit := .await (.setCursor position) .done

def clearCursor : Transaction Unit := .await .clearCursor .done

def removePending (mutationIds : List String) : Transaction Unit := .await (.removePending mutationIds) .done

def rejectPending (mutationId errorCode : String) (nowMs : Int) : Transaction Unit :=
  .await (.rejectPending mutationId errorCode nowMs) .done

def forEach {α : Type} (work : α → Transaction Unit) : List α → Transaction Unit
  | [] => pure ()
  | x :: xs => do
    work x
    forEach work xs

end Transaction

open Transaction

/-- The visible row of a mutation is changed; what the server knows of it stays. -/
def applyOptimisticMutation (mutation : PendingMutation) : Transaction Unit := do
  let existing ← getRow mutation.table mutation.primaryKey
  match mutation.operation with
  | .delete =>
    match existing with
    | some row => delete mutation.table mutation.primaryKey row.serverSequence
    | none => pure ()
  | operation =>
    match mutation.values with
    | none => .fail (operation.text ++ " mutation values are required")
    | some values => upsert {
        table := mutation.table
        primaryKey := mutation.primaryKey
        values := match operation, existing with
          | .update, some row => spread row.values values
          | _, _ => values
        rowVersion := (existing.map (·.rowVersion)).getD (mutation.baseRowVersion.getD 0)
        serverSequence := (existing.map (·.serverSequence)).getD (-1) }

variable (js : Js)

/-- An id that is known already is for the same mutation only. -/
def alreadyQueued (existing mutation : SyncMutation) : Transaction Unit :=
  if sameMutationContent js existing mutation then pure ()
  else .fail ("Mutation id " ++ mutation.mutationId ++ " was reused")

def enqueue (mutation : PendingMutation) : Transaction Unit :=
  .now (.findPending mutation.mutationId) fun
    | some existing => alreadyQueued js existing.toSyncMutation mutation.toSyncMutation
    | none => .now (.findRejected mutation.mutationId) fun
      | some rejected => alreadyQueued js rejected.toSyncMutation mutation.toSyncMutation
      | none => .now (.setPending mutation) fun _ => applyOptimisticMutation mutation

/-- A change of the server; an older server may have stored the row under a key that is an object. -/
def applyChange (change : LogicalChange) : Transaction Unit := do
  let primaryKey := normalizePrimaryKey change.primaryKey
  if stableJson js primaryKey = stableJson js change.primaryKey then pure ()
  else delete change.table change.primaryKey change.sequence
  match change.operation with
  | .delete => delete change.table primaryKey change.sequence
  | _ =>
    match change.values with
    | none => .fail "Upsert change is missing values"
    | some values => upsert {
        table := change.table
        primaryKey
        values
        rowVersion := change.rowVersion
        serverSequence := change.sequence }

/-- One result; the answer is whether the rows must be fetched anew. -/
def consumeResult (pendingIds returnedIds : List String) (nowMs : Int) (result : SyncMutationResult) :
    Transaction Bool := do
  if result.mutationId ∈ pendingIds then pure () else .fail "Server returned an unknown mutation id"
  if result.mutationId ∈ returnedIds then .fail "Server returned a duplicate mutation result" else pure ()
  match result.status with
  | .rejected =>
    rejectPending result.mutationId (result.errorCode.getD "sync.rejected") nowMs
    pure true
  | status =>
    removePending [result.mutationId]
    pure (status ≠ .applied)

def consumeResults (pendingIds : List String) (nowMs : Int) (returnedIds : List String) (requires : Bool) :
    List SyncMutationResult → Transaction Bool
  | [] => pure requires
  | result :: results => do
    let snapshot ← consumeResult pendingIds returnedIds nowMs result
    consumeResults pendingIds nowMs (result.mutationId :: returnedIds) (snapshot || requires) results

def consumePushResults (pending : List PendingMutation) (results : List SyncMutationResult) (nowMs : Int) :
    Transaction Bool := do
  let pendingIds := (pending.map (·.mutationId)).dedup
  if results.length = pendingIds.length then pure ()
  else .fail "Server did not return exactly one result for every mutation"
  let requiresAuthoritativeSnapshot ← consumeResults pendingIds nowMs [] false results
  if requiresAuthoritativeSnapshot then clearCursor else pure ()
  pure requiresAuthoritativeSnapshot

def applyPage (changes : List LogicalChange) (position : Position) : Transaction Unit := do
  forEach (applyChange js) changes
  setCursor position

def applySnapshot (snapshot : SnapshotResponse) : Transaction Unit := do
  replaceSnapshot snapshot
  let pending ← getPending maxSafeInteger
  forEach applyOptimisticMutation pending
  setCursor ⟨snapshot.cursor, snapshot.schemaVersion⟩

end Ffdb.Client
