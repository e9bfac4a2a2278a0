import Ffdb.Runtime.Push
import Ffdb.Runtime.Capture

/-! What a client is told of a project database: a snapshot of the rows that it may see, and
page by page the changes behind a cursor. Of a cursor only its sequence is kept. -/
namespace Ffdb.Runtime
open Sql Rls Relation Fallible
open Sync (Value JsonMap)

/-- How JSON text is read: `from_str`, and the double that it makes of the text of one. -/
structure JsonReader where
  fromStr : List Char → Option Value
  double : UInt64 → UInt64

def JsonReader.readValue (reader : JsonReader) : Value → Value
  | .number (.float bits) => .number (.float (reader.double bits))
  | value => value

def JsonReader.readFields (reader : JsonReader) (fields : JsonMap) : JsonMap :=
  collectMap (fields.map fun (name, value) => (name, reader.readValue value))

def JsonReader.Lawful (doubles : Doubles) (reader : JsonReader) : Prop :=
  ∀ columns row, reader.fromStr (valueText doubles (.object (jsonObject columns row))) =
    some (.object (reader.readFields (jsonObject columns row)))

structure SyncChange where
  sequence : Nat
  transactionId : String
  table : Identifier
  primaryKey : Value
  operation : SyncChangeOperation
  rowVersion : Nat
  values : Option JsonMap
  tombstone : Option JsonMap
  clientMutationId : Option String

structure SyncPullResult where
  changes : List SyncChange
  cursor : Nat
  hasMore : Bool

structure ExecutionLimits where
  maxRows : Nat
  maxResponseBytes : Nat

section Results

def ResultValue.encodedSize : ResultValue → Nat
  | .null => 4
  | .integer value => value.toInt.repr.utf8ByteSize
  | .integerString value | .text value => value.utf8ByteSize+2
  | .real _ => 24
  | .blob data => data.utf8ByteSize+12

structure SnapshotRow where
  values : List ResultValue
  primaryKey : List Char
  rowVersion : Nat
  serverSequence : Nat

structure SnapshotTable where
  columns : List Identifier
  rows : List SnapshotRow

structure SyncSnapshot where
  cursor : Nat
  tables : List (Identifier × SnapshotTable)

def resultRows (limits : ExecutionLimits) (columns : List Identifier) (rows : List Row) :
    Except RuntimeError (List (List ResultValue)) := do
  let values := rows.map fun row => row.map fun (_, value) => ResultValue.fromValueRef value
  let size := (columns.map fun column => (columnName column).utf8ByteSize+24).sum+
    (values.flatten.map (·.encodedSize+1)).sum
  require (values.flatten.isEmpty || size ≤ limits.maxResponseBytes) .responseTooLarge
  require (rows.length ≤ limits.maxRows) .responseTooLarge
  pure values

def annotationNames : List String := ["__ffdb_primary_key", "__ffdb_row_version", "__ffdb_server_sequence"]

def SnapshotTable.encodedSize (table : SnapshotTable) : Nat :=
  let values := table.rows.flatMap fun row => row.values ++ [.text (String.ofList row.primaryKey),
    .integer (Int64.ofNat row.rowVersion), .integer (Int64.ofNat row.serverSequence)]
  ((table.columns.map columnName ++ annotationNames).map (·.utf8ByteSize+32)).sum+
    (values.map (·.encodedSize+1)).sum+128

end Results

/-- A key of one column is shown by its value. -/
def publicKey (fields : JsonMap) : Value :=
  match fields with
  | [(_, value)] => value
  | fields => .object fields

def publicSyncPrimaryKey : Value → Except RuntimeError Value
  | .object [] => .error .database
  | .object fields => .ok (publicKey fields)
  | _ => .error .database

variable (doubles : Doubles) (reader : JsonReader) (limits : ExecutionLimits) (truth bare : Verdict)

namespace Database

section Snapshot
variable (db : Database) (auth : AuthContext)

def annotateSnapshotRow (table : TableSchema) (row : Row) (values : List ResultValue) :
    Except RuntimeError SnapshotRow := do
  let fields ← (keyColumns table).mapM (resultField row)
  let key := collectMap fields
  let (rowVersion, serverSequence) := db.sync.loadSyncVersion table.name (valueText doubles (.object key))
  pure ⟨values, valueText doubles (publicKey key), rowVersion, serverSequence⟩

def snapshotTable (table : PhysicalTable) : Except RuntimeError (Identifier × SnapshotTable) := do
  let columns := table.schema.columns.map ColumnSchema.name
  let rows := (db.shown truth auth table).map Entry.row
  let values ← resultRows limits columns rows
  let annotated ← (rows.zip values).mapM fun (row, values) =>
    db.annotateSnapshotRow doubles table.schema row values
  let result : SnapshotTable := ⟨columns, annotated⟩
  require (result.encodedSize ≤ limits.maxResponseBytes) .responseTooLarge
  pure (table.schema.name, result)

def syncSnapshot : Except RuntimeError SyncSnapshot := do
  let tables ← (db.schemaSnapshot.tables.filter fun table => !(keyColumns table).isEmpty).mapM
    fun schema => do
      let table ← orError (db.table schema.name) .statementNotAllowed
      db.snapshotTable doubles limits truth auth table
  pure ⟨db.sync.latestSequence, tables⟩

end Snapshot

section Pull
variable (db : Database) (auth : AuthContext)

def loadSyncChange (change : ChangeRow) : Except RuntimeError SyncChange := do
  let primaryKey ← orError (reader.fromStr change.primaryKeyJson) .database
  pure
    { sequence := change.sequence
      transactionId := change.transactionId
      table := change.table
      primaryKey
      operation := change.operation
      rowVersion := change.rowVersion
      values := change.valuesJson.map reader.readFields
      tombstone := change.tombstoneJson.map reader.readFields
      clientMutationId := change.clientMutationId }

def loadSyncChanges (after limit : Nat) : Except RuntimeError (List SyncChange) :=
  (((db.sync.changes.filter (after < ·.sequence)).insertionSort
    fun a b => a.sequence ≤ b.sequence).take limit).mapM (loadSyncChange reader)

/-- The columns of a logged row as named parameters, without the types of the table. -/
def candidateRow (row : JsonMap) : Except RuntimeError Row :=
  row.mapM fun (name, value) => do
    let column ← (Identifier.new name.toList).mapError fun _ => RuntimeError.database
    let parameter ← jsonParameter doubles value
    pure (column, parameter)

/-- The policy of a table, asked about logged values and the database as it is now. -/
def evaluateSelectPolicy (table : Identifier) (row : JsonMap) : Except RuntimeError Bool := do
  let candidate ← candidateRow doubles row
  pure ((db.policies bare auth table).passes table (db.contents table) .select .forUsing candidate)

/-- The loop of a pull over loaded changes: it stops before the first change that may be seen
and finds no place. -/
def examine (limit : Nat) (page : SyncPullResult) : List SyncChange → Except RuntimeError SyncPullResult
  | [] => .ok page
  | change :: rest => do
    let primaryKey ← publicSyncPrimaryKey change.primaryKey
    let seen ← match change.values.or change.tombstone with
      | some row => db.evaluateSelectPolicy doubles bare auth change.table row
      | none => pure false
    if seen then
      if page.changes.length = limit then pure { page with hasMore := true }
      else examine limit { page with
        changes := page.changes ++ [{ change with primaryKey }]
        cursor := change.sequence } rest
    else examine limit { page with cursor := change.sequence } rest

def syncPull (after limit : Nat) : Except RuntimeError SyncPullResult := do
  require (!(limit = 0 || limit > 1000)) .statementNotAllowed
  let changes ← db.loadSyncChanges reader after (max (min limits.maxRows 10000) (limit+1))
  let page ← db.examine doubles bare auth limit ⟨[], after, false⟩ changes
  pure { page with hasMore := page.hasMore || page.cursor < db.sync.latestSequence }

end Pull

end Database

structure Follower where
  rows : Replica
  cursor : Nat

def ResultValue.json (value : ResultValue) : Value := (resultJson value).toOption.getD .null

def SnapshotTable.fields (table : SnapshotTable) (row : SnapshotRow) : JsonMap :=
  collectMap ((table.columns.zip row.values).map fun (column, value) => (columnName column, value.json))

def Replica.ofSnapshot (snapshot : SyncSnapshot) : Replica := fun name key =>
  (snapshot.tables.lookup name).bind fun table =>
    (table.rows.find? (·.primaryKey = key)).map table.fields

/-- An insert or an update stores its values under its key, a delete removes them. -/
def Replica.receive (rows : Replica) (change : SyncChange) : Replica := fun name key =>
  if change.table = name ∧ valueText doubles change.primaryKey = key then change.values else rows name key

def Follower.receive (follower : Follower) (page : SyncPullResult) : Follower :=
  ⟨page.changes.foldl (Replica.receive doubles) follower.rows, page.cursor⟩

inductive FollowStep where
  | write (context : RequestContext) (events : List RowEvent)
  | pull (limit : Nat)

def followStep (auth : AuthContext) : Database × Follower → FollowStep → Database × Follower
  | (db, follower), .write context events => ((db.writeRows doubles context events).getD db, follower)
  | (db, follower), .pull limit =>
    match db.syncPull doubles reader limits bare auth follower.cursor limit with
    | .ok page => (db, follower.receive doubles page)
    | .error _ => (db, follower)

def catchUp (auth : AuthContext) (db : Database) (limit : Nat) : Nat → Follower → Option Follower
  | 0, _ => none
  | pulls+1, follower =>
    match db.syncPull doubles reader limits bare auth follower.cursor limit with
    | .error _ => none
    | .ok page =>
      if page.hasMore then catchUp auth db limit pulls (follower.receive doubles page)
      else some (follower.receive doubles page)

end Ffdb.Runtime
