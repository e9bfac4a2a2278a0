import Ffdb.Runtime.Value

/-! The tables behind synchronization: the ordered changes, the version of every key and the
triggers that write both with the row itself. -/
namespace Ffdb.Runtime
open Sql Rls Fallible
open Sync (Value JsonMap)

inductive SyncChangeOperation where
  | insert
  | update
  | delete
  deriving DecidableEq

/-- A row of `__ffdb_sync_changes`; its two JSON columns by the fields they hold. -/
structure ChangeRow where
  sequence : Nat
  transactionId : String
  table : Identifier
  primaryKeyJson : List Char
  operation : SyncChangeOperation
  rowVersion : Nat
  valuesJson : Option JsonMap
  tombstoneJson : Option JsonMap
  clientMutationId : Option String
  deriving DecidableEq

structure VersionRow where
  rowVersion : Nat
  lastSequence : Nat
  deleted : Bool
  deriving DecidableEq

structure SyncTables where
  nextSequence : Nat := 1
  changes : List ChangeRow := []
  versions : Identifier → List Char → Option VersionRow := fun _ _ => none

/-- What the triggers learn from the session. -/
structure RequestContext where
  transactionId : String
  clientMutationId : Option String

variable (doubles : Doubles)

/-- The object that SQLite's `json_object` makes of columns of a row, in the given order. -/
def jsonObject (columns : List Identifier) (row : Row) : JsonMap :=
  columns.map fun column => (columnName column, syncJson (row.value column))

def capturedKey (table : TableSchema) (row : Row) : List Char :=
  valueText doubles (.object (jsonObject (keyColumns table) row))

def rowObject (table : TableSchema) (row : Row) : JsonMap :=
  jsonObject (table.columns.map ColumnSchema.name) row

/-- The body of a capture trigger: number the change, log it, note it under its key. -/
def SyncTables.capture (s : SyncTables) (context : RequestContext) (table : TableSchema)
    (operation : SyncChangeOperation) (row : Row) : SyncTables :=
  let key := capturedKey doubles table row
  let rowVersion := (s.versions table.name key).elim 0 VersionRow.rowVersion+1
  let deleted := operation = .delete
  let change : ChangeRow :=
    { sequence := s.nextSequence
      transactionId := context.transactionId
      table := table.name
      primaryKeyJson := key
      operation
      rowVersion
      valuesJson := if deleted then none else some (rowObject table row)
      tombstoneJson := if deleted then some (rowObject table row) else none
      clientMutationId := context.clientMutationId }
  { nextSequence := s.nextSequence+1
    changes := s.changes ++ [change]
    versions := fun name key' =>
      if name = table.name ∧ key' = key then some ⟨rowVersion, s.nextSequence, deleted⟩
      else s.versions name key' }

def SyncTables.latestSequence (s : SyncTables) : Nat := s.nextSequence-1

/-- The version of a live row, and zeros for a key that was never captured. -/
def SyncTables.loadSyncVersion (s : SyncTables) (table : Identifier) (key : List Char) : Nat × Nat :=
  match s.versions table key with
  | some version => if version.deleted then (0, 0) else (version.rowVersion, version.lastSequence)
  | none => (0, 0)

def SyncTables.loadCapturedSyncChange (s : SyncTables) (transactionId : String) (table : Identifier)
    (key : List Char) (mutationId : String) : Option (Nat × Nat) :=
  (s.changes.reverse.find? fun change =>
    change.transactionId = transactionId ∧ change.table = table ∧ change.primaryKeyJson = key ∧
      change.clientMutationId = some mutationId).map fun change => (change.sequence, change.rowVersion)

end Ffdb.Runtime
