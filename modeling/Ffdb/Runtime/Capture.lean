import Ffdb.Runtime.Replay
import Ffdb.Runtime.Push
import Ffdb.Rls.Compile

/-! The capture of changes over the life of a database: tables come and go, policies are
migrated, rows are written, and the triggers are rebuilt around every change of the schema. -/
namespace Ffdb.Runtime
open Sql Rls Relation Text

def captureSuffix (name : Identifier) : List Char :=
  (hex (Sha256.digest (Sync.utf8 (columnName name)))).take 16

/-- A name of the schema that a temporary table hides from unqualified use. -/
def isShadowed (temporary : List Identifier) (name : Identifier) : Bool :=
  temporary.any fun other => eqIgnoreAsciiCase other.value name.value

/-- The triggers of one table, rebuilt. Behind a temporary table of the same name they would
be made on that one. -/
def refreshOne (temporary : List Identifier) (captured : List Identifier) (table : TableSchema) :
    List Identifier :=
  let others := captured.filter (captureSuffix · ≠ captureSuffix table.name)
  if (keyColumns table).isEmpty || (!table.isProtected && isShadowed temporary table.name) then others
  else others ++ [table.name]

/-- One row that SQLite writes while it executes a statement: on behalf of the statement
itself, of a trigger, of a view or of a foreign key. What `REPLACE` finds in its way it deletes
like any row where triggers are recursive; where they are not, it is displaced and fires none.
An update knows whether it names a column of the key. -/
inductive RowWrite where
  | insert (table : Identifier) (row : Row)
  | update (table : Identifier) (old : Entry Row) (row : Row) (namesKey : Bool)
  | delete (table : Identifier) (old : Entry Row)
  | displace (table : Identifier) (old : Entry Row) (new : Row)

def RowWrite.table : RowWrite → Identifier
  | .insert table .. | .update table .. | .delete table _ | .displace table .. => table

/-- Behind a row that is written come its foreign keys, then its temporary triggers and then
the capture triggers, the newest of the others. A temporary trigger may give up the rest. -/
inductive RowEvent where
  | write (write : RowWrite)
  | fire
  | ignore

/-- A row that has been written and whose capture trigger is still to come; or one that was
displaced, while the row that it makes room for is still to come. -/
structure Waiting where
  table : TableSchema
  operation : SyncChangeOperation
  row : Row
  room : Option Row := none

def Waiting.isRoomFor (waiting : Waiting) (table : Identifier) (row : Row) : Bool :=
  decide (waiting.table.name = table) && waiting.room == some row

/-- A statement under way: the database, and what waits, the innermost row first. -/
structure Execution where
  db : Database
  waiting : List Waiting := []

inductive CaptureStep where
  | createTable (table : PhysicalTable)
  | createTemporary (name : Identifier)
  | dropTemporary (name : Identifier)
  /-- with the rows that foreign keys remove elsewhere -/
  | dropTable (name : Identifier) (cascades : List RowEvent)
  | renameTable (name newName : Identifier)
  /-- with what it makes of a row -/
  | alterTable (table : PhysicalTable) (convert : Row → Row)
  /-- on a view, an index or a trigger -/
  | otherDdl
  | rls (statement : RlsStatement)
  /-- the end of a migration -/
  | refresh
  | pragma (recursiveTriggers : Bool)
  | write (context : RequestContext) (events : List RowEvent)

instance (row : Row) (table : TableSchema) : Decidable (row.Of table) :=
  inferInstanceAs (Decidable (_ = _))

namespace Database

def refreshChangeCapture (db : Database) : Database :=
  { db with captured := db.schemaSnapshot.tables.foldl (refreshOne db.temporary) db.captured }

def suspendChangeCapture (db : Database) : Database := { db with captured := [] }

end Database

def Execution.put (run : Execution) (name : Identifier) (entries : Contents) (waiting : List Waiting) :
    Execution :=
  ⟨{ run.db with contents := run.db.put name entries }, waiting⟩

def Execution.placed (run : Execution) (name : Identifier) (row : Row) : List Waiting :=
  run.waiting.dropWhile (·.isRoomFor name row)

def Execution.write (run : Execution) : RowWrite → Option Execution
  | .insert name row => do
    let table ← run.db.table name
    guard (row.Of table.schema)
    let written ← insert table.clash .abort (run.db.contents name) row
    pure (run.put name written.entries
      ({ table := table.schema, operation := .insert, row } :: run.placed name row))
  | .update name old row namesKey => do
    let table ← run.db.table name
    guard (old ∈ run.db.contents name ∧ row.Of table.schema)
    -- the guard trigger on the key
    guard !(decide (name ∈ run.db.captured) && namesKey && !table.sameKey old.row row)
    let written ← change table.clash .abort (run.db.contents name) old row
    pure (run.put name written.entries
      ({ table := table.schema, operation := .update, row } :: run.placed name row))
  | .delete name old => do
    let table ← run.db.table name
    guard (old ∈ run.db.contents name)
    pure (run.put name ((run.db.contents name).filter (·.id ≠ old.id))
      ({ table := table.schema, operation := .delete, row := old.row } :: run.waiting))
  | .displace name old new => do
    let table ← run.db.table name
    guard (old ∈ run.db.contents name && !run.db.recursiveTriggers)
    pure (run.put name ((run.db.contents name).filter (·.id ≠ old.id))
      ({ table := table.schema, operation := .delete, row := old.row, room := some new } :: run.waiting))

/-- The innermost row, if it waits for its trigger, and those behind which it was written. -/
def Execution.innermost (run : Execution) : Option (Waiting × List Waiting) :=
  match run.waiting with
  | [] => none
  | w :: outer => if w.room = none then some (w, outer) else none

section Writes
variable (doubles : Doubles) (context : RequestContext)

def Database.log (db : Database) (w : Waiting) : Database :=
  if w.table.name ∈ db.captured then
    { db with sync := db.sync.capture doubles context w.table w.operation w.row }
  else db

def Execution.step (run : Execution) : RowEvent → Option Execution
  | .write write => run.write write
  | .fire => run.innermost.map fun (w, outer) => ⟨run.db.log doubles context w, outer⟩
  | .ignore => run.innermost.map fun (_, outer) => ⟨run.db, outer⟩

def Execution.steps : Execution → List RowEvent → Option Execution
  | run, [] => some run
  | run, event :: events => do
    let next ← run.step doubles context event
    next.steps events

/-- The row writes of a statement, until nothing waits. -/
def Database.writeRows (db : Database) (events : List RowEvent) : Option Database := do
  let run ← Execution.steps doubles context ⟨db, []⟩ events
  guard run.waiting.isEmpty
  pure run.db

end Writes

namespace Database

def isCreatable (db : Database) (name : Identifier) : Bool :=
  !name.isInternal && !eqIgnoreAsciiCase (name.value.take 7) "sqlite_".toList &&
    !db.tables.any fun table => eqIgnoreAsciiCase table.schema.name.value name.value

def hasDistinctColumns (table : PhysicalTable) : Bool :=
  decide (table.schema.columns.map ColumnSchema.name).Nodup

/-- The effect of a schema statement, while no triggers are installed. -/
def ddl (doubles : Doubles) (db : Database) : CaptureStep → Option Database
  | .createTable table => do
    guard (db.isCreatable table.schema.name && !table.schema.isProtected && hasDistinctColumns table)
    pure { db with
      tables := db.tables ++ [table]
      contents := db.put table.schema.name [] }
  | .createTemporary name => do
    guard (!name.isInternal)
    pure { db with temporary := db.temporary ++ [name] }
  | .dropTemporary name => some { db with temporary := db.temporary.erase name }
  | .dropTable name cascades => do
    let table ← db.table name
    guard (!table.schema.isProtected)
    let db ← db.writeRows doubles ⟨"", none⟩ cascades
    pure { db with
      tables := db.tables.filter (·.schema.name ≠ name)
      contents := db.put name [] }
  | .renameTable name newName => do
    let table ← db.table name
    guard (!table.schema.isProtected && db.isCreatable newName)
    let renamed := { table with schema := { table.schema with name := newName } }
    let db' := { db with contents := db.put name [] }
    pure { db with
      tables := db.tables.filter (·.schema.name ≠ name) ++ [renamed]
      contents := db'.put newName (db.contents name) }
  | .alterTable altered convert => do
    let table ← db.table altered.schema.name
    let contents := (db.contents altered.schema.name).map fun entry => ⟨entry.id, convert entry.row⟩
    guard (!table.schema.isProtected && !altered.schema.isProtected && hasDistinctColumns altered)
    -- no alteration adds a key to a table or takes it away
    guard ((keyColumns altered.schema).isEmpty = (keyColumns table.schema).isEmpty)
    guard (∀ entry ∈ contents, entry.row.Of altered.schema)
    pure { db with
      tables := db.tables.filter (·.schema.name ≠ altered.schema.name) ++ [altered]
      contents := db.put altered.schema.name contents }
  | _ => some db

def applyRls (db : Database) (statement : RlsStatement) : Option Database :=
  match db.catalog.apply db.schemaSnapshot statement with
  | (.ok (), catalog) =>
    match compile Writer.sql { db with catalog }.schemaSnapshot catalog with
    | .ok _ => some (db.migrate catalog)
    | .error _ => none
  | (.error _, _) => none

def perform (doubles : Doubles) (db : Database) : CaptureStep → Database
  | .rls statement => (db.applyRls statement).getD db
  | .refresh => db.refreshChangeCapture
  | .pragma recursiveTriggers => { db with recursiveTriggers }
  | .write context events => (db.writeRows doubles context events).getD db
  | step => ((db.suspendChangeCapture.ddl doubles step).map refreshChangeCapture).getD db

end Database

end Ffdb.Runtime
