import Ffdb.Runtime.Keys
import Ffdb.Runtime.View

/-! A project database: its tables and rows, the policy catalog, the capture triggers that are
installed and what they have written. -/
namespace Ffdb.Runtime
open Sql Rls Relation Text

structure MutationRow where
  subject : String
  clientId : String
  mutationId : String
  payloadHash : List UInt8
  sequence : Nat
  rowVersion : Nat

/-- Tables and rows are kept under their logical names, also where the rows lie in a backing
table; of temporary tables only the names. -/
structure Database where
  catalog : RlsCatalog := {}
  tables : List PhysicalTable := []
  contents : Identifier → Contents := fun _ => []
  captured : List Identifier := []
  recursiveTriggers : Bool := true
  sync : SyncTables := {}
  mutations : List MutationRow := []
  temporary : List Identifier := []

/-- `LIKE` with a pattern that ends in `%`: letters in either case, and `_` for any one
character. -/
def startsLike : List Char → List Char → Bool
  | [], _ => true
  | _ :: _, [] => false
  | p :: rest, c :: text => (p = '_' || p.toLower = c.toLower) && startsLike rest text

def isHiddenName (name : Identifier) : Bool :=
  startsLike "__ffdb_".toList name.value || startsLike "sqlite_".toList name.value

namespace Database

def table (db : Database) (name : Identifier) : Option PhysicalTable :=
  db.tables.find? (·.schema.name = name)

/-- The logical tables: ordinary ones by a filter on their names, protected ones by the
catalog. -/
def schemaSnapshot (db : Database) : SchemaSnapshot :=
  ⟨((db.tables.filter fun table =>
      if table.schema.isProtected then db.catalog.tables.contains table.schema.name
      else !isHiddenName table.schema.name).map PhysicalTable.schema).insertionSort
    fun a b => a.name.value ≤ b.name.value⟩

def put (db : Database) (name : Identifier) (contents : Contents) : Identifier → Contents :=
  fun other => if other = name then contents else db.contents other

end Database

variable (doubles : Doubles)

/-- What the row triggers of a table write for one effect. Rows that `REPLACE` displaces fire
the delete trigger only where triggers are recursive. -/
def captureEffect (context : RequestContext) (table : TableSchema) (recursive : Bool)
    (sync : SyncTables) : Effect Row → SyncTables
  | .insert row => sync.capture doubles context table .insert row
  | .update _ new => sync.capture doubles context table .update new
  | .delete row => sync.capture doubles context table .delete row
  | .displace row => if recursive then sync.capture doubles context table .delete row else sync

/-- The guard trigger on a key: an update that names it must not change it. -/
def changesKey (table : PhysicalTable) : Effect Row → Bool
  | .update old new => !table.sameKey old new
  | _ => false

/-- A write to one table with its row triggers, which may refuse it; nothing else is written
between a row and its triggers. -/
def Database.commit (db : Database) (context : RequestContext) (table : PhysicalTable)
    (namesKey : Bool) (written : Written Row) : Option Database :=
  let db' := { db with contents := db.put table.schema.name written.entries }
  if table.schema.name ∈ db.captured then
    if namesKey && written.effects.any (changesKey table) then none
    else some { db' with
      sync := written.effects.foldl
        (captureEffect doubles context table.schema db.recursiveTriggers) db.sync }
  else some db'

end Ffdb.Runtime
