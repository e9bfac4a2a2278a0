import Ffdb.Lib.Relation
import Ffdb.Runtime.Keys
import Ffdb.Runtime.Value
import Ffdb.Rls.Algebra

/-! A protected table: the view that its policies filter, and the triggers that write through
it. The conflict clause of a statement on the view governs what its triggers write. -/
namespace Ffdb.Runtime
open Sql Rls Relation

abbrev Contents := List (Entry Row)

instance entry_lawful : LawfulBEq (Entry Row) := inferInstance

/-- A physical table. Beyond its columns: its UNIQUE constraints besides the key, what the
collation of a column tells apart, and the row that SQLite makes of the values it is given,
with affinities applied, generated columns computed and keys numbered, if no constraint on
the single row fails. -/
structure PhysicalTable where
  schema : TableSchema
  uniques : List (List Identifier)
  canonical : Identifier → SqlValue → SqlValue
  storeNew : Conflict → Contents → Row → Option Row
  storeChange : Conflict → Row → Row → Option Row

namespace PhysicalTable

def agree (table : PhysicalTable) (columns : List Identifier) (a b : Row) : Bool :=
  columns.all fun column =>
    table.canonical column (a.value column) = table.canonical column (b.value column)

/-- Two rows that a constraint keeps apart; NULL is never equal to another. -/
def clash (table : PhysicalTable) (a b : Row) : Bool :=
  (keyColumns table.schema :: table.uniques).any fun columns =>
    !columns.isEmpty && columns.all (fun column => a.value column ≠ .null ∧ b.value column ≠ .null) &&
      table.agree columns a b

def sameKey (table : PhysicalTable) (a b : Row) : Bool := table.agree (keyColumns table.schema) a b

def writable (table : PhysicalTable) (row : Row) : Row :=
  (table.schema.columns.filter (!·.generated)).map fun column => (column.name, row.value column.name)

end PhysicalTable

structure Caller where
  role : List Char
  developer : Bool

/-- What decides about rows: the policies, the caller and what the predicates say of a row
of the table as it stands. -/
structure Policies where
  catalog : RlsCatalog
  caller : Caller
  truth : Contents → Clause → Row → Truth

/-- The expression for an operation is true of a row; where there is none it is `0`. -/
def Policies.passes (policies : Policies) (table : Identifier) (contents : Contents)
    (operation : Operation) (purpose : PredicatePurpose) (row : Row) : Bool :=
  match (policies.catalog.combinedPredicates Writer.template table operation).expression purpose with
  | some template =>
    Formula.truthOf (session policies.caller.role policies.caller.developer)
      (policies.truth contents · row) template = some .true
  | none => false

section View
variable (table : PhysicalTable) (policies : Policies)

def visible (contents : Contents) : Contents :=
  contents.filter (policies.passes table.schema.name contents .select .forUsing ·.row)

def insertTrigger (conflict : Conflict) (contents : Contents) (new : Row) : Option (Written Row) := do
  guard (policies.passes table.schema.name contents .insert .forCheck new)
  let row ← table.storeNew conflict contents (table.writable new)
  insert table.clash conflict contents row

/-- One row of the `UPDATE` that the trigger makes; it may have been displaced meanwhile. -/
def updateOne (conflict : Conflict) (new : Row) (contents : Contents) (target : Entry Row) :
    Option (Written Row) :=
  if target ∈ contents then do
    let row ← table.storeChange conflict target.row (table.writable new)
    change table.clash conflict contents target row
  else some ⟨contents, []⟩

def updateTrigger (conflict : Conflict) (contents : Contents) (old new : Row) :
    Option (Written Row) := do
  guard (policies.passes table.schema.name contents .update .forUsing old)
  guard (policies.passes table.schema.name contents .update .forCheck new)
  forEach (updateOne table conflict new) contents (contents.filter (table.sameKey old ·.row))

def deleteTrigger (contents : Contents) (old : Row) : Option (Written Row) := do
  guard (policies.passes table.schema.name contents .delete .forUsing old)
  pure (delete contents (table.sameKey old))

/-- A statement on the view: the rows it inserts, or which of the rows it shows are changed
and how. -/
inductive ViewStatement where
  | insert (conflict : Conflict) (rows : List Row)
  | update (conflict : Conflict) (selected : Row → Bool) (assign : Row → Row)
  | delete (selected : Row → Bool)

def touched (contents : Contents) (selected : Row → Bool) : Contents :=
  (visible table policies contents).filter (selected ·.row)

/-- A trigger fires for every row; if one fails, the statement does. -/
def executeView (contents : Contents) : ViewStatement → Option (Written Row)
  | .insert conflict rows => forEach (insertTrigger table policies conflict) contents rows
  | .update conflict selected assign =>
    forEach (fun now old => updateTrigger table policies conflict now old.row (assign old.row)) contents
      (touched table policies contents selected)
  | .delete selected =>
    forEach (fun now old => deleteTrigger table policies now old.row) contents
      (touched table policies contents selected)

variable {table policies}

end View

def rowId : Identifier := ⟨"id".toList, idColumn.nonempty, idColumn.bounded, idColumn.printable⟩

def ownerId : Identifier := ⟨"owner_id".toList, by decide, by decide, by decide⟩

def documentsTable : PhysicalTable where
  schema := ⟨documents, [⟨rowId, some 1, false⟩, ⟨ownerId, none, false⟩], true⟩
  uniques := []
  canonical _ value := value
  storeNew _ _ row := some row
  storeChange _ old row := if row.value rowId = old.value rowId then some row else none

def documentRow (id : Int64) (owner : String) : Row := [(rowId, .integer id), (ownerId, .text owner)]

end Ffdb.Runtime
