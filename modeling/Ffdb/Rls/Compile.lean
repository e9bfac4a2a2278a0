import Ffdb.Lib.Sha256
import Ffdb.Rls.Combine

/-! The SQL that puts policies in force: the view, its triggers, and the statements that make
room for them. It is written through the same parameter as the expressions it holds. -/
namespace Ffdb.Rls
open Sql Text Fallible

def generatedIdentifier (kind : String) (table : Identifier) : Except RlsCompileError Identifier :=
  let encoded := hex (Sha256.digest (String.ofList table.value).toByteArray.data.toList)
  (Identifier.new ("__ffdb_".toList ++ kind.toList ++ ['_'] ++ encoded)).mapError
    fun _ => .internalIdentifier

def backingTableName (table : Identifier) : Except RlsCompileError Identifier :=
  generatedIdentifier "data" table

def generatedSourceNames (table : Identifier) : Except RlsCompileError (List Identifier) := do
  let insert ← generatedIdentifier "insert" table
  let update ← generatedIdentifier "update" table
  let delete ← generatedIdentifier "delete" table
  pure [table, insert, update, delete]

structure CompiledTablePlan (β : Type) where
  table : Identifier
  backingTable : Identifier
  generatedSources : List Identifier
  renameSql : Option (List β)
  dropGeneratedSql : List (List β)
  createGeneratedSql : List (List β)

def CompiledTablePlan.statements {β : Type} (plan : CompiledTablePlan β) : List (List β) :=
  plan.renameSql.toList ++ plan.dropGeneratedSql ++ plan.createGeneratedSql

section Writer
variable {β : Type} (w : Writer β)

def candidateRow (table : TableSchema) (rowAlias : String) : List β :=
  (w.literal ", ").intercalate (table.columns.map fun column =>
    w.literal (rowAlias ++ ".") ++ w.name column.name ++ w.literal " AS " ++ w.name column.name)

def nameList (columns : List ColumnSchema) : List β :=
  (w.literal ", ").intercalate (columns.map fun column => w.name column.name)

def newValues (columns : List ColumnSchema) : List β :=
  (w.literal ", ").intercalate (columns.map fun column => w.literal "NEW." ++ w.name column.name)

def assignments (columns : List ColumnSchema) : List β :=
  (w.literal ", ").intercalate (columns.map fun column =>
    w.name column.name ++ w.literal " = NEW." ++ w.name column.name)

def keyMatch (columns : List ColumnSchema) : List β :=
  (w.literal " AND ").intercalate (columns.map fun column =>
    w.name column.name ++ w.literal " IS OLD." ++ w.name column.name)

/-- The statement of a trigger that fails unless an expression is true of the row. -/
def raiseUnless (table : TableSchema) (rowAlias : String) (expression : List β) (failure : String) :
    List β :=
  w.literal "SELECT CASE WHEN NOT EXISTS (SELECT 1 FROM (SELECT " ++ candidateRow w table rowAlias ++
    w.literal ") AS " ++ w.name table.name ++ w.literal " WHERE (" ++ expression ++ w.literal failure

def viewSql (table : TableSchema) (backingTable : Identifier) (selectUsing : List β) : List β :=
  w.literal "CREATE VIEW " ++ w.name table.name ++ w.literal " AS SELECT " ++
    nameList w table.columns ++ w.literal " FROM " ++ w.name backingTable ++ w.literal " AS " ++
    w.name table.name ++ w.literal " WHERE (" ++ selectUsing ++ w.literal ")"

def insertSql (table : TableSchema) (backingTable trigger : Identifier) (insertCheck : List β) : List β :=
  let writable := table.columns.filter (!·.generated)
  w.literal "CREATE TRIGGER " ++ w.name trigger ++ w.literal " INSTEAD OF INSERT ON " ++
    w.name table.name ++ w.literal " BEGIN " ++
    raiseUnless w table "NEW" insertCheck ")) THEN RAISE(ABORT, 'rls.with_check_violation') END; " ++
    w.literal "INSERT INTO " ++ w.name backingTable ++ w.literal " (" ++ nameList w writable ++
    w.literal ") VALUES (" ++ newValues w writable ++ w.literal "); END"

def updateSql (table : TableSchema) (backingTable trigger : Identifier)
    (updateUsing updateCheck : List β) : List β :=
  let writable := table.columns.filter (!·.generated)
  let primaryKey := table.columns.filter (·.primaryKeyOrdinal.isSome)
  w.literal "CREATE TRIGGER " ++ w.name trigger ++ w.literal " INSTEAD OF UPDATE ON " ++
    w.name table.name ++ w.literal " BEGIN " ++
    raiseUnless w table "OLD" updateUsing ")) THEN RAISE(ABORT, 'rls.using_violation') END; " ++
    raiseUnless w table "NEW" updateCheck ")) THEN RAISE(ABORT, 'rls.with_check_violation') END; " ++
    w.literal "UPDATE " ++ w.name backingTable ++ w.literal " SET " ++ assignments w writable ++
    w.literal " WHERE " ++ keyMatch w primaryKey ++ w.literal "; END"

def deleteSql (table : TableSchema) (backingTable trigger : Identifier) (deleteUsing : List β) : List β :=
  let primaryKey := table.columns.filter (·.primaryKeyOrdinal.isSome)
  w.literal "CREATE TRIGGER " ++ w.name trigger ++ w.literal " INSTEAD OF DELETE ON " ++
    w.name table.name ++ w.literal " BEGIN " ++
    raiseUnless w table "OLD" deleteUsing ")) THEN RAISE(ABORT, 'rls.using_violation') END; " ++
    w.literal "DELETE FROM " ++ w.name backingTable ++ w.literal " WHERE " ++ keyMatch w primaryKey ++
    w.literal "; END"

def RlsCatalog.expression (catalog : RlsCatalog) (table : Identifier) (operation : Operation)
    (purpose : PredicatePurpose) : List β :=
  ((catalog.combinedPredicates w table operation).expression purpose).getD (w.literal "0")

def compileTable (table : TableSchema) (catalog : RlsCatalog) :
    Except RlsCompileError (CompiledTablePlan β) := do
  require (!table.columns.isEmpty) (.missingColumns table.name.value)
  require (table.columns.any (·.primaryKeyOrdinal.isSome)) (.missingPrimaryKey table.name.value)
  let backingTable ← backingTableName table.name
  let triggerInsert ← generatedIdentifier "insert" table.name
  let triggerUpdate ← generatedIdentifier "update" table.name
  let triggerDelete ← generatedIdentifier "delete" table.name
  let generatedSources ← generatedSourceNames table.name
  let expression := catalog.expression w table.name
  pure
    { table := table.name
      backingTable
      generatedSources
      renameSql :=
        if table.isProtected then none
        else some (w.literal "ALTER TABLE " ++ w.name table.name ++ w.literal " RENAME TO " ++
          w.name backingTable)
      dropGeneratedSql := [
        w.literal "DROP TRIGGER IF EXISTS " ++ w.name triggerInsert,
        w.literal "DROP TRIGGER IF EXISTS " ++ w.name triggerUpdate,
        w.literal "DROP TRIGGER IF EXISTS " ++ w.name triggerDelete,
        w.literal "DROP VIEW IF EXISTS " ++ w.name table.name]
      createGeneratedSql := [
        viewSql w table backingTable (expression .select .forUsing),
        insertSql w table backingTable triggerInsert (expression .insert .forCheck),
        updateSql w table backingTable triggerUpdate (expression .update .forUsing)
          (expression .update .forCheck),
        deleteSql w table backingTable triggerDelete (expression .delete .forUsing)] }

/-- The plan for every table that policies are or were enabled for. -/
def compile (schema : SchemaSnapshot) (catalog : RlsCatalog) :
    Except RlsCompileError (List (CompiledTablePlan β)) := do
  let plans ← catalog.tables.toList.mapM fun (name, metadata) => do
    let table ← orError (schema.table name) (.unknownTable name.value)
    if !metadata.enabled && !table.isProtected then pure none
    else
      let plan ← compileTable w table catalog
      pure (some plan)
  pure (plans.filterMap id)

end Writer

end Ffdb.Rls
