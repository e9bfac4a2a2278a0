import Ffdb.Rls.Compile
import Ffdb.Runtime.Session

/-! The authorizer: SQLite asks it about every action that a statement is compiled to, with the
innermost view or trigger that the action is for. -/
namespace Ffdb.Runtime
open Sql Rls Text

inductive ObjectKind where
  | table
  | view
  | trigger
  | index
  deriving DecidableEq

/-- What SQLite asks about. Objects are created and dropped in the file or as temporary ones;
triggers and indexes come with their tables. -/
inductive AuthAction where
  | create (kind : ObjectKind) (temporary : Bool) (name table : List Char)
  | drop (kind : ObjectKind) (temporary : Bool) (name table : List Char)
  | createVtable (table moduleName : List Char)
  | dropVtable (table moduleName : List Char)
  | alterTable (table : List Char)
  | read (table column : List Char)
  | insert (table : List Char)
  | update (table column : List Char)
  | delete (table : List Char)
  | select
  | function (name : List Char)
  | pragma (name : List Char) (value : Option (List Char))
  | attach
  | detach
  | analyze (table : List Char)
  | reindex (index : List Char)
  | transaction
  | savepoint
  | recursive
  deriving DecidableEq

structure ContextState where
  active : Option ExecutionMode
  internalDepth : Nat
  publicAuthDepth : Nat
  approvedSources : List (List Char)

namespace Authorizer

def isInternal (name : List Char) : Bool := Identifier.isInternalName name

def dangerousFunction (name : List Char) : Bool :=
  toAsciiLowercase name ∈ ["load_extension", "readfile", "writefile", "edit", "fts3_tokenizer", "zipfile",
    "shell_add_schema", "shell_module_schema"].map String.toList

def sqliteSchemaName (name : List Char) : Bool :=
  eqIgnoreAsciiCase name "sqlite_schema".toList || eqIgnoreAsciiCase name "sqlite_master".toList

def isPublicAuthImplementation (name : List Char) : Bool :=
  toAsciiLowercase name ∈ ["__ffdb_auth_uid", "__ffdb_auth_role", "__ffdb_auth_jwt",
    "__ffdb_auth_claim"].map String.toList

def approvedGeneratedSource (source : List Char) (approvedSources : List (List Char)) : Bool :=
  toAsciiLowercase source ∈ approvedSources

def isProtected (approvedSources : List (List Char)) (name : List Char) : Bool :=
  isInternal name || toAsciiLowercase name ∈ approvedSources

/-- A table or a view by its name; a trigger or an index by its name or its table. -/
def createsOrDropsProtected (approvedSources : List (List Char)) : AuthAction → Bool
  | .create kind _ name table | .drop kind _ name table =>
    match kind with
    | .table | .view => isProtected approvedSources name
    | .trigger | .index => isProtected approvedSources name || isProtected approvedSources table
  | .createVtable table _ | .dropVtable table _ | .alterTable table => isProtected approvedSources table
  | _ => false

def isSchemaAction : AuthAction → Bool
  | .create .. | .drop .. | .createVtable .. | .dropVtable .. | .alterTable _ => true
  | _ => false

def accessed : AuthAction → Option (List Char)
  | .read table _ | .insert table | .delete table | .update table _ => some table
  | _ => none

def authorizePragma (mode : ExecutionMode) (name : List Char) (value : Option (List Char)) : Bool :=
  let name := toAsciiLowercase name
  if name ∈ ["writable_schema", "trusted_schema", "temp_store_directory", "data_store_directory", "load_extension",
      "journal_mode", "locking_mode"].map String.toList then false
  else
    match mode with
    | .endUser => false
    | .developer =>
      value.isNone || name ∈ ["foreign_keys", "defer_foreign_keys", "recursive_triggers"].map String.toList

def authorizeAccess (mode : ExecutionMode) (table : List Char) : Bool :=
  if sqliteSchemaName table then mode = .developer else true

def authorize (state : ContextState) (action : AuthAction) (source : Option (List Char)) : Bool :=
  if state.internalDepth > 0 then true
  else
    match state.active with
    | none => false
    | some mode =>
      let approved := source.any (approvedGeneratedSource · state.approvedSources)
      match action with
      | .attach | .detach => false
      | .function name =>
        if dangerousFunction name then false
        else if isInternal name then
          (state.publicAuthDepth > 0 && source.isNone && isPublicAuthImplementation name) || approved
        else true
      | action =>
        if createsOrDropsProtected state.approvedSources action then false
        else
          match accessed action with
          | some table => if isInternal table then approved else authorizeAccess mode table
          | none =>
            match action with
            | .pragma name value => authorizePragma mode name value
            | .createVtable _ moduleName => mode = .developer && eqIgnoreAsciiCase moduleName "fts5".toList
            | action => if isSchemaAction action then mode = .developer else true

end Authorizer
end Ffdb.Runtime
