import Ffdb.Rls.Compile

/-! The statements that put policies in force, as the tokens that they must have: a name is one
token, a role is one, and the predicates are left open between parentheses. -/
namespace Ffdb.Rls
open Sql

abbrev Piece := TokenKind ⊕ Clause

def keywords (words : List String) : List Piece := words.map fun word => .inl (.word word.toList)

def symbol (c : Char) : List Piece := [.inl (.symbol c)]

def other : List Piece := [.inl .other]

def quotedName (name : Identifier) : List Piece := [.inl (.identifier name.value)]

def quotedText (value : List Char) : List Piece := [.inl (.stringLiteral value)]

def parenthesised (inner : List Piece) : List Piece := symbol '(' ++ inner ++ symbol ')'

def callOf (function : String) : List Piece := keywords [function] ++ parenthesised []

def listOf (items : List (List Piece)) : List Piece := (symbol ',').intercalate items

def joinedBy (word : String) (items : List (List Piece)) : List Piece := (keywords [word]).intercalate items

section Expressions

def rolesTemplate (roles : List RoleName) : List Piece :=
  if roles.any isPublic then other
  else joinedBy "OR" (roles.map fun role => callOf "__ffdb_auth_role" ++ other ++ quotedText role.name.value)

def predicateTemplate (policy : Policy) (purpose : PredicatePurpose) : List Piece :=
  match policy.clause purpose with
  | some clause => [.inr clause]
  | none => other

def permissiveTemplate (purpose : PredicatePurpose) (policy : Policy) : List Piece :=
  parenthesised (parenthesised (rolesTemplate policy.roles) ++ keywords ["AND"] ++
    parenthesised (predicateTemplate policy purpose))

def restrictiveTemplate (purpose : PredicatePurpose) (policy : Policy) : List Piece :=
  parenthesised (parenthesised (keywords ["NOT"] ++ parenthesised (rolesTemplate policy.roles)) ++
    keywords ["OR"] ++ parenthesised (predicateTemplate policy purpose))

def someOf (word : String) (items : List (List Piece)) : List Piece :=
  if items.isEmpty then other else joinedBy word items

def policiesTemplate (policies : List Policy) (purpose : PredicatePurpose) (forced : Bool) : List Piece :=
  let permissive := (policies.filter (·.mode = .permissive)).map (permissiveTemplate purpose)
  let restrictive := (policies.filter (·.mode = .restrictive)).map (restrictiveTemplate purpose)
  let result := parenthesised (parenthesised (someOf "OR" permissive) ++ keywords ["AND"] ++
    parenthesised (someOf "AND" restrictive))
  if forced then result
  else parenthesised (callOf "__ffdb_is_developer" ++ keywords ["OR"] ++ result)

def accessTemplate (catalog : RlsCatalog) (table : Identifier) (operation : Operation)
    (purpose : PredicatePurpose) : List Piece :=
  let metadata := catalog.metadata table
  if metadata.enabled then
    policiesTemplate (metadata.values.filter (applies ·.command operation)) purpose metadata.forced
  else other

end Expressions

section Statements
variable (table : TableSchema) (catalog : RlsCatalog) (backing trigger : Identifier)

def columnsTemplate (columns : List ColumnSchema) (each : List Piece → List Piece) : List (List Piece) :=
  columns.map fun column => each (quotedName column.name)

def ofRow (row : String) (column : List Piece) : List Piece := keywords [row] ++ symbol '.' ++ column

def writableColumns : List ColumnSchema := table.columns.filter (!·.generated)

def keyTemplate : List Piece :=
  joinedBy "AND" (columnsTemplate (table.columns.filter (·.primaryKeyOrdinal.isSome)) fun column =>
    column ++ keywords ["IS"] ++ ofRow "OLD" column)

def guardTemplate (row : String) (expression : List Piece) (failure : String) : List Piece :=
  let candidate := keywords ["SELECT"] ++ listOf (columnsTemplate table.columns fun column =>
    ofRow row column ++ keywords ["AS"] ++ column)
  keywords ["SELECT", "CASE", "WHEN", "NOT", "EXISTS"] ++
    parenthesised (keywords ["SELECT"] ++ other ++ keywords ["FROM"] ++ parenthesised candidate ++
      keywords ["AS"] ++ quotedName table.name ++ keywords ["WHERE"] ++ parenthesised expression) ++
    keywords ["THEN", "RAISE"] ++
    parenthesised (keywords ["ABORT"] ++ symbol ',' ++ quotedText failure.toList) ++
    keywords ["END"] ++ symbol ';'

def triggerTemplate (event : String) (body : List Piece) : List Piece :=
  keywords ["CREATE", "TRIGGER"] ++ quotedName trigger ++ keywords ["INSTEAD", "OF", event, "ON"] ++
    quotedName table.name ++ keywords ["BEGIN"] ++ body ++ symbol ';' ++ keywords ["END"]

def viewTemplate : List Piece :=
  keywords ["CREATE", "VIEW"] ++ quotedName table.name ++ keywords ["AS", "SELECT"] ++
    listOf (columnsTemplate table.columns id) ++ keywords ["FROM"] ++ quotedName backing ++
    keywords ["AS"] ++ quotedName table.name ++ keywords ["WHERE"] ++
    parenthesised (accessTemplate catalog table.name .select .forUsing)

def insertTemplate : List Piece :=
  triggerTemplate table trigger "INSERT"
    (guardTemplate table "NEW" (accessTemplate catalog table.name .insert .forCheck) "rls.with_check_violation" ++
      keywords ["INSERT", "INTO"] ++ quotedName backing ++
      parenthesised (listOf (columnsTemplate (writableColumns table) id)) ++ keywords ["VALUES"] ++
      parenthesised (listOf (columnsTemplate (writableColumns table) (ofRow "NEW"))))

def updateTemplate : List Piece :=
  triggerTemplate table trigger "UPDATE"
    (guardTemplate table "OLD" (accessTemplate catalog table.name .update .forUsing) "rls.using_violation" ++
      guardTemplate table "NEW" (accessTemplate catalog table.name .update .forCheck) "rls.with_check_violation" ++
      keywords ["UPDATE"] ++ quotedName backing ++ keywords ["SET"] ++
      listOf (columnsTemplate (writableColumns table) fun column => column ++ other ++ ofRow "NEW" column) ++
      keywords ["WHERE"] ++ keyTemplate table)

def deleteTemplate : List Piece :=
  triggerTemplate table trigger "DELETE"
    (guardTemplate table "OLD" (accessTemplate catalog table.name .delete .forUsing) "rls.using_violation" ++
      keywords ["DELETE", "FROM"] ++ quotedName backing ++ keywords ["WHERE"] ++ keyTemplate table)

def dropTemplate (kind : String) (name : Identifier) : List Piece :=
  keywords ["DROP", kind, "IF", "EXISTS"] ++ quotedName name

def statementTemplates (insert update delete : Identifier) : List (List Piece) :=
  (if table.isProtected then []
    else [keywords ["ALTER", "TABLE"] ++ quotedName table.name ++ keywords ["RENAME", "TO"] ++ quotedName backing]) ++
  [dropTemplate "TRIGGER" insert, dropTemplate "TRIGGER" update, dropTemplate "TRIGGER" delete,
    dropTemplate "VIEW" table.name,
    viewTemplate table catalog backing, insertTemplate table catalog backing insert,
    updateTemplate table catalog backing update, deleteTemplate table catalog backing delete]

end Statements

end Ffdb.Rls
