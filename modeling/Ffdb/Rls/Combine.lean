import Ffdb.Lib.Formula
import Ffdb.Rls.Catalog

/-! The expressions that guard a table: its policies joined to one SQL text. The pieces
of the text are written through a parameter, so that the text itself, the same text with
its predicates left open and its tokens are built by one definition. -/
namespace Ffdb.Rls
open Sql Text

inductive Operation where
  | select
  | insert
  | update
  | delete
  deriving DecidableEq

inductive PredicatePurpose where
  | forUsing
  | forCheck
  deriving DecidableEq

structure Clause where
  policy : Policy
  purpose : PredicatePurpose
  predicate : Predicate
  deriving DecidableEq

/-- The clause that decides for a purpose: a check falls back on the other one. -/
def Policy.clause (policy : Policy) : PredicatePurpose → Option Clause
  | .forUsing => policy.usingClause.map fun predicate => ⟨policy, .forUsing, predicate⟩
  | .forCheck =>
    (policy.withCheck.map fun predicate => ⟨policy, .forCheck, predicate⟩).or
      (policy.usingClause.map fun predicate => ⟨policy, .forUsing, predicate⟩)

def quoteLiteral (value : List Char) : List Char :=
  apostrophe :: replaceWith apostrophe [apostrophe, apostrophe] value ++ [apostrophe]

/-- How generated SQL is written: the fixed text between the pieces, names, the literals
of roles and the predicates of policies. -/
structure Writer (β : Type) where
  literal : String → List β
  name : Identifier → List β
  role : RoleName → List β
  clause : Clause → List β

def Writer.sql : Writer Char where
  literal := String.toList
  name := Identifier.quoted
  role role := quoteLiteral role.name.value
  clause clause := clause.predicate.sqliteSql

def Writer.template : Writer (Char ⊕ Clause) where
  literal text := Formula.chars text.toList
  name identifier := Formula.chars identifier.quoted
  role role := Formula.chars (quoteLiteral role.name.value)
  clause clause := [.inr clause]

structure CombinedPredicates (β : Type) where
  usingSql : Option (List β)
  checkSql : Option (List β)

def CombinedPredicates.expression {β : Type} (predicates : CombinedPredicates β) :
    PredicatePurpose → Option (List β)
  | .forUsing => predicates.usingSql
  | .forCheck => predicates.checkSql

def applies (command : PolicyCommand) (operation : Operation) : Bool :=
  command = .all ||
    match command, operation with
    | .select, .select | .insert, .insert | .update, .update | .delete, .delete => true
    | _, _ => false

def operationUsesExisting (operation : Operation) : Bool :=
  operation = .select || operation = .update || operation = .delete

def operationChecksNew (operation : Operation) : Bool :=
  operation = .insert || operation = .update

def isPublic (role : RoleName) : Bool := eqIgnoreAsciiCase role.name.value "public".toList

section Writer
variable {β : Type} (w : Writer β)

def roleGuard (roles : List RoleName) : List β :=
  if roles.any isPublic then w.literal "1"
  else (w.literal " OR ").intercalate
    (roles.map fun role => w.literal "__ffdb_auth_role() = " ++ w.role role)

/-- A policy without the clause holds of every row. -/
def clauseSql (policy : Policy) (purpose : PredicatePurpose) : List β :=
  (policy.clause purpose).elim (w.literal "1") w.clause

def permissiveSql (purpose : PredicatePurpose) (policy : Policy) : List β :=
  w.literal "((" ++ roleGuard w policy.roles ++ w.literal ") AND (" ++
    clauseSql w policy purpose ++ w.literal "))"

def restrictiveSql (purpose : PredicatePurpose) (policy : Policy) : List β :=
  w.literal "((NOT (" ++ roleGuard w policy.roles ++ w.literal ")) OR (" ++
    clauseSql w policy purpose ++ w.literal "))"

def joinOr (items : List (List β)) (separator empty : String) : List β :=
  if items.isEmpty then w.literal empty else (w.literal separator).intercalate items

def combine (policies : List Policy) (purpose : PredicatePurpose) (forced : Bool) : List β :=
  let permissive := (policies.filter (·.mode = .permissive)).map (permissiveSql w purpose)
  let restrictive := (policies.filter (·.mode = .restrictive)).map (restrictiveSql w purpose)
  let policyResult := w.literal "((" ++ joinOr w permissive " OR " "0" ++ w.literal ") AND (" ++
    joinOr w restrictive " AND " "1" ++ w.literal "))"
  if forced then policyResult
  else w.literal "(__ffdb_is_developer() OR " ++ policyResult ++ w.literal ")"

end Writer

def TablePolicies.values (metadata : TablePolicies) : List Policy :=
  metadata.policies.toList.map Prod.snd

/-- The source's result leaves room for an error, which it never returns. -/
def RlsCatalog.combinedPredicates {β : Type} (w : Writer β) (catalog : RlsCatalog)
    (table : Identifier) (operation : Operation) : CombinedPredicates β :=
  let metadata := catalog.metadata table
  let expression (purpose : PredicatePurpose) : List β :=
    if metadata.enabled then
      combine w (metadata.values.filter (applies ·.command operation)) purpose metadata.forced
    else w.literal "1"
  { usingSql := if operationUsesExisting operation then some (expression .forUsing) else none
    checkSql := if operationChecksNew operation then some (expression .forCheck) else none }

end Ffdb.Rls
