import Ffdb.Sql.Policy
import Ffdb.Lib.Machine
import Std.Data.ExtTreeMap

/-! The catalog of row-level-security metadata and the statements that change it. -/
namespace Ffdb.Rls
open Sql

structure ColumnSchema where
  name : Identifier
  primaryKeyOrdinal : Option Nat
  generated : Bool

structure TableSchema where
  name : Identifier
  columns : List ColumnSchema
  isProtected : Bool

structure SchemaSnapshot where
  tables : List TableSchema

def SchemaSnapshot.table (schema : SchemaSnapshot) (name : Identifier) : Option TableSchema :=
  schema.tables.find? (·.name = name)

structure Policy where
  name : Identifier
  mode : PolicyMode
  command : PolicyCommand
  roles : List RoleName
  usingClause : Option Predicate
  withCheck : Option Predicate
  deriving DecidableEq

def Policy.ofCreate (statement : CreatePolicy) : Policy :=
  ⟨statement.name, statement.mode, statement.command, statement.roles, statement.usingClause,
    statement.withCheck⟩

structure TablePolicies where
  enabled : Bool := false
  forced : Bool := false
  policies : Std.ExtTreeMap Identifier Policy := ∅

structure RlsCatalog where
  tables : Std.ExtTreeMap Identifier TablePolicies := ∅

inductive RlsCompileError where
  | unknownTable (table : List Char)
  | duplicatePolicy (table policy : List Char)
  | unknownPolicy (table policy : List Char)
  | missingPrimaryKey (table : List Char)
  | missingColumns (table : List Char)
  | internalIdentifier
  | incompatibleAlter (clause : String)
  deriving DecidableEq

namespace RlsCatalog

def metadata (catalog : RlsCatalog) (table : Identifier) : TablePolicies :=
  catalog.tables[table]?.getD {}

def put (catalog : RlsCatalog) (table : Identifier) (metadata : TablePolicies) : RlsCatalog :=
  ⟨catalog.tables.insert table metadata⟩

end RlsCatalog

abbrev Outcome := Except RlsCompileError Unit × TablePolicies

namespace TablePolicies

def alterTable (metadata : TablePolicies) : AlterTableRls → TablePolicies
  | .enable => { metadata with enabled := true }
  | .disable => { metadata with enabled := false }
  | .force => { metadata with forced := true }
  | .noForce => { metadata with forced := false }

def createPolicy (metadata : TablePolicies) (statement : CreatePolicy) : Outcome :=
  if metadata.policies.contains statement.name then
    (.error (.duplicatePolicy statement.table.value statement.name.value), metadata)
  else
    (.ok (), { metadata with
      policies := metadata.policies.insert statement.name (.ofCreate statement) })

def altered (policy : Policy) (statement : AlterPolicy) : Policy :=
  { policy with
    name := statement.renameTo.getD policy.name
    roles := statement.roles.getD policy.roles
    usingClause := statement.usingClause.or policy.usingClause
    withCheck := statement.withCheck.or policy.withCheck }

/-- The policy is taken out first: an incompatible clause leaves the table without it, and
a name that is taken is overwritten. -/
def alterPolicy (metadata : TablePolicies) (statement : AlterPolicy) : Outcome :=
  match metadata.policies[statement.name]? with
  | none => (.error (.unknownPolicy statement.table.value statement.name.value), metadata)
  | some policy =>
    let policies := metadata.policies.erase statement.name
    let removed := { metadata with policies }
    if statement.usingClause.isSome && decide (policy.command = .insert) then
      (.error (.incompatibleAlter "USING"), removed)
    else if statement.withCheck.isSome &&
        (decide (policy.command = .select) || decide (policy.command = .delete)) then
      (.error (.incompatibleAlter "WITH CHECK"), removed)
    else
      let policy := altered policy statement
      let result :=
        if policies.contains policy.name then
          .error (.duplicatePolicy statement.table.value policy.name.value)
        else .ok ()
      (result, { metadata with policies := policies.insert policy.name policy })

def dropPolicy (metadata : TablePolicies) (statement : DropPolicy) : Outcome :=
  if metadata.policies.contains statement.name || statement.ifExists then
    (.ok (), { metadata with policies := metadata.policies.erase statement.name })
  else (.error (.unknownPolicy statement.table.value statement.name.value), metadata)

end TablePolicies

namespace RlsCatalog

def change (catalog : RlsCatalog) (schema : SchemaSnapshot) (table : Identifier)
    (f : TablePolicies → Outcome) : Except RlsCompileError Unit × RlsCatalog :=
  if (schema.table table).isSome then
    let (result, metadata) := f (catalog.metadata table)
    (result, catalog.put table metadata)
  else (.error (.unknownTable table.value), catalog)

def apply (catalog : RlsCatalog) (schema : SchemaSnapshot) :
    RlsStatement → Except RlsCompileError Unit × RlsCatalog
  | .alterTable table action => catalog.change schema table fun m => (.ok (), m.alterTable action)
  | .createPolicy statement => catalog.change schema statement.table (·.createPolicy statement)
  | .alterPolicy statement => catalog.change schema statement.table (·.alterPolicy statement)
  | .dropPolicy statement => catalog.change schema statement.table (·.dropPolicy statement)

/-- One statement as text, under the schema of its moment. A text that does not parse
changes nothing. -/
def execute (catalog : RlsCatalog) (input : SchemaSnapshot × List Char) : RlsCatalog :=
  match parseRlsStatement input.2 with
  | .ok statement => (catalog.apply input.1 statement).2
  | .error _ => catalog

/-- The catalog after any number of statements, whether they succeeded or not. -/
def after (inputs : List (SchemaSnapshot × List Char)) : RlsCatalog :=
  Machine.run execute {} inputs

end RlsCatalog

structure Policy.WellFormed (policy : Policy) : Prop where
  roles : policy.roles ≠ []
  clauses : ClausesAllowed policy.command policy.usingClause policy.withCheck

def TablePolicies.WellFormed (metadata : TablePolicies) : Prop :=
  ∀ (name : Identifier) (policy : Policy), metadata.policies[name]? = some policy →
    policy.name = name ∧ policy.WellFormed

def RlsCatalog.WellFormed (catalog : RlsCatalog) : Prop :=
  ∀ table, (catalog.metadata table).WellFormed

namespace TablePolicies
variable {metadata : TablePolicies}

theorem WellFormed.insert (h : metadata.WellFormed) (policy : Policy) (hpolicy : policy.WellFormed) :
    WellFormed { metadata with policies := metadata.policies.insert policy.name policy } := by
  intro name found hget
  simp only [Std.ExtTreeMap.getElem?_insert, Std.compare_eq_iff_eq] at hget
  split at hget
  · next hname =>
    cases hget
    exact ⟨hname, hpolicy⟩
  · exact h name found hget

theorem WellFormed.erase (h : metadata.WellFormed) (name : Identifier) :
    WellFormed { metadata with policies := metadata.policies.erase name } := by
  intro name' found hget
  simp only [Std.ExtTreeMap.getElem?_erase] at hget
  split at hget
  · cases hget
  · exact h name' found hget

theorem alterTable_wellFormed (h : metadata.WellFormed) (action : AlterTableRls) :
    (metadata.alterTable action).WellFormed := by
  cases action <;> exact h

theorem createPolicy_wellFormed (h : metadata.WellFormed) {statement : CreatePolicy}
    (hs : (RlsStatement.createPolicy statement).WellFormed) :
    (metadata.createPolicy statement).2.WellFormed := by
  simp only [createPolicy]
  split
  · exact h
  · exact h.insert (.ofCreate statement) ⟨hs.1, hs.2⟩

theorem altered_wellFormed {policy : Policy} {statement : AlterPolicy} (h : policy.WellFormed)
    (hs : (RlsStatement.alterPolicy statement).WellFormed)
    (husing : ¬(statement.usingClause.isSome && decide (policy.command = .insert)) = true)
    (hcheck : ¬(statement.withCheck.isSome &&
      (decide (policy.command = .select) || decide (policy.command = .delete))) = true) :
    (altered policy statement).WellFormed := by
  constructor
  · cases hroles : statement.roles with
    | none => simpa [altered, hroles] using h.roles
    | some roles => simpa [altered, hroles] using hs roles hroles
  · constructor
    · intro hcommand
      have hold := h.clauses.onInsert hcommand
      have hnew : statement.usingClause = none := by
        simp only [altered] at hcommand
        simpa [hcommand] using husing
      simp [altered, hold, hnew]
    · intro hcommand
      have hold := h.clauses.onRead hcommand
      have hnew : statement.withCheck = none := by
        simp only [altered] at hcommand
        obtain hc | hc := hcommand <;> simpa [hc] using hcheck
      simp [altered, hold, hnew]

theorem alterPolicy_wellFormed (h : metadata.WellFormed) {statement : AlterPolicy}
    (hs : (RlsStatement.alterPolicy statement).WellFormed) :
    (metadata.alterPolicy statement).2.WellFormed := by
  simp only [alterPolicy]
  split
  · exact h
  · next policy hget =>
    have hpolicy := (h _ policy hget).2
    split
    · exact h.erase statement.name
    · next husing =>
      split
      · exact h.erase statement.name
      · next hcheck =>
        exact (h.erase statement.name).insert _ (altered_wellFormed hpolicy hs husing hcheck)

theorem dropPolicy_wellFormed (h : metadata.WellFormed) (statement : DropPolicy) :
    (metadata.dropPolicy statement).2.WellFormed := by
  simp only [dropPolicy]
  split
  · exact h.erase statement.name
  · exact h

end TablePolicies

namespace RlsCatalog
variable {catalog : RlsCatalog}

@[simp] theorem metadata_put (catalog : RlsCatalog) (table table' : Identifier)
    (m : TablePolicies) :
    (catalog.put table m).metadata table' = if table = table' then m else catalog.metadata table' := by
  by_cases h : table = table'
  · simp [put, metadata, h]
  · simp [put, metadata, Std.ExtTreeMap.getElem?_insert, h]

theorem change_wellFormed (h : catalog.WellFormed) (schema : SchemaSnapshot) (table : Identifier)
    (f : TablePolicies → Outcome) (hf : ∀ m : TablePolicies, m.WellFormed → (f m).2.WellFormed) :
    (catalog.change schema table f).2.WellFormed := by
  simp only [change]
  split
  · intro table'
    rw [metadata_put]
    split
    · exact hf _ (h table)
    · exact h table'
  · exact h

theorem apply_wellFormed (h : catalog.WellFormed) (schema : SchemaSnapshot)
    {statement : RlsStatement} (hs : statement.WellFormed) :
    (catalog.apply schema statement).2.WellFormed := by
  cases statement with
  | alterTable table action =>
    exact change_wellFormed h schema table _ fun m hm => TablePolicies.alterTable_wellFormed hm action
  | createPolicy statement =>
    exact change_wellFormed h schema _ _ fun m hm => TablePolicies.createPolicy_wellFormed hm hs
  | alterPolicy statement =>
    exact change_wellFormed h schema _ _ fun m hm => TablePolicies.alterPolicy_wellFormed hm hs
  | dropPolicy statement =>
    exact change_wellFormed h schema _ _ fun m hm => TablePolicies.dropPolicy_wellFormed hm statement

theorem execute_wellFormed (h : catalog.WellFormed) (input : SchemaSnapshot × List Char) :
    (catalog.execute input).WellFormed := by
  simp only [execute]
  split
  · next statement hparse => exact apply_wellFormed h input.1 (parseRlsStatement_wellFormed hparse)
  · exact h

theorem empty_wellFormed : ({} : RlsCatalog).WellFormed := by
  intro table name policy h
  simp [metadata] at h

theorem after_wellFormed (inputs : List (SchemaSnapshot × List Char)) :
    (after inputs).WellFormed := by
  refine Machine.run_preserves ?_ _ inputs empty_wellFormed
  intro catalog input h
  exact execute_wellFormed h input

end RlsCatalog

end Ffdb.Rls
