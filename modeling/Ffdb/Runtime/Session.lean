import Ffdb.Lib.Act
import Ffdb.Lib.Savepoint
import Ffdb.Sql.Scanner
import Ffdb.Rls.Compile
import Ffdb.Runtime.Value

/-! A session of the runtime on its connection: statements in savepoints of their own, atomic
blocks, and the plans of the RLS compiler. What SQLite makes of a statement, and what the
runtime reads from its own tables, are parameters. -/
namespace Ffdb.Runtime
open Sql Rls Savepoint

/-- Transaction control, as SQLite reads it. `END` is a commit too. -/
inductive Control where
  | begin
  | commit
  | rollback
  | savepoint (name : List Char)
  | release (name : List Char)
  | rollbackTo (name : List Char)
  deriving DecidableEq

/-- What a statement other than transaction control did. A failure may keep some of its
changes, and it may have given up the transaction as a whole. -/
inductive Outcome (σ ρ : Type) where
  | done (contents : σ) (result : ρ)
  | failed (error : RuntimeError) (contents : σ)
  | aborted (error : RuntimeError)

structure StatementRequest where
  sql : List Char
  parameters : List SqlValue
  deriving DecidableEq

inductive ExecutionMode where
  | developer
  | endUser
  deriving DecidableEq

structure SessionLimits where
  maxSqlBytes : Nat
  maxVariables : Nat

/-- SQLite as a session calls it, with what the runtime reads from and generates for the file:
statements of callers run under the approved sources, its own ones under an internal lease. -/
structure Sqlite (σ ρ : Type) where
  control : List Char → Option Control
  run : List (List Char) → StatementRequest → σ → Outcome σ ρ
  trusted : List Char → σ → Outcome σ Unit
  controlled : ρ
  valid : σ → Bool
  fits : σ → Bool
  persists : σ → Except RuntimeError Unit
  rlsCatalog : σ → Except RuntimeError RlsCatalog
  storeRlsCatalog : RlsCatalog → σ → Outcome σ Unit
  schemaSnapshot : RlsCatalog → σ → Except RuntimeError SchemaSnapshot
  captureTriggers : σ → Except RuntimeError (List Identifier)
  captureSql : SchemaSnapshot → List (List Char)
  captureSources : SchemaSnapshot → List (List Char)

structure Session (σ : Type) where
  connection : Connection σ
  approvedSources : List (List Char)
  /-- Whether `transaction_deadline` is set: an atomic block is running. -/
  inAtomic : Bool

def Session.contents {σ : Type} (session : Session σ) : σ := session.connection.contents

abbrev Run (σ α : Type) := Act (Session σ) RuntimeError α

section Session
variable {σ ρ α : Type} (sqlite : Sqlite σ ρ)

def Connection.perform (c : Connection σ) : Control → Option (Connection σ)
  | .begin => c.begin
  | .commit => c.commit sqlite.valid
  | .rollback => c.rollback
  | .savepoint name => some (c.savepoint name)
  | .release name => c.release sqlite.valid name
  | .rollbackTo name => c.rollbackTo name

def batch (control : Control) : Run σ Unit := fun session =>
  match Connection.perform sqlite session.connection control with
  | some connection => (.ok (), { session with connection })
  | none => (.error .database, session)

def settle (outcome : Outcome σ α) : Run σ α := fun session =>
  match outcome with
  | .done contents result =>
    (.ok result, { session with connection := { session.connection with contents } })
  | .failed error contents =>
    (.error error, { session with connection := { session.connection with contents } })
  | .aborted error => (.error error, { session with connection := session.connection.abort })

def onContents (statement : σ → Outcome σ α) : Run σ α := fun session =>
  settle (statement session.contents) session

def query (f : σ → Except RuntimeError α) : Run σ α := fun session => (f session.contents, session)

/-- An internal statement that changes the contents, or fails and leaves them. -/
def write (change : σ → σ) : Run σ Unit := onContents fun contents =>
  match sqlite.persists (change contents) with
  | .ok () => .done (change contents) ()
  | .error e => .failed e contents

def executeBatch (sql : List Char) : Run σ Unit := onContents (sqlite.trusted sql)

def executeBatches : List (List Char) → Run σ Unit
  | [] => pure ()
  | sql :: rest => do executeBatch sqlite sql; executeBatches rest

def checkDatabaseSize : Run σ Unit :=
  query fun contents => if sqlite.fits contents then .ok () else .error .databaseTooLarge

/-- A savepoint around statements of the runtime: a failure goes back to it. -/
def guarded (name : List Char) (body : Run σ Unit) : Run σ Unit := do
  batch sqlite (.savepoint name)
  match ← body.attempt with
  | .error e => do
    (batch sqlite (.rollbackTo name)).ignore
    (batch sqlite (.release name)).ignore
    Act.fail e
  | .ok () => batch sqlite (.release name)

def approve (sources : List (List Char)) : Run σ Unit :=
  Act.modify fun session => { session with approvedSources := session.approvedSources ++ sources }

def applyRlsPlan (plan : List (CompiledTablePlan Char)) : Run σ Unit := do
  guarded sqlite "__ffdb_rls_plan".toList (executeBatches sqlite (plan.flatMap CompiledTablePlan.statements))
  approve (plan.flatMap fun table => table.generatedSources.map fun source =>
    Text.toAsciiLowercase source.value)

def suspendChangeCapture : Run σ Unit := do
  let names ← query sqlite.captureTriggers
  executeBatches sqlite (names.map fun name => "DROP TRIGGER ".toList ++ name.quoted)

def refreshCapture (catalog : RlsCatalog) : Run σ Unit := do
  let schema ← query (sqlite.schemaSnapshot catalog)
  guarded sqlite "__ffdb_sync_capture_refresh".toList (executeBatches sqlite (sqlite.captureSql schema))
  approve (sqlite.captureSources schema)

/-- Statements that the mode does not admit are refused before they reach SQLite. -/
def validate (limits : SessionLimits) (mode : ExecutionMode) (request : StatementRequest) :
    Except RuntimeError StatementClass := do
  Fallible.require (decide (Text.byteLength request.sql ≤ limits.maxSqlBytes)) .sqlTooLarge
  Fallible.require (decide (request.parameters.length ≤ limits.maxVariables)) .tooManyVariables
  let statementClass ← (classifyStatement request.sql).mapError fun _ => .statementNotAllowed
  Fallible.require (match mode with
    | .endUser => statementClass.allowedForEndUser
    | .developer =>
      !(statementClass.kind = .attach || statementClass.kind = .detach || statementClass.kind = .rls ||
        (statementClass.kind = .vacuum && (Text.toAsciiUppercase request.sql).tails.any "INTO".toList.isPrefixOf)))
    .statementNotAllowed
  pure statementClass

def executeInner (request : StatementRequest) : Run σ ρ :=
  match sqlite.control request.sql with
  | some control => do batch sqlite control; pure sqlite.controlled
  | none => fun session => settle (sqlite.run session.approvedSources request session.contents) session

def statementLimit : List Char := "__ffdb_statement_limit".toList

def giveUpStatement (e : RuntimeError) : Run σ α := do
  (batch sqlite (.rollbackTo statementLimit)).ignore
  (batch sqlite (.release statementLimit)).ignore
  Act.fail e

/-- A statement, and after a change of the schema the capture triggers again. -/
def executeAndRefresh (statementClass : StatementClass) (request : StatementRequest) : Run σ ρ := do
  let result ← executeInner sqlite request
  if statementClass.kind = .ddl then
    let catalog ← query sqlite.rlsCatalog
    refreshCapture sqlite catalog
  pure result

def suspendFor (statementClass : StatementClass) : Run σ Unit := do
  if statementClass.kind = .ddl then
    match ← (suspendChangeCapture sqlite).attempt with
    | .error e => giveUpStatement sqlite e
    | .ok () => pure ()

/-- A statement inside its savepoint: a failure, or a database that has grown too large, goes
back to it. -/
def executeInSavepoint (statementClass : StatementClass) (request : StatementRequest) : Run σ ρ := do
  match ← (executeAndRefresh sqlite statementClass request).attempt with
  | .error e => giveUpStatement sqlite e
  | .ok result =>
    match ← (checkDatabaseSize sqlite).attempt with
    | .error e => giveUpStatement sqlite e
    | .ok () => do batch sqlite (.release statementLimit); pure result

def executeBounded (statementClass : StatementClass) (request : StatementRequest) : Run σ ρ := do
  if statementClass.readOnly then executeAndRefresh sqlite statementClass request
  else
    batch sqlite (.savepoint statementLimit)
    suspendFor sqlite statementClass
    executeInSavepoint sqlite statementClass request

def execute (limits : SessionLimits) (mode : ExecutionMode) (request : StatementRequest) : Run σ ρ := do
  let statementClass ← Act.given (validate limits mode request)
  executeBounded sqlite statementClass request

/-- Give an atomic block up: the transaction and the sources that it approved. -/
def giveUpAtomic (approvedBefore : List (List Char)) (e : RuntimeError) : Run σ α := do
  (batch sqlite .rollback).ignore
  Act.modify fun session => { session with approvedSources := approvedBefore, inAtomic := false }
  Act.fail e

def finishAtomic (approvedBefore : List (List Char)) (callback : Run σ α) : Run σ α := do
  match ← callback.attempt with
  | .error e => giveUpAtomic sqlite approvedBefore e
  | .ok value =>
    match ← (checkDatabaseSize sqlite).attempt with
    | .error e => giveUpAtomic sqlite approvedBefore e
    | .ok () =>
      match ← (batch sqlite .commit).attempt with
      | .error e => giveUpAtomic sqlite approvedBefore e
      | .ok () => do
        Act.modify fun session => { session with inAtomic := false }
        pure value

def atomic (callback : Run σ α) : Run σ α := do
  if ← Act.read Session.inAtomic then Act.fail .statementNotAllowed
  else
    let approvedBefore ← Act.read Session.approvedSources
    batch sqlite .begin
    Act.modify fun session => { session with inAtomic := true }
    finishAtomic sqlite approvedBefore callback

end Session
end Ffdb.Runtime
