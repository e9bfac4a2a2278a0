import Ffdb.Lib.Sha256
import Ffdb.Runtime.Session
import Ffdb.Sql.Policy

/-! Migrations: SQL that a developer applies to a project database and takes back, with their
history in the database itself. -/
namespace Ffdb.Migration
open Sql Rls Ffdb.Runtime

abbrev Bytes := List UInt8

def utf8 (text : List Char) : Bytes := (String.ofList text).toByteArray.data.toList

structure MigrationSpec where
  id : List Char
  name : List Char
  upSql : List Char
  downSql : List Char
  checksum : List Char
  createdAtMs : Int

inductive MigrationError where
  | invalidMetadata
  | missingDirection
  | checksumMismatch
  | notApplied
  | execution
  deriving DecidableEq

inductive MigrationStatus where
  | applied
  | rolledBack
  deriving DecidableEq

def MigrationSpec.calculateChecksum (spec : MigrationSpec) : List Char :=
  Text.hex (Sha256.digest (utf8 spec.id ++ [0] ++ utf8 spec.name ++ [0] ++ utf8 spec.upSql ++ [0] ++
    utf8 spec.downSql))

def isIdCharacter (c : Char) : Bool := c.isAlphanum || c = '_' || c = '-' || c = '.'

def MigrationSpec.validate (spec : MigrationSpec) : Except MigrationError Unit := do
  Fallible.require (!(spec.id.isEmpty || Text.byteLength spec.id > 128 || !spec.id.all isIdCharacter ||
    spec.name.isEmpty || Text.byteLength spec.name > 256)) .invalidMetadata
  Fallible.require (!((Text.trim spec.upSql).isEmpty || (Text.trim spec.downSql).isEmpty)) .missingDirection
  Fallible.require (!(Text.byteLength spec.checksum ≠ 64 || spec.checksum ≠ spec.calculateChecksum))
    .checksumMismatch

def hexValue (c : Char) : Option Nat :=
  if '0' ≤ c ∧ c ≤ '9' then some (c.toNat-48)
  else if 'a' ≤ c ∧ c ≤ 'f' then some (c.toNat-87)
  else if 'A' ≤ c ∧ c ≤ 'F' then some (c.toNat-55)
  else none

def decodePairs : List Char → Option Bytes
  | [] => some []
  | [_] => none
  | high :: low :: rest => do
    let high ← hexValue high
    let low ← hexValue low
    let rest ← decodePairs rest
    pure (UInt8.ofNat (16*high+low) :: rest)

def decodeChecksum (checksum : List Char) : Except RuntimeError Bytes := do
  Fallible.require (Text.byteLength checksum = 64) .constraintViolation
  Fallible.orError (decodePairs checksum) .constraintViolation

structure StoredMigration where
  id : List Char
  name : List Char
  checksum : Bytes
  upSql : List Char
  downSql : List Char
  createdAtMs : Int
  appliedAtMs : Int
  actorId : List Char
  durationMs : Nat
  versionBefore : Nat
  versionAfter : Nat
  status : MigrationStatus

structure MigrationOutcome where
  id : List Char
  status : MigrationStatus
  schemaVersionBefore : Nat
  schemaVersionAfter : Nat
  appliedAtMs : Int
  durationMs : Nat
  executionLog : List String

def outcomeFromRecord (record : StoredMigration) (status : MigrationStatus) : MigrationOutcome where
  id := record.id
  status := status
  schemaVersionBefore := record.versionBefore
  schemaVersionAfter := record.versionAfter
  appliedAtMs := record.appliedAtMs
  durationMs := record.durationMs
  executionLog := [match status with
    | .applied => "migration applied atomically"
    | .rolledBack => "developer-supplied down SQL executed atomically"]

structure DurableOperationReceipt where
  receiptId : List Char
  requestDigest : Bytes

structure OperationReceipt where
  receiptId : List Char
  requestDigest : Bytes
  operation : String
  result : MigrationOutcome
  recordedAtMs : Int

structure Store (δ : Type) where
  schemaVersion : Nat
  migrations : List StoredMigration
  receipts : List OperationReceipt
  rest : δ

section Store
variable {δ : Type} (store : Store δ)

def Store.migrationRecord (id : List Char) : Option StoredMigration := store.migrations.find? (·.id = id)

/-- `ON CONFLICT(id) DO UPDATE`, which keeps the time of creation. -/
def Store.storeMigration (record : StoredMigration) : Store δ :=
  match store.migrationRecord record.id with
  | none => { store with migrations := store.migrations ++ [record] }
  | some _ => { store with migrations := store.migrations.map fun stored =>
      if stored.id = record.id then { record with createdAtMs := stored.createdAtMs } else stored }

/-- The receipt is stored, unless another request or operation holds its id. -/
def Store.storeReceipt (receipt : OperationReceipt) : Option (Store δ) :=
  match store.receipts.find? (·.receiptId = receipt.receiptId) with
  | none => some { store with receipts := store.receipts ++ [receipt] }
  | some stored =>
    if stored.requestDigest = receipt.requestDigest ∧ stored.operation = receipt.operation then
      some { store with receipts := store.receipts.map fun other =>
        if other.receiptId = receipt.receiptId then receipt else other }
    else none

end Store

section Engine
variable {δ ρ : Type} (sqlite : Sqlite (Store δ) ρ) (limits : SessionLimits)

def setSchemaVersion (version : Nat) : Run (Store δ) Unit :=
  -- A number that is no signed 64-bit integer cannot be bound.
  if version < 2^63 then write sqlite fun store => { store with schemaVersion := version }
  else Act.fail .database

def storeMigration (record : StoredMigration) : Run (Store δ) Unit :=
  if record.versionBefore < 2^63 ∧ record.versionAfter < 2^63 then write sqlite (·.storeMigration record)
  else Act.fail .database

def storeDurableReceipt (receipt : Option DurableOperationReceipt) (operation : String)
    (outcome : MigrationOutcome) (recordedAtMs : Int) : Run (Store δ) Unit :=
  match receipt with
  | none => pure ()
  | some receipt => do
    let row : OperationReceipt :=
      ⟨receipt.receiptId, receipt.requestDigest, operation, outcome, recordedAtMs⟩
    let store ← query fun store => Fallible.orError (store.storeReceipt row) .constraintViolation
    write sqlite fun _ => store

def executePolicy (sql : List Char) : Run (Store δ) Unit := do
  let statement ← Act.given ((parseRlsStatement sql).mapError fun _ => RuntimeError.statementNotAllowed)
  let catalog ← query sqlite.rlsCatalog
  let schema ← query (sqlite.schemaSnapshot catalog)
  let (result, catalog) := catalog.apply schema statement
  Act.given (result.mapError fun _ => RuntimeError.statementNotAllowed)
  let currentSchema ← query (sqlite.schemaSnapshot catalog)
  let plan ← Act.given ((compile Writer.sql currentSchema catalog).mapError fun _ =>
    RuntimeError.statementNotAllowed)
  applyRlsPlan sqlite plan
  onContents (sqlite.storeRlsCatalog catalog)

def executeStatement (sql : List Char) : Run (Store δ) Unit := do
  let statementClass ← Act.given ((classifyStatement sql).mapError fun _ => RuntimeError.statementNotAllowed)
  if statementClass.kind = .rls then executePolicy sqlite sql
  else
    let _ ← execute sqlite limits .developer ⟨sql, []⟩

def executeStatements : List (List Char) → Run (Store δ) Unit
  | [] => pure ()
  | sql :: rest => do executeStatement sqlite limits sql; executeStatements rest

def executeSql (sql : List Char) : Run (Store δ) Unit := do
  let statements ← Act.given ((splitSqlStatements sql).mapError fun _ => RuntimeError.statementNotAllowed)
  if statements.isEmpty then Act.fail .statementNotAllowed
  else
    executeStatements sqlite limits statements
    let catalog ← query sqlite.rlsCatalog
    refreshCapture sqlite catalog

/-- When and by whom an operation is made, how long its SQL takes, and its receipt. -/
structure Request where
  apiKeyId : List Char
  atMs : Int
  durationMs : Nat
  receipt : Option DurableOperationReceipt

/-- The next version; the counter does not wrap around. -/
def nextVersion (version : Nat) : Except RuntimeError Nat :=
  if version+1 < 2^64 then .ok (version+1) else .error .database

def applyUp (spec : MigrationSpec) (request : Request) : Run (Store δ) MigrationOutcome := do
  let versionBefore ← Act.read fun session => session.contents.schemaVersion
  executeSql sqlite limits spec.upSql
  let versionAfter ← Act.given (nextVersion versionBefore)
  setSchemaVersion sqlite versionAfter
  let checksum ← Act.given (decodeChecksum spec.checksum)
  let stored : StoredMigration :=
    { id := spec.id, name := spec.name, checksum, upSql := spec.upSql, downSql := spec.downSql,
      createdAtMs := spec.createdAtMs, appliedAtMs := request.atMs, actorId := request.apiKeyId,
      durationMs := request.durationMs, versionBefore, versionAfter, status := .applied }
  storeMigration sqlite stored
  let outcome := outcomeFromRecord stored .applied
  storeDurableReceipt sqlite request.receipt "migration.apply" outcome request.atMs
  pure outcome

/-- The session of an application: an id that is applied is answered from its record. -/
def applyInSession (spec : MigrationSpec) (request : Request) : Run (Store δ) MigrationOutcome := do
  let existing ← Act.read fun session => session.contents.migrationRecord spec.id
  match existing with
  | none => atomic sqlite (applyUp sqlite limits spec request)
  | some existing => do
    let checksum ← Act.given (decodeChecksum spec.checksum)
    if existing.checksum ≠ checksum then Act.fail .constraintViolation
    else if existing.status = .applied then
      let outcome := outcomeFromRecord existing .applied
      match request.receipt with
      | none => pure outcome
      | some _ => atomic sqlite do
        storeDurableReceipt sqlite request.receipt "migration.apply" outcome request.atMs
        pure outcome
    else atomic sqlite (applyUp sqlite limits spec request)

def rollbackDown (existing : StoredMigration) (request : Request) : Run (Store δ) MigrationOutcome := do
  let versionBefore ← Act.read fun session => session.contents.schemaVersion
  executeSql sqlite limits existing.downSql
  let versionAfter ← Act.given (nextVersion versionBefore)
  setSchemaVersion sqlite versionAfter
  let stored : StoredMigration :=
    { existing with appliedAtMs := request.atMs, actorId := request.apiKeyId,
                    durationMs := request.durationMs, versionBefore, versionAfter, status := .rolledBack }
  storeMigration sqlite stored
  let outcome := outcomeFromRecord stored .rolledBack
  storeDurableReceipt sqlite request.receipt "migration.rollback" outcome request.atMs
  pure outcome

def rollbackInSession (id : List Char) (request : Request) : Run (Store δ) MigrationOutcome := do
  let existing ← Act.read fun session => session.contents.migrationRecord id
  match existing with
  | none => Act.fail .statementNotAllowed
  | some existing =>
    if existing.status ≠ .applied then Act.fail .statementNotAllowed
    else atomic sqlite (rollbackDown sqlite limits existing request)

def applyError : RuntimeError → MigrationError
  | .constraintViolation => .checksumMismatch
  | _ => .execution

def rollbackError : RuntimeError → MigrationError
  | .statementNotAllowed => .notApplied
  | _ => .execution

def apply (spec : MigrationSpec) (request : Request) :
    Act (Session (Store δ)) MigrationError MigrationOutcome := fun session =>
  match spec.validate with
  | .error e => (.error e, session)
  | .ok () =>
    let (result, after) := applyInSession sqlite limits spec request session
    (result.mapError applyError, after)

def rollback (id : List Char) (request : Request) :
    Act (Session (Store δ)) MigrationError MigrationOutcome := fun session =>
  let (result, after) := rollbackInSession sqlite limits id request session
  (result.mapError rollbackError, after)

end Engine
end Ffdb.Migration
