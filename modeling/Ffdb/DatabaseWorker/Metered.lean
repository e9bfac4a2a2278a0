import Ffdb.Lib.Sha256
import Ffdb.Runtime.Push
import Ffdb.Runtime.Session

/-! Metered operations of the database worker: queries, transactions and pushes, each in one
atomic block with its usage receipt. -/
namespace Ffdb.DatabaseWorker
open Sql Ffdb.Runtime

abbrev Bytes := List UInt8

abbrev Uuid := BitVec 128

structure ResultColumn where
  name : String
  declaredType : Option String
  deriving DecidableEq

structure QueryResult where
  columns : List ResultColumn
  rows : List (List ResultValue)
  affectedRows : Nat
  lastInsertRowid : Option Int64
  truncated : Bool
  deriving DecidableEq

def encodedSize : ResultValue → Nat
  | .null => 4
  | .integer value => value.toInt.repr.utf8ByteSize
  | .integerString value | .text value => value.utf8ByteSize+2
  | .real _ => 24
  | .blob data => data.utf8ByteSize+12

def QueryResult.encodedSize (result : QueryResult) : Nat :=
  (result.columns.map (·.name.utf8ByteSize+32)).sum +
    (result.rows.flatten.map fun value => DatabaseWorker.encodedSize value+1).sum + 128

inductive DeclaredColumnType where
  | integer
  | real
  | text
  | blob
  | date
  | timestamp
  | unknown
  deriving DecidableEq

def declaredType (value : Option String) : DeclaredColumnType :=
  let value := Text.toAsciiUppercase (value.getD "").toList
  let contains (word : String) := value.tails.any word.toList.isPrefixOf
  if contains "TIMESTAMP" then .timestamp
  else if value = "DATE".toList then .date
  else if contains "INT" then .integer
  else if contains "CHAR" || contains "CLOB" || contains "TEXT" then .text
  else if contains "BLOB" then .blob
  else if contains "REAL" || contains "FLOA" || contains "DOUB" then .real
  else .unknown

inductive ResultCell where
  | null
  | safeInteger (value : Int64)
  | real (bits : UInt64)
  | text (value : String)
  | blob (base64 : String)
  deriving DecidableEq

def ResultCell.ofValue : ResultValue → ResultCell
  | .null => .null
  | .integer value => .safeInteger value
  | .integerString value | .text value => .text value
  | .real bits => .real bits
  | .blob data => .blob data

structure QueryResponse where
  columns : List (String × DeclaredColumnType)
  rows : List (List ResultCell)
  affectedRows : Nat
  lastInsertRowid : Option Int64
  truncated : Bool
  deriving DecidableEq

def convertResult (result : QueryResult) (maxRows : Nat) : QueryResponse where
  columns := result.columns.map fun column => (column.name, declaredType column.declaredType)
  rows := (result.rows.take maxRows).map (·.map ResultCell.ofValue)
  affectedRows := result.affectedRows
  lastInsertRowid := result.lastInsertRowid
  truncated := if result.rows.length > maxRows then true else result.truncated

inductive MutationStatus where
  | applied
  | duplicate
  | rejected
  deriving DecidableEq

structure SyncMutationResult where
  mutationId : String
  status : MutationStatus
  serverSequence : Option Nat
  rowVersion : Option Nat
  errorCode : Option String
  deriving DecidableEq

def syncRejectionCode : RuntimeError → String
  | .constraintViolation | .database => "sync.rls_or_constraint_rejected"
  | .syncMutationInvalid => "sync.mutation_invalid"
  | .statementNotAllowed => "sync.statement_not_allowed"
  | .cancelled => "query.cancelled"
  | .deadlineExceeded => "query.deadline_exceeded"
  | _ => "sync.mutation_rejected"

def mutationResult (mutation : SyncMutation) : Except RuntimeError SyncMutationReceipt → SyncMutationResult
  | .ok receipt =>
    { mutationId := receipt.mutationId
      status := if receipt.duplicate then .duplicate else .applied
      serverSequence := some receipt.sequence
      rowVersion := some receipt.rowVersion
      errorCode := none }
  | .error error =>
    { mutationId := mutation.mutationId, status := .rejected, serverSequence := none, rowVersion := none
      errorCode := some (syncRejectionCode error) }

inductive WorkerResponse where
  | query (result : QueryResponse)
  | transaction (results : List QueryResponse)
  | syncPush (results : List SyncMutationResult) (cursor : String)
  deriving DecidableEq

structure QueryRequest where
  sql : List Char
  parameters : List SqlValue
  maxRows : Nat

inductive WorkerOperation where
  | query (query : QueryRequest)
  | transaction (statements : List QueryRequest)
  | syncPush (schemaVersion : Nat) (mutations : List SyncMutation)

inductive WorkerMode where
  | developer
  | endUser (auth : AuthContext)

def WorkerMode.execution : WorkerMode → ExecutionMode
  | .developer => .developer
  | .endUser _ => .endUser

def usageSubject : WorkerMode → Option String
  | .developer => none
  | .endUser auth => some auth.subject

structure ResourceLimits where
  maxSqlBytes : Nat
  maxVariables : Nat
  maxResultRows : Nat
  maxResponseBytes : Nat
  maxTransactionStatements : Nat

def ResourceLimits.restrictedBy (limits request : ResourceLimits) : ResourceLimits where
  maxSqlBytes := min limits.maxSqlBytes request.maxSqlBytes
  maxVariables := min limits.maxVariables request.maxVariables
  maxResultRows := min limits.maxResultRows request.maxResultRows
  maxResponseBytes := min limits.maxResponseBytes request.maxResponseBytes
  maxTransactionStatements := min limits.maxTransactionStatements request.maxTransactionStatements

def ResourceLimits.session (limits : ResourceLimits) : SessionLimits := ⟨limits.maxSqlBytes, limits.maxVariables⟩

structure WorkerRequest where
  requestId : Uuid
  operationReceiptId : Option Uuid
  mode : WorkerMode
  limits : ResourceLimits
  operation : WorkerOperation
  /-- The clock of the worker when it handles the request. -/
  recordedAtMs : Int

def WorkerRequest.receiptId (request : WorkerRequest) : Uuid := request.operationReceiptId.getD request.requestId

inductive WorkerFailure where
  | invalidRequest
  | invalidBatch
  | usageReceipt
  | runtime (error : RuntimeError)
  deriving DecidableEq

structure StoredUsageReceipt where
  receiptId : Uuid
  requestId : Uuid
  requestDigest : Bytes
  responseJson : Option (List Char)
  reads : Nat
  writes : Nat
  logicalDatabaseBytes : Nat
  subject : Option String
  recordedAtMs : Int
  deriving DecidableEq

structure UsageReceipt where
  receiptId : Uuid
  requestId : Uuid
  reads : Nat
  writes : Nat
  logicalDatabaseBytes : Nat
  subject : Option String
  recordedAtMs : Int
  deriving DecidableEq

structure WorkerExecution where
  response : WorkerResponse
  usage : UsageReceipt
  deriving DecidableEq

structure UsageStore (δ : Type) where
  schemaVersion : Nat
  usageReceipts : List StoredUsageReceipt
  rest : δ

def UsageStore.usageReceipt {δ : Type} (store : UsageStore δ) (receiptId : Uuid) : Option StoredUsageReceipt :=
  store.usageReceipts.find? (·.receiptId = receiptId)

/-- What metered operations call elsewhere: a pushed mutation as it is applied to the contents,
the cursor of a push, the size of the file, and JSON. -/
structure WorkerCrates (δ : Type) where
  applySyncMutation : AuthContext → SyncMutation → UsageStore δ → Outcome (UsageStore δ) SyncMutationReceipt
  issueSyncCursor : AuthContext → UsageStore δ → Except RuntimeError String
  logicalDatabaseBytes : UsageStore δ → Except RuntimeError Nat
  toJson : WorkerResponse → Option (List Char)
  fromJson : List Char → Option WorkerResponse
  requestJson : WorkerMode → WorkerOperation → Option Bytes

structure Worker (δ : Type) where
  sqlite : Sqlite (UsageStore δ) QueryResult
  crates : WorkerCrates δ
  limits : ResourceLimits
  projectId : Bytes
  databaseId : Bytes

def digestDomain : Bytes := "ffdb.usage-receipt.v1".toByteArray.data.toList ++ [0]

section Worker
variable {δ α : Type} (worker : Worker δ)

def usageReceiptDigest (mode : WorkerMode) (operation : WorkerOperation) : Except WorkerFailure Bytes := do
  let encoded ← Fallible.orError (worker.crates.requestJson mode operation) .usageReceipt
  pure (Sha256.digest (digestDomain ++ worker.projectId ++ worker.databaseId ++ encoded))

def statementUsageUnits (sql : List Char) : Except WorkerFailure (Nat × Nat) := do
  let statementClass ← (classifyStatement sql).mapError fun _ => WorkerFailure.invalidRequest
  pure (if statementClass.readOnly then (1, 0) else (0, 1))

def QueryRequest.validate (query : QueryRequest) (limits : ResourceLimits) : Except WorkerFailure Unit :=
  Fallible.require (!(Text.trim query.sql).isEmpty && Text.byteLength query.sql ≤ limits.maxSqlBytes &&
    query.parameters.length ≤ limits.maxVariables && query.maxRows ≠ 0 && query.maxRows ≤ limits.maxResultRows)
    .invalidRequest

def validateTransaction (statements : List QueryRequest) (limits : ResourceLimits) : Except WorkerFailure Unit := do
  Fallible.require (!statements.isEmpty && statements.length ≤ limits.maxTransactionStatements) .invalidRequest
  statements.forM (·.validate limits)

def protocolUsageFromStored (stored : StoredUsageReceipt) : UsageReceipt where
  receiptId := stored.receiptId
  requestId := stored.requestId
  reads := stored.reads
  writes := stored.writes
  logicalDatabaseBytes := stored.logicalDatabaseBytes
  subject := stored.subject
  recordedAtMs := stored.recordedAtMs

/-- The receipt is inserted with no size, and gets the size that the file has with it. -/
def storeUsageReceipt (receipt : StoredUsageReceipt) : Run (UsageStore δ) Nat := do
  if !(← Act.read Session.inAtomic) then Act.fail .statementNotAllowed
  else if 2^63 ≤ receipt.reads ∨ 2^63 ≤ receipt.writes then Act.fail .usageReceiptInvalid
  else do
    let known ← Act.read fun session => session.contents.usageReceipt receipt.receiptId
    if known.isSome then Act.fail .constraintViolation
    else do
      write worker.sqlite fun store =>
        { store with usageReceipts := store.usageReceipts ++ [{ receipt with logicalDatabaseBytes := 0 }] }
      let bytes ← query worker.crates.logicalDatabaseBytes
      if 2^63 ≤ bytes then Act.fail .usageReceiptInvalid
      else do
        write worker.sqlite fun store =>
          { store with usageReceipts := store.usageReceipts.map fun stored =>
              if stored.receiptId = receipt.receiptId then { stored with logicalDatabaseBytes := bytes } else stored }
        pure bytes

def meteredBlock (request : WorkerRequest) (digest : Bytes) (mutating : Bool)
    (execute : Run (UsageStore δ) (WorkerResponse × Nat × Nat)) : Run (UsageStore δ) WorkerExecution := do
  match ← Act.read fun session => session.contents.usageReceipt request.receiptId with
  | some stored =>
    if stored.requestDigest ≠ digest then Act.fail .usageReceiptConflict
    else if mutating then do
      let json ← Act.given (Fallible.orError stored.responseJson .usageReceiptInvalid)
      let response ← Act.given (Fallible.orError (worker.crates.fromJson json) .usageReceiptInvalid)
      pure ⟨response, protocolUsageFromStored stored⟩
    else do
      let (response, _, _) ← execute
      pure ⟨response, protocolUsageFromStored stored⟩
  | none => do
    let (response, reads, writes) ← execute
    let responseJson ← Act.given (if mutating then
        (Fallible.orError (worker.crates.toJson response) .usageReceiptInvalid).map some
      else .ok none)
    let receipt : StoredUsageReceipt :=
      { receiptId := request.receiptId, requestId := request.requestId, requestDigest := digest, responseJson,
        reads, writes, logicalDatabaseBytes := 0, subject := usageSubject request.mode,
        recordedAtMs := request.recordedAtMs }
    let logicalDatabaseBytes ← storeUsageReceipt worker receipt
    pure ⟨response, protocolUsageFromStored { receipt with logicalDatabaseBytes }⟩

def mapRuntime (x : Run (UsageStore δ) α) : Act (Session (UsageStore δ)) WorkerFailure α := fun session =>
  ((x session).1.mapError .runtime, (x session).2)

def executeMeteredOperation (request : WorkerRequest) (mutating : Bool)
    (execute : Run (UsageStore δ) (WorkerResponse × Nat × Nat)) :
    Act (Session (UsageStore δ)) WorkerFailure WorkerExecution := do
  let digest ← Act.given (usageReceiptDigest worker request.mode request.operation)
  mapRuntime (atomic worker.sqlite (meteredBlock worker request digest mutating execute))

def sessionLimits (request : WorkerRequest) : ResourceLimits := worker.limits.restrictedBy request.limits

def runQuery (request : WorkerRequest) (query : QueryRequest) : Run (UsageStore δ) QueryResult :=
  execute worker.sqlite (sessionLimits worker request).session request.mode.execution
    ⟨query.sql, query.parameters⟩

/-- The statements of a transaction; their results may not grow too large. -/
def runTransaction (request : WorkerRequest) : Nat → List QueryRequest → Run (UsageStore δ) (List QueryResult)
  | _, [] => pure []
  | responseBytes, query :: rest => do
    let result ← runQuery worker request query
    if responseBytes+result.encodedSize > (sessionLimits worker request).maxResponseBytes then
      Act.fail .responseTooLarge
    else do
      let results ← runTransaction request (responseBytes+result.encodedSize) rest
      pure (result :: results)

def transactionInCurrentAtomic (request : WorkerRequest) (statements : List QueryRequest) :
    Run (UsageStore δ) (List QueryResult) := do
  if !(← Act.read Session.inAtomic) || statements.isEmpty || statements.length > 100 then
    Act.fail .statementNotAllowed
  else runTransaction worker request 0 statements

def usageItem : List Char := "__ffdb_sync_usage_item".toList

def pushOne (auth : AuthContext) (mutation : SyncMutation) :
    Run (UsageStore δ) (Except RuntimeError SyncMutationReceipt) := do
  batch worker.sqlite (.savepoint usageItem)
  match ← (onContents (worker.crates.applySyncMutation auth mutation)).attempt with
  | .ok receipt => do
    batch worker.sqlite (.release usageItem)
    pure (.ok receipt)
  | .error error => do
    batch worker.sqlite (.rollbackTo usageItem)
    batch worker.sqlite (.release usageItem)
    pure (.error error)

def pushEach (auth : AuthContext) :
    List SyncMutation → Run (UsageStore δ) (List (Except RuntimeError SyncMutationReceipt))
  | [] => pure []
  | mutation :: rest => do
    let receipt ← pushOne worker auth mutation
    let receipts ← pushEach auth rest
    pure (receipt :: receipts)

def syncApplyMutations (mode : WorkerMode) (schemaVersion : Nat) (mutations : List SyncMutation) :
    Run (UsageStore δ) (List (Except RuntimeError SyncMutationReceipt) × String) := do
  if !(← Act.read Session.inAtomic) || mutations.isEmpty || mutations.length > 100 then
    Act.fail .statementNotAllowed
  else match mode with
    | .developer => Act.fail .statementNotAllowed
    | .endUser auth => do
      let actual ← Act.read fun session => session.contents.schemaVersion
      if actual ≠ schemaVersion then Act.fail .syncSchemaMismatch
      else do
        let receipts ← pushEach worker auth mutations
        let cursor ← query (worker.crates.issueSyncCursor auth)
        pure (receipts, cursor)

def executeMeteredQuery (request : WorkerRequest) (query : QueryRequest) :
    Act (Session (UsageStore δ)) WorkerFailure WorkerExecution := do
  Act.given (query.validate request.limits)
  let (reads, writes) ← Act.given (statementUsageUnits query.sql)
  executeMeteredOperation worker request (decide (writes > 0)) do
    let result ← runQuery worker request query
    pure (.query (convertResult result query.maxRows), reads, writes)

def usageUnits : List QueryRequest → Except WorkerFailure (Nat × Nat)
  | [] => .ok (0, 0)
  | query :: rest => do
    let (reads, writes) ← statementUsageUnits query.sql
    let (restReads, restWrites) ← usageUnits rest
    pure (reads+restReads, writes+restWrites)

def executeMeteredTransaction (request : WorkerRequest) (statements : List QueryRequest) :
    Act (Session (UsageStore δ)) WorkerFailure WorkerExecution := do
  Act.given (validateTransaction statements request.limits)
  let (reads, writes) ← Act.given (usageUnits statements)
  executeMeteredOperation worker request (decide (writes > 0)) do
    let results ← transactionInCurrentAtomic worker request statements
    pure (.transaction (results.zipWith (fun result query => convertResult result query.maxRows) statements),
      reads, writes)

/-- Mutations that were applied now, not before. -/
def countFresh (receipts : List (Except RuntimeError SyncMutationReceipt)) : Nat :=
  (receipts.filter fun receipt => match receipt with
    | .ok receipt => !receipt.duplicate
    | .error _ => false).length

def executeMeteredSyncPush (request : WorkerRequest) (schemaVersion : Nat) (mutations : List SyncMutation) :
    Act (Session (UsageStore δ)) WorkerFailure WorkerExecution := do
  Act.given (Fallible.require (!(mutations.isEmpty || decide (mutations.length > 100))) .invalidBatch)
  executeMeteredOperation worker request true do
    let (receipts, cursor) ← syncApplyMutations worker request.mode schemaVersion mutations
    pure (.syncPush (mutations.zipWith mutationResult receipts) cursor, 0, countFresh receipts)

def handleMetered (request : WorkerRequest) : Act (Session (UsageStore δ)) WorkerFailure WorkerExecution :=
  match request.operation with
  | .query query => executeMeteredQuery worker request query
  | .transaction statements => executeMeteredTransaction worker request statements
  | .syncPush schemaVersion mutations => executeMeteredSyncPush worker request schemaVersion mutations

end Worker
end Ffdb.DatabaseWorker
