import Ffdb.Lib.Fallible
import Ffdb.Lib.Base64
import Ffdb.Lib.Text
import Ffdb.Sync.Types

/-! The replication engine as the server runs it. `&mut self` methods return the
engine they leave behind, also when they fail. -/
namespace Ffdb.Sync
open Fallible

def unitSeparator : Char := Char.ofNat 0x1f

def checkpointFormatVersion : Nat := 1
def maxCheckpointBytes : Nat := 256*1024*1024

structure CursorCodec where
  secret : Bytes

def CursorCodec.encode (crates : Crates) (codec : CursorCodec) (claims : CursorClaims) :
    Except SyncError OpaqueCursor := do
  let payload ← orError (crates.claimsToVec claims) .invalidCursor
  let mac ← orError (crates.hmacSha256 codec.secret payload) .invalidConfiguration
  pure ⟨Base64.encode payload ++ '.' :: Base64.encode mac⟩

def maxCursorBytes : Nat := 2048
def maxPayloadEncodedBytes : Nat := 1900
def maxPayloadBytes : Nat := 1024

def CursorCodec.decode (crates : Crates) (codec : CursorCodec) (cursor : OpaqueCursor) :
    Except SyncError CursorClaims := do
  require (Text.byteLength cursor.text ≤ maxCursorBytes) .invalidCursor
  let (payload, signature) ← orError (Text.splitOnce '.' cursor.text) .invalidCursor
  require (Text.byteLength payload ≤ maxPayloadEncodedBytes && Text.byteLength signature = 43)
    .invalidCursor
  let payload ← orError (Base64.decode payload) .invalidCursor
  require (payload.length ≤ maxPayloadBytes) .invalidCursor
  let signature ← orError (Base64.decode signature) .invalidCursor
  require (signature.length = 32) .invalidCursor
  let mac ← orError (crates.hmacSha256 codec.secret payload) .invalidConfiguration
  require (mac = signature) .invalidCursor
  orError (crates.claimsFromSlice payload) .invalidCursor

structure SyncEngine where
  projectId : String
  schemaVersion : Nat
  config : SyncConfig
  cursorCodec : CursorCodec
  state : EngineState

def EngineState.initial : EngineState where
  nextSequence := 1
  minimumAvailableSequence := 0
  transactionCounter := 1
  rows := ∅
  events := []
  idempotency := ∅

def configurationAccepted (projectId : String) (schemaVersion : Nat) (secret : Bytes)
    (config : SyncConfig) : Bool :=
  projectId ≠ "" && schemaVersion ≠ 0 && 32 ≤ secret.length
    && 0 < config.cursorTtlMs && 0 < config.changeRetentionMs
    && config.changeRetentionMs ≤ config.tombstoneRetentionMs
    && config.maxPullEvents ≠ 0 && config.maxPushMutations ≠ 0
    && 0 < config.idempotencyRetentionMs && config.maxIdempotencyRecords ≠ 0

def SyncEngine.new (projectId : String) (schemaVersion : Nat) (secret : Bytes)
    (config : SyncConfig) : Except SyncError SyncEngine := do
  require (configurationAccepted projectId schemaVersion secret config) .invalidConfiguration
  pure
    { projectId := projectId
      schemaVersion := schemaVersion
      config := config
      cursorCodec := ⟨secret⟩
      state := .initial }

def SyncCheckpoint.fromBytes (bytes : Bytes) : Except SyncError SyncCheckpoint := do
  require (bytes ≠ [] && bytes.length ≤ maxCheckpointBytes) .invalidCheckpoint
  pure ⟨bytes⟩

def SyncEngine.checkpoint (crates : Crates) (engine : SyncEngine) :
    Except SyncError SyncCheckpoint := do
  let bytes ← orError (crates.envelopeToVec
    { formatVersion := checkpointFormatVersion
      projectId := engine.projectId
      schemaVersion := engine.schemaVersion
      state := engine.state }) .invalidCheckpoint
  SyncCheckpoint.fromBytes bytes

/-- The loop over the log in `validate_state`: strictly increasing, below the bound. -/
def eventsInOrder (nextSequence : Nat) : Nat → List LogicalEvent → Bool
  | _, [] => true
  | priorSequence, event :: rest =>
    !(event.sequence ≤ priorSequence || nextSequence ≤ event.sequence)
      && eventsInOrder nextSequence event.sequence rest

def validateState (state : EngineState) (config : SyncConfig) : Except SyncError Unit := do
  require (state.nextSequence ≠ 0
    && state.minimumAvailableSequence ≤ state.nextSequence-1
    && state.idempotency.size ≤ config.maxIdempotencyRecords) .invalidCheckpoint
  require (eventsInOrder state.nextSequence 0 state.events) .invalidCheckpoint
  require (!(state.rows.toList.any fun (key, row) =>
      !key.toList.contains unitSeparator || row.serverSequence = 0
        || state.nextSequence ≤ row.serverSequence || row.rowVersion = 0)
    && !(state.idempotency.toList.any fun (_, record) =>
      record.receipt.sequence = 0 || state.nextSequence ≤ record.receipt.sequence))
    .invalidCheckpoint

def SyncEngine.restore (crates : Crates) (projectId : String) (secret : Bytes)
    (config : SyncConfig) (checkpoint : SyncCheckpoint) : Except SyncError SyncEngine := do
  let envelope ← orError (crates.envelopeFromSlice checkpoint.bytes) .invalidCheckpoint
  require (envelope.formatVersion = checkpointFormatVersion
    && envelope.projectId = projectId && envelope.schemaVersion ≠ 0) .invalidCheckpoint
  validateState envelope.state config
  let engine ← SyncEngine.new projectId envelope.schemaVersion secret config
  pure { engine with state := envelope.state }

def SyncEngine.verifyContext (engine : SyncEngine) (context : SyncContext) :
    Except SyncError Unit := do
  require (context.projectId = engine.projectId) .wrongProject
  require (context.subject ≠ "" && context.role ≠ "" && context.scopeFingerprint ≠ ""
    && context.trustedClientId ≠ "" && context.trustedClientId.utf8ByteSize ≤ 200) .invalidContext

def SyncEngine.latestSequence (engine : SyncEngine) : Nat := engine.state.nextSequence-1

def SyncEngine.claims (engine : SyncEngine) (context : SyncContext) (sequence : Nat)
    (nowMs : Int64) : CursorClaims where
  projectId := engine.projectId
  subject := context.subject
  trustedClientId := context.trustedClientId
  sequence := sequence
  schemaVersion := engine.schemaVersion
  scopeFingerprint := context.scopeFingerprint
  issuedAtMs := nowMs
  expiresAtMs := Saturating.add nowMs engine.config.cursorTtlMs

def SyncEngine.cursor (crates : Crates) (engine : SyncEngine) (context : SyncContext)
    (sequence : Nat) (nowMs : Int64) : Except SyncError OpaqueCursor :=
  engine.cursorCodec.encode crates (engine.claims context sequence nowMs)

def tableOfKey (key : String) : String :=
  match Text.splitOnce unitSeparator key.toList with
  | some (table, _) => String.ofList table
  | none => ""

def snapshotRow (context : SyncContext) (authorizer : SyncAuthorizer) (key : String)
    (row : StoredRow) : Option ReplicaRow :=
  if row.deletedAtMs.isSome then none
  else if authorizer.canRead context (tableOfKey key) row.values then
    some
      { table := tableOfKey key
        primaryKey := row.primaryKey
        values := row.values
        rowVersion := row.rowVersion
        serverSequence := row.serverSequence }
  else none

def ReplicaRow.beforeOrSame (left right : ReplicaRow) : Bool :=
  left.table < right.table
    || (left.table = right.table && left.serverSequence ≤ right.serverSequence)

def SyncEngine.snapshot (crates : Crates) (engine : SyncEngine) (context : SyncContext)
    (authorizer : SyncAuthorizer) (nowMs : Int64) : Except SyncError Snapshot := do
  engine.verifyContext context
  let rows := engine.state.rows.toList.filterMap fun (key, row) =>
    snapshotRow context authorizer key row
  let cursor ← engine.cursor crates context engine.latestSequence nowMs
  pure
    { schemaVersion := engine.schemaVersion
      rows := rows.mergeSort ReplicaRow.beforeOrSame
      cursor := cursor }

def isVisible (event : LogicalEvent) (context : SyncContext) (authorizer : SyncAuthorizer) :
    Bool :=
  match event with
  | .upsert _ _ table _ values _ _ _ _ _ => authorizer.canRead context table values
  | .delete _ _ table _ tombstone _ _ _ _ _ => authorizer.canRead context table tombstone
  | .resnapshotRequired _ _ _ _ => true

/-- The loop of `pull`: collected events, examined sequence and `has_more`. The
examined sequence moves before the page limit is tested. -/
def pullLoop (visible : LogicalEvent → Bool) (limit : Nat) :
    List LogicalEvent → List LogicalEvent → Nat → List LogicalEvent × Nat × Bool
  | [], events, examinedSequence => (events, examinedSequence, false)
  | event :: rest, events, _ =>
    if visible event then
      if events.length = limit then (events, event.sequence, true)
      else pullLoop visible limit rest (events ++ [event]) event.sequence
    else pullLoop visible limit rest events event.sequence

def SyncEngine.pageLimit (engine : SyncEngine) (requestedLimit : Nat) : Nat :=
  max 1 (min requestedLimit engine.config.maxPullEvents)

def SyncEngine.acceptCursor (crates : Crates) (engine : SyncEngine) (context : SyncContext)
    (cursor : OpaqueCursor) (nowMs : Int64) : Except SyncError CursorClaims := do
  engine.verifyContext context
  let claims ← engine.cursorCodec.decode crates cursor
  require (claims.projectId = engine.projectId) .wrongProject
  require (claims.subject = context.subject && claims.trustedClientId = context.trustedClientId)
    .invalidCursor
  require (claims.issuedAtMs ≤ nowMs) .invalidCursor
  require (nowMs < claims.expiresAtMs) (.resnapshotRequired .cursorExpired)
  require (claims.schemaVersion = engine.schemaVersion) (.resnapshotRequired .schemaChanged)
  require (claims.scopeFingerprint = context.scopeFingerprint)
    (.resnapshotRequired .authorizationChanged)
  require (engine.state.minimumAvailableSequence ≤ claims.sequence)
    (.resnapshotRequired .cursorExpired)
  pure claims

def SyncEngine.pull (crates : Crates) (engine : SyncEngine) (context : SyncContext)
    (cursor : OpaqueCursor) (requestedLimit : Nat) (authorizer : SyncAuthorizer)
    (nowMs : Int64) : Except SyncError PullResult := do
  let claims ← engine.acceptCursor crates context cursor nowMs
  let after := engine.state.events.filter fun event => claims.sequence < event.sequence
  let (events, examinedSequence, hasMore) :=
    pullLoop (fun event => isVisible event context authorizer)
      (engine.pageLimit requestedLimit) after [] claims.sequence
  let cursor ← engine.cursor crates context
    (if hasMore then examinedSequence else engine.latestSequence) nowMs
  pure { events := events, cursor := cursor, hasMore := hasMore }

def validateBatch (batch : PushBatch) (context : SyncContext) (schemaVersion : Nat)
    (maxMutations : Nat) : Except SyncError Unit := do
  require (batch.schemaVersion = schemaVersion)
    (.schemaMismatch schemaVersion batch.schemaVersion)
  require (batch.clientId ≠ "" && batch.clientId = context.trustedClientId
    && !batch.mutations.isEmpty && batch.mutations.length ≤ maxMutations) .invalidBatch

def tableNameAccepted (table : String) : Bool :=
  table ≠ "" && !"__ffdb_".toList.isPrefixOf table.toList
    && table.toList.all fun character => character.isAlphanum || character = '_'

def validateMutation (mutation : ClientMutation) : Except SyncError Unit :=
  require (mutation.mutationId ≠ "" && mutation.mutationId.utf8ByteSize ≤ 200
    && tableNameAccepted mutation.table && !mutation.primaryKey.isNull
    && !(mutation.operation = .upsert && mutation.values.isEmpty)) .invalidMutation

def rowKey (crates : Crates) (table : String) (primaryKey : Value) : Except SyncError String := do
  let text ← orError (crates.valueToString primaryKey) .invalidMutation
  pure (table ++ String.ofList [unitSeparator] ++ text)

def idempotencyKey (context : SyncContext) (mutation : ClientMutation) : String :=
  context.subject ++ String.ofList [unitSeparator] ++ context.trustedClientId
    ++ String.ofList [unitSeparator] ++ mutation.mutationId

def mutationTarget (crates : Crates) (mutation : ClientMutation) :
    Except SyncError (Bytes × String) := do
  validateMutation mutation
  let payload ← orError (crates.mutationToVec mutation) .invalidMutation
  let key ← rowKey crates mutation.table mutation.primaryKey
  pure (crates.sha256 payload, key)

/-- The row put before `can_write`. Only a delete looks at the stored row. -/
def authorizationRow (mutation : ClientMutation) (prior : Option StoredRow) : JsonMap :=
  if mutation.operation = .delete then
    match prior with
    | some row => row.values
    | none => mutation.values
  else mutation.values

def pruneIdempotency (config : SyncConfig) (state : EngineState) (nowMs : Int64) : EngineState :=
  let cutoff := Saturating.sub nowMs config.idempotencyRetentionMs
  { state with idempotency := state.idempotency.filter fun _ record => cutoff ≤ record.committedAtMs }

def nextRowVersion (prior : Option StoredRow) : Nat :=
  match prior with
  | some row => Saturating.succ row.rowVersion
  | none => 1

def writtenRow (mutation : ClientMutation) (prior : Option StoredRow) (sequence : Nat)
    (nowMs : Int64) : StoredRow :=
  match mutation.operation with
  | .upsert =>
    { primaryKey := mutation.primaryKey
      values := mutation.values
      rowVersion := nextRowVersion prior
      serverSequence := sequence
      deletedAtMs := none }
  | .delete =>
    { primaryKey := mutation.primaryKey
      values := match prior with
        | some row => row.values
        | none => []
      rowVersion := nextRowVersion prior
      serverSequence := sequence
      deletedAtMs := some nowMs }

def mutationEvent (engine : SyncEngine) (context : SyncContext) (transactionId : String)
    (mutation : ClientMutation) (prior : Option StoredRow) (sequence : Nat) (nowMs : Int64) :
    LogicalEvent :=
  let row := writtenRow mutation prior sequence nowMs
  match mutation.operation with
  | .upsert => .upsert sequence transactionId mutation.table mutation.primaryKey row.values
      row.rowVersion context.subject engine.schemaVersion nowMs (some mutation.mutationId)
  | .delete => .delete sequence transactionId mutation.table mutation.primaryKey row.values
      row.rowVersion context.subject engine.schemaVersion nowMs (some mutation.mutationId)

def mutationReceipt (mutation : ClientMutation) (prior : Option StoredRow) (sequence : Nat) :
    MutationReceipt where
  mutationId := mutation.mutationId
  sequence := sequence
  rowVersion := nextRowVersion prior
  outcome := .applied

def commitMutation (engine : SyncEngine) (context : SyncContext) (transactionId : String)
    (mutation : ClientMutation) (payloadHash : Bytes) (key : String) (prior : Option StoredRow)
    (nowMs : Int64) : EngineState :=
  let state := pruneIdempotency engine.config engine.state nowMs
  let sequence := state.nextSequence
  { state with
    nextSequence := Saturating.succ state.nextSequence
    rows := state.rows.insert key (writtenRow mutation prior sequence nowMs)
    events := state.events ++ [mutationEvent engine context transactionId mutation prior sequence nowMs]
    idempotency := state.idempotency.insert (idempotencyKey context mutation)
      { payloadHash := payloadHash
        receipt := mutationReceipt mutation prior sequence
        committedAtMs := nowMs } }

def SyncEngine.applyMutation (crates : Crates) (engine : SyncEngine) (context : SyncContext)
    (transactionId : String) (mutation : ClientMutation) (authorizer : SyncAuthorizer)
    (nowMs : Int64) : Except SyncError MutationReceipt × SyncEngine :=
  match mutationTarget crates mutation with
  | .error error => (.error error, engine)
  | .ok (payloadHash, key) =>
    let prior := engine.state.rows[key]?
    if authorizer.canWrite context mutation.table mutation.operation
        (authorizationRow mutation prior) then
      match engine.state.idempotency[idempotencyKey context mutation]? with
      | some record =>
        if record.payloadHash = payloadHash then
          (.ok { record.receipt with outcome := .alreadyApplied }, engine)
        else (.error .mutationIdReused, engine)
      | none =>
        let pruned := pruneIdempotency engine.config engine.state nowMs
        if engine.config.maxIdempotencyRecords ≤ pruned.idempotency.size then
          (.error .idempotencyCapacityReached, { engine with state := pruned })
        else
          (.ok (mutationReceipt mutation prior engine.state.nextSequence),
            { engine with
              state := commitMutation engine context transactionId mutation payloadHash key prior
                nowMs })
    else (.error .rlsDenied, engine)

def SyncEngine.allocateTransactionId (engine : SyncEngine) : String × SyncEngine :=
  (s!"tx-{engine.state.transactionCounter}",
    { engine with state := { engine.state with
        transactionCounter := Saturating.succ engine.state.transactionCounter } })

def SyncEngine.applyBatchLoop (crates : Crates) (context : SyncContext) (transactionId : String)
    (authorizer : SyncAuthorizer) (nowMs : Int64) :
    List ClientMutation → List MutationReceipt → SyncEngine →
      Except SyncError (List MutationReceipt) × SyncEngine
  | [], accepted, engine => (.ok accepted, engine)
  | mutation :: rest, accepted, engine =>
    match engine.applyMutation crates context transactionId mutation authorizer nowMs with
    | (.ok receipt, engine) =>
      applyBatchLoop crates context transactionId authorizer nowMs rest (accepted ++ [receipt]) engine
    | (.error error, engine) => (.error error, engine)

def SyncEngine.applyBatch (crates : Crates) (engine : SyncEngine) (context : SyncContext)
    (batch : PushBatch) (authorizer : SyncAuthorizer) (nowMs : Int64) :
    Except SyncError PushResult × SyncEngine :=
  let (transactionId, engine) := engine.allocateTransactionId
  match applyBatchLoop crates context transactionId authorizer nowMs batch.mutations [] engine with
  | (.error error, engine) => (.error error, engine)
  | (.ok accepted, engine) =>
    match engine.cursor crates context engine.latestSequence nowMs with
    | .error error => (.error error, engine)
    | .ok cursor => (.ok { accepted := accepted, rejected := [], cursor := cursor }, engine)

def SyncEngine.applyPartialLoop (crates : Crates) (context : SyncContext) (transactionId : String)
    (authorizer : SyncAuthorizer) (nowMs : Int64) :
    List ClientMutation → List MutationReceipt → List MutationFailure → SyncEngine →
      (List MutationReceipt × List MutationFailure) × SyncEngine
  | [], accepted, rejected, engine => ((accepted, rejected), engine)
  | mutation :: rest, accepted, rejected, engine =>
    match engine.applyMutation crates context transactionId mutation authorizer nowMs with
    | (.ok receipt, engine) =>
      applyPartialLoop crates context transactionId authorizer nowMs rest (accepted ++ [receipt])
        rejected engine
    | (.error error, engine) =>
      applyPartialLoop crates context transactionId authorizer nowMs rest accepted
        (rejected ++ [{ mutationId := mutation.mutationId, code := error.code }]) engine

def SyncEngine.applyPartial (crates : Crates) (engine : SyncEngine) (context : SyncContext)
    (batch : PushBatch) (authorizer : SyncAuthorizer) (nowMs : Int64) :
    Except SyncError PushResult × SyncEngine :=
  let (transactionId, engine) := engine.allocateTransactionId
  let ((accepted, rejected), engine) :=
    applyPartialLoop crates context transactionId authorizer nowMs batch.mutations [] [] engine
  match engine.cursor crates context engine.latestSequence nowMs with
  | .error error => (.error error, engine)
  | .ok cursor => (.ok { accepted := accepted, rejected := rejected, cursor := cursor }, engine)

def SyncEngine.push (crates : Crates) (engine : SyncEngine) (context : SyncContext)
    (batch : PushBatch) (authorizer : SyncAuthorizer) (nowMs : Int64) :
    Except SyncError PushResult × SyncEngine :=
  match engine.verifyContext context with
  | .error error => (.error error, engine)
  | .ok _ =>
    match validateBatch batch context engine.schemaVersion engine.config.maxPushMutations with
    | .error error => (.error error, engine)
    | .ok _ =>
      match batch.mode with
      | .atomicBatch =>
        match engine.applyBatch crates context batch authorizer nowMs with
        | (.ok result, after) => (.ok result, after)
        | (.error error, after) => (.error error, { after with state := engine.state })
      | .partialBatch => engine.applyPartial crates context batch authorizer nowMs

def SyncEngine.allocateSequence (engine : SyncEngine) : Nat × SyncEngine :=
  (engine.state.nextSequence,
    { engine with state := { engine.state with
        nextSequence := Saturating.succ engine.state.nextSequence } })

def SyncEngine.invalidate (engine : SyncEngine) (reason : ResnapshotReason)
    (newSchemaVersion : Option Nat) (nowMs : Int64) : Except SyncError Nat × SyncEngine :=
  let announce (engine : SyncEngine) : Except SyncError Nat × SyncEngine :=
    let (sequence, engine) := engine.allocateSequence
    (.ok sequence, { engine with state := { engine.state with
      events := engine.state.events ++
        [.resnapshotRequired sequence reason engine.schemaVersion nowMs] } })
  match newSchemaVersion with
  | some version =>
    if version ≤ engine.schemaVersion then (.error .invalidSchemaVersion, engine)
    else announce { engine with schemaVersion := version }
  | none => announce engine

/-- The closure of `retain` over the log: kept events, removals and the new minimum. -/
def retainEvents (cutoff : Int64) : List LogicalEvent → Nat → List LogicalEvent × Nat × Nat
  | [], minimum => ([], 0, minimum)
  | event :: rest, minimum =>
    if cutoff ≤ event.committedAtMs then
      let (kept, removed, minimum) := retainEvents cutoff rest minimum
      (event :: kept, removed, minimum)
    else
      let (kept, removed, minimum) := retainEvents cutoff rest (max minimum event.sequence)
      (kept, removed+1, minimum)

def keepRow (cutoff : Int64) (row : StoredRow) : Bool :=
  match row.deletedAtMs with
  | none => true
  | some deletedAt => cutoff ≤ deletedAt

def SyncEngine.compact (engine : SyncEngine) (nowMs : Int64) : CompactionResult × SyncEngine :=
  let changeCutoff := Saturating.sub nowMs engine.config.changeRetentionMs
  let tombstoneCutoff := Saturating.sub nowMs engine.config.tombstoneRetentionMs
  let (events, removedEvents, minimum) :=
    retainEvents changeCutoff engine.state.events engine.state.minimumAvailableSequence
  let rows := engine.state.rows.filter fun _ row => keepRow tombstoneCutoff row
  let state := pruneIdempotency engine.config
    { engine.state with
      minimumAvailableSequence := minimum
      events := events
      rows := rows } nowMs
  ({ removedEvents := removedEvents
     removedTombstones := engine.state.rows.size-rows.size
     minimumAvailableSequence := minimum },
    { engine with state := state })

end Ffdb.Sync
