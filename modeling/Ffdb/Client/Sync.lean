import Ffdb.Client.Queue
import Ffdb.Lib.Act

/-! A replica synchronises with its server: a snapshot where there is no cursor, then the pending mutations are pushed,
then the changes are pulled. -/
namespace Ffdb.Client
open Turns Sync

structure SyncPushRequest where
  schemaVersion : Nat
  mutations : List SyncMutation

inductive SyncControl where
  | resnapshotRequired (reason : String) (minimumSchemaVersion : Nat)
  | invalidateScope (scopeFingerprint : String)

structure SyncPullResponse where
  changes : List LogicalChange
  cursor : String
  hasMore : Bool
  control : Option SyncControl

structure SyncDatabase (σ : Type) where
  schemaVersion : σ → Nat
  /-- One mutation behind its savepoint: whether it is a duplicate, or the code that it is rejected with. -/
  applySyncMutation : σ → SyncMutation → σ × Except String Bool
  /-- The schema version and the sequence of a cursor that is the caller's and has not expired. -/
  cursorClaims : σ → String → Option (Nat × Nat)
  issueSyncCursor : σ → Nat → String
  latestSequence : σ → Nat
  /-- The changes to show after a sequence, the last sequence that was examined, and whether there are more. -/
  visibleChanges : σ → Nat → Nat → List LogicalChange × Nat × Bool
  snapshotTables : σ → List (String × QueryResult)

namespace SyncDatabase
variable {σ : Type} (database : SyncDatabase σ)

def applyIndividually : List SyncMutation → σ → σ × List SyncMutationResult
  | [], s => (s, [])
  | mutation :: mutations, s =>
    let (s', receipt) := database.applySyncMutation s mutation
    let (s'', results) := applyIndividually mutations s'
    (s'', (match receipt with
      | .ok duplicate => ⟨mutation.mutationId, if duplicate then .duplicate else .applied, none⟩
      | .error code => ⟨mutation.mutationId, .rejected, some code⟩) :: results)

def executeSyncPush (request : SyncPushRequest) (s : σ) : σ × Except String (List SyncMutationResult) :=
  if request.mutations = [] ∨ 100 < request.mutations.length then (s, .error "sync.invalid_batch")
  else if database.schemaVersion s ≠ request.schemaVersion then (s, .error "sync.schema_version_mismatch")
  else
    let (s', results) := database.applyIndividually request.mutations s
    (s', .ok results)

/-- A cursor of another schema version is none. -/
def verifySyncCursor (cursor : String) (s : σ) : Option Nat :=
  match database.cursorClaims s cursor with
  | some (schemaVersion, sequence) => if schemaVersion = database.schemaVersion s then some sequence else none
  | none => none

def executeSyncPull (cursor : String) (limit : Nat) (s : σ) : SyncPullResponse :=
  match database.verifySyncCursor cursor s with
  | some after =>
    let (changes, examined, hasMore) := database.visibleChanges s after limit
    { changes, cursor := database.issueSyncCursor s examined, hasMore, control := none }
  | none => {
      changes := []
      cursor := database.issueSyncCursor s (database.latestSequence s)
      hasMore := false
      control := some (.resnapshotRequired "cursor_expired_or_authorization_changed" (database.schemaVersion s)) }

def executeSnapshot (s : σ) : SnapshotResponse where
  schemaVersion := database.schemaVersion s
  cursor := database.issueSyncCursor s (database.latestSequence s)
  tables := database.snapshotTables s

end SyncDatabase

structure OfflineSyncOptions where
  pushBatchSize : Nat
  pullBatchSize : Nat
  push_bounds : 1 ≤ pushBatchSize ∧ pushBatchSize ≤ 100
  pull_bounds : 1 ≤ pullBatchSize ∧ pullBatchSize ≤ 1000

structure Session (σ : Type) where
  server : σ
  replica : MemoryReplica
  results : List SyncMutationResult := []

inductive SyncFailure where
  | thrown (error : String)
  | running

abbrev SyncCall (σ α : Type) := Act (Session σ) SyncFailure α

section Client
variable {σ : Type} (js : Js) (database : SyncDatabase σ) (options : OfflineSyncOptions) (clock : MemoryReplica → Int)

def transaction {ρ : Type} (work : Transaction ρ) : SyncCall σ ρ := fun session =>
  match work.transact (MemoryReplica.perform js) session.replica with
  | (replica, .ok result) => (.ok result, { session with replica })
  | (replica, .error error) => (.error (.thrown error), { session with replica })

def push (request : SyncPushRequest) : SyncCall σ (List SyncMutationResult) := fun session =>
  match database.executeSyncPush request session.server with
  | (server, .ok results) => (.ok results, { session with server, results := session.results ++ results })
  | (server, .error error) => (.error (.thrown error), { session with server })

def resnapshot : SyncCall σ Position := do
  let snapshot ← Act.read fun session => database.executeSnapshot session.server
  transaction js (applySnapshot snapshot)
  pure ⟨snapshot.cursor, snapshot.schemaVersion⟩

def pushLoop (schemaVersion : Nat) : Nat → Bool → SyncCall σ Bool
  | 0, _ => Act.fail .running
  | rounds+1, requiresAuthoritativeSnapshot => do
    let nowMs ← Act.read fun session => clock session.replica
    let pending ← Act.read fun session => session.replica.getPending js options.pushBatchSize
    match pending with
    | .error error => Act.fail (.thrown error)
    | .ok [] => pure requiresAuthoritativeSnapshot
    | .ok batch => do
      let results ← push database ⟨schemaVersion, batch.map (·.toSyncMutation)⟩
      let requires ← transaction js (consumePushResults batch results nowMs)
      pushLoop schemaVersion rounds (requires || requiresAuthoritativeSnapshot)

def pullFrom : Nat → Position → SyncCall σ Position
  | 0, _ => Act.fail .running
  | rounds+1, position => do
    let result ← Act.read fun session => database.executeSyncPull position.cursor options.pullBatchSize session.server
    match result.control with
    | some _ => resnapshot js database
    | none => do
      let position := { position with cursor := result.cursor }
      transaction js (applyPage js result.changes position)
      if result.hasMore then pullFrom rounds position else pure position

def performSync (pushes pulls : Nat) : SyncCall σ Unit := do
  let cursor ← Act.read fun session => session.replica.cursor
  let position ← match cursor with
    | none => resnapshot js database
    | some position => pure position
  let requiresAuthoritativeSnapshot ← pushLoop js database options clock position.schemaVersion pushes false
  let position ← if requiresAuthoritativeSnapshot then resnapshot js database else pure position
  let _ ← pullFrom js database options pulls position

end Client

end Ffdb.Client
