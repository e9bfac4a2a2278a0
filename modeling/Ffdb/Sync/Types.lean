import Mathlib.Tactic.Linarith
import Mathlib.Data.String.Basic
import Ffdb.Lib.Saturating

/-! Wire and state types of the logical replication core. Counters are naturals
whose increments saturate as `u64`; wall-clock times are signed 64-bit. -/
namespace Ffdb.Sync

/-- JSON numbers as the value model keeps them; floats by their bit pattern. -/
inductive Number where
  | posInt (value : Nat)
  | negInt (value : Int)
  | float (bits : UInt64)
  deriving DecidableEq

inductive Value where
  | null
  | bool (value : Bool)
  | number (value : Number)
  | string (value : String)
  | array (items : List Value)
  | object (fields : List (String × Value))

-- nested inductive types have no derived equality
mutual
def Value.same : Value → Value → Bool
  | .null, .null => true
  | .bool a, .bool b => a = b
  | .number a, .number b => a = b
  | .string a, .string b => a = b
  | .array a, .array b => sameItems a b
  | .object a, .object b => sameFields a b
  | _, _ => false

def Value.sameItems : List Value → List Value → Bool
  | [], [] => true
  | a :: as, b :: bs => a.same b && sameItems as bs
  | _, _ => false

def Value.sameFields : List (String × Value) → List (String × Value) → Bool
  | [], [] => true
  | (m, a) :: as, (n, b) :: bs => m = n && a.same b && sameFields as bs
  | _, _ => false
end

mutual
theorem Value.same_iff : (a b : Value) → (a.same b = true ↔ a = b)
  | .null, b => by cases b <;> simp [same]
  | .bool _, b => by cases b <;> simp [same]
  | .number _, b => by cases b <;> simp [same]
  | .string _, b => by cases b <;> simp [same]
  | .array xs, b => by cases b <;> simp [same, sameItems_iff xs]
  | .object xs, b => by cases b <;> simp [same, sameFields_iff xs]

theorem Value.sameItems_iff : (as bs : List Value) → (sameItems as bs = true ↔ as = bs)
  | [], bs => by cases bs <;> simp [sameItems]
  | a :: as, bs => by cases bs <;> simp [sameItems, same_iff a, sameItems_iff as]

theorem Value.sameFields_iff :
    (as bs : List (String × Value)) → (sameFields as bs = true ↔ as = bs)
  | [], bs => by cases bs <;> simp [sameFields]
  | (m, a) :: as, bs => by
    cases bs <;> simp [sameFields, same_iff a, sameFields_iff as, Prod.ext_iff]
end

instance : DecidableEq Value := fun a b => decidable_of_iff _ (Value.same_iff a b)

def Value.isNull : Value → Bool
  | .null => true
  | _ => false

def Value.asStr : Value → Option String
  | .string value => some value
  | _ => none

abbrev JsonMap := List (String × Value)

abbrev Bytes := List UInt8

structure SyncContext where
  projectId : String
  subject : String
  role : String
  scopeFingerprint : String
  trustedClientId : String
  deriving DecidableEq

inductive MutationOperation where
  | upsert
  | delete
  deriving DecidableEq

/-- The host's row policy. Both answers depend on nothing but the arguments. -/
structure SyncAuthorizer where
  canRead : SyncContext → String → JsonMap → Bool
  canWrite : SyncContext → String → MutationOperation → JsonMap → Bool

structure ClientMutation where
  mutationId : String
  table : String
  primaryKey : Value
  operation : MutationOperation
  values : JsonMap
  baseRowVersion : Option Nat
  clientTimestampMs : Option Int64
  deriving DecidableEq

inductive BatchMode where
  | atomicBatch
  | partialBatch
  deriving DecidableEq

structure PushBatch where
  clientId : String
  schemaVersion : Nat
  mode : BatchMode
  mutations : List ClientMutation
  deriving DecidableEq

inductive MutationOutcome where
  | applied
  | alreadyApplied
  deriving DecidableEq

structure MutationReceipt where
  mutationId : String
  sequence : Nat
  rowVersion : Nat
  outcome : MutationOutcome
  deriving DecidableEq

structure MutationFailure where
  mutationId : String
  code : String
  deriving DecidableEq

/-- The authenticated cursor text; clients never look inside. -/
structure OpaqueCursor where
  text : List Char
  deriving DecidableEq

structure PushResult where
  accepted : List MutationReceipt
  rejected : List MutationFailure
  cursor : OpaqueCursor
  deriving DecidableEq

structure ReplicaRow where
  table : String
  primaryKey : Value
  values : JsonMap
  rowVersion : Nat
  serverSequence : Nat
  deriving DecidableEq

inductive ResnapshotReason where
  | cursorExpired
  | schemaChanged
  | authorizationChanged
  | policyChanged
  deriving DecidableEq

inductive LogicalEvent where
  | upsert (sequence : Nat) (transactionId table : String) (primaryKey : Value)
      (values : JsonMap) (rowVersion : Nat) (actor : String) (schemaVersion : Nat)
      (serverCommitMs : Int64) (clientMutationId : Option String)
  | delete (sequence : Nat) (transactionId table : String) (primaryKey : Value)
      (tombstone : JsonMap) (rowVersion : Nat) (actor : String) (schemaVersion : Nat)
      (serverCommitMs : Int64) (clientMutationId : Option String)
  | resnapshotRequired (sequence : Nat) (reason : ResnapshotReason) (schemaVersion : Nat)
      (serverCommitMs : Int64)
  deriving DecidableEq

def LogicalEvent.sequence : LogicalEvent → Nat
  | .upsert sequence _ _ _ _ _ _ _ _ _ => sequence
  | .delete sequence _ _ _ _ _ _ _ _ _ => sequence
  | .resnapshotRequired sequence _ _ _ => sequence

def LogicalEvent.committedAtMs : LogicalEvent → Int64
  | .upsert _ _ _ _ _ _ _ _ serverCommitMs _ => serverCommitMs
  | .delete _ _ _ _ _ _ _ _ serverCommitMs _ => serverCommitMs
  | .resnapshotRequired _ _ _ serverCommitMs => serverCommitMs

structure Snapshot where
  schemaVersion : Nat
  rows : List ReplicaRow
  cursor : OpaqueCursor
  deriving DecidableEq

structure PullResult where
  events : List LogicalEvent
  cursor : OpaqueCursor
  hasMore : Bool
  deriving DecidableEq

structure SyncConfig where
  cursorTtlMs : Int64
  changeRetentionMs : Int64
  tombstoneRetentionMs : Int64
  maxPullEvents : Nat
  maxPushMutations : Nat
  idempotencyRetentionMs : Int64
  maxIdempotencyRecords : Nat
  deriving DecidableEq

structure StoredRow where
  primaryKey : Value
  values : JsonMap
  rowVersion : Nat
  serverSequence : Nat
  deletedAtMs : Option Int64
  deriving DecidableEq

structure IdempotencyRecord where
  payloadHash : Bytes
  receipt : MutationReceipt
  committedAtMs : Int64
  deriving DecidableEq

/-- Rows and receipts live in hash maps. The extensional ordered map stands for
them: two states are equal exactly when they hold the same entries. -/
structure EngineState where
  nextSequence : Nat
  minimumAvailableSequence : Nat
  transactionCounter : Nat
  rows : Std.ExtTreeMap String StoredRow
  events : List LogicalEvent
  idempotency : Std.ExtTreeMap String IdempotencyRecord
  deriving DecidableEq

structure CheckpointEnvelope where
  formatVersion : Nat
  projectId : String
  schemaVersion : Nat
  state : EngineState
  deriving DecidableEq

structure SyncCheckpoint where
  bytes : Bytes
  deriving DecidableEq

structure CursorClaims where
  projectId : String
  subject : String
  trustedClientId : String
  sequence : Nat
  schemaVersion : Nat
  scopeFingerprint : String
  issuedAtMs : Int64
  expiresAtMs : Int64
  deriving DecidableEq

structure CompactionResult where
  removedEvents : Nat
  removedTombstones : Nat
  minimumAvailableSequence : Nat
  deriving DecidableEq

inductive SyncError where
  | invalidConfiguration
  | invalidContext
  | invalidCursor
  | wrongProject
  | resnapshotRequired (reason : ResnapshotReason)
  | schemaMismatch (expected received : Nat)
  | invalidSchemaVersion
  | invalidBatch
  | invalidMutation
  | rlsDenied
  | mutationIdReused
  | idempotencyCapacityReached
  | invalidCheckpoint
  deriving DecidableEq

def SyncError.code : SyncError → String
  | .invalidConfiguration => "sync.invalid_configuration"
  | .invalidContext => "sync.invalid_context"
  | .invalidCursor => "sync.invalid_cursor"
  | .wrongProject => "sync.wrong_project"
  | .resnapshotRequired _ => "sync.resnapshot_required"
  | .schemaMismatch _ _ => "sync.schema_mismatch"
  | .invalidSchemaVersion => "sync.invalid_schema_version"
  | .invalidBatch => "sync.invalid_batch"
  | .invalidMutation => "sync.invalid_mutation"
  | .rlsDenied => "sync.rls_denied"
  | .mutationIdReused => "sync.mutation_id_reused"
  | .idempotencyCapacityReached => "sync.idempotency_capacity_reached"
  | .invalidCheckpoint => "sync.invalid_checkpoint"

/-- What the engine calls in other crates: serde_json, sha2 and hmac. A missing
result is the error the crate may report. Nothing is assumed of them here. -/
structure Crates where
  valueToString : Value → Option String
  mutationToVec : ClientMutation → Option Bytes
  sha256 : Bytes → Bytes
  claimsToVec : CursorClaims → Option Bytes
  claimsFromSlice : Bytes → Option CursorClaims
  hmacSha256 : Bytes → Bytes → Option Bytes
  envelopeToVec : CheckpointEnvelope → Option Bytes
  envelopeFromSlice : Bytes → Option CheckpointEnvelope

end Ffdb.Sync
