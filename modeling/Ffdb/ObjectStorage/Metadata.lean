import Ffdb.ObjectStorage.Cleanup

/-! What the database of a project knows of its objects: tables that policies guard, and tables that only the
functions here touch. The transaction of a function that fails is rolled back. -/
namespace Ffdb.ObjectStorage
open Fallible

def commitReceiptTtlMs : Int64 := 24*60*60*1000

def uploadTtlMs : Int64 := 24*60*60*1000

inductive MetadataError where
  | statementNotAllowed
  | storageQuotaExceeded
  | storageReservationDuplicate
  | storageReservationMismatch
  | constraintViolation
  | database
  deriving DecidableEq

def mapRuntime : MetadataError → StorageError
  | .storageQuotaExceeded => .projectQuotaExceeded
  | .storageReservationDuplicate => .duplicateReservation
  | .storageReservationMismatch => .internal
  | .statementNotAllowed | .constraintViolation | .database => .rlsDenied

def CleanupError.toMetadata : CleanupError → MetadataError
  | .statementNotAllowed => .statementNotAllowed
  | .reservationMismatch => .storageReservationMismatch
  | .constraint => .constraintViolation
  | .overflow => .database

/-- The limits of a bucket are integers of SQLite. -/
structure BucketRow where
  name : List Char
  maxObjectBytes : Nat
  projectQuotaBytes : Nat
  quota_lt : projectQuotaBytes < 2^63

structure ObjectRow where
  bucketId : List Char
  objectKey : List Char
  ownerId : List Char
  sizeBytes : Nat
  contentType : Option (List Char)
  checksumSha256 : Option (List Char)
  etag : Option (List Char)
  versionId : Option (List Char)
  createdAtMs : Int64
  updatedAtMs : Int64

inductive UploadStatus where
  | authorizing
  | active
  deriving DecidableEq

structure UploadRow where
  bucketId : List Char
  objectKey : List Char
  ownerId : List Char
  expectedSizeBytes : Option Nat
  checksumSha256 : Option (List Char)
  contentType : Option (List Char)
  status : UploadStatus
  createdAtMs : Int64
  expiresAtMs : Int64

structure VersionRow where
  objectId : List Char
  ownerId : List Char
  sizeBytes : Nat
  checksumSha256 : Option (List Char)
  etag : Option (List Char)
  providerVersionId : List Char
  createdAtMs : Int64

structure ReservationRow where
  subject : List Char
  tokenId : List Char
  bytes : Nat
  expiresAtMs : Int64
  providerKey : List Char
  action : StorageAction
  uploadId : Option (List Char)
  deriving DecidableEq

structure StorageProviderUploadBinding where
  providerKey : List Char
  reservedBytes : Nat
  replacementFingerprint : Option (List Char)

structure PartRow where
  sizeBytes : Option Nat
  checksumSha256 : Option (List Char)
  etag : Option (List Char)

structure ReceiptRow (δ : Type) where
  subject : List Char
  tokenId : List Char
  bindingDigest : δ
  commitDigest : δ
  result : StorageCommitResult
  committedAtMs : Int64
  expiresAtMs : Int64

/-- The tables of one project. Reservations and receipts are kept under the nonce of their grant. -/
structure StorageTables (δ : Type) where
  buckets : Table (List Char) BucketRow := ∅
  objects : Table (List Char) ObjectRow := ∅
  uploads : Table (List Char) UploadRow := ∅
  versions : Table (List Char) VersionRow := ∅
  providerObjects : Table (List Char) (List Char) := ∅
  reservations : Table (List Char) ReservationRow := ∅
  providerUploads : Table (List Char) StorageProviderUploadBinding := ∅
  uploadParts : Table (List Char × Nat) PartRow := ∅
  receipts : Table (List Char) (ReceiptRow δ) := ∅
  cleanup : CleanupQueue := ∅

structure CommitBinding where
  projectId : List Char
  subject : List Char
  tokenId : List Char
  bucket : List Char
  objectKey : List Char
  providerKey : List Char
  action : StorageAction
  contentLength : Option Nat
  checksumSha256 : Option (List Char)
  contentType : Option (List Char)
  uploadId : Option (List Char)
  partNumber : Option Nat
  reservationNonce : List Char
  reservationBytes : Nat
  reservationExpiresAtMs : Int64
  replacementFingerprint : Option (List Char)
  deriving DecidableEq

structure Replacement where
  projectId : List Char
  bucketId : List Char
  objectId : List Char
  sizeBytes : Nat
  providerKey : List Char
  deriving DecidableEq

structure StorageCodecs (δ : Type) where
  doubles : Runtime.Doubles
  /-- the canonical text of an identifier -/
  parseUuid : List Char → Option (List Char)
  binding : CommitBinding → δ
  result : δ → StorageCommitResult → δ
  replacement : Replacement → List Char
  scope : AuthContext → List Char

/-- What the policies of a table say to a caller of its rows. They may look at everything else. -/
structure RowPolicy (σ ρ : Type) where
  select : σ → List Char → ρ → Bool
  insert : σ → List Char → ρ → Bool
  updateUsing : σ → List Char → ρ → Bool
  updateCheck : σ → List Char → ρ → Bool
  delete : σ → List Char → ρ → Bool

structure StoragePolicies (δ : Type) where
  buckets : RowPolicy (StorageTables δ) BucketRow
  objects : RowPolicy (StorageTables δ) ObjectRow
  uploads : RowPolicy (StorageTables δ) UploadRow
  versions : RowPolicy (StorageTables δ) VersionRow

section Rows
variable {σ ρ : Type} (policy : RowPolicy σ ρ) (tables : σ) (table : Table (List Char) ρ) (id : List Char)

def insertRow (row : ρ) : Except MetadataError (Table (List Char) ρ) := do
  require (policy.insert tables id row) .constraintViolation
  require (table.lookup id).isNone .constraintViolation
  pure (table.insert id row)

/-- Only a row that can be seen is changed. -/
def updateRow (change : ρ → ρ) : Except MetadataError (Table (List Char) ρ) :=
  match (table.lookup id).filter (policy.select tables id) with
  | none => pure table
  | some row => do
    require (policy.updateUsing tables id row && policy.updateCheck tables id (change row)) .constraintViolation
    pure (table.insert id (change row))

def deleteRow : Except MetadataError (Table (List Char) ρ) :=
  match (table.lookup id).filter (policy.select tables id) with
  | none => pure table
  | some row => do
    require (policy.delete tables id row) .constraintViolation
    pure (table.erase id)

end Rows

/-- A number that is stored must be an integer of SQLite. -/
def integer (value : Option Nat) : Except MetadataError Nat := do
  let value ← orError value .statementNotAllowed
  require (value < 2^63) .storageQuotaExceeded
  pure value

def optionalInteger : Option Nat → Except MetadataError (Option Nat)
  | none => pure none
  | some value => do
    require (value < 2^63) .storageQuotaExceeded
    pure (some value)

/-- A sum is an integer, or the query fails. -/
def sumInteger (total : Nat) : Except MetadataError Nat := do
  require (total < 2^63) .database
  pure total

/-- A write is tried and taken back. -/
def probeWrite {α : Type} (written : Except MetadataError α) : Except MetadataError Unit := do
  let _ ← written
  pure ()

def cleanupTargetPresent (action : StorageAction) (uploadId : Option (List Char)) : Bool :=
  match action with
  | .upload | .createMultipart | .completeMultipart => true
  | .uploadPart | .abortMultipart => uploadId.isSome
  | _ => false

namespace StorageTables
variable {δ : Type} (tables : StorageTables δ)

def usedBytes : Nat := tables.objects.total fun _ row => row.sizeBytes

def pendingBytes (nowMs : Int64) : Nat :=
  tables.reservations.total fun _ row => if nowMs < row.expiresAtMs then row.bytes else 0

def uploadBytes : Nat := tables.providerUploads.total fun _ binding => binding.reservedBytes

def quotaBytes : Option Nat := (tables.buckets.entries.map fun entry => entry.2.projectQuotaBytes).min?

def enqueue (nowMs : Int64) (entry : CleanupEntry) : Except MetadataError (StorageTables δ) := do
  let cleanup ← (enqueueCleanup nowMs tables.cleanup entry).mapError CleanupError.toMetadata
  pure { tables with cleanup }

/-- What was begun under a grant is enqueued, where there is something to clean up. -/
def enqueueTarget (nowMs : Int64) (entry : CleanupEntry) : Except MetadataError (StorageTables δ) :=
  if cleanupTargetPresent entry.action entry.uploadId then tables.enqueue nowMs entry else pure tables

/-- The current bytes; what is reserved is summed up too. -/
def storageUsage (nowMs : Int64) : Except MetadataError Nat := do
  let current ← sumInteger tables.usedBytes
  let pending ← sumInteger (tables.pendingBytes nowMs)
  let uploads ← sumInteger tables.uploadBytes
  require (pending + uploads < 2^63) .database
  pure current

def storageReserve (auth : AuthContext) (nonce : List Char) (bytes : Nat) (expiresAtMs nowMs : Int64)
    (providerKey : List Char) (action : StorageAction) (uploadId : Option (List Char)) :
    Except MetadataError (StorageTables δ) := do
  require (!(auth.projectId.isEmpty || auth.subject.isEmpty || auth.tokenId.isEmpty || Text.byteLength nonce < 16 ||
    128 < Text.byteLength nonce || expiresAtMs ≤ nowMs || providerKey.isEmpty)) .statementNotAllowed
  require (bytes < 2^63) .storageQuotaExceeded
  require (tables.reservations.lookup nonce).isNone .storageReservationDuplicate
  let quota ← orError tables.quotaBytes .storageQuotaExceeded
  let used ← sumInteger tables.usedBytes
  let reserved ← sumInteger (tables.pendingBytes nowMs + tables.uploadBytes)
  require (used + reserved + bytes < 2^63 && used + reserved + bytes ≤ quota) .storageQuotaExceeded
  pure { tables with
    reservations := tables.reservations.insert nonce
      { subject := auth.subject, tokenId := auth.tokenId, bytes, expiresAtMs, providerKey, action, uploadId } }

/-- The reservation that a grant names, word for word, while it lasts. -/
def consumeReservation (nonce : List Char) (expected : ReservationRow) (nowMs : Int64) :
    Except MetadataError (StorageTables δ) := do
  require (expected.bytes < 2^63) .storageReservationMismatch
  require (tables.reservations.lookup nonce = some expected && nowMs < expected.expiresAtMs)
    .storageReservationMismatch
  pure { tables with reservations := tables.reservations.erase nonce }

def releaseReservationBound (auth : AuthContext) (nonce : List Char) (expectedBytes : Nat)
    (expectedExpiresAtMs nowMs : Int64) (cleanupId : List Char) : Except MetadataError (StorageTables δ) := do
  require (expectedBytes < 2^63) .storageReservationMismatch
  let row ← orError (tables.reservations.lookup nonce) .storageReservationMismatch
  require (row.subject = auth.subject && row.tokenId = auth.tokenId && row.bytes = expectedBytes &&
    row.expiresAtMs = expectedExpiresAtMs && nowMs < row.expiresAtMs) .storageReservationMismatch
  let enqueued ← tables.enqueueTarget nowMs ⟨cleanupId, row.providerKey, row.action, row.uploadId⟩
  pure { enqueued with reservations := enqueued.reservations.erase nonce }

/-- An expired reservation goes; what was uploaded under it is to be cleaned up. -/
def expireReservation (nowMs : Int64) (before : StorageTables δ)
    (expired : (List Char × ReservationRow) × List Char) : Except MetadataError (StorageTables δ) := do
  let ((nonce, row), cleanupId) := expired
  let enqueued ← before.enqueueTarget nowMs ⟨cleanupId, row.providerKey, row.action, row.uploadId⟩
  require ((enqueued.reservations.lookup nonce).any fun row => row.expiresAtMs ≤ nowMs) .storageReservationMismatch
  pure { enqueued with reservations := enqueued.reservations.erase nonce }

def expireUpload (nowMs : Int64) (before : StorageTables δ) (expired : (List Char × List Char) × List Char) :
    Except MetadataError (StorageTables δ) := do
  let ((uploadId, providerKey), cleanupId) := expired
  let enqueued ← before.enqueue nowMs ⟨cleanupId, providerKey, .abortMultipart, some uploadId⟩
  pure { enqueued with
    uploadParts := enqueued.uploadParts.retain fun key _ => key.1 ≠ uploadId
    providerUploads := enqueued.providerUploads.erase uploadId
    uploads := enqueued.uploads.erase uploadId }

def expiresBefore {ρ : Type} (expiresAtMs : ρ → Int64) (a b : List Char × ρ) : Bool :=
  expiresAtMs a.2 < expiresAtMs b.2 || (expiresAtMs a.2 = expiresAtMs b.2 && a.1 ≤ b.1)

def expiredReservations (nowMs : Int64) (limit : Nat) : List (List Char × ReservationRow) :=
  (((tables.reservations.entries.filter fun entry => entry.2.expiresAtMs ≤ nowMs).map
    fun entry => (entry.1, entry.2)).mergeSort (expiresBefore (·.expiresAtMs))).take limit

def expiredUploads (nowMs : Int64) (limit : Nat) : List (List Char × List Char) :=
  (((((tables.uploads.entries.filter fun entry => entry.2.expiresAtMs ≤ nowMs).map
    fun entry => (entry.1, entry.2)).mergeSort (expiresBefore (·.expiresAtMs))).filterMap
      fun upload => (tables.providerUploads.lookup upload.1).map fun binding => (upload.1, binding.providerKey))).take
    limit

def prepareExpiredCleanup (nowMs : Int64) (limit : Nat) (cleanupIds : Vector (List Char × List Char) 100) :
    Except MetadataError (StorageTables δ) := do
  require (!(limit = 0 || 100 < limit)) .statementNotAllowed
  let reserved ← ((tables.expiredReservations nowMs limit).zip (cleanupIds.toList.map (·.1))).foldlM
    (expireReservation nowMs) tables
  let uploaded ← ((reserved.expiredUploads nowMs limit).zip (cleanupIds.toList.map (·.2))).foldlM
    (expireUpload nowMs) reserved
  pure { uploaded with receipts := uploaded.receipts.retain fun _ receipt => nowMs < receipt.expiresAtMs }

def commitReceipt [DecidableEq δ] (auth : AuthContext) (nonce : List Char) (bindingDigest : δ) (nowMs : Int64) :
    Except MetadataError (Option (ReceiptRow δ)) :=
  match tables.receipts.lookup nonce with
  | none => pure none
  | some receipt => do
    require (receipt.subject = auth.subject && receipt.tokenId = auth.tokenId &&
      receipt.bindingDigest = bindingDigest && nowMs < receipt.expiresAtMs) .storageReservationMismatch
    pure (some receipt)

def recordCommitReceipt (codecs : StorageCodecs δ) (nonce : List Char) (receipt : ReceiptRow δ) :
    Except MetadataError (StorageTables δ) := do
  require (!(receipt.expiresAtMs ≤ receipt.committedAtMs ||
    8192 < Text.byteLength (receiptText codecs.doubles receipt.result))) .statementNotAllowed
  require (tables.receipts.lookup nonce).isNone .constraintViolation
  pure { tables with receipts := tables.receipts.insert nonce receipt }
where
  receiptText (doubles : Runtime.Doubles) (result : StorageCommitResult) : List Char :=
    Runtime.valueText doubles (.object [
      ("content_length", result.contentLength.elim .null fun bytes => .number (.posInt bytes)),
      ("checksum_sha256", textValue result.checksumSha256),
      ("etag", textValue result.etag),
      ("version_id", textValue result.versionId)])
  textValue (text : Option (List Char)) : Sync.Value := text.elim .null fun text => .string (String.ofList text)

def setProviderKey (objectId providerKey : List Char) : Except MetadataError (StorageTables δ) := do
  require (!tables.providerObjects.entries.any fun entry => entry.2 = providerKey && entry.1 ≠ objectId)
    .constraintViolation
  pure { tables with providerObjects := tables.providerObjects.insert objectId providerKey }

def setUploadProviderBinding (uploadId : List Char) (binding : StorageProviderUploadBinding) :
    Except MetadataError (StorageTables δ) := do
  require (binding.reservedBytes < 2^63) .storageQuotaExceeded
  require (!tables.providerUploads.entries.any fun entry =>
    entry.2.providerKey = binding.providerKey && entry.1 ≠ uploadId) .constraintViolation
  pure { tables with providerUploads := tables.providerUploads.insert uploadId binding }

def storeUploadPart (uploadId : List Char) (partNumber : Nat) (row : PartRow) :
    Except MetadataError (StorageTables δ) := do
  require (1 ≤ partNumber && partNumber ≤ 10000) .statementNotAllowed
  let sizeBytes ← optionalInteger row.sizeBytes
  pure { tables with uploadParts := tables.uploadParts.insert (uploadId, partNumber) { row with sizeBytes } }

def removeUploadRecords (uploadId : List Char) : StorageTables δ :=
  { tables with
    uploadParts := tables.uploadParts.retain fun key _ => key.1 ≠ uploadId
    providerUploads := tables.providerUploads.erase uploadId }

end StorageTables

end Ffdb.ObjectStorage
