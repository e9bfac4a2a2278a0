import Ffdb.ObjectStorage.Metadata

/-! The worker's side of storage: what a caller is granted, and how the result of a grant is committed. Every
function is one transaction for one caller, whose policies decide about the rows. -/
namespace Ffdb.ObjectStorage
open Fallible

structure AuthorizeIds where
  objectId : List Char
  metadataId : List Char
  providerId : List Char

structure CommitIds where
  cleanupId : List Char
  versionId : List Char

structure GrantDecision where
  providerKey : List Char
  reservationBytes : Nat := 0
  replacementFingerprint : Option (List Char) := none

structure StorageReservationRequest where
  auth : AuthContext
  nonce : List Char
  bytes : Nat
  expiresAtMs : Int64
  providerKey : List Char
  action : StorageAction
  uploadId : Option (List Char)

def providerObjectKey (projectId bucketId objectId : List Char) : List Char :=
  "projects/".toList ++ projectId ++ "/buckets/".toList ++ bucketId ++ "/objects/".toList ++ objectId

def commitResult (request : StorageMetadataCommit) : StorageCommitResult where
  contentLength := request.contentLength
  checksumSha256 := request.checksumSha256
  etag := request.etag
  versionId := request.versionId

def commitBinding (request : StorageMetadataCommit) : CommitBinding where
  projectId := request.auth.projectId
  subject := request.auth.subject
  tokenId := request.auth.tokenId
  bucket := request.bucket
  objectKey := request.objectKey
  providerKey := request.providerKey
  action := request.action
  contentLength := request.contentLength
  checksumSha256 := request.checksumSha256
  contentType := request.contentType
  uploadId := request.uploadId
  partNumber := request.partNumber
  reservationNonce := request.reservationNonce
  reservationBytes := request.reservationBytes
  reservationExpiresAtMs := request.reservationExpiresAtMs
  replacementFingerprint := request.replacementFingerprint

def receiptBinding (request : StorageReceiptRequest) : CommitBinding where
  projectId := request.auth.projectId
  subject := request.auth.subject
  tokenId := request.auth.tokenId
  bucket := request.bucket
  objectKey := request.objectKey
  providerKey := request.providerKey
  action := request.action
  contentLength := request.contentLength
  checksumSha256 := request.checksumSha256
  contentType := request.contentType
  uploadId := request.uploadId
  partNumber := request.partNumber
  reservationNonce := request.reservationNonce
  reservationBytes := request.reservationBytes
  reservationExpiresAtMs := request.reservationExpiresAtMs
  replacementFingerprint := request.replacementFingerprint

def reservationOf (request : StorageMetadataCommit) : ReservationRow where
  subject := request.auth.subject
  tokenId := request.auth.tokenId
  bytes := request.reservationBytes
  expiresAtMs := request.reservationExpiresAtMs
  providerKey := request.providerKey
  action := request.action
  uploadId := request.uploadId

section Authorizer
variable {δ : Type} (codecs : StorageCodecs δ) (projectId : List Char)
  (policies : StoragePolicies δ) (tables : StorageTables δ)

def withUser {α : Type} (auth : AuthContext) (callback : Except MetadataError α) : Except StorageError α := do
  require (auth.projectId = projectId) .rlsDenied
  callback.mapError mapRuntime

section Rows
variable (bucketId objectKey : List Char)

def loadBucket (name : List Char) : Except MetadataError (List Char × BucketRow) :=
  orError (tables.buckets.findEntry fun id row => policies.buckets.select tables id row && row.name = name)
    .statementNotAllowed

def loadObject : Option (List Char × ObjectRow) :=
  tables.objects.findEntry fun id row =>
    policies.objects.select tables id row && row.bucketId = bucketId && row.objectKey = objectKey

def loadUpload (uploadId : List Char) : Option UploadRow :=
  (tables.uploads.lookup uploadId).filter fun row =>
    policies.uploads.select tables uploadId row && row.bucketId = bucketId && row.objectKey = objectKey

/-- An object has its bucket and key to itself. -/
def insertObject (objectId : List Char) (row : ObjectRow) : Except MetadataError (Table (List Char) ObjectRow) := do
  require (!tables.objects.entries.any fun entry =>
    entry.2.bucketId = row.bucketId && entry.2.objectKey = row.objectKey) .constraintViolation
  insertRow policies.objects tables tables.objects objectId row

def verifyReplacementState (object : Option (List Char × ObjectRow)) (expected : Option (List Char)) :
    Except MetadataError Unit :=
  match object, expected with
  | none, none => pure ()
  | some (id, row), some expected => do
    let providerKey ← orError (tables.providerObjects.lookup id) .database
    require (codecs.replacement ⟨projectId, bucketId, id, row.sizeBytes, providerKey⟩ = expected)
      .storageReservationMismatch
  | _, _ => .error .storageReservationMismatch

end Rows

section Authorize
variable (request : AuthorizationRequest) (bucketId : List Char) (bucket : BucketRow) (ids : AuthorizeIds)
  (nowMs : Int64)

def probeObjectUpdate (objectId : List Char) : Except MetadataError Unit := do
  let sizeBytes ← integer request.contentLength
  probeWrite (updateRow policies.objects tables tables.objects objectId fun row =>
    { row with
      sizeBytes
      contentType := request.contentType
      checksumSha256 := request.checksumSha256
      updatedAtMs := nowMs })

def probeObjectInsert : Except MetadataError Unit := do
  let sizeBytes ← integer request.contentLength
  probeWrite (insertObject policies tables ids.objectId {
    bucketId
    objectKey := request.objectKey
    ownerId := request.auth.subject
    sizeBytes
    contentType := request.contentType
    checksumSha256 := request.checksumSha256
    etag := none
    versionId := none
    createdAtMs := nowMs
    updatedAtMs := nowMs })

def probeUploadInsert : Except MetadataError Unit := do
  let expectedSizeBytes ← optionalInteger request.contentLength
  probeWrite (insertRow policies.uploads tables tables.uploads ids.metadataId {
    bucketId
    objectKey := request.objectKey
    ownerId := request.auth.subject
    expectedSizeBytes
    checksumSha256 := request.checksumSha256
    contentType := request.contentType
    status := .authorizing
    createdAtMs := nowMs
    expiresAtMs := Saturating.add nowMs uploadTtlMs })

def probeUploadUpdate (uploadId : List Char) : Except MetadataError Unit :=
  probeWrite (updateRow policies.uploads tables tables.uploads uploadId fun row => { row with status := .active })

/-- The write is tried on the object that is there or on a new one; what is replaced is named. -/
def probeReplacement (object : Option (List Char × ObjectRow)) : Except MetadataError (Option (List Char)) :=
  match object with
  | some (id, row) => do
    probeObjectUpdate policies tables request nowMs id
    let oldProviderKey ← orError (tables.providerObjects.lookup id) .database
    pure (some (codecs.replacement ⟨projectId, bucketId, id, row.sizeBytes, oldProviderKey⟩))
  | none => do
    probeObjectInsert policies tables request bucketId ids nowMs
    pure none

def requestedUpload : Except MetadataError (List Char × UploadRow) := do
  let uploadId ← orError request.uploadId .statementNotAllowed
  let upload ← orError (loadUpload policies tables bucketId request.objectKey uploadId) .statementNotAllowed
  pure (uploadId, upload)

def authorizeAction (object : Option (List Char × ObjectRow)) : Except MetadataError GrantDecision :=
  match request.action with
  | .upload => do
    let size ← orError request.contentLength .statementNotAllowed
    require (size ≤ bucket.maxObjectBytes) .storageQuotaExceeded
    let replacementFingerprint ← probeReplacement codecs projectId policies tables request bucketId ids nowMs object
    pure {
      providerKey := providerObjectKey projectId bucketId ids.providerId
      reservationBytes := size - object.elim 0 (·.2.sizeBytes)
      replacementFingerprint }
  | .download => do
    let (id, _) ← orError object .statementNotAllowed
    let providerKey ← orError (tables.providerObjects.lookup id) .database
    pure { providerKey }
  | .delete => do
    let (id, _) ← orError object .statementNotAllowed
    require (codecs.parseUuid id).isSome .statementNotAllowed
    probeWrite (deleteRow policies.objects tables tables.objects id)
    let providerKey ← orError (tables.providerObjects.lookup id) .database
    pure { providerKey }
  | .createMultipart => do
    let size ← orError request.contentLength .statementNotAllowed
    require (size ≤ bucket.maxObjectBytes) .storageQuotaExceeded
    let replacementFingerprint ← probeReplacement codecs projectId policies tables request bucketId ids nowMs object
    probeUploadInsert policies tables request bucketId ids nowMs
    pure { providerKey := providerObjectKey projectId bucketId ids.providerId, replacementFingerprint }
  | .uploadPart => do
    let (uploadId, upload) ← requestedUpload policies tables request bucketId
    require (upload.ownerId = request.auth.subject && upload.status = .active && request.partNumber.isSome &&
      request.contentLength.any fun size => size ≤ bucket.maxObjectBytes) .statementNotAllowed
    probeUploadUpdate policies tables uploadId
    let binding ← orError (tables.providerUploads.lookup uploadId) .database
    pure { providerKey := binding.providerKey }
  | .completeMultipart => do
    let (uploadId, upload) ← requestedUpload policies tables request bucketId
    require (upload.ownerId = request.auth.subject && upload.status = .active &&
      upload.expectedSizeBytes = request.contentLength &&
      request.contentLength.any (fun size => size ≤ bucket.maxObjectBytes) &&
      upload.checksumSha256 = request.checksumSha256 && upload.contentType = request.contentType)
        .statementNotAllowed
    probeUploadUpdate policies tables uploadId
    let binding ← orError (tables.providerUploads.lookup uploadId) .database
    verifyReplacementState codecs projectId tables bucketId object binding.replacementFingerprint
    pure {
      providerKey := binding.providerKey
      reservationBytes := request.contentLength.getD 0 - object.elim 0 (·.2.sizeBytes)
      replacementFingerprint := binding.replacementFingerprint }
  | .abortMultipart => do
    let (uploadId, upload) ← requestedUpload policies tables request bucketId
    require (upload.ownerId = request.auth.subject && upload.status = .active) .statementNotAllowed
    probeWrite (deleteRow policies.uploads tables tables.uploads uploadId)
    let binding ← orError (tables.providerUploads.lookup uploadId) .database
    pure { providerKey := binding.providerKey }
  -- listing goes through the metadata and never through the provider
  | .list => .error .statementNotAllowed

end Authorize

def authorizeSync (request : AuthorizationRequest) (ids : AuthorizeIds) (nowMs : Int64) :
    Except StorageError MetadataAuthorization :=
  withUser projectId request.auth do
    let (bucketId, bucket) ← loadBucket policies tables request.bucket
    let object := loadObject policies tables bucketId request.objectKey
    let decision ← authorizeAction codecs projectId policies tables request bucketId bucket ids nowMs object
    let currentProjectBytes ← tables.storageUsage nowMs
    pure {
      providerKey := decision.providerKey
      scopeFingerprint := codecs.scope request.auth
      projectQuotaBytes := bucket.projectQuotaBytes
      currentProjectBytes
      maxObjectBytes := bucket.maxObjectBytes
      reservationBytes := decision.reservationBytes
      replacementFingerprint := decision.replacementFingerprint
      quota_lt := bucket.quota_lt }

def reserveSync (request : StorageReservationRequest) (nowMs : Int64) : Except StorageError (StorageTables δ) :=
  withUser projectId request.auth
    (tables.storageReserve request.auth request.nonce request.bytes request.expiresAtMs nowMs request.providerKey
      request.action request.uploadId)

section Commit
variable (request : StorageMetadataCommit) (bucketId : List Char) (bucket : BucketRow) (ids : CommitIds)
  (nowMs : Int64)

def replaceObject (objectId : List Char) : Except MetadataError (StorageTables δ) := do
  let oldProviderKey ← orError (tables.providerObjects.lookup objectId) .database
  let sizeBytes ← integer request.contentLength
  let objects ← updateRow policies.objects tables tables.objects objectId fun row =>
    { row with
      sizeBytes
      contentType := request.contentType
      checksumSha256 := request.checksumSha256
      etag := request.etag
      versionId := request.versionId
      updatedAtMs := nowMs }
  let bound ← { tables with objects }.setProviderKey objectId request.providerKey
  if oldProviderKey = request.providerKey then pure bound
  else bound.enqueue nowMs ⟨ids.cleanupId, oldProviderKey, .upload, none⟩

def createObject (objectId : List Char) : Except MetadataError (StorageTables δ) := do
  let sizeBytes ← integer request.contentLength
  let objects ← insertObject policies tables objectId {
    bucketId
    objectKey := request.objectKey
    ownerId := request.auth.subject
    sizeBytes
    contentType := request.contentType
    checksumSha256 := request.checksumSha256
    etag := request.etag
    versionId := request.versionId
    createdAtMs := nowMs
    updatedAtMs := nowMs }
  { tables with objects }.setProviderKey objectId request.providerKey

def recordVersion (objectId : List Char) : Except MetadataError (StorageTables δ) :=
  match request.versionId with
  | none => pure tables
  | some providerVersionId => do
    let sizeBytes ← integer request.contentLength
    let versions ← insertRow policies.versions tables tables.versions ids.versionId {
      objectId
      ownerId := request.auth.subject
      sizeBytes
      checksumSha256 := request.checksumSha256
      etag := request.etag
      providerVersionId
      createdAtMs := nowMs }
    pure { tables with versions }

/-- A new object is named by the last part of its provider key. -/
def commitObjectUpload : Except MetadataError (StorageTables δ) := do
  let object := loadObject policies tables bucketId request.objectKey
  verifyReplacementState codecs projectId tables bucketId object request.replacementFingerprint
  match object with
  | some (objectId, _) => do
    let written ← replaceObject policies tables request ids nowMs objectId
    recordVersion policies written request ids nowMs objectId
  | none => do
    let objectId ← orError ((request.providerKey.splitOn '/').getLast?.bind codecs.parseUuid) .statementNotAllowed
    let written ← createObject policies tables request bucketId nowMs objectId
    recordVersion policies written request ids nowMs objectId

def commitDelete : Except MetadataError (StorageTables δ) := do
  let (objectId, _) ← orError (loadObject policies tables bucketId request.objectKey) .statementNotAllowed
  let expected ← orError (tables.providerObjects.lookup objectId) .database
  require (expected = request.providerKey) .statementNotAllowed
  require (codecs.parseUuid objectId).isSome .statementNotAllowed
  let objects ← deleteRow policies.objects tables tables.objects objectId
  pure { tables with
    objects
    versions := tables.versions.retain fun _ version => (objects.lookup objectId).isSome || version.objectId ≠ objectId
    providerObjects := tables.providerObjects.erase objectId }

def commitCreateMultipart : Except MetadataError (StorageTables δ) := do
  require (request.uploadId.isNone && request.contentLength.isSome) .storageReservationMismatch
  let providerUploadId ← orError request.versionId .statementNotAllowed
  verifyReplacementState codecs projectId tables bucketId (loadObject policies tables bucketId request.objectKey)
    request.replacementFingerprint
  let expectedSizeBytes ← optionalInteger request.contentLength
  let uploads ← insertRow policies.uploads tables tables.uploads providerUploadId {
    bucketId
    objectKey := request.objectKey
    ownerId := request.auth.subject
    expectedSizeBytes
    checksumSha256 := request.checksumSha256
    contentType := request.contentType
    status := .active
    createdAtMs := nowMs
    expiresAtMs := Saturating.add nowMs uploadTtlMs }
  { tables with uploads }.setUploadProviderBinding providerUploadId
    ⟨request.providerKey, request.reservationBytes, request.replacementFingerprint⟩

def committedUpload : Except MetadataError (List Char × UploadRow × StorageProviderUploadBinding) := do
  let uploadId ← orError request.uploadId .statementNotAllowed
  let upload ← orError ((loadUpload policies tables bucketId request.objectKey uploadId).filter fun upload =>
    upload.ownerId = request.auth.subject) .statementNotAllowed
  let binding ← orError (tables.providerUploads.lookup uploadId) .database
  require (binding.providerKey = request.providerKey) .statementNotAllowed
  pure (uploadId, upload, binding)

def commitUploadPart : Except MetadataError (StorageTables δ) := do
  let (uploadId, _, _) ← committedUpload policies tables request bucketId
  let partNumber ← orError request.partNumber .statementNotAllowed
  let stored ← tables.storeUploadPart uploadId partNumber
    ⟨request.contentLength, request.checksumSha256, request.etag⟩
  let uploads ← updateRow policies.uploads stored stored.uploads uploadId fun row => { row with status := .active }
  pure { stored with uploads }

def removeUpload (uploadId : List Char) : Except MetadataError (StorageTables δ) := do
  let uploads ← deleteRow policies.uploads tables tables.uploads uploadId
  pure ({ tables with uploads }.removeUploadRecords uploadId)

def commitCompleteMultipart : Except MetadataError (StorageTables δ) := do
  let (uploadId, upload, binding) ← committedUpload policies tables request bucketId
  require (binding.replacementFingerprint = request.replacementFingerprint && upload.status = .active &&
    upload.expectedSizeBytes = request.contentLength && upload.checksumSha256 = request.checksumSha256 &&
    upload.contentType = request.contentType) .storageReservationMismatch
  let written ← commitObjectUpload codecs projectId policies tables request bucketId ids nowMs
  removeUpload policies written uploadId

def commitAbortMultipart : Except MetadataError (StorageTables δ) := do
  let (uploadId, _, _) ← committedUpload policies tables request bucketId
  removeUpload policies tables uploadId

def commitAction : Except MetadataError (StorageTables δ) :=
  match request.action with
  | .upload => commitObjectUpload codecs projectId policies tables request bucketId ids nowMs
  | .delete => commitDelete codecs policies tables request bucketId
  | .createMultipart => commitCreateMultipart codecs projectId policies tables request bucketId nowMs
  | .uploadPart => commitUploadPart policies tables request bucketId
  | .completeMultipart => commitCompleteMultipart codecs projectId policies tables request bucketId ids nowMs
  | .abortMultipart => commitAbortMultipart policies tables request bucketId
  | .download => pure tables
  | .list => .error .statementNotAllowed

def consumeGrant : Except MetadataError (StorageTables δ) :=
  if requiresDurableReservation request.action then
    tables.consumeReservation request.reservationNonce (reservationOf request) nowMs
  else pure tables

/-- The reservation is settled, the metadata written and the receipt recorded, or nothing is. -/
def settleCommit : Except MetadataError (StorageTables δ) := do
  let consumed ← consumeGrant tables request nowMs
  let (bucketId, bucket) ← loadBucket policies consumed request.bucket
  require (!(request.action ∈ [.upload, .createMultipart, .completeMultipart]) ||
    request.contentLength.any fun size => size ≤ bucket.maxObjectBytes) .storageQuotaExceeded
  let written ← commitAction codecs projectId policies consumed request bucketId ids nowMs
  let bindingDigest := codecs.binding (commitBinding request)
  written.recordCommitReceipt codecs request.reservationNonce {
    subject := request.auth.subject
    tokenId := request.auth.tokenId
    bindingDigest
    commitDigest := codecs.result bindingDigest (commitResult request)
    result := commitResult request
    committedAtMs := nowMs
    expiresAtMs := Saturating.add nowMs commitReceiptTtlMs }

variable [DecidableEq δ]

def commitSync : Except StorageError (StorageTables δ) :=
  withUser projectId request.auth do
    let bindingDigest := codecs.binding (commitBinding request)
    match ← tables.commitReceipt request.auth request.reservationNonce bindingDigest nowMs with
    | some receipt => do
      require (receipt.commitDigest = codecs.result bindingDigest (commitResult request)) .storageReservationMismatch
      pure tables
    | none => settleCommit codecs projectId policies tables request ids nowMs

end Commit

def receiptSync [DecidableEq δ] (request : StorageReceiptRequest) (nowMs : Int64) :
    Except StorageError (Option StorageCommitResult) :=
  withUser projectId request.auth do
    let receipt ← tables.commitReceipt request.auth request.reservationNonce (codecs.binding (receiptBinding request))
      nowMs
    pure (receipt.map (·.result))

def releaseReservationSync (auth : AuthContext) (nonce : List Char) (reservationBytes : Nat)
    (reservationExpiresAtMs nowMs : Int64) (cleanupId : List Char) : Except StorageError (StorageTables δ) :=
  withUser projectId auth
    (tables.releaseReservationBound auth nonce reservationBytes reservationExpiresAtMs nowMs cleanupId)

theorem withUser_ok {α : Type} {auth : AuthContext} {callback : Except MetadataError α} {a : α}
    (h : withUser projectId auth callback = .ok a) : auth.projectId = projectId ∧ callback = .ok a := by
  simp only [withUser, bind_ok_iff, require_ok_iff, mapError_ok_iff, decide_eq_true_eq] at h
  obtain ⟨-, hproject, hcallback⟩ := h
  exact ⟨hproject, hcallback⟩

section Specs
variable {codecs projectId policies tables} {request : StorageMetadataCommit} {bucketId objectId : List Char}
  {ids : CommitIds} {nowMs : Int64} {written : StorageTables δ}

theorem insertRow_ok {σ ρ : Type} {policy : RowPolicy σ ρ} {state : σ} {table table' : Table (List Char) ρ}
    {id : List Char} {row : ρ} (h : insertRow policy state table id row = .ok table') :
    table.lookup id = none ∧ table' = table.insert id row := by
  simp only [insertRow, bind_ok_iff, require_ok_iff, pure_ok_iff, Option.isNone_iff_eq_none] at h
  obtain ⟨-, -, -, hnone, rfl⟩ := h
  exact ⟨hnone, rfl⟩

theorem updateRow_ok {σ ρ : Type} {policy : RowPolicy σ ρ} {state : σ} {table table' : Table (List Char) ρ}
    {id : List Char} {change : ρ → ρ} (h : updateRow policy state table id change = .ok table') :
    (table' = table ∧ (table.lookup id).filter (policy.select state id) = none) ∨
    ∃ row, table.lookup id = some row ∧ policy.select state id row = true ∧ table' = table.insert id (change row) := by
  unfold updateRow at h
  cases hrow : (table.lookup id).filter (policy.select state id) with
  | none =>
    simp only [hrow, pure_ok_iff] at h
    exact .inl ⟨h.symm, rfl⟩
  | some row =>
    simp only [hrow, bind_ok_iff, pure_ok_iff] at h
    obtain ⟨-, -, rfl⟩ := h
    obtain ⟨hlookup, hselect⟩ := Option.filter_eq_some_iff.mp hrow
    exact .inr ⟨row, hlookup, hselect, rfl⟩

theorem deleteRow_ok {σ ρ : Type} {policy : RowPolicy σ ρ} {state : σ} {table table' : Table (List Char) ρ}
    {id : List Char} (h : deleteRow policy state table id = .ok table') :
    (table' = table ∧ (table.lookup id).filter (policy.select state id) = none) ∨ table' = table.erase id := by
  unfold deleteRow at h
  cases hrow : (table.lookup id).filter (policy.select state id) with
  | none =>
    simp only [hrow, pure_ok_iff] at h
    exact .inl ⟨h.symm, rfl⟩
  | some row =>
    simp only [hrow, bind_ok_iff, pure_ok_iff] at h
    obtain ⟨-, -, rfl⟩ := h
    exact .inr rfl

theorem integer_ok {value : Option Nat} {size : Nat} (h : integer value = .ok size) : value = some size := by
  simp only [integer, bind_ok_iff, orError_ok_iff, require_ok_iff, pure_ok_iff] at h
  obtain ⟨_, hvalue, -, -, rfl⟩ := h
  exact hvalue

theorem enqueue_ok {entry : CleanupEntry} (h : tables.enqueue nowMs entry = .ok written) :
    ∃ cleanup, enqueueCleanup nowMs tables.cleanup entry = .ok cleanup ∧ written = { tables with cleanup } := by
  simp only [StorageTables.enqueue, bind_ok_iff, mapError_ok_iff, pure_ok_iff] at h
  obtain ⟨cleanup, hcleanup, rfl⟩ := h
  exact ⟨cleanup, hcleanup, rfl⟩

theorem enqueueTarget_ok {entry : CleanupEntry} (h : tables.enqueueTarget nowMs entry = .ok written) :
    ∃ cleanup, (if cleanupTargetPresent entry.action entry.uploadId = true then
        enqueueCleanup nowMs tables.cleanup entry = .ok cleanup
      else cleanup = tables.cleanup) ∧ written = { tables with cleanup } := by
  unfold StorageTables.enqueueTarget at h
  split_ifs at h ⊢ with htarget
  · exact enqueue_ok h
  · obtain rfl := Except.ok.inj h
    exact ⟨_, rfl, rfl⟩

theorem setProviderKey_ok {providerKey : List Char} (h : tables.setProviderKey objectId providerKey = .ok written) :
    (∀ id, tables.providerObjects.lookup id = some providerKey → id = objectId) ∧
    written = { tables with providerObjects := tables.providerObjects.insert objectId providerKey } := by
  simp only [StorageTables.setProviderKey, bind_ok_iff, require_ok_iff, pure_ok_iff] at h
  obtain ⟨-, hunique, rfl⟩ := h
  refine ⟨?_, rfl⟩
  intro id hlookup
  by_contra hne
  rw [Bool.not_eq_true', List.any_eq_false] at hunique
  exact hunique ⟨id, providerKey⟩ (AList.mem_entries.mpr hlookup) (by simp [hne])

/-- What a commit writes of an object: its size, its provider key, and that the key it had is cleaned up. -/
structure ObjectWritten (tables : StorageTables δ) (request : StorageMetadataCommit) (nowMs : Int64)
    (cleanupId objectId : List Char) (written : StorageTables δ) : Prop where
  objects : ∃ size row, request.contentLength = some size ∧ written.objects = tables.objects.insert objectId row ∧
    row.sizeBytes = size
  unique : ∀ id, tables.providerObjects.lookup id = some request.providerKey → id = objectId
  providerObjects : written.providerObjects = tables.providerObjects.insert objectId request.providerKey
  cleanup : written.cleanup = tables.cleanup ∨ ∃ oldKey, tables.providerObjects.lookup objectId = some oldKey ∧
    oldKey ≠ request.providerKey ∧
      enqueueCleanup nowMs tables.cleanup ⟨cleanupId, oldKey, .upload, none⟩ = .ok written.cleanup
  buckets : written.buckets = tables.buckets
  uploads : written.uploads = tables.uploads
  providerUploads : written.providerUploads = tables.providerUploads
  reservations : written.reservations = tables.reservations
  receipts : written.receipts = tables.receipts

theorem replaceObject_ok {row : ObjectRow} (hlookup : tables.objects.lookup objectId = some row)
    (hselect : policies.objects.select tables objectId row = true)
    (h : replaceObject policies tables request ids nowMs objectId = .ok written) :
    ObjectWritten tables request nowMs ids.cleanupId objectId written := by
  simp only [replaceObject, bind_ok_iff, orError_ok_iff] at h
  obtain ⟨oldKey, hold, size, hsize, objects, hobjects, bound, hbound, hwritten⟩ := h
  have hcontent := integer_ok hsize
  obtain ⟨-, hhidden⟩ | ⟨row', -, -, rfl⟩ := updateRow_ok hobjects
  · rw [hlookup, Option.filter_some, if_pos hselect] at hhidden
    cases hhidden
  obtain ⟨hunique, rfl⟩ := setProviderKey_ok hbound
  split_ifs at hwritten with hkey
  · obtain rfl := Except.ok.inj hwritten
    exact ⟨⟨size, _, hcontent, rfl, rfl⟩, hunique, rfl, .inl rfl, rfl, rfl, rfl, rfl, rfl⟩
  · obtain ⟨cleanup, hcleanup, rfl⟩ := enqueue_ok hwritten
    exact ⟨⟨size, _, hcontent, rfl, rfl⟩, hunique, rfl, .inr ⟨oldKey, hold, hkey, hcleanup⟩, rfl, rfl, rfl, rfl, rfl⟩

theorem createObject_ok (cleanupId : List Char)
    (h : createObject policies tables request bucketId nowMs objectId = .ok written) :
    tables.objects.lookup objectId = none ∧ ObjectWritten tables request nowMs cleanupId objectId written := by
  simp only [createObject, insertObject, bind_ok_iff] at h
  obtain ⟨size, hsize, objects, ⟨-, -, hobjects⟩, hbound⟩ := h
  obtain ⟨hnone, rfl⟩ := insertRow_ok hobjects
  obtain ⟨hunique, rfl⟩ := setProviderKey_ok hbound
  exact ⟨hnone, ⟨size, _, integer_ok hsize, rfl, rfl⟩, hunique, rfl, .inl rfl, rfl, rfl, rfl, rfl, rfl⟩

theorem recordVersion_ok (h : recordVersion policies tables request ids nowMs objectId = .ok written) :
    ∃ versions, written = { tables with versions } := by
  unfold recordVersion at h
  cases hversion : request.versionId with
  | none =>
    simp only [hversion, pure_ok_iff] at h
    exact ⟨tables.versions, h.symm⟩
  | some version =>
    simp only [hversion, bind_ok_iff, pure_ok_iff] at h
    obtain ⟨-, -, versions, -, rfl⟩ := h
    exact ⟨versions, rfl⟩

theorem ObjectWritten.withVersions {cleanupId : List Char} {versions : Table (List Char) VersionRow}
    (h : ObjectWritten tables request nowMs cleanupId objectId written) :
    ObjectWritten tables request nowMs cleanupId objectId { written with versions } :=
  ⟨h.objects, h.unique, h.providerObjects, h.cleanup, h.buckets, h.uploads, h.providerUploads, h.reservations,
    h.receipts⟩

def Matches (codecs : StorageCodecs δ) (projectId bucketId : List Char) (tables : StorageTables δ)
    (fingerprint : Option (List Char)) (id : List Char) : Prop :=
  match fingerprint with
  | none => tables.objects.lookup id = none
  | some expected => ∃ row providerKey, tables.objects.lookup id = some row ∧
      tables.providerObjects.lookup id = some providerKey ∧
      codecs.replacement ⟨projectId, bucketId, id, row.sizeBytes, providerKey⟩ = expected

theorem verifyReplacementState_ok {object : Option (List Char × ObjectRow)} {expected : Option (List Char)}
    (h : verifyReplacementState codecs projectId tables bucketId object expected = .ok ()) :
    (object = none ∧ expected = none) ∨ ∃ id row providerKey fingerprint, object = some (id, row) ∧
      expected = some fingerprint ∧ tables.providerObjects.lookup id = some providerKey ∧
      codecs.replacement ⟨projectId, bucketId, id, row.sizeBytes, providerKey⟩ = fingerprint := by
  unfold verifyReplacementState at h
  split at h
  · exact .inl ⟨rfl, rfl⟩
  · simp only [bind_ok_iff, orError_ok_iff, require_ok_iff, decide_eq_true_eq] at h
    obtain ⟨providerKey, hkey, hfingerprint⟩ := h
    exact .inr ⟨_, _, providerKey, _, rfl, rfl, hkey, hfingerprint⟩
  · cases h

theorem loadObject_some {objectKey id : List Char} {row : ObjectRow}
    (h : loadObject policies tables bucketId objectKey = some (id, row)) :
    tables.objects.lookup id = some row ∧ policies.objects.select tables id row = true := by
  obtain ⟨hlookup, hholds⟩ := AList.findEntry_eq_some h
  simp only [Bool.and_eq_true] at hholds
  exact ⟨hlookup, hholds.1.1⟩

theorem commitObjectUpload_ok
    (h : commitObjectUpload codecs projectId policies tables request bucketId ids nowMs = .ok written) :
    ∃ objectId, Matches codecs projectId bucketId tables request.replacementFingerprint objectId ∧
      ObjectWritten tables request nowMs ids.cleanupId objectId written := by
  simp only [commitObjectUpload, bind_ok_iff] at h
  obtain ⟨_, hverify, hwrite⟩ := h
  obtain ⟨hobject, hexpected⟩ | ⟨id, row, providerKey, fingerprint, hobject, hexpected, hkey, hfingerprint⟩ :=
    verifyReplacementState_ok hverify
  · simp only [hobject, bind_ok_iff, orError_ok_iff] at hwrite
    obtain ⟨objectId, -, middle, hcreate, hversion⟩ := hwrite
    obtain ⟨hnone, hobjectWritten⟩ := createObject_ok ids.cleanupId hcreate
    obtain ⟨versions, hversions⟩ := recordVersion_ok hversion
    refine ⟨objectId, ?_, hversions ▸ hobjectWritten.withVersions⟩
    rw [hexpected]
    exact hnone
  · simp only [hobject, bind_ok_iff] at hwrite
    obtain ⟨middle, hreplace, hversion⟩ := hwrite
    obtain ⟨hlookup, hselect⟩ := loadObject_some hobject
    obtain ⟨versions, rfl⟩ := recordVersion_ok hversion
    refine ⟨id, ?_, (replaceObject_ok hlookup hselect hreplace).withVersions⟩
    rw [hexpected]
    exact ⟨row, providerKey, hlookup, hkey, hfingerprint⟩

theorem commitDelete_ok (h : commitDelete codecs policies tables request bucketId = .ok written) :
    ∃ objectId objects versions, (objects = tables.objects ∨ objects = tables.objects.erase objectId) ∧
      written = { tables with objects, versions, providerObjects := tables.providerObjects.erase objectId } := by
  simp only [commitDelete, bind_ok_iff, pure_ok_iff] at h
  obtain ⟨⟨objectId, row⟩, -, providerKey, -, -, -, -, -, objects, hobjects, rfl⟩ := h
  refine ⟨objectId, objects, _, ?_, rfl⟩
  obtain ⟨hsame, -⟩ | herased := deleteRow_ok hobjects
  · exact .inl hsame
  · exact .inr herased

theorem commitCreateMultipart_ok
    (h : commitCreateMultipart codecs projectId policies tables request bucketId nowMs = .ok written) :
    ∃ uploadId row, request.versionId = some uploadId ∧ row.status = .active ∧
      written = { tables with
        uploads := tables.uploads.insert uploadId row
        providerUploads := tables.providerUploads.insert uploadId
          ⟨request.providerKey, request.reservationBytes, request.replacementFingerprint⟩ } := by
  simp only [commitCreateMultipart, StorageTables.setUploadProviderBinding, bind_ok_iff, orError_ok_iff,
    pure_ok_iff] at h
  obtain ⟨-, -, uploadId, hversion, -, -, _, -, uploads, huploads, -, -, -, -, rfl⟩ := h
  obtain ⟨-, rfl⟩ := insertRow_ok huploads
  exact ⟨uploadId, _, hversion, rfl, rfl⟩

theorem committedUpload_ok {uploadId : List Char} {upload : UploadRow} {binding : StorageProviderUploadBinding}
    (h : committedUpload policies tables request bucketId = .ok (uploadId, upload, binding)) :
    request.uploadId = some uploadId ∧ tables.uploads.lookup uploadId = some upload ∧
      tables.providerUploads.lookup uploadId = some binding ∧ binding.providerKey = request.providerKey := by
  simp only [committedUpload, loadUpload, bind_ok_iff, orError_ok_iff, require_ok_iff, pure_ok_iff,
    decide_eq_true_eq, Prod.mk.injEq, Option.filter_eq_some_iff] at h
  obtain ⟨_, hupload, _, ⟨⟨hlookup, -⟩, -⟩, _, hbinding, -, hkey, rfl, rfl, rfl⟩ := h
  exact ⟨hupload, hlookup, hbinding, hkey⟩

theorem commitUploadPart_ok (h : commitUploadPart policies tables request bucketId = .ok written) :
    ∃ uploadId upload uploads uploadParts, request.uploadId = some uploadId ∧
      tables.uploads.lookup uploadId = some upload ∧
      (uploads = tables.uploads ∨ uploads = tables.uploads.insert uploadId { upload with status := .active }) ∧
      written = { tables with uploads, uploadParts } := by
  simp only [commitUploadPart, StorageTables.storeUploadPart, bind_ok_iff, pure_ok_iff] at h
  obtain ⟨⟨uploadId, upload, binding⟩, hcommitted, _, -, stored, ⟨-, -, _, -, rfl⟩, uploads, huploads, rfl⟩ := h
  obtain ⟨hupload, hlookup, -, -⟩ := committedUpload_ok hcommitted
  refine ⟨uploadId, upload, uploads, _, hupload, hlookup, ?_, rfl⟩
  obtain ⟨hsame, -⟩ | ⟨row, hrow, -, hchanged⟩ := updateRow_ok huploads
  · exact .inl hsame
  · obtain rfl := Option.some.inj (hlookup.symm.trans hrow)
    exact .inr hchanged

theorem removeUpload_ok {uploadId : List Char} (h : removeUpload policies tables uploadId = .ok written) :
    ∃ uploads uploadParts, (uploads = tables.uploads ∨ uploads = tables.uploads.erase uploadId) ∧
      written = { tables with uploads, uploadParts, providerUploads := tables.providerUploads.erase uploadId } := by
  simp only [removeUpload, bind_ok_iff, pure_ok_iff] at h
  obtain ⟨uploads, huploads, rfl⟩ := h
  refine ⟨uploads, _, ?_, rfl⟩
  obtain ⟨hsame, -⟩ | herased := deleteRow_ok huploads
  · exact .inl hsame
  · exact .inr herased

theorem commitCompleteMultipart_ok
    (h : commitCompleteMultipart codecs projectId policies tables request bucketId ids nowMs = .ok written) :
    ∃ uploadId upload binding middle objectId, request.uploadId = some uploadId ∧
      tables.uploads.lookup uploadId = some upload ∧ tables.providerUploads.lookup uploadId = some binding ∧
      binding.providerKey = request.providerKey ∧
      Matches codecs projectId bucketId tables request.replacementFingerprint objectId ∧
      ObjectWritten tables request nowMs ids.cleanupId objectId middle ∧
      removeUpload policies middle uploadId = .ok written := by
  simp only [commitCompleteMultipart, bind_ok_iff] at h
  obtain ⟨⟨uploadId, upload, binding⟩, hcommitted, -, -, middle, hwrite, hremove⟩ := h
  obtain ⟨hupload, hlookup, hbinding, hkey⟩ := committedUpload_ok hcommitted
  obtain ⟨objectId, hmatches, hwritten⟩ := commitObjectUpload_ok hwrite
  exact ⟨uploadId, upload, binding, middle, objectId, hupload, hlookup, hbinding, hkey, hmatches, hwritten, hremove⟩

theorem commitAbortMultipart_ok (h : commitAbortMultipart policies tables request bucketId = .ok written) :
    ∃ uploadId upload, request.uploadId = some uploadId ∧ tables.uploads.lookup uploadId = some upload ∧
      removeUpload policies tables uploadId = .ok written := by
  simp only [commitAbortMultipart, bind_ok_iff] at h
  obtain ⟨⟨uploadId, upload, binding⟩, hcommitted, hremove⟩ := h
  obtain ⟨hupload, hlookup, -, -⟩ := committedUpload_ok hcommitted
  exact ⟨uploadId, upload, hupload, hlookup, hremove⟩

theorem consumeReservation_ok {nonce : List Char} {expected : ReservationRow}
    (h : tables.consumeReservation nonce expected nowMs = .ok written) :
    tables.reservations.lookup nonce = some expected ∧ nowMs < expected.expiresAtMs ∧
      written = { tables with reservations := tables.reservations.erase nonce } := by
  simp only [StorageTables.consumeReservation, bind_ok_iff, require_ok_iff, pure_ok_iff, Bool.and_eq_true,
    decide_eq_true_eq] at h
  obtain ⟨-, -, -, ⟨hlookup, hlive⟩, rfl⟩ := h
  exact ⟨hlookup, hlive, rfl⟩

def receiptOf (codecs : StorageCodecs δ) (request : StorageMetadataCommit) (nowMs : Int64) : ReceiptRow δ where
  subject := request.auth.subject
  tokenId := request.auth.tokenId
  bindingDigest := codecs.binding (commitBinding request)
  commitDigest := codecs.result (codecs.binding (commitBinding request)) (commitResult request)
  result := commitResult request
  committedAtMs := nowMs
  expiresAtMs := Saturating.add nowMs commitReceiptTtlMs

theorem settleCommit_ok (h : settleCommit codecs projectId policies tables request ids nowMs = .ok written) :
    ∃ consumed bucketId metadata,
      consumeGrant tables request nowMs = .ok consumed ∧
      commitAction codecs projectId policies consumed request bucketId ids nowMs = .ok metadata ∧
      metadata.receipts.lookup request.reservationNonce = none ∧
      written = { metadata with
        receipts := metadata.receipts.insert request.reservationNonce (receiptOf codecs request nowMs) } := by
  simp only [settleCommit, StorageTables.recordCommitReceipt, bind_ok_iff, require_ok_iff, pure_ok_iff,
    Option.isNone_iff_eq_none] at h
  obtain ⟨consumed, hconsumed, ⟨bucketId, bucket⟩, -, -, -, metadata, hmetadata, -, -, -, hnone, rfl⟩ := h
  exact ⟨consumed, bucketId, metadata, hconsumed, hmetadata, hnone, rfl⟩

theorem commitSync_ok [DecidableEq δ] (h : commitSync codecs projectId policies tables request ids nowMs = .ok written) :
    request.auth.projectId = projectId ∧
    ((written = tables ∧ (tables.receipts.lookup request.reservationNonce).isSome) ∨
      (tables.receipts.lookup request.reservationNonce = none ∧
        settleCommit codecs projectId policies tables request ids nowMs = .ok written)) := by
  obtain ⟨hproject, hcommit⟩ := withUser_ok projectId h
  refine ⟨hproject, ?_⟩
  unfold StorageTables.commitReceipt at hcommit
  cases hreceipt : tables.receipts.lookup request.reservationNonce with
  | none =>
    simp only [hreceipt, bind_ok_iff, pure_ok_iff] at hcommit
    obtain ⟨_, rfl, hsettle⟩ := hcommit
    exact .inr ⟨rfl, hsettle⟩
  | some receipt =>
    simp only [hreceipt, bind_ok_iff, pure_ok_iff] at hcommit
    obtain ⟨_, ⟨-, -, rfl⟩, hsame⟩ := hcommit
    simp only [bind_ok_iff, pure_ok_iff] at hsame
    obtain ⟨-, -, rfl⟩ := hsame
    exact .inl ⟨rfl, rfl⟩

end Specs

end Authorizer

end Ffdb.ObjectStorage
