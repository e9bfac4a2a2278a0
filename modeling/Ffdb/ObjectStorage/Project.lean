import Ffdb.ObjectStorage.Authorizer
import Ffdb.ObjectStorage.Reservations
import Ffdb.Runtime.Keys

/-! The storage of one project: calls of any number of gateways and of the maintenance, each a transaction, in any
order. What a gateway keeps in memory only makes it refuse more. -/
namespace Ffdb.ObjectStorage
open Fallible

def grantClaims (request : AuthorizationRequest) (authorization : MetadataAuthorization) (nonce : List Char)
    (nowMs grantTtlMs : Int64) : GrantClaims where
  projectId := request.auth.projectId
  subject := request.auth.subject
  tokenId := request.auth.tokenId
  bucket := request.bucket
  objectKey := request.objectKey
  providerKey := authorization.providerKey
  action := request.action
  maxBytes := request.contentLength
  checksumSha256 := request.checksumSha256
  contentType := request.contentType
  uploadId := request.uploadId
  partNumber := request.partNumber
  scopeFingerprint := authorization.scopeFingerprint
  issuedAtMs := nowMs
  expiresAtMs := Saturating.add nowMs grantTtlMs
  nonce
  reservationBytes := authorization.reservationBytes
  reservationExpiresAtMs := Saturating.add nowMs grantTtlMs
  replacementFingerprint := authorization.replacementFingerprint

def reservationRequest (claims : GrantClaims) (auth : AuthContext) : StorageReservationRequest where
  auth
  nonce := claims.nonce
  bytes := claims.reservationBytes
  expiresAtMs := claims.reservationExpiresAtMs
  providerKey := claims.providerKey
  action := claims.action
  uploadId := claims.uploadId

structure ProjectState (δ : Type) where
  tables : StorageTables δ := {}
  /-- decisions that wait for their reservation -/
  decided : List (AuthorizationRequest × MetadataAuthorization) := []
  /-- the tokens that are out -/
  grants : List GrantClaims := []

/-- A call of a gateway or of the maintenance. Nobody has a token that was not issued. -/
inductive ProjectCall (δ : Type) where
  | authorize (policies : StoragePolicies δ) (request : AuthorizationRequest) (ids : AuthorizeIds)
  /-- the clock is that of the gateway -/
  | reserve (decision : Nat) (nonce : List Char) (gatewayMs grantTtlMs : Int64)
  | commit (policies : StoragePolicies δ) (grant : Nat) (auth : AuthContext) (result : StorageCommitResult)
      (ids : CommitIds)
  | release (grant : Nat) (auth : AuthContext) (cleanupId : List Char)
  | expire (limit : Nat) (cleanupIds : Vector (List Char × List Char) 100)
  | claimCleanup (limit : Nat) (leaseDurationMs : Int64) (tokens : Vector (List Char) 100)
  | ackCleanup (acks : List CleanupAck)

structure ProjectEvent (δ : Type) where
  nowMs : Int64
  call : ProjectCall δ

section Steps
variable {δ : Type} (codecs : StorageCodecs δ) (projectId : List Char)

section Frames
variable {codecs projectId} {policies : StoragePolicies δ} {tables written : StorageTables δ}
  {request : StorageMetadataCommit} {bucketId : List Char} {ids : CommitIds} {nowMs : Int64}

theorem commitAction_frame
    (h : commitAction codecs projectId policies tables request bucketId ids nowMs = .ok written) :
    written.buckets = tables.buckets ∧ written.reservations = tables.reservations ∧
      written.receipts = tables.receipts := by
  unfold commitAction at h
  cases haction : request.action with
  | upload =>
    simp only [haction] at h
    obtain ⟨objectId, -, hwritten⟩ := commitObjectUpload_ok h
    exact ⟨hwritten.buckets, hwritten.reservations, hwritten.receipts⟩
  | download =>
    simp only [haction, pure_ok_iff] at h
    rw [← h]
    exact ⟨rfl, rfl, rfl⟩
  | delete =>
    simp only [haction] at h
    obtain ⟨objectId, objects, versions, -, rfl⟩ := commitDelete_ok h
    exact ⟨rfl, rfl, rfl⟩
  | list => simp only [haction, reduceCtorEq] at h
  | createMultipart =>
    simp only [haction] at h
    obtain ⟨uploadId, row, -, -, rfl⟩ := commitCreateMultipart_ok h
    exact ⟨rfl, rfl, rfl⟩
  | uploadPart =>
    simp only [haction] at h
    obtain ⟨uploadId, upload, uploads, uploadParts, -, -, -, rfl⟩ := commitUploadPart_ok h
    exact ⟨rfl, rfl, rfl⟩
  | completeMultipart =>
    simp only [haction] at h
    obtain ⟨uploadId, upload, binding, middle, objectId, -, -, -, -, -, hwritten, hremove⟩ := commitCompleteMultipart_ok h
    obtain ⟨uploads, uploadParts, -, rfl⟩ := removeUpload_ok hremove
    exact ⟨hwritten.buckets, hwritten.reservations, hwritten.receipts⟩
  | abortMultipart =>
    simp only [haction] at h
    obtain ⟨uploadId, upload, -, -, hremove⟩ := commitAbortMultipart_ok h
    obtain ⟨uploads, uploadParts, -, rfl⟩ := removeUpload_ok hremove
    exact ⟨rfl, rfl, rfl⟩

theorem storageReserve_ok {auth : AuthContext} {nonce : List Char} {bytes : Nat} {expiresAtMs : Int64}
    {providerKey : List Char} {action : StorageAction} {uploadId : Option (List Char)}
    (h : tables.storageReserve auth nonce bytes expiresAtMs nowMs providerKey action uploadId = .ok written) :
    nowMs < expiresAtMs ∧ tables.reservations.lookup nonce = none ∧
      (∃ quota, tables.quotaBytes = some quota ∧
        tables.usedBytes + (tables.pendingBytes nowMs + tables.uploadBytes) + bytes ≤ quota) ∧
      written = { tables with
        reservations := tables.reservations.insert nonce
          ⟨auth.subject, auth.tokenId, bytes, expiresAtMs, providerKey, action, uploadId⟩ } := by
  simp only [StorageTables.storageReserve, sumInteger, bind_ok_iff, require_ok_iff, orError_ok_iff, pure_ok_iff,
    Option.isNone_iff_eq_none, Bool.and_eq_true, Bool.not_eq_true', Bool.or_eq_false_iff, decide_eq_true_eq,
    decide_eq_false_iff_not] at h
  obtain ⟨-, hchecks, -, -, -, hnone, quota, hquota, used, ⟨-, -, rfl⟩, reserved, ⟨-, -, rfl⟩, -, ⟨-, hle⟩, rfl⟩ := h
  exact ⟨Int64.not_le.mp hchecks.1.2, hnone, ⟨quota, hquota, hle⟩, rfl⟩

theorem releaseReservationBound_ok {auth : AuthContext} {nonce : List Char} {bytes : Nat} {expiresAtMs : Int64}
    {cleanupId : List Char}
    (h : tables.releaseReservationBound auth nonce bytes expiresAtMs nowMs cleanupId = .ok written) :
    ∃ row cleanup, tables.reservations.lookup nonce = some row ∧
      (if cleanupTargetPresent row.action row.uploadId = true then
        enqueueCleanup nowMs tables.cleanup ⟨cleanupId, row.providerKey, row.action, row.uploadId⟩ = .ok cleanup
      else cleanup = tables.cleanup) ∧
      written = { tables with cleanup, reservations := tables.reservations.erase nonce } := by
  simp only [StorageTables.releaseReservationBound, bind_ok_iff, orError_ok_iff, pure_ok_iff] at h
  obtain ⟨-, -, row, hlookup, -, -, enqueued, henqueued, rfl⟩ := h
  obtain ⟨cleanup, hcleanup, rfl⟩ := enqueueTarget_ok henqueued
  exact ⟨row, cleanup, hlookup, hcleanup, rfl⟩

theorem expireReservation_ok {nonce cleanupId : List Char} {row : ReservationRow}
    (h : StorageTables.expireReservation nowMs tables ((nonce, row), cleanupId) = .ok written) :
    ∃ row' cleanup, tables.reservations.lookup nonce = some row' ∧ row'.expiresAtMs ≤ nowMs ∧
      (if cleanupTargetPresent row.action row.uploadId = true then
        enqueueCleanup nowMs tables.cleanup ⟨cleanupId, row.providerKey, row.action, row.uploadId⟩ = .ok cleanup
      else cleanup = tables.cleanup) ∧
      written = { tables with cleanup, reservations := tables.reservations.erase nonce } := by
  simp only [StorageTables.expireReservation, bind_ok_iff, require_ok_iff, pure_ok_iff, Option.any_eq_true,
    decide_eq_true_eq] at h
  obtain ⟨enqueued, henqueued, -, ⟨row', hlookup, hexpired⟩, rfl⟩ := h
  obtain ⟨cleanup, hcleanup, rfl⟩ := enqueueTarget_ok henqueued
  exact ⟨row', cleanup, hlookup, hexpired, hcleanup, rfl⟩

theorem expireUpload_ok {uploadId providerKey cleanupId : List Char}
    (h : StorageTables.expireUpload nowMs tables ((uploadId, providerKey), cleanupId) = .ok written) :
    ∃ cleanup uploadParts,
      enqueueCleanup nowMs tables.cleanup ⟨cleanupId, providerKey, .abortMultipart, some uploadId⟩ = .ok cleanup ∧
      written = { tables with
        cleanup, uploadParts, providerUploads := tables.providerUploads.erase uploadId,
        uploads := tables.uploads.erase uploadId } := by
  simp only [StorageTables.expireUpload, bind_ok_iff, pure_ok_iff] at h
  obtain ⟨enqueued, henqueued, rfl⟩ := h
  obtain ⟨cleanup, hcleanup, rfl⟩ := enqueue_ok henqueued
  exact ⟨cleanup, _, hcleanup, rfl⟩

end Frames

def reserveGrant (tables : StorageTables δ) (claims : GrantClaims) (auth : AuthContext) (nowMs : Int64) :
    Except StorageError (StorageTables δ) :=
  if requiresDurableReservation claims.action then reserveSync projectId tables (reservationRequest claims auth) nowMs
  else pure tables

def releaseGrant (tables : StorageTables δ) (claims : GrantClaims) (auth : AuthContext) (nowMs : Int64)
    (cleanupId : List Char) : Except StorageError (StorageTables δ) :=
  if requiresDurableReservation claims.action then
    releaseReservationSync projectId tables auth claims.nonce claims.reservationBytes claims.reservationExpiresAtMs
      nowMs cleanupId
  else pure tables

variable [DecidableEq δ]

def projectCall (state : ProjectState δ) (nowMs : Int64) :
    ProjectCall δ → Except StorageError (ProjectState δ)
  | .authorize policies request ids => do
    let authorization ← authorizeSync codecs projectId policies state.tables request ids nowMs
    checkAuthorization request authorization
    pure { state with decided := state.decided ++ [(request, authorization)] }
  | .reserve decision nonce gatewayMs grantTtlMs => do
    let (request, authorization) ← orError state.decided[decision]? .internal
    let claims := grantClaims request authorization nonce gatewayMs grantTtlMs
    let tables ← reserveGrant projectId state.tables claims request.auth nowMs
    pure { tables, decided := state.decided.eraseIdx decision, grants := state.grants ++ [claims] }
  | .commit policies grant auth result ids => do
    let claims ← orError state.grants[grant]? .invalidGrant
    require (claims.isFor auth && claims.allowsResult result) .invalidGrant
    let tables ← commitSync codecs projectId policies state.tables (commitRequest claims auth result) ids nowMs
    pure { state with tables }
  | .release grant auth cleanupId => do
    let claims ← orError state.grants[grant]? .invalidGrant
    require (claims.isFor auth) .invalidGrant
    let tables ← releaseGrant projectId state.tables claims auth nowMs cleanupId
    pure { state with tables }
  | .expire limit cleanupIds => do
    let tables ← (state.tables.prepareExpiredCleanup nowMs limit cleanupIds).mapError mapRuntime
    pure { state with tables }
  | .claimCleanup limit leaseDurationMs tokens => do
    let (cleanup, _) ← (claimCleanup nowMs state.tables.cleanup limit leaseDurationMs tokens).mapError fun error =>
      mapRuntime error.toMetadata
    pure { state with tables := { state.tables with cleanup } }
  | .ackCleanup acks => do
    let progress ← (ackCleanup nowMs state.tables.cleanup acks).mapError fun error => mapRuntime error.toMetadata
    pure { state with tables := { state.tables with cleanup := progress.queue } }

def projectStep (state : ProjectState δ) (event : ProjectEvent δ) : ProjectState δ :=
  match projectCall codecs projectId state event.nowMs event.call with
  | .ok state => state
  | .error _ => state

def projectRun (state : ProjectState δ) (events : List (ProjectEvent δ)) : ProjectState δ :=
  Machine.run (projectStep codecs projectId) state events

def Clocked (events : List (ProjectEvent δ)) : Prop := events.Pairwise fun first second => first.nowMs ≤ second.nowMs

end Steps

def replacementJson (replacement : Replacement) : Sync.Value :=
  .object [
    ("bucket_id", .string (String.ofList replacement.bucketId)),
    ("domain", .string "ffdb.storage.replacement.v1"),
    ("object_id", .string (String.ofList replacement.objectId)),
    ("project_id", .string (String.ofList replacement.projectId)),
    ("provider_key", .string (String.ofList replacement.providerKey)),
    ("size_bytes", .number (.posInt replacement.sizeBytes))]

theorem replacementText_injective {doubles : Runtime.Doubles} (hdoubles : doubles.Lawful) :
    Function.Injective fun replacement => Runtime.valueText doubles (replacementJson replacement) := by
  intro a b h
  have hwell (replacement : Replacement) : Runtime.Value.WellFormed (replacementJson replacement) := by
    simp [replacementJson, Runtime.Value.WellFormed, Runtime.Value.FieldsWellFormed, Runtime.Number.WellFormed]
  have hnothing : Runtime.Delimited [] := fun c hc => by cases hc
  have htext : Runtime.valueText doubles (replacementJson a) ++ [] = Runtime.valueText doubles (replacementJson b) ++ [] :=
    congrArg (· ++ []) h
  have hjson := (Runtime.valueText_append_inj hdoubles (hwell a) (hwell b) hnothing hnothing htext).1
  cases a
  cases b
  simp only [replacementJson, Sync.Value.object.injEq, List.cons.injEq, Prod.mk.injEq, Sync.Value.string.injEq,
    String.ofList_inj, Sync.Value.number.injEq, Sync.Number.posInt.injEq, true_and, and_true] at hjson
  obtain ⟨rfl, rfl, rfl, rfl, rfl⟩ := hjson
  rfl

def sampleCodecs : StorageCodecs (CommitBinding × Option StorageCommitResult) where
  doubles := Runtime.sampleDoubles
  parseUuid text := some text
  binding binding := (binding, none)
  result digest result := (digest.1, some result)
  replacement replacement := Runtime.valueText Runtime.sampleDoubles (replacementJson replacement)
  scope _ := "scope".toList

def openPolicy {σ ρ : Type} : RowPolicy σ ρ :=
  ⟨fun _ _ _ => true, fun _ _ _ => true, fun _ _ _ => true, fun _ _ _ => true, fun _ _ _ => true⟩

def openPolicies {δ : Type} : StoragePolicies δ := ⟨openPolicy, openPolicy, openPolicy, openPolicy⟩

def plainTokens : GrantCodec GrantClaims := ⟨.ok, 600000⟩

def alice : AuthContext := ⟨"p".toList, "alice".toList, "user".toList, [], "token".toList⟩

def oneBucket {δ : Type} : ProjectState δ where
  tables := { buckets := AList.singleton "b".toList ⟨"files".toList, 100, 1000, by decide⟩ }

def tenBytes (action : StorageAction) : AuthorizationRequest where
  auth := alice
  bucket := "files".toList
  objectKey := "file".toList
  action
  contentLength := some 10
  checksumSha256 := none
  contentType := none
  uploadId := none
  partNumber := none

def granting {δ : Type} (action : StorageAction) : List (ProjectEvent δ) :=
  [⟨0, .authorize openPolicies (tenBytes action) ⟨"object".toList, "upload".toList, "key".toList⟩⟩,
    ⟨0, .reserve 0 "nonce-of-16-bytes".toList 0 600000⟩]

end Ffdb.ObjectStorage
