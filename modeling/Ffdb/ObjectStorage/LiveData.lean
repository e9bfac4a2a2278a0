import Ffdb.ObjectStorage.LiveKeys
import Mathlib.Data.List.Induction

/-! Cleanup against the calls of a project. Grants share keys: several complete, or write parts of, one upload. When
one of them is released or expires, its cleanup can hit what another has committed. -/
namespace Ffdb.ObjectStorage
open Fallible KeyBook

structure ReleaseClean (book : KeyBook) (nowMs : Int64) (row : ReservationRow) : Prop where
  /-- no other grant has completed the upload -/
  completed : row.action = .completeMultipart → ∀ objectId,
    book.providerObjects.lookup objectId ≠ some row.providerKey
  /-- the upload that is to be aborted is over -/
  aborted : abortsUpload row.action = true → ∀ uploadId, row.uploadId = some uploadId → ¬book.Live nowMs uploadId

structure CommitClean (book : KeyBook) (claims : GrantClaims) (result : StorageCommitResult) : Prop where
  /-- no other completion of the upload was given up and waits for its cleanup -/
  completed : claims.action = .completeMultipart → ∀ target, Queued book.cleanup target →
    target.action = .completeMultipart → target.providerKey ≠ claims.providerKey
  /-- the provider names the new upload by none of those that are to be aborted -/
  started : claims.action = .createMultipart → ∀ uploadId, result.versionId = some uploadId → ∀ target,
    Queued book.cleanup target → abortsUpload target.action = true → target.uploadId ≠ some uploadId

def CleanCall {δ : Type} (state : ProjectState δ) (nowMs : Int64) : ProjectCall δ → Prop
  | .commit _ grant _ result _ => ∀ claims, state.grants[grant]? = some claims →
      state.tables.receipts.lookup claims.nonce = none → CommitClean state.book claims result
  | .release grant _ _ => ∀ claims row, state.grants[grant]? = some claims →
      state.tables.reservations.lookup claims.nonce = some row → ReleaseClean state.book nowMs row
  | .expire limit _ => ∀ expired ∈ state.tables.expiredReservations nowMs limit,
      ReleaseClean state.book nowMs expired.2
  | _ => True

namespace KeyBook
variable {book : KeyBook} {drawn : List Char → Prop} {nowMs : Int64} {nonce objectId key : List Char}
  {row : ReservationRow} {cleanup : CleanupQueue} {cleanupId : List Char}

/-- A reservation goes, and what was begun under it is to be cleaned up. -/
theorem Sound.release (h : book.Sound drawn) (hsafe : book.CleanupSafe nowMs)
    (hlookup : book.reservations.lookup nonce = some row) (hclean : ReleaseClean book nowMs row)
    (hcleanup : if cleanupTargetPresent row.action row.uploadId = true then
        enqueueCleanup nowMs book.cleanup ⟨cleanupId, row.providerKey, row.action, row.uploadId⟩ = .ok cleanup
      else cleanup = book.cleanup) :
    Sound { book with reservations := book.reservations.erase nonce, cleanup } drawn ∧
      CleanupSafe { book with reservations := book.reservations.erase nonce, cleanup } nowMs := by
  have hshrinks : Shrinks book { book with reservations := book.reservations.erase nonce } :=
    shrinks_eraseReservation nonce
  split_ifs at hcleanup with hpresent
  · have huploads : abortsUpload row.action = true → ∀ uploadId, book.Live nowMs uploadId →
        row.uploadId ≠ some uploadId := fun haborts uploadId hlive heq => hclean.aborted haborts uploadId heq hlive
    cases hdraws : drawsKey row.action with
    | true =>
      have hfree := h.free_of_reserved hlookup hdraws
      refine ⟨(h.shrink hshrinks).enqueueDead hcleanup hdraws hfree, ?_⟩
      refine (hsafe.shrink hshrinks).enqueue hcleanup (fun _ objectId => hfree.nowhere (.bound objectId)) ?_
      exact fun haborts uploadId hlive =>
        ⟨huploads haborts uploadId hlive, fun _ => hfree.nowhere (.uploading uploadId)⟩
    | false =>
      have hcompleting : row.action = .completeMultipart → book.Completing row.providerKey :=
        fun haction => .inr (.inl ⟨nonce, row, hlookup, haction, rfl⟩)
      have hsound := h.enqueueOther hcleanup hdraws hpresent hcompleting
      have hafter : CleanupSafe { book with cleanup } nowMs := by
        refine hsafe.enqueue hcleanup ?_ ?_
        · intro hdeletes
          refine hclean.completed ?_
          cases haction : row.action <;> simp_all [drawsKey, deletesObject, cleanupTargetPresent]
        · intro haborts uploadId hlive
          refine ⟨huploads haborts uploadId hlive, fun hnone => ?_⟩
          cases haction : row.action <;> simp_all [drawsKey, abortsUpload, cleanupTargetPresent]
      exact ⟨hsound.shrink (shrinks_eraseReservation nonce), hafter.shrink (shrinks_eraseReservation nonce)⟩
  · rw [hcleanup]
    exact ⟨h.shrink hshrinks, hsafe.shrink hshrinks⟩

/-- An object is bound to a free key; the key that it had is given up. -/
theorem Sound.write (h : book.Sound drawn) (hsafe : book.CleanupSafe nowMs) (hfree : book.Free drawn key)
    (hqueue : ∀ target, Queued book.cleanup target → target.action = .completeMultipart → target.providerKey ≠ key)
    (hcleanup : cleanup = book.cleanup ∨ ∃ oldKey, book.providerObjects.lookup objectId = some oldKey ∧ oldKey ≠ key ∧
      enqueueCleanup nowMs book.cleanup ⟨cleanupId, oldKey, .upload, none⟩ = .ok cleanup) :
    Sound { book with providerObjects := book.providerObjects.insert objectId key, cleanup } drawn ∧
      CleanupSafe { book with providerObjects := book.providerObjects.insert objectId key, cleanup } nowMs := by
  have hsound := h.bind hfree objectId
  have hbound := hsafe.bind h hfree hqueue objectId
  obtain rfl | ⟨oldKey, hold, -, henqueue⟩ := hcleanup
  · exact ⟨hsound, hbound⟩
  · have hgiven := h.free_of_replaced hfree hold
    refine ⟨hsound.enqueueDead henqueue rfl hgiven, hbound.enqueue henqueue ?_ ?_⟩
    · exact fun _ objectId => hgiven.nowhere (.bound objectId)
    · exact fun haborts => nomatch haborts

/-- An expired upload goes and is to be aborted. -/
theorem Sound.expireUpload {uploadId : List Char} (h : book.Sound drawn) (hsafe : book.CleanupSafe nowMs)
    (henqueue : enqueueCleanup nowMs book.cleanup ⟨cleanupId, key, .abortMultipart, some uploadId⟩ = .ok cleanup) :
    Sound { book with
      cleanup, providerUploads := book.providerUploads.erase uploadId, uploads := book.uploads.erase uploadId } drawn ∧
    CleanupSafe { book with
      cleanup, providerUploads := book.providerUploads.erase uploadId, uploads := book.uploads.erase uploadId } nowMs := by
  have hshrinks : Shrinks book { book with
      uploads := book.uploads.erase uploadId, providerUploads := book.providerUploads.erase uploadId } :=
    shrinks_removeUpload uploadId (.inr rfl)
  refine ⟨(h.shrink hshrinks).enqueueOther henqueue rfl rfl (fun haction => nomatch haction), ?_⟩
  refine (hsafe.shrink hshrinks).enqueue henqueue (fun hdeletes => nomatch hdeletes) ?_
  intro _ other hlive
  refine ⟨?_, fun hnone => nomatch hnone⟩
  intro hother
  obtain rfl := Option.some.inj hother
  obtain ⟨upload, hlookup, -⟩ := hlive
  exact (AList.lookup_erase_eq_some_iff.mp hlookup).1 rfl

theorem sound_empty (drawn : List Char → Prop) : Sound ⟨[], ∅, ∅, ∅, ∅, ∅⟩ drawn where
  known key hknown := by
    obtain hopen | ⟨place, hholds⟩ | ⟨target, ⟨id, row, hlookup, -⟩, -⟩ | hcompleting := hknown
    · cases hopen
    · cases place <;> simp [Holds] at hholds
    · cases hlookup
    · simp [Completing, Queued] at hcompleting
  openOnce := .nil
  openOnly _ hopen := nomatch hopen
  openAlive _ hopen := nomatch hopen
  once _ place _ hholds := by cases place <;> simp [Holds] at hholds
  dead _ _ place hholds := by cases place <;> simp [Holds] at hholds
  grown _ hcompleting := by simp [Completing, Queued] at hcompleting
  active _ _ hlookup := nomatch hlookup
  present _ hqueued := by simp [Queued] at hqueued

theorem safe_empty : CleanupSafe ⟨[], ∅, ∅, ∅, ∅, ∅⟩ nowMs where
  objects _ hqueued := by simp [Queued] at hqueued
  uploads _ hqueued := by simp [Queued] at hqueued

end KeyBook

section Keys
variable {projectId bucketId bucketId' providerId providerId' : List Char}

theorem takeWhile_reverse_last {last : List Char} (hlast : '/' ∉ last) (start : List Char) :
    (start ++ '/' :: last).reverse.takeWhile (· ≠ '/') = last.reverse := by
  rw [List.reverse_append, List.reverse_cons, List.append_assoc, List.takeWhile_append_of_pos]
  · rw [List.singleton_append, List.takeWhile_cons_of_neg (by decide), List.append_nil]
  · intro c hc
    have hne : c ≠ '/' := fun heq => hlast (heq ▸ List.mem_reverse.mp hc)
    exact decide_eq_true hne

theorem providerObjectKey_split (projectId bucketId providerId : List Char) :
    ∃ start, providerObjectKey projectId bucketId providerId = start ++ '/' :: providerId := by
  have hslash : "/objects/".toList = "/objects".toList ++ ['/'] := by decide +kernel
  unfold providerObjectKey
  rw [hslash]
  generalize "/objects".toList = objects
  refine ⟨"projects/".toList ++ projectId ++ "/buckets/".toList ++ bucketId ++ objects, ?_⟩
  rw [← List.append_assoc _ objects ['/'], List.append_assoc _ ['/'] providerId, List.singleton_append]

theorem providerId_of_providerObjectKey (hid : '/' ∉ providerId) (hid' : '/' ∉ providerId')
    (h : providerObjectKey projectId bucketId providerId = providerObjectKey projectId bucketId' providerId') :
    providerId = providerId' := by
  obtain ⟨start, hstart⟩ := providerObjectKey_split projectId bucketId providerId
  obtain ⟨start', hstart'⟩ := providerObjectKey_split projectId bucketId' providerId'
  rw [hstart, hstart'] at h
  have hreverse := congrArg (fun key : List Char => key.reverse.takeWhile (· ≠ '/')) h
  simp only [takeWhile_reverse_last hid, takeWhile_reverse_last hid'] at hreverse
  exact List.reverse_injective hreverse

end Keys

section Calls
variable {δ : Type} {codecs : StorageCodecs δ} {projectId : List Char} {policies : StoragePolicies δ}
  {tables written : StorageTables δ} {nowMs : Int64} {drawn : List Char → Prop}
  {decided : List (StorageAction × List Char)}

/-- The key of a decision is drawn, or it is the one of the object or the upload. -/
theorem authorizeSync_key {request : AuthorizationRequest} {ids : AuthorizeIds} {authorization : MetadataAuthorization}
    (h : authorizeSync codecs projectId policies tables request ids nowMs = .ok authorization) :
    (drawsKey request.action = true →
      ∃ bucketId, authorization.providerKey = providerObjectKey projectId bucketId ids.providerId) ∧
    (request.action = .completeMultipart → ∃ uploadId binding, tables.providerUploads.lookup uploadId = some binding ∧
      binding.providerKey = authorization.providerKey) := by
  obtain ⟨-, h⟩ := withUser_ok projectId h
  simp only [bind_ok_iff, pure_ok_iff] at h
  obtain ⟨⟨bucketId, bucket⟩, -, decision, hdecision, _, -, rfl⟩ := h
  unfold authorizeAction at hdecision
  cases haction : request.action with
  | upload =>
    simp only [haction, bind_ok_iff, pure_ok_iff] at hdecision
    obtain ⟨_, -, _, -, _, -, rfl⟩ := hdecision
    exact ⟨fun _ => ⟨bucketId, rfl⟩, fun heq => by cases heq⟩
  | createMultipart =>
    simp only [haction, bind_ok_iff, pure_ok_iff] at hdecision
    obtain ⟨_, -, _, -, _, -, _, -, rfl⟩ := hdecision
    exact ⟨fun _ => ⟨bucketId, rfl⟩, fun heq => by cases heq⟩
  | completeMultipart =>
    simp only [haction, bind_ok_iff, orError_ok_iff, pure_ok_iff] at hdecision
    obtain ⟨⟨uploadId, upload⟩, -, _, -, _, -, binding, hbinding, _, -, rfl⟩ := hdecision
    exact ⟨fun hdraws => (by cases hdraws), fun _ => ⟨uploadId, binding, hbinding, rfl⟩⟩
  | _ => exact ⟨fun hdraws => absurd hdraws (by decide), fun heq => by cases heq⟩

theorem live_commitObjectUpload {request : StorageMetadataCommit} {bucketId : List Char} {ids : CommitIds}
    (h : (tables.book decided).Sound drawn) (hsafe : (tables.book decided).CleanupSafe nowMs)
    (hfree : (tables.book decided).Free drawn request.providerKey)
    (hqueue : ∀ target, Queued tables.cleanup target → target.action = .completeMultipart →
      target.providerKey ≠ request.providerKey)
    (hcommit : commitObjectUpload codecs projectId policies tables request bucketId ids nowMs = .ok written) :
    (written.book decided).Sound drawn ∧ (written.book decided).CleanupSafe nowMs := by
  obtain ⟨objectId, -, hwritten⟩ := commitObjectUpload_ok hcommit
  have hbook : written.book decided = { tables.book decided with
      providerObjects := tables.providerObjects.insert objectId request.providerKey, cleanup := written.cleanup } := by
    unfold StorageTables.book
    rw [hwritten.reservations, hwritten.uploads, hwritten.providerUploads, hwritten.providerObjects]
  rw [hbook]
  exact h.write hsafe hfree hqueue hwritten.cleanup

theorem live_removeUpload {uploadId : List Char} (h : (tables.book decided).Sound drawn)
    (hsafe : (tables.book decided).CleanupSafe nowMs) (hremove : removeUpload policies tables uploadId = .ok written) :
    (written.book decided).Sound drawn ∧ (written.book decided).CleanupSafe nowMs := by
  obtain ⟨uploads, uploadParts, huploads, rfl⟩ := removeUpload_ok hremove
  have hshrinks := @KeyBook.shrinks_removeUpload (tables.book decided) uploadId _ huploads
  exact ⟨h.shrink hshrinks, hsafe.shrink hshrinks⟩

/-- The metadata of a commit, once its reservation has gone. A key that was reserved is free then. -/
theorem live_commitAction {request : StorageMetadataCommit} {bucketId : List Char} {ids : CommitIds}
    (h : (tables.book decided).Sound drawn) (hsafe : (tables.book decided).CleanupSafe nowMs)
    (hfree : drawsKey request.action = true → (tables.book decided).Free drawn request.providerKey ∧
      ∀ target, Queued tables.cleanup target → target.action = .completeMultipart →
        target.providerKey ≠ request.providerKey)
    (hcompleted : request.action = .completeMultipart → ∀ target, Queued tables.cleanup target →
      target.action = .completeMultipart → target.providerKey ≠ request.providerKey)
    (hstarted : request.action = .createMultipart → ∀ uploadId, request.versionId = some uploadId → ∀ target,
      Queued tables.cleanup target → abortsUpload target.action = true → target.uploadId ≠ some uploadId)
    (hcommit : commitAction codecs projectId policies tables request bucketId ids nowMs = .ok written) :
    (written.book decided).Sound drawn ∧ (written.book decided).CleanupSafe nowMs := by
  unfold commitAction at hcommit
  cases haction : request.action with
  | upload =>
    simp only [haction] at hcommit
    obtain ⟨hkey, hqueue⟩ := hfree (by rw [haction]; rfl)
    exact live_commitObjectUpload h hsafe hkey hqueue hcommit
  | download =>
    simp only [haction, pure_ok_iff] at hcommit
    exact hcommit ▸ ⟨h, hsafe⟩
  | delete =>
    simp only [haction] at hcommit
    obtain ⟨objectId, objects, versions, -, rfl⟩ := commitDelete_ok hcommit
    have hshrinks : KeyBook.Shrinks (tables.book decided)
        { tables.book decided with providerObjects := tables.providerObjects.erase objectId } :=
      { decided := .refl _
        reservations := fun _ _ hlookup => hlookup
        uploads := fun _ _ hlookup => hlookup
        providerUploads := fun _ _ hlookup => hlookup
        providerObjects := fun _ _ hlookup => (AList.lookup_erase_eq_some_iff.mp hlookup).2
        cleanup := fun _ hqueued => hqueued }
    exact ⟨h.shrink hshrinks, hsafe.shrink hshrinks⟩
  | list => simp only [haction, reduceCtorEq] at hcommit
  | createMultipart =>
    simp only [haction] at hcommit
    obtain ⟨uploadId, row, hversion, hactive, rfl⟩ := commitCreateMultipart_ok hcommit
    obtain ⟨hkey, -⟩ := hfree (by rw [haction]; rfl)
    exact ⟨h.startUpload hkey hactive, hsafe.startUpload h hkey (hstarted haction uploadId hversion)⟩
  | uploadPart =>
    simp only [haction] at hcommit
    obtain ⟨uploadId, upload, uploads, uploadParts, -, hlookup, rfl | rfl, rfl⟩ := commitUploadPart_ok hcommit
    · exact ⟨h, hsafe⟩
    · have hshrinks := h.touchUpload hlookup
      exact ⟨h.shrink hshrinks, hsafe.shrink hshrinks⟩
  | completeMultipart =>
    simp only [haction] at hcommit
    obtain ⟨uploadId, upload, binding, middle, objectId, -, -, hbinding, hkey, -, hwritten, hremove⟩ :=
      commitCompleteMultipart_ok hcommit
    obtain ⟨uploads, uploadParts, huploads, rfl⟩ := removeUpload_ok hremove
    rw [hwritten.uploads] at huploads
    -- the key leaves the upload before the object is bound to it
    have hshrinks := @KeyBook.shrinks_removeUpload (tables.book decided) uploadId _ huploads
    have hfreed := h.free_of_uploading huploads hbinding
    rw [hkey] at hfreed
    have hbook : StorageTables.book { middle with
          uploads, uploadParts, providerUploads := middle.providerUploads.erase uploadId } decided =
        { tables.book decided with
          uploads
          providerUploads := tables.providerUploads.erase uploadId
          providerObjects := tables.providerObjects.insert objectId request.providerKey
          cleanup := middle.cleanup } := by
      unfold StorageTables.book
      rw [hwritten.reservations, hwritten.providerUploads, hwritten.providerObjects]
    rw [hbook]
    exact (h.shrink hshrinks).write (hsafe.shrink hshrinks) hfreed (hcompleted haction) hwritten.cleanup
  | abortMultipart =>
    simp only [haction] at hcommit
    obtain ⟨uploadId, upload, -, -, hremove⟩ := commitAbortMultipart_ok hcommit
    exact live_removeUpload h hsafe hremove

theorem live_settleCommit {claims : GrantClaims} {auth : AuthContext} {result : StorageCommitResult} {ids : CommitIds}
    (h : (tables.book decided).Sound drawn) (hsafe : (tables.book decided).CleanupSafe nowMs)
    (hclean : CommitClean (tables.book decided) claims result)
    (hsettle : settleCommit codecs projectId policies tables (commitRequest claims auth result) ids nowMs = .ok written) :
    (written.book decided).Sound drawn ∧ (written.book decided).CleanupSafe nowMs := by
  obtain ⟨consumed, bucketId, metadata, hconsumed, hmetadata, -, rfl⟩ := settleCommit_ok hsettle
  change (metadata.book decided).Sound drawn ∧ (metadata.book decided).CleanupSafe nowMs
  unfold consumeGrant at hconsumed
  split_ifs at hconsumed with hdurable
  · obtain ⟨hlookup, -, rfl⟩ := consumeReservation_ok hconsumed
    have hshrinks := @KeyBook.shrinks_eraseReservation (tables.book decided) claims.nonce
    refine live_commitAction (h.shrink hshrinks) (hsafe.shrink hshrinks) ?_ hclean.completed hclean.started hmetadata
    intro hdraws
    refine ⟨h.free_of_reserved hlookup hdraws, ?_⟩
    intro target hqueued haction hkey
    exact (h.grown _ (.inr (.inr ⟨target, hqueued, haction, hkey⟩))).2 claims.nonce ⟨_, hlookup, hdraws, rfl⟩
  · obtain rfl := Except.ok.inj hconsumed
    refine live_commitAction h hsafe ?_ hclean.completed hclean.started hmetadata
    intro hdraws
    cases haction : (commitRequest claims auth result).action <;> simp_all [drawsKey, requiresDurableReservation]

theorem live_release {claims : GrantClaims} {auth : AuthContext} {cleanupId : List Char}
    (h : (tables.book decided).Sound drawn) (hsafe : (tables.book decided).CleanupSafe nowMs)
    (hclean : ∀ row, tables.reservations.lookup claims.nonce = some row → ReleaseClean (tables.book decided) nowMs row)
    (hrelease : releaseGrant projectId tables claims auth nowMs cleanupId = .ok written) :
    (written.book decided).Sound drawn ∧ (written.book decided).CleanupSafe nowMs := by
  unfold releaseGrant at hrelease
  split_ifs at hrelease with hdurable
  · obtain ⟨-, hrelease⟩ := withUser_ok projectId hrelease
    obtain ⟨row, cleanup, hlookup, hcleanup, rfl⟩ := releaseReservationBound_ok hrelease
    exact h.release hsafe hlookup (hclean row hlookup) hcleanup
  · obtain rfl := Except.ok.inj hrelease
    exact ⟨h, hsafe⟩

structure Expiring (before : StorageTables δ) (drawn : List Char → Prop) (decided : List (StorageAction × List Char))
    (nowMs : Int64) (after : StorageTables δ) : Prop where
  sound : (after.book decided).Sound drawn
  safe : (after.book decided).CleanupSafe nowMs
  reservations : ∀ nonce row, after.reservations.lookup nonce = some row → before.reservations.lookup nonce = some row
  uploads : after.uploads = before.uploads
  providerObjects : after.providerObjects = before.providerObjects

theorem Expiring.expireReservation {before : StorageTables δ} {nonce cleanupId : List Char} {row : ReservationRow}
    (h : Expiring before drawn decided nowMs tables) (hmem : before.reservations.lookup nonce = some row)
    (hclean : ReleaseClean (before.book decided) nowMs row)
    (hexpire : StorageTables.expireReservation nowMs tables ((nonce, row), cleanupId) = .ok written) :
    Expiring before drawn decided nowMs written := by
  obtain ⟨row', cleanup, hlookup, -, hcleanup, rfl⟩ := expireReservation_ok hexpire
  obtain rfl := Option.some.inj ((h.reservations nonce row' hlookup).symm.trans hmem)
  have hlive : ∀ uploadId, (tables.book decided).Live nowMs uploadId → (before.book decided).Live nowMs uploadId := by
    intro uploadId hlive
    unfold KeyBook.Live StorageTables.book at hlive ⊢
    rwa [h.uploads] at hlive
  have hclean' : ReleaseClean (tables.book decided) nowMs row' := by
    refine ⟨?_, ?_⟩
    · intro haction objectId
      change tables.providerObjects.lookup objectId ≠ _
      rw [h.providerObjects]
      exact hclean.completed haction objectId
    · intro haborts uploadId hupload hlives
      exact hclean.aborted haborts uploadId hupload (hlive uploadId hlives)
  obtain ⟨hsound, hsafe⟩ := h.sound.release h.safe hlookup hclean' hcleanup
  refine ⟨hsound, hsafe, ?_, h.uploads, h.providerObjects⟩
  intro other row hother
  exact h.reservations other row (AList.lookup_erase_eq_some_iff.mp hother).2

theorem mem_expiredReservations {limit : Nat} {expired : List Char × ReservationRow}
    (h : expired ∈ tables.expiredReservations nowMs limit) :
    tables.reservations.lookup expired.1 = some expired.2 := by
  unfold StorageTables.expiredReservations at h
  have hsorted := List.mem_mergeSort.mp (List.mem_of_mem_take h)
  obtain ⟨entry, hentry, rfl⟩ := List.mem_map.mp hsorted
  exact AList.mem_entries.mp (List.mem_filter.mp hentry).1

theorem live_expire {limit : Nat} {cleanupIds : Vector (List Char × List Char) 100}
    (h : (tables.book decided).Sound drawn) (hsafe : (tables.book decided).CleanupSafe nowMs)
    (hclean : ∀ expired ∈ tables.expiredReservations nowMs limit, ReleaseClean (tables.book decided) nowMs expired.2)
    (hexpire : tables.prepareExpiredCleanup nowMs limit cleanupIds = .ok written) :
    (written.book decided).Sound drawn ∧ (written.book decided).CleanupSafe nowMs := by
  simp only [StorageTables.prepareExpiredCleanup, bind_ok_iff, pure_ok_iff] at hexpire
  obtain ⟨-, -, reserved, hreserved, uploaded, huploaded, rfl⟩ := hexpire
  have hexpiring : Expiring tables drawn decided nowMs reserved := by
    refine foldlM_keeps (P := Expiring tables drawn decided nowMs) ?_ hreserved
      ⟨h, hsafe, fun _ _ hlookup => hlookup, rfl, rfl⟩
    rintro middle ⟨⟨nonce, row⟩, cleanupId⟩ middle' hmem hmiddle hone
    have hexpired := (List.of_mem_zip hmem).1
    exact hmiddle.expireReservation (mem_expiredReservations hexpired) (hclean _ hexpired) hone
  refine foldlM_keeps
    (P := fun after => (after.book decided).Sound drawn ∧ (after.book decided).CleanupSafe nowMs) ?_ huploaded
    ⟨hexpiring.sound, hexpiring.safe⟩
  rintro middle ⟨⟨uploadId, providerKey⟩, cleanupId⟩ middle' - ⟨hsound, hsafe⟩ hone
  obtain ⟨cleanup, uploadParts, hcleanup, rfl⟩ := expireUpload_ok hone
  exact hsound.expireUpload hsafe hcleanup

section Run
variable [DecidableEq δ] {state state' : ProjectState δ} {call : ProjectCall δ}

def drawnId : ProjectCall δ → Option (List Char)
  | .authorize _ _ ids => some ids.providerId
  | _ => none

def callDraws (projectId : List Char) (call : ProjectCall δ) (key : List Char) : Prop :=
  ∃ id, drawnId call = some id ∧ ∃ bucketId, key = providerObjectKey projectId bucketId id

omit [DecidableEq δ] in
theorem live_authorize {request : AuthorizationRequest} {authorization : MetadataAuthorization} {ids : AuthorizeIds}
    (h : state.book.Sound drawn) (hfresh : ∀ bucketId, ¬drawn (providerObjectKey projectId bucketId ids.providerId))
    (hauthorize : authorizeSync codecs projectId policies state.tables request ids nowMs = .ok authorization) :
    Sound { state.book with decided := state.book.decided ++ [(request.action, authorization.providerKey)] }
      (fun key => drawn key ∨ ∃ bucketId, key = providerObjectKey projectId bucketId ids.providerId) := by
  have hmono : Sound state.book fun key => drawn key ∨
      ∃ bucketId, key = providerObjectKey projectId bucketId ids.providerId := h.mono fun key hkey => .inl hkey
  obtain ⟨hdrawn, hcompleting⟩ := authorizeSync_key hauthorize
  cases hdraws : drawsKey request.action with
  | true =>
    obtain ⟨bucketId, hkey⟩ := hdrawn hdraws
    refine hmono.decideOpen hdraws ?_ (.inr ⟨bucketId, hkey⟩)
    intro hknown
    exact hfresh bucketId (hkey ▸ h.known _ hknown)
  | false =>
    refine hmono.decideOther hdraws ?_
    intro haction
    obtain ⟨uploadId, binding, hbinding, hkey⟩ := hcompleting haction
    exact ⟨uploadId, binding, hbinding, hkey⟩

theorem live_reserve {decision : Nat} {nonce : List Char} {gatewayMs grantTtlMs : Int64}
    (h : state.book.Sound drawn) (hsafe : state.book.CleanupSafe nowMs)
    (hcall : projectCall codecs projectId state nowMs (.reserve decision nonce gatewayMs grantTtlMs) = .ok state') :
    state'.book.Sound drawn ∧ state'.book.CleanupSafe nowMs := by
  simp only [projectCall, bind_ok_iff, orError_ok_iff, pure_ok_iff] at hcall
  obtain ⟨⟨request, authorization⟩, hdecision, tables, hreserve, rfl⟩ := hcall
  have hdecided : state.book.decided[decision]? = some (request.action, authorization.providerKey) := by
    simp [ProjectState.book, StorageTables.book, hdecision]
  have herased : (state.decided.eraseIdx decision).map (fun decision => (decision.1.action, decision.2.providerKey)) =
      state.book.decided.eraseIdx decision := (List.eraseIdx_map ..).symm
  unfold ProjectState.book
  simp only [herased]
  unfold reserveGrant at hreserve
  split_ifs at hreserve with hdurable
  · obtain ⟨-, hreserve⟩ := withUser_ok projectId hreserve
    obtain ⟨-, hnone, -, rfl⟩ := storageReserve_ok hreserve
    refine ⟨?_, hsafe.objects, hsafe.uploads⟩
    exact h.reserve hdecided hnone
  · obtain rfl := Except.ok.inj hreserve
    have hshrinks : Shrinks state.book { state.book with decided := state.book.decided.eraseIdx decision } :=
      { decided := List.eraseIdx_sublist ..
        reservations := fun _ _ hlookup => hlookup
        uploads := fun _ _ hlookup => hlookup
        providerUploads := fun _ _ hlookup => hlookup
        providerObjects := fun _ _ hlookup => hlookup
        cleanup := fun _ hqueued => hqueued }
    exact ⟨h.shrink hshrinks, hsafe.shrink hshrinks⟩

theorem shrinks_cleanup {book : KeyBook} {cleanup : CleanupQueue}
    (hqueued : ∀ target, Queued cleanup target → Queued book.cleanup target) : Shrinks book { book with cleanup } where
  decided := .refl _
  reservations _ _ hlookup := hlookup
  uploads _ _ hlookup := hlookup
  providerUploads _ _ hlookup := hlookup
  providerObjects _ _ hlookup := hlookup
  cleanup := hqueued

theorem live_projectCall (h : state.book.Sound drawn) (hsafe : state.book.CleanupSafe nowMs)
    (hclean : CleanCall state nowMs call) (hfresh : ∀ key, callDraws projectId call key → ¬drawn key)
    (hcall : projectCall codecs projectId state nowMs call = .ok state') :
    state'.book.Sound (fun key => drawn key ∨ callDraws projectId call key) ∧ state'.book.CleanupSafe nowMs := by
  have hless : ∀ {book : KeyBook}, book.Sound drawn → book.Sound (fun key => drawn key ∨ callDraws projectId call key) :=
    fun hsound => hsound.mono fun key hkey => .inl hkey
  cases call with
  | authorize policies request ids =>
    simp only [projectCall, bind_ok_iff, pure_ok_iff] at hcall
    obtain ⟨authorization, hauthorize, _, -, rfl⟩ := hcall
    have hsound := live_authorize h (fun bucketId => hfresh _ ⟨_, rfl, bucketId, rfl⟩) hauthorize
    unfold ProjectState.book
    rw [List.map_append, List.map_singleton]
    refine ⟨hsound.mono ?_, hsafe.objects, hsafe.uploads⟩
    rintro key (hkey | ⟨bucketId, hkey⟩)
    · exact .inl hkey
    · exact .inr ⟨_, rfl, bucketId, hkey⟩
  | reserve decision nonce gatewayMs grantTtlMs =>
    obtain ⟨hsound, hafter⟩ := live_reserve h hsafe hcall
    exact ⟨hless hsound, hafter⟩
  | commit policies grant auth result ids =>
    simp only [projectCall, bind_ok_iff, orError_ok_iff, pure_ok_iff] at hcall
    obtain ⟨claims, hgrant, _, -, tables, hcommit, rfl⟩ := hcall
    obtain ⟨-, ⟨rfl, -⟩ | ⟨hnone, hsettle⟩⟩ := commitSync_ok hcommit
    · exact ⟨hless h, hsafe⟩
    · obtain ⟨hsound, hafter⟩ := live_settleCommit h hsafe (hclean claims hgrant hnone) hsettle
      exact ⟨hless hsound, hafter⟩
  | release grant auth cleanupId =>
    simp only [projectCall, bind_ok_iff, orError_ok_iff, pure_ok_iff] at hcall
    obtain ⟨claims, hgrant, _, -, tables, hrelease, rfl⟩ := hcall
    obtain ⟨hsound, hafter⟩ := live_release h hsafe (fun row hlookup => hclean claims row hgrant hlookup) hrelease
    exact ⟨hless hsound, hafter⟩
  | expire limit cleanupIds =>
    simp only [projectCall, bind_ok_iff, mapError_ok_iff, pure_ok_iff] at hcall
    obtain ⟨tables, hexpire, rfl⟩ := hcall
    obtain ⟨hsound, hafter⟩ := live_expire h hsafe hclean hexpire
    exact ⟨hless hsound, hafter⟩
  | claimCleanup limit leaseDurationMs tokens =>
    simp only [projectCall, bind_ok_iff, mapError_ok_iff, pure_ok_iff] at hcall
    obtain ⟨⟨cleanup, items⟩, hclaim, rfl⟩ := hcall
    have hshrinks : Shrinks state.book { state.book with cleanup } :=
      shrinks_cleanup fun target hqueued => queued_claimCleanup hclaim hqueued
    exact ⟨hless (h.shrink hshrinks), hsafe.shrink hshrinks⟩
  | ackCleanup acks =>
    simp only [projectCall, bind_ok_iff, mapError_ok_iff, pure_ok_iff] at hcall
    obtain ⟨progress, hack, rfl⟩ := hcall
    have hshrinks : Shrinks state.book { state.book with cleanup := progress.queue } :=
      shrinks_cleanup fun target hqueued => queued_ackCleanup hack hqueued
    exact ⟨hless (h.shrink hshrinks), hsafe.shrink hshrinks⟩

def providerIds (events : List (ProjectEvent δ)) : List (List Char) :=
  events.filterMap fun event => drawnId event.call

omit [DecidableEq δ] in
theorem providerIds_append (events : List (ProjectEvent δ)) (event : ProjectEvent δ) :
    providerIds (events ++ [event]) = providerIds events ++ (drawnId event.call).toList := by
  unfold providerIds
  rw [List.filterMap_append]
  cases hid : drawnId event.call <;> simp [hid]

structure FreshIds (events : List (ProjectEvent δ)) : Prop where
  once : (providerIds events).Nodup
  whole : ∀ id ∈ providerIds events, '/' ∉ id

def Drawn (projectId : List Char) (events : List (ProjectEvent δ)) (key : List Char) : Prop :=
  ∃ id ∈ providerIds events, ∃ bucketId, key = providerObjectKey projectId bucketId id

omit [DecidableEq δ] in
theorem drawn_append {events : List (ProjectEvent δ)} {event : ProjectEvent δ} {key : List Char} :
    Drawn projectId (events ++ [event]) key ↔ Drawn projectId events key ∨ callDraws projectId event.call key := by
  unfold Drawn callDraws
  rw [providerIds_append]
  simp only [List.mem_append, Option.mem_toList, or_and_right, exists_or]

omit [DecidableEq δ] in
theorem FreshIds.of_append {events : List (ProjectEvent δ)} {event : ProjectEvent δ}
    (h : FreshIds (events ++ [event])) : FreshIds events := by
  obtain ⟨honce, hwhole⟩ := h
  rw [providerIds_append] at honce hwhole
  exact ⟨(List.nodup_append.mp honce).1, fun id hid => hwhole id (List.mem_append_left _ hid)⟩

omit [DecidableEq δ] in
theorem FreshIds.not_drawn {events : List (ProjectEvent δ)} {event : ProjectEvent δ}
    (h : FreshIds (events ++ [event])) (key : List Char) (hdraws : callDraws projectId event.call key) :
    ¬Drawn projectId events key := by
  rintro ⟨id, hid, bucketId, hkey⟩
  obtain ⟨id', hid', bucketId', hkey'⟩ := hdraws
  obtain ⟨honce, hwhole⟩ := h
  rw [providerIds_append, hid'] at honce hwhole
  have hsame := providerId_of_providerObjectKey (hwhole id (List.mem_append_left _ hid)) (hwhole id' (by simp))
    (hkey.symm.trans hkey')
  exact (List.nodup_append.mp honce).2.2 id hid id' (by simp) hsame

def CleanRun (codecs : StorageCodecs δ) (projectId : List Char) (start : ProjectState δ)
    (events : List (ProjectEvent δ)) : Prop :=
  ∀ before event after state', events = before ++ event :: after →
    projectCall codecs projectId (projectRun codecs projectId start before) event.nowMs event.call = .ok state' →
    CleanCall (projectRun codecs projectId start before) event.nowMs event.call

theorem live_run {start : ProjectState δ} (hnew : start.book = ⟨[], ∅, ∅, ∅, ∅, ∅⟩) (events : List (ProjectEvent δ))
    (hclock : Clocked events) (hfresh : FreshIds events) (hclean : CleanRun codecs projectId start events)
    (hnow : ∀ event ∈ events, event.nowMs ≤ nowMs) :
    (projectRun codecs projectId start events).book.Sound (Drawn projectId events) ∧
      (projectRun codecs projectId start events).book.CleanupSafe nowMs := by
  induction events using List.reverseRecOn generalizing nowMs with
  | nil =>
    change start.book.Sound _ ∧ start.book.CleanupSafe nowMs
    rw [hnew]
    exact ⟨sound_empty _, safe_empty⟩
  | append_singleton events event ih =>
    obtain ⟨hevents, -, hlast⟩ := List.pairwise_append.mp hclock
    have hclean' : CleanRun codecs projectId start events := by
      intro before event' after state' hsplit
      refine hclean before event' (after ++ [event]) state' ?_
      rw [hsplit, List.append_assoc, List.cons_append]
    obtain ⟨hsound, hsafe⟩ := ih hevents hfresh.of_append hclean' fun earlier hmem => hlast earlier hmem event (by simp)
    have hrun : projectRun codecs projectId start (events ++ [event]) =
        projectStep codecs projectId (projectRun codecs projectId start events) event := by
      unfold projectRun
      exact Machine.run_append start events [event]
    rw [hrun]
    have hlater : event.nowMs ≤ nowMs := hnow event (by simp)
    unfold projectStep
    cases hcall : projectCall codecs projectId (projectRun codecs projectId start events) event.nowMs event.call with
    | error error => exact ⟨hsound.mono fun key hkey => drawn_append.mpr (.inl hkey), hsafe.later hlater⟩
    | ok state' =>
      have hstep := hclean events event [] state' rfl hcall
      obtain ⟨hsound', hsafe'⟩ := live_projectCall hsound hsafe hstep hfresh.not_drawn hcall
      exact ⟨hsound'.mono fun key hkey => drawn_append.mpr hkey, hsafe'.later hlater⟩

/-- In a run all of whose calls are clean, nothing that is queued for deletion is bound to an object, and nothing that
is queued for abortion is a live upload. -/
theorem cleanup_spares_live {start : ProjectState δ} (hnew : start.book = ⟨[], ∅, ∅, ∅, ∅, ∅⟩)
    (events : List (ProjectEvent δ)) (hclock : Clocked events) (hfresh : FreshIds events)
    (hclean : CleanRun codecs projectId start events) (hnow : ∀ event ∈ events, event.nowMs ≤ nowMs) :
    (projectRun codecs projectId start events).book.CleanupSafe nowMs :=
  (live_run hnew events hclock hfresh hclean hnow).2

theorem CleanRun.cons {start : ProjectState δ} {event : ProjectEvent δ} {events : List (ProjectEvent δ)}
    (hfirst : CleanCall start event.nowMs event.call)
    (hrest : CleanRun codecs projectId (projectStep codecs projectId start event) events) :
    CleanRun codecs projectId start (event :: events) := by
  intro before event' after state' hsplit hcall
  cases before with
  | nil =>
    obtain ⟨rfl, -⟩ := List.cons.inj hsplit
    exact hfirst
  | cons first before =>
    obtain ⟨rfl, htail⟩ := List.cons.inj hsplit
    exact hrest before event' after state' htail hcall

theorem commitClean_of_upload {book : KeyBook} {claims : GrantClaims} {result : StorageCommitResult}
    (haction : claims.action = .upload) : CommitClean book claims result := by
  refine ⟨fun hcompletes => ?_, fun hcreates => ?_⟩
  · rw [haction] at hcompletes
    cases hcompletes
  · rw [haction] at hcreates
    cases hcreates

theorem releaseClean_of_upload {book : KeyBook} {row : ReservationRow} (haction : row.action = .upload) :
    ReleaseClean book nowMs row := by
  refine ⟨fun hcompletes => ?_, fun haborts => ?_⟩
  · rw [haction] at hcompletes
    cases hcompletes
  · rw [haction] at haborts
    cases haborts

end Run

end Calls

private abbrev SampleDigest := CommitBinding × Option StorageCommitResult

private def granted (action : StorageAction) (providerId nonce : List Char) : List (ProjectEvent SampleDigest) :=
  [⟨0, .authorize openPolicies (tenBytes action) ⟨"object".toList, "upload".toList, providerId⟩⟩,
    ⟨0, .reserve 0 nonce 0 600000⟩]

private def committed (grant : Nat) (result : StorageCommitResult) (id : List Char) : ProjectEvent SampleDigest :=
  ⟨0, .commit openPolicies grant alice result ⟨id, id⟩⟩

/-- An object is replaced, a grant is released, and a day later an upload and a reservation have expired. -/
private def busyDay : List (ProjectEvent SampleDigest) :=
  granted .upload "first".toList "nonce-of-the-first".toList ++ committed 0 {} "cleanup-1".toList ::
  granted .upload "second".toList "nonce-of-the-second".toList ++ committed 1 {} "cleanup-2".toList ::
  granted .upload "third".toList "nonce-of-the-third".toList ++ ⟨0, .release 2 alice "cleanup-3".toList⟩ ::
  granted .createMultipart "fourth".toList "nonce-of-the-fourth".toList ++
    committed 3 { versionId := some "u".toList } "cleanup-4".toList ::
  granted .upload "fifth".toList "nonce-of-the-fifth".toList ++
    [⟨uploadTtlMs, .expire 100 (Vector.replicate 100 ("cleanup-5".toList, "cleanup-6".toList))⟩]

private def afterBusyDay : ProjectState SampleDigest := projectRun sampleCodecs "p".toList oneBucket busyDay

private theorem busyDay_clean : CleanRun sampleCodecs "p".toList oneBucket busyDay := by
  have hcommit {state : ProjectState SampleDigest} {grant : Nat} {result : StorageCommitResult} {id : List Char}
      (h : state.grants.all (·.action = .upload) = true) : CleanCall state 0 (committed grant result id).call := by
    intro claims hgrant _
    exact commitClean_of_upload (by simpa using List.all_eq_true.mp h claims (List.mem_of_getElem? hgrant))
  have hrelease {state : ProjectState SampleDigest}
      (h : state.tables.reservations.entries.all (·.2.action = .upload) = true) :
      CleanCall state 0 (.release 2 alice "cleanup-3".toList) := by
    intro claims row _ hlookup
    exact releaseClean_of_upload (by simpa using List.all_eq_true.mp h _ (AList.mem_entries.mpr hlookup))
  have hstart {state : ProjectState SampleDigest} {result : StorageCommitResult} {id : List Char}
      (hgrants : (state.grants[3]?.all (·.action = .createMultipart)) = true)
      (hqueue : state.tables.cleanup.entries.all (·.2.target.action = .upload) = true) :
      CleanCall state 0 (committed 3 result id).call := by
    intro claims hgrant _
    have haction : claims.action = .createMultipart := by
      rw [hgrant] at hgrants
      simpa using hgrants
    refine ⟨fun hcompletes => ?_, fun _ uploadId _ target hqueued haborts => ?_⟩
    · rw [haction] at hcompletes
      cases hcompletes
    · obtain ⟨name, row, hlookup, rfl⟩ := hqueued
      have htarget := List.all_eq_true.mp hqueue _ (AList.mem_entries.mpr hlookup)
      rw [of_decide_eq_true htarget] at haborts
      cases haborts
  have hexpire {state : ProjectState SampleDigest} {cleanupIds : Vector (List Char × List Char) 100}
      (h : (state.tables.expiredReservations uploadTtlMs 100).all (·.2.action = .upload) = true) :
      CleanCall state uploadTtlMs (.expire 100 cleanupIds) := by
    intro expired hexpired
    exact releaseClean_of_upload (by simpa using List.all_eq_true.mp h expired hexpired)
  refine .cons trivial (.cons trivial (.cons (hcommit (by decide +kernel)) ?_))
  refine .cons trivial (.cons trivial (.cons (hcommit (by decide +kernel)) ?_))
  refine .cons trivial (.cons trivial (.cons (hrelease (by decide +kernel)) ?_))
  refine .cons trivial (.cons trivial (.cons (hstart (by decide +kernel) (by decide +kernel)) ?_))
  refine .cons trivial (.cons trivial (.cons (hexpire (by decide +kernel)) ?_))
  intro before event after state' hsplit
  simp at hsplit

/-- Four keys wait for their cleanup, and the object has the fifth. -/
theorem busy_day_spares_live :
    afterBusyDay.tables.cleanup.entries.map (fun entry => (entry.2.target.action, entry.2.target.providerKey)) =
        [(.abortMultipart, "projects/p/buckets/b/objects/fourth".toList),
          (.upload, "projects/p/buckets/b/objects/fifth".toList),
          (.upload, "projects/p/buckets/b/objects/third".toList),
          (.upload, "projects/p/buckets/b/objects/first".toList)] ∧
      afterBusyDay.tables.providerObjects.entries.map (·.2) = ["projects/p/buckets/b/objects/second".toList] ∧
      afterBusyDay.book.CleanupSafe uploadTtlMs := by
  refine ⟨by decide +kernel, by decide +kernel, ?_⟩
  refine cleanup_spares_live rfl busyDay ?_ ⟨?_, ?_⟩ busyDay_clean ?_
  · simp [Clocked, busyDay, granted, committed]
    decide
  · decide +kernel
  · decide +kernel
  · simp [busyDay, granted, committed]
    decide

private def uploadStarted : List (ProjectEvent (CommitBinding × Option StorageCommitResult)) :=
  granting .createMultipart ++
    [⟨0, .commit openPolicies 0 alice { versionId := some "u".toList } ⟨"cleanup".toList, "version".toList⟩⟩]

private def uploadGranting (action : StorageAction) (providerId nonce : List Char) :
    List (ProjectEvent (CommitBinding × Option StorageCommitResult)) :=
  [⟨0, .authorize openPolicies { tenBytes action with
      uploadId := some "u".toList
      partNumber := if action = .uploadPart then some 1 else none } ⟨"other".toList, "other".toList, providerId⟩⟩,
    ⟨0, .reserve 0 nonce 0 600000⟩]

private def partGivenUp : List (ProjectEvent (CommitBinding × Option StorageCommitResult)) :=
  uploadStarted ++ uploadGranting .uploadPart "first".toList "nonce-of-part-one".toList ++
    [⟨0, .release 1 alice "given-up".toList⟩]

/-- Two completions of one upload are granted. The first is committed, and the second given up. -/
private def completedTwice : List (ProjectEvent (CommitBinding × Option StorageCommitResult)) :=
  uploadStarted ++ uploadGranting .completeMultipart "first".toList "nonce-of-the-first".toList ++
    uploadGranting .completeMultipart "second".toList "nonce-of-the-second".toList ++
    [⟨0, .commit openPolicies 1 alice {} ⟨"cleanup".toList, "version".toList⟩⟩,
      ⟨0, .release 2 alice "given-up".toList⟩]

theorem not_safe_of_bound {δ : Type} {state : ProjectState δ} {id objectId : List Char} {target : CleanupTarget}
    {nowMs : Int64} (hqueued : (state.tables.cleanup.lookup id).map (·.target) = some target)
    (hdeletes : deletesObject target.action = true)
    (hbound : state.tables.providerObjects.lookup objectId = some target.providerKey) :
    ¬state.book.CleanupSafe nowMs :=
  fun hsafe => hsafe.objects target ⟨id, Option.map_eq_some_iff.mp hqueued⟩ hdeletes objectId hbound

theorem not_safe_of_live {δ : Type} {state : ProjectState δ} {id uploadId : List Char} {target : CleanupTarget}
    {nowMs : Int64} (hqueued : (state.tables.cleanup.lookup id).map (·.target) = some target)
    (haborts : abortsUpload target.action = true) (htarget : target.uploadId = some uploadId)
    (hlive : (state.tables.uploads.lookup uploadId).any
      (fun upload => upload.status = .active && nowMs < upload.expiresAtMs) = true) :
    ¬state.book.CleanupSafe nowMs := by
  intro hsafe
  obtain ⟨upload, hlookup, hactive⟩ := (Option.any_eq_true _ _).mp hlive
  simp only [Bool.and_eq_true, decide_eq_true_eq] at hactive
  have hother := hsafe.uploads target ⟨id, Option.map_eq_some_iff.mp hqueued⟩ haborts uploadId ⟨upload, hlookup, hactive⟩
  exact hother.1 htarget

/-- An object that is committed is to be deleted, and an upload that goes on is to be aborted. -/
theorem cleanup_targets_live :
    ¬(projectRun sampleCodecs "p".toList oneBucket completedTwice).book.CleanupSafe 0 ∧
    ¬(projectRun sampleCodecs "p".toList oneBucket partGivenUp).book.CleanupSafe 0 := by
  refine ⟨?_, ?_⟩
  · have hqueued : ((projectRun sampleCodecs "p".toList oneBucket completedTwice).tables.cleanup.lookup
        "given-up".toList).map (·.target) =
          some ⟨"projects/p/buckets/b/objects/key".toList, .completeMultipart, some "u".toList⟩ := by decide +kernel
    have hbound : (projectRun sampleCodecs "p".toList oneBucket completedTwice).tables.providerObjects.lookup
        "key".toList = some "projects/p/buckets/b/objects/key".toList := by decide +kernel
    exact not_safe_of_bound hqueued rfl hbound
  · have hqueued : ((projectRun sampleCodecs "p".toList oneBucket partGivenUp).tables.cleanup.lookup
        "given-up".toList).map (·.target) =
          some ⟨"projects/p/buckets/b/objects/key".toList, .uploadPart, some "u".toList⟩ := by decide +kernel
    exact not_safe_of_live hqueued rfl rfl (by decide +kernel)

end Ffdb.ObjectStorage
