import Ffdb.ObjectStorage.Project

/-! The quota of a project. What is demanded of it is what objects take, what is reserved, and what uploads in
progress hold. -/
namespace Ffdb.ObjectStorage
open Fallible

variable {δ : Type} {codecs : StorageCodecs δ} {projectId : List Char} {policies : StoragePolicies δ}
  {tables written : StorageTables δ} {nowMs : Int64}

def StorageTables.demand (tables : StorageTables δ) (nowMs : Int64) : Nat :=
  tables.usedBytes + tables.pendingBytes nowMs + tables.uploadBytes

def Covers (codecs : StorageCodecs δ) (maxBytes : Option Nat) (reservationBytes : Nat)
    (fingerprint : Option (List Char)) : Prop :=
  ∃ size, maxBytes = some size ∧ match fingerprint with
    | none => reservationBytes = size
    | some expected => ∃ replacement, codecs.replacement replacement = expected ∧
        reservationBytes = size - replacement.sizeBytes

def Sized (codecs : StorageCodecs δ) (action : StorageAction) (maxBytes : Option Nat) (reservationBytes : Nat)
    (fingerprint : Option (List Char)) : Prop :=
  action = .upload ∨ action = .completeMultipart → Covers codecs maxBytes reservationBytes fingerprint

section Authorize
variable {request : AuthorizationRequest} {bucketId : List Char} {bucket : BucketRow} {ids : AuthorizeIds}

theorem probeReplacement_ok {object : Option (List Char × ObjectRow)} {fingerprint : Option (List Char)}
    (h : probeReplacement codecs projectId policies tables request bucketId ids nowMs object = .ok fingerprint) :
    (object = none ∧ fingerprint = none) ∨ ∃ id row providerKey, object = some (id, row) ∧
      fingerprint = some (codecs.replacement ⟨projectId, bucketId, id, row.sizeBytes, providerKey⟩) := by
  cases object with
  | none =>
    simp only [probeReplacement, bind_ok_iff, pure_ok_iff] at h
    obtain ⟨-, -, rfl⟩ := h
    exact .inl ⟨rfl, rfl⟩
  | some object =>
    simp only [probeReplacement, bind_ok_iff, pure_ok_iff] at h
    obtain ⟨-, -, providerKey, -, rfl⟩ := h
    exact .inr ⟨object.1, object.2, providerKey, rfl, rfl⟩

theorem authorizeAction_sized {object : Option (List Char × ObjectRow)} {decision : GrantDecision}
    (h : authorizeAction codecs projectId policies tables request bucketId bucket ids nowMs object = .ok decision) :
    Sized codecs request.action request.contentLength decision.reservationBytes decision.replacementFingerprint := by
  rintro (haction | haction)
  · simp only [authorizeAction, haction, bind_ok_iff, orError_ok_iff, pure_ok_iff] at h
    obtain ⟨size, hsize, -, -, fingerprint, hprobe, rfl⟩ := h
    refine ⟨size, hsize, ?_⟩
    obtain ⟨rfl, rfl⟩ | ⟨id, row, providerKey, rfl, rfl⟩ := probeReplacement_ok hprobe
    · rfl
    · exact ⟨_, rfl, rfl⟩
  · simp only [authorizeAction, haction, bind_ok_iff, require_ok_iff, pure_ok_iff, Bool.and_eq_true] at h
    obtain ⟨⟨uploadId, upload⟩, -, -, hchecks, _, -, binding, -, _, hverify, rfl⟩ := h
    obtain ⟨size, hsize, -⟩ := Option.any_eq_true _ _ |>.mp hchecks.1.1.2
    refine ⟨size, hsize, ?_⟩
    obtain ⟨rfl, hexpected⟩ | ⟨id, row, providerKey, fingerprint, rfl, hexpected, -, hfingerprint⟩ :=
      verifyReplacementState_ok hverify
    · simp [hexpected, hsize]
    · simp only [hexpected]
      exact ⟨_, hfingerprint, by simp [hsize]⟩

theorem authorizeSync_sized {authorization : MetadataAuthorization}
    (h : authorizeSync codecs projectId policies tables request ids nowMs = .ok authorization) :
    Sized codecs request.action request.contentLength authorization.reservationBytes
      authorization.replacementFingerprint := by
  obtain ⟨-, h⟩ := withUser_ok projectId h
  simp only [bind_ok_iff, pure_ok_iff] at h
  obtain ⟨⟨bucketId, bucket⟩, -, decision, hdecision, _, -, rfl⟩ := h
  exact authorizeAction_sized hdecision

end Authorize

section Commit
variable {request : StorageMetadataCommit} {bucketId objectId : List Char} {ids : CommitIds}

/-- An object that is written grows by no more than its grant covers. -/
theorem usedBytes_objectWritten (hreplacement : Function.Injective codecs.replacement) {maxBytes : Option Nat}
    {reservationBytes : Nat} {cleanupId : List Char}
    (hcovers : Covers codecs maxBytes reservationBytes request.replacementFingerprint)
    (hallowed : ∀ size maximum, request.contentLength = some size → maxBytes = some maximum → size ≤ maximum)
    (hmatches : Matches codecs projectId bucketId tables request.replacementFingerprint objectId)
    (hwritten : ObjectWritten tables request nowMs cleanupId objectId written) :
    written.usedBytes ≤ tables.usedBytes + reservationBytes := by
  obtain ⟨maximum, hmaximum, hreserved⟩ := hcovers
  obtain ⟨size, row, hsize, hobjects, hrow⟩ := hwritten.objects
  have hle := hallowed size maximum hsize hmaximum
  unfold StorageTables.usedBytes
  rw [hobjects]
  unfold Matches at hmatches
  cases hfingerprint : request.replacementFingerprint with
  | none =>
    rw [hfingerprint] at hmatches hreserved
    rw [AList.total_insert _ hmatches, hrow, hreserved]
    omega
  | some fingerprint =>
    rw [hfingerprint] at hmatches hreserved
    obtain ⟨old, providerKey, hold, -, hactual⟩ := hmatches
    obtain ⟨replacement, hexpected, hreserved⟩ := hreserved
    have hsame := congrArg Replacement.sizeBytes (hreplacement (hexpected.trans hactual.symm))
    have htotal := AList.total_insert_of_lookup (fun _ row => row.sizeBytes) hold row
    rw [hrow] at htotal
    simp only at hsame
    omega

/-- What the metadata of a commit demands beyond what was there is covered by its reservation. -/
theorem commitAction_demand (hreplacement : Function.Injective codecs.replacement) {maxBytes : Option Nat}
    (hsized : Sized codecs request.action maxBytes request.reservationBytes request.replacementFingerprint)
    (hallowed : ∀ size maximum, request.contentLength = some size → maxBytes = some maximum → size ≤ maximum)
    (h : commitAction codecs projectId policies tables request bucketId ids nowMs = .ok written) :
    written.usedBytes ≤ tables.usedBytes + request.reservationBytes ∧
    written.usedBytes + written.uploadBytes ≤ tables.usedBytes + tables.uploadBytes + request.reservationBytes ∧
    (requiresDurableReservation request.action = false → written = tables) := by
  unfold commitAction at h
  cases haction : request.action with
  | upload =>
    simp only [haction] at h
    obtain ⟨objectId, hmatches, hwritten⟩ := commitObjectUpload_ok h
    have hused := usedBytes_objectWritten hreplacement (hsized (.inl haction)) hallowed hmatches hwritten
    have huploads : written.uploadBytes = tables.uploadBytes := by
      unfold StorageTables.uploadBytes
      rw [hwritten.providerUploads]
    exact ⟨hused, by omega, fun hdurable => by cases hdurable⟩
  | download =>
    simp only [haction, pure_ok_iff] at h
    subst h
    exact ⟨by omega, by omega, fun _ => rfl⟩
  | delete =>
    simp only [haction] at h
    obtain ⟨objectId, objects, versions, hobjects, rfl⟩ := commitDelete_ok h
    have hused : objects.total (fun _ row => row.sizeBytes) ≤ tables.usedBytes := by
      obtain rfl | rfl := hobjects
      · exact Nat.le_refl _
      · exact AList.total_erase_le _ _
    refine ⟨Nat.le_add_right_of_le hused, ?_, fun hdurable => by cases hdurable⟩
    change objects.total (fun _ row => row.sizeBytes) + tables.uploadBytes ≤ _
    omega
  | list => simp only [haction, reduceCtorEq] at h
  | createMultipart =>
    simp only [haction] at h
    obtain ⟨uploadId, row, -, -, rfl⟩ := commitCreateMultipart_ok h
    refine ⟨Nat.le_add_right _ _, ?_, fun hdurable => by cases hdurable⟩
    have huploads : (tables.providerUploads.insert uploadId
        ⟨request.providerKey, request.reservationBytes, request.replacementFingerprint⟩).total
          (fun _ binding => binding.reservedBytes) ≤ tables.uploadBytes + request.reservationBytes :=
      AList.total_insert_le _ _ _
    change tables.usedBytes + (tables.providerUploads.insert uploadId _).total (fun _ binding => binding.reservedBytes) ≤ _
    omega
  | uploadPart =>
    simp only [haction] at h
    obtain ⟨uploadId, upload, uploads, uploadParts, -, -, -, rfl⟩ := commitUploadPart_ok h
    exact ⟨Nat.le_add_right _ _, Nat.le_add_right _ _, fun hdurable => by cases hdurable⟩
  | completeMultipart =>
    simp only [haction] at h
    obtain ⟨uploadId, upload, binding, middle, objectId, -, -, -, -, hmatches, hwritten, hremove⟩ :=
      commitCompleteMultipart_ok h
    have hused := usedBytes_objectWritten hreplacement (hsized (.inr haction)) hallowed hmatches hwritten
    obtain ⟨uploads, uploadParts, -, rfl⟩ := removeUpload_ok hremove
    have huploads : (middle.providerUploads.erase uploadId).total (fun _ binding => binding.reservedBytes) ≤
        tables.uploadBytes := by
      rw [hwritten.providerUploads]
      exact AList.total_erase_le _ _
    refine ⟨hused, ?_, fun hdurable => by cases hdurable⟩
    change middle.usedBytes + (middle.providerUploads.erase uploadId).total (fun _ binding => binding.reservedBytes) ≤ _
    omega
  | abortMultipart =>
    simp only [haction] at h
    obtain ⟨uploadId, upload, -, -, hremove⟩ := commitAbortMultipart_ok h
    obtain ⟨uploads, uploadParts, -, rfl⟩ := removeUpload_ok hremove
    have huploads : (tables.providerUploads.erase uploadId).total (fun _ binding => binding.reservedBytes) ≤
        tables.uploadBytes := AList.total_erase_le _ _
    refine ⟨Nat.le_add_right _ _, ?_, fun hdurable => by cases hdurable⟩
    change tables.usedBytes + (tables.providerUploads.erase uploadId).total (fun _ binding => binding.reservedBytes) ≤ _
    omega

theorem pendingBytes_erase {nonce : List Char} {row : ReservationRow} (hlookup : tables.reservations.lookup nonce = some row)
    (hlive : nowMs < row.expiresAtMs) :
    (tables.reservations.erase nonce).total (fun _ row => if nowMs < row.expiresAtMs then row.bytes else 0) + row.bytes =
      tables.pendingBytes nowMs := by
  have htotal := AList.total_erase (fun _ row => if nowMs < row.expiresAtMs then row.bytes else 0) hlookup
  rw [if_pos hlive] at htotal
  exact htotal

variable {claims : GrantClaims} {auth : AuthContext} {result : StorageCommitResult}

/-- What a commit does to the bytes of a project: nothing, or its reservation goes, and covers what is new. -/
inductive Settled (nowMs : Int64) (claims : GrantClaims) (tables written : StorageTables δ) : Prop where
  | unchanged (used : written.usedBytes = tables.usedBytes) (uploads : written.uploadBytes = tables.uploadBytes)
      (reservations : written.reservations = tables.reservations)
  | consumed (row : ReservationRow) (found : tables.reservations.lookup claims.nonce = some row)
      (bytes : row.bytes = claims.reservationBytes) (live : nowMs < row.expiresAtMs)
      (reservations : written.reservations = tables.reservations.erase claims.nonce)
      (used : written.usedBytes ≤ tables.usedBytes + row.bytes)
      (demand : written.usedBytes + written.uploadBytes ≤ tables.usedBytes + tables.uploadBytes + row.bytes)

theorem commitSync_settled [DecidableEq δ] (hreplacement : Function.Injective codecs.replacement)
    (hsized : Sized codecs claims.action claims.maxBytes claims.reservationBytes claims.replacementFingerprint)
    (hallowed : claims.allowsResult result = true)
    (h : commitSync codecs projectId policies tables (commitRequest claims auth result) ids nowMs = .ok written) :
    written.buckets = tables.buckets ∧ Settled nowMs claims tables written := by
  obtain ⟨-, ⟨rfl, -⟩ | ⟨-, hsettle⟩⟩ := commitSync_ok h
  · exact ⟨rfl, .unchanged rfl rfl rfl⟩
  obtain ⟨consumed, bucketId, metadata, hconsumed, hmetadata, -, rfl⟩ := settleCommit_ok hsettle
  have hsize : ∀ size maximum, (commitRequest claims auth result).contentLength = some size →
      claims.maxBytes = some maximum → size ≤ maximum := by
    intro size maximum hcontent hmaximum
    unfold GrantClaims.allowsResult at hallowed
    unfold commitRequest at hcontent
    cases hreported : result.contentLength with
    | none =>
      simp only [hreported, hmaximum, Option.none_or, Option.some.injEq] at hcontent
      exact Nat.le_of_eq hcontent.symm
    | some actual =>
      simp only [hreported, hmaximum, Option.some_or, Option.some.injEq, Bool.and_eq_true, decide_eq_true_eq] at hcontent hallowed
      exact hcontent ▸ hallowed.1
  obtain ⟨hused, hdemand, hfree⟩ := commitAction_demand hreplacement hsized hsize hmetadata
  obtain ⟨hbuckets, hreservations, -⟩ := commitAction_frame hmetadata
  unfold consumeGrant at hconsumed
  split_ifs at hconsumed with hdurable
  · obtain ⟨hlookup, hlive, rfl⟩ := consumeReservation_ok hconsumed
    exact ⟨hbuckets, .consumed _ hlookup rfl hlive hreservations hused hdemand⟩
  · obtain rfl := Except.ok.inj hconsumed
    obtain rfl := hfree (Bool.not_eq_true _ ▸ hdurable)
    exact ⟨rfl, .unchanged rfl rfl rfl⟩

theorem Settled.demand (h : Settled nowMs claims tables written) : written.demand nowMs ≤ tables.demand nowMs := by
  unfold StorageTables.demand
  cases h with
  | unchanged hused huploads hreservations =>
    have hpending : written.pendingBytes nowMs = tables.pendingBytes nowMs := by
      unfold StorageTables.pendingBytes
      rw [hreservations]
    omega
  | consumed row hlookup _ hlive hreservations _ hdemand =>
    have hpending : written.pendingBytes nowMs + row.bytes = tables.pendingBytes nowMs := by
      rw [← pendingBytes_erase hlookup hlive]
      unfold StorageTables.pendingBytes
      rw [hreservations]
    omega

end Commit

section Run
variable [DecidableEq δ] {state state' : ProjectState δ} {call : ProjectCall δ}

structure GrantsSized (codecs : StorageCodecs δ) (state : ProjectState δ) : Prop where
  decided : ∀ decision ∈ state.decided, Sized codecs decision.1.action decision.1.contentLength
    decision.2.reservationBytes decision.2.replacementFingerprint
  grants : ∀ claims ∈ state.grants, Sized codecs claims.action claims.maxBytes claims.reservationBytes
    claims.replacementFingerprint

theorem GrantsSized.projectCall (h : GrantsSized codecs state)
    (hcall : projectCall codecs projectId state nowMs call = .ok state') : GrantsSized codecs state' := by
  cases call with
  | authorize policies request ids =>
    simp only [Ffdb.ObjectStorage.projectCall, bind_ok_iff, pure_ok_iff] at hcall
    obtain ⟨authorization, hauthorize, _, -, rfl⟩ := hcall
    refine ⟨?_, h.grants⟩
    intro decision hmem
    obtain hmem | hmem := List.mem_append.mp hmem
    · exact h.decided decision hmem
    · obtain rfl := List.mem_singleton.mp hmem
      exact authorizeSync_sized hauthorize
  | reserve decision nonce gatewayMs grantTtlMs =>
    simp only [Ffdb.ObjectStorage.projectCall, bind_ok_iff, orError_ok_iff, pure_ok_iff] at hcall
    obtain ⟨⟨request, authorization⟩, hdecision, tables, -, rfl⟩ := hcall
    refine ⟨fun other hmem => h.decided other (List.mem_of_mem_eraseIdx hmem), ?_⟩
    intro claims hmem
    obtain hmem | hmem := List.mem_append.mp hmem
    · exact h.grants claims hmem
    · obtain rfl := List.mem_singleton.mp hmem
      exact h.decided (request, authorization) (List.mem_of_getElem? hdecision)
  | commit policies grant auth result ids =>
    simp only [Ffdb.ObjectStorage.projectCall, bind_ok_iff, pure_ok_iff] at hcall
    obtain ⟨claims, -, _, -, tables, -, rfl⟩ := hcall
    exact ⟨h.decided, h.grants⟩
  | release grant auth cleanupId =>
    simp only [Ffdb.ObjectStorage.projectCall, bind_ok_iff, pure_ok_iff] at hcall
    obtain ⟨claims, -, _, -, tables, -, rfl⟩ := hcall
    exact ⟨h.decided, h.grants⟩
  | expire limit cleanupIds =>
    simp only [Ffdb.ObjectStorage.projectCall, bind_ok_iff, pure_ok_iff] at hcall
    obtain ⟨tables, -, rfl⟩ := hcall
    exact ⟨h.decided, h.grants⟩
  | claimCleanup limit leaseDurationMs tokens =>
    simp only [Ffdb.ObjectStorage.projectCall, bind_ok_iff, pure_ok_iff] at hcall
    obtain ⟨_, -, rfl⟩ := hcall
    exact ⟨h.decided, h.grants⟩
  | ackCleanup acks =>
    simp only [Ffdb.ObjectStorage.projectCall, bind_ok_iff, pure_ok_iff] at hcall
    obtain ⟨_, -, rfl⟩ := hcall
    exact ⟨h.decided, h.grants⟩

def Fits (nowMs : Int64) (tables written : StorageTables δ) : Prop :=
  written.buckets = tables.buckets ∧ (written.demand nowMs ≤ tables.demand nowMs ∨
    ∃ quota, tables.quotaBytes = some quota ∧ written.demand nowMs ≤ quota)

omit [DecidableEq δ] in
theorem demand_eraseReservation (nonce : List Char) (cleanup : CleanupQueue) :
    StorageTables.demand { tables with cleanup, reservations := tables.reservations.erase nonce } nowMs ≤
      tables.demand nowMs := by
  have hpending : (tables.reservations.erase nonce).total
      (fun _ row => if nowMs < row.expiresAtMs then row.bytes else 0) ≤ tables.pendingBytes nowMs :=
    AList.total_erase_le _ _
  change tables.usedBytes + (tables.reservations.erase nonce).total _ + tables.uploadBytes ≤
    tables.usedBytes + tables.pendingBytes nowMs + tables.uploadBytes
  omega

omit [DecidableEq δ] in
theorem fits_storageReserve {auth : AuthContext} {nonce : List Char} {bytes : Nat} {expiresAtMs : Int64}
    {providerKey : List Char} {action : StorageAction} {uploadId : Option (List Char)}
    (h : tables.storageReserve auth nonce bytes expiresAtMs nowMs providerKey action uploadId = .ok written) :
    Fits nowMs tables written := by
  obtain ⟨hlive, hnone, ⟨quota, hquota, hle⟩, rfl⟩ := storageReserve_ok h
  refine ⟨rfl, .inr ⟨quota, hquota, ?_⟩⟩
  have hpending := AList.total_insert (fun _ row => if nowMs < row.expiresAtMs then row.bytes else 0) hnone
    (⟨auth.subject, auth.tokenId, bytes, expiresAtMs, providerKey, action, uploadId⟩ : ReservationRow)
  rw [if_pos hlive] at hpending
  change tables.usedBytes + (tables.reservations.insert nonce _).total _ + tables.uploadBytes ≤ quota
  change _ = tables.pendingBytes nowMs + bytes at hpending
  omega

omit [DecidableEq δ] in
theorem fits_prepareExpiredCleanup {limit : Nat} {cleanupIds : Vector (List Char × List Char) 100}
    (h : tables.prepareExpiredCleanup nowMs limit cleanupIds = .ok written) : Fits nowMs tables written := by
  simp only [StorageTables.prepareExpiredCleanup, bind_ok_iff, pure_ok_iff] at h
  obtain ⟨-, -, reserved, hreserved, uploaded, huploaded, rfl⟩ := h
  have hfirst : reserved.buckets = tables.buckets ∧ reserved.demand nowMs ≤ tables.demand nowMs := by
    refine foldlM_keeps (P := fun state => state.buckets = tables.buckets ∧ state.demand nowMs ≤ tables.demand nowMs)
      ?_ hreserved ⟨rfl, Nat.le_refl _⟩
    rintro before ⟨⟨nonce, row⟩, cleanupId⟩ after - hbefore hexpire
    obtain ⟨_, cleanup, -, -, -, rfl⟩ := expireReservation_ok hexpire
    exact ⟨hbefore.1, Nat.le_trans (demand_eraseReservation nonce cleanup) hbefore.2⟩
  have hsecond : uploaded.buckets = tables.buckets ∧ uploaded.demand nowMs ≤ tables.demand nowMs := by
    refine foldlM_keeps (P := fun state => state.buckets = tables.buckets ∧ state.demand nowMs ≤ tables.demand nowMs)
      ?_ huploaded hfirst
    rintro before ⟨⟨uploadId, providerKey⟩, cleanupId⟩ after - hbefore hexpire
    obtain ⟨cleanup, uploadParts, -, rfl⟩ := expireUpload_ok hexpire
    refine ⟨hbefore.1, Nat.le_trans ?_ hbefore.2⟩
    have huploads : (before.providerUploads.erase uploadId).total (fun _ binding => binding.reservedBytes) ≤
        before.uploadBytes := AList.total_erase_le _ _
    exact Nat.add_le_add_left huploads _
  exact ⟨hsecond.1, .inl hsecond.2⟩

theorem fits_projectCall (hreplacement : Function.Injective codecs.replacement) (hsized : GrantsSized codecs state)
    (hcall : projectCall codecs projectId state nowMs call = .ok state') : Fits nowMs state.tables state'.tables := by
  cases call with
  | authorize policies request ids =>
    simp only [projectCall, bind_ok_iff, pure_ok_iff] at hcall
    obtain ⟨_, -, _, -, rfl⟩ := hcall
    exact ⟨rfl, .inl (Nat.le_refl _)⟩
  | reserve decision nonce gatewayMs grantTtlMs =>
    simp only [projectCall, bind_ok_iff, pure_ok_iff] at hcall
    obtain ⟨⟨request, authorization⟩, -, tables, hreserve, rfl⟩ := hcall
    unfold reserveGrant at hreserve
    split_ifs at hreserve
    · exact fits_storageReserve (withUser_ok projectId hreserve).2
    · obtain rfl := Except.ok.inj hreserve
      exact ⟨rfl, .inl (Nat.le_refl _)⟩
  | commit policies grant auth result ids =>
    simp only [projectCall, bind_ok_iff, orError_ok_iff, require_ok_iff, pure_ok_iff, Bool.and_eq_true] at hcall
    obtain ⟨claims, hgrant, _, ⟨-, hallowed⟩, tables, hcommit, rfl⟩ := hcall
    obtain ⟨hbuckets, hsettled⟩ := commitSync_settled hreplacement (hsized.grants claims (List.mem_of_getElem? hgrant))
      hallowed hcommit
    exact ⟨hbuckets, .inl hsettled.demand⟩
  | release grant auth cleanupId =>
    simp only [projectCall, bind_ok_iff, pure_ok_iff] at hcall
    obtain ⟨claims, -, _, -, tables, hrelease, rfl⟩ := hcall
    unfold releaseGrant at hrelease
    split_ifs at hrelease
    · obtain ⟨_, cleanup, -, -, rfl⟩ := releaseReservationBound_ok (withUser_ok projectId hrelease).2
      exact ⟨rfl, .inl (demand_eraseReservation claims.nonce cleanup)⟩
    · obtain rfl := Except.ok.inj hrelease
      exact ⟨rfl, .inl (Nat.le_refl _)⟩
  | expire limit cleanupIds =>
    simp only [projectCall, bind_ok_iff, pure_ok_iff, mapError_ok_iff] at hcall
    obtain ⟨tables, hexpire, rfl⟩ := hcall
    exact fits_prepareExpiredCleanup hexpire
  | claimCleanup limit leaseDurationMs tokens =>
    simp only [projectCall, bind_ok_iff, pure_ok_iff] at hcall
    obtain ⟨_, -, rfl⟩ := hcall
    exact ⟨rfl, .inl (Nat.le_refl _)⟩
  | ackCleanup acks =>
    simp only [projectCall, bind_ok_iff, pure_ok_iff] at hcall
    obtain ⟨_, -, rfl⟩ := hcall
    exact ⟨rfl, .inl (Nat.le_refl _)⟩

omit [DecidableEq δ] in
theorem demand_antitone {earlier later : Int64} (h : earlier ≤ later) : tables.demand later ≤ tables.demand earlier := by
  have hpending : tables.pendingBytes later ≤ tables.pendingBytes earlier := by
    refine AList.total_mono fun nonce row => ?_
    split_ifs with hlater hearlier
    · exact Nat.le_refl _
    · exact absurd (Int64.lt_of_le_of_lt h hlater) hearlier
    · exact Nat.zero_le _
    · exact Nat.le_refl _
  unfold StorageTables.demand
  omega

theorem sized_run (start : ProjectState δ) (hsized : GrantsSized codecs start) (events : List (ProjectEvent δ)) :
    GrantsSized codecs (projectRun codecs projectId start events) := by
  refine Machine.run_preserves ?_ start events hsized
  intro state event h
  unfold projectStep
  cases hcall : projectCall codecs projectId state event.nowMs event.call with
  | ok state' => exact h.projectCall hcall
  | error error => exact h

theorem fits_step (hreplacement : Function.Injective codecs.replacement) (hsized : GrantsSized codecs state)
    (event : ProjectEvent δ) : Fits event.nowMs state.tables (projectStep codecs projectId state event).tables := by
  unfold projectStep
  cases hcall : projectCall codecs projectId state event.nowMs event.call with
  | ok state' => exact fits_projectCall hreplacement hsized hcall
  | error error => exact ⟨rfl, .inl (Nat.le_refl _)⟩

theorem demand_run (hreplacement : Function.Injective codecs.replacement) (hsized : GrantsSized codecs state)
    {events : List (ProjectEvent δ)} (hclock : Clocked events) {quota : Nat}
    (hquota : state.tables.quotaBytes = some quota) {nowMs nowMs' : Int64}
    (hnow : ∀ event ∈ events, nowMs ≤ event.nowMs ∧ event.nowMs ≤ nowMs') (hlater : nowMs ≤ nowMs')
    (hwithin : state.tables.demand nowMs ≤ quota) :
    (projectRun codecs projectId state events).tables.demand nowMs' ≤ quota := by
  induction events generalizing state nowMs with
  | nil => exact Nat.le_trans (demand_antitone hlater) hwithin
  | cons event events ih =>
    obtain ⟨hafter, hevents⟩ := List.pairwise_cons.mp hclock
    obtain ⟨hearlier, hend⟩ := hnow event List.mem_cons_self
    have hstart := Nat.le_trans (demand_antitone hearlier) hwithin
    have hfit : Fits event.nowMs state.tables (projectStep codecs projectId state event).tables :=
      fits_step hreplacement hsized event
    obtain ⟨hbuckets, hfits⟩ := hfit
    have hsized' : GrantsSized codecs (projectStep codecs projectId state event) := sized_run state hsized [event]
    have hquota' : (projectStep codecs projectId state event).tables.quotaBytes = some quota := by
      unfold StorageTables.quotaBytes at hquota ⊢
      rw [hbuckets]
      exact hquota
    refine ih hsized' hevents hquota' (fun other hmem => ⟨hafter other hmem, (hnow other (List.mem_cons_of_mem _ hmem)).2⟩)
      hend ?_
    obtain hfits | ⟨quota', hquota', hfits⟩ := hfits
    · exact Nat.le_trans hfits hstart
    · obtain rfl := Option.some.inj (hquota.symm.trans hquota')
      exact hfits

/-- Once what is demanded is within the least quota it stays there, whatever is granted, committed, released and
expires in whatever order, and no commit adds more to the objects than the reservation that it consumes. -/
theorem storage_quota_kept (hreplacement : Function.Injective codecs.replacement) {start : ProjectState δ}
    (hnew : start.decided = [] ∧ start.grants = []) (before : List (ProjectEvent δ)) :
    (∀ after nowMs nowMs' quota, Clocked (before ++ after) →
      (∀ event ∈ after, nowMs ≤ event.nowMs ∧ event.nowMs ≤ nowMs') → nowMs ≤ nowMs' →
      (projectRun codecs projectId start before).tables.quotaBytes = some quota →
      (projectRun codecs projectId start before).tables.demand nowMs ≤ quota →
      (projectRun codecs projectId start (before ++ after)).tables.demand nowMs' ≤ quota) ∧
    ∀ nowMs policies grant auth result ids state',
      projectCall codecs projectId (projectRun codecs projectId start before) nowMs
        (.commit policies grant auth result ids) = .ok state' →
      let tables := (projectRun codecs projectId start before).tables
      (state'.tables.usedBytes = tables.usedBytes ∧ state'.tables.reservations = tables.reservations) ∨
        ∃ nonce row, tables.reservations.lookup nonce = some row ∧
          state'.tables.reservations = tables.reservations.erase nonce ∧
          state'.tables.usedBytes ≤ tables.usedBytes + row.bytes := by
  have hstart : GrantsSized codecs start := by
    refine ⟨?_, ?_⟩
    · simp [hnew.1]
    · simp [hnew.2]
  have hsized : GrantsSized codecs (projectRun codecs projectId start before) := sized_run start hstart before
  refine ⟨?_, ?_⟩
  · intro after nowMs nowMs' quota hclock hnow hlater hquota hwithin
    rw [projectRun, Machine.run_append]
    exact demand_run hreplacement hsized (List.pairwise_append.mp hclock).2.1 hquota hnow hlater hwithin
  · intro nowMs policies grant auth result ids state' hcall tables
    simp only [projectCall, bind_ok_iff, orError_ok_iff, require_ok_iff, pure_ok_iff, Bool.and_eq_true] at hcall
    obtain ⟨claims, hgrant, _, ⟨-, hallowed⟩, written, hcommit, rfl⟩ := hcall
    obtain ⟨-, hsettled⟩ := commitSync_settled hreplacement (hsized.grants claims (List.mem_of_getElem? hgrant))
      hallowed hcommit
    cases hsettled with
    | unchanged hused _ hreservations => exact .inl ⟨hused, hreservations⟩
    | consumed row hlookup _ _ hreservations hused _ => exact .inr ⟨claims.nonce, row, hlookup, hreservations, hused⟩

/-- A grant that is committed late in a run. -/
theorem granted_quota_kept :
    (projectRun sampleCodecs "p".toList oneBucket (granting .upload)).tables.demand 0 = 10 ∧
    (projectRun sampleCodecs "p".toList oneBucket (granting .upload ++
      [⟨1000, .commit openPolicies 0 alice {} ⟨"cleanup".toList, "version".toList⟩⟩])).tables.usedBytes = 10 ∧
    (projectRun sampleCodecs "p".toList oneBucket (granting .upload ++
      [⟨1000, .commit openPolicies 0 alice {} ⟨"cleanup".toList, "version".toList⟩⟩])).tables.demand 1000 ≤ 1000 := by
  refine ⟨by decide +kernel, by decide +kernel, ?_⟩
  refine (storage_quota_kept (replacementText_injective Runtime.sampleDoubles_lawful) ⟨rfl, rfl⟩ (granting .upload)).1
    _ 0 1000 1000 ?_ ?_ (by decide) (by decide +kernel) (by decide +kernel)
  · simp [Clocked, granting]
  · simp

end Run

end Ffdb.ObjectStorage
