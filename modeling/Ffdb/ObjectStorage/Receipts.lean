import Ffdb.ObjectStorage.Project

/-! The receipts of commits. A commit leaves one under what was committed, and looks for one under what was
granted. -/
namespace Ffdb.ObjectStorage
open Fallible

structure StorageService (δ : Type) where
  reservations : Reservations := {}
  tables : StorageTables δ := {}

/-- The clocks of a call: the gateway's, then the worker's at the receipt and at the commit. -/
structure CallClock where
  nowMs : Int64
  receiptAtMs : Int64
  commitAtMs : Int64

section Service
variable {δ Token : Type} (codecs : StorageCodecs δ) (projectId : List Char)
  (codec : GrantCodec Token)

def releaseLocally (claims : GrantClaims) (nowMs : Int64) (service : StorageService δ) :
    Except StorageError (StorageService δ) := do
  let released := releaseLocalReservation claims.projectId claims.nonce claims.reservationBytes
    claims.reservationExpiresAtMs nowMs service.reservations
  let _ ← released.2
  pure { service with reservations := released.1.1 }

variable [DecidableEq δ]

def commitMetadata (policies : StoragePolicies δ) (service : StorageService δ) (token : Token) (auth : AuthContext)
    (result : StorageCommitResult) (clock : CallClock) (ids : CommitIds) :
    Except StorageError (StorageService δ) := do
  let claims ← codec.verify token clock.nowMs
  require (claims.isFor auth && claims.allowsResult result) .invalidGrant
  match ← receiptSync codecs projectId service.tables (receiptRequest claims auth) clock.receiptAtMs with
  | some committed => do
    require (committed = result) .invalidGrant
    releaseLocally claims clock.nowMs service
  | none => do
    let validated := validateLocalReservation claims clock.nowMs service.reservations
    validated.2
    let tables ← commitSync codecs projectId policies service.tables (commitRequest claims auth result) ids
      clock.commitAtMs
    releaseLocally claims clock.nowMs ⟨validated.1.1, tables⟩

end Service

section Sound
variable {δ : Type} {codecs : StorageCodecs δ} {projectId : List Char}

def ReceiptsSound (codecs : StorageCodecs δ) (tables : StorageTables δ) : Prop :=
  ∀ nonce receipt, tables.receipts.lookup nonce = some receipt → ∃ request nowMs, receipt = receiptOf codecs request nowMs

variable {tables written : StorageTables δ} {nowMs : Int64}

theorem consumeGrant_receipts {request : StorageMetadataCommit}
    (h : consumeGrant tables request nowMs = .ok written) : written.receipts = tables.receipts := by
  unfold consumeGrant at h
  split_ifs at h
  · obtain ⟨-, -, rfl⟩ := consumeReservation_ok h
    rfl
  · obtain rfl := Except.ok.inj h
    rfl

theorem ReceiptsSound.commitSync [DecidableEq δ] {policies : StoragePolicies δ} {request : StorageMetadataCommit} {ids : CommitIds}
    (h : ReceiptsSound codecs tables)
    (hcommit : commitSync codecs projectId policies tables request ids nowMs = .ok written) :
    ReceiptsSound codecs written := by
  obtain ⟨-, ⟨rfl, -⟩ | ⟨-, hsettle⟩⟩ := commitSync_ok hcommit
  · exact h
  · obtain ⟨consumed, bucketId, metadata, hconsumed, hmetadata, -, rfl⟩ := settleCommit_ok hsettle
    have hreceipts : metadata.receipts = tables.receipts :=
      (commitAction_frame hmetadata).2.2.trans (consumeGrant_receipts hconsumed)
    intro nonce receipt hlookup
    obtain ⟨-, rfl⟩ | ⟨-, hold⟩ := AList.lookup_insert_eq_some_iff.mp hlookup
    · exact ⟨request, nowMs, rfl⟩
    · rw [hreceipts] at hold
      exact h nonce receipt hold

theorem prepareExpiredCleanup_receipts {limit : Nat} {cleanupIds : Vector (List Char × List Char) 100}
    (h : tables.prepareExpiredCleanup nowMs limit cleanupIds = .ok written) :
    written.receipts = tables.receipts.retain fun _ receipt => nowMs < receipt.expiresAtMs := by
  simp only [StorageTables.prepareExpiredCleanup, bind_ok_iff, pure_ok_iff] at h
  obtain ⟨-, -, reserved, hreserved, uploaded, huploaded, rfl⟩ := h
  have hfirst : reserved.receipts = tables.receipts := by
    refine foldlM_keeps (P := fun state => state.receipts = tables.receipts) ?_ hreserved rfl
    rintro before ⟨⟨nonce, row⟩, cleanupId⟩ after - hbefore hexpire
    obtain ⟨_, _, -, -, -, rfl⟩ := expireReservation_ok hexpire
    exact hbefore
  have hsecond : uploaded.receipts = tables.receipts := by
    refine foldlM_keeps (P := fun state => state.receipts = tables.receipts) ?_ huploaded hfirst
    rintro before ⟨⟨uploadId, providerKey⟩, cleanupId⟩ after - hbefore hexpire
    obtain ⟨_, _, -, rfl⟩ := expireUpload_ok hexpire
    exact hbefore
  simp only [hsecond]

theorem ReceiptsSound.projectCall [DecidableEq δ] {state state' : ProjectState δ} {call : ProjectCall δ}
    (h : ReceiptsSound codecs state.tables) (hcall : projectCall codecs projectId state nowMs call = .ok state') :
    ReceiptsSound codecs state'.tables := by
  cases call with
  | authorize policies request ids =>
    simp only [Ffdb.ObjectStorage.projectCall, bind_ok_iff, pure_ok_iff] at hcall
    obtain ⟨_, -, _, -, rfl⟩ := hcall
    exact h
  | reserve decision nonce gatewayMs grantTtlMs =>
    simp only [Ffdb.ObjectStorage.projectCall, bind_ok_iff, pure_ok_iff] at hcall
    obtain ⟨⟨request, authorization⟩, -, tables, hreserve, rfl⟩ := hcall
    unfold reserveGrant at hreserve
    split_ifs at hreserve
    · obtain ⟨-, hreserve⟩ := withUser_ok projectId hreserve
      obtain ⟨-, -, -, rfl⟩ := storageReserve_ok hreserve
      exact h
    · obtain rfl := Except.ok.inj hreserve
      exact h
  | commit policies grant auth result ids =>
    simp only [Ffdb.ObjectStorage.projectCall, bind_ok_iff, pure_ok_iff] at hcall
    obtain ⟨claims, -, _, -, tables, hcommit, rfl⟩ := hcall
    exact h.commitSync hcommit
  | release grant auth cleanupId =>
    simp only [Ffdb.ObjectStorage.projectCall, bind_ok_iff, pure_ok_iff] at hcall
    obtain ⟨claims, -, _, -, tables, hrelease, rfl⟩ := hcall
    unfold releaseGrant at hrelease
    split_ifs at hrelease
    · obtain ⟨-, hrelease⟩ := withUser_ok projectId hrelease
      obtain ⟨_, _, -, -, rfl⟩ := releaseReservationBound_ok hrelease
      exact h
    · obtain rfl := Except.ok.inj hrelease
      exact h
  | expire limit cleanupIds =>
    simp only [Ffdb.ObjectStorage.projectCall, bind_ok_iff, pure_ok_iff, mapError_ok_iff] at hcall
    obtain ⟨tables, hexpire, rfl⟩ := hcall
    intro nonce receipt hlookup
    change tables.receipts.lookup nonce = some receipt at hlookup
    rw [prepareExpiredCleanup_receipts hexpire, AList.lookup_retain, Option.filter_eq_some_iff] at hlookup
    exact h nonce receipt hlookup.1
  | claimCleanup limit leaseDurationMs tokens =>
    simp only [Ffdb.ObjectStorage.projectCall, bind_ok_iff, pure_ok_iff] at hcall
    obtain ⟨_, -, rfl⟩ := hcall
    exact h
  | ackCleanup acks =>
    simp only [Ffdb.ObjectStorage.projectCall, bind_ok_iff, pure_ok_iff] at hcall
    obtain ⟨_, -, rfl⟩ := hcall
    exact h

theorem receiptsSound_run [DecidableEq δ] {start : ProjectState δ} (hstart : start.tables.receipts = ∅)
    (events : List (ProjectEvent δ)) : ReceiptsSound codecs (projectRun codecs projectId start events).tables := by
  refine Machine.run_preserves (P := fun state : ProjectState δ => ReceiptsSound codecs state.tables) ?_ start events ?_
  · intro state event h
    unfold projectStep
    cases hcall : projectCall codecs projectId state event.nowMs event.call with
    | ok state' => exact h.projectCall hcall
    | error error => exact h
  · intro nonce receipt hlookup
    rw [hstart] at hlookup
    cases hlookup

end Sound

section Repeat
variable {δ Token : Type} {codecs : StorageCodecs δ} {projectId : List Char} {codec : GrantCodec Token}
  {policies : StoragePolicies δ} {service committed : StorageService δ} {tables : StorageTables δ} {token : Token}
  {auth : AuthContext} {result : StorageCommitResult} {clock : CallClock} {ids : CommitIds} {claims : GrantClaims}
  {reservations : Reservations} {nowMs : Int64}

theorem lookup_sweepExpired {nonce : List Char} (h : reservations.byNonce.lookup nonce = none) :
    (sweepExpired reservations nowMs).1.byNonce.lookup nonce = none := by
  unfold sweepExpired
  generalize ((reservations.byNonce.entries.filter fun entry => entry.2.expiresAtMs ≤ nowMs).map Sigma.fst) = nonces
  have hstart : ((reservations, []) : Section).1.byNonce.lookup nonce = none := h
  generalize ((reservations, []) : Section) = before at hstart ⊢
  induction nonces generalizing before with
  | nil => exact hstart
  | cons other nonces ih =>
    refine ih (sweepOne before other) ?_
    unfold sweepOne
    cases before.1.byNonce.lookup other with
    | none => exact hstart
    | some reservation =>
      change (before.1.byNonce.erase other).lookup nonce = none
      by_cases hsame : nonce = other
      · rw [hsame, AList.lookup_erase]
      · rw [AList.lookup_erase_ne hsame]
        exact hstart

theorem releaseLocally_ok (h : releaseLocally claims nowMs service = .ok committed) :
    committed.tables = service.tables ∧ committed.reservations.byNonce.lookup claims.nonce = none := by
  simp only [releaseLocally, bind_ok_iff, pure_ok_iff] at h
  obtain ⟨bytes, hreleased, rfl⟩ := h
  refine ⟨rfl, ?_⟩
  unfold releaseLocalReservation at hreleased ⊢
  cases hlookup : (sweepExpired service.reservations nowMs).1.byNonce.lookup claims.nonce with
  | none => simp only [hlookup]
  | some reservation =>
    simp only [hlookup] at hreleased ⊢
    split_ifs at hreleased ⊢
    exact AList.lookup_erase _ _

theorem releaseLocally_of_none (h : service.reservations.byNonce.lookup claims.nonce = none) :
    releaseLocally claims nowMs service =
      .ok { service with reservations := (sweepExpired service.reservations nowMs).1 } := by
  have hswept : (sweepExpired service.reservations nowMs).1.byNonce.lookup claims.nonce = none := lookup_sweepExpired h
  simp only [releaseLocally, releaseLocalReservation, hswept]
  rfl

variable [DecidableEq δ]

theorem commitReceipt_ok {nonce : List Char} {digest : δ} {receipt : Option (ReceiptRow δ)}
    (h : tables.commitReceipt auth nonce digest nowMs = .ok receipt) :
    tables.receipts.lookup nonce = receipt ∧ ∀ row, receipt = some row →
      row.subject = auth.subject ∧ row.tokenId = auth.tokenId ∧ row.bindingDigest = digest ∧ nowMs < row.expiresAtMs := by
  unfold StorageTables.commitReceipt at h
  cases hlookup : tables.receipts.lookup nonce with
  | none =>
    simp only [hlookup, pure_ok_iff] at h
    subst h
    exact ⟨rfl, fun row hrow => by cases hrow⟩
  | some row =>
    simp only [hlookup, bind_ok_iff, require_ok_iff, pure_ok_iff, Bool.and_eq_true, decide_eq_true_eq] at h
    obtain ⟨-, ⟨⟨⟨hsubject, htoken⟩, hdigest⟩, hlive⟩, rfl⟩ := h
    refine ⟨rfl, ?_⟩
    intro row' hrow
    obtain rfl := Option.some.inj hrow
    exact ⟨hsubject, htoken, hdigest, hlive⟩

theorem commitReceipt_of_lookup {nonce : List Char} {receipt : ReceiptRow δ} {digest : δ}
    (hlookup : tables.receipts.lookup nonce = some receipt) (hsubject : receipt.subject = auth.subject)
    (htoken : receipt.tokenId = auth.tokenId) (hdigest : receipt.bindingDigest = digest)
    (hlive : nowMs < receipt.expiresAtMs) : tables.commitReceipt auth nonce digest nowMs = .ok (some receipt) := by
  unfold StorageTables.commitReceipt
  simp only [hlookup, hsubject, htoken, hdigest, hlive, decide_true, Bool.and_true]
  rfl

def Answers (codecs : StorageCodecs δ) (claims : GrantClaims) (auth : AuthContext) (nowMs : Int64)
    (receipt : ReceiptRow δ) : Prop :=
  receipt.bindingDigest = codecs.binding (receiptBinding (receiptRequest claims auth)) ∧ nowMs < receipt.expiresAtMs

theorem receiptSync_iff {receipt : ReceiptRow δ} {answer : Option StorageCommitResult}
    (hproject : auth.projectId = projectId) (hlookup : tables.receipts.lookup claims.nonce = some receipt)
    (hsubject : receipt.subject = auth.subject) (htoken : receipt.tokenId = auth.tokenId) :
    receiptSync codecs projectId tables (receiptRequest claims auth) nowMs = .ok answer ↔
      Answers codecs claims auth nowMs receipt ∧ answer = some receipt.result := by
  constructor
  · intro h
    obtain ⟨-, hreceipt⟩ := withUser_ok projectId h
    simp only [bind_ok_iff, pure_ok_iff] at hreceipt
    obtain ⟨found, hfound, rfl⟩ := hreceipt
    obtain ⟨hrow, hbound⟩ := commitReceipt_ok hfound
    obtain rfl := hlookup.symm.trans hrow
    obtain ⟨-, -, hdigest, hlive⟩ := hbound receipt rfl
    exact ⟨⟨hdigest, hlive⟩, rfl⟩
  · intro h
    obtain ⟨⟨hdigest, hlive⟩, rfl⟩ := h
    simp only [receiptSync, withUser, bind_ok_iff, require_ok_iff, mapError_ok_iff, pure_ok_iff]
    refine ⟨(), decide_eq_true hproject, some receipt, ?_, rfl⟩
    exact commitReceipt_of_lookup hlookup hsubject htoken hdigest hlive

theorem verify_ok_iff :
    codec.verify token nowMs = .ok claims ↔ codec.verifyAuthenticated token = .ok claims ∧
      claims.issuedAtMs ≤ nowMs ∧ nowMs < claims.expiresAtMs ∧
      claims.expiresAtMs.toInt - claims.issuedAtMs.toInt ≤ codec.maxTtlMs := by
  simp only [GrantCodec.verify, bind_ok_iff, require_ok_iff, pure_ok_iff, Bool.and_eq_true, decide_eq_true_eq]
  constructor
  · intro h
    obtain ⟨_, hclaims, -, ⟨⟨hissued, hlive⟩, httl⟩, rfl⟩ := h
    exact ⟨hclaims, hissued, hlive, httl⟩
  · intro h
    obtain ⟨hclaims, hissued, hlive, httl⟩ := h
    exact ⟨claims, hclaims, (), ⟨⟨hissued, hlive⟩, httl⟩, rfl⟩

/-- What a commit that succeeded says of its grant, and the receipt that is there afterwards: one that was found, or
its own. -/
structure Committed (codecs : StorageCodecs δ) (projectId : List Char) (codec : GrantCodec Token)
    (service committed : StorageService δ) (claims : GrantClaims) (auth : AuthContext) (result : StorageCommitResult)
    (clock : CallClock) (receipt : ReceiptRow δ) : Prop where
  issued : claims.issuedAtMs ≤ clock.nowMs
  ttl : claims.expiresAtMs.toInt - claims.issuedAtMs.toInt ≤ codec.maxTtlMs
  allowed : (claims.isFor auth && claims.allowsResult result) = true
  project : auth.projectId = projectId
  released : committed.reservations.byNonce.lookup claims.nonce = none
  found : committed.tables.receipts.lookup claims.nonce = some receipt
  subject : receipt.subject = auth.subject
  token : receipt.tokenId = auth.tokenId
  origin : (service.tables.receipts.lookup claims.nonce = some receipt ∧
      receipt.bindingDigest = codecs.binding (receiptBinding (receiptRequest claims auth)) ∧ receipt.result = result) ∨
    receipt = receiptOf codecs (commitRequest claims auth result) clock.commitAtMs

theorem commitMetadata_ok (hclaims : codec.verifyAuthenticated token = .ok claims)
    (h : commitMetadata codecs projectId codec policies service token auth result clock ids = .ok committed) :
    ∃ receipt, Committed codecs projectId codec service committed claims auth result clock receipt := by
  simp only [commitMetadata, bind_ok_iff, require_ok_iff] at h
  obtain ⟨claims', hverify, -, hallowed, prior, hprior, hrest⟩ := h
  obtain ⟨hclaims', hissued, -, httl⟩ := verify_ok_iff.mp hverify
  obtain rfl := Except.ok.inj (hclaims.symm.trans hclaims')
  obtain ⟨hproject, hreceipt⟩ := withUser_ok projectId hprior
  simp only [bind_ok_iff, pure_ok_iff] at hreceipt
  obtain ⟨found, hfound, rfl⟩ := hreceipt
  obtain ⟨hlookup, hbound⟩ := commitReceipt_ok hfound
  cases found with
  | some receipt =>
    simp only [Option.map_some, bind_ok_iff, require_ok_iff, decide_eq_true_eq] at hrest
    obtain ⟨-, hresult, hreleased⟩ := hrest
    obtain ⟨htables, hlocal⟩ := releaseLocally_ok hreleased
    obtain ⟨hsubject, htoken, hdigest, -⟩ := hbound receipt rfl
    exact ⟨receipt, hissued, httl, hallowed, hproject, hlocal, htables ▸ hlookup, hsubject, htoken,
      .inl ⟨hlookup, hdigest, hresult⟩⟩
  | none =>
    simp only [Option.map_none, bind_ok_iff] at hrest
    obtain ⟨_, -, tables, hcommit, hreleased⟩ := hrest
    obtain ⟨htables, hlocal⟩ := releaseLocally_ok hreleased
    obtain ⟨-, ⟨-, hsome⟩ | ⟨-, hsettle⟩⟩ := commitSync_ok hcommit
    · change (service.tables.receipts.lookup claims.nonce).isSome = true at hsome
      rw [show service.tables.receipts.lookup claims.nonce = none from hlookup] at hsome
      cases hsome
    · obtain ⟨consumed, bucketId, metadata, -, -, -, rfl⟩ := settleCommit_ok hsettle
      refine ⟨receiptOf codecs (commitRequest claims auth result) clock.commitAtMs, hissued, httl, hallowed, hproject,
        hlocal, ?_, rfl, rfl, .inr rfl⟩
      rw [htables]
      exact AList.lookup_insert _

def ReportsGranted (claims : GrantClaims) (result : StorageCommitResult) : Prop :=
  result.contentLength = claims.maxBytes ∧ result.checksumSha256 = claims.checksumSha256

theorem or_eq_iff {α : Type} {a b : Option α} : (a.or b = b ∧ a.or b = a) ↔ a = b := by
  cases a <;> cases b <;> simp [eq_comm]

omit [DecidableEq δ] in
/-- The receipt of a commit is found under its grant, with the result that was reported, only when that is what was
granted. -/
theorem receiptOf_answers_iff (hbinding : Function.Injective codecs.binding) (commitAtMs : Int64) :
    let receipt := receiptOf codecs (commitRequest claims auth result) commitAtMs
    (receipt.bindingDigest = codecs.binding (receiptBinding (receiptRequest claims auth)) ∧ receipt.result = result) ↔
      ReportsGranted claims result := by
  intro receipt
  have hdigest : receipt.bindingDigest = codecs.binding (receiptBinding (receiptRequest claims auth)) ↔
      result.contentLength.or claims.maxBytes = claims.maxBytes ∧
        result.checksumSha256.or claims.checksumSha256 = claims.checksumSha256 := by
    refine hbinding.eq_iff.trans ?_
    simp [commitBinding, commitRequest, receiptBinding, receiptRequest]
  have hresult : receipt.result = result ↔
      result.contentLength.or claims.maxBytes = result.contentLength ∧
        result.checksumSha256.or claims.checksumSha256 = result.checksumSha256 := by
    cases result
    simp [receipt, receiptOf, commitResult, commitRequest]
  rw [hdigest, hresult, ReportsGranted, ← or_eq_iff (a := result.contentLength), ← or_eq_iff (a := result.checksumSha256)]
  tauto

omit [DecidableEq δ] in
/-- A receipt that was found under its grant reports what was granted. -/
theorem ReceiptsSound.reportsGranted (h : ReceiptsSound codecs tables) (hbinding : Function.Injective codecs.binding)
    {receipt : ReceiptRow δ} (hlookup : tables.receipts.lookup claims.nonce = some receipt)
    (hdigest : receipt.bindingDigest = codecs.binding (receiptBinding (receiptRequest claims auth)))
    (hresult : receipt.result = result) : ReportsGranted claims result := by
  obtain ⟨request, committedAtMs, rfl⟩ := h claims.nonce receipt hlookup
  have hbound : commitBinding request = receiptBinding (receiptRequest claims auth) := hbinding hdigest
  rw [← hresult]
  exact ⟨congrArg CommitBinding.contentLength hbound, congrArg CommitBinding.checksumSha256 hbound⟩

/-- The commit succeeds again and changes nothing but that expired reservations of the gateway go, and the receipt
of the grant is what was committed. -/
def Repeats (codecs : StorageCodecs δ) (projectId : List Char) (codec : GrantCodec Token) (policies : StoragePolicies δ)
    (service : StorageService δ) (token : Token) (claims : GrantClaims) (auth : AuthContext)
    (result : StorageCommitResult) (clock : CallClock) (ids : CommitIds) : Prop :=
  commitMetadata codecs projectId codec policies service token auth result clock ids =
    .ok { service with reservations := (sweepExpired service.reservations clock.nowMs).1 } ∧
  receiptSync codecs projectId service.tables (receiptRequest claims auth) clock.receiptAtMs = .ok (some result)

theorem repeats_iff (hclaims : codec.verifyAuthenticated token = .ok claims) {later : StorageService δ}
    {receipt : ReceiptRow δ} (hcommitted : Committed codecs projectId codec service committed claims auth result clock receipt)
    (hreceipt : later.tables.receipts.lookup claims.nonce = some receipt)
    (hlocal : later.reservations.byNonce.lookup claims.nonce = none) {clock' : CallClock}
    (hlater : clock.nowMs ≤ clock'.nowMs) (hgrant : clock'.nowMs < claims.expiresAtMs) (ids' : CommitIds) :
    Repeats codecs projectId codec policies later token claims auth result clock' ids' ↔
      Answers codecs claims auth clock'.receiptAtMs receipt ∧ receipt.result = result := by
  have hanswer (answer : Option StorageCommitResult) :
      receiptSync codecs projectId later.tables (receiptRequest claims auth) clock'.receiptAtMs = .ok answer ↔
        Answers codecs claims auth clock'.receiptAtMs receipt ∧ answer = some receipt.result :=
    receiptSync_iff hcommitted.project hreceipt hcommitted.subject hcommitted.token
  constructor
  · intro h
    obtain ⟨hanswers, hresult⟩ := (hanswer _).mp h.2
    exact ⟨hanswers, (Option.some.inj hresult).symm⟩
  · intro h
    obtain ⟨hanswers, rfl⟩ := h
    have hsync := (hanswer (some receipt.result)).mpr ⟨hanswers, rfl⟩
    refine ⟨?_, hsync⟩
    have hverify : codec.verify token clock'.nowMs = .ok claims :=
      verify_ok_iff.mpr ⟨hclaims, Int64.le_trans hcommitted.issued hlater, hgrant, hcommitted.ttl⟩
    simp only [commitMetadata, bind_ok_iff, require_ok_iff]
    refine ⟨claims, hverify, (), hcommitted.allowed, some receipt.result, hsync, ?_⟩
    simp only [bind_ok_iff, require_ok_iff, decide_true]
    exact ⟨(), trivial, releaseLocally_of_none hlocal⟩

/-- A commit can be repeated exactly when the provider reported what was granted, size and checksum, and the receipt
lasts. Whatever else happened to the project and the gateway in between. -/
theorem commit_repeats_iff (hbinding : Function.Injective codecs.binding) {start : ProjectState δ}
    (hstart : start.tables.receipts = ∅) (events : List (ProjectEvent δ))
    (hservice : service.tables = (projectRun codecs projectId start events).tables)
    (hclaims : codec.verifyAuthenticated token = .ok claims)
    (hfirst : commitMetadata codecs projectId codec policies service token auth result clock ids = .ok committed)
    (later : StorageService δ)
    (hreceipt : later.tables.receipts.lookup claims.nonce = committed.tables.receipts.lookup claims.nonce)
    (hlocal : later.reservations.byNonce.lookup claims.nonce = committed.reservations.byNonce.lookup claims.nonce)
    (clock' : CallClock) (hlater : clock.nowMs ≤ clock'.nowMs) (hgrant : clock'.nowMs < claims.expiresAtMs)
    (policies' : StoragePolicies δ) (ids' : CommitIds) :
    Repeats codecs projectId codec policies' later token claims auth result clock' ids' ↔
      ReportsGranted claims result ∧ ∀ receipt, committed.tables.receipts.lookup claims.nonce = some receipt →
        clock'.receiptAtMs < receipt.expiresAtMs := by
  obtain ⟨receipt, hcommitted⟩ := commitMetadata_ok hclaims hfirst
  rw [repeats_iff hclaims hcommitted (hreceipt.trans hcommitted.found) (hlocal.trans hcommitted.released) hlater hgrant]
  have hlasts : (∀ receipt', committed.tables.receipts.lookup claims.nonce = some receipt' →
      clock'.receiptAtMs < receipt'.expiresAtMs) ↔ clock'.receiptAtMs < receipt.expiresAtMs := by
    simp [hcommitted.found]
  rw [hlasts]
  have hgranted : (receipt.bindingDigest = codecs.binding (receiptBinding (receiptRequest claims auth)) ∧
      receipt.result = result) ↔ ReportsGranted claims result := by
    obtain ⟨hlookup, hdigest, hresult⟩ | rfl := hcommitted.origin
    · have hsound : ReceiptsSound codecs service.tables := hservice ▸ receiptsSound_run hstart events
      exact ⟨fun _ => hsound.reportsGranted hbinding hlookup hdigest hresult, fun _ => ⟨hdigest, hresult⟩⟩
    · exact receiptOf_answers_iff hbinding clock.commitAtMs
  rw [← hgranted, Answers]
  tauto

end Repeat

private def grantedService (action : StorageAction) : StorageService (CommitBinding × Option StorageCommitResult) where
  tables := (projectRun sampleCodecs "p".toList oneBucket (granting action)).tables

private def grantedClaims (action : StorageAction) : GrantClaims where
  projectId := "p".toList
  subject := "alice".toList
  tokenId := "token".toList
  bucket := "files".toList
  objectKey := "file".toList
  providerKey := "projects/p/buckets/b/objects/key".toList
  action
  maxBytes := some 10
  checksumSha256 := none
  contentType := none
  uploadId := none
  partNumber := none
  scopeFingerprint := "scope".toList
  issuedAtMs := 0
  expiresAtMs := 600000
  nonce := "nonce-of-16-bytes".toList
  reservationBytes := match action with
    | .upload => 10
    | _ => 0
  reservationExpiresAtMs := 600000
  replacementFingerprint := none

private def commitGranted (action : StorageAction) (result : StorageCommitResult) (nowMs : Int64)
    (service : StorageService (CommitBinding × Option StorageCommitResult)) :
    Except StorageError (StorageService (CommitBinding × Option StorageCommitResult)) :=
  commitMetadata sampleCodecs "p".toList plainTokens openPolicies service (grantedClaims action) alice result
    ⟨nowMs, nowMs, nowMs⟩ ⟨"cleanup".toList, "version".toList⟩

/-- The provider names a multipart upload and says nothing of its size: the commit succeeds and cannot be repeated. -/
theorem multipart_commit_not_repeated :
    (projectRun sampleCodecs "p".toList oneBucket (granting .createMultipart)).grants = [grantedClaims .createMultipart] ∧
    (commitGranted .createMultipart { versionId := some "upload-1".toList } 1000
      (grantedService .createMultipart)).toOption.isSome = true ∧
    ((commitGranted .createMultipart { versionId := some "upload-1".toList } 1000
      (grantedService .createMultipart)).bind fun committed =>
        commitGranted .createMultipart { versionId := some "upload-1".toList } 2000 committed).toOption.isNone = true := by
  decide +kernel

/-- An upload of the granted size can be committed twice. -/
theorem upload_commit_repeats :
    ∃ committed, commitGranted .upload { contentLength := some 10 } 1000 (grantedService .upload) = .ok committed ∧
      Repeats sampleCodecs "p".toList plainTokens openPolicies committed (grantedClaims .upload) (grantedClaims .upload)
        alice { contentLength := some 10 } ⟨2000, 2000, 2000⟩ ⟨"cleanup".toList, "version".toList⟩ := by
  have hlasts : ((commitGranted .upload { contentLength := some 10 } 1000 (grantedService .upload)).map
      fun committed => (committed.tables.receipts.lookup "nonce-of-16-bytes".toList).all fun receipt =>
        (2000 : Int64) < receipt.expiresAtMs).toOption = some true := by
    decide +kernel
  cases hfirst : commitGranted .upload { contentLength := some 10 } 1000 (grantedService .upload) with
  | error error =>
    rw [hfirst] at hlasts
    cases hlasts
  | ok committed =>
    rw [hfirst] at hlasts
    refine ⟨committed, rfl, ?_⟩
    refine (commit_repeats_iff (fun a b h => congrArg Prod.fst h) rfl (granting .upload) rfl rfl hfirst committed rfl rfl
      ⟨2000, 2000, 2000⟩ (by decide) (by decide) openPolicies ⟨"cleanup".toList, "version".toList⟩).mpr ⟨⟨rfl, rfl⟩, ?_⟩
    intro receipt hreceipt
    change committed.tables.receipts.lookup "nonce-of-16-bytes".toList = some receipt at hreceipt
    have hall : ((committed.tables.receipts.lookup "nonce-of-16-bytes".toList).all fun receipt =>
        (2000 : Int64) < receipt.expiresAtMs) = true := Option.some.inj hlasts
    rw [hreceipt] at hall
    exact of_decide_eq_true hall

end Ffdb.ObjectStorage
