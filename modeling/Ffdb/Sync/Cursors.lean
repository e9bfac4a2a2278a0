import Ffdb.ObjectStorage.Codec
import Ffdb.Sync.Pull

/-! Cursors of the engine: what issuing writes into them and what a pull takes of them. Reading bounds the length of
their JSON, and issuing does not. -/
namespace Ffdb.Sync
open Fallible Saturating
open Text (byteLength length_utf8)
open ObjectStorage (SliceReader Plain intValue readI64 readUnsigned requiredField textBytes digitBytes intBytes)
open Ffdb.Runtime (Doubles stringText valueText)

section Json

def CursorClaims.toFields (claims : CursorClaims) : JsonMap :=
  [("project_id", .string claims.projectId),
   ("subject", .string claims.subject),
   ("trusted_client_id", .string claims.trustedClientId),
   ("sequence", .number (.posInt claims.sequence)),
   ("schema_version", .number (.posInt claims.schemaVersion)),
   ("scope_fingerprint", .string claims.scopeFingerprint),
   ("issued_at_ms", intValue claims.issuedAtMs),
   ("expires_at_ms", intValue claims.expiresAtMs)]

def readString : Value → Option String
  | .string text => some text
  | _ => none

def CursorClaims.fromFields (fields : JsonMap) : Option CursorClaims := do
  let projectId ← requiredField readString fields "project_id"
  let subject ← requiredField readString fields "subject"
  let trustedClientId ← requiredField readString fields "trusted_client_id"
  let sequence ← requiredField (readUnsigned u64Max) fields "sequence"
  let schemaVersion ← requiredField (readUnsigned u64Max) fields "schema_version"
  let scopeFingerprint ← requiredField readString fields "scope_fingerprint"
  let issuedAtMs ← requiredField readI64 fields "issued_at_ms"
  let expiresAtMs ← requiredField readI64 fields "expires_at_ms"
  pure { projectId, subject, trustedClientId, sequence, schemaVersion, scopeFingerprint, issuedAtMs, expiresAtMs }

def claimFieldNames : List String :=
  ["project_id", "subject", "trusted_client_id", "sequence", "schema_version", "scope_fingerprint", "issued_at_ms",
   "expires_at_ms"]

/-- The derived reader of the claims, which takes their values in order as well. -/
def CursorClaims.fromValue : Value → Option CursorClaims
  | .object fields => fromFields fields
  | .array items => if items.length = claimFieldNames.length then fromFields (claimFieldNames.zip items) else none
  | _ => none

structure Crates.Serde (crates : Crates) (doubles : Doubles) (fromSlice : SliceReader) : Prop where
  writes : ∀ claims, crates.claimsToVec claims = some (Text.utf8 (valueText doubles (.object claims.toFields)))
  reads : ∀ payload, crates.claimsFromSlice payload = (fromSlice payload).bind CursorClaims.fromValue
  lawful : fromSlice.Lawful doubles
  mac : ∀ secret message, crates.hmacSha256 secret message = some (Sha256.hmac secret message)

structure CursorClaims.Sized (claims : CursorClaims) : Prop where
  sequence : claims.sequence ≤ u64Max
  schemaVersion : claims.schemaVersion ≤ u64Max

/-- The bytes of the claims: 131 for their names and what separates them, and what the texts and numbers take. -/
def CursorClaims.bytes (claims : CursorClaims) : Nat :=
  131+textBytes claims.projectId.toList+textBytes claims.subject.toList+textBytes claims.trustedClientId.toList+
    digitBytes claims.sequence+digitBytes claims.schemaVersion+textBytes claims.scopeFingerprint.toList+
    intBytes claims.issuedAtMs.toInt+intBytes claims.expiresAtMs.toInt

variable {doubles : Doubles} {claims : CursorClaims}

theorem byteLength_string (text : String) : byteLength (valueText doubles (.string text)) = textBytes text.toList := by
  have hlength := ObjectStorage.byteLength_stringText text.toList
  rwa [String.ofList_toList] at hlength

theorem byteLength_claims (claims : CursorClaims) :
    byteLength (valueText doubles (.object claims.toFields)) = claims.bytes := by
  have hnames : claimFieldNames.map (fun name => byteLength (stringText name)) = [12, 9, 19, 10, 16, 19, 14, 15] := by
    decide +kernel
  simp only [claimFieldNames, List.map_cons, List.map_nil, List.cons.injEq] at hnames
  rw [CursorClaims.toFields, ObjectStorage.byteLength_objectText]
  simp only [List.map_cons, List.map_nil, List.sum_cons, List.sum_nil, ObjectStorage.fieldBytes, hnames,
    byteLength_string, ObjectStorage.byteLength_intValue, ObjectStorage.byteLength_natural, CursorClaims.bytes]
  omega

theorem fromFields_toFields (h : claims.Sized) : CursorClaims.fromFields claims.toFields = some claims := by
  have htext {name text : String} (hsole : ObjectStorage.soleField claims.toFields name = some (some (.string text))) :
      requiredField readString claims.toFields name = some text :=
    ObjectStorage.requiredField_of_sole hsole rfl
  have hint {name : String} {value : Int64}
      (hsole : ObjectStorage.soleField claims.toFields name = some (some (intValue value))) :
      requiredField readI64 claims.toFields name = some value :=
    ObjectStorage.requiredField_of_sole hsole (ObjectStorage.readI64_intValue value)
  have hnumber {name : String} {n : Nat} (hbound : n ≤ u64Max)
      (hsole : ObjectStorage.soleField claims.toFields name = some (some (.number (.posInt n)))) :
      requiredField (readUnsigned u64Max) claims.toFields name = some n :=
    ObjectStorage.requiredField_of_sole hsole (ObjectStorage.readUnsigned_posInt hbound)
  unfold CursorClaims.fromFields
  rw [(htext rfl : requiredField readString claims.toFields "project_id" = some claims.projectId)]
  rw [(htext rfl : requiredField readString claims.toFields "subject" = some claims.subject)]
  rw [(htext rfl : requiredField readString claims.toFields "trusted_client_id" = some claims.trustedClientId)]
  rw [(hnumber h.sequence rfl :
    requiredField (readUnsigned u64Max) claims.toFields "sequence" = some claims.sequence)]
  rw [(hnumber h.schemaVersion rfl :
    requiredField (readUnsigned u64Max) claims.toFields "schema_version" = some claims.schemaVersion)]
  rw [(htext rfl : requiredField readString claims.toFields "scope_fingerprint" = some claims.scopeFingerprint)]
  rw [(hint rfl : requiredField readI64 claims.toFields "issued_at_ms" = some claims.issuedAtMs)]
  rw [(hint rfl : requiredField readI64 claims.toFields "expires_at_ms" = some claims.expiresAtMs)]
  rfl

theorem CursorClaims.Sized.plain (h : claims.Sized) : ∀ field ∈ claims.toFields, Plain field.2 := by
  have htext (text : String) : Plain (.string text) := trivial
  have hsequence : Plain (.number (.posInt claims.sequence)) := h.sequence
  have hversion : Plain (.number (.posInt claims.schemaVersion)) := h.schemaVersion
  simp only [CursorClaims.toFields, List.forall_mem_cons, htext, hsequence, hversion, ObjectStorage.plain_intValue,
    true_and, List.not_mem_nil, false_implies, implies_true]

end Json

section Codec
variable {crates : Crates} {doubles : Doubles} {fromSlice : SliceReader} {codec : CursorCodec} {claims : CursorClaims}
  {cursor : OpaqueCursor}

theorem Crates.Serde.encoded (hserde : crates.Serde doubles fromSlice) (codec : CursorCodec) (claims : CursorClaims) :
    ∃ cursor, codec.encode crates claims = .ok cursor := by
  simp only [CursorCodec.encode, hserde.writes, hserde.mac]
  exact ⟨_, rfl⟩

theorem fits_of_decode {claims' : CursorClaims} (hserde : crates.Serde doubles fromSlice)
    (hissued : codec.encode crates claims = .ok cursor) (h : codec.decode crates cursor = .ok claims') :
    claims.bytes ≤ maxPayloadBytes := by
  have hwritten := hserde.writes claims
  have hlength : (Text.utf8 (valueText doubles (.object claims.toFields))).length = claims.bytes := by
    rw [length_utf8, byteLength_claims]
  generalize Text.utf8 (valueText doubles (.object claims.toFields)) = payload at hwritten hlength
  simp only [CursorCodec.encode, bind_ok_iff, orError_ok_iff, pure_ok_iff, hwritten, Option.some.injEq,
    exists_eq_left'] at hissued
  obtain ⟨mac, -, rfl⟩ := hissued
  simp only [CursorCodec.decode, bind_ok_iff, require_ok_iff, orError_ok_iff,
    Text.splitOnce_append _ _ (Base64.dot_notMem_encode payload), Option.some.injEq, exists_eq_left',
    Base64.decode_encode, exists_const, decide_eq_true_eq] at h
  rw [← hlength]
  exact h.2.2.1

/-- A cursor is read as what it was issued with just when its claims fit the bound of reading. -/
theorem decode_iff (hserde : crates.Serde doubles fromSlice) (hsized : claims.Sized)
    (hissued : codec.encode crates claims = .ok cursor) :
    codec.decode crates cursor = .ok claims ↔ claims.bytes ≤ maxPayloadBytes := by
  have hwritten := hserde.writes claims
  have hlength : (Text.utf8 (valueText doubles (.object claims.toFields))).length = claims.bytes := by
    rw [length_utf8, byteLength_claims]
  have hread : crates.claimsFromSlice (Text.utf8 (valueText doubles (.object claims.toFields))) = some claims := by
    rw [hserde.reads, hserde.lawful claims.toFields hsized.plain]
    exact fromFields_toFields hsized
  generalize Text.utf8 (valueText doubles (.object claims.toFields)) = payload at hwritten hlength hread
  refine ⟨fits_of_decode hserde hissued, fun hfits => ?_⟩
  exact decode_issued hissued hwritten (hlength ▸ hfits) (hserde.mac _ _) (Sha256.length_hmac _ _) hread

/-- Signatures taken as ideal: who has one of a payload has it from a cursor that was issued. -/
def Unforged (crates : Crates) (codec : CursorCodec) (issued : CursorClaims → Prop) (cursor : OpaqueCursor) : Prop :=
  ∀ left right payload mac, Text.splitOnce '.' cursor.text = some (left, right) →
    Base64.decode left = some payload → Base64.decode right = some mac →
    crates.hmacSha256 codec.secret payload = some mac →
    ∃ claims, issued claims ∧ crates.claimsToVec claims = some payload

theorem append_of_splitOnce {separator : Char} {text before after : List Char}
    (h : Text.splitOnce separator text = some (before, after)) : text = before ++ separator :: after := by
  induction text generalizing before with
  | nil => cases h
  | cons c text ih =>
    rw [Text.splitOnce] at h
    split at h
    · next hc =>
      cases h
      rw [hc]
      rfl
    · obtain ⟨⟨before', after'⟩, hsplit, heq⟩ := Option.map_eq_some_iff.mp h
      cases heq
      rw [ih hsplit]
      rfl

/-- Only the very texts that were issued are read. -/
theorem issued_of_decode {issued : CursorClaims → Prop} (hunforged : Unforged crates codec issued cursor)
    (h : codec.decode crates cursor = .ok claims) :
    ∃ signed, issued signed ∧ codec.encode crates signed = .ok cursor := by
  simp only [CursorCodec.decode, bind_ok_iff, require_ok_iff, orError_ok_iff, Prod.exists, decide_eq_true_eq,
    exists_const] at h
  obtain ⟨-, left, right, hsplit, -, payload, hpayload, -, mac, hmac, -, tag, htag, rfl, -⟩ := h
  obtain ⟨signed, hsigned, hwritten⟩ := hunforged left right payload tag hsplit hpayload hmac htag
  refine ⟨signed, hsigned, ?_⟩
  simp only [CursorCodec.encode, bind_ok_iff, orError_ok_iff, pure_ok_iff]
  refine ⟨payload, hwritten, tag, htag, ?_⟩
  rw [Base64.encode_of_decode hpayload, Base64.encode_of_decode hmac, ← append_of_splitOnce hsplit]

end Codec

section Issuing
variable (crates : Crates)

def SyncEngine.pullPosition (engine : SyncEngine) (context : SyncContext) (authorizer : SyncAuthorizer)
    (requestedLimit sequence : Nat) : Nat :=
  let (_, examinedSequence, hasMore) := pullLoop (fun event => isVisible event context authorizer)
    (engine.pageLimit requestedLimit) (engine.state.events.filter fun event => sequence < event.sequence) [] sequence
  if hasMore then examinedSequence else engine.latestSequence

/-- A cursor that a call returns, the sequence it stands for, and the engine behind the call. -/
inductive Issues (engine : SyncEngine) (context : SyncContext) (nowMs : Int64) :
    OpaqueCursor → Nat → SyncEngine → Prop
  | snapshot {authorizer : SyncAuthorizer} {snapshot : Snapshot}
      (h : engine.snapshot crates context authorizer nowMs = .ok snapshot) :
      Issues engine context nowMs snapshot.cursor engine.latestSequence engine
  | pull {cursor : OpaqueCursor} {claims : CursorClaims} {limit : Nat} {authorizer : SyncAuthorizer} {page : PullResult}
      (haccept : engine.acceptCursor crates context cursor nowMs = .ok claims)
      (h : engine.pull crates context cursor limit authorizer nowMs = .ok page) :
      Issues engine context nowMs page.cursor (engine.pullPosition context authorizer limit claims.sequence) engine
  | push {batch : PushBatch} {authorizer : SyncAuthorizer} {result : PushResult} {after : SyncEngine}
      (h : engine.push crates context batch authorizer nowMs = (.ok result, after)) :
      Issues engine context nowMs result.cursor after.latestSequence after

/-- Since a cursor was issued the schema has changed, or a compaction has passed it. -/
def Intervened (claims : CursorClaims) (issuing later : SyncEngine) : Prop :=
  later.schemaVersion ≠ claims.schemaVersion ∨
    issuing.state.minimumAvailableSequence < later.state.minimumAvailableSequence ∧
      claims.sequence < later.state.minimumAvailableSequence

def Op.Quiet : Op → Prop
  | .push _ _ _ _ => True
  | .invalidate _ newSchemaVersion _ => newSchemaVersion = none
  | .compact _ => False

/-- A cursor is read as its claims, and a pull accepts it until it expires or something intervenes. -/
structure Honoured (issuing : SyncEngine) (context : SyncContext) (cursor : OpaqueCursor) (claims : CursorClaims) :
    Prop where
  decoded : issuing.cursorCodec.decode crates cursor = .ok claims
  accepted : ∀ ops nowMs, claims.issuedAtMs ≤ nowMs → nowMs < claims.expiresAtMs →
    ¬ Intervened claims issuing (issuing.run crates ops) →
    (issuing.run crates ops).acceptCursor crates context cursor nowMs = .ok claims

variable {crates} {engine after : SyncEngine} {context : SyncContext} {nowMs : Int64} {cursor : OpaqueCursor}

theorem applyBatch_cursor {batch : PushBatch} {authorizer : SyncAuthorizer} {result : PushResult}
    (h : engine.applyBatch crates context batch authorizer nowMs = (.ok result, after)) :
    after.cursor crates context after.latestSequence nowMs = .ok result.cursor := by
  unfold SyncEngine.applyBatch at h
  dsimp only at h
  split at h
  · cases h
  · split at h
    · cases h
    · next hcursor =>
      cases h
      exact hcursor

theorem applyPartial_cursor {batch : PushBatch} {authorizer : SyncAuthorizer} {result : PushResult}
    (h : engine.applyPartial crates context batch authorizer nowMs = (.ok result, after)) :
    after.cursor crates context after.latestSequence nowMs = .ok result.cursor := by
  unfold SyncEngine.applyPartial at h
  dsimp only at h
  split at h
  · cases h
  · next hcursor =>
    cases h
    exact hcursor

theorem applyPartial_ok {batch : PushBatch} {authorizer : SyncAuthorizer}
    (hafter : batchEngine crates context engine.allocateTransactionId.1 authorizer nowMs batch.mutations
      engine.allocateTransactionId.2 = after)
    (hcursor : after.cursor crates context after.latestSequence nowMs = .ok cursor) :
    ∃ result, engine.applyPartial crates context batch authorizer nowMs = (.ok result, after) := by
  have hloop := (applyPartialLoop_spec crates context engine.allocateTransactionId.1 authorizer nowMs batch.mutations [] []
    engine.allocateTransactionId.2).2
  rw [hafter] at hloop
  simp only [SyncEngine.applyPartial, hloop, hcursor]
  exact ⟨_, rfl⟩

theorem push_cursor {batch : PushBatch} {authorizer : SyncAuthorizer} {result : PushResult}
    (h : engine.push crates context batch authorizer nowMs = (.ok result, after)) :
    engine.verifyContext context = .ok () ∧
      after.cursor crates context after.latestSequence nowMs = .ok result.cursor := by
  unfold SyncEngine.push at h
  split at h
  · cases h
  · next hverify =>
    refine ⟨hverify, ?_⟩
    split at h
    · cases h
    · split at h
      · split at h
        · next happly =>
          cases h
          exact applyBatch_cursor happly
        · cases h
      · exact applyPartial_cursor h

/-- A pull that leaves something stops at an event behind the cursor. -/
theorem pullPosition_cases (engine : SyncEngine) (context : SyncContext) (authorizer : SyncAuthorizer)
    (limit sequence : Nat) :
    engine.pullPosition context authorizer limit sequence = engine.latestSequence ∨
      sequence < engine.pullPosition context authorizer limit sequence ∧
        ∃ event ∈ engine.state.events, event.sequence = engine.pullPosition context authorizer limit sequence := by
  obtain ⟨-, examined, hloop⟩ | ⟨-, taken, event, rest, hlog, -, hloop⟩ :=
    pullLoop_cases (fun event => isVisible event context authorizer) (engine.pageLimit limit)
      (engine.state.events.filter fun event => sequence < event.sequence) [] sequence (Nat.zero_le _)
  · refine .inl ?_
    rw [SyncEngine.pullPosition, hloop]
    rfl
  · have hmem : event ∈ engine.state.events.filter fun event => sequence < event.sequence := by
      rw [hlog]
      simp
    rw [List.mem_filter, decide_eq_true_eq] at hmem
    rw [SyncEngine.pullPosition, hloop]
    exact .inr ⟨hmem.2, event, hmem.1, rfl⟩

/-- Every cursor stands at the latest sequence or at an event of the log behind the compacted ones. -/
theorem Issues.position {sequence : Nat} (h : Issues crates engine context nowMs cursor sequence after) :
    engine.verifyContext context = .ok () ∧ (∃ ops, after = engine.run crates ops) ∧
      after.cursor crates context sequence nowMs = .ok cursor ∧
        (sequence = after.latestSequence ∨ after.state.minimumAvailableSequence ≤ sequence ∧
          ∃ event ∈ after.state.events, event.sequence = sequence) := by
  cases h with
  | snapshot h =>
    simp only [SyncEngine.snapshot, bind_ok_iff, pure_ok_iff] at h
    obtain ⟨_, hverify, cursor, hcursor, rfl⟩ := h
    exact ⟨hverify, ⟨[], rfl⟩, hcursor, .inl rfl⟩
  | @pull cursor claims limit authorizer page haccept h =>
    have hmin := minimum_le_of_acceptCursor haccept
    have hverify : engine.verifyContext context = .ok () := by
      have hchecked := haccept
      simp only [SyncEngine.acceptCursor, bind_ok_iff] at hchecked
      obtain ⟨_, hverify, -⟩ := hchecked
      exact hverify
    simp only [SyncEngine.pull, bind_ok_iff, pure_ok_iff, haccept, Except.ok.injEq, exists_eq_left'] at h
    obtain ⟨issued, hcursor, rfl⟩ := h
    refine ⟨hverify, ⟨[], rfl⟩, hcursor, ?_⟩
    obtain hlatest | ⟨hlt, hevent⟩ := pullPosition_cases engine context authorizer limit claims.sequence
    · exact .inl hlatest
    · exact .inr ⟨hmin.trans hlt.le, hevent⟩
  | @push batch authorizer result after h =>
    obtain ⟨hverify, hcursor⟩ := push_cursor h
    refine ⟨hverify, ⟨[.push context batch authorizer nowMs], ?_⟩, hcursor, .inl rfl⟩
    change after = (engine.push crates context batch authorizer nowMs).2
    rw [h]

def Settled (engine : SyncEngine) (_ : List Empty) (after : SyncEngine) : Prop :=
  after.schemaVersion = engine.schemaVersion ∧
    after.state.minimumAvailableSequence = engine.state.minimumAvailableSequence

theorem settled_related : CallRelated crates (fun _ => True) (fun _ => []) Settled where
  refl _ := ⟨rfl, rfl⟩
  trans h h' := ⟨h'.1.trans h.1, h'.2.trans h.2⟩
  ticket _ := ⟨rfl, rfl⟩
  call call _ := by
    refine ⟨by rw [call.after_eq crates], ?_⟩
    obtain ⟨_, _, hafter⟩ | ⟨_, _, _, _, _, _, _, _, hafter⟩ | ⟨_, hafter⟩ | ⟨_, _, _, _, _, _, _, hafter⟩ :=
      call.cases crates <;> rw [hafter] <;> rfl

/-- Only compactions and changes of the schema intervene. -/
theorem settled_of_quiet (engine : SyncEngine) {ops : List Op} (hquiet : ∀ op ∈ ops, op.Quiet) :
    Settled engine [] (engine.run crates ops) := by
  induction ops generalizing engine with
  | nil => exact ⟨rfl, rfl⟩
  | cons op ops ih =>
    have hrest := ih (engine.step crates op) fun op hop => hquiet op (List.mem_cons_of_mem _ hop)
    have hstep : Settled engine [] (engine.step crates op) := by
      have hop := hquiet op List.mem_cons_self
      cases op with
      | push context batch authorizer nowMs =>
        exact (@settled_related crates).push engine context batch authorizer nowMs trivial
      | invalidate reason newSchemaVersion nowMs =>
        obtain rfl : newSchemaVersion = none := hop
        exact ⟨rfl, rfl⟩
      | compact nowMs => exact hop.elim
    exact ⟨hrest.1.trans hstep.1, hrest.2.trans hstep.2⟩

theorem acceptCursor_iff {claims : CursorClaims} :
    engine.acceptCursor crates context cursor nowMs = .ok claims ↔
      engine.verifyContext context = .ok () ∧ engine.cursorCodec.decode crates cursor = .ok claims ∧
      claims.projectId = engine.projectId ∧
      (claims.subject = context.subject ∧ claims.trustedClientId = context.trustedClientId) ∧
      claims.issuedAtMs ≤ nowMs ∧ nowMs < claims.expiresAtMs ∧ claims.schemaVersion = engine.schemaVersion ∧
      claims.scopeFingerprint = context.scopeFingerprint ∧
      engine.state.minimumAvailableSequence ≤ claims.sequence := by
  simp only [SyncEngine.acceptCursor, bind_ok_iff, require_ok_iff, pure_ok_iff, decide_eq_true_eq, Bool.and_eq_true,
    exists_const]
  constructor
  · rintro ⟨_, hverify, claims', hdecode, hproject, howner, hissued, hexpires, hschema, hscope, hmin, rfl⟩
    exact ⟨hverify, hdecode, hproject, howner, hissued, hexpires, hschema, hscope, hmin⟩
  · rintro ⟨hverify, hdecode, hproject, howner, hissued, hexpires, hschema, hscope, hmin⟩
    exact ⟨(), hverify, claims, hdecode, hproject, howner, hissued, hexpires, hschema, hscope, hmin, rfl⟩

theorem Reachable.framed (h : Reachable crates engine) (ops : List Op) :
    Framed engine (engine.run crates ops) ∧ 0 < engine.config.cursorTtlMs.toInt := by
  obtain ⟨start, before, hstart, rfl⟩ := h
  have hstarted := run_framed hstart before
  have hframed := ((framed_preserved crates (start.run crates before)).run (start.run crates before) ops
    ⟨rfl, rfl, rfl, hstarted.2.2.2⟩).1
  refine ⟨hframed, ?_⟩
  have haccepted := hstart.accepted
  simp only [configurationAccepted, Bool.and_eq_true, decide_eq_true_eq] at haccepted
  rw [hstarted.2.1]
  exact Int64.lt_iff_toInt_lt.mp (by tauto)

structure SyncEngine.Sized (engine : SyncEngine) : Prop where
  schemaVersion : engine.schemaVersion ≤ u64Max
  nextSequence : engine.state.nextSequence ≤ u64Max
  events : ∀ event ∈ engine.state.events, event.sequence ≤ u64Max

/-- A cursor that a call returns is honoured just when its claims fit and the sequences are not used up; the last
moment there is issues cursors that have expired. -/
theorem honoured_iff {doubles : Doubles} {fromSlice : SliceReader} (hserde : crates.Serde doubles fromSlice)
    (hreachable : Reachable crates engine) (hverify : engine.verifyContext context = .ok ()) {sequence : Nat}
    (hsized : (engine.claims context sequence nowMs).Sized)
    (hcursor : engine.cursor crates context sequence nowMs = .ok cursor) :
    Honoured crates engine context cursor (engine.claims context sequence nowMs) ↔
      (engine.claims context sequence nowMs).bytes ≤ maxPayloadBytes ∧
        (nowMs = Int64.maxValue ∨ engine.state.minimumAvailableSequence ≤ sequence) := by
  have hdecode := decode_iff hserde hsized hcursor
  have hpositive := (hreachable.framed []).2
  have hend := ObjectStorage.toInt_add_of_nonneg (a := nowMs) hpositive.le
  have hnow := Int64.toInt_le nowMs
  have hlast : nowMs = Int64.maxValue ↔ nowMs.toInt = Int64.maxValue.toInt := Int64.toInt_inj.symm
  constructor
  · intro h
    refine ⟨hdecode.mp h.decoded, ?_⟩
    by_cases hmax : nowMs = Int64.maxValue
    · exact .inl hmax
    · rw [hlast] at hmax
      have hlive : nowMs < Saturating.add nowMs engine.config.cursorTtlMs := Int64.lt_iff_toInt_lt.mpr (by omega)
      have haccepted := h.accepted [] nowMs Int64.le_rfl hlive (by
        simp [Intervened, SyncEngine.claims, SyncEngine.run, Machine.run])
      exact .inr (minimum_le_of_acceptCursor haccepted)
  · rintro ⟨hfits, hmin⟩
    refine ⟨hdecode.mpr hfits, fun ops readMs hfrom hto hnothing => ?_⟩
    obtain ⟨⟨hproject, -, hcodec, -⟩, -⟩ := hreachable.framed ops
    have hmin : engine.state.minimumAvailableSequence ≤ sequence := by
      refine hmin.resolve_left fun hmax => ?_
      have hfrom' := Int64.le_iff_toInt_le.mp hfrom
      have hto' := Int64.lt_iff_toInt_lt.mp hto
      have hmax' := hlast.mp hmax
      simp only [SyncEngine.claims] at hfrom' hto'
      omega
    simp only [Intervened, not_or, ne_eq, Decidable.not_not, not_and, not_lt] at hnothing
    obtain ⟨hschema, hpassed⟩ := hnothing
    refine acceptCursor_iff.mpr ⟨?_, ?_, hproject.symm, ⟨rfl, rfl⟩, hfrom, hto, hschema.symm, rfl, ?_⟩
    · simpa only [SyncEngine.verifyContext, hproject] using hverify
    · rw [hcodec]
      exact hdecode.mpr hfits
    · change (engine.run crates ops).state.minimumAvailableSequence ≤ sequence
      by_cases hgrown : engine.state.minimumAvailableSequence < (engine.run crates ops).state.minimumAvailableSequence
      · exact hpassed hgrown
      · omega

/-- Cursors: honoured just when they can be read, until a compaction or a change of the schema; and nothing but an
issued one is read. -/
theorem cursors_honoured_iff {doubles : Doubles} {fromSlice : SliceReader} (hserde : crates.Serde doubles fromSlice)
    (hreachable : Reachable crates engine) {sequence : Nat}
    (hissues : Issues crates engine context nowMs cursor sequence after) (hsized : after.Sized) :
    after.cursor crates context sequence nowMs = .ok cursor ∧
    (Honoured crates after context cursor (after.claims context sequence nowMs) ↔
      (after.claims context sequence nowMs).bytes ≤ maxPayloadBytes ∧
        (nowMs = Int64.maxValue ∨ after.state.minimumAvailableSequence ≤ sequence)) ∧
    (after.state.nextSequence < u64Max → after.state.minimumAvailableSequence ≤ sequence) ∧
    (∀ ops, (∀ op ∈ ops, op.Quiet) →
      ¬ Intervened (after.claims context sequence nowMs) after (after.run crates ops)) ∧
    ∀ issued text claims, Unforged crates after.cursorCodec issued text →
      after.cursorCodec.decode crates text = .ok claims →
      ∃ signed, issued signed ∧ after.cursorCodec.encode crates signed = .ok text := by
  obtain ⟨hverify, ⟨ops, rfl⟩, hcursor, hposition⟩ := hissues.position
  have hafter : Reachable crates (engine.run crates ops) := by
    obtain ⟨start, before, hstart, rfl⟩ := hreachable
    exact ⟨start, before ++ ops, hstart, (run_append start before ops).symm⟩
  have hproject := (hreachable.framed ops).1.1
  have hverify' : (engine.run crates ops).verifyContext context = .ok () := by
    simpa only [SyncEngine.verifyContext, hproject] using hverify
  have hbound : sequence ≤ u64Max := by
    obtain rfl | ⟨-, event, hevent, rfl⟩ := hposition
    · exact (Nat.sub_le _ _).trans hsized.nextSequence
    · exact hsized.events event hevent
  refine ⟨hcursor, honoured_iff hserde hafter hverify' ⟨hbound, hsized.schemaVersion⟩ hcursor, ?_, ?_, ?_⟩
  · intro hmax
    obtain rfl | ⟨hmin, -⟩ := hposition
    · exact Nat.le_sub_one_of_lt (hafter.valid hmax).minimum
    · exact hmin
  · intro later hquiet hpassed
    obtain ⟨hschema, hmin⟩ := @settled_of_quiet crates (engine.run crates ops) later hquiet
    obtain hchanged | ⟨hgrown, -⟩ := hpassed
    · exact hchanged hschema
    · rw [hmin] at hgrown
      exact lt_irrefl _ hgrown
  · intro issued text claims hunforged hdecode
    exact issued_of_decode hunforged hdecode

end Issuing

section Sample

noncomputable def serdeCrates : Crates where
  valueToString := renderValue
  mutationToVec mutation := (renderMutation mutation).map utf8
  sha256 := Sha256.digest
  claimsToVec claims := some (Text.utf8 (valueText Runtime.sampleDoubles (.object claims.toFields)))
  claimsFromSlice payload := (ObjectStorage.inverseSlice Runtime.sampleDoubles payload).bind CursorClaims.fromValue
  hmacSha256 secret message := some (Sha256.hmac secret message)
  envelopeToVec := writeListed renderEnvelope []
  envelopeFromSlice := readListed renderEnvelope []

theorem serdeCrates_serde :
    serdeCrates.Serde Runtime.sampleDoubles (ObjectStorage.inverseSlice Runtime.sampleDoubles) :=
  ⟨fun _ => rfl, fun _ => rfl, ObjectStorage.inverseSlice_lawful Runtime.sampleDoubles_lawful, fun _ _ => rfl⟩

theorem sampleEngine_reachable (crates : Crates) : Reachable crates sampleEngine :=
  ⟨sampleEngine, [], sampleEngine_started crates, rfl⟩

def longSubject : SyncContext := sampleContext (String.ofList (List.replicate 1100 'a')) "phone"

theorem verifyContext_sample {subject : String} (h : subject ≠ "") :
    sampleEngine.verifyContext (sampleContext subject "phone") = .ok () := by
  have hclient : "phone".utf8ByteSize ≤ 200 := by decide
  simp [SyncEngine.verifyContext, sampleContext, sampleEngine, h, hclient, require, bind, Except.bind]

theorem longSubject_bytes : 1102 < (sampleEngine.claims longSubject 0 0).bytes := by
  have hletter : ObjectStorage.escapedBytes 'a' = 1 := by decide
  have hsubject : textBytes longSubject.subject.toList = 1102 := by
    rw [longSubject, sampleContext, String.toList_ofList, textBytes, List.map_replicate, hletter, List.sum_replicate]
    rfl
  have hclaims : (sampleEngine.claims longSubject 0 0).subject = longSubject.subject := rfl
  rw [CursorClaims.bytes, hclaims, hsubject]
  omega

theorem snapshot_issued {context : SyncContext} (hverify : sampleEngine.verifyContext context = .ok ()) :
    ∃ snapshot, sampleEngine.snapshot serdeCrates context allowAll 0 = .ok snapshot ∧
      sampleEngine.cursor serdeCrates context 0 0 = .ok snapshot.cursor := by
  obtain ⟨cursor, hcursor⟩ := serdeCrates_serde.encoded sampleEngine.cursorCodec (sampleEngine.claims context 0 0)
  let rows := sampleEngine.state.rows.toList.filterMap fun row => snapshotRow context allowAll row.1 row.2
  refine ⟨⟨1, rows.mergeSort ReplicaRow.beforeOrSame, cursor⟩, ?_, hcursor⟩
  simp only [SyncEngine.snapshot, bind_ok_iff, pure_ok_iff]
  exact ⟨(), hverify, cursor, hcursor, rfl⟩

theorem unreadable_of_long {context : SyncContext} (hverify : sampleEngine.verifyContext context = .ok ())
    (hlong : ¬ (sampleEngine.claims context 0 0).bytes ≤ maxPayloadBytes) :
    ∃ snapshot, sampleEngine.snapshot serdeCrates context allowAll 0 = .ok snapshot ∧
      ¬ ∃ claims, sampleEngine.cursorCodec.decode serdeCrates snapshot.cursor = .ok claims := by
  obtain ⟨snapshot, hsnapshot, hcursor⟩ := snapshot_issued hverify
  refine ⟨snapshot, hsnapshot, ?_⟩
  rintro ⟨claims, hdecode⟩
  exact hlong (fits_of_decode serdeCrates_serde hcursor hdecode)

/-- The context is accepted and gets a snapshot, and its cursor is not read. -/
theorem long_subject_unreadable : sampleEngine.verifyContext longSubject = .ok () ∧
    ∃ snapshot, sampleEngine.snapshot serdeCrates longSubject allowAll 0 = .ok snapshot ∧
      ¬ ∃ claims, sampleEngine.cursorCodec.decode serdeCrates snapshot.cursor = .ok claims := by
  have hsubject : String.ofList (List.replicate 1100 'a') ≠ "" := by
    intro hempty
    have hlist := congrArg String.toList hempty
    rw [String.toList_ofList, List.replicate_succ] at hlist
    cases hlist
  have hverify : sampleEngine.verifyContext longSubject = .ok () := verifyContext_sample hsubject
  have hlong := longSubject_bytes
  exact ⟨hverify, unreadable_of_long hverify (by unfold maxPayloadBytes; omega)⟩

def aliceRows : PushBatch :=
  sampleBatch alice.trustedClientId [sampleUpsert "m1" "a" "alice", sampleUpsert "m2" "b" "alice"]

noncomputable def servedEngine : SyncEngine :=
  batchEngine serdeCrates alice sampleEngine.allocateTransactionId.1 allowAll 0 aliceRows.mutations
    sampleEngine.allocateTransactionId.2

theorem aliceRows_pushed :
    ∃ result, sampleEngine.push serdeCrates alice aliceRows allowAll 0 = (.ok result, servedEngine) := by
  have hverify : sampleEngine.verifyContext alice = .ok () := by decide +kernel
  have hvalid : validateBatch aliceRows alice sampleEngine.schemaVersion sampleEngine.config.maxPushMutations = .ok () := by
    decide +kernel
  obtain ⟨cursor, hcursor⟩ := serdeCrates_serde.encoded servedEngine.cursorCodec
    (servedEngine.claims alice servedEngine.latestSequence 0)
  obtain ⟨result, happly⟩ := @applyPartial_ok _ sampleEngine servedEngine alice 0 cursor aliceRows allowAll rfl
    hcursor
  refine ⟨result, ?_⟩
  rw [SyncEngine.push, hverify]
  dsimp only
  rw [hvalid]
  exact happly

/-- The cursor of a push is honoured. -/
theorem alice_cursor_honoured : ∃ result,
    sampleEngine.push serdeCrates alice aliceRows allowAll 0 = (.ok result, servedEngine) ∧
      servedEngine.state.events.length = 2 ∧
      Honoured serdeCrates servedEngine alice result.cursor (servedEngine.claims alice servedEngine.latestSequence 0) := by
  obtain ⟨result, hpush⟩ := aliceRows_pushed
  have hfits : (servedEngine.claims alice servedEngine.latestSequence 0).bytes ≤ maxPayloadBytes := by decide +kernel
  have hsized : servedEngine.Sized := ⟨by decide +kernel, by decide +kernel, by decide +kernel⟩
  exact ⟨result, hpush, by decide +kernel, (cursors_honoured_iff serdeCrates_serde (sampleEngine_reachable _)
    (.push hpush) hsized).2.1.mpr ⟨hfits, .inr (by decide +kernel)⟩⟩

end Sample

end Ffdb.Sync
