import Ffdb.Lib.Machine
import Ffdb.Sync.Engine

/-! What one call can do to the engine, and runs of calls. A push is opened into the
`apply_mutation` calls whose effects it kept, so that every later result about runs
speaks about single mutations and never about batches. -/
namespace Ffdb.Sync
open Fallible
variable (crates : Crates)

/-- What a mutation with a target has passed, and where its target comes from. -/
theorem mutationTarget_ok {crates : Crates} {mutation : ClientMutation} {hash : Bytes}
    {key : String} (h : mutationTarget crates mutation = .ok (hash, key)) :
    validateMutation mutation = .ok () ∧
    (∃ payload, crates.mutationToVec mutation = some payload ∧ hash = crates.sha256 payload) ∧
    rowKey crates mutation.table mutation.primaryKey = .ok key := by
  simp only [mutationTarget, bind_ok_iff, orError_ok_iff, pure_ok_iff, Prod.mk.injEq] at h
  obtain ⟨_, hvalid, payload, hpayload, key', hkey, rfl, rfl⟩ := h
  exact ⟨hvalid, ⟨payload, hpayload, rfl⟩, hkey⟩

theorem rowKey_toList {crates : Crates} {table key : String} {primaryKey : Value}
    (h : rowKey crates table primaryKey = .ok key) :
    ∃ text, crates.valueToString primaryKey = some text ∧
      key.toList = table.toList ++ unitSeparator :: text.toList := by
  simp only [rowKey, bind_ok_iff, orError_ok_iff, pure_ok_iff] at h
  obtain ⟨text, htext, rfl⟩ := h
  exact ⟨text, htext, by simp⟩

/-- Accepted table names are read back from row keys. -/
theorem tableOfKey_of_rowKey {crates : Crates} {table key : String} {primaryKey : Value}
    (htable : tableNameAccepted table = true) (h : rowKey crates table primaryKey = .ok key) :
    tableOfKey key = table := by
  obtain ⟨text, _, hkey⟩ := rowKey_toList h
  have hfree : unitSeparator ∉ table.toList := by
    intro hmem
    simp only [tableNameAccepted, Bool.and_eq_true, List.all_eq_true] at htable
    exact absurd (htable.2 unitSeparator hmem) (by decide)
  rw [tableOfKey, hkey, Text.splitOnce_append _ _ hfree]
  exact String.ofList_toList

structure Call where
  engine : SyncEngine
  context : SyncContext
  transactionId : String
  mutation : ClientMutation
  authorizer : SyncAuthorizer
  nowMs : Int64

def Call.result (call : Call) : Except SyncError MutationReceipt :=
  (call.engine.applyMutation crates call.context call.transactionId call.mutation
    call.authorizer call.nowMs).1

def Call.after (call : Call) : SyncEngine :=
  (call.engine.applyMutation crates call.context call.transactionId call.mutation
    call.authorizer call.nowMs).2

def Call.prior (call : Call) (key : String) : Option StoredRow := call.engine.state.rows[key]?

/-- Everything `apply_mutation` can do: refuse and leave the engine alone, repeat a
stored receipt, refuse after pruning, or commit. -/
theorem Call.cases (call : Call) :
    (∃ error, call.result crates = .error error ∧ call.after crates = call.engine) ∨
    (∃ hash key record, mutationTarget crates call.mutation = .ok (hash, key) ∧
      call.authorizer.canWrite call.context call.mutation.table call.mutation.operation
        (authorizationRow call.mutation (call.prior key)) = true ∧
      call.engine.state.idempotency[idempotencyKey call.context call.mutation]? = some record ∧
      record.payloadHash = hash ∧
      call.result crates = .ok { record.receipt with outcome := .alreadyApplied } ∧
      call.after crates = call.engine) ∨
    (call.result crates = .error .idempotencyCapacityReached ∧
      call.after crates = { call.engine with
        state := pruneIdempotency call.engine.config call.engine.state call.nowMs }) ∨
    (∃ hash key, mutationTarget crates call.mutation = .ok (hash, key) ∧
      call.authorizer.canWrite call.context call.mutation.table call.mutation.operation
        (authorizationRow call.mutation (call.prior key)) = true ∧
      call.engine.state.idempotency[idempotencyKey call.context call.mutation]? = none ∧
      (pruneIdempotency call.engine.config call.engine.state call.nowMs).idempotency.size
        < call.engine.config.maxIdempotencyRecords ∧
      call.result crates =
        .ok (mutationReceipt call.mutation (call.prior key) call.engine.state.nextSequence) ∧
      call.after crates = { call.engine with
        state := commitMutation call.engine call.context call.transactionId call.mutation hash key
          (call.prior key) call.nowMs }) := by
  unfold Call.result Call.after Call.prior SyncEngine.applyMutation
  cases ht : mutationTarget crates call.mutation with
  | error error => exact .inl ⟨error, rfl, rfl⟩
  | ok target =>
    obtain ⟨hash, key⟩ := target
    dsimp only
    by_cases hw : call.authorizer.canWrite call.context call.mutation.table
        call.mutation.operation
        (authorizationRow call.mutation call.engine.state.rows[key]?) = true
    · rw [if_pos hw]
      cases hr : call.engine.state.idempotency[idempotencyKey call.context call.mutation]? with
      | some record =>
        dsimp only
        by_cases hh : record.payloadHash = hash
        · rw [if_pos hh]
          exact .inr (.inl ⟨hash, key, record, rfl, hw, rfl, hh, rfl, rfl⟩)
        · rw [if_neg hh]
          exact .inl ⟨_, rfl, rfl⟩
      | none =>
        dsimp only
        split
        · exact .inr (.inr (.inl ⟨rfl, rfl⟩))
        · next hcap =>
          exact .inr (.inr (.inr ⟨hash, key, rfl, hw, rfl, by omega, rfl, rfl⟩))
    · rw [if_neg hw]
      exact .inl ⟨_, rfl, rfl⟩

/-- Nothing but the state of the engine changes. -/
theorem Call.after_eq (call : Call) :
    call.after crates = { call.engine with state := (call.after crates).state } := by
  rcases call.cases crates with ⟨_, _, h⟩ | ⟨_, _, _, _, _, _, _, _, h⟩ | ⟨_, h⟩ |
    ⟨_, _, _, _, _, _, _, h⟩ <;> rw [h]

def callOn (context : SyncContext) (transactionId : String) (authorizer : SyncAuthorizer)
    (nowMs : Int64) (engine : SyncEngine) (mutation : ClientMutation) : Call :=
  ⟨engine, context, transactionId, mutation, authorizer, nowMs⟩

@[simp] theorem callOn_engine (context : SyncContext) (transactionId : String)
    (authorizer : SyncAuthorizer) (nowMs : Int64) (engine : SyncEngine) (mutation : ClientMutation) :
    (callOn context transactionId authorizer nowMs engine mutation).engine = engine := rfl

def batchCalls (context : SyncContext) (transactionId : String) (authorizer : SyncAuthorizer)
    (nowMs : Int64) (mutations : List ClientMutation) (engine : SyncEngine) : List Call :=
  Machine.trace (fun engine mutation =>
      (callOn context transactionId authorizer nowMs engine mutation).after crates)
    (fun engine mutation => [callOn context transactionId authorizer nowMs engine mutation])
    engine mutations

def batchEngine (context : SyncContext) (transactionId : String) (authorizer : SyncAuthorizer)
    (nowMs : Int64) (mutations : List ClientMutation) (engine : SyncEngine) : SyncEngine :=
  Machine.run (fun engine mutation =>
    (callOn context transactionId authorizer nowMs engine mutation).after crates) engine mutations

def receipts (calls : List Call) : List MutationReceipt :=
  calls.filterMap fun call => (call.result crates).toOption

theorem receipts_cons_ok {call : Call} {calls : List Call} {receipt : MutationReceipt}
    (h : call.result crates = .ok receipt) :
    receipts crates (call :: calls) = receipt :: receipts crates calls := by
  simp [receipts, h, Except.toOption]

theorem receipts_cons_error {call : Call} {calls : List Call} {error : SyncError}
    (h : call.result crates = .error error) :
    receipts crates (call :: calls) = receipts crates calls := by
  simp [receipts, h, Except.toOption]

section Batches
variable (context : SyncContext) (transactionId : String) (authorizer : SyncAuthorizer)
variable (nowMs : Int64)

theorem applyPartialLoop_spec (mutations : List ClientMutation) (accepted : List MutationReceipt)
    (rejected : List MutationFailure) (engine : SyncEngine) :
    (SyncEngine.applyPartialLoop crates context transactionId authorizer nowMs mutations
      accepted rejected engine).1.1 = accepted ++
        receipts crates (batchCalls crates context transactionId authorizer nowMs mutations engine) ∧
    (SyncEngine.applyPartialLoop crates context transactionId authorizer nowMs mutations
      accepted rejected engine).2 =
        batchEngine crates context transactionId authorizer nowMs mutations engine := by
  induction mutations generalizing accepted rejected engine with
  | nil => simp [SyncEngine.applyPartialLoop, batchCalls, batchEngine, receipts, Machine.run,
      Machine.trace]
  | cons mutation rest ih =>
    let call := callOn context transactionId authorizer nowMs engine mutation
    have hpair : engine.applyMutation crates context transactionId mutation authorizer nowMs =
      (call.result crates, call.after crates) := rfl
    simp only [SyncEngine.applyPartialLoop, hpair]
    change _ = accepted ++ receipts crates (call :: batchCalls crates context transactionId
      authorizer nowMs rest (call.after crates)) ∧ _ = batchEngine crates context transactionId
      authorizer nowMs rest (call.after crates)
    cases hr : call.result crates with
    | ok receipt =>
      rw [receipts_cons_ok crates hr]
      simpa using ih (accepted ++ [receipt]) rejected (call.after crates)
    | error error =>
      rw [receipts_cons_error crates hr]
      exact ih accepted _ (call.after crates)

theorem applyBatchLoop_spec (mutations : List ClientMutation) (accepted : List MutationReceipt)
    (engine after : SyncEngine) (all : List MutationReceipt)
    (h : SyncEngine.applyBatchLoop crates context transactionId authorizer nowMs mutations
      accepted engine = (.ok all, after)) :
    all = accepted ++
      receipts crates (batchCalls crates context transactionId authorizer nowMs mutations engine) ∧
    after = batchEngine crates context transactionId authorizer nowMs mutations engine := by
  induction mutations generalizing accepted engine with
  | nil =>
    simp only [SyncEngine.applyBatchLoop, Prod.mk.injEq, Except.ok.injEq] at h
    simp [batchCalls, batchEngine, receipts, Machine.run, Machine.trace, h.1, h.2]
  | cons mutation rest ih =>
    let call := callOn context transactionId authorizer nowMs engine mutation
    have hpair : engine.applyMutation crates context transactionId mutation authorizer nowMs =
      (call.result crates, call.after crates) := rfl
    simp only [SyncEngine.applyBatchLoop, hpair] at h
    change _ = accepted ++ receipts crates (call :: batchCalls crates context transactionId
      authorizer nowMs rest (call.after crates)) ∧ _ = batchEngine crates context transactionId
      authorizer nowMs rest (call.after crates)
    cases hr : call.result crates with
    | ok receipt =>
      rw [hr] at h
      rw [receipts_cons_ok crates hr]
      simpa using ih (accepted ++ [receipt]) (call.after crates) h
    | error error =>
      rw [hr] at h
      simp at h

theorem applyBatchLoop_frame (mutations : List ClientMutation) (accepted : List MutationReceipt)
    (engine : SyncEngine) (state : EngineState) :
    { (SyncEngine.applyBatchLoop crates context transactionId authorizer nowMs mutations
      accepted engine).2 with state := state } = { engine with state := state } := by
  induction mutations generalizing accepted engine with
  | nil => rfl
  | cons mutation rest ih =>
    let call := callOn context transactionId authorizer nowMs engine mutation
    have hpair : engine.applyMutation crates context transactionId mutation authorizer nowMs =
      (call.result crates, call.after crates) := rfl
    have hframe : { call.after crates with state := state } = { engine with state := state } := by
      rw [call.after_eq crates]
      rfl
    simp only [SyncEngine.applyBatchLoop, hpair]
    cases hr : call.result crates with
    | ok receipt => exact (ih (accepted ++ [receipt]) (call.after crates)).trans hframe
    | error error => exact hframe

end Batches

/-- The calls of a push whose effects stayed: none of a refused push or of an atomic
batch that was rolled back, otherwise all of them. -/
def SyncEngine.keptCalls (engine : SyncEngine) (context : SyncContext) (batch : PushBatch)
    (authorizer : SyncAuthorizer) (nowMs : Int64) : List Call :=
  match engine.verifyContext context,
      validateBatch batch context engine.schemaVersion engine.config.maxPushMutations,
      batch.mode, (engine.push crates context batch authorizer nowMs).1 with
  | .ok _, .ok _, .atomicBatch, .error _ => []
  | .ok _, .ok _, _, _ =>
    batchCalls crates context engine.allocateTransactionId.1 authorizer nowMs batch.mutations
      engine.allocateTransactionId.2
  | _, _, _, _ => []

/-- A push either leaves the engine alone, or it is its kept calls after one ticket. -/
theorem push_cases (engine : SyncEngine) (context : SyncContext) (batch : PushBatch)
    (authorizer : SyncAuthorizer) (nowMs : Int64) :
    (engine.keptCalls crates context batch authorizer nowMs = [] ∧
      (engine.push crates context batch authorizer nowMs).2 = engine) ∨
    (engine.verifyContext context = .ok () ∧
      validateBatch batch context engine.schemaVersion engine.config.maxPushMutations = .ok () ∧
      engine.keptCalls crates context batch authorizer nowMs =
        batchCalls crates context engine.allocateTransactionId.1 authorizer nowMs batch.mutations
          engine.allocateTransactionId.2 ∧
      (engine.push crates context batch authorizer nowMs).2 =
        batchEngine crates context engine.allocateTransactionId.1 authorizer nowMs batch.mutations
          engine.allocateTransactionId.2) := by
  unfold SyncEngine.keptCalls SyncEngine.push
  cases hv : engine.verifyContext context with
  | error error => exact .inl ⟨rfl, rfl⟩
  | ok u =>
    cases hb : validateBatch batch context engine.schemaVersion engine.config.maxPushMutations with
    | error error => exact .inl ⟨rfl, rfl⟩
    | ok u' =>
      cases hm : batch.mode with
      | partialBatch =>
        refine .inr ⟨rfl, rfl, rfl, ?_⟩
        have hl := (applyPartialLoop_spec crates context engine.allocateTransactionId.1 authorizer
          nowMs batch.mutations [] [] engine.allocateTransactionId.2).2
        simp only [SyncEngine.applyPartial]
        split <;> exact hl
      | atomicBatch =>
        simp only [SyncEngine.applyBatch]
        rcases hl : SyncEngine.applyBatchLoop crates context engine.allocateTransactionId.1
            authorizer nowMs batch.mutations [] engine.allocateTransactionId.2 with ⟨result, after⟩
        have hframe : { after with state := engine.state } = engine := by
          have h := applyBatchLoop_frame crates context engine.allocateTransactionId.1 authorizer
            nowMs batch.mutations [] engine.allocateTransactionId.2 engine.state
          rwa [hl] at h
        cases result with
        | error error => exact .inl ⟨rfl, hframe⟩
        | ok all =>
          have hs := applyBatchLoop_spec crates context engine.allocateTransactionId.1 authorizer
            nowMs batch.mutations [] engine.allocateTransactionId.2 after all hl
          dsimp only
          cases hc : after.cursor crates context after.latestSequence nowMs with
          | error error => exact .inl ⟨rfl, hframe⟩
          | ok cursor => exact .inr ⟨trivial, trivial, rfl, hs.2⟩

/-- The receipts a successful push reports are those of its kept calls, in order. -/
theorem push_accepted {engine : SyncEngine} {context : SyncContext} {batch : PushBatch}
    {authorizer : SyncAuthorizer} {nowMs : Int64} {result : PushResult}
    (h : (engine.push crates context batch authorizer nowMs).1 = .ok result) :
    result.accepted =
      receipts crates (engine.keptCalls crates context batch authorizer nowMs) := by
  unfold SyncEngine.keptCalls
  rw [h]
  unfold SyncEngine.push at h
  cases hv : engine.verifyContext context with
  | error error => simp [hv] at h
  | ok u =>
    cases hb : validateBatch batch context engine.schemaVersion engine.config.maxPushMutations with
    | error error => simp [hv, hb] at h
    | ok u' =>
      simp only [hv, hb] at h
      cases hm : batch.mode with
      | partialBatch =>
        have hl := (applyPartialLoop_spec crates context engine.allocateTransactionId.1 authorizer
          nowMs batch.mutations [] [] engine.allocateTransactionId.2).1
        simp only [hm, SyncEngine.applyPartial] at h
        split at h
        · simp at h
        · cases h
          simpa using hl
      | atomicBatch =>
        simp only [hm, SyncEngine.applyBatch] at h
        rcases hl : SyncEngine.applyBatchLoop crates context engine.allocateTransactionId.1
            authorizer nowMs batch.mutations [] engine.allocateTransactionId.2 with ⟨loop, after⟩
        simp only [hl] at h
        cases loop with
        | error error => simp at h
        | ok all =>
          have hs := applyBatchLoop_spec crates context engine.allocateTransactionId.1 authorizer
            nowMs batch.mutations [] engine.allocateTransactionId.2 after all hl
          dsimp only at h
          cases hc : after.cursor crates context after.latestSequence nowMs with
          | error error => simp [hc] at h
          | ok cursor =>
            simp only [hc, Except.ok.injEq] at h
            cases h
            simpa using hs.1

inductive Op where
  | push (context : SyncContext) (batch : PushBatch) (authorizer : SyncAuthorizer) (nowMs : Int64)
  | invalidate (reason : ResnapshotReason) (newSchemaVersion : Option Nat) (nowMs : Int64)
  | compact (nowMs : Int64)

def Op.nowMs : Op → Int64
  | .push _ _ _ nowMs => nowMs
  | .invalidate _ _ nowMs => nowMs
  | .compact nowMs => nowMs

def Op.isPush : Op → Bool
  | .push _ _ _ _ => true
  | _ => false

def SyncEngine.step (engine : SyncEngine) : Op → SyncEngine
  | .push context batch authorizer nowMs => (engine.push crates context batch authorizer nowMs).2
  | .invalidate reason newSchemaVersion nowMs =>
    (engine.invalidate reason newSchemaVersion nowMs).2
  | .compact nowMs => (engine.compact nowMs).2

def SyncEngine.run (engine : SyncEngine) (ops : List Op) : SyncEngine :=
  Machine.run (SyncEngine.step crates) engine ops

def SyncEngine.calls (engine : SyncEngine) : Op → List Call
  | .push context batch authorizer nowMs => engine.keptCalls crates context batch authorizer nowMs
  | _ => []

def SyncEngine.runCalls (engine : SyncEngine) (ops : List Op) : List Call :=
  Machine.trace (SyncEngine.step crates) (SyncEngine.calls crates) engine ops

/-- An engine as the interface hands it out: fresh, or restored from some accepted
checkpoint. -/
def Started (engine : SyncEngine) : Prop :=
  (∃ projectId schemaVersion secret config,
    SyncEngine.new projectId schemaVersion secret config = .ok engine) ∨
  (∃ projectId secret config checkpoint,
    SyncEngine.restore crates projectId secret config checkpoint = .ok engine)

def Reachable (engine : SyncEngine) : Prop :=
  ∃ start ops, Started crates start ∧ engine = start.run crates ops

def SyncEngine.announced (engine : SyncEngine) (reason : ResnapshotReason) (schemaVersion : Nat)
    (nowMs : Int64) : SyncEngine :=
  { engine with
    schemaVersion := schemaVersion
    state := { engine.state with
      nextSequence := Saturating.succ engine.state.nextSequence
      events := engine.state.events ++
        [.resnapshotRequired engine.state.nextSequence reason schemaVersion nowMs] } }

theorem invalidate_cases (engine : SyncEngine) (reason : ResnapshotReason)
    (newSchemaVersion : Option Nat) (nowMs : Int64) :
    (engine.invalidate reason newSchemaVersion nowMs).2 = engine ∨
    ∃ schemaVersion, engine.schemaVersion ≤ schemaVersion ∧
      (engine.invalidate reason newSchemaVersion nowMs).2 =
        engine.announced reason schemaVersion nowMs := by
  cases newSchemaVersion with
  | none => exact .inr ⟨engine.schemaVersion, le_refl _, rfl⟩
  | some version =>
    by_cases h : version ≤ engine.schemaVersion
    · exact .inl (by simp [SyncEngine.invalidate, h])
    · exact .inr ⟨version, by omega, by simp [SyncEngine.invalidate, h]; rfl⟩

def SyncEngine.droppedKeys (engine : SyncEngine) (nowMs : Int64) : List String :=
  (engine.state.rows.toList.filter fun (_, row) =>
    !keepRow (Saturating.sub nowMs engine.config.tombstoneRetentionMs) row).map Prod.fst

inductive Entry where
  | committed (mutation : ClientMutation) (key : String) (receipt : MutationReceipt)
  | dropped (key : String)
  deriving DecidableEq

def Call.entries (call : Call) : List Entry :=
  match mutationTarget crates call.mutation, call.result crates with
  | .ok (_, key), .ok receipt =>
    if receipt.outcome = .applied then [.committed call.mutation key receipt] else []
  | _, _ => []

def SyncEngine.observe {ο : Type} (ofCall : Call → List ο) (ofCompact : SyncEngine → Int64 → List ο)
    (engine : SyncEngine) : Op → List ο
  | .push context batch authorizer nowMs =>
    (engine.keptCalls crates context batch authorizer nowMs).flatMap ofCall
  | .invalidate _ _ _ => []
  | .compact nowMs => ofCompact engine nowMs

def SyncEngine.observed {ο : Type} (ofCall : Call → List ο) (ofCompact : SyncEngine → Int64 → List ο)
    (engine : SyncEngine) (ops : List Op) : List ο :=
  Machine.trace (SyncEngine.step crates) (SyncEngine.observe crates ofCall ofCompact) engine ops

def SyncEngine.droppedEntries (engine : SyncEngine) (nowMs : Int64) : List Entry :=
  (engine.droppedKeys nowMs).map .dropped

def SyncEngine.history (engine : SyncEngine) (ops : List Op) : List Entry :=
  engine.observed crates (Call.entries crates) SyncEngine.droppedEntries ops

structure Preserved (P : SyncEngine → Prop) : Prop where
  ticket : ∀ engine, P engine → P engine.allocateTransactionId.2
  call : ∀ call : Call, P call.engine → P (call.after crates)
  announced : ∀ engine reason schemaVersion nowMs, engine.schemaVersion ≤ schemaVersion →
    P engine → P (engine.announced reason schemaVersion nowMs)
  compact : ∀ engine nowMs, P engine → P (engine.compact nowMs).2

/-- A composable relation between two engines and what is seen between them, established
by the calls of a push at an admitted time. -/
structure CallRelated {ο : Type} (A : Int64 → Prop) (ofCall : Call → List ο)
    (R : SyncEngine → List ο → SyncEngine → Prop) : Prop where
  refl : ∀ engine, R engine [] engine
  trans : ∀ {e f g os os'}, R e os f → R f os' g → R e (os ++ os') g
  ticket : ∀ engine, R engine [] engine.allocateTransactionId.2
  call : ∀ call : Call, A call.nowMs → R call.engine (ofCall call) (call.after crates)

structure Related {ο : Type} (A : Int64 → Prop) (ofCall : Call → List ο)
    (ofCompact : SyncEngine → Int64 → List ο) (R : SyncEngine → List ο → SyncEngine → Prop) :
    Prop extends CallRelated crates A ofCall R where
  announced : ∀ engine reason schemaVersion nowMs, A nowMs →
    engine.schemaVersion ≤ schemaVersion →
    R engine [] (engine.announced reason schemaVersion nowMs)
  compact : ∀ engine nowMs, A nowMs → R engine (ofCompact engine nowMs) (engine.compact nowMs).2

variable {crates}

theorem Preserved.step {P : SyncEngine → Prop} (h : Preserved crates P) (engine : SyncEngine)
    (op : Op) (hp : P engine) :
    P (engine.step crates op) ∧ ∀ call ∈ engine.calls crates op, P call.engine := by
  cases op with
  | push context batch authorizer nowMs =>
    simp only [SyncEngine.step, SyncEngine.calls]
    rcases push_cases crates engine context batch authorizer nowMs with ⟨hk, he⟩ | ⟨_, _, hk, he⟩
    · rw [hk, he]
      exact ⟨hp, by simp⟩
    · rw [hk, he]
      refine Machine.run_invariant (A := fun _ => True) ?_ _ _ (fun _ _ => trivial)
        (h.ticket engine hp)
      intro before mutation _ hb
      exact ⟨h.call (callOn context _ authorizer nowMs before mutation) hb, by simpa [callOn] using hb⟩
  | invalidate reason newSchemaVersion nowMs =>
    refine ⟨?_, by simp [SyncEngine.calls]⟩
    rcases invalidate_cases engine reason newSchemaVersion nowMs with he | ⟨version, hv, he⟩
    · simpa [SyncEngine.step, he] using hp
    · simpa [SyncEngine.step, he] using h.announced engine reason version nowMs hv hp
  | compact nowMs => exact ⟨h.compact engine nowMs hp, by simp [SyncEngine.calls]⟩

theorem Preserved.run {P : SyncEngine → Prop} (h : Preserved crates P) (engine : SyncEngine)
    (ops : List Op) (hp : P engine) :
    P (engine.run crates ops) ∧ ∀ call ∈ engine.runCalls crates ops, P call.engine :=
  Machine.run_invariant (A := fun _ => True) (fun engine op _ hp => h.step engine op hp)
    engine ops (fun _ _ => trivial) hp

section Relations
variable {ο : Type} {A : Int64 → Prop} {ofCall : Call → List ο}
variable {ofCompact : SyncEngine → Int64 → List ο} {R : SyncEngine → List ο → SyncEngine → Prop}

theorem CallRelated.batch (h : CallRelated crates A ofCall R) (context : SyncContext)
    (transactionId : String) (authorizer : SyncAuthorizer) (nowMs : Int64) (ha : A nowMs)
    (mutations : List ClientMutation) (engine : SyncEngine) :
    R engine ((batchCalls crates context transactionId authorizer nowMs mutations engine).flatMap
        ofCall)
      (batchEngine crates context transactionId authorizer nowMs mutations engine) := by
  refine Machine.run_relation (A := fun _ => True)
    (R := fun e (calls : List Call) f => R e (calls.flatMap ofCall) f)
    h.refl (fun hl hr => by simpa using h.trans hl hr) ?_ _ _ (fun _ _ => trivial)
  intro before mutation _
  have hc := h.call (callOn context transactionId authorizer nowMs before mutation) ha
  simpa [List.flatMap_cons, List.flatMap_nil] using hc

theorem CallRelated.push (h : CallRelated crates A ofCall R) (engine : SyncEngine)
    (context : SyncContext) (batch : PushBatch) (authorizer : SyncAuthorizer) (nowMs : Int64)
    (ha : A nowMs) :
    R engine ((engine.keptCalls crates context batch authorizer nowMs).flatMap ofCall)
      (engine.push crates context batch authorizer nowMs).2 := by
  rcases push_cases crates engine context batch authorizer nowMs with ⟨hk, he⟩ | ⟨_, _, hk, he⟩
  · rw [hk, he]
    exact h.refl engine
  · rw [hk, he]
    exact h.trans (h.ticket engine) (h.batch context _ authorizer nowMs ha batch.mutations _)

theorem Related.step (h : Related crates A ofCall ofCompact R) (engine : SyncEngine) (op : Op)
    (ha : A op.nowMs) :
    R engine (engine.observe crates ofCall ofCompact op) (engine.step crates op) := by
  cases op with
  | push context batch authorizer nowMs => exact h.push engine context batch authorizer nowMs ha
  | invalidate reason newSchemaVersion nowMs =>
    rcases invalidate_cases engine reason newSchemaVersion nowMs with he | ⟨version, hv, he⟩
    · simpa [SyncEngine.step, SyncEngine.observe, he] using h.refl engine
    · simpa [SyncEngine.step, SyncEngine.observe, he] using
        h.announced engine reason version nowMs ha hv
  | compact nowMs => exact h.compact engine nowMs ha

/-- Across a run at admitted times the relation holds with all that was seen. -/
theorem Related.run (h : Related crates A ofCall ofCompact R) (engine : SyncEngine)
    (ops : List Op) (ha : ∀ op ∈ ops, A op.nowMs) :
    R engine (engine.observed crates ofCall ofCompact ops) (engine.run crates ops) :=
  Machine.run_relation h.refl h.trans (fun engine op ha => h.step engine op ha) engine ops ha

theorem CallRelated.run (h : CallRelated crates A ofCall R) (engine : SyncEngine)
    (ops : List Op) (hpush : ∀ op ∈ ops, op.isPush = true) (ha : ∀ op ∈ ops, A op.nowMs) :
    R engine (engine.observed crates ofCall (fun _ _ => []) ops) (engine.run crates ops) := by
  refine Machine.run_relation (A := fun op : Op => op.isPush = true ∧ A op.nowMs) h.refl h.trans
    (fun engine op hop => ?_) engine ops fun op hop => ⟨hpush op hop, ha op hop⟩
  cases op with
  | push context batch authorizer nowMs =>
    exact h.push engine context batch authorizer nowMs hop.2
  | invalidate reason newSchemaVersion nowMs => simp [Op.isPush] at hop
  | compact nowMs => simp [Op.isPush] at hop

end Relations

theorem Call.after_config (call : Call) : (call.after crates).config = call.engine.config := by
  rw [call.after_eq crates]

theorem run_append (engine : SyncEngine) (ops more : List Op) :
    engine.run crates (ops ++ more) = (engine.run crates ops).run crates more :=
  Machine.run_append engine ops more

theorem mem_batchCalls {context : SyncContext} {transactionId : String}
    {authorizer : SyncAuthorizer} {nowMs : Int64} {mutations : List ClientMutation}
    {engine : SyncEngine} {call : Call}
    (h : call ∈ batchCalls crates context transactionId authorizer nowMs mutations engine) :
    ∃ before mutation after, mutations = before ++ mutation :: after ∧
      call = callOn context transactionId authorizer nowMs
        (batchEngine crates context transactionId authorizer nowMs before engine) mutation := by
  obtain ⟨before, mutation, after, hsplit, hcall⟩ := Machine.mem_trace h
  exact ⟨before, mutation, after, hsplit, List.mem_singleton.mp hcall⟩

theorem batchEngine_append (context : SyncContext) (transactionId : String)
    (authorizer : SyncAuthorizer) (nowMs : Int64) (before after : List ClientMutation)
    (engine : SyncEngine) :
    batchEngine crates context transactionId authorizer nowMs (before ++ after) engine =
      batchEngine crates context transactionId authorizer nowMs after
        (batchEngine crates context transactionId authorizer nowMs before engine) :=
  Machine.run_append _ before after

theorem runCalls_eq_observed (engine : SyncEngine) (ops : List Op) :
    engine.runCalls crates ops = engine.observed crates (fun call => [call]) (fun _ _ => []) ops := by
  have hop : (SyncEngine.calls crates) =
      SyncEngine.observe crates (fun call => [call]) (fun _ _ => []) := by
    funext engine op
    cases op <;> simp [SyncEngine.calls, SyncEngine.observe]
  simp only [SyncEngine.runCalls, SyncEngine.observed, hop]

/-- At every kept call the relation holds with some of the calls before it. -/
theorem Related.at_call {A : Int64 → Prop} {R : SyncEngine → List Call → SyncEngine → Prop}
    (h : Related crates A (fun call => [call]) (fun _ _ => []) R) {engine : SyncEngine}
    {ops : List Op} (ha : ∀ op ∈ ops, A op.nowMs) {call : Call}
    (hcall : call ∈ engine.runCalls crates ops) :
    ∃ earlier, (∀ c ∈ earlier, c ∈ engine.runCalls crates ops) ∧ R engine earlier call.engine := by
  obtain ⟨before, op, after, rfl, hop⟩ := Machine.mem_trace hcall
  have hrun := h.run engine before fun op hop => ha op (by simp [hop])
  rw [← runCalls_eq_observed] at hrun
  have hsub : ∀ c ∈ engine.runCalls crates before ++ (engine.run crates before).calls crates op,
      c ∈ engine.runCalls crates (before ++ op :: after) := by
    intro c hc
    rw [SyncEngine.runCalls, Machine.trace_append]
    rcases List.mem_append.mp hc with hc | hc
    · exact List.mem_append_left _ hc
    · exact List.mem_append_right _ (List.mem_append_left _ hc)
  cases op with
  | invalidate reason newSchemaVersion nowMs => simp [SyncEngine.calls] at hop
  | compact nowMs => simp [SyncEngine.calls] at hop
  | push context batch authorizer nowMs =>
    have hkept : call ∈ (engine.run crates before).keptCalls crates context batch authorizer nowMs :=
      hop
    rcases push_cases crates (engine.run crates before) context batch authorizer nowMs with
      ⟨hk, _⟩ | ⟨_, _, hk, _⟩
    · simp [hk] at hkept
    · rw [hk] at hkept
      obtain ⟨earlier, mutation, later, hsplit, rfl⟩ := mem_batchCalls hkept
      have hbatch := h.batch context (engine.run crates before).allocateTransactionId.1 authorizer
        nowMs (ha (.push context batch authorizer nowMs) (by simp)) earlier
        (engine.run crates before).allocateTransactionId.2
      rw [List.flatMap_singleton'] at hbatch
      refine ⟨_, fun c hc => hsub c ?_, h.trans hrun (h.trans (h.ticket _) hbatch)⟩
      rcases List.mem_append.mp hc with hc | hc
      · exact List.mem_append_left _ hc
      · refine List.mem_append_right _ ?_
        change c ∈ (engine.run crates before).keptCalls crates context batch authorizer nowMs
        rw [hk, hsplit, batchCalls, Machine.trace_append]
        exact List.mem_append_left _ hc

end Ffdb.Sync
