import Ffdb.Sync.Idempotency

/-! Batches as a whole. An atomic batch that fails leaves nothing behind, and a partial one leaves what its accepted
mutations alone would have left. -/
namespace Ffdb.Sync
open Fallible
variable (crates : Crates)

abbrev Verdict := ClientMutation × Except SyncError MutationReceipt

def verdicts (calls : List Call) : List Verdict := calls.map fun call => (call.mutation, call.result crates)

def Verdict.receipt (verdict : Verdict) : Option MutationReceipt := verdict.2.toOption

def Verdict.admitted : Verdict → Option ClientMutation
  | (mutation, .ok _) => some mutation
  | (_, .error _) => none

def Verdict.failure : Verdict → Option MutationFailure
  | (_, .ok _) => none
  | (mutation, .error error) => some ⟨mutation.mutationId, error.code⟩

/-- The second engine has made the accepted calls of the first, and no other. Refusals leave a trace in the receipts
only: a full store of receipts is pruned before it refuses, and stays full for the rest of the batch. -/
def Trails (nowMs : Int64) (engine alone : SyncEngine) : Prop :=
  engine = alone ∨
    (engine = { alone with state := pruneIdempotency alone.config alone.state nowMs } ∧
      alone.config.maxIdempotencyRecords ≤
        (pruneIdempotency alone.config alone.state nowMs).idempotency.size)

variable {crates} {nowMs : Int64} {engine alone : SyncEngine}

section Trailing

theorem Trails.visible (h : Trails nowMs engine alone) :
    engine.state.rows = alone.state.rows ∧ engine.state.events = alone.state.events ∧
      engine.state.nextSequence = alone.state.nextSequence ∧
      ∀ context, engine.cursor crates context engine.latestSequence nowMs =
        alone.cursor crates context alone.latestSequence nowMs := by
  obtain rfl | ⟨rfl, -⟩ := h
  · exact ⟨rfl, rfl, rfl, fun _ => rfl⟩
  · exact ⟨rfl, rfl, rfl, fun _ => rfl⟩

theorem prune_idempotent (config : SyncConfig) (state : EngineState) (nowMs : Int64) :
    pruneIdempotency config (pruneIdempotency config state nowMs) nowMs = pruneIdempotency config state nowMs := by
  have hsame : (pruneIdempotency config (pruneIdempotency config state nowMs) nowMs).idempotency =
      (pruneIdempotency config state nowMs).idempotency := by
    refine Std.ExtTreeMap.ext_getElem? fun key => ?_
    simp only [pruneIdempotency, Std.ExtTreeMap.getElem?_filter', Option.filter_filter, Bool.and_self]
  simp only [pruneIdempotency] at hsame ⊢
  rw [hsame]

theorem mutationTarget_failsOnly (crates : Crates) (mutation : ClientMutation) :
    FailsOnly .invalidMutation (mutationTarget crates mutation) :=
  .bind (.require _) fun _ _ => .bind (.orError _) fun _ _ =>
    .bind (.bind (.orError _) fun _ _ => .ok _) fun _ _ => .ok _

/-- Receipts are pruned before a call finds no room for its own. -/
theorem Call.full {call : Call} (h : call.result crates = .error .idempotencyCapacityReached) :
    call.engine.config.maxIdempotencyRecords ≤
        (pruneIdempotency call.engine.config call.engine.state call.nowMs).idempotency.size ∧
      call.after crates = { call.engine with
        state := pruneIdempotency call.engine.config call.engine.state call.nowMs } := by
  unfold Call.result SyncEngine.applyMutation at h
  unfold Call.after SyncEngine.applyMutation
  cases htarget : mutationTarget crates call.mutation with
  | error error =>
    rw [htarget] at h
    have hinvalid := mutationTarget_failsOnly crates call.mutation _ htarget
    cases h
    cases hinvalid
  | ok target =>
    obtain ⟨hash, key⟩ := target
    rw [htarget] at h
    dsimp only at h ⊢
    split at h
    · rename_i hwrite
      rw [if_pos hwrite]
      cases hrecord : call.engine.state.idempotency[idempotencyKey call.context call.mutation]? with
      | some record =>
        rw [hrecord] at h
        dsimp only at h
        split at h <;> cases h
      | none =>
        rw [hrecord] at h
        dsimp only at h ⊢
        split at h
        · rename_i hfull
          exact ⟨hfull, by rw [if_pos hfull]⟩
        · cases h
    · cases h

variable {context : SyncContext} {transactionId : String} {authorizer : SyncAuthorizer} {mutation : ClientMutation}

/-- A call is accepted on both engines with the same receipt; one that is refused changes nothing that counts. -/
theorem Trails.call (h : Trails nowMs engine alone) :
    let call := callOn context transactionId authorizer nowMs engine mutation
    let same := callOn context transactionId authorizer nowMs alone mutation
    (∃ receipt, call.result crates = .ok receipt ∧ same.result crates = .ok receipt ∧
      Trails nowMs (call.after crates) (same.after crates)) ∨
    ∃ error, call.result crates = .error error ∧ Trails nowMs (call.after crates) alone := by
  intro call same
  obtain rfl | ⟨hpruned, hfull⟩ := h
  · obtain ⟨error, hresult, hafter⟩ | ⟨_, _, record, _, _, _, _, hresult, _⟩ | ⟨hresult, -⟩ |
      ⟨_, _, _, _, _, _, hresult, _⟩ := call.cases crates
    · exact .inr ⟨error, hresult, .inl hafter⟩
    · exact .inl ⟨_, hresult, hresult, .inl rfl⟩
    · obtain ⟨hfull, hafter⟩ := call.full hresult
      exact .inr ⟨_, hresult, .inr ⟨hafter, hfull⟩⟩
    · exact .inl ⟨_, hresult, hresult, .inl rfl⟩
  · have hagain : pruneIdempotency engine.config engine.state nowMs = engine.state := by
      rw [hpruned]
      exact prune_idempotent alone.config alone.state nowMs
    have htrails : Trails nowMs engine alone := .inr ⟨hpruned, hfull⟩
    obtain ⟨error, hresult, hafter⟩ | ⟨hash, key, record, htarget, hwrite, hrecord, hhash, hresult, hafter⟩ |
      ⟨hresult, hafter⟩ | ⟨_, _, _, _, _, hroom, _, _⟩ := call.cases crates
    · exact .inr ⟨error, hresult, hafter ▸ htrails⟩
    · -- the receipt was there before the pruning
      have hstored : alone.state.idempotency[same.key]? = some record := by
        change engine.state.idempotency[same.key]? = some record at hrecord
        rw [hpruned] at hrecord
        exact getElem?_of_prune alone.state hrecord
      have hallowed : authorizer.canWrite context mutation.table mutation.operation
          (authorizationRow mutation (same.prior key)) = true := by
        change authorizer.canWrite context mutation.table mutation.operation
          (authorizationRow mutation engine.state.rows[key]?) = true at hwrite
        rwa [hpruned] at hwrite
      obtain ⟨hafter', hresult'⟩ := same.result_of_record htarget hallowed hstored
      rw [if_pos hhash] at hresult'
      refine .inl ⟨_, hresult, hresult', ?_⟩
      rw [hafter, hafter']
      exact htrails
    · refine .inr ⟨_, hresult, ?_⟩
      rw [hafter]
      change Trails nowMs { engine with state := pruneIdempotency engine.config engine.state nowMs } alone
      rw [hagain]
      exact htrails
    · change (pruneIdempotency engine.config engine.state nowMs).idempotency.size <
        engine.config.maxIdempotencyRecords at hroom
      rw [hagain, hpruned] at hroom
      exact absurd hroom (not_lt.mpr hfull)

end Trailing

section Loops
variable {context : SyncContext} {transactionId : String} {authorizer : SyncAuthorizer}

theorem verdicts_fst (mutations : List ClientMutation) (engine : SyncEngine) :
    (verdicts crates (batchCalls crates context transactionId authorizer nowMs mutations engine)).map Prod.fst =
      mutations := by
  induction mutations generalizing engine with
  | nil => rfl
  | cons mutation rest ih => exact congrArg (mutation :: ·) (ih _)

theorem applyPartialLoop_rejected (mutations : List ClientMutation) (accepted : List MutationReceipt)
    (rejected : List MutationFailure) (engine : SyncEngine) :
    (SyncEngine.applyPartialLoop crates context transactionId authorizer nowMs mutations accepted rejected
      engine).1.2 = rejected ++
        (verdicts crates (batchCalls crates context transactionId authorizer nowMs mutations engine)).filterMap
          Verdict.failure := by
  induction mutations generalizing accepted rejected engine with
  | nil => simp [SyncEngine.applyPartialLoop, batchCalls, verdicts, Machine.trace]
  | cons mutation rest ih =>
    let call := callOn context transactionId authorizer nowMs engine mutation
    have hpair : engine.applyMutation crates context transactionId mutation authorizer nowMs =
      (call.result crates, call.after crates) := rfl
    simp only [SyncEngine.applyPartialLoop, hpair]
    change _ = rejected ++ ((mutation, call.result crates) :: verdicts crates (batchCalls crates context transactionId
      authorizer nowMs rest (call.after crates))).filterMap Verdict.failure
    cases hresult : call.result crates with
    | ok receipt => exact ih (accepted ++ [receipt]) rejected (call.after crates)
    | error error =>
      have hrest := ih accepted (rejected ++ [⟨mutation.mutationId, error.code⟩]) (call.after crates)
      rw [List.append_assoc] at hrest
      exact hrest

/-- The accepted mutations of a batch are all accepted when they are applied alone. -/
theorem Trails.batch (h : Trails nowMs engine alone) (mutations : List ClientMutation)
    (accepted : List MutationReceipt) :
    let made := verdicts crates (batchCalls crates context transactionId authorizer nowMs mutations engine)
    ∃ alone', SyncEngine.applyBatchLoop crates context transactionId authorizer nowMs (made.filterMap Verdict.admitted)
        accepted alone = (.ok (accepted ++ made.filterMap Verdict.receipt), alone') ∧
      Trails nowMs (batchEngine crates context transactionId authorizer nowMs mutations engine) alone' := by
  intro made
  induction mutations generalizing accepted engine alone with
  | nil => exact ⟨alone, by simp [made, verdicts, batchCalls, Machine.trace, SyncEngine.applyBatchLoop], h⟩
  | cons mutation rest ih =>
    let call := callOn context transactionId authorizer nowMs engine mutation
    let same := callOn context transactionId authorizer nowMs alone mutation
    have hmade : made = (mutation, call.result crates) :: verdicts crates (batchCalls crates context transactionId
      authorizer nowMs rest (call.after crates)) := rfl
    have hpair : alone.applyMutation crates context transactionId mutation authorizer nowMs =
      (same.result crates, same.after crates) := rfl
    obtain ⟨receipt, hresult, hsame, hnext⟩ | ⟨error, hresult, hnext⟩ :=
      @Trails.call crates nowMs engine alone context transactionId authorizer mutation h
    · obtain ⟨alone', hloop, htrails⟩ := ih hnext (accepted ++ [receipt])
      refine ⟨alone', ?_, htrails⟩
      simp only [hmade, show call.result crates = .ok receipt from hresult, List.filterMap_cons, Verdict.admitted,
        Verdict.receipt, Except.toOption, SyncEngine.applyBatchLoop, hpair,
        show same.result crates = .ok receipt from hsame]
      rw [List.append_assoc] at hloop
      exact hloop
    · obtain ⟨alone', hloop, htrails⟩ := ih hnext accepted
      refine ⟨alone', ?_, htrails⟩
      rw [hmade, hresult, List.filterMap_cons_none rfl, List.filterMap_cons_none rfl]
      exact hloop

end Loops

section Labels

def Labelled (crates : Crates) (engine : SyncEngine) : Prop :=
  ∀ (key : String) (record : IdempotencyRecord), engine.state.idempotency[key]? = some record →
    ∃ mutation payload, crates.mutationToVec mutation = some payload ∧ record.payloadHash = crates.sha256 payload ∧
      record.receipt.mutationId = mutation.mutationId

def NamesDigested (crates : Crates) : Prop :=
  ∀ mutation mutation' payload payload', crates.mutationToVec mutation = some payload →
    crates.mutationToVec mutation' = some payload' → crates.sha256 payload = crates.sha256 payload' →
    mutation.mutationId = mutation'.mutationId

theorem labelled_preserved (crates : Crates) : Preserved crates (Labelled crates) where
  ticket _ h := h
  call call h key record hrecord := by
    obtain ⟨_, _, hafter⟩ | ⟨_, _, _, _, _, _, _, _, hafter⟩ | ⟨_, hafter⟩ |
      ⟨hash, rowkey, htarget, _, _, _, _, hafter⟩ := call.cases crates
    · exact h key record (hafter ▸ hrecord)
    · exact h key record (hafter ▸ hrecord)
    · rw [hafter] at hrecord
      exact h key record (getElem?_of_prune _ hrecord)
    · rw [hafter] at hrecord
      simp only [commitMutation, Std.ExtTreeMap.getElem?_insert, compare_eq_iff_eq] at hrecord
      split at hrecord
      · cases hrecord
        obtain ⟨-, ⟨payload, hpayload, rfl⟩, -⟩ := mutationTarget_ok htarget
        exact ⟨call.mutation, payload, hpayload, rfl, rfl⟩
      · exact h key record (getElem?_of_prune _ hrecord)
  announced _ _ _ _ _ h := h
  compact engine nowMs h key record hrecord := h key record (getElem?_of_prune { engine.state with
    minimumAvailableSequence := _, events := _, rows := _ } hrecord)

theorem labelled_of_new {crates : Crates} {projectId : String} {schemaVersion : Nat} {secret : Bytes}
    {config : SyncConfig} {start : SyncEngine} (h : SyncEngine.new projectId schemaVersion secret config = .ok start)
    (ops : List Op) : Labelled crates (start.run crates ops) := by
  refine ((labelled_preserved crates).run start ops fun key record hrecord => ?_).1
  simp only [SyncEngine.new, bind_ok_iff, pure_ok_iff] at h
  obtain ⟨_, -, rfl⟩ := h
  simp [EngineState.initial] at hrecord

theorem labelled_of_mem_batchCalls {context : SyncContext} {transactionId : String} {authorizer : SyncAuthorizer}
    {mutations : List ClientMutation} (h : Labelled crates engine) {call : Call}
    (hcall : call ∈ batchCalls crates context transactionId authorizer nowMs mutations engine) :
    Labelled crates call.engine := by
  refine (Machine.run_invariant (A := fun _ => True) (Q := fun call : Call => Labelled crates call.engine)
    ?_ engine mutations (fun _ _ => trivial) h).2 call hcall
  intro before mutation _ hbefore
  refine ⟨(labelled_preserved crates).call (callOn context transactionId authorizer nowMs before mutation) hbefore, ?_⟩
  intro call hmade
  obtain rfl := List.mem_singleton.mp hmade
  exact hbefore

/-- A receipt names the mutation that it answers. -/
theorem Call.named {call : Call} (h : Labelled crates call.engine) (hnames : NamesDigested crates)
    {receipt : MutationReceipt} (hresult : call.result crates = .ok receipt) :
    receipt.mutationId = call.mutation.mutationId := by
  obtain ⟨_, hrefused, _⟩ | ⟨hash, _, record, htarget, _, hrecord, hhash, hreplayed, _⟩ | ⟨hrefused, _⟩ |
    ⟨_, _, _, _, _, _, hfresh, _⟩ := call.cases crates
  · rw [hresult] at hrefused
    cases hrefused
  · rw [hresult] at hreplayed
    cases hreplayed
    obtain ⟨mutation, payload, hpayload, hdigest, hname⟩ := h _ _ hrecord
    obtain ⟨-, ⟨payload', hpayload', rfl⟩, -⟩ := mutationTarget_ok htarget
    exact hname.trans (hnames _ _ _ _ hpayload hpayload' (hdigest.symm.trans hhash))
  · rw [hresult] at hrefused
    cases hrefused
  · rw [hresult] at hfresh
    cases hfresh
    rfl

/-- A fresh receipt always does. -/
theorem Call.named_of_applied {call : Call} {receipt : MutationReceipt} (hresult : call.result crates = .ok receipt)
    (happlied : receipt.outcome = .applied) : receipt.mutationId = call.mutation.mutationId := by
  obtain ⟨_, hrefused, _⟩ | ⟨_, _, _, _, _, _, _, hreplayed, _⟩ | ⟨hrefused, _⟩ | ⟨_, _, _, _, _, _, hfresh, _⟩ :=
    call.cases crates
  · rw [hresult] at hrefused
    cases hrefused
  · rw [hresult] at hreplayed
    cases hreplayed
    cases happlied
  · rw [hresult] at hrefused
    cases hrefused
  · rw [hresult] at hfresh
    cases hfresh
    rfl

end Labels

/-- A partial push of a batch: what became of each of its mutations is told in order, and what it leaves is what a batch
of the accepted ones leaves. -/
structure AppliesAccepted (crates : Crates) (engine : SyncEngine) (context : SyncContext) (batch : PushBatch)
    (authorizer : SyncAuthorizer) (nowMs : Int64) (result : PushResult) (after : SyncEngine) (made : List Verdict) :
    Prop where
  each : made.map Prod.fst = batch.mutations
  accepted : result.accepted = made.filterMap Verdict.receipt
  rejected : result.rejected = made.filterMap Verdict.failure
  fresh : ∀ verdict ∈ made, ∀ receipt, verdict.2 = .ok receipt → receipt.outcome = .applied →
    receipt.mutationId = verdict.1.mutationId
  named : Labelled crates engine → NamesDigested crates → ∀ verdict ∈ made, ∀ receipt, verdict.2 = .ok receipt →
    receipt.mutationId = verdict.1.mutationId
  alone : ∃ alone, engine.applyBatch crates context { batch with mutations := made.filterMap Verdict.admitted }
      authorizer nowMs = (.ok ⟨result.accepted, [], result.cursor⟩, alone) ∧
    after.state.rows = alone.state.rows ∧ after.state.events = alone.state.events ∧
    after.state.nextSequence = alone.state.nextSequence

theorem applyPartial_appliesAccepted {context : SyncContext} {batch : PushBatch} {authorizer : SyncAuthorizer}
    {result : PushResult} {after : SyncEngine}
    (h : engine.applyPartial crates context batch authorizer nowMs = (.ok result, after)) :
    ∃ made, AppliesAccepted crates engine context batch authorizer nowMs result after made := by
  let transactionId := engine.allocateTransactionId.1
  let started := engine.allocateTransactionId.2
  let calls := batchCalls crates context transactionId authorizer nowMs batch.mutations started
  let partly := SyncEngine.applyPartialLoop crates context transactionId authorizer nowMs batch.mutations [] [] started
  obtain ⟨haccepted, hafter⟩ : partly.1.1 = [] ++ receipts crates calls ∧ partly.2 = batchEngine crates context
      transactionId authorizer nowMs batch.mutations started :=
    applyPartialLoop_spec crates context transactionId authorizer nowMs batch.mutations [] [] started
  have hrejected : partly.1.2 = [] ++ (verdicts crates calls).filterMap Verdict.failure :=
    applyPartialLoop_rejected batch.mutations [] [] started
  obtain ⟨alone, hloop, htrails⟩ :=
    @Trails.batch crates nowMs started started context transactionId authorizer (.inl rfl) batch.mutations []
  obtain ⟨hrows, hevents, hsequence, hcursor⟩ := @Trails.visible crates _ _ _ htrails
  have hreceipts : receipts crates calls = (verdicts crates calls).filterMap Verdict.receipt := by
    rw [verdicts, List.filterMap_map]
    rfl
  rw [List.nil_append] at haccepted hrejected hloop
  simp only [SyncEngine.applyPartial] at h
  cases hissued : partly.2.cursor crates context partly.2.latestSequence nowMs with
  | error error =>
    rw [hissued] at h
    cases h
  | ok cursor =>
    rw [hissued] at h
    cases h
    refine ⟨verdicts crates calls, ?_⟩
    have hmade {verdict : Verdict} (hverdict : verdict ∈ verdicts crates calls) :
        ∃ call ∈ calls, (call.mutation, call.result crates) = verdict := List.mem_map.mp hverdict
    refine ⟨verdicts_fst batch.mutations started, haccepted.trans hreceipts, hrejected, ?_, ?_, alone, ?_, ?_⟩
    · intro verdict hverdict receipt hreceipt happlied
      obtain ⟨call, -, rfl⟩ := hmade hverdict
      exact Call.named_of_applied hreceipt happlied
    · intro hlabelled hnames verdict hverdict receipt hreceipt
      obtain ⟨call, hcall, rfl⟩ := hmade hverdict
      have hstarted : Labelled crates started := (labelled_preserved crates).ticket engine hlabelled
      exact Call.named (labelled_of_mem_batchCalls hstarted hcall) hnames hreceipt
    · rw [hafter] at hissued
      rw [hcursor] at hissued
      unfold SyncEngine.applyBatch
      dsimp only
      rw [hloop]
      dsimp only
      rw [hissued, haccepted, hreceipts]
    · rw [hafter]
      exact ⟨hrows, hevents, hsequence⟩

theorem applyBatch_frame (engine : SyncEngine) (context : SyncContext) (batch : PushBatch) (authorizer : SyncAuthorizer)
    (nowMs : Int64) :
    { (engine.applyBatch crates context batch authorizer nowMs).2 with state := engine.state } = engine := by
  have hframe := applyBatchLoop_frame crates context engine.allocateTransactionId.1 authorizer nowMs batch.mutations []
    engine.allocateTransactionId.2 engine.state
  simp only [SyncEngine.applyBatch]
  split
  · rename_i hloop
    rwa [hloop] at hframe
  · rename_i accepted after hloop
    rw [hloop] at hframe
    cases after.cursor crates context after.latestSequence nowMs with
    | error error => exact hframe
    | ok cursor => exact hframe

theorem push_error_unchanged {context : SyncContext} {batch : PushBatch} {authorizer : SyncAuthorizer}
    {error : SyncError} (hmode : batch.mode = .atomicBatch)
    (h : (engine.push crates context batch authorizer nowMs).1 = .error error) :
    (engine.push crates context batch authorizer nowMs).2 = engine := by
  have hframe := @applyBatch_frame crates engine context batch authorizer nowMs
  unfold SyncEngine.push at h ⊢
  cases hcontext : engine.verifyContext context with
  | error _ => rfl
  | ok _ =>
    cases hbatch : validateBatch batch context engine.schemaVersion engine.config.maxPushMutations with
    | error _ => rfl
    | ok _ =>
      simp only [hcontext, hbatch, hmode] at h ⊢
      rcases happly : engine.applyBatch crates context batch authorizer nowMs with ⟨applied, after⟩
      rw [happly] at h hframe
      cases applied with
      | error _ => exact hframe
      | ok result => cases h

/-- An atomic push that fails leaves the engine as it was; a partial one that answers applies what it accepted. -/
theorem push_atomicity (crates : Crates) (engine : SyncEngine) (context : SyncContext) (batch : PushBatch)
    (authorizer : SyncAuthorizer) (nowMs : Int64) :
    (∀ error, batch.mode = .atomicBatch → (engine.push crates context batch authorizer nowMs).1 = .error error →
      (engine.push crates context batch authorizer nowMs).2 = engine) ∧
    (∀ result, batch.mode = .partialBatch → (engine.push crates context batch authorizer nowMs).1 = .ok result →
      ∃ made, AppliesAccepted crates engine context batch authorizer nowMs result
        (engine.push crates context batch authorizer nowMs).2 made) ∧
    ∀ projectId schemaVersion secret config start ops,
      SyncEngine.new projectId schemaVersion secret config = .ok start → Labelled crates (start.run crates ops) := by
  refine ⟨fun error hmode h => push_error_unchanged hmode h, ?_, fun _ _ _ _ _ ops h => labelled_of_new h ops⟩
  intro result hmode h
  unfold SyncEngine.push at h ⊢
  cases hcontext : engine.verifyContext context with
  | error _ =>
    rw [hcontext] at h
    cases h
  | ok _ =>
    cases hbatch : validateBatch batch context engine.schemaVersion engine.config.maxPushMutations with
    | error _ =>
      rw [hcontext, hbatch] at h
      cases h
    | ok _ =>
      simp only [hcontext, hbatch, hmode] at h ⊢
      exact applyPartial_appliesAccepted (Prod.ext h rfl)

section Sample

def halfValid (mode : BatchMode) : PushBatch :=
  ⟨"phone", 1, mode, [sampleUpsert "m" "1" "alice", sampleUpsert "" "2" "alice"]⟩

def halfValidCrates : Crates := .listing [sampleEngine.claims alice 1 0] []

theorem half_valid_push :
    (sampleEngine.push halfValidCrates alice (halfValid .atomicBatch) allowAll 0).2 = sampleEngine ∧
      ∃ result made, AppliesAccepted halfValidCrates sampleEngine alice (halfValid .partialBatch) allowAll 0 result
        (sampleEngine.push halfValidCrates alice (halfValid .partialBatch) allowAll 0).2 made := by
  constructor
  · exact (push_atomicity halfValidCrates sampleEngine alice (halfValid .atomicBatch) allowAll 0).1 .invalidMutation rfl
      (by decide +kernel)
  · have hok :
        (sampleEngine.push halfValidCrates alice (halfValid .partialBatch) allowAll 0).1.toOption.isSome = true := by
      decide +kernel
    obtain ⟨result, hresult⟩ := Fallible.exists_ok_of_toOption hok
    exact ⟨result,
      (push_atomicity halfValidCrates sampleEngine alice (halfValid .partialBatch) allowAll 0).2.1 result rfl hresult⟩

end Sample

end Ffdb.Sync
