import Ffdb.Sync.Idempotency

/-! Who may overwrite a row. An upsert is authorized on its new values only, so authority
over existing rows rests on the policies themselves. -/
namespace Ffdb.Sync
open Saturating Fallible
variable (crates : Crates)

/-- Every applied upsert over a live row was permitted on the old and on the new values. -/
def UpsertAuthority (engine : SyncEngine) (ops : List Op) : Prop :=
  ∀ call ∈ engine.runCalls crates ops, ∀ receipt hash key row,
    call.Applied crates receipt → call.mutation.operation = .upsert →
    mutationTarget crates call.mutation = .ok (hash, key) →
    call.prior key = some row → row.deletedAtMs = none →
    call.authorizer.canWrite call.context call.mutation.table .upsert row.values = true ∧
    call.authorizer.canWrite call.context call.mutation.table .upsert call.mutation.values = true

def JudgedBy (policies : SyncAuthorizer → Prop) (ops : List Op) : Prop :=
  ∀ context batch authorizer nowMs, .push context batch authorizer nowMs ∈ ops →
    policies authorizer

def Writable (engine : SyncEngine) (policies : SyncAuthorizer → Prop) (table : String)
    (values : JsonMap) : Prop :=
  ∃ context authorizer, engine.verifyContext context = .ok () ∧ policies authorizer ∧
    tableNameAccepted table = true ∧ values ≠ [] ∧
    authorizer.canWrite context table .upsert values = true

def Owned (policies : SyncAuthorizer → Prop) (engine : SyncEngine) : Prop :=
  ∀ (key : String) row, engine.state.rows[key]? = some row → row.deletedAtMs = none →
    Writable engine policies (tableOfKey key) row.values

/-- Policies that do not tell writers apart: who may upsert something into a table may
upsert whatever anybody may. -/
def Indiscriminate (engine : SyncEngine) (policies : SyncAuthorizer → Prop) : Prop :=
  ∀ context authorizer table values values', engine.verifyContext context = .ok () →
    policies authorizer → values' ≠ [] →
    authorizer.canWrite context table .upsert values' = true →
    Writable engine policies table values →
    authorizer.canWrite context table .upsert values = true

variable {crates}

theorem validateMutation_ok {mutation : ClientMutation} (h : validateMutation mutation = .ok ()) :
    tableNameAccepted mutation.table = true ∧
      (mutation.operation = .upsert → mutation.values ≠ []) := by
  simp only [validateMutation, require_ok_iff, Bool.and_eq_true, Bool.not_eq_true',
    Bool.and_eq_false_iff, decide_eq_false_iff_not, List.isEmpty_eq_false_iff] at h
  refine ⟨h.1.1.2, fun hop => ?_⟩
  rcases h.2 with hne | hne
  · exact absurd hop hne
  · exact hne

theorem verifyContext_congr {e f : SyncEngine} (h : f.projectId = e.projectId)
    (context : SyncContext) : f.verifyContext context = e.verifyContext context := by
  simp only [SyncEngine.verifyContext, h]

theorem Writable.congr {e f : SyncEngine} {policies : SyncAuthorizer → Prop} {table : String}
    {values : JsonMap} (h : f.projectId = e.projectId) (hw : Writable e policies table values) :
    Writable f policies table values := by
  obtain ⟨context, authorizer, hv, hrest⟩ := hw
  exact ⟨context, authorizer, by rwa [verifyContext_congr h], hrest⟩

def PassesOwnership (policies : SyncAuthorizer → Prop) (e : SyncEngine) (calls : List Call)
    (f : SyncEngine) : Prop :=
  f.projectId = e.projectId ∧
    ((∀ call ∈ calls, e.verifyContext call.context = .ok () ∧ policies call.authorizer) →
      Owned policies e → Owned policies f)

theorem passesOwnership_of_rows {policies : SyncAuthorizer → Prop} {e f : SyncEngine}
    {calls : List Call} (hproject : f.projectId = e.projectId)
    (hrows : ∀ (key : String) row, f.state.rows[key]? = some row → e.state.rows[key]? = some row) :
    PassesOwnership policies e calls f :=
  ⟨hproject, fun _ howned key row hrow hlive =>
    (howned key row (hrows key row hrow) hlive).congr hproject⟩

theorem passesOwnership_call (policies : SyncAuthorizer → Prop) (call : Call) :
    PassesOwnership policies call.engine [call] (call.after crates) := by
  rcases call.cases crates with ⟨_, _, ha⟩ | ⟨_, _, _, _, _, _, _, _, ha⟩ | ⟨_, ha⟩ |
    ⟨hash, key, ht, hw, _, _, _, ha⟩
  · rw [ha]
    exact passesOwnership_of_rows rfl fun _ _ h => h
  · rw [ha]
    exact passesOwnership_of_rows rfl fun _ _ h => h
  · rw [ha]
    exact passesOwnership_of_rows rfl fun _ _ h => h
  · rw [ha]
    refine ⟨rfl, fun hcalls howned key' row hrow hlive => ?_⟩
    obtain ⟨hvalid, _, hkey⟩ := mutationTarget_ok ht
    obtain ⟨htable, hvalues⟩ := validateMutation_ok hvalid
    simp only [commitMutation_rows, Std.ExtTreeMap.getElem?_insert, compare_eq_iff_eq] at hrow
    split at hrow
    · next he =>
      subst he
      cases hrow
      obtain ⟨hverified, hpolicy⟩ := hcalls call (List.mem_singleton_self _)
      cases hop : call.mutation.operation with
      | delete => simp [writtenRow, hop] at hlive
      | upsert =>
        rw [tableOfKey_of_rowKey htable hkey]
        refine ⟨call.context, call.authorizer, hverified, hpolicy, htable, ?_, ?_⟩
        · simpa [writtenRow, hop] using hvalues hop
        · simpa [authorizationRow, writtenRow, hop] using hw
    · exact howned key' row hrow hlive

theorem passesOwnership_related (crates : Crates) (policies : SyncAuthorizer → Prop) :
    Related crates (fun _ => True) (fun call => [call]) (fun _ _ => [])
      (PassesOwnership policies) where
  refl _ := passesOwnership_of_rows rfl fun _ _ h => h
  trans hl hr := by
    refine ⟨hr.1.trans hl.1, fun hcalls howned => hr.2 (fun call hm => ?_) (hl.2 (fun call hm => ?_)
      howned)⟩
    · rw [verifyContext_congr hl.1]
      exact hcalls call (List.mem_append_right _ hm)
    · exact hcalls call (List.mem_append_left _ hm)
  ticket _ := passesOwnership_of_rows rfl fun _ _ h => h
  call call _ := passesOwnership_call policies call
  announced _ _ _ _ _ _ := passesOwnership_of_rows rfl fun _ _ h => h
  compact engine nowMs _ := passesOwnership_of_rows rfl fun key row h => by
    simp only [compact_rows, Std.ExtTreeMap.getElem?_filter', Option.filter_eq_some_iff] at h
    exact h.1

/-- The calls of a run come from verified contexts and its own authorizers. -/
theorem runCalls_judged {policies : SyncAuthorizer → Prop} {start : SyncEngine} {ops : List Op}
    (hjudged : JudgedBy policies ops) {call : Call} (hcall : call ∈ start.runCalls crates ops) :
    start.verifyContext call.context = .ok () ∧ policies call.authorizer := by
  obtain ⟨before, op, after, rfl, hop⟩ := Machine.mem_trace hcall
  obtain ⟨context, batch, authorizer, nowMs, rfl, hv, hattempts⟩ :=
    attempts_cases (calls_subset_attempts hop)
  have hmem := calls_subset_attempts hop
  rw [hattempts] at hmem
  obtain ⟨_, _, _, _, rfl⟩ := mem_batchCalls hmem
  have hproject := ((passesOwnership_related crates policies).run start before
    fun _ _ => trivial).1
  refine ⟨?_, hjudged context batch authorizer nowMs (by simp)⟩
  rw [← verifyContext_congr hproject]
  exact hv

/-- Under indiscriminate policies authority holds over every run. -/
theorem upsertAuthority_of_indiscriminate {policies : SyncAuthorizer → Prop} {start : SyncEngine}
    (howned : Owned policies start) (hpolicies : Indiscriminate start policies) {ops : List Op}
    (hjudged : JudgedBy policies ops) : UpsertAuthority crates start ops := by
  intro call hcall receipt hash key row happlied hop ht hprior hlive
  obtain ⟨earlier, hsub, hproject, hpasses⟩ :=
    (passesOwnership_related crates policies).at_call (fun _ _ => trivial) hcall
  obtain ⟨hverified, hpolicy⟩ := runCalls_judged hjudged hcall
  have hrow := hpasses (fun c hc => runCalls_judged hjudged (hsub c hc)) howned key row hprior hlive
  obtain ⟨hvalid, _, hkey⟩ := mutationTarget_ok ht
  obtain ⟨htable, hvalues⟩ := validateMutation_ok hvalid
  rw [tableOfKey_of_rowKey htable hkey] at hrow
  obtain ⟨hash', key', ht', hw, _⟩ := happlied.cases
  have hnew : call.authorizer.canWrite call.context call.mutation.table .upsert
      call.mutation.values = true := by
    simpa [authorizationRow, hop] using hw
  exact ⟨hpolicies call.context call.authorizer call.mutation.table row.values
    call.mutation.values hverified hpolicy (hvalues hop) hnew (hrow.congr hproject.symm), hnew⟩

def single (engine : SyncEngine) (context : SyncContext) (mutation : ClientMutation) : PushBatch where
  clientId := context.trustedClientId
  schemaVersion := engine.schemaVersion
  mode := .partialBatch
  mutations := [mutation]

def singleCall (engine : SyncEngine) (context : SyncContext) (mutation : ClientMutation)
    (authorizer : SyncAuthorizer) (nowMs : Int64) : Call :=
  callOn context engine.allocateTransactionId.1 authorizer nowMs engine.allocateTransactionId.2
    mutation

/-- A permitted mutation that is new and finds room is applied. -/
theorem Call.applied_of (call : Call) {hash : Bytes} {key : String}
    (ht : mutationTarget crates call.mutation = .ok (hash, key))
    (hw : call.authorizer.canWrite call.context call.mutation.table call.mutation.operation
      (authorizationRow call.mutation (call.prior key)) = true)
    (hnew : call.engine.state.idempotency[call.key]? = none)
    (hroom : (pruneIdempotency call.engine.config call.engine.state call.nowMs).idempotency.size
      < call.engine.config.maxIdempotencyRecords) :
    call.Applied crates
      (mutationReceipt call.mutation (call.prior key) call.engine.state.nextSequence) := by
  unfold Call.prior at hw
  unfold Call.key at hnew
  refine ⟨?_, rfl⟩
  unfold Call.result SyncEngine.applyMutation
  simp only [ht, hw, if_true, hnew, if_neg (not_le.mpr hroom)]
  rfl

theorem single_push (crates : Crates) (engine : SyncEngine) {context : SyncContext}
    (mutation : ClientMutation) (authorizer : SyncAuthorizer) (nowMs : Int64)
    (hv : engine.verifyContext context = .ok ()) (hmax : engine.config.maxPushMutations ≠ 0) :
    engine.calls crates (.push context (single engine context mutation) authorizer nowMs) =
      [singleCall engine context mutation authorizer nowMs] ∧
    engine.step crates (.push context (single engine context mutation) authorizer nowMs) =
      (singleCall engine context mutation authorizer nowMs).after crates := by
  have hclient : context.trustedClientId ≠ "" := by
    simp only [SyncEngine.verifyContext, bind_ok_iff, require_ok_iff, Bool.and_eq_true,
      decide_eq_true_eq] at hv
    tauto
  have hbatch : validateBatch (single engine context mutation) context engine.schemaVersion
      engine.config.maxPushMutations = .ok () := by
    simp [validateBatch, single, hclient, Nat.one_le_iff_ne_zero, hmax]
  have hkept : engine.keptCalls crates context (single engine context mutation) authorizer nowMs =
      [singleCall engine context mutation authorizer nowMs] := by
    simp only [SyncEngine.keptCalls, hv, hbatch]
    rfl
  refine ⟨hkept, ?_⟩
  rcases push_cases crates engine context (single engine context mutation) authorizer nowMs with
    ⟨hk, _⟩ | ⟨_, _, _, he⟩
  · rw [hkept] at hk
    cases hk
  · exact he

def Serializes (crates : Crates) : Prop :=
  (∀ value, (crates.valueToString value).isSome) ∧
    ∀ mutation, (crates.mutationToVec mutation).isSome

def takeover (mutationId table : String) (values : JsonMap) : ClientMutation :=
  ⟨mutationId, table, .string "k", .upsert, values, none, none⟩

theorem mutationTarget_takeover (hserde : Serializes crates) {mutationId table : String}
    {values : JsonMap} (hid : mutationId = "1" ∨ mutationId = "2")
    (htable : tableNameAccepted table = true) (hvalues : values ≠ []) :
    ∃ text hash, crates.valueToString (.string "k") = some text ∧
      mutationTarget crates (takeover mutationId table values) =
        .ok (hash, table ++ String.ofList [unitSeparator] ++ text) := by
  obtain ⟨text, htext⟩ := Option.isSome_iff_exists.mp (hserde.1 (.string "k"))
  obtain ⟨payload, hpayload⟩ :=
    Option.isSome_iff_exists.mp (hserde.2 (takeover mutationId table values))
  refine ⟨text, crates.sha256 payload, htext, ?_⟩
  have hvalid : validateMutation (takeover mutationId table values) = .ok () := by
    have hbound : mutationId ≠ "" ∧ mutationId.utf8ByteSize ≤ 200 := by
      rcases hid with rfl | rfl <;> decide
    simp [validateMutation, takeover, htable, hvalues, hbound, Value.isNull]
  simp only [mutationTarget, rowKey, bind_ok_iff, orError_ok_iff, pure_ok_iff]
  exact ⟨(), hvalid, payload, hpayload, _, ⟨text, htext, rfl⟩, rfl⟩

theorem takeover_keys_ne (context context' : SyncContext) (table : String)
    (values values' : JsonMap) :
    idempotencyKey context (takeover "1" table values) ≠
      idempotencyKey context' (takeover "2" table values') := by
  intro h
  have hlast := congrArg (fun key : String => key.toList.getLast?) h
  simp [idempotencyKey_toList, takeover] at hlast

/-- A new engine takes the first mutation, and then the second one whatever its sender:
by the end of time the first receipt is pruned. -/
theorem takeover_applied (projectId : String) (schemaVersion : Nat) {config : SyncConfig}
    (codec : CursorCodec) (hmax : 0 < config.maxIdempotencyRecords) (hserde : Serializes crates)
    {context context' : SyncContext} {authorizer authorizer' : SyncAuthorizer} {table : String}
    {values values' : JsonMap} (htable : tableNameAccepted table = true)
    (hvalues : values ≠ []) (hvalues' : values' ≠ [])
    (hw : authorizer.canWrite context table .upsert values = true)
    (hw' : authorizer'.canWrite context' table .upsert values' = true) :
    let first := singleCall ⟨projectId, schemaVersion, config, codec, .initial⟩ context
      (takeover "1" table values) authorizer (-1)
    let second := singleCall (first.after crates) context' (takeover "2" table values') authorizer'
      Int64.maxValue
    ∃ hash key row receipt,
      mutationTarget crates second.mutation = .ok (hash, key) ∧
      second.prior key = some row ∧ row.deletedAtMs = none ∧ row.values = values ∧
      second.Applied crates receipt := by
  intro first second
  obtain ⟨text, hash, htext, ht⟩ := mutationTarget_takeover hserde (.inl rfl) htable hvalues
  obtain ⟨text', hash', htext', ht'⟩ := mutationTarget_takeover hserde (.inr rfl) htable hvalues'
  rw [htext] at htext'
  cases htext'
  have hfirst := first.applied_of ht hw rfl hmax
  obtain ⟨_, _, ht'', _, _, hafter⟩ := hfirst.cases
  rw [show first.mutation = takeover "1" table values from rfl, ht] at ht''
  cases ht''
  let key := table ++ String.ofList [unitSeparator] ++ text
  have hprior : second.prior key = some (writtenRow (takeover "1" table values) none 1 (-1)) := by
    simp only [second, singleCall, Call.prior, callOn_engine, hafter]
    exact Std.ExtTreeMap.getElem?_insert_self
  have hstored : second.engine.state.idempotency = (∅ : Std.ExtTreeMap String IdempotencyRecord).insert
      first.key ⟨hash, mutationReceipt (takeover "1" table values) none 1, -1⟩ := by
    simp only [second, singleCall, callOn_engine, hafter]
    rfl
  have hconfig : second.engine.config = config := Call.after_config first
  have hlate : (-1 : Int64) < Saturating.sub Int64.maxValue config.idempotencyRetentionMs :=
    Int64.lt_of_lt_of_le (by decide) (sub_maxValue_nonneg _)
  refine ⟨hash', key, _, _, ht', hprior, rfl, rfl, second.applied_of ht' hw' ?_ ?_⟩
  · rw [hstored, Std.ExtTreeMap.getElem?_insert, if_neg]
    · rfl
    · rw [compare_eq_iff_eq]
      exact takeover_keys_ne context context' table values values'
  · have hpruned : (pruneIdempotency second.engine.config second.engine.state
        second.nowMs).idempotency = ∅ := by
      refine Std.ExtTreeMap.ext_getElem? fun k => ?_
      simp only [pruneIdempotency, hstored, Std.ExtTreeMap.getElem?_filter',
        Std.ExtTreeMap.getElem?_insert]
      split
      · have hnow : second.nowMs = Int64.maxValue := rfl
        rw [hconfig, hnow]
        simpa using hlate
      · rfl
    rw [hpruned, Std.ExtTreeMap.size_empty, hconfig]
    exact hmax

/-- A policy that tells writers apart is defeated by two pushes. -/
theorem indiscriminate_of_upsertAuthority {engine : SyncEngine} {policies : SyncAuthorizer → Prop}
    (hfresh : engine.state = .initial)
    (haccepted : configurationAccepted engine.projectId engine.schemaVersion
      engine.cursorCodec.secret engine.config = true) (hserde : Serializes crates)
    (h : ∀ ops, JudgedBy policies ops → UpsertAuthority crates engine ops) :
    Indiscriminate engine policies := by
  rintro context authorizer table values values' hv hpolicy hvalues' hw
    ⟨owner, ownerPolicy, hvOwner, hpolicyOwner, htable, hvalues, hwOwner⟩
  have hlimits : engine.config.maxPushMutations ≠ 0 ∧ 0 < engine.config.maxIdempotencyRecords := by
    simp only [configurationAccepted, Bool.and_eq_true, decide_eq_true_eq] at haccepted
    exact ⟨by tauto, by omega⟩
  obtain ⟨projectId, schemaVersion, config, codec, state⟩ := engine
  subst hfresh
  let fresh : SyncEngine := ⟨projectId, schemaVersion, config, codec, .initial⟩
  let first := singleCall fresh owner (takeover "1" table values) ownerPolicy (-1)
  let second := singleCall (first.after crates) context (takeover "2" table values') authorizer
    Int64.maxValue
  let ops : List Op :=
    [.push owner (single fresh owner (takeover "1" table values)) ownerPolicy (-1),
     .push context (single (first.after crates) context (takeover "2" table values')) authorizer
       Int64.maxValue]
  obtain ⟨hash, key, row, receipt, ht, hprior, hlive, hrow, happlied⟩ :=
    takeover_applied projectId schemaVersion codec hlimits.2 hserde htable hvalues hvalues' hwOwner hw
  obtain ⟨_, hstep⟩ := single_push crates fresh (takeover "1" table values) ownerPolicy (-1) hvOwner
    hlimits.1
  have hframe : (first.after crates).projectId = projectId := by
    rw [Call.after_eq]
    rfl
  obtain ⟨hcalls, _⟩ := single_push crates (first.after crates) (takeover "2" table values') authorizer
    Int64.maxValue ((verifyContext_congr hframe context).trans hv) (by rw [Call.after_config]; exact hlimits.1)
  have hjudged : JudgedBy policies ops := by
    intro context' batch authorizer' nowMs hmem
    simp only [ops, List.mem_cons, Op.push.injEq, List.not_mem_nil, or_false] at hmem
    rcases hmem with ⟨_, _, rfl, _⟩ | ⟨_, _, rfl, _⟩
    · exact hpolicyOwner
    · exact hpolicy
  have hmem : second ∈ fresh.runCalls crates ops := by
    simp only [SyncEngine.runCalls, ops, Machine.trace, hstep, List.mem_append]
    exact .inr (.inl (by rw [hcalls]; exact List.mem_singleton_self _))
  have hauthority := (h ops hjudged second hmem receipt hash key row happlied rfl ht hprior hlive).1
  rw [hrow] at hauthority
  exact hauthority

/-- Over all runs from a new engine, or from one whose rows were written under the
policies, upserts have authority over the rows they replace exactly when the policies do
not tell writers apart. -/
theorem upsert_authority_iff_indiscriminate (hserde : Serializes crates) (projectId : String)
    (schemaVersion : Nat) (secret : Bytes) (config : SyncConfig) (engine : SyncEngine)
    (hnew : SyncEngine.new projectId schemaVersion secret config = .ok engine)
    (policies : SyncAuthorizer → Prop) :
    (∀ start, Started crates start → start.projectId = projectId → Owned policies start →
      ∀ ops, JudgedBy policies ops → UpsertAuthority crates start ops) ↔
    Indiscriminate engine policies := by
  have hstarted : Started crates engine := .inl ⟨projectId, schemaVersion, secret, config, hnew⟩
  have haccepted := hstarted.accepted
  simp only [SyncEngine.new, bind_ok_iff, pure_ok_iff] at hnew
  obtain ⟨_, _, rfl⟩ := hnew
  constructor
  · intro h
    refine indiscriminate_of_upsertAuthority rfl haccepted hserde (h _ hstarted rfl ?_)
    intro key row hrow
    cases hrow
  · rintro hpolicies start _ hproject howned ops hjudged
    refine upsertAuthority_of_indiscriminate howned ?_ hjudged
    intro context authorizer table values values' hv hpolicy hvalues' hw hwritable
    exact hpolicies context authorizer table values values'
      ((verifyContext_congr hproject context).symm.trans hv) hpolicy hvalues' hw
      (hwritable.congr hproject.symm)

section Runs

def ownersOnly : SyncAuthorizer where
  canRead _ _ _ := true
  canWrite context _ _ values := values.any fun (name, value) =>
    name = "owner" && value = .string context.subject

def judgedPush (context : SyncContext) (mutation : ClientMutation) (nowMs : Int64) : Op :=
  .push context (sampleBatch context.trustedClientId [mutation]) ownersOnly nowMs

def takenOver : List Op :=
  [judgedPush alice (sampleUpsert "m1" "a" "alice") 0,
   judgedPush bob (sampleUpsert "m2" "a" "bob") 1]

def takenOverCrates : Crates :=
  .listing [sampleEngine.claims alice 1 0, sampleEngine.claims bob 2 1] []

theorem takenOver_call :
    ∃ call ∈ sampleEngine.runCalls takenOverCrates takenOver,
      call.result takenOverCrates = .ok ⟨"m2", 2, 2, .applied⟩ ∧
      call.mutation.operation = .upsert ∧
      ∃ target, (mutationTarget takenOverCrates call.mutation).toOption = some target ∧
        ∃ row, call.prior target.2 = some row ∧ row.deletedAtMs = none ∧
          call.authorizer.canWrite call.context call.mutation.table .upsert row.values = false := by
  decide +kernel

/-- Bob may not write Alice's row, and yet he takes it over. -/
theorem upsert_takes_over_foreign_row :
    Started takenOverCrates sampleEngine ∧ Owned (· = ownersOnly) sampleEngine ∧
    JudgedBy (· = ownersOnly) takenOver ∧
    ¬ UpsertAuthority takenOverCrates sampleEngine takenOver := by
  refine ⟨sampleEngine_started _, ?_, ?_, fun h => ?_⟩
  · intro key row hrow
    cases hrow
  · intro context batch authorizer nowMs hmem
    simp only [takenOver, judgedPush, List.mem_cons, Op.push.injEq, List.not_mem_nil,
      or_false] at hmem
    rcases hmem with ⟨_, _, rfl, _⟩ | ⟨_, _, rfl, _⟩ <;> rfl
  · obtain ⟨call, hmem, hresult, hop, ⟨hash, key⟩, ht, row, hprior, hlive, hdenied⟩ := takenOver_call
    have htarget : mutationTarget takenOverCrates call.mutation = .ok (hash, key) := by
      cases hm : mutationTarget takenOverCrates call.mutation with
      | error error => simp [hm, Except.toOption] at ht
      | ok target => simpa [hm, Except.toOption] using ht
    have hauthority := (h call hmem _ hash key row ⟨hresult, rfl⟩ hop htarget hprior hlive).1
    rw [hdenied] at hauthority
    cases hauthority

def totalCrates : Crates :=
  { Crates.listing [] [] with
    valueToString := fun value => some ((renderValue value).getD "0.5")
    mutationToVec := fun mutation => some (utf8 ((renderMutation mutation).getD "0.5")) }

/-- A policy that lets everybody write. -/
theorem upsert_authority_of_allowAll :
    Indiscriminate sampleEngine (· = allowAll) ∧
    ((∀ start, Started totalCrates start → start.projectId = "p" → Owned (· = allowAll) start →
      ∀ ops, JudgedBy (· = allowAll) ops → UpsertAuthority totalCrates start ops) ↔
    Indiscriminate sampleEngine (· = allowAll)) := by
  refine ⟨?_, upsert_authority_iff_indiscriminate ⟨fun _ => rfl, fun _ => rfl⟩ "p" 1 sampleSecret
    sampleConfig sampleEngine rfl (· = allowAll)⟩
  rintro context authorizer table values values' _ rfl _ _ _
  rfl

end Runs

end Ffdb.Sync
