import Ffdb.Sync.Checkpoint

/-! Exactly-once pushes. A stored receipt answers every repetition until its retention
ends; who it answers is decided by a joined key, so the key has to be readable back. -/
namespace Ffdb.Sync
open Saturating Fallible
variable (crates : Crates)

def triple (context : SyncContext) (mutation : ClientMutation) : String × String × String :=
  (context.subject, context.trustedClientId, mutation.mutationId)

def SyncEngine.attempts (engine : SyncEngine) : Op → List Call
  | .push context batch authorizer nowMs =>
    match engine.verifyContext context,
        validateBatch batch context engine.schemaVersion engine.config.maxPushMutations with
    | .ok _, .ok _ =>
      batchCalls crates context engine.allocateTransactionId.1 authorizer nowMs batch.mutations
        engine.allocateTransactionId.2
    | _, _ => []
  | _ => []

def Call.key (call : Call) : String := idempotencyKey call.context call.mutation

def Call.Applied (call : Call) (receipt : MutationReceipt) : Prop :=
  call.result crates = .ok receipt ∧ receipt.outcome = .applied

def Call.Permitted (call : Call) : Prop :=
  ∃ hash key, mutationTarget crates call.mutation = .ok (hash, key) ∧
    call.authorizer.canWrite call.context call.mutation.table call.mutation.operation
      (authorizationRow call.mutation (call.prior key)) = true

def DigestsDiffer (mutation mutation' : ClientMutation) : Prop :=
  ∀ hash key hash' key', mutationTarget crates mutation = .ok (hash, key) →
    mutationTarget crates mutation' = .ok (hash', key') → hash ≠ hash'

/-- No operation comes so late that a receipt of time `committedAt` may be pruned. -/
def WithinRetention (config : SyncConfig) (committedAt : Int64) (ops : List Op) : Prop :=
  ∀ op ∈ ops, op.nowMs.toInt-config.idempotencyRetentionMs.toInt ≤ committedAt.toInt

/-- The push reports this one receipt and leaves rows, events and sequences alone. -/
def UnchangedBy (engine : SyncEngine) (context : SyncContext) (batch : PushBatch)
    (authorizer : SyncAuthorizer) (nowMs : Int64) (receipt : MutationReceipt) : Prop :=
  (∀ result, (engine.push crates context batch authorizer nowMs).1 = .ok result →
    result.accepted = [receipt]) ∧
  (engine.push crates context batch authorizer nowMs).2.state.rows = engine.state.rows ∧
  (engine.push crates context batch authorizer nowMs).2.state.events = engine.state.events ∧
  (engine.push crates context batch authorizer nowMs).2.state.nextSequence =
    engine.state.nextSequence

/-- Exactly-once over one run. Repetitions are answered from the receipt, reuse of the
identifier is refused, a push of nothing but a repetition changes no row, event or
sequence, and a receipt only ever answers the triple it was written for. -/
structure ExactlyOnce (start : SyncEngine) (ops : List Op) : Prop where
  answered : ∀ before first mid context batch authorizer nowMs after call receipt,
    ops = before ++ first :: (mid ++ .push context batch authorizer nowMs :: after) →
    call ∈ (start.run crates before).calls crates first → call.Applied crates receipt →
    WithinRetention start.config call.nowMs (mid ++ [.push context batch authorizer nowMs]) →
    context.subject = call.context.subject →
    context.trustedClientId = call.context.trustedClientId →
    ∀ again ∈ (start.run crates (before ++ first :: mid)).attempts crates
        (.push context batch authorizer nowMs),
      again.Permitted crates →
      (again.mutation = call.mutation →
        again.result crates = .ok { receipt with outcome := .alreadyApplied } ∧
          again.after crates = again.engine) ∧
      (again.mutation.mutationId = call.mutation.mutationId →
        DigestsDiffer crates call.mutation again.mutation →
        again.result crates = .error .mutationIdReused ∧ again.after crates = again.engine) ∧
      (batch.mutations = [call.mutation] → again.mutation = call.mutation →
        UnchangedBy crates (start.run crates (before ++ first :: mid)) context batch authorizer
          nowMs { receipt with outcome := .alreadyApplied })
  distinct : ∀ before op after, ops = before ++ op :: after →
    ∀ call ∈ (start.run crates before).attempts crates op, ∀ record,
      call.engine.state.idempotency[call.key]? = some record →
      start.state.idempotency[call.key]? = some record ∨
      ∃ earlier ∈ start.runCalls crates before ++ (start.run crates before).attempts crates op,
        earlier.Applied crates record.receipt ∧
        triple earlier.context earlier.mutation = triple call.context call.mutation

variable {crates}

/-- An attempt belongs to a push whose context was verified. -/
theorem attempts_cases {engine : SyncEngine} {op : Op} {call : Call}
    (h : call ∈ engine.attempts crates op) :
    ∃ context batch authorizer nowMs, op = .push context batch authorizer nowMs ∧
      engine.verifyContext context = .ok () ∧
      engine.attempts crates op = batchCalls crates context engine.allocateTransactionId.1
        authorizer nowMs batch.mutations engine.allocateTransactionId.2 := by
  cases op with
  | push context batch authorizer nowMs =>
    refine ⟨context, batch, authorizer, nowMs, rfl, ?_⟩
    simp only [SyncEngine.attempts] at h ⊢
    split at h
    · next u _ hv hb => exact ⟨hv, rfl⟩
    · simp at h
  | invalidate reason newSchemaVersion nowMs => simp [SyncEngine.attempts] at h
  | compact nowMs => simp [SyncEngine.attempts] at h

theorem calls_subset_attempts {engine : SyncEngine} {op : Op} {call : Call}
    (h : call ∈ engine.calls crates op) : call ∈ engine.attempts crates op := by
  cases op with
  | push context batch authorizer nowMs =>
    simp only [SyncEngine.calls] at h
    rcases push_cases crates engine context batch authorizer nowMs with ⟨hk, _⟩ | ⟨hv, hb, hk, _⟩
    · simp [hk] at h
    · simp only [SyncEngine.attempts, hv, hb]
      rwa [hk] at h
  | invalidate reason newSchemaVersion nowMs => simp [SyncEngine.calls] at h
  | compact nowMs => simp [SyncEngine.calls] at h

/-- A push that succeeds keeps everything it attempted. -/
theorem keptCalls_of_ok {engine : SyncEngine} {context : SyncContext} {batch : PushBatch}
    {authorizer : SyncAuthorizer} {nowMs : Int64} {result : PushResult}
    (h : (engine.push crates context batch authorizer nowMs).1 = .ok result) :
    engine.keptCalls crates context batch authorizer nowMs =
      engine.attempts crates (.push context batch authorizer nowMs) := by
  simp only [SyncEngine.keptCalls, SyncEngine.attempts, h]
  cases engine.verifyContext context with
  | error error => rfl
  | ok u =>
    cases validateBatch batch context engine.schemaVersion engine.config.maxPushMutations with
    | error error => rfl
    | ok u' => cases batch.mode <;> rfl

/-- A push of one mutation whose call changes nothing. -/
theorem unchangedBy_of_call {engine : SyncEngine} {context : SyncContext} {batch : PushBatch}
    {authorizer : SyncAuthorizer} {nowMs : Int64} {mutation : ClientMutation} {call : Call}
    {receipt : MutationReceipt} (hbatch : batch.mutations = [mutation])
    (hcall : call ∈ engine.attempts crates (.push context batch authorizer nowMs))
    (hresult : call.result crates = .ok receipt) (hafter : call.after crates = call.engine) :
    UnchangedBy crates engine context batch authorizer nowMs receipt := by
  obtain ⟨context', batch', authorizer', nowMs', hop, _, hattempts⟩ := attempts_cases hcall
  cases hop
  have hcalls : batchCalls crates context engine.allocateTransactionId.1 authorizer nowMs
      batch.mutations engine.allocateTransactionId.2 =
      [callOn context engine.allocateTransactionId.1 authorizer nowMs
        engine.allocateTransactionId.2 mutation] := by
    rw [hbatch]
    rfl
  rw [hattempts, hcalls, List.mem_singleton] at hcall
  subst hcall
  have hend : batchEngine crates context engine.allocateTransactionId.1 authorizer nowMs
      batch.mutations engine.allocateTransactionId.2 = engine.allocateTransactionId.2 := by
    rw [hbatch]
    exact hafter
  refine ⟨fun result hok => ?_, ?_⟩
  · rw [push_accepted crates hok, keptCalls_of_ok hok, hattempts, hcalls,
      receipts_cons_ok crates hresult]
    rfl
  · rcases push_cases crates engine context batch authorizer nowMs with ⟨_, he⟩ | ⟨_, _, _, he⟩
    · rw [he]
      exact ⟨rfl, rfl, rfl⟩
    · rw [he, hend]
      exact ⟨rfl, rfl, rfl⟩

/-- What a call that committed has passed and done. -/
theorem Call.Applied.cases {call : Call} {receipt : MutationReceipt}
    (h : call.Applied crates receipt) :
    ∃ hash key, mutationTarget crates call.mutation = .ok (hash, key) ∧
      call.authorizer.canWrite call.context call.mutation.table call.mutation.operation
        (authorizationRow call.mutation (call.prior key)) = true ∧
      receipt = mutationReceipt call.mutation (call.prior key) call.engine.state.nextSequence ∧
      call.after crates = { call.engine with
        state := commitMutation call.engine call.context call.transactionId call.mutation hash key
          (call.prior key) call.nowMs } := by
  obtain ⟨hresult, houtcome⟩ := h
  rcases call.cases crates with ⟨error, hr, _⟩ | ⟨hash, key, record, _, _, _, _, hr, _⟩ |
    ⟨hr, _⟩ | ⟨hash, key, ht, hw, _, _, hr, ha⟩
  · rw [hr] at hresult
    cases hresult
  · rw [hr] at hresult
    cases hresult
    cases houtcome
  · rw [hr] at hresult
    cases hresult
  · rw [hr] at hresult
    cases hresult
    exact ⟨hash, key, ht, hw, rfl, ha⟩

theorem Call.Applied.stored {call : Call} {receipt : MutationReceipt}
    (h : call.Applied crates receipt) :
    ∃ hash key, mutationTarget crates call.mutation = .ok (hash, key) ∧
      (call.after crates).state.idempotency[call.key]? = some ⟨hash, receipt, call.nowMs⟩ := by
  obtain ⟨hash, key, ht, _, rfl, ha⟩ := h.cases
  refine ⟨hash, key, ht, ?_⟩
  rw [ha]
  exact Std.ExtTreeMap.getElem?_insert_self

def Holds (key : String) (record : IdempotencyRecord) (e f : SyncEngine) : Prop :=
  f.config = e.config ∧
    (e.state.idempotency[key]? = some record → f.state.idempotency[key]? = some record)

theorem getElem?_prune {config : SyncConfig} (state : EngineState) {nowMs : Int64} {key : String}
    {record : IdempotencyRecord} (hstored : state.idempotency[key]? = some record)
    (htime : Saturating.sub nowMs config.idempotencyRetentionMs ≤ record.committedAtMs) :
    (pruneIdempotency config state nowMs).idempotency[key]? = some record := by
  simp [pruneIdempotency, hstored, htime]

/-- Operations within the retention of a record keep it: pruning spares it, and its key
is never written again. -/
theorem holds_related (crates : Crates) (config : SyncConfig) (key : String) (record : IdempotencyRecord) :
    Related crates
      (fun nowMs => Saturating.sub nowMs config.idempotencyRetentionMs ≤ record.committedAtMs)
      (fun _ => ([] : List Unit)) (fun _ _ => [])
      (fun e _ f => e.config = config → Holds key record e f) where
  refl _ _ := ⟨rfl, id⟩
  trans hl hr hconfig := by
    obtain ⟨hconfigl, hl⟩ := hl hconfig
    obtain ⟨hconfigr, hr⟩ := hr (hconfigl.trans hconfig)
    exact ⟨hconfigr.trans hconfigl, fun h => hr (hl h)⟩
  ticket _ _ := ⟨rfl, id⟩
  call call htime hconfig := by
    subst hconfig
    refine ⟨call.after_config, fun hstored => ?_⟩
    rcases call.cases crates with ⟨_, _, ha⟩ | ⟨_, _, _, _, _, _, _, _, ha⟩ | ⟨_, ha⟩ |
      ⟨hash, rowkey, _, _, hnone, _, _, ha⟩
    · rwa [ha]
    · rwa [ha]
    · rw [ha]
      exact getElem?_prune _ hstored htime
    · rw [ha]
      have hne : idempotencyKey call.context call.mutation ≠ key := by
        rintro rfl
        rw [hnone] at hstored
        cases hstored
      have hpruned := getElem?_prune _ hstored htime
      simpa [commitMutation, Std.ExtTreeMap.getElem?_insert, hne] using hpruned
  announced _ _ _ _ _ _ _ := ⟨rfl, id⟩
  compact engine nowMs htime hconfig := by
    subst hconfig
    exact ⟨rfl, fun hstored => getElem?_prune { engine.state with
      minimumAvailableSequence := _, events := _, rows := _ } hstored htime⟩

/-- A call that finds a record under its key answers from it or refuses. -/
theorem Call.result_of_record {call : Call} {record : IdempotencyRecord} {hash : Bytes}
    {key : String} (ht : mutationTarget crates call.mutation = .ok (hash, key))
    (hw : call.authorizer.canWrite call.context call.mutation.table call.mutation.operation
      (authorizationRow call.mutation (call.prior key)) = true)
    (hrecord : call.engine.state.idempotency[call.key]? = some record) :
    call.after crates = call.engine ∧
    call.result crates = if record.payloadHash = hash then
        .ok { record.receipt with outcome := .alreadyApplied }
      else .error .mutationIdReused := by
  unfold Call.prior at hw
  unfold Call.key at hrecord
  unfold Call.after Call.result SyncEngine.applyMutation
  simp only [ht, hw, if_true, hrecord]
  split
  · exact ⟨rfl, rfl⟩
  · exact ⟨rfl, rfl⟩

section Run
variable {start : SyncEngine}

theorem run_framed (hstart : Started crates start) (ops : List Op) :
    Framed start (start.run crates ops) :=
  ((framed_preserved crates start).run start ops
    ⟨rfl, rfl, rfl, schemaVersion_ne_zero_of_accepted hstart.accepted⟩).1

theorem Started.retention_pos (hstart : Started crates start) :
    0 < start.config.idempotencyRetentionMs.toInt := by
  have h := hstart.accepted
  simp only [configurationAccepted, Bool.and_eq_true, decide_eq_true_eq] at h
  exact Int64.lt_iff_toInt_lt.mp h.1.2

/-- The receipt of an applied call is in the state the operation leaves. -/
theorem stored_after_step (hstart : Started crates start) {before : List Op} {first : Op}
    {call : Call} {receipt : MutationReceipt}
    (hcall : call ∈ (start.run crates before).calls crates first)
    (happlied : call.Applied crates receipt) :
    ∃ hash key, mutationTarget crates call.mutation = .ok (hash, key) ∧
      (start.run crates (before ++ [first])).state.idempotency[call.key]? =
        some ⟨hash, receipt, call.nowMs⟩ := by
  obtain ⟨hash, key, ht, hstored⟩ := happlied.stored
  refine ⟨hash, key, ht, ?_⟩
  rw [run_append]
  have hconfig : (start.run crates before).config = start.config := (run_framed hstart before).2.1
  cases first with
  | invalidate reason newSchemaVersion nowMs => simp [SyncEngine.calls] at hcall
  | compact nowMs => simp [SyncEngine.calls] at hcall
  | push context batch authorizer nowMs =>
    simp only [SyncEngine.calls] at hcall
    change ((start.run crates before).push crates context batch authorizer
      nowMs).2.state.idempotency[call.key]? = _
    rcases push_cases crates (start.run crates before) context batch authorizer nowMs with
      ⟨hk, _⟩ | ⟨_, _, hk, he⟩
    · simp [hk] at hcall
    · rw [hk] at hcall
      rw [he]
      obtain ⟨earlier, mutation, later, hsplit, rfl⟩ := mem_batchCalls hcall
      have htime : Saturating.sub nowMs start.config.idempotencyRetentionMs ≤ nowMs := by
        have hpos := hstart.retention_pos
        exact sub_le_of_toInt_sub_le (by omega)
      have hrelated := holds_related crates start.config
        (idempotencyKey context mutation) ⟨hash, receipt, nowMs⟩
      have hearlier := (hrelated.batch context (start.run crates before).allocateTransactionId.1
        authorizer nowMs htime earlier (start.run crates before).allocateTransactionId.2 hconfig).1
      rw [hsplit, batchEngine_append]
      refine (hrelated.batch context _ authorizer nowMs htime later _ ?_).2 hstored
      exact (Call.after_config _).trans (hearlier.trans hconfig)

/-- Within its retention a record is found by every later attempt of its triple. -/
theorem stored_at_attempt (hstart : Started crates start) {before mid : List Op} {first op : Op}
    {call again : Call} {record : IdempotencyRecord}
    (hstored : (start.run crates (before ++ [first])).state.idempotency[call.key]? = some record)
    (htime : WithinRetention start.config record.committedAtMs (mid ++ [op]))
    (hagain : again ∈ (start.run crates (before ++ first :: mid)).attempts crates op)
    (hkey : again.key = call.key) :
    again.engine.state.idempotency[again.key]? = some record := by
  have hrelated := holds_related crates start.config call.key record
  have hmid : (start.run crates (before ++ first :: mid)).state.idempotency[call.key]? =
      some record := by
    have hsplit : before ++ first :: mid = (before ++ [first]) ++ mid := by simp
    rw [hsplit, run_append]
    refine (hrelated.run _ mid ?_ (run_framed hstart (before ++ [first])).2.1).2 hstored
    exact fun op hop => sub_le_of_toInt_sub_le (htime op (by simp [hop]))
  obtain ⟨context, batch, authorizer, nowMs, rfl, _, hbatch⟩ := attempts_cases hagain
  rw [hbatch] at hagain
  obtain ⟨earlier, mutation, later, _, rfl⟩ := mem_batchCalls hagain
  have hnow := sub_le_of_toInt_sub_le (htime (.push context batch authorizer nowMs) (by simp))
  have hearlier := hrelated.batch context
    (start.run crates (before ++ first :: mid)).allocateTransactionId.1 authorizer nowMs hnow
    earlier (start.run crates (before ++ first :: mid)).allocateTransactionId.2
    (run_framed hstart (before ++ first :: mid)).2.1
  rw [hkey, callOn_engine]
  exact hearlier.2 hmid

end Run

def Provenance (crates : Crates) (e : SyncEngine) (calls : List Call) (f : SyncEngine) : Prop :=
  ∀ (key : String) record, f.state.idempotency[key]? = some record →
    e.state.idempotency[key]? = some record ∨
    ∃ call ∈ calls, call.Applied crates record.receipt ∧ call.key = key

theorem getElem?_of_prune {config : SyncConfig} (state : EngineState) {nowMs : Int64}
    {key : String} {record : IdempotencyRecord}
    (h : (pruneIdempotency config state nowMs).idempotency[key]? = some record) :
    state.idempotency[key]? = some record := by
  simp only [pruneIdempotency, Std.ExtTreeMap.getElem?_filter', Option.filter_eq_some_iff] at h
  exact h.1

theorem provenance_related (crates : Crates) :
    Related crates (fun _ => True) (fun call => [call]) (fun _ _ => []) (Provenance crates) where
  refl _ _ _ h := .inl h
  trans hl hr key record h := by
    rcases hr key record h with h | ⟨call, hm, hcall⟩
    · rcases hl key record h with h | ⟨call, hm, hcall⟩
      · exact .inl h
      · exact .inr ⟨call, List.mem_append_left _ hm, hcall⟩
    · exact .inr ⟨call, List.mem_append_right _ hm, hcall⟩
  ticket _ _ _ h := .inl h
  call call _ key record h := by
    rcases call.cases crates with ⟨_, _, ha⟩ | ⟨_, _, _, _, _, _, _, _, ha⟩ | ⟨_, ha⟩ |
      ⟨hash, rowkey, _, _, _, _, hr, ha⟩
    · rw [ha] at h
      exact .inl h
    · rw [ha] at h
      exact .inl h
    · rw [ha] at h
      exact .inl (getElem?_of_prune _ h)
    · rw [ha] at h
      simp only [commitMutation, Std.ExtTreeMap.getElem?_insert, compare_eq_iff_eq] at h
      split at h
      · next hkey =>
        cases h
        exact .inr ⟨call, List.mem_singleton_self _, ⟨hr, rfl⟩, hkey⟩
      · exact .inl (getElem?_of_prune _ h)
  announced _ _ _ _ _ _ _ _ h := .inl h
  compact engine nowMs _ key record h := .inl (getElem?_of_prune { engine.state with
    minimumAvailableSequence := _, events := _, rows := _ } h)

def senderPrefix (context : SyncContext) : List Char :=
  context.subject.toList ++ unitSeparator :: (context.trustedClientId.toList ++ [unitSeparator])

theorem idempotencyKey_toList (context : SyncContext) (mutation : ClientMutation) :
    (idempotencyKey context mutation).toList =
      senderPrefix context ++ mutation.mutationId.toList := by
  simp [idempotencyKey, senderPrefix]

def SyncEngine.senders (engine : SyncEngine) (ops : List Op) : List SyncContext :=
  ops.filterMap fun
    | .push context _ _ _ =>
      match engine.verifyContext context with
      | .ok _ => some context
      | .error _ => none
    | _ => none

/-- No sender's key prefix continues into that of another subject or client. -/
def Unambiguous (contexts : List SyncContext) : Prop :=
  ∀ context ∈ contexts, ∀ context' ∈ contexts, senderPrefix context <+: senderPrefix context' →
    context.subject = context'.subject ∧ context.trustedClientId = context'.trustedClientId

/-- Names without the unit separator are never ambiguous. -/
theorem unambiguous_of_separator_free {contexts : List SyncContext}
    (h : ∀ context ∈ contexts, unitSeparator ∉ context.subject.toList ∧
      unitSeparator ∉ context.trustedClientId.toList) : Unambiguous contexts := by
  rintro context hc context' hc' ⟨rest, hrest⟩
  obtain ⟨hsubject, hclient⟩ := h context hc
  obtain ⟨hsubject', hclient'⟩ := h context' hc'
  simp only [senderPrefix, List.append_assoc, List.cons_append, List.nil_append] at hrest
  obtain ⟨hs, hrest⟩ := Text.append_separator_inj hsubject hsubject' hrest
  obtain ⟨hc, _⟩ := Text.append_separator_inj hclient hclient' hrest
  exact ⟨String.toList_inj.mp hs, String.toList_inj.mp hc⟩

/-- Unambiguous senders are read back from their keys. -/
theorem Unambiguous.triple_eq {contexts : List SyncContext} (h : Unambiguous contexts)
    {context context' : SyncContext} (hc : context ∈ contexts) (hc' : context' ∈ contexts)
    {mutation mutation' : ClientMutation}
    (hkey : idempotencyKey context mutation = idempotencyKey context' mutation') :
    triple context mutation = triple context' mutation' := by
  have hlist := congrArg String.toList hkey
  rw [idempotencyKey_toList, idempotencyKey_toList] at hlist
  have hsender : context.subject = context'.subject ∧
      context.trustedClientId = context'.trustedClientId := by
    rcases List.prefix_or_prefix_of_prefix (List.prefix_append _ _)
        (hlist ▸ List.prefix_append (senderPrefix context') _) with hp | hp
    · exact h context hc context' hc' hp
    · obtain ⟨hs, hclient⟩ := h context' hc' context hc hp
      exact ⟨hs.symm, hclient.symm⟩
  have hsame : senderPrefix context = senderPrefix context' := by
    simp only [senderPrefix, hsender.1, hsender.2]
  rw [hsame, List.append_cancel_left_eq] at hlist
  simp only [triple, hsender.1, hsender.2, String.toList_inj.mp hlist]

section Senders
variable {start : SyncEngine}

/-- Who attempts something in a run is one of its senders. -/
theorem context_mem_senders (hstart : Started crates start) {before after : List Op} {op : Op}
    {call : Call} (hcall : call ∈ (start.run crates before).attempts crates op) :
    call.context ∈ start.senders (before ++ op :: after) := by
  obtain ⟨context, batch, authorizer, nowMs, rfl, hv, hbatch⟩ := attempts_cases hcall
  rw [hbatch] at hcall
  obtain ⟨earlier, mutation, later, _, rfl⟩ := mem_batchCalls hcall
  have hproject : (start.run crates before).projectId = start.projectId :=
    (run_framed hstart before).1
  have hstartv : start.verifyContext context = .ok () := by
    simpa [SyncEngine.verifyContext, hproject] using hv
  refine List.mem_filterMap.mpr ⟨.push context batch authorizer nowMs, by simp, ?_⟩
  simp [hstartv, callOn]

theorem context_mem_senders_of_runCalls (hstart : Started crates start) {before after : List Op}
    {call : Call} (hcall : call ∈ start.runCalls crates before) :
    call.context ∈ start.senders (before ++ after) := by
  obtain ⟨earlier, op, later, rfl, hop⟩ := Machine.mem_trace hcall
  have hmem : call.context ∈ start.senders (earlier ++ op :: (later ++ after)) :=
    context_mem_senders hstart (calls_subset_attempts hop)
  simpa using hmem

/-- What an attempt finds was found at the start or written before it. -/
theorem provenance_at_attempt {before : List Op} {op : Op} {call : Call}
    (hcall : call ∈ (start.run crates before).attempts crates op) :
    Provenance crates start
      (start.runCalls crates before ++ (start.run crates before).attempts crates op)
      call.engine := by
  have hrun := (provenance_related crates).run start before fun _ _ => trivial
  rw [← runCalls_eq_observed] at hrun
  obtain ⟨context, batch, authorizer, nowMs, rfl, _, hbatch⟩ := attempts_cases hcall
  rw [hbatch] at hcall ⊢
  obtain ⟨earlier, mutation, later, hsplit, rfl⟩ := mem_batchCalls hcall
  have hprior := (provenance_related crates).batch context
    (start.run crates before).allocateTransactionId.1 authorizer nowMs trivial earlier
    (start.run crates before).allocateTransactionId.2
  intro key record hstored
  rcases hprior key record hstored with hstored | ⟨call, hmem, hcall⟩
  · rcases hrun key record hstored with hstored | ⟨call, hmem, hcall⟩
    · exact .inl hstored
    · exact .inr ⟨call, List.mem_append_left _ hmem, hcall⟩
  · refine .inr ⟨call, List.mem_append_right _ ?_, hcall⟩
    rw [List.flatMap_singleton'] at hmem
    rw [hsplit, batchCalls, Machine.trace_append]
    exact List.mem_append_left _ hmem

end Senders

/-- In a run whose senders are unambiguous every push is applied exactly once. -/
theorem exactlyOnce_of_unambiguous (start : SyncEngine) (ops : List Op)
    (hstart : Started crates start) (hsenders : Unambiguous (start.senders ops)) :
    ExactlyOnce crates start ops where
  answered before first mid context batch authorizer nowMs after call receipt hsplit hcall happlied
      htime hsubject hclient again hagain hpermitted := by
    obtain ⟨hash, key, ht, hstored⟩ := stored_after_step hstart hcall happlied
    obtain ⟨hash', key', ht', hw⟩ := hpermitted
    have hcontext : again.context = context := by
      obtain ⟨context', batch', authorizer', nowMs', hop, _, hbatch⟩ := attempts_cases hagain
      rw [hbatch] at hagain
      obtain ⟨_, _, _, _, rfl⟩ := mem_batchCalls hagain
      cases hop
      rfl
    have hresult (hid : again.mutation.mutationId = call.mutation.mutationId) :
        again.after crates = again.engine ∧ again.result crates = if hash = hash' then
            .ok { receipt with outcome := .alreadyApplied }
          else .error .mutationIdReused := by
      have hkey : again.key = call.key := by
        simp only [Call.key, idempotencyKey, hcontext, hsubject, hclient, hid]
      exact Call.result_of_record ht' hw (stored_at_attempt hstart hstored htime hagain hkey)
    have hrepeated (hsame : again.mutation = call.mutation) :
        again.result crates = .ok { receipt with outcome := .alreadyApplied } ∧
          again.after crates = again.engine := by
      obtain ⟨hafter, hresult⟩ := hresult (by rw [hsame])
      rw [hsame, ht] at ht'
      cases ht'
      exact ⟨by rw [hresult, if_pos rfl], hafter⟩
    refine ⟨hrepeated, ?_, ?_⟩
    · intro hid hdigests
      obtain ⟨hafter, hresult⟩ := hresult hid
      exact ⟨by rw [hresult, if_neg (hdigests hash key hash' key' ht ht')], hafter⟩
    · intro hbatch hsame
      exact unchangedBy_of_call hbatch hagain (hrepeated hsame).1 (hrepeated hsame).2
  distinct before op after hsplit call hcall record hrecord := by
    subst hsplit
    rcases provenance_at_attempt hcall call.key record hrecord with h | ⟨earlier, hmem, happlied, hkey⟩
    · exact .inl h
    · have hearlier : earlier.context ∈ start.senders (before ++ op :: after) := by
        rcases List.mem_append.mp hmem with hmem | hmem
        · exact context_mem_senders_of_runCalls hstart hmem
        · exact context_mem_senders hstart hmem
      exact .inr ⟨earlier, hmem, happlied,
        hsenders.triple_eq hearlier (context_mem_senders hstart hcall) hkey⟩

section Runs

/-- One mutation sent twice, with another sender's mutation of the same id in between. -/
def repeated : List Op :=
  [pushAs alice (sampleUpsert "m" "1" "alice") 0, pushAs bob (sampleUpsert "m" "2" "bob") 5,
   pushAs alice (sampleUpsert "m" "1" "alice") 10]

def repeatedCrates : Crates :=
  .listing [sampleEngine.claims alice 1 0, sampleEngine.claims bob 2 5,
    sampleEngine.claims alice 2 10] []

theorem exactlyOnce_repeated : ExactlyOnce repeatedCrates sampleEngine repeated :=
  exactlyOnce_of_unambiguous sampleEngine repeated (sampleEngine_started _)
    (unambiguous_of_separator_free (by decide +kernel))

def joined : String := "b" ++ String.ofList [unitSeparator] ++ "c"

def leftSender : SyncContext := sampleContext "a" joined

def rightSender : SyncContext :=
  sampleContext ("a" ++ String.ofList [unitSeparator] ++ "b") "c"

def colliding : List Op :=
  [pushAs leftSender (sampleUpsert "m" "1" "left") 0,
   pushAs rightSender (sampleUpsert "m" "2" "right") 1]

def collidingCrates : Crates :=
  .listing [sampleEngine.claims leftSender 1 0, sampleEngine.claims rightSender 1 1] []

theorem rightSender_finds_foreign_receipt :
    ∃ call ∈ (sampleEngine.run collidingCrates (colliding.take 1)).attempts collidingCrates
        (pushAs rightSender (sampleUpsert "m" "2" "right") 1),
      ∃ record, call.engine.state.idempotency[call.key]? = some record ∧
        sampleEngine.state.idempotency[call.key]? = none ∧
        ∀ earlier ∈ sampleEngine.runCalls collidingCrates (colliding.take 1) ++
            (sampleEngine.run collidingCrates (colliding.take 1)).attempts collidingCrates
              (pushAs rightSender (sampleUpsert "m" "2" "right") 1),
          triple earlier.context earlier.mutation ≠ triple call.context call.mutation ∨
          earlier.result collidingCrates ≠ .ok record.receipt := by
  decide +kernel

/-- Two senders whose joined names agree share their receipts: the second one's mutation
is refused although it was never seen. -/
theorem receipts_collide :
    Started collidingCrates sampleEngine ∧ ¬ ExactlyOnce collidingCrates sampleEngine colliding := by
  refine ⟨sampleEngine_started _, fun h => ?_⟩
  obtain ⟨call, hcall, record, hrecord, hstart, hnone⟩ := rightSender_finds_foreign_receipt
  rcases h.distinct (colliding.take 1) _ [] rfl call hcall record hrecord with
    h | ⟨earlier, hmem, happlied, htriple⟩
  · rw [hstart] at h
    cases h
  · rcases hnone earlier hmem with h | h
    · exact h htriple
    · exact h happlied.1

end Runs

end Ffdb.Sync
