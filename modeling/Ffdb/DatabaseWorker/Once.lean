import Ffdb.Lib.Machine
import Ffdb.Runtime.Frame
import Ffdb.DatabaseWorker.Metered

/-! Metered operations take effect once: the data of a receipt id is committed together with its
receipt, and later requests under the id are answered from it. -/
namespace Ffdb.DatabaseWorker
open Sql Ffdb.Runtime Savepoint Act
variable {δ : Type} {worker : Worker δ}

structure Worker.Guarded (worker : Worker δ) : Prop where
  trusted : ∀ receipts, Trusted worker.sqlite fun store => store.usageReceipts = receipts
  pushes : ∀ receipts auth mutation store, store.usageReceipts = receipts →
    (worker.crates.applySyncMutation auth mutation store).All fun store => store.usageReceipts = receipts

/-- SQLite does what the classifier takes the statement for: it does not end the transaction
behind its back, leaves the receipts, and writes nothing if it is classed as a read. -/
structure Recognised (sqlite : Sqlite (UsageStore δ) QueryResult) (query : QueryRequest) : Prop where
  harmless : Harmless sqlite query.sql
  receipts : ∀ receipts, LeavesAlone sqlite (fun store => store.usageReceipts = receipts)
    ⟨query.sql, query.parameters⟩
  reads : ∀ statementClass, classifyStatement query.sql = .ok statementClass → statementClass.readOnly = true →
    ∀ contents, LeavesAlone sqlite (· = contents) ⟨query.sql, query.parameters⟩

def WorkerOperation.statements : WorkerOperation → List QueryRequest
  | .query statement => [statement]
  | .transaction statements => statements
  | .syncPush _ _ => []

def WorkerRequest.Recognised (worker : Worker δ) (request : WorkerRequest) : Prop :=
  ∀ query ∈ request.operation.statements, DatabaseWorker.Recognised worker.sqlite query

structure Sound (mutating : Bool) (execute : Run (UsageStore δ) (WorkerResponse × Nat × Nat)) : Prop where
  safe : ∀ start, Safe start execute
  receipts : ∀ receipts, Keeps (fun store => store.usageReceipts = receipts) execute
  reads : mutating = false → ∀ contents, Keeps (· = contents) execute

section Executions
variable {request : WorkerRequest} {query : QueryRequest} {start : UsageStore δ}

theorem safe_runQuery (h : Recognised worker.sqlite query) : Safe start (runQuery worker request query) :=
  Safe.execute h.harmless

theorem keeps_runQuery (hguarded : worker.Guarded) (h : Recognised worker.sqlite query)
    (receipts : List StoredUsageReceipt) :
    Keeps (fun store => store.usageReceipts = receipts) (runQuery worker request query) :=
  Keeps.execute (hguarded.trusted receipts) (h.receipts receipts)

theorem readOnly_of_units {sql : List Char} {reads : Nat} (h : statementUsageUnits sql = .ok (reads, 0)) :
    ∀ statementClass, classifyStatement sql = .ok statementClass → statementClass.readOnly = true := by
  intro statementClass hclass
  simp only [statementUsageUnits, hclass, Except.mapError, Fallible.bind_ok_iff, Fallible.pure_ok_iff] at h
  obtain ⟨found, hfound, hunits⟩ := h
  obtain rfl := Except.ok.inj hfound
  by_contra hwrites
  rw [if_neg hwrites] at hunits
  cases hunits

theorem readOnly_runQuery (h : Recognised worker.sqlite query) {reads : Nat}
    (hunits : statementUsageUnits query.sql = .ok (reads, 0)) (contents : UsageStore δ) :
    Keeps (· = contents) (runQuery worker request query) := by
  have hread := readOnly_of_units hunits
  cases hclass : classifyStatement query.sql with
  | error e =>
    simp only [statementUsageUnits, hclass, Except.mapError, Fallible.bind_ok_iff] at hunits
    obtain ⟨_, hfound, -⟩ := hunits
    cases hfound
  | ok statementClass =>
    exact Keeps.execute_read hread (h.reads statementClass hclass (hread statementClass hclass) contents)

theorem sound_query (request : WorkerRequest) (hguarded : worker.Guarded) (h : Recognised worker.sqlite query) {reads writes : Nat}
    (hunits : statementUsageUnits query.sql = .ok (reads, writes)) :
    Sound (decide (writes > 0)) (do
      let result ← runQuery worker request query
      pure (.query (convertResult result query.maxRows), reads, writes)) := by
  refine ⟨fun start => (safe_runQuery h).bind fun _ => Safe.pure _,
    fun receipts => (keeps_runQuery hguarded h receipts).bind fun _ => Keeps.pure _, ?_⟩
  intro hreads contents
  obtain rfl : writes = 0 := by simpa using hreads
  exact (readOnly_runQuery h hunits contents).bind fun _ => Keeps.pure _

section Transaction
variable {K : ∀ {α : Type}, Run (UsageStore δ) α → Prop} {statements : List QueryRequest}

theorem runTransaction_sequential (hK : Sequential K) (h : ∀ query ∈ statements, K (runQuery worker request query))
    (responseBytes : Nat) : K (runTransaction worker request responseBytes statements) := by
  induction statements generalizing responseBytes with
  | nil => exact hK.pure []
  | cons query rest ih =>
    refine hK.bind (h query (by simp)) fun result => ?_
    split
    · exact hK.fail _
    · exact hK.bind (ih (fun query hquery => h query (List.mem_cons_of_mem _ hquery)) _) fun _ => hK.pure _

theorem transactionInCurrentAtomic_sequential (hK : Sequential K)
    (h : ∀ query ∈ statements, K (runQuery worker request query)) :
    K (transactionInCurrentAtomic worker request statements) := by
  refine hK.bind (hK.read _) fun inside => ?_
  split
  · exact hK.fail _
  · exact runTransaction_sequential hK h 0

/-- A transaction that counts no writes has reads alone. -/
theorem reads_of_usageUnits {reads : Nat} (h : usageUnits statements = .ok (reads, 0)) :
    ∀ query ∈ statements, ∃ reads, statementUsageUnits query.sql = .ok (reads, 0) := by
  induction statements generalizing reads with
  | nil => simp
  | cons query rest ih =>
    simp only [usageUnits, Fallible.bind_ok_iff, Fallible.pure_ok_iff, Prod.exists, Prod.mk.injEq] at h
    obtain ⟨first, writes, hfirst, restReads, restWrites, hrest, -, hwrites⟩ := h
    obtain ⟨rfl, rfl⟩ : writes = 0 ∧ restWrites = 0 := by omega
    intro other hother
    obtain rfl | hother := List.mem_cons.mp hother
    · exact ⟨first, hfirst⟩
    · exact ih hrest other hother

theorem sound_transaction (request : WorkerRequest) (hguarded : worker.Guarded)
    (h : ∀ query ∈ statements, Recognised worker.sqlite query)
    {reads writes : Nat} (hunits : usageUnits statements = .ok (reads, writes)) :
    Sound (decide (writes > 0)) (do
      let results ← transactionInCurrentAtomic worker request statements
      pure (.transaction (results.zipWith (fun result query => convertResult result query.maxRows) statements),
        reads, writes)) := by
  refine ⟨?_, ?_, ?_⟩
  · intro start
    exact (transactionInCurrentAtomic_sequential (sequential_safe start) fun query hquery =>
      safe_runQuery (h query hquery)).bind fun _ => Safe.pure _
  · intro receipts
    exact (transactionInCurrentAtomic_sequential (sequential_keeps _) fun query hquery =>
      keeps_runQuery hguarded (h query hquery) receipts).bind fun _ => Keeps.pure _
  · intro hreads contents
    obtain rfl : writes = 0 := by simpa using hreads
    refine (transactionInCurrentAtomic_sequential (sequential_keeps _) fun query hquery => ?_).bind
      fun _ => Keeps.pure _
    obtain ⟨reads, hread⟩ := reads_of_usageUnits hunits query hquery
    exact readOnly_runQuery (h query hquery) hread contents

end Transaction

section Push
variable {auth : AuthContext} {mutations : List SyncMutation}

theorem safe_pushOne (mutation : SyncMutation) : Safe start (pushOne worker auth mutation) := by
  refine (Safe.batch (by simp) (by simp)).bind fun _ => Safe.attempt_bind (Safe.onContents _) ?_ ?_
  · exact fun receipt => (Safe.batch (by simp) (by simp)).bind fun _ => Safe.pure _
  · exact fun e => (batch_heldOrUndone (.inl rfl)).bind fun _ => (Safe.batch (by simp) (by simp)).bind
      fun _ => Safe.pure _

theorem keeps_pushOne (hguarded : worker.Guarded) (receipts : List StoredUsageReceipt) (mutation : SyncMutation) :
    Keeps (fun store => store.usageReceipts = receipts) (pushOne worker auth mutation) := by
  refine (Keeps.batch _).bind fun _ =>
    (Keeps.onContents fun store hstore => hguarded.pushes receipts auth mutation store hstore).attempt.bind
      fun result => ?_
  cases result with
  | ok receipt => exact (Keeps.batch _).bind fun _ => Keeps.pure _
  | error e => exact (Keeps.batch _).bind fun _ => (Keeps.batch _).bind fun _ => Keeps.pure _

theorem pushEach_sequential {K : ∀ {α : Type}, Run (UsageStore δ) α → Prop} (hK : Sequential K)
    (h : ∀ mutation, K (pushOne worker auth mutation)) : K (pushEach worker auth mutations) := by
  induction mutations with
  | nil => exact hK.pure []
  | cons mutation rest ih => exact hK.bind (h mutation) fun _ => hK.bind ih fun _ => hK.pure _

theorem syncApplyMutations_sequential {K : ∀ {α : Type}, Run (UsageStore δ) α → Prop} (hK : Sequential K)
    (hquery : ∀ {α : Type} (f : UsageStore δ → Except RuntimeError α), K (Runtime.query f))
    (h : ∀ auth mutation, K (pushOne worker auth mutation)) (mode : WorkerMode) (schemaVersion : Nat) :
    K (syncApplyMutations worker mode schemaVersion mutations) := by
  refine hK.bind (hK.read _) fun inside => ?_
  split
  · exact hK.fail _
  · cases mode with
    | developer => exact hK.fail _
    | endUser auth =>
      refine hK.bind (hK.read _) fun actual => ?_
      split
      · exact hK.fail _
      · exact hK.bind (pushEach_sequential hK (h auth)) fun _ => hK.bind (hquery _) fun _ => hK.pure _

theorem sound_push (hguarded : worker.Guarded) (mode : WorkerMode) (schemaVersion : Nat)
    (mutations : List SyncMutation) :
    Sound true (do
      let (receipts, cursor) ← syncApplyMutations worker mode schemaVersion mutations
      pure (.syncPush (mutations.zipWith mutationResult receipts) cursor, 0, countFresh receipts)) := by
  refine ⟨?_, ?_, fun h => (nomatch h)⟩
  · intro start
    exact (syncApplyMutations_sequential (sequential_safe start) Safe.query (fun _ => safe_pushOne) mode
      schemaVersion).bind fun _ => Safe.pure _
  · intro receipts
    exact (syncApplyMutations_sequential (sequential_keeps _) Keeps.query
      (fun _ => keeps_pushOne hguarded receipts) mode schemaVersion).bind fun _ => Keeps.pure _

end Push
end Executions
section Block
variable {request : WorkerRequest} {digest : Bytes} {mutating : Bool}
  {execute : Run (UsageStore δ) (WorkerResponse × Nat × Nat)} {session after mid : Session (UsageStore δ)}
  {execution : WorkerExecution}

theorem safe_storeUsageReceipt {start : UsageStore δ} (receipt : StoredUsageReceipt) :
    Safe start (storeUsageReceipt worker receipt) := by
  refine (Safe.read _).bind fun inside => ?_
  split
  · exact Safe.fail _
  · split
    · exact Safe.fail _
    · refine (Safe.read _).bind fun known => ?_
      split
      · exact Safe.fail _
      · refine (Safe.write _).bind fun _ => (Safe.query _).bind fun bytes => ?_
        split
        · exact Safe.fail _
        · exact (Safe.write _).bind fun _ => Safe.pure _

theorem safe_meteredBlock {start : UsageStore δ} (hexecute : Safe start execute) :
    Safe start (meteredBlock worker request digest mutating execute) := by
  refine (Safe.read _).bind fun stored => ?_
  cases stored with
  | some stored =>
    dsimp only
    split
    · exact Safe.fail _
    · split
      · exact (Safe.given _).bind fun _ => (Safe.given _).bind fun _ => Safe.pure _
      · exact hexecute.bind fun _ => Safe.pure _
  | none =>
    exact hexecute.bind fun _ => (Safe.given _).bind fun _ => (safe_storeUsageReceipt _).bind fun _ => Safe.pure _

theorem map_sized {rows : List StoredUsageReceipt} {receipt : StoredUsageReceipt} {bytes : Nat}
    (hnone : ∀ row ∈ rows, row.receiptId ≠ receipt.receiptId) :
    (rows ++ [{ receipt with logicalDatabaseBytes := 0 }]).map (fun stored : StoredUsageReceipt =>
      if stored.receiptId = receipt.receiptId then { stored with logicalDatabaseBytes := bytes } else stored) =
    rows ++ [{ receipt with logicalDatabaseBytes := bytes }] := by
  rw [List.map_append]
  congr 1
  · conv_rhs => rw [← List.map_id rows]
    refine List.map_congr_left fun row hrow => ?_
    rw [if_neg (hnone row hrow)]
    rfl
  · simp

theorem none_of_usageReceipt {store : UsageStore δ} {receiptId : Uuid} (h : store.usageReceipt receiptId = none) :
    ∀ row ∈ store.usageReceipts, row.receiptId ≠ receiptId := by
  intro row hrow
  have := List.find?_eq_none.mp h row hrow
  simpa using this

theorem storeUsageReceipt_ok {receipt : StoredUsageReceipt} {bytes : Nat}
    (h : storeUsageReceipt worker receipt session = (.ok bytes, after)) :
    session.contents.usageReceipt receipt.receiptId = none ∧
    after.contents = { session.contents with
      usageReceipts := session.contents.usageReceipts ++ [{ receipt with logicalDatabaseBytes := bytes }] } := by
  unfold storeUsageReceipt at h
  rw [Act.bind_ok (read_apply ..)] at h
  by_cases hinside : (!session.inAtomic) = true
  · rw [if_pos hinside] at h
    cases congrArg Prod.fst h
  · rw [if_neg hinside] at h
    by_cases hlarge : 2^63 ≤ receipt.reads ∨ 2^63 ≤ receipt.writes
    · rw [if_pos hlarge] at h
      cases congrArg Prod.fst h
    · rw [if_neg hlarge, Act.bind_ok (read_apply ..)] at h
      cases hknown : session.contents.usageReceipt receipt.receiptId with
      | some stored =>
        rw [hknown] at h
        cases congrArg Prod.fst h
      | none =>
        rw [hknown] at h
        refine ⟨rfl, ?_⟩
        obtain ⟨⟨⟩, inserted, hinsert, h₁⟩ := Act.bind_eq_ok h
        obtain ⟨found, afterQuery, hquery, h₂⟩ := Act.bind_eq_ok h₁
        obtain rfl : inserted = afterQuery := congrArg Prod.snd hquery
        by_cases hbytes : 2^63 ≤ found
        · rw [if_pos hbytes] at h₂
          cases congrArg Prod.fst h₂
        · rw [if_neg hbytes] at h₂
          obtain ⟨⟨⟩, updated, hupdate, h₃⟩ := Act.bind_eq_ok h₂
          obtain ⟨rfl, rfl⟩ : found = bytes ∧ updated = after :=
            ⟨Except.ok.inj (congrArg Prod.fst h₃), congrArg Prod.snd h₃⟩
          rw [write_ok hupdate, write_ok hinsert]
          dsimp only
          rw [map_sized (none_of_usageReceipt hknown)]

/-- What an operation that succeeds does: it is answered from the receipt of its id and leaves
the contents, or it is the first of its id and leaves its receipt. -/
inductive Answered (worker : Worker δ) (request : WorkerRequest) (digest : Bytes) (mutating : Bool)
    (execution : WorkerExecution) (before after : UsageStore δ) : Prop
  | again (stored : StoredUsageReceipt) (hstored : before.usageReceipt request.receiptId = some stored)
      (hdigest : stored.requestDigest = digest) (hcontents : after = before)
      (husage : execution.usage = protocolUsageFromStored stored)
      (hresponse : mutating = true → stored.responseJson.bind worker.crates.fromJson = some execution.response)
  | first (row : StoredUsageReceipt) (hnone : before.usageReceipt request.receiptId = none)
      (hid : row.receiptId = request.receiptId) (hdigest : row.requestDigest = digest)
      (hrows : after.usageReceipts = before.usageReceipts ++ [row])
      (husage : execution.usage = protocolUsageFromStored row)
      (hresponse : row.responseJson = if mutating then worker.crates.toJson execution.response else none)
      (hencoded : mutating = true → (worker.crates.toJson execution.response).isSome = true)

theorem meteredBlock_ok (hsound : Sound mutating execute)
    (h : meteredBlock worker request digest mutating execute session.begun = (.ok execution, mid)) :
    Answered worker request digest mutating execution session.contents mid.contents := by
  unfold meteredBlock at h
  rw [Act.bind_ok (read_apply ..)] at h
  have hbegun : session.begun.contents = session.contents := rfl
  rw [hbegun] at h
  cases hstored : session.contents.usageReceipt request.receiptId with
  | some stored =>
    rw [hstored] at h
    dsimp only at h
    by_cases hdigest : stored.requestDigest ≠ digest
    · rw [if_pos hdigest] at h
      cases congrArg Prod.fst h
    · rw [if_neg hdigest] at h
      cases mutating with
      | true =>
        rw [if_pos rfl] at h
        obtain ⟨json, s₁, hjson, h₁⟩ := Act.bind_eq_ok h
        obtain ⟨response, s₂, hresponse, h₂⟩ := Act.bind_eq_ok h₁
        obtain rfl : session.begun = s₁ := congrArg Prod.snd hjson
        obtain rfl : session.begun = s₂ := congrArg Prod.snd hresponse
        obtain ⟨rfl, rfl⟩ : ⟨response, protocolUsageFromStored stored⟩ = execution ∧ session.begun = mid :=
          ⟨Except.ok.inj (congrArg Prod.fst h₂), congrArg Prod.snd h₂⟩
        have hfound : stored.responseJson = some json :=
          (Fallible.orError_ok_iff _ _ _).mp (congrArg Prod.fst hjson)
        have hdecoded : worker.crates.fromJson json = some response :=
          (Fallible.orError_ok_iff _ _ _).mp (congrArg Prod.fst hresponse)
        exact .again stored hstored (not_not.mp hdigest) rfl rfl fun _ => by rw [hfound]; exact hdecoded
      | false =>
        rw [if_neg Bool.false_ne_true] at h
        obtain ⟨⟨response, reads, writes⟩, s₁, hexecute, h₁⟩ := Act.bind_eq_ok h
        obtain ⟨rfl, rfl⟩ : ⟨response, protocolUsageFromStored stored⟩ = execution ∧ s₁ = mid :=
          ⟨Except.ok.inj (congrArg Prod.fst h₁), congrArg Prod.snd h₁⟩
        have hcontents : s₁.connection.All (· = session.contents) :=
          (hsound.reads rfl session.contents).ok (Session.all_begun rfl) hexecute
        exact .again stored hstored (not_not.mp hdigest) hcontents.1 rfl fun h => (nomatch h)
  | none =>
    rw [hstored] at h
    obtain ⟨⟨response, reads, writes⟩, s₁, hexecute, h₁⟩ := Act.bind_eq_ok h
    obtain ⟨json, s₂, hjson, h₂⟩ := Act.bind_eq_ok h₁
    obtain ⟨bytes, s₃, hstore, h₃⟩ := Act.bind_eq_ok h₂
    obtain rfl : s₁ = s₂ := congrArg Prod.snd hjson
    obtain ⟨rfl, rfl⟩ : _ = execution ∧ s₃ = mid :=
      ⟨Except.ok.inj (congrArg Prod.fst h₃), congrArg Prod.snd h₃⟩
    have hreceipts : s₁.connection.All fun store => store.usageReceipts = session.contents.usageReceipts :=
      (hsound.receipts session.contents.usageReceipts).ok (Session.all_begun rfl) hexecute
    obtain ⟨-, hcontents⟩ := storeUsageReceipt_ok hstore
    have hrows : s₃.contents.usageReceipts = _ := congrArg UsageStore.usageReceipts hcontents
    dsimp only at hrows
    rw [show s₁.contents.usageReceipts = session.contents.usageReceipts from hreceipts.1] at hrows
    have hgiven := congrArg Prod.fst hjson
    dsimp only [given_apply] at hgiven
    cases mutating with
    | false =>
      rw [if_neg Bool.false_ne_true] at hgiven
      obtain rfl := Except.ok.inj hgiven
      exact .first _ hstored rfl rfl hrows rfl rfl fun h => (nomatch h)
    | true =>
      rw [if_pos rfl] at hgiven
      cases htext : worker.crates.toJson response with
      | none =>
        rw [htext] at hgiven
        cases hgiven
      | some text =>
        rw [htext] at hgiven
        obtain rfl := Except.ok.inj hgiven
        exact .first _ hstored rfl rfl hrows rfl (by rw [if_pos rfl, htext]) fun _ => by rw [htext]; rfl

end Block
section Handle
variable {request : WorkerRequest} {session : Session (UsageStore δ)}

def WorkerOperation.mutating : WorkerOperation → Bool
  | .query statement =>
    match statementUsageUnits statement.sql with
    | .ok (_, writes) => decide (writes > 0)
    | .error _ => false
  | .transaction statements =>
    match usageUnits statements with
    | .ok (_, writes) => decide (writes > 0)
    | .error _ => false
  | .syncPush _ _ => true

def prechecks (worker : Worker δ) (request : WorkerRequest) : Except WorkerFailure Bytes := do
  match request.operation with
  | .query statement => do
    statement.validate request.limits
    let _ ← statementUsageUnits statement.sql
  | .transaction statements => do
    validateTransaction statements request.limits
    let _ ← usageUnits statements
  | .syncPush _ mutations =>
    Fallible.require (!(mutations.isEmpty || decide (mutations.length > 100))) .invalidBatch
  usageReceiptDigest worker request.mode request.operation

structure Handles (worker : Worker δ) (request : WorkerRequest) (digest : Bytes)
    (execute : Run (UsageStore δ) (WorkerResponse × Nat × Nat)) : Prop where
  eq : handleMetered worker request =
    mapRuntime (atomic worker.sqlite (meteredBlock worker request digest request.operation.mutating execute))
  sound : worker.Guarded → request.Recognised worker → Sound request.operation.mutating execute

theorem given_bind_ok {σ ε α β : Type} {result : Except ε α} {a : α} (h : result = .ok a) (f : α → Act σ ε β) :
    (Act.given result >>= f) = f a := by
  funext s
  rw [h]
  exact Act.bind_ok (given_apply ..)

theorem given_bind_error {σ ε α β : Type} {result : Except ε α} {e : ε} (h : result = .error e)
    (f : α → Act σ ε β) : (Act.given result >>= f) = Act.fail e := by
  funext s
  rw [h]
  exact Act.bind_error (given_apply ..)

theorem executeMeteredOperation_eq {digest : Bytes} {mutating : Bool}
    {execute : Run (UsageStore δ) (WorkerResponse × Nat × Nat)}
    (hdigest : usageReceiptDigest worker request.mode request.operation = .ok digest) :
    executeMeteredOperation worker request mutating execute =
      mapRuntime (atomic worker.sqlite (meteredBlock worker request digest mutating execute)) := by
  unfold executeMeteredOperation
  exact given_bind_ok hdigest _

theorem handles_of_operation {digest : Bytes} {mutating : Bool}
    {execute : Run (UsageStore δ) (WorkerResponse × Nat × Nat)}
    (hdigest : usageReceiptDigest worker request.mode request.operation = .ok digest)
    (hmutating : request.operation.mutating = mutating)
    (hhandle : handleMetered worker request = executeMeteredOperation worker request mutating execute)
    (hsound : worker.Guarded → request.Recognised worker → Sound mutating execute) :
    ∃ execute, Handles worker request digest execute := by
  refine ⟨execute, ?_, ?_⟩
  · rw [hhandle, executeMeteredOperation_eq hdigest, hmutating]
  · rw [hmutating]
    exact hsound

theorem handles_of_prechecks {digest : Bytes} (h : prechecks worker request = .ok digest) :
    ∃ execute, Handles worker request digest execute := by
  unfold prechecks at h
  cases hoperation : request.operation with
  | query statement =>
    simp only [hoperation, Fallible.bind_ok_iff] at h
    obtain ⟨_, hvalid, ⟨reads, writes⟩, hunits, hdigest⟩ := h
    rw [← hoperation] at hdigest
    have hmutating : request.operation.mutating = decide (writes > 0) := by
      simp only [hoperation, WorkerOperation.mutating, hunits]
    refine handles_of_operation hdigest hmutating ?_ fun hguarded hrecognised =>
      sound_query request hguarded (hrecognised statement (by simp [hoperation, WorkerOperation.statements])) hunits
    simp only [handleMetered, hoperation]
    unfold executeMeteredQuery
    rw [given_bind_ok hvalid, given_bind_ok hunits]
  | transaction statements =>
    simp only [hoperation, Fallible.bind_ok_iff] at h
    obtain ⟨_, hvalid, ⟨reads, writes⟩, hunits, hdigest⟩ := h
    rw [← hoperation] at hdigest
    have hmutating : request.operation.mutating = decide (writes > 0) := by
      simp only [hoperation, WorkerOperation.mutating, hunits]
    refine handles_of_operation hdigest hmutating ?_ fun hguarded hrecognised =>
      sound_transaction request hguarded
        (fun query hquery => hrecognised query (by simpa [hoperation, WorkerOperation.statements] using hquery)) hunits
    simp only [handleMetered, hoperation]
    unfold executeMeteredTransaction
    rw [given_bind_ok hvalid, given_bind_ok hunits]
  | syncPush schemaVersion mutations =>
    simp only [hoperation, Fallible.bind_ok_iff] at h
    obtain ⟨_, hvalid, hdigest⟩ := h
    rw [← hoperation] at hdigest
    have hmutating : request.operation.mutating = true := by
      simp only [hoperation, WorkerOperation.mutating]
    refine handles_of_operation hdigest hmutating ?_ fun hguarded _ =>
      sound_push hguarded request.mode schemaVersion mutations
    simp only [handleMetered, hoperation]
    unfold executeMeteredSyncPush
    rw [given_bind_ok hvalid]

theorem refused_of_prechecks {e : WorkerFailure} (h : prechecks worker request = .error e) :
    handleMetered worker request = Act.fail e := by
  unfold prechecks at h
  have hdigest : usageReceiptDigest worker request.mode request.operation = .error e →
      ∀ mutating execute, executeMeteredOperation worker request mutating execute = Act.fail e := by
    intro hfails mutating execute
    exact given_bind_error hfails _
  cases hoperation : request.operation with
  | query statement =>
    simp only [hoperation] at h
    simp only [handleMetered, hoperation]
    unfold executeMeteredQuery
    cases hvalid : statement.validate request.limits with
    | error e' =>
      rw [hvalid] at h
      obtain rfl := Except.error.inj h
      exact given_bind_error rfl _
    | ok u =>
      rw [hvalid] at h
      rw [given_bind_ok rfl]
      cases hunits : statementUsageUnits statement.sql with
      | error e' =>
        rw [hunits] at h
        obtain rfl := Except.error.inj h
        exact given_bind_error rfl _
      | ok units =>
        rw [hunits] at h
        rw [given_bind_ok rfl]
        exact hdigest (hoperation ▸ h) _ _
  | transaction statements =>
    simp only [hoperation] at h
    simp only [handleMetered, hoperation]
    unfold executeMeteredTransaction
    cases hvalid : validateTransaction statements request.limits with
    | error e' =>
      rw [hvalid] at h
      obtain rfl := Except.error.inj h
      exact given_bind_error rfl _
    | ok u =>
      rw [hvalid] at h
      rw [given_bind_ok rfl]
      cases hunits : usageUnits statements with
      | error e' =>
        rw [hunits] at h
        obtain rfl := Except.error.inj h
        exact given_bind_error rfl _
      | ok units =>
        rw [hunits] at h
        rw [given_bind_ok rfl]
        exact hdigest (hoperation ▸ h) _ _
  | syncPush schemaVersion mutations =>
    simp only [hoperation] at h
    simp only [handleMetered, hoperation]
    unfold executeMeteredSyncPush
    cases hvalid : (Fallible.require (!(mutations.isEmpty || decide (mutations.length > 100)))
        WorkerFailure.invalidBatch) with
    | error e' =>
      rw [hvalid] at h
      obtain rfl := Except.error.inj h
      exact given_bind_error rfl _
    | ok u =>
      rw [hvalid] at h
      rw [given_bind_ok rfl]
      exact hdigest (hoperation ▸ h) _ _

end Handle
section Once
variable {request : WorkerRequest} {session after : Session (UsageStore δ)} {execution : WorkerExecution}

theorem mapRuntime_ok {α : Type} {x : Run (UsageStore δ) α} {value : α}
    (h : mapRuntime x session = (.ok value, after)) : x session = (.ok value, after) := by
  obtain ⟨hresult, hstate⟩ := Prod.mk.inj h
  refine Prod.ext ?_ hstate
  cases hx : (x session).1 with
  | error e =>
    rw [hx] at hresult
    cases hresult
  | ok found =>
    rw [hx] at hresult
    exact congrArg Except.ok (Except.ok.inj hresult)

theorem mapRuntime_error {α : Type} {x : Run (UsageStore δ) α} {failure : WorkerFailure}
    (h : mapRuntime x session = (.error failure, after)) :
    ∃ e, failure = .runtime e ∧ x session = (.error e, after) := by
  obtain ⟨hresult, hstate⟩ := Prod.mk.inj h
  cases hx : (x session).1 with
  | error e =>
    rw [hx] at hresult
    exact ⟨e, (Except.error.inj hresult).symm, Prod.ext hx hstate⟩
  | ok found =>
    rw [hx] at hresult
    cases hresult

theorem digest_of_prechecks {digest : Bytes} (h : prechecks worker request = .ok digest) :
    usageReceiptDigest worker request.mode request.operation = .ok digest := by
  unfold prechecks at h
  split at h
  · simp only [Fallible.bind_ok_iff] at h
    obtain ⟨_, -, _, -, hdigest⟩ := h
    exact hdigest
  · simp only [Fallible.bind_ok_iff] at h
    obtain ⟨_, -, _, -, hdigest⟩ := h
    exact hdigest
  · simp only [Fallible.bind_ok_iff] at h
    obtain ⟨_, -, hdigest⟩ := h
    exact hdigest

/-- A request that is answered with an error leaves the session as it was. -/
theorem handleMetered_error (hguarded : worker.Guarded) (hrecognised : request.Recognised worker)
    (hidle : session.connection.Idle) {failure : WorkerFailure}
    (h : handleMetered worker request session = (.error failure, after)) : after = session := by
  cases hprechecks : prechecks worker request with
  | error e =>
    rw [refused_of_prechecks hprechecks] at h
    exact (congrArg Prod.snd h).symm
  | ok digest =>
    obtain ⟨execute, heq, hsound⟩ := handles_of_prechecks hprechecks
    rw [heq] at h
    obtain ⟨e, -, hatomic⟩ := mapRuntime_error h
    exact atomic_error hidle (Safe.begun (safe_meteredBlock ((hsound hguarded hrecognised).safe _))) hatomic

theorem handleMetered_ok (hguarded : worker.Guarded) (hrecognised : request.Recognised worker)
    (hidle : session.connection.Idle) (hfree : session.inAtomic = false)
    (h : handleMetered worker request session = (.ok execution, after)) :
    ∃ digest approved, usageReceiptDigest worker request.mode request.operation = .ok digest ∧
      Answered worker request digest request.operation.mutating execution session.contents after.contents ∧
      after = ⟨⟨after.contents, none⟩, approved, false⟩ ∧
      worker.sqlite.fits after.contents = true ∧ worker.sqlite.valid after.contents = true := by
  cases hprechecks : prechecks worker request with
  | error e =>
    rw [refused_of_prechecks hprechecks] at h
    cases congrArg Prod.fst h
  | ok digest =>
    have hdigest := digest_of_prechecks hprechecks
    obtain ⟨execute, heq, hsound⟩ := handles_of_prechecks hprechecks
    rw [heq] at h
    obtain ⟨mid, hblock, rfl, hfits, hvalid⟩ := atomic_committed hidle hfree (mapRuntime_ok h)
    have hanswered := meteredBlock_ok (hsound hguarded hrecognised) hblock
    exact ⟨digest, mid.approvedSources, hdigest, hanswered, rfl, hfits, hvalid⟩

structure Effect where
  request : WorkerRequest
  execution : WorkerExecution

def effect (worker : Worker δ) (session : Session (UsageStore δ)) (request : WorkerRequest) : List Effect :=
  match (handleMetered worker request session).1 with
  | .ok execution =>
    if (session.contents.usageReceipt request.receiptId).isNone then [⟨request, execution⟩] else []
  | .error _ => []

def next (worker : Worker δ) (session : Session (UsageStore δ)) (request : WorkerRequest) : Session (UsageStore δ) :=
  (handleMetered worker request session).2

structure Effect.Describes (worker : Worker δ) (effect : Effect) (row : StoredUsageReceipt) : Prop where
  id : row.receiptId = effect.request.receiptId
  digest : usageReceiptDigest worker effect.request.mode effect.request.operation = .ok row.requestDigest
  usage : effect.execution.usage = protocolUsageFromStored row
  response : row.responseJson =
    if effect.request.operation.mutating then worker.crates.toJson effect.execution.response else none

structure Consistent (worker : Worker δ) (past : List Effect) (session : Session (UsageStore δ)) : Prop where
  idle : session.connection.Idle
  free : session.inAtomic = false
  rows : List.Forall₂ (Effect.Describes worker) past session.contents.usageReceipts
  distinct : (past.map fun effect => effect.request.receiptId).Nodup
  settled : past ≠ [] → worker.sqlite.fits session.contents = true ∧ worker.sqlite.valid session.contents = true

variable {past : List Effect}

section Rows
variable {rows : List StoredUsageReceipt}

theorem ids_of_rows (h : List.Forall₂ (Effect.Describes worker) past rows) :
    past.map (fun effect => effect.request.receiptId) = rows.map StoredUsageReceipt.receiptId := by
  induction h with
  | nil => rfl
  | cons hrow _ ih => rw [List.map_cons, List.map_cons, hrow.id, ih]

theorem find_of_rows (h : List.Forall₂ (Effect.Describes worker) past rows)
    (hdistinct : (past.map fun effect => effect.request.receiptId).Nodup) {effect : Effect} (heffect : effect ∈ past) :
    ∃ row, rows.find? (·.receiptId = effect.request.receiptId) = some row ∧ effect.Describes worker row := by
  induction h with
  | nil => cases heffect
  | @cons other row rest rows hrow hrest ih =>
    rw [List.map_cons, List.nodup_cons] at hdistinct
    obtain rfl | heffect := List.mem_cons.mp heffect
    · exact ⟨row, by rw [List.find?_cons_of_pos (by simpa using hrow.id)], hrow⟩
    · obtain ⟨found, hfound, hdescribes⟩ := ih hdistinct.2 heffect
      refine ⟨found, ?_, hdescribes⟩
      rw [List.find?_cons_of_neg, hfound]
      simp only [decide_eq_true_eq]
      intro hsame
      refine hdistinct.1 (List.mem_map.mpr ⟨effect, heffect, ?_⟩)
      rw [← hrow.id, hsame]

end Rows

theorem Consistent.stored (h : Consistent worker past session) {effect : Effect} (heffect : effect ∈ past) :
    ∃ row, session.contents.usageReceipt effect.request.receiptId = some row ∧ effect.Describes worker row :=
  find_of_rows h.rows h.distinct heffect

theorem Consistent.step (hguarded : worker.Guarded) (hrecognised : request.Recognised worker)
    (h : Consistent worker past session) :
    Consistent worker (past ++ effect worker session request) (next worker session request) := by
  cases hresult : handleMetered worker request session with
  | mk result after =>
    have hnext : next worker session request = after := congrArg Prod.snd hresult
    cases result with
    | error failure =>
      have hafter := handleMetered_error hguarded hrecognised h.idle hresult
      have heffect : effect worker session request = [] := by
        unfold effect
        rw [hresult]
      rw [hnext, hafter, heffect, List.append_nil]
      exact h
    | ok execution =>
      obtain ⟨digest, approved, hdigest, hanswered, hafter, hfits, hvalid⟩ :=
        handleMetered_ok hguarded hrecognised h.idle h.free hresult
      rw [hnext]
      cases hanswered with
      | again stored hstored _ hcontents =>
        have heffect : effect worker session request = [] := by
          simp only [effect, hresult, hstored, Option.isNone_some, Bool.false_eq_true, if_false]
        rw [heffect, List.append_nil, hafter]
        exact ⟨rfl, rfl, by rw [hcontents]; exact h.rows, h.distinct, fun _ => ⟨hfits, hvalid⟩⟩
      | first row hnone hid hrow hrows husage hresponse =>
        have heffect : effect worker session request = [⟨request, execution⟩] := by
          simp only [effect, hresult, hnone, Option.isNone_none, if_true]
        rw [heffect, hafter]
        refine ⟨rfl, rfl, ?_, ?_, fun _ => ⟨hfits, hvalid⟩⟩
        · change List.Forall₂ _ _ after.contents.usageReceipts
          rw [hrows]
          exact List.rel_append h.rows (.cons ⟨hid, by rw [hrow]; exact hdigest, husage, hresponse⟩ .nil)
        · rw [List.map_append, List.map_singleton]
          refine List.Nodup.append h.distinct (List.nodup_singleton _) ?_
          intro receiptId hmem hsame
          obtain rfl := List.mem_singleton.mp hsame
          rw [ids_of_rows h.rows] at hmem
          obtain ⟨other, hother, hidentical⟩ := List.mem_map.mp hmem
          exact none_of_usageReceipt hnone other hother hidentical

theorem Consistent.run (hguarded : worker.Guarded) {requests : List WorkerRequest}
    (hrecognised : ∀ request ∈ requests, request.Recognised worker) (h : Consistent worker past session) :
    Consistent worker (past ++ Machine.trace (next worker) (effect worker) session requests)
      (Machine.run (next worker) session requests) := by
  induction requests generalizing session past with
  | nil => simpa [Machine.trace, Machine.run] using h
  | cons request rest ih =>
    have hstep := h.step hguarded (hrecognised request (by simp))
    simpa [Machine.trace, Machine.run] using
      ih (fun other hother => hrecognised other (List.mem_cons_of_mem _ hother)) hstep

structure OnceLaws (worker : Worker δ) (past : List Effect) (session : Session (UsageStore δ)) : Prop where
  /-- Every effect has one receipt, and no receipt id has two effects. -/
  rows : List.Forall₂ (Effect.Describes worker) past session.contents.usageReceipts
  distinct : (past.map fun effect => effect.request.receiptId).Nodup
  /-- What changes the database is an effect. -/
  changes : ∀ request, request.Recognised worker → (next worker session request).contents ≠ session.contents →
    effect worker session request ≠ []
  fails : ∀ request failure after, request.Recognised worker →
    handleMetered worker request session = (.error failure, after) → after = session
  /-- A request of the same id and digest changes nothing, is answered with the usage of the
  effect, and if it writes with the response of the effect, as its JSON reads. -/
  replays : ∀ effect ∈ past, ∀ request, request.Recognised worker → request.receiptId = effect.request.receiptId →
    usageReceiptDigest worker request.mode request.operation =
      usageReceiptDigest worker effect.request.mode effect.request.operation →
    ∀ execution after, handleMetered worker request session = (.ok execution, after) →
      after.contents = session.contents ∧ execution.usage = effect.execution.usage ∧
      (request.operation.mutating = true →
        (worker.crates.toJson effect.execution.response).bind worker.crates.fromJson = some execution.response)
  /-- Such a request that writes is answered. -/
  answers : ∀ effect ∈ past, ∀ request digest response, request.receiptId = effect.request.receiptId →
    prechecks worker request = .ok digest →
    usageReceiptDigest worker effect.request.mode effect.request.operation = .ok digest →
    request.operation.mutating = true → effect.request.operation.mutating = true →
    (worker.crates.toJson effect.execution.response).bind worker.crates.fromJson = some response →
      handleMetered worker request session = (.ok ⟨response, effect.execution.usage⟩, session)
  /-- Another digest is refused. -/
  refuses : ∀ effect ∈ past, ∀ request, request.receiptId = effect.request.receiptId →
    usageReceiptDigest worker request.mode request.operation ≠
      usageReceiptDigest worker effect.request.mode effect.request.operation →
    ∃ failure, handleMetered worker request session = (.error failure, session) ∧
      ∀ digest, prechecks worker request = .ok digest → failure = .runtime .usageReceiptConflict

theorem meteredBlock_conflict {digest : Bytes} {mutating : Bool}
    {execute : Run (UsageStore δ) (WorkerResponse × Nat × Nat)} {stored : StoredUsageReceipt}
    (hstored : session.contents.usageReceipt request.receiptId = some stored)
    (hdigest : stored.requestDigest ≠ digest) :
    meteredBlock worker request digest mutating execute session.begun =
      (.error .usageReceiptConflict, session.begun) := by
  have hbegun : session.begun.contents.usageReceipt request.receiptId = some stored := hstored
  unfold meteredBlock
  rw [Act.bind_ok (read_apply ..), hbegun]
  dsimp only
  rw [if_pos hdigest]
  rfl

theorem meteredBlock_again {digest : Bytes} {execute : Run (UsageStore δ) (WorkerResponse × Nat × Nat)}
    {stored : StoredUsageReceipt} {response : WorkerResponse}
    (hstored : session.contents.usageReceipt request.receiptId = some stored)
    (hdigest : stored.requestDigest = digest)
    (hresponse : stored.responseJson.bind worker.crates.fromJson = some response) :
    meteredBlock worker request digest true execute session.begun =
      (.ok ⟨response, protocolUsageFromStored stored⟩, session.begun) := by
  have hbegun : session.begun.contents.usageReceipt request.receiptId = some stored := hstored
  obtain ⟨json, hjson, hread⟩ := Option.bind_eq_some_iff.mp hresponse
  unfold meteredBlock
  rw [Act.bind_ok (read_apply ..), hbegun]
  dsimp only
  rw [if_neg (not_not.mpr hdigest), if_pos rfl, hjson]
  refine (Act.bind_ok (given_apply ..)).trans ?_
  rw [hread]
  exact Act.bind_ok (given_apply ..)

theorem onceLaws (hguarded : worker.Guarded) (h : Consistent worker past session) :
    OnceLaws worker past session := by
  refine ⟨h.rows, h.distinct, ?_, ?_, ?_, ?_, ?_⟩
  · intro request hrecognised hchanged hnone
    cases hresult : handleMetered worker request session with
    | mk result after =>
      have hnext : next worker session request = after := congrArg Prod.snd hresult
      rw [hnext] at hchanged
      cases result with
      | error failure => exact hchanged (by rw [handleMetered_error hguarded hrecognised h.idle hresult])
      | ok execution =>
        obtain ⟨digest, approved, -, hanswered, -⟩ := handleMetered_ok hguarded hrecognised h.idle h.free hresult
        cases hanswered with
        | again stored _ _ hcontents => exact hchanged hcontents
        | first row hfirst =>
          simp only [effect, hresult, hfirst, Option.isNone_none, if_true] at hnone
          cases hnone
  · intro request failure after hrecognised hresult
    exact handleMetered_error hguarded hrecognised h.idle hresult
  · intro effect heffect request hrecognised hid hdigest execution after hresult
    obtain ⟨digest, approved, hcomputed, hanswered, -⟩ :=
      handleMetered_ok hguarded hrecognised h.idle h.free hresult
    obtain ⟨row, hrow, hdescribes⟩ := h.stored heffect
    rw [← hid] at hrow
    cases hanswered with
    | first _ hnone =>
      rw [hnone] at hrow
      cases hrow
    | again stored hstored _ hcontents husage hresponse =>
      obtain rfl := Option.some.inj (hstored.symm.trans hrow)
      refine ⟨hcontents, husage.trans hdescribes.usage.symm, fun hmutating => ?_⟩
      have hread := hresponse hmutating
      rw [hdescribes.response] at hread
      split at hread
      · exact hread
      · cases hread
  · intro effect heffect request digest response hid hprechecks hdigest hmutating heffects hresponse
    obtain ⟨execute, heq, -⟩ := handles_of_prechecks hprechecks
    obtain ⟨row, hrow, hdescribes⟩ := h.stored heffect
    obtain ⟨hfits, hvalid⟩ := h.settled (List.ne_nil_of_mem heffect)
    rw [← hid] at hrow
    have hrowDigest : row.requestDigest = digest := by
      have := hdescribes.digest
      rw [hdigest] at this
      exact (Except.ok.inj this).symm
    have hrowResponse : row.responseJson.bind worker.crates.fromJson = some response := by
      rw [hdescribes.response, if_pos heffects]
      exact hresponse
    have hblock := @meteredBlock_again _ worker request session digest execute row response hrow hrowDigest hrowResponse
    have hreturns := atomic_returns h.idle h.free hblock session.held_begun hfits hvalid
    rw [heq, hmutating, hdescribes.usage]
    unfold mapRuntime
    rw [hreturns]
    exact congrArg _ (Session.eq_of_idle h.idle h.free)
  · intro effect heffect request hid hdigest
    cases hprechecks : prechecks worker request with
    | error e =>
      exact ⟨e, by rw [refused_of_prechecks hprechecks]; rfl, fun _ hok => (nomatch hok)⟩
    | ok digest =>
      obtain ⟨execute, heq, -⟩ := handles_of_prechecks hprechecks
      obtain ⟨row, hrow, hdescribes⟩ := h.stored heffect
      rw [← hid] at hrow
      have hother : row.requestDigest ≠ digest := by
        rintro rfl
        exact hdigest ((digest_of_prechecks hprechecks).trans hdescribes.digest.symm)
      have hblock := @meteredBlock_conflict _ worker request session digest request.operation.mutating execute row
        hrow hother
      refine ⟨.runtime .usageReceiptConflict, ?_, fun _ _ => rfl⟩
      rw [heq]
      unfold mapRuntime
      rw [atomic_failed h.idle h.free hblock session.held_begun]
      rfl

structure Unmetered (session : Session (UsageStore δ)) : Prop where
  idle : session.connection.Idle
  free : session.inAtomic = false
  receipts : session.contents.usageReceipts = []

/-- Over every sequence of queries, transactions and pushes that SQLite takes for what the
classifier takes them for, the operations of a receipt id take effect once. -/
theorem metered_once (hguarded : worker.Guarded) (hfresh : Unmetered session) (requests : List WorkerRequest)
    (hrecognised : ∀ request ∈ requests, request.Recognised worker) :
    OnceLaws worker (Machine.trace (next worker) (effect worker) session requests)
      (Machine.run (next worker) session requests) := by
  have hconsistent : Consistent worker [] session :=
    ⟨hfresh.idle, hfresh.free, by rw [hfresh.receipts]; exact .nil, List.nodup_nil, fun h => absurd rfl h⟩
  exact onceLaws hguarded (hconsistent.run hguarded hrecognised)

end Once
section Sample

def insertText : String := "INSERT INTO t VALUES (1)"

def countText : String := "SELECT count(*) FROM t"

def countingSqlite : Sqlite (UsageStore Nat) QueryResult where
  control _ := none
  run _ request store :=
    if request.sql = insertText.toList then
      .done { store with rest := store.rest+1 } ⟨[], [], 1, some (Int64.ofNat (store.rest+1)), false⟩
    else if request.sql = countText.toList then
      .done store ⟨[⟨"count(*)", none⟩], [[.integer (Int64.ofNat store.rest)]], 0, none, false⟩
    else .failed .database store
  trusted _ store := .done store ()
  controlled := ⟨[], [], 0, none, false⟩
  valid _ := true
  fits _ := true
  persists _ := .ok ()
  rlsCatalog _ := .ok {}
  storeRlsCatalog _ store := .done store ()
  schemaSnapshot _ _ := .ok ⟨[]⟩
  captureTriggers _ := .ok []
  captureSql _ := []
  captureSources _ := []

def insertedResponse : WorkerResponse := .query ⟨[], [], 1, some 1, false⟩

def insertedJson : List Char :=
  "\x7b\"type\":\"query\",\"payload\":\x7b\"columns\":[],\"rows\":[],\"affected_rows\":1,\"last_insert_rowid\":1,\"truncated\":false\x7d\x7d".toList

def countingCrates : WorkerCrates Nat where
  applySyncMutation _ _ store := .failed .syncMutationInvalid store
  issueSyncCursor _ _ := .ok ""
  logicalDatabaseBytes _ := .ok 4096
  toJson response := if response = insertedResponse then some insertedJson else none
  fromJson json := if json = insertedJson then some insertedResponse else none
  requestJson _ operation :=
    match operation with
    | .query statement => some (String.ofList statement.sql).toByteArray.data.toList
    | _ => none

def sampleResources : ResourceLimits := ⟨262144, 999, 10000, 10000000, 100⟩

def countingWorker : Worker Nat := ⟨countingSqlite, countingCrates, sampleResources, [1], [2]⟩

def sampleQuery (sql : String) (receiptId : Uuid) (requestId : Uuid) : WorkerRequest where
  requestId := requestId
  operationReceiptId := some receiptId
  mode := .developer
  limits := sampleResources
  operation := .query ⟨sql.toList, [], 100⟩
  recordedAtMs := 0

def emptyTable : Session (UsageStore Nat) := ⟨⟨⟨0, [], 0⟩, none⟩, [], false⟩

def responseAfter (requests : List WorkerRequest) (request : WorkerRequest) : Option WorkerResponse :=
  match (handleMetered countingWorker request (Machine.run (next countingWorker) emptyTable requests)).1 with
  | .ok execution => some execution.response
  | .error _ => none

/-- A read that is retried after a write has another response than at first. -/
theorem retried_read_differs :
    responseAfter [] (sampleQuery countText 7 1) =
      some (.query ⟨[("count(*)", .unknown)], [[.safeInteger 0]], 0, none, false⟩) ∧
    responseAfter [sampleQuery countText 7 1, sampleQuery insertText 8 2] (sampleQuery countText 7 3) =
      some (.query ⟨[("count(*)", .unknown)], [[.safeInteger 1]], 0, none, false⟩) := by
  constructor
  · decide +kernel
  · decide +kernel

theorem guarded_countingWorker : countingWorker.Guarded :=
  ⟨fun _ => ⟨fun _ _ _ h => h, fun _ _ h => h⟩, fun _ _ _ _ h => h⟩

theorem recognised_sampleQuery {sql : String} {receiptId requestId : Uuid}
    (hreads : classifyStatement sql.toList = .ok ⟨.select, true⟩ → sql ≠ insertText) :
    (sampleQuery sql receiptId requestId).Recognised countingWorker := by
  intro query hquery
  obtain rfl := List.mem_singleton.mp hquery
  refine ⟨⟨by simp [countingWorker, countingSqlite], by simp [countingWorker, countingSqlite]⟩, ?_, ?_⟩
  · intro receipts sources store hstore
    simp only [countingWorker, countingSqlite]
    split
    · exact hstore
    · split
      · exact hstore
      · exact hstore
  · intro statementClass hclass hread contents sources store hstore
    have hselect : statementClass = ⟨.select, true⟩ := by
      have hkind : statementClass.kind = .select :=
        of_decide_eq_true ((classifyStatement_readOnly hclass).symm.trans hread)
      cases statementClass with
      | mk kind readOnly =>
        obtain rfl : kind = .select := hkind
        obtain rfl : readOnly = true := hread
        rfl
    have hother : sql.toList ≠ insertText.toList := fun hsame =>
      hreads (hselect ▸ hclass) (String.toList_injective hsame)
    simp only [countingWorker, countingSqlite]
    rw [if_neg hother]
    split
    · exact hstore
    · exact hstore

def sampleRequests : List WorkerRequest :=
  [sampleQuery insertText 7 1, sampleQuery countText 8 2, sampleQuery insertText 7 3]

/-- An insert that is retried inserts once. -/
theorem sampleRequests_once :
    (Machine.run (next countingWorker) emptyTable sampleRequests).contents.rest = 1 ∧
    OnceLaws countingWorker (Machine.trace (next countingWorker) (effect countingWorker) emptyTable sampleRequests)
      (Machine.run (next countingWorker) emptyTable sampleRequests) := by
  have hinsert : classifyStatement insertText.toList ≠ .ok ⟨.select, true⟩ := by decide +kernel
  have hfresh : Unmetered emptyTable := ⟨rfl, rfl, rfl⟩
  refine ⟨by decide +kernel, metered_once guarded_countingWorker hfresh sampleRequests ?_⟩
  intro request hrequest
  simp only [sampleRequests, List.mem_cons, List.not_mem_nil, or_false] at hrequest
  obtain rfl | rfl | rfl := hrequest
  · exact recognised_sampleQuery fun h => absurd h hinsert
  · exact recognised_sampleQuery fun _ => by decide
  · exact recognised_sampleQuery fun h => absurd h hinsert

end Sample
end Ffdb.DatabaseWorker
