import Ffdb.Worker.Loops

/-! What a step of a worker can do: one list of outcomes for the part of a command before
its swap, and one for the swap. -/
namespace Ffdb.Sync
open Fallible
variable (crates : StoreCrates)

def Reads (checkpoint : SyncCheckpoint) (engine : SyncEngine) : Prop :=
  crates.envelopeFromSlice checkpoint.bytes = some engine.envelope

def CursorsIssued (crates : Crates) : Prop :=
  (∀ claims, ∃ payload, crates.claimsToVec claims = some payload) ∧
    ∀ secret message, ∃ mac, crates.hmacSha256 secret message = some mac

def Pending.projectId : Pending → String
  | .create projectId _ _ => projectId
  | .commit projectId _ _ _ _ => projectId

def Pending.revision : Pending → Nat
  | .create _ _ _ => 0
  | .commit _ original _ _ _ => original.revision

def Pending.engine : Pending → SyncEngine
  | .create _ engine _ => engine
  | .commit _ _ engine _ _ => engine

def Pending.checkpoint : Pending → SyncCheckpoint
  | .create _ _ checkpoint => checkpoint
  | .commit _ _ _ checkpoint _ => checkpoint

def Pending.answer : Pending → Answer
  | .create _ _ _ => .created
  | .commit _ _ _ _ answer => answer

def Worker.settled (worker : Worker) : Std.ExtTreeMap String OpenEngine :=
  match worker.pending with
  | some (.commit projectId original _ _ _) => worker.engines.insert projectId original
  | _ => worker.engines

variable {crates}

theorem reads_of_checkpoint (hround : EnvelopeRoundTrip crates.toCrates) {engine : SyncEngine}
    {checkpoint : SyncCheckpoint} (h : engine.checkpoint crates.toCrates = .ok checkpoint) :
    Reads crates checkpoint engine ∧
      SyncCheckpoint.fromBytes checkpoint.bytes = .ok checkpoint := by
  simp only [SyncEngine.checkpoint, bind_ok_iff, orError_ok_iff] at h
  obtain ⟨bytes, hbytes, hfrom⟩ := h
  have hkeep : checkpoint = ⟨bytes⟩ := by
    simp only [SyncCheckpoint.fromBytes, bind_ok_iff, pure_ok_iff] at hfrom
    obtain ⟨_, _, rfl⟩ := hfrom
    rfl
  subst hkeep
  exact ⟨hround _ _ hbytes, hfrom⟩

theorem reads_of_restore {projectId : String} {secret : Bytes} {config : SyncConfig}
    {checkpoint : SyncCheckpoint} {engine : SyncEngine}
    (h : SyncEngine.restore crates.toCrates projectId secret config checkpoint = .ok engine) :
    Reads crates checkpoint engine := by
  simp only [SyncEngine.restore, SyncEngine.new, bind_ok_iff, orError_ok_iff, require_ok_iff,
    pure_ok_iff, Bool.and_eq_true, decide_eq_true_eq] at h
  obtain ⟨envelope, hread, _, ⟨⟨hformat, hproject⟩, _⟩, _, _, _, ⟨_, _, rfl⟩, rfl⟩ := h
  rw [Reads, hread, SyncEngine.envelope, ← hformat, ← hproject]

theorem cursor_issued {crates : Crates} (h : CursorsIssued crates) (engine : SyncEngine)
    (context : SyncContext) (sequence : Nat) (nowMs : Int64) :
    ∃ cursor, engine.cursor crates context sequence nowMs = .ok cursor := by
  obtain ⟨payload, hpayload⟩ := h.1 (engine.claims context sequence nowMs)
  obtain ⟨mac, hmac⟩ := h.2 engine.cursorCodec.secret payload
  simp only [SyncEngine.cursor, CursorCodec.encode, bind_ok_iff, orError_ok_iff, pure_ok_iff]
  exact ⟨_, payload, hpayload, mac, hmac, rfl⟩

/-- A push that reports an error leaves the engine as it was: an atomic batch is rolled
back, and a partial one has nothing left that can fail. -/
theorem push_error {crates : Crates} (hcursors : CursorsIssued crates) {engine : SyncEngine}
    {context : SyncContext} {batch : PushBatch} {authorizer : SyncAuthorizer} {nowMs : Int64}
    {error : SyncError} (h : (engine.push crates context batch authorizer nowMs).1 = .error error) :
    (engine.push crates context batch authorizer nowMs).2 = engine := by
  obtain ⟨_, hsame⟩ | ⟨hverified, hbatch, hkept, _⟩ :=
    push_cases crates engine context batch authorizer nowMs
  · exact hsame
  · cases hmode : batch.mode with
    | atomicBatch =>
      -- of a batch that was rolled back no call is kept
      have hnone : engine.keptCalls crates context batch authorizer nowMs = [] := by
        simp only [SyncEngine.keptCalls, hverified, hbatch, hmode, h]
      have hempty : batch.mutations = [] := by
        rw [hnone] at hkept
        cases hmutations : batch.mutations with
        | nil => rfl
        | cons mutation rest => simp [hmutations, batchCalls, Machine.trace] at hkept
      simp [validateBatch, hempty, require] at hbatch
    | partialBatch =>
      simp only [SyncEngine.push, hverified, hbatch, hmode, SyncEngine.applyPartial] at h
      obtain ⟨cursor, hcursor⟩ := cursor_issued hcursors
        (SyncEngine.applyPartialLoop crates context engine.allocateTransactionId.1 authorizer nowMs
          batch.mutations [] [] engine.allocateTransactionId.2).2 context
        (SyncEngine.applyPartialLoop crates context engine.allocateTransactionId.1 authorizer nowMs
          batch.mutations [] [] engine.allocateTransactionId.2).2.latestSequence nowMs
      simp [hcursor] at h

/-- An operation reports success on the engine it steps to, and an error on the one it
was given. -/
theorem perform_spec (hcursors : CursorsIssued crates.toCrates) (engine : SyncEngine) (op : Op) :
    (engine.perform crates op).2 = engine.step crates.toCrates op ∧
    ∀ error, (engine.perform crates op).1 = .error error → (engine.perform crates op).2 = engine := by
  cases op with
  | push context batch authorizer nowMs =>
    refine ⟨rfl, ?_⟩
    intro error h
    cases hpush : (engine.push crates.toCrates context batch authorizer nowMs).1 with
    | ok result => simp [SyncEngine.perform, hpush, Except.map] at h
    | error error' => exact push_error hcursors hpush
  | invalidate reason newSchemaVersion nowMs =>
    refine ⟨rfl, ?_⟩
    intro error h
    cases newSchemaVersion with
    | none => simp [SyncEngine.perform, SyncEngine.invalidate, Except.map] at h
    | some version =>
      by_cases hversion : version ≤ engine.schemaVersion
      · simp [SyncEngine.perform, SyncEngine.invalidate, hversion]
      · simp [SyncEngine.perform, SyncEngine.invalidate, hversion, Except.map] at h
  | compact nowMs =>
    refine ⟨rfl, ?_⟩
    intro error h
    simp [SyncEngine.perform] at h

/-- Everything an idle worker can do with a command before it needs the store's answer. -/
inductive Received (crates : StoreCrates) (store : DirectorySyncStore) (worker : Worker)
    (command : Command) : Worker → Option (Except WorkerError Answer) → Prop where
  | refused (error : WorkerError) : Received crates store worker command worker (some (.error error))
  | served (answer : Answer) (hread : command.op worker.authorizer = none) :
    Received crates store worker command worker (some (.ok answer))
  | stopped (hread : command.op worker.authorizer = none) :
    Received crates store worker command { worker with stopped := true } (some (.ok .stopped))
  | opened {projectId : String} {engine : SyncEngine} {stored : StoredSyncCheckpoint}
    (hread : command.op worker.authorizer = none)
    (hdurable : store.durable crates projectId = some stored)
    (hengine : Reads crates stored.checkpoint engine) :
    Received crates store worker command
      { worker with engines := worker.engines.insert projectId ⟨engine, stored.revision⟩ }
      (some (.ok .created))
  | created {projectId : String} {engine : SyncEngine} {checkpoint : SyncCheckpoint}
    (hread : command.op worker.authorizer = none)
    (hcheckpoint : engine.checkpoint crates.toCrates = .ok checkpoint) :
    Received crates store worker command
      { worker with pending := some (.create projectId engine checkpoint) } none
  | prepared {projectId : String} {op : Op} {original : OpenEngine} {checkpoint : SyncCheckpoint}
    {answer : Answer} (hop : command.op worker.authorizer = some (projectId, op))
    (hopen : worker.engines[projectId]? = some original)
    (hcheckpoint : (original.engine.step crates.toCrates op).checkpoint crates.toCrates =
      .ok checkpoint) :
    Received crates store worker command
      { worker with
        engines := worker.engines.insert projectId
          { original with engine := original.engine.step crates.toCrates op }
        pending := some (.commit projectId original (original.engine.step crates.toCrates op)
          checkpoint answer) } none

theorem insert_getElem? {map : Std.ExtTreeMap String OpenEngine} {key : String} {opened : OpenEngine}
    (h : map[key]? = some opened) : map.insert key opened = map := by
  refine Std.ExtTreeMap.ext_getElem? fun key' => ?_
  simp only [Std.ExtTreeMap.getElem?_insert, compare_eq_iff_eq]
  split
  · next hk => rw [← hk, h]
  · rfl

theorem mutate_received (hcursors : CursorsIssued crates.toCrates) {store : DirectorySyncStore}
    {worker : Worker} {command : Command} {projectId : String} {op : Op} {original : OpenEngine}
    (hop : command.op worker.authorizer = some (projectId, op))
    (hopen : worker.engines[projectId]? = some original) :
    Received crates store worker command
      (worker.mutate crates projectId original (original.engine.perform crates op)).1
      (worker.mutate crates projectId original (original.engine.perform crates op)).2 := by
  obtain ⟨hstep, herror⟩ := perform_spec hcursors original.engine op
  cases hperform : (original.engine.perform crates op).1 with
  | error error =>
    have hsame : { original with engine := (original.engine.perform crates op).2 } = original := by
      rw [herror error hperform]
    simp only [Worker.mutate, hperform, hsame, insert_getElem? hopen]
    exact .refused _
  | ok answer =>
    simp only [Worker.mutate, hperform, hstep]
    cases hcheckpoint : (original.engine.step crates.toCrates op).checkpoint crates.toCrates with
    | error error => exact .refused _
    | ok checkpoint => exact .prepared hop hopen hcheckpoint

theorem createProject_received (store : DirectorySyncStore) (worker : Worker) (fault : Fault)
    (projectId : String) (schemaVersion : Nat) (secret : Bytes) (config : SyncConfig) :
    Received crates store worker (.createProject projectId schemaVersion secret config)
      (worker.createProject crates store fault projectId schemaVersion secret config).1
      (worker.createProject crates store fault projectId schemaVersion secret config).2 := by
  simp only [Worker.createProject]
  split
  · exact .refused _
  · split
    · exact .refused _
    · cases hload : store.loadUnlocked crates projectId fault with
      | error error => exact .refused _
      | ok current =>
        cases current with
        | some stored =>
          dsimp only
          cases hrestore : SyncEngine.restore crates.toCrates projectId secret config
              stored.checkpoint with
          | error error => exact .refused _
          | ok engine =>
            dsimp only
            split
            · exact .opened rfl (durable_of_load hload) (reads_of_restore hrestore)
            · exact .refused _
        | none =>
          dsimp only
          cases SyncEngine.new projectId schemaVersion secret config with
          | error error => exact .refused _
          | ok engine =>
            dsimp only
            cases hcheckpoint : engine.checkpoint crates.toCrates with
            | error error => exact .refused _
            | ok checkpoint => exact .created rfl hcheckpoint

theorem answered_received {store : DirectorySyncStore} {worker : Worker} {command : Command}
    (hread : command.op worker.authorizer = none) (result : Except WorkerError Answer) :
    Received crates store worker command worker (some result) := by
  cases result with
  | error error => exact .refused error
  | ok answer => exact .served answer hread

theorem receive_received (hcursors : CursorsIssued crates.toCrates) (store : DirectorySyncStore)
    (worker : Worker) (fault : Fault) (command : Command) :
    Received crates store worker command (worker.receive crates store fault command).1
      (worker.receive crates store fault command).2 := by
  cases command with
  | createProject projectId schemaVersion secret config => exact createProject_received ..
  | snapshot context nowMs =>
    simp only [Worker.receive]
    split
    · exact .refused _
    · exact answered_received rfl _
  | pull context cursor limit nowMs =>
    simp only [Worker.receive]
    split
    · exact .refused _
    · exact answered_received rfl _
  | push context batch nowMs =>
    simp only [Worker.receive]
    split
    · exact .refused _
    · next original hopen => exact mutate_received hcursors rfl hopen
  | invalidate projectId reason newSchemaVersion nowMs =>
    simp only [Worker.receive]
    split
    · exact .refused _
    · next original hopen => exact mutate_received hcursors rfl hopen
  | compact projectId nowMs =>
    simp only [Worker.receive]
    split
    · exact .refused _
    · next original hopen => exact mutate_received hcursors rfl hopen
  | shutdown => exact .stopped rfl

inductive Finished (crates : StoreCrates) (store : DirectorySyncStore) (worker : Worker)
    (pending : Pending) (fault : Fault) :
    Worker → DirectorySyncStore → Option (Except WorkerError Answer) → Prop where
  | failed {store' : DirectorySyncStore} (error : SyncStoreError)
    (hkept : ∀ projectId, store'.durable crates projectId = store.durable crates projectId) :
    Finished crates store worker pending fault
      { worker with engines := worker.settled, pending := none } store'
      (some (.error (.store error)))
  | late {store' : DirectorySyncStore} (hlate : fault.late = true)
    (hswap : Swapped crates pending.projectId pending.revision pending.checkpoint store store') :
    Finished crates store worker pending fault
      { worker with engines := worker.settled, pending := none } store'
      (some (.error (.store .unavailable)))
  | done {store' : DirectorySyncStore}
    (hswap : Swapped crates pending.projectId pending.revision pending.checkpoint store store') :
    Finished crates store worker pending fault
      { worker with
        engines := worker.engines.insert pending.projectId ⟨pending.engine, pending.revision+1⟩
        pending := none } store'
      (some (.ok pending.answer))

theorem finish_finished (hfiles : FilesRoundTrip crates) (store : DirectorySyncStore)
    {worker : Worker} {pending : Pending} (fault : Fault) (hpending : worker.pending = some pending)
    (hcheckpoint : SyncCheckpoint.fromBytes pending.checkpoint.bytes = .ok pending.checkpoint) :
    Finished crates store worker pending fault (worker.finish crates store fault).1
      (worker.finish crates store fault).2.1 (worker.finish crates store fault).2.2 := by
  have hcases := compareAndSwap_cases hfiles store pending.projectId pending.revision
    pending.checkpoint fault hcheckpoint
  cases pending with
  | create projectId engine checkpoint =>
    have hsettled : worker.settled = worker.engines := by simp [Worker.settled, hpending]
    simp only [Worker.finish, hpending]
    simp only [Pending.projectId, Pending.revision, Pending.checkpoint] at hcases
    obtain ⟨error, store', hswap, hkept⟩ | ⟨_, store', hswap, rfl | ⟨rfl, hlate⟩, hswapped⟩ := hcases
    · have h : Finished crates store worker (.create projectId engine checkpoint) fault _ _ _ :=
        .failed error hkept
      simpa only [hswap, hsettled] using h
    · simp only [hswap]
      exact .done hswapped
    · have h : Finished crates store worker (.create projectId engine checkpoint) fault _ _ _ :=
        .late hlate hswapped
      simpa only [hswap, hsettled] using h
  | commit projectId original engine checkpoint answer =>
    have hsettled : worker.settled = worker.engines.insert projectId original := by
      simp [Worker.settled, hpending]
    simp only [Worker.finish, hpending]
    simp only [Pending.projectId, Pending.revision, Pending.checkpoint] at hcases
    obtain ⟨error, store', hswap, hkept⟩ | ⟨_, store', hswap, rfl | ⟨rfl, hlate⟩, hswapped⟩ := hcases
    · simp only [hswap, ← hsettled]
      exact .failed error hkept
    · simp only [hswap]
      exact .done hswapped
    · simp only [hswap, ← hsettled]
      exact .late hlate hswapped

end Ffdb.Sync
