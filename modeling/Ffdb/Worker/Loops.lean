import Ffdb.Worker.Store

/-! The run loops of the sync worker over one shared store. A loop serves one command at
a time; a command that writes waits for the store in a step of its own, and other loops
may act before that step. -/
namespace Ffdb.Sync

structure OpenEngine where
  engine : SyncEngine
  revision : Nat

inductive WorkerError where
  | invalidConfiguration
  | unavailable
  | projectAlreadyOpen
  | projectNotOpen
  | projectLimitReached
  | sync (error : SyncError)
  | store (error : SyncStoreError)
  deriving DecidableEq

inductive Command where
  | createProject (projectId : String) (schemaVersion : Nat) (cursorSecret : Bytes)
      (syncConfig : SyncConfig)
  | snapshot (context : SyncContext) (nowMs : Int64)
  | pull (context : SyncContext) (cursor : OpaqueCursor) (limit : Nat) (nowMs : Int64)
  | push (context : SyncContext) (batch : PushBatch) (nowMs : Int64)
  | invalidate (projectId : String) (reason : ResnapshotReason) (newSchemaVersion : Option Nat)
      (nowMs : Int64)
  | compact (projectId : String) (nowMs : Int64)
  | shutdown
  deriving DecidableEq

inductive Answer where
  | created
  | snapshot (snapshot : Snapshot)
  | pulled (page : PullResult)
  | pushed (result : PushResult)
  | invalidated (sequence : Nat)
  | compacted
  | stopped
  deriving DecidableEq

inductive Pending where
  | create (projectId : String) (engine : SyncEngine) (checkpoint : SyncCheckpoint)
  | commit (projectId : String) (original : OpenEngine) (engine : SyncEngine)
      (checkpoint : SyncCheckpoint) (answer : Answer)

structure Worker where
  authorizer : SyncAuthorizer
  maxOpenProjects : Nat
  engines : Std.ExtTreeMap String OpenEngine
  pending : Option Pending
  stopped : Bool

structure WorkerConfig where
  queueCapacity : Nat
  maxOpenProjects : Nat

def Worker.spawn (config : WorkerConfig) (authorizer : SyncAuthorizer) :
    Except WorkerError Worker := do
  Fallible.require (!(config.queueCapacity = 0 || config.maxOpenProjects = 0)) .invalidConfiguration
  pure ⟨authorizer, config.maxOpenProjects, ∅, none, false⟩

variable (crates : StoreCrates)

/-- The common tail of push, invalidate and compact, up to the swap: an engine that
reports an error is kept as it is, one that cannot be written is put back. -/
def Worker.mutate (worker : Worker) (projectId : String) (original : OpenEngine)
    (outcome : Except SyncError Answer × SyncEngine) :
    Worker × Option (Except WorkerError Answer) :=
  let changed := worker.engines.insert projectId { original with engine := outcome.2 }
  match outcome.1 with
  | .error error => ({ worker with engines := changed }, some (.error (.sync error)))
  | .ok answer =>
    match outcome.2.checkpoint crates.toCrates with
    | .error error => (worker, some (.error (.sync error)))
    | .ok checkpoint =>
      ({ worker with
          engines := changed
          pending := some (.commit projectId original outcome.2 checkpoint answer) }, none)

def SyncEngine.perform (engine : SyncEngine) (op : Op) : Except SyncError Answer × SyncEngine :=
  match op with
  | .push context batch authorizer nowMs =>
    let (result, engine) := engine.push crates.toCrates context batch authorizer nowMs
    (result.map .pushed, engine)
  | .invalidate reason newSchemaVersion nowMs =>
    let (result, engine) := engine.invalidate reason newSchemaVersion nowMs
    (result.map .invalidated, engine)
  | .compact nowMs => (.ok .compacted, (engine.compact nowMs).2)

def Command.op (authorizer : SyncAuthorizer) : Command → Option (String × Op)
  | .push context batch nowMs => some (context.projectId, .push context batch authorizer nowMs)
  | .invalidate projectId reason newSchemaVersion nowMs =>
    some (projectId, .invalidate reason newSchemaVersion nowMs)
  | .compact projectId nowMs => some (projectId, .compact nowMs)
  | _ => none

def Worker.createProject (worker : Worker) (store : DirectorySyncStore) (fault : Fault)
    (projectId : String) (schemaVersion : Nat) (cursorSecret : Bytes) (syncConfig : SyncConfig) :
    Worker × Option (Except WorkerError Answer) :=
  if worker.engines.contains projectId then (worker, some (.error .projectAlreadyOpen))
  else if worker.maxOpenProjects ≤ worker.engines.size then
    (worker, some (.error .projectLimitReached))
  else
    match store.loadUnlocked crates projectId fault with
    | .error error => (worker, some (.error (.store error)))
    | .ok (some stored) =>
      match SyncEngine.restore crates.toCrates projectId cursorSecret syncConfig
          stored.checkpoint with
      | .error error => (worker, some (.error (.sync error)))
      | .ok engine =>
        if engine.schemaVersion = schemaVersion then
          ({ worker with engines := worker.engines.insert projectId ⟨engine, stored.revision⟩ },
            some (.ok .created))
        else
          (worker, some (.error (.sync (.schemaMismatch engine.schemaVersion schemaVersion))))
    | .ok none =>
      match SyncEngine.new projectId schemaVersion cursorSecret syncConfig with
      | .error error => (worker, some (.error (.sync error)))
      | .ok engine =>
        match engine.checkpoint crates.toCrates with
        | .error error => (worker, some (.error (.sync error)))
        | .ok checkpoint =>
          ({ worker with pending := some (.create projectId engine checkpoint) }, none)

def Worker.receive (worker : Worker) (store : DirectorySyncStore) (fault : Fault)
    (command : Command) : Worker × Option (Except WorkerError Answer) :=
  match command with
  | .createProject projectId schemaVersion cursorSecret syncConfig =>
    worker.createProject crates store fault projectId schemaVersion cursorSecret syncConfig
  | .snapshot context nowMs =>
    match worker.engines[context.projectId]? with
    | none => (worker, some (.error .projectNotOpen))
    | some opened =>
      (worker, some ((opened.engine.snapshot crates.toCrates context worker.authorizer nowMs).map
        .snapshot |>.mapError .sync))
  | .pull context cursor limit nowMs =>
    match worker.engines[context.projectId]? with
    | none => (worker, some (.error .projectNotOpen))
    | some opened =>
      (worker, some ((opened.engine.pull crates.toCrates context cursor limit worker.authorizer
        nowMs).map .pulled |>.mapError .sync))
  | .push context batch nowMs =>
    match worker.engines[context.projectId]? with
    | none => (worker, some (.error .projectNotOpen))
    | some opened => worker.mutate crates context.projectId opened
        (opened.engine.perform crates (.push context batch worker.authorizer nowMs))
  | .invalidate projectId reason newSchemaVersion nowMs =>
    match worker.engines[projectId]? with
    | none => (worker, some (.error .projectNotOpen))
    | some opened => worker.mutate crates projectId opened
        (opened.engine.perform crates (.invalidate reason newSchemaVersion nowMs))
  | .compact projectId nowMs =>
    match worker.engines[projectId]? with
    | none => (worker, some (.error .projectNotOpen))
    | some opened => worker.mutate crates projectId opened
        (opened.engine.perform crates (.compact nowMs))
  | .shutdown => ({ worker with stopped := true }, some (.ok .stopped))

def Worker.finish (worker : Worker) (store : DirectorySyncStore) (fault : Fault) :
    Worker × DirectorySyncStore × Option (Except WorkerError Answer) :=
  match worker.pending with
  | none => (worker, store, none)
  | some (.create projectId engine checkpoint) =>
    match store.compareAndSwap crates projectId 0 checkpoint fault with
    | (.ok revision, store) =>
      ({ worker with
          engines := worker.engines.insert projectId ⟨engine, revision⟩
          pending := none }, store, some (.ok .created))
    | (.error error, store) => ({ worker with pending := none }, store, some (.error (.store error)))
  | some (.commit projectId original engine checkpoint answer) =>
    match store.compareAndSwap crates projectId original.revision checkpoint fault with
    | (.ok revision, store) =>
      ({ worker with
          engines := worker.engines.insert projectId ⟨engine, revision⟩
          pending := none }, store, some (.ok answer))
    | (.error error, store) =>
      ({ worker with
          engines := worker.engines.insert projectId original
          pending := none }, store, some (.error (.store error)))

structure World (ι : Type) where
  workers : ι → Worker
  store : DirectorySyncStore

inductive Act (ι : Type) where
  | deliver (i : ι) (command : Command) (fault : Fault)
  | store (i : ι) (fault : Fault)

variable {ι : Type} [DecidableEq ι]

/-- A command finds its worker idle, gone or busy; in the last case it stays in the queue. -/
def World.deliver (world : World ι) (i : ι) (command : Command) (fault : Fault) :
    Worker × Option (Except WorkerError Answer) :=
  if (world.workers i).stopped then (world.workers i, some (.error .unavailable))
  else if (world.workers i).pending.isSome then (world.workers i, none)
  else (world.workers i).receive crates world.store fault command

def World.step (world : World ι) : Act ι → World ι
  | .deliver i command fault =>
    { world with
      workers := Function.update world.workers i (world.deliver crates i command fault).1 }
  | .store i fault =>
    let (worker, store, _) := (world.workers i).finish crates world.store fault
    ⟨Function.update world.workers i worker, store⟩

def World.answer (world : World ι) : Act ι → Option (Except WorkerError Answer)
  | .deliver i command fault => (world.deliver crates i command fault).2
  | .store i fault => ((world.workers i).finish crates world.store fault).2.2

def World.run (world : World ι) (acts : List (Act ι)) : World ι :=
  Machine.run (World.step crates) world acts

def World.Fresh (world : World ι) : Prop :=
  ∀ i, ∃ config authorizer, Worker.spawn config authorizer = .ok (world.workers i)

end Ffdb.Sync
