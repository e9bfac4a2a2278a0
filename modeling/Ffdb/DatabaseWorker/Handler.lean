import Ffdb.Lib.Machine
import Ffdb.Migration.Engine

/-! Requests to the database worker that run side by side: each one is a sequence of sections on
the database and the receipt files, and the sections of different requests interleave. -/
namespace Ffdb.Handler
open Migration

abbrev Uuid := BitVec 128

inductive MigrationAction where
  | apply (spec : MigrationSpec)
  | rollback (id : List Char)

/-- Operations. The metered ones, and those on a single section, are told apart by their work. -/
inductive Operation (ω : Type) where
  | metered (work : ω)
  | single (work : ω)
  | migration (action : MigrationAction)
  | backup (backupId : Uuid)
  | restore (backupId : Uuid)

inductive Response (ρ : Type) where
  | work (result : ρ)
  | migration (outcome : MigrationOutcome)
  | backup (backupId : Uuid) (sizeBytes : Nat) (sha256 : Bytes)
  | restore (backupId : Uuid) (schemaVersion : Nat)

inductive Failure where
  | schemaVersionMismatch
  | receiptNotSupported
  | receiptConflict
  | receiptUnavailable
  | outcomeUnknown
  | migrationInvalid
  | migrationNotApplied
  | migrationNotFound
  | backupAlreadyExists
  | backupNotFound
  | database
  deriving DecidableEq

structure Request (ω : Type) where
  operationReceiptId : Option Uuid
  expectedSchemaVersion : Option Nat
  /-- The digest of the route, the mode and the operation. -/
  requestDigest : Bytes
  operation : Operation ω

def receiptOperationName {ω : Type} : Operation ω → Option String
  | .migration (.apply _) => some "migration.apply"
  | .migration (.rollback _) => some "migration.rollback"
  | .backup _ => some "backup.create"
  | .restore _ => some "backup.restore"
  | .metered _ | .single _ => none

structure RestoreReceiptMarker where
  receiptId : Uuid
  requestDigest : Bytes
  backupId : Uuid
  schemaVersion : Nat

/-- A row of the worker's operation receipts; a result is missing until the operation commits. -/
structure WorkerOperationReceipt where
  receiptId : Uuid
  requestDigest : Bytes
  operation : String
  result : Option MigrationOutcome

/-- A project database: the restore marker, the operation receipts, and all the rest. -/
structure Image (δ : Type) where
  data : δ
  marker : Option RestoreReceiptMarker
  receipts : List WorkerOperationReceipt

structure BackupFile (δ : Type) where
  image : Image δ
  sizeBytes : Nat
  sha256 : Bytes

inductive ReceiptState (ρ : Type) where
  | started
  | completed (response : Response ρ)

structure OperationReceipt (ρ : Type) where
  operation : String
  requestDigest : Bytes
  state : ReceiptState ρ

/-- A receipt file; one that was created and not written to its end cannot be read. -/
inductive ReceiptFile (ρ : Type) where
  | incomplete
  | stored (receipt : OperationReceipt ρ)

inductive Phase (δ ρ : Type) where
  | check
  | admission
  | create
  | writeStarted
  | startRow (retried : Bool)
  | reconcile
  | record (outcome : MigrationOutcome)
  | perform
  | rollback
  | capture
  | publish (file : BackupFile δ)
  | recover (image : Image δ)
  | restore (image : Image δ)
  | bootstrap (prepared : Nat)
  | readVersion
  | complete (response : Response ρ)
  | account (response : Response ρ)
  | done (result : Except Failure (Response ρ))

structure Call (δ ρ ω : Type) where
  request : Request ω
  /-- What the encryption of a backup draws. -/
  nonce : Nat
  phase : Phase δ ρ

structure World (δ ρ ω : Type) where
  database : Image δ
  backups : Uuid → Option (BackupFile δ)
  files : Uuid → Option (ReceiptFile ρ)
  calls : List (Call δ ρ ω)

/-- What the sections call: work on the data in one transaction, a migration in one transaction,
the generated views and triggers after a restore, and the bytes of an encrypted image. -/
structure Services (δ ρ ω : Type) where
  schemaVersion : δ → Nat
  work : ω → δ → Except Failure ρ × δ
  validSpec : MigrationSpec → Bool
  migrate : MigrationAction → δ → Except Failure (MigrationOutcome × δ)
  migrationRecord : List Char → δ → Option MigrationStatus
  bootstrap : δ → Except Failure δ
  measure : Nat → Image δ → Nat × Bytes

/-- What is seen of a request: its work, migration, capture or copy on a database of a version;
a commit of what it is for; and its answer. -/
inductive Observation (ρ ω : Type) where
  | executed (request : Request ω) (schemaVersion : Nat)
  | committed (request : Request ω) (response : Response ρ)
  | answered (request : Request ω) (response : Response ρ)

section Sections
variable {δ ρ ω : Type} (services : Services δ ρ ω)

structure Section (δ ρ ω : Type) where
  world : World δ ρ ω
  phase : Phase δ ρ
  seen : List (Observation ρ ω)

def refuse (world : World δ ρ ω) (failure : Failure) : Section δ ρ ω := ⟨world, .done (.error failure), []⟩

def goto (world : World δ ρ ω) (phase : Phase δ ρ) : Section δ ρ ω := ⟨world, phase, []⟩

def Request.after (request : Request ω) (response : Response ρ) : Phase δ ρ :=
  match request.operationReceiptId with
  | some _ => .complete response
  | none => .account response

def World.version (world : World δ ρ ω) : Nat := services.schemaVersion world.database.data

def dispatch (request : Request ω) : Phase δ ρ :=
  match request.operation, request.operationReceiptId with
  | .metered _, _ => .perform
  | .single _, some _ => .done (.error .receiptNotSupported)
  | _, some _ => .admission
  | _, none => .perform

def validateNewReceiptPreconditions (world : World δ ρ ω) : Operation ω → Except Failure Unit
  | .migration (.apply spec) => Fallible.require (services.validSpec spec) .migrationInvalid
  | .migration (.rollback id) =>
    Fallible.require (decide (services.migrationRecord id world.database.data = some .applied)) .migrationNotApplied
  | .backup backupId => Fallible.require (world.backups backupId).isNone .backupAlreadyExists
  | .restore backupId => Fallible.require (world.backups backupId).isSome .backupNotFound
  | .metered _ | .single _ => .error .receiptNotSupported

/-- The rows with one more that has no result, unless its id is there. -/
def startWorkerOperationReceipt (receipts : List WorkerOperationReceipt) (receiptId : Uuid) (digest : Bytes)
    (operation : String) : List WorkerOperationReceipt :=
  match receipts.find? (·.receiptId = receiptId) with
  | some _ => receipts
  | none => receipts ++ [⟨receiptId, digest, operation, none⟩]

/-- The rows with the result of an operation, unless another request holds its id. -/
def storeDurableReceipt (receipts : List WorkerOperationReceipt) (receiptId : Uuid) (digest : Bytes)
    (operation : String) (outcome : MigrationOutcome) : Option (List WorkerOperationReceipt) :=
  match receipts.find? (·.receiptId = receiptId) with
  | none => some (receipts ++ [⟨receiptId, digest, operation, some outcome⟩])
  | some stored =>
    if stored.requestDigest = digest ∧ stored.operation = operation then
      some (receipts.map fun other =>
        if other.receiptId = receiptId then ⟨receiptId, digest, operation, some outcome⟩ else other)
    else none

def initializeReceipt (world : World δ ρ ω) (request : Request ω) (receiptId : Uuid) : World δ ρ ω :=
  match request.operation with
  | .migration action =>
    { world with database := { world.database with
        receipts := startWorkerOperationReceipt world.database.receipts receiptId request.requestDigest
          ((receiptOperationName (.migration action : Operation ω)).getD "") } }
  | _ => world

def openReceipt (world : World δ ρ ω) (request : Request ω) : ReceiptFile ρ → Section δ ρ ω
  | .incomplete => refuse world .outcomeUnknown
  | .stored receipt =>
    if some receipt.operation = receiptOperationName request.operation ∧
        receipt.requestDigest = request.requestDigest then
      match receipt.state with
      | .completed response => goto world (.account response)
      | .started => goto world (.startRow true)
    else refuse world .receiptConflict

def reconcile (world : World δ ρ ω) (request : Request ω) (receiptId : Uuid) : Section δ ρ ω :=
  match request.operation with
  | .migration action =>
    match world.database.receipts.find? (·.receiptId = receiptId) with
    | none => refuse world .outcomeUnknown
    | some stored =>
      if stored.requestDigest = request.requestDigest ∧
          some stored.operation = receiptOperationName request.operation then
        match stored.result with
        | none => goto world .perform
        | some outcome =>
          match action with
          | .apply _ => goto world (.complete (.migration outcome))
          | .rollback _ => goto world (.record outcome)
      else refuse world .outcomeUnknown
  | .backup backupId =>
    match world.backups backupId with
    | none => goto world .perform
    | some file => goto world (.complete (.backup backupId file.sizeBytes file.sha256))
  | .restore backupId =>
    match world.database.marker with
    | none => goto world .perform
    | some marker =>
      if marker.receiptId = receiptId ∧ marker.requestDigest = request.requestDigest ∧ marker.backupId = backupId then
        goto world (.complete (.restore backupId marker.schemaVersion))
      else refuse world .outcomeUnknown
  | .metered _ | .single _ => refuse world .receiptNotSupported

def migrateSection (world : World δ ρ ω) (request : Request ω) (action : MigrationAction) : Section δ ρ ω :=
  let executed := Observation.executed request (world.version services)
  match services.migrate action world.database.data with
  | .error failure => ⟨world, .done (.error failure), [executed]⟩
  | .ok (outcome, data) =>
    let receipts := match request.operationReceiptId with
      | none => some world.database.receipts
      | some receiptId => storeDurableReceipt world.database.receipts receiptId request.requestDigest
          ((receiptOperationName request.operation).getD "") outcome
    match receipts with
    | none => ⟨world, .done (.error .receiptConflict), [executed]⟩
    | some receipts =>
      { world := { world with database := { world.database with data, receipts } }
        phase := request.after (.migration outcome)
        seen := [executed, .committed request (.migration outcome)] }

def prepareRestoreReceipt (image : Image δ) (request : Request ω) (backupId : Uuid) : Image δ :=
  match request.operationReceiptId with
  | none => image
  | some receiptId => { image with
      marker := some ⟨receiptId, request.requestDigest, backupId, services.schemaVersion image.data⟩ }

def workSection (world : World δ ρ ω) (request : Request ω) (work : ω) (finish : Response ρ → Phase δ ρ) :
    Section δ ρ ω :=
  let (result, data) := services.work work world.database.data
  { world := { world with database := { world.database with data } }
    phase := match result with
      | .ok value => finish (.work value)
      | .error failure => .done (.error failure)
    seen := [.executed request (world.version services)] }

def performSection (world : World δ ρ ω) (request : Request ω) : Section δ ρ ω :=
  match request.operation with
  | .metered work => workSection services world request work fun response => .done (.ok response)
  | .single work => workSection services world request work .account
  | .migration (.apply spec) => migrateSection services world request (.apply spec)
  | .migration (.rollback id) =>
    match services.migrationRecord id world.database.data with
    | none => refuse world .migrationNotFound
    | some _ => goto world .rollback
  | .backup backupId =>
    if (world.backups backupId).isSome then refuse world .backupAlreadyExists
    else goto world .capture
  | .restore backupId =>
    match world.backups backupId with
    | none => refuse world .backupNotFound
    | some file => goto world (.recover (prepareRestoreReceipt services file.image request backupId))

def restoreSection (world : World δ ρ ω) (request : Request ω) (image : Image δ) : Section δ ρ ω :=
  match request.operation with
  | .restore backupId =>
    { world := { world with database := image }
      phase := .bootstrap (services.schemaVersion image.data)
      seen := [.executed request (world.version services),
        .committed request (.restore backupId (services.schemaVersion image.data))] }
  | _ => refuse world .database

def publishSection (world : World δ ρ ω) (request : Request ω) (file : BackupFile δ) : Section δ ρ ω :=
  match request.operation with
  | .backup backupId =>
    { world := { world with backups := Function.update world.backups backupId (some file) }
      phase := request.after (.backup backupId file.sizeBytes file.sha256)
      seen := [.committed request (.backup backupId file.sizeBytes file.sha256)] }
  | _ => refuse world .database

def bootstrapSection (world : World δ ρ ω) (request : Request ω) (prepared : Nat) : Section δ ρ ω :=
  match services.bootstrap world.database.data with
  | .error failure => refuse world failure
  | .ok data =>
    let world := { world with database := { world.database with data } }
    match request.operation, request.operationReceiptId with
    | .restore backupId, some _ => goto world (.complete (.restore backupId prepared))
    | _, _ => goto world .readVersion

def readVersionSection (world : World δ ρ ω) (request : Request ω) : Section δ ρ ω :=
  match request.operation with
  | .restore backupId => goto world (.account (.restore backupId (world.version services)))
  | _ => refuse world .database

def receiptSection (world : World δ ρ ω) (request : Request ω) (body : Uuid → Section δ ρ ω) : Section δ ρ ω :=
  match request.operationReceiptId with
  | some receiptId => body receiptId
  | none => refuse world .receiptNotSupported

def World.putFile (world : World δ ρ ω) (receiptId : Uuid) (file : ReceiptFile ρ) : World δ ρ ω :=
  { world with files := Function.update world.files receiptId (some file) }

def Request.receipt (request : Request ω) (state : ReceiptState ρ) : OperationReceipt ρ :=
  ⟨(receiptOperationName request.operation).getD "", request.requestDigest, state⟩

def runSection (world : World δ ρ ω) (call : Call δ ρ ω) : Section δ ρ ω :=
  let request := call.request
  match call.phase with
  | .check =>
    match request.expectedSchemaVersion with
    | none => goto world (dispatch request)
    | some expected =>
      if world.version services = expected then goto world (dispatch request)
      else refuse world .schemaVersionMismatch
  | .admission => receiptSection world request fun receiptId =>
    if (world.files receiptId).isSome then goto world .create
    else
      match validateNewReceiptPreconditions services world request.operation with
      | .ok () => goto world .create
      | .error failure => refuse world failure
  | .create => receiptSection world request fun receiptId =>
    match world.files receiptId with
    | none => goto (world.putFile receiptId .incomplete) .writeStarted
    | some file => openReceipt world request file
  | .writeStarted => receiptSection world request fun receiptId =>
    goto (world.putFile receiptId (.stored (request.receipt .started))) (.startRow false)
  | .startRow retried => receiptSection world request fun receiptId =>
    goto (initializeReceipt world request receiptId) (if retried then .reconcile else .perform)
  | .reconcile => receiptSection world request fun receiptId => reconcile world request receiptId
  | .record outcome =>
    match request.operation with
    | .migration (.rollback id) =>
      if (services.migrationRecord id world.database.data).isSome then goto world (.complete (.migration outcome))
      else refuse world .outcomeUnknown
    | _ => refuse world .outcomeUnknown
  | .perform => performSection services world request
  | .rollback =>
    match request.operation with
    | .migration action => migrateSection services world request action
    | _ => refuse world .database
  | .capture =>
    let image := world.database
    let (sizeBytes, sha256) := services.measure call.nonce image
    { world
      phase := .publish ⟨image, sizeBytes, sha256⟩
      seen := [.executed request (world.version services)] }
  | .publish file => publishSection world request file
  | .recover image => goto world (.restore image)
  | .restore image => restoreSection services world request image
  | .bootstrap prepared => bootstrapSection services world request prepared
  | .readVersion => readVersionSection services world request
  | .complete response => receiptSection world request fun receiptId =>
    goto (world.putFile receiptId (.stored (request.receipt (.completed response)))) (.account response)
  | .account response => ⟨world, .done (.ok response), [.answered request response]⟩
  | .done result => goto world (.done result)

/-- A section may fail before it does anything, or after; the request is then refused. -/
inductive Fault where
  | none
  | before
  | after

/-- What happens to a worker: a request comes in, one of the calls makes its next section, or the
process ends and is started again. -/
inductive Event (ω : Type) where
  | start (request : Request ω) (nonce : Nat)
  | advance (index : Nat) (fault : Fault)
  | crash

def Section.faulted (world : World δ ρ ω) (result : Section δ ρ ω) : Fault → Section δ ρ ω
  | .none => result
  | .before => refuse world .database
  | .after => { result with phase := .done (.error .database), seen := result.seen.filter fun observation =>
      match observation with
      | .answered _ _ => false
      | _ => true }

def advance (world : World δ ρ ω) (index : Nat) (call : Call δ ρ ω) (fault : Fault) :
    World δ ρ ω × List (Observation ρ ω) :=
  let result := (runSection services world call).faulted world fault
  ({ result.world with calls := world.calls.set index { call with phase := result.phase } }, result.seen)

def step (world : World δ ρ ω) : Event ω → World δ ρ ω
  | .start request nonce => { world with calls := world.calls ++ [⟨request, nonce, .check⟩] }
  | .advance index fault =>
    match world.calls[index]? with
    | some call => (advance services world index call fault).1
    | none => world
  | .crash => { world with calls := [] }

def seen (world : World δ ρ ω) : Event ω → List (Observation ρ ω)
  | .advance index fault =>
    match world.calls[index]? with
    | some call => (advance services world index call fault).2
    | none => []
  | _ => []

end Sections
end Ffdb.Handler
