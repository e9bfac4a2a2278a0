import Ffdb.Lib.Keyed
import Ffdb.Lib.Machine
import Ffdb.Lib.Saturating

/-! The outbox of emails: jobs that workers claim, send and report on. A job says when it was locked, but not by whom. -/
namespace Ffdb.Email

abbrev Uuid := BitVec 128

def maxAttempts : Nat := 8

theorem maxAttempts_pos : 0 < maxAttempts := by decide

def lockMs : Int := 5*60*1000

inductive EmailError where
  | invalidArtifact
  | unsafeArtifact
  | undeclaredVariable (name : List Char)
  | missingVariable (name : List Char)
  | invalidVariableValue
  | headerInjection
  | invalidMailbox
  | invalidIdempotencyKey
  | unsafeProviderEndpoint
  | providerDnsFailed
  | invalidConfiguration
  | providerUnavailable
  | providerRateLimited
  | providerRejected
  | invalidProviderResponse
  | templateVersionExists
  | templateNotFound
  | encryption
  | repositoryUnavailable
  deriving DecidableEq

/-- Whether another attempt would be no use. -/
def EmailError.isPermanent : EmailError → Bool
  | .providerUnavailable | .providerRateLimited | .providerDnsFailed => false
  | _ => true

def errorCode : EmailError → String
  | .providerUnavailable => "provider_unavailable"
  | .providerRateLimited => "provider_rate_limited"
  | .providerRejected => "provider_rejected"
  | .invalidProviderResponse => "provider_invalid_response"
  | .encryption => "message_decryption_failed"
  | _ => "delivery_invalid"

inductive JobState where
  | queued
  | processing
  | delivered
  | dead
  deriving DecidableEq

structure EmailJob where
  tenantId : Uuid
  encryptedMessage : List UInt8
  encryptionKeyVersion : Int
  idempotencyKey : List Char
  state : JobState
  attemptCount : Nat
  maxAttempts : Nat
  nextAttemptAtMs : Int
  lockedAtMs : Option Int
  providerMessageId : Option (List Char)
  lastErrorCode : Option String
  createdAtMs : Int
  deliveredAtMs : Option Int
  deriving DecidableEq

structure DeliveryJob where
  id : Uuid
  tenantId : Uuid
  encryptedMessage : List UInt8
  encryptionKeyVersion : Int
  attemptCount : Nat
  maxAttempts : Nat
  deriving DecidableEq

inductive Outcome where
  | accepted (providerId : List Char)
  | failed (error : EmailError) (permanent : Bool)
  deriving DecidableEq

structure Delivery where
  job : DeliveryJob
  nowMs : Int64
  outcome : Option Outcome
  deriving DecidableEq

structure OutboxState where
  jobs : Table Uuid EmailJob := ∅
  workers : Table Nat Delivery := ∅

def EmailJob.claimable (job : EmailJob) (nowMs : Int64) : Bool :=
  (job.state = .queued && job.nextAttemptAtMs ≤ nowMs.toInt) ||
    (job.state = .processing && job.lockedAtMs.any fun lockedAtMs => lockedAtMs < nowMs.toInt - lockMs)

def EmailJob.isBefore (job other : EmailJob) : Bool :=
  job.nextAttemptAtMs < other.nextAttemptAtMs ||
    (job.nextAttemptAtMs = other.nextAttemptAtMs && job.createdAtMs < other.createdAtMs)

def earliest : List (Uuid × EmailJob) → Option (Uuid × EmailJob)
  | [] => none
  | entry :: rest =>
    match earliest rest with
    | none => some entry
    | some best => if best.2.isBefore entry.2 then some best else some entry

/-- The job that a claim takes; jobs that others have locked are skipped. -/
def candidate (jobs : Table Uuid EmailJob) (nowMs : Int64) (locked : List Uuid) : Option (Uuid × EmailJob) :=
  earliest ((jobs.entries.map fun entry => (entry.1, entry.2)).filter fun entry =>
    entry.2.claimable nowMs && !locked.contains entry.1)

def EmailJob.claim (job : EmailJob) (dbNowMs : Int) : EmailJob :=
  { job with state := .processing, lockedAtMs := some dbNowMs, attemptCount := job.attemptCount+1 }

def EmailJob.delivery (job : EmailJob) (id : Uuid) : DeliveryJob :=
  ⟨id, job.tenantId, job.encryptedMessage, job.encryptionKeyVersion, job.attemptCount, job.maxAttempts⟩

def EmailJob.deliver (job : EmailJob) (providerId : List Char) (dbNowMs : Int) : EmailJob :=
  { job with
    state := .delivered, providerMessageId := some providerId, deliveredAtMs := some dbNowMs
    lockedAtMs := none, lastErrorCode := none }

def retryDelayMs (attemptCount : Nat) : Nat := min (30000*2^(min (attemptCount-1) 16)) 3600000

def EmailJob.fail (job : EmailJob) (claimed : DeliveryJob) (error : EmailError) (nowMs : Int64) (permanent : Bool) : EmailJob :=
  { job with
    state := if permanent || claimed.maxAttempts ≤ claimed.attemptCount then .dead else .queued
    lastErrorCode := some (errorCode error)
    lockedAtMs := none
    nextAttemptAtMs := (Saturating.add nowMs (Int64.ofNat (retryDelayMs claimed.attemptCount))).toInt }

/-- A job after a report on it, which counts only while it is being processed. -/
def EmailJob.report (job : EmailJob) (delivery : Delivery) (outcome : Outcome) (dbNowMs : Int) : EmailJob :=
  if job.state = .processing then
    match outcome with
    | .accepted providerId => job.deliver providerId dbNowMs
    | .failed error permanent => job.fail delivery.job error delivery.nowMs permanent
  else job

inductive OutboxCall where
  | enqueue (id tenantId : Uuid) (encryptedMessage : List UInt8) (encryptionKeyVersion : Int)
    (idempotencyKey : List Char) (nowMs : Int64) (dbNowMs : Int)
  | claim (worker : Nat) (nowMs : Int64) (dbNowMs : Int) (locked : List Uuid)
  | send (worker : Nat) (answer : Except EmailError (List Char))
  | report (worker : Nat) (dbNowMs : Int)
  | crash (worker : Nat)

section Steps
variable {μ : Type} (decrypt : Uuid → Uuid → Int → List UInt8 → Except EmailError μ)

def DeliveryJob.message (job : DeliveryJob) : Except EmailError μ :=
  decrypt job.tenantId job.id job.encryptionKeyVersion job.encryptedMessage

/-- What comes of a job, when the transport gives this answer: a message that cannot be read is not sent. -/
def DeliveryJob.attempt (job : DeliveryJob) (answer : Except EmailError (List Char)) : Outcome :=
  match job.message decrypt, answer with
  | .error error, _ => .failed error true
  | .ok _, .ok providerId => .accepted providerId
  | .ok _, .error error => .failed error error.isPermanent

def outboxStep (state : OutboxState) : OutboxCall → OutboxState
  | .enqueue id tenantId encryptedMessage encryptionKeyVersion idempotencyKey nowMs dbNowMs =>
    if (state.jobs.lookup id).isSome || (state.jobs.findEntry fun _ job =>
      job.tenantId = tenantId && job.idempotencyKey = idempotencyKey).isSome then state
    else
      let job : EmailJob :=
        { tenantId, encryptedMessage, encryptionKeyVersion, idempotencyKey, state := .queued, attemptCount := 0
          maxAttempts, nextAttemptAtMs := nowMs.toInt, lockedAtMs := none, providerMessageId := none
          lastErrorCode := none, createdAtMs := dbNowMs, deliveredAtMs := none }
      { state with jobs := state.jobs.insert id job }
  | .claim worker nowMs dbNowMs locked =>
    match candidate state.jobs nowMs locked with
    | none => state
    | some (id, job) =>
      if (state.workers.lookup worker).isSome then state
      else
        { jobs := state.jobs.insert id (job.claim dbNowMs)
          workers := state.workers.insert worker ⟨(job.claim dbNowMs).delivery id, nowMs, none⟩ }
  | .send worker answer =>
    match state.workers.lookup worker with
    | none => state
    | some delivery =>
      match delivery.outcome with
      | some _ => state
      | none =>
        { state with
          workers := state.workers.insert worker { delivery with outcome := some (delivery.job.attempt decrypt answer) } }
  | .report worker dbNowMs =>
    match state.workers.lookup worker with
    | none => state
    | some delivery =>
      match delivery.outcome with
      | none => state
      | some outcome =>
        { jobs := state.jobs.mapValues fun id job =>
            if id = delivery.job.id then job.report delivery outcome dbNowMs else job
          workers := state.workers.erase worker }
  | .crash worker => { state with workers := state.workers.erase worker }

def outboxRun (calls : List OutboxCall) : OutboxState := Machine.run (outboxStep decrypt) {} calls

end Steps

end Ffdb.Email
