import Ffdb.Lib.Fallible
import Ffdb.Lib.Keyed
import Ffdb.Lib.Machine
import Ffdb.ObjectStorage.Grant
import Mathlib.Data.List.Induction

/-! The queue of what is to be cleaned up at the provider. Workers lease its items, and acknowledge them in
batches that stand or fall together. -/
namespace Ffdb.ObjectStorage
open Fallible

def maxCleanupAttempts : Int64 := 12

structure CleanupRow where
  providerKey : List Char
  action : StorageAction
  uploadId : Option (List Char)
  createdAtMs : Int64
  availableAtMs : Int64
  leaseToken : Option (List Char) := none
  leaseExpiresAtMs : Option Int64 := none
  attempts : Int64 := 0
  deriving DecidableEq

structure CleanupTarget where
  providerKey : List Char
  action : StorageAction
  uploadId : Option (List Char)
  deriving DecidableEq

def CleanupRow.target (row : CleanupRow) : CleanupTarget := ⟨row.providerKey, row.action, row.uploadId⟩

abbrev CleanupQueue := Table (List Char) CleanupRow

inductive CleanupError where
  | statementNotAllowed
  | reservationMismatch
  /-- the primary key is taken -/
  | constraint
  /-- an operation that would panic -/
  | overflow
  deriving DecidableEq

structure CleanupItem where
  id : List Char
  providerKey : List Char
  action : StorageAction
  uploadId : Option (List Char)
  leaseToken : List Char
  attempt : Nat
  leaseExpiresAtMs : Int64
  deriving DecidableEq

inductive CleanupDisposition where
  | deleted
  | retry
  deriving DecidableEq

structure CleanupAck where
  id : List Char
  leaseToken : List Char
  outcome : CleanupDisposition
  deriving DecidableEq

def cleanupRequired (action : StorageAction) : Bool :=
  action ∈ [.upload, .createMultipart, .uploadPart, .completeMultipart, .abortMultipart]

structure CleanupEntry where
  id : List Char
  providerKey : List Char
  action : StorageAction
  uploadId : Option (List Char)

section Queue
variable (nowMs : Int64)

def enqueueCleanup (queue : CleanupQueue) (entry : CleanupEntry) : Except CleanupError CleanupQueue := do
  require (!(entry.providerKey.isEmpty || 1024 < Text.byteLength entry.providerKey || !cleanupRequired entry.action))
    .statementNotAllowed
  require (queue.lookup entry.id).isNone .constraint
  pure (queue.insert entry.id
    { providerKey := entry.providerKey, action := entry.action, uploadId := entry.uploadId,
      createdAtMs := nowMs, availableAtMs := nowMs })

def CleanupRow.isFree (row : CleanupRow) : Bool :=
  row.availableAtMs ≤ nowMs && (row.leaseToken.isNone || row.leaseExpiresAtMs.any fun lease => lease ≤ nowMs)

/-- The order in which rows are claimed: by time, then by creation, then by identifier. -/
def claimedBefore (a b : List Char × CleanupRow) : Bool :=
  a.2.availableAtMs < b.2.availableAtMs || (a.2.availableAtMs = b.2.availableAtMs &&
    (a.2.createdAtMs < b.2.createdAtMs || (a.2.createdAtMs = b.2.createdAtMs && a.1 ≤ b.1)))

def claimCandidates (queue : CleanupQueue) (limit : Nat) : List (List Char × CleanupRow) :=
  (((queue.entries.filter fun entry => entry.2.isFree nowMs && entry.2.attempts < maxCleanupAttempts).map
    fun entry => (entry.1, entry.2)).mergeSort claimedBefore).take limit

def nextAttempt (attempts : Int64) : Int64 := min (Saturating.add attempts 1) maxCleanupAttempts

def claimOne (leaseExpiresAtMs : Int64) (claimed : CleanupQueue × List CleanupItem)
    (candidate : (List Char × CleanupRow) × List Char) : Except CleanupError (CleanupQueue × List CleanupItem) := do
  let ((id, selected), leaseToken) := candidate
  let attempts := nextAttempt selected.attempts
  let row ← orError (claimed.1.lookup id) .reservationMismatch
  require (row.isFree nowMs) .reservationMismatch
  let item : CleanupItem := {
    id
    providerKey := selected.providerKey
    action := selected.action
    uploadId := selected.uploadId
    leaseToken
    attempt := if 0 ≤ attempts then attempts.toInt.toNat else 2^32-1
    leaseExpiresAtMs }
  pure (claimed.1.insert id
    { row with leaseToken := some leaseToken, leaseExpiresAtMs := some leaseExpiresAtMs, attempts },
    claimed.2 ++ [item])

def claimCleanup (queue : CleanupQueue) (limit : Nat) (leaseDurationMs : Int64) (tokens : Vector (List Char) 100) :
    Except CleanupError (CleanupQueue × List CleanupItem) := do
  require (!(limit = 0 || 100 < limit || leaseDurationMs < 1000 || 15*60*1000 < leaseDurationMs)) .statementNotAllowed
  ((claimCandidates nowMs queue limit).zip tokens.toList).foldlM
    (claimOne nowMs (Saturating.add nowMs leaseDurationMs)) (queue, [])

/-- What a retry waits, or nothing when a shift would panic. -/
def backoffMs (attempts : Int64) : Option Int64 :=
  let less := Saturating.sub attempts 1
  let exponent := min (if 0 ≤ less && less.toInt < 2^32 then less.toInt.toNat else 2^32-1) 12
  if exponent < 64 then some (min (Int64.ofIntClamp (1000 * 2^exponent)) 3600000) else none

def countOne (count : Nat) : Option Nat := if count < Saturating.u64Max then some (count + 1) else none

structure AckProgress where
  queue : CleanupQueue
  removed : Nat := 0
  retried : Nat := 0

def ackOne (progress : AckProgress) (ack : CleanupAck) : Except CleanupError AckProgress := do
  let row ← orError (progress.queue.lookup ack.id) .reservationMismatch
  require (row.leaseToken = some ack.leaseToken) .reservationMismatch
  match ack.outcome with
  | .deleted =>
    let removed ← orError (countOne progress.removed) .overflow
    pure { progress with queue := progress.queue.erase ack.id, removed }
  | .retry =>
    let backoff ← orError (backoffMs row.attempts) .overflow
    let retried ← orError (countOne progress.retried) .overflow
    let rescheduled :=
      { row with availableAtMs := Saturating.add nowMs backoff, leaseToken := none, leaseExpiresAtMs := none }
    pure { progress with queue := progress.queue.insert ack.id rescheduled, retried }

def ackCleanup (queue : CleanupQueue) (acks : List CleanupAck) : Except CleanupError AckProgress := do
  require (!(acks.isEmpty || 100 < acks.length)) .statementNotAllowed
  acks.foldlM (ackOne nowMs) { queue }

end Queue

inductive CleanupCall where
  /-- what has expired is enqueued, then items are claimed -/
  | claim (expired : List CleanupEntry) (limit : Nat) (leaseDurationMs : Int64) (tokens : Vector (List Char) 100)
  | ack (acks : List CleanupAck)
  /-- another transaction enqueues an entry -/
  | enqueue (entry : CleanupEntry)

structure CleanupEvent where
  nowMs : Int64
  call : CleanupCall

inductive CleanupAnswer where
  | claimed (items : List CleanupItem)
  | acknowledged (removed retried : Nat)
  | enqueued
  | failed (error : CleanupError)
  deriving DecidableEq

def cleanupAttempt (queue : CleanupQueue) (nowMs : Int64) : CleanupCall →
    Except CleanupError (CleanupQueue × CleanupAnswer)
  | .claim expired limit leaseDurationMs tokens => do
    let queue ← expired.foldlM (enqueueCleanup nowMs) queue
    let (queue, items) ← claimCleanup nowMs queue limit leaseDurationMs tokens
    pure (queue, .claimed items)
  | .ack acks => do
    let progress ← ackCleanup nowMs queue acks
    pure (progress.queue, .acknowledged progress.removed progress.retried)
  | .enqueue entry => do
    let queue ← enqueueCleanup nowMs queue entry
    pure (queue, .enqueued)

def cleanupCall (queue : CleanupQueue) (event : CleanupEvent) : CleanupQueue × CleanupAnswer :=
  match cleanupAttempt queue event.nowMs event.call with
  | .ok result => result
  | .error error => (queue, .failed error)

/-- Until when a worker that was issued a token for an item takes itself to hold it. -/
abbrev LeaseBeliefs := List Char × List Char → Option Int64

def learnItem (beliefs : LeaseBeliefs) (item : CleanupItem) : LeaseBeliefs :=
  Function.update beliefs (item.id, item.leaseToken) (some item.leaseExpiresAtMs)

def forgetAck (beliefs : LeaseBeliefs) (ack : CleanupAck) : LeaseBeliefs :=
  Function.update beliefs (ack.id, ack.leaseToken) none

def learnCleanup (beliefs : LeaseBeliefs) (event : CleanupEvent) (answer : CleanupAnswer) : LeaseBeliefs :=
  match event.call, answer with
  | _, .claimed items => items.foldl learnItem beliefs
  | .ack acks, .acknowledged _ _ => acks.foldl forgetAck beliefs
  | _, _ => beliefs

structure CleanupWorld where
  queue : CleanupQueue := ∅
  beliefs : LeaseBeliefs := fun _ => none

def cleanupStep (world : CleanupWorld) (event : CleanupEvent) : CleanupWorld :=
  let called := cleanupCall world.queue event
  ⟨called.1, learnCleanup world.beliefs event called.2⟩

def cleanupRun (events : List CleanupEvent) : CleanupWorld := Machine.run cleanupStep {} events

def IsCurrent (queue : CleanupQueue) (id leaseToken : List Char) : Prop :=
  ∃ row, queue.lookup id = some row ∧ row.leaseToken = some leaseToken

/-- Whoever takes itself to hold an item, and still has time, does: its token is the current one. -/
def LeasesBelieved (nowMs : Int64) (queue : CleanupQueue) (beliefs : LeaseBeliefs) : Prop :=
  ∀ id leaseToken lease, beliefs (id, leaseToken) = some lease → nowMs < lease →
    ∃ row, queue.lookup id = some row ∧ row.leaseToken = some leaseToken ∧ row.leaseExpiresAtMs = some lease

def AttemptsBounded (queue : CleanupQueue) : Prop :=
  ∀ id row, queue.lookup id = some row → row.attempts ≤ maxCleanupAttempts

section Calls
variable {nowMs : Int64} {queue queue' : CleanupQueue} {beliefs : LeaseBeliefs}

theorem enqueueCleanup_ok {entry : CleanupEntry} (h : enqueueCleanup nowMs queue entry = .ok queue') :
    queue.lookup entry.id = none ∧ ∃ row, queue' = queue.insert entry.id row ∧ row.attempts = 0 ∧
      row.target = ⟨entry.providerKey, entry.action, entry.uploadId⟩ := by
  simp only [enqueueCleanup, bind_ok_iff, require_ok_iff, pure_ok_iff, Option.isNone_iff_eq_none] at h
  obtain ⟨-, -, -, hnone, rfl⟩ := h
  exact ⟨hnone, _, rfl, rfl, rfl⟩

theorem LeasesBelieved.enqueue {entry : CleanupEntry} (h : LeasesBelieved nowMs queue beliefs)
    (henqueue : enqueueCleanup nowMs queue entry = .ok queue') : LeasesBelieved nowMs queue' beliefs := by
  obtain ⟨hnone, row, rfl, -, -⟩ := enqueueCleanup_ok henqueue
  intro id leaseToken lease hbelief hlive
  obtain ⟨row', hlookup, hrow'⟩ := h id leaseToken lease hbelief hlive
  refine ⟨row', (AList.lookup_insert_ne ?_).trans hlookup, hrow'⟩
  rintro rfl
  rw [hnone] at hlookup
  cases hlookup

theorem AttemptsBounded.insert {id : List Char} {row : CleanupRow} (h : AttemptsBounded queue)
    (hrow : row.attempts ≤ maxCleanupAttempts) : AttemptsBounded (queue.insert id row) := by
  intro id' row' hlookup
  obtain ⟨rfl, rfl⟩ | ⟨-, hold⟩ := AList.lookup_insert_eq_some_iff.mp hlookup
  · exact hrow
  · exact h id' row' hold

theorem nextAttempt_le (attempts : Int64) : nextAttempt attempts ≤ maxCleanupAttempts := by
  change (if _ ≤ maxCleanupAttempts then _ else maxCleanupAttempts) ≤ maxCleanupAttempts
  split_ifs with hle
  · exact hle
  · exact Int64.le_refl _

theorem claimOne_ok {lease : Int64} {claimed claimed' : CleanupQueue × List CleanupItem} {id leaseToken : List Char}
    {selected : CleanupRow} (h : claimOne nowMs lease claimed ((id, selected), leaseToken) = .ok claimed') :
    ∃ row row' item, claimed.1.lookup id = some row ∧ row.isFree nowMs = true ∧
      claimed'.1 = claimed.1.insert id row' ∧ row'.leaseToken = some leaseToken ∧ row'.leaseExpiresAtMs = some lease ∧
      row'.attempts ≤ maxCleanupAttempts ∧ row'.target = row.target ∧ claimed'.2 = claimed.2 ++ [item] ∧ item.id = id ∧
      item.leaseToken = leaseToken ∧ item.leaseExpiresAtMs = lease := by
  simp only [claimOne, bind_ok_iff, require_ok_iff, orError_ok_iff, pure_ok_iff] at h
  obtain ⟨row, hlookup, -, hfree, rfl⟩ := h
  exact ⟨row, _, _, hlookup, hfree, rfl, rfl, rfl, nextAttempt_le _, rfl, rfl, rfl, rfl, rfl⟩

theorem not_isFree {row : CleanupRow} {leaseToken : List Char} {lease : Int64} (htoken : row.leaseToken = some leaseToken)
    (hlease : row.leaseExpiresAtMs = some lease) (hlive : nowMs < lease) : row.isFree nowMs = false := by
  have hlate : ¬lease ≤ nowMs := Int64.not_le.mpr hlive
  simp [CleanupRow.isFree, htoken, hlease, hlate]

theorem LeasesBelieved.claimOne {lease : Int64} {claimed claimed' : CleanupQueue × List CleanupItem}
    {candidate : (List Char × CleanupRow) × List Char}
    (h : LeasesBelieved nowMs claimed.1 (claimed.2.foldl learnItem beliefs))
    (hclaim : claimOne nowMs lease claimed candidate = .ok claimed') :
    LeasesBelieved nowMs claimed'.1 (claimed'.2.foldl learnItem beliefs) := by
  rcases candidate with ⟨⟨id, selected⟩, leaseToken⟩
  obtain ⟨row, row', item, hlookup, hfree, hqueue, htoken, hlease, -, -, hitems, rfl, rfl, rfl⟩ := claimOne_ok hclaim
  rw [hqueue, hitems, List.foldl_append]
  intro id' leaseToken' lease' hbelief hlive
  change learnItem (claimed.2.foldl learnItem beliefs) item (id', leaseToken') = some lease' at hbelief
  unfold learnItem at hbelief
  by_cases hsame : (id', leaseToken') = (item.id, item.leaseToken)
  · rw [hsame, Function.update_self] at hbelief
    cases hsame
    cases hbelief
    exact ⟨row', AList.lookup_insert _, htoken, hlease⟩
  · rw [Function.update_of_ne hsame] at hbelief
    obtain ⟨row₀, hlookup₀, htoken₀, hlease₀⟩ := h id' leaseToken' lease' hbelief hlive
    refine ⟨row₀, (AList.lookup_insert_ne ?_).trans hlookup₀, htoken₀, hlease₀⟩
    rintro rfl
    obtain rfl := Option.some.inj (hlookup.symm.trans hlookup₀)
    rw [not_isFree htoken₀ hlease₀ hlive] at hfree
    cases hfree

theorem LeasesBelieved.claimCleanup {limit : Nat} {leaseDurationMs : Int64} {tokens : Vector (List Char) 100}
    {items : List CleanupItem} (h : LeasesBelieved nowMs queue beliefs)
    (hclaim : claimCleanup nowMs queue limit leaseDurationMs tokens = .ok (queue', items)) :
    LeasesBelieved nowMs queue' (items.foldl learnItem beliefs) := by
  simp only [Ffdb.ObjectStorage.claimCleanup, bind_ok_iff] at hclaim
  obtain ⟨-, -, hfold⟩ := hclaim
  exact foldlM_keeps (P := fun claimed => LeasesBelieved nowMs claimed.1 (claimed.2.foldl learnItem beliefs))
    (fun _ hclaimed hone => hclaimed.claimOne hone) hfold h

theorem AttemptsBounded.claimCleanup {limit : Nat} {leaseDurationMs : Int64} {tokens : Vector (List Char) 100}
    {items : List CleanupItem} (h : AttemptsBounded queue)
    (hclaim : claimCleanup nowMs queue limit leaseDurationMs tokens = .ok (queue', items)) : AttemptsBounded queue' := by
  simp only [Ffdb.ObjectStorage.claimCleanup, bind_ok_iff] at hclaim
  obtain ⟨-, -, hfold⟩ := hclaim
  refine foldlM_keeps (P := fun claimed => AttemptsBounded claimed.1) ?_ hfold h
  rintro claimed ⟨⟨id, selected⟩, leaseToken⟩ claimed' - hbounded hone
  obtain ⟨row, row', item, -, -, hqueue, -, -, hattempts, -⟩ := claimOne_ok hone
  rw [hqueue]
  exact hbounded.insert hattempts

/-- An acknowledgement carries the current token, and takes it away. -/
theorem ackOne_ok {progress progress' : AckProgress} {ack : CleanupAck} (h : ackOne nowMs progress ack = .ok progress') :
    ∃ row, progress.queue.lookup ack.id = some row ∧ row.leaseToken = some ack.leaseToken ∧
      (progress'.queue = progress.queue.erase ack.id ∨ ∃ row', progress'.queue = progress.queue.insert ack.id row' ∧
        row'.leaseToken = none ∧ row'.attempts = row.attempts ∧ row'.target = row.target) := by
  simp only [ackOne, bind_ok_iff, orError_ok_iff, require_ok_iff, decide_eq_true_eq] at h
  obtain ⟨row, hlookup, -, htoken, h⟩ := h
  refine ⟨row, hlookup, htoken, ?_⟩
  cases houtcome : ack.outcome with
  | deleted =>
    simp only [houtcome, bind_ok_iff, orError_ok_iff, pure_ok_iff] at h
    obtain ⟨removed, -, rfl⟩ := h
    exact .inl rfl
  | retry =>
    simp only [houtcome, bind_ok_iff, orError_ok_iff, pure_ok_iff] at h
    obtain ⟨backoff, -, retried, -, rfl⟩ := h
    exact .inr ⟨_, rfl, rfl, rfl, rfl⟩

theorem lookup_ackOne {progress progress' : AckProgress} {ack : CleanupAck} {id : List Char}
    (h : ackOne nowMs progress ack = .ok progress') (hne : id ≠ ack.id) :
    progress'.queue.lookup id = progress.queue.lookup id := by
  obtain ⟨row, -, -, hqueue | ⟨row', hqueue, -, -⟩⟩ := ackOne_ok h
  · rw [hqueue, AList.lookup_erase_ne hne]
  · rw [hqueue, AList.lookup_insert_ne hne]

theorem not_isCurrent_ackOne {progress progress' : AckProgress} {ack : CleanupAck} (leaseToken : List Char)
    (h : ackOne nowMs progress ack = .ok progress') : ¬IsCurrent progress'.queue ack.id leaseToken := by
  rintro ⟨row, hlookup, htoken⟩
  obtain ⟨-, -, -, hqueue | ⟨row', hqueue, hnone, -⟩⟩ := ackOne_ok h
  · rw [hqueue, AList.lookup_erase] at hlookup
    cases hlookup
  · rw [hqueue, AList.lookup_insert] at hlookup
    cases hlookup
    rw [hnone] at htoken
    cases htoken

theorem LeasesBelieved.ackOne {progress progress' : AckProgress} {ack : CleanupAck}
    (h : LeasesBelieved nowMs progress.queue beliefs)
    (hack : Ffdb.ObjectStorage.ackOne nowMs progress ack = .ok progress') :
    LeasesBelieved nowMs progress'.queue (forgetAck beliefs ack) := by
  intro id leaseToken lease hbelief hlive
  unfold forgetAck at hbelief
  by_cases hsame : (id, leaseToken) = (ack.id, ack.leaseToken)
  · rw [hsame, Function.update_self] at hbelief
    cases hbelief
  · rw [Function.update_of_ne hsame] at hbelief
    obtain ⟨row, hlookup, htoken, hlease⟩ := h id leaseToken lease hbelief hlive
    refine ⟨row, ?_, htoken, hlease⟩
    rw [lookup_ackOne hack, hlookup]
    rintro rfl
    obtain ⟨row', hlookup', htoken', -⟩ := ackOne_ok hack
    obtain rfl := Option.some.inj (hlookup.symm.trans hlookup')
    obtain rfl := Option.some.inj (htoken.symm.trans htoken')
    exact hsame rfl

theorem LeasesBelieved.acks {acks : List CleanupAck} {progress progress' : AckProgress}
    (h : LeasesBelieved nowMs progress.queue beliefs)
    (hacks : acks.foldlM (Ffdb.ObjectStorage.ackOne nowMs) progress = .ok progress') :
    LeasesBelieved nowMs progress'.queue (acks.foldl forgetAck beliefs) := by
  induction acks generalizing progress beliefs with
  | nil =>
    obtain rfl := Except.ok.inj hacks
    exact h
  | cons ack acks ih =>
    rw [List.foldlM_cons, bind_ok_iff] at hacks
    obtain ⟨middle, hfirst, hrest⟩ := hacks
    exact ih (h.ackOne hfirst) hrest

/-- A batch goes through only if each of its tokens was current before it. -/
theorem isCurrent_of_acks {acks : List CleanupAck} {progress progress' : AckProgress}
    (hacks : acks.foldlM (ackOne nowMs) progress = .ok progress') :
    ∀ ack ∈ acks, IsCurrent progress.queue ack.id ack.leaseToken := by
  induction acks generalizing progress with
  | nil => simp
  | cons first acks ih =>
    rw [List.foldlM_cons, bind_ok_iff] at hacks
    obtain ⟨middle, hfirst, hrest⟩ := hacks
    intro ack hmem
    obtain rfl | hmem := List.mem_cons.mp hmem
    · obtain ⟨row, hlookup, htoken, -⟩ := ackOne_ok hfirst
      exact ⟨row, hlookup, htoken⟩
    · obtain ⟨row, hlookup, htoken⟩ := ih hrest ack hmem
      by_cases hsame : ack.id = first.id
      · exact absurd ⟨row, hsame ▸ hlookup, htoken⟩ (not_isCurrent_ackOne ack.leaseToken hfirst)
      · exact ⟨row, (lookup_ackOne hfirst hsame).symm.trans hlookup, htoken⟩

theorem lookup_acks {acks : List CleanupAck} {progress progress' : AckProgress} {id : List Char}
    (hacks : acks.foldlM (ackOne nowMs) progress = .ok progress') (hne : ∀ ack ∈ acks, id ≠ ack.id) :
    progress'.queue.lookup id = progress.queue.lookup id :=
  foldlM_keeps (P := fun middle => middle.queue.lookup id = progress.queue.lookup id)
    (fun hmem hkept hone => (lookup_ackOne hone (hne _ hmem)).trans hkept) hacks rfl

theorem AttemptsBounded.acks {acks : List CleanupAck} {progress progress' : AckProgress}
    (h : AttemptsBounded progress.queue) (hacks : acks.foldlM (ackOne nowMs) progress = .ok progress') :
    AttemptsBounded progress'.queue := by
  refine foldlM_keeps (P := fun middle => AttemptsBounded middle.queue) ?_ hacks h
  intro middle ack middle' _ hbounded hone
  obtain ⟨row, hlookup, -, hqueue | ⟨row', hqueue, -, hattempts, -⟩⟩ := ackOne_ok hone
  · rw [hqueue]
    intro id row' hlookup'
    by_cases hid : id = ack.id
    · subst hid
      simp at hlookup'
    · rw [AList.lookup_erase_ne hid] at hlookup'
      exact hbounded id row' hlookup'
  · rw [hqueue]
    exact hbounded.insert (hattempts ▸ hbounded ack.id row hlookup)

theorem exists_backoffMs (attempts : Int64) : ∃ backoff, backoffMs attempts = some backoff := by
  unfold backoffMs
  simp only
  rw [if_pos (lt_of_le_of_lt (min_le_right _ _) (by decide))]
  exact ⟨_, rfl⟩

/-- A fold that never fails in one way at a step never fails in that way. -/
theorem ackOne_error {progress : AckProgress} {ack : CleanupAck} {error : CleanupError}
    (hroom : progress.removed + progress.retried < Saturating.u64Max) (h : ackOne nowMs progress ack = .error error) :
    error = .reservationMismatch := by
  have hcount : ∀ {n : Nat}, n < Saturating.u64Max → countOne n ≠ none := by
    intro n hn
    simp [countOne, hn]
  simp only [ackOne, bind_error_iff, orError_error_iff, require_error_iff] at h
  obtain ⟨-, rfl⟩ | ⟨row, -, ⟨-, rfl⟩ | ⟨-, -, h⟩⟩ := h
  · rfl
  · rfl
  · cases houtcome : ack.outcome with
    | deleted =>
      simp only [houtcome, bind_error_iff, orError_error_iff] at h
      obtain ⟨hnone, -⟩ | ⟨_, -, h⟩ := h
      · exact absurd hnone (hcount (by omega))
      · cases h
    | retry =>
      simp only [houtcome, bind_error_iff, orError_error_iff] at h
      obtain ⟨hnone, -⟩ | ⟨_, -, ⟨hnone, -⟩ | ⟨_, -, h⟩⟩ := h
      · obtain ⟨backoff, hsome⟩ := exists_backoffMs row.attempts
        rw [hsome] at hnone
        cases hnone
      · exact absurd hnone (hcount (by omega))
      · cases h

theorem counts_ackOne {progress progress' : AckProgress} {ack : CleanupAck}
    (h : ackOne nowMs progress ack = .ok progress') :
    progress'.removed + progress'.retried = progress.removed + progress.retried + 1 := by
  have hcount : ∀ {n n' : Nat}, countOne n = some n' → n' = n + 1 := by
    intro n n' hn
    unfold countOne at hn
    split_ifs at hn
    exact (Option.some.inj hn).symm
  simp only [ackOne, bind_ok_iff, orError_ok_iff, require_ok_iff, decide_eq_true_eq] at h
  obtain ⟨row, -, -, -, h⟩ := h
  cases houtcome : ack.outcome with
  | deleted =>
    simp only [houtcome, bind_ok_iff, orError_ok_iff, pure_ok_iff] at h
    obtain ⟨removed, hremoved, rfl⟩ := h
    have := hcount hremoved
    simp only
    omega
  | retry =>
    simp only [houtcome, bind_ok_iff, orError_ok_iff, pure_ok_iff] at h
    obtain ⟨backoff, -, retried, hretried, rfl⟩ := h
    have := hcount hretried
    simp only
    omega

theorem acks_error {acks : List CleanupAck} {progress : AckProgress} {error : CleanupError}
    (hroom : progress.removed + progress.retried + acks.length < Saturating.u64Max)
    (h : acks.foldlM (ackOne nowMs) progress = .error error) : error = .reservationMismatch := by
  induction acks generalizing progress with
  | nil => cases h
  | cons ack acks ih =>
    rw [List.length_cons] at hroom
    rw [List.foldlM_cons, bind_error_iff] at h
    obtain hfirst | ⟨middle, hfirst, hrest⟩ := h
    · exact ackOne_error (by omega) hfirst
    · have hcounts := counts_ackOne hfirst
      exact ih (by omega) hrest

theorem ackCleanup_error {acks : List CleanupAck} {error : CleanupError}
    (h : ackCleanup nowMs queue acks = .error error) : error ≠ .overflow := by
  simp only [ackCleanup, bind_error_iff, require_error_iff] at h
  obtain ⟨-, rfl⟩ | ⟨_, hrequired, h⟩ := h
  · decide
  · rw [require_ok_iff] at hrequired
    simp only [Bool.not_eq_true', Bool.or_eq_false_iff, decide_eq_false_iff_not, not_lt] at hrequired
    have hmax : 100 < Saturating.u64Max := by decide
    rw [acks_error (by simp only; omega) h]
    decide

theorem foldlM_error {σ α : Type} {step : σ → α → Except CleanupError σ} {xs : List α} {s : σ} {error : CleanupError}
    (hstep : ∀ s x, step s x ≠ .error error) : xs.foldlM step s ≠ .error error := by
  induction xs generalizing s with
  | nil => exact fun h => nomatch h
  | cons x xs ih =>
    rw [List.foldlM_cons]
    intro h
    obtain hfirst | ⟨middle, -, hrest⟩ := (bind_error_iff ..).mp h
    · exact hstep s x hfirst
    · exact ih hrest

theorem enqueueCleanup_no_overflow (queue : CleanupQueue) (entry : CleanupEntry) :
    enqueueCleanup nowMs queue entry ≠ .error .overflow := by
  intro h
  simp only [enqueueCleanup, bind_error_iff, require_error_iff] at h
  obtain ⟨-, h⟩ | ⟨_, -, ⟨-, h⟩ | ⟨_, -, h⟩⟩ := h
  · cases h
  · cases h
  · cases h

theorem claimCleanup_no_overflow {limit : Nat} {leaseDurationMs : Int64} {tokens : Vector (List Char) 100} :
    claimCleanup nowMs queue limit leaseDurationMs tokens ≠ .error .overflow := by
  intro h
  simp only [claimCleanup, bind_error_iff, require_error_iff] at h
  obtain ⟨-, h⟩ | ⟨_, -, h⟩ := h
  · cases h
  · refine foldlM_error ?_ h
    rintro claimed ⟨⟨id, selected⟩, leaseToken⟩ h
    simp only [claimOne, bind_error_iff, orError_error_iff, require_error_iff] at h
    obtain ⟨-, h⟩ | ⟨_, -, ⟨-, h⟩ | ⟨_, -, h⟩⟩ := h
    · cases h
    · cases h
    · cases h

theorem cleanupAttempt_no_overflow (queue : CleanupQueue) (nowMs : Int64) (call : CleanupCall) :
    cleanupAttempt queue nowMs call ≠ .error .overflow := by
  intro h
  cases call with
  | claim expired limit leaseDurationMs tokens =>
    simp only [cleanupAttempt, bind_error_iff] at h
    obtain h | ⟨_, -, h | ⟨_, -, h⟩⟩ := h
    · exact foldlM_error enqueueCleanup_no_overflow h
    · exact claimCleanup_no_overflow h
    · cases h
  | ack acks =>
    simp only [cleanupAttempt, bind_error_iff] at h
    obtain h | ⟨_, -, h⟩ := h
    · exact ackCleanup_error h rfl
    · cases h
  | enqueue entry =>
    simp only [cleanupAttempt, bind_error_iff] at h
    obtain h | ⟨_, -, h⟩ := h
    · exact enqueueCleanup_no_overflow _ _ h
    · cases h

theorem cleanupAttempt_not_failed {result : CleanupQueue × CleanupAnswer} {call : CleanupCall}
    (h : cleanupAttempt queue nowMs call = .ok result) (error : CleanupError) : result.2 ≠ .failed error := by
  cases call with
  | claim expired limit leaseDurationMs tokens =>
    simp only [cleanupAttempt, bind_ok_iff, pure_ok_iff] at h
    obtain ⟨_, -, _, -, rfl⟩ := h
    exact fun h => by cases h
  | ack acks =>
    simp only [cleanupAttempt, bind_ok_iff, pure_ok_iff] at h
    obtain ⟨_, -, rfl⟩ := h
    exact fun h => by cases h
  | enqueue entry =>
    simp only [cleanupAttempt, bind_ok_iff, pure_ok_iff] at h
    obtain ⟨_, -, rfl⟩ := h
    exact fun h => by cases h

/-- No operation panics, whatever the queue holds and whatever the clock says. -/
theorem cleanupCall_no_overflow (queue : CleanupQueue) (event : CleanupEvent) :
    (cleanupCall queue event).2 ≠ .failed .overflow := by
  unfold cleanupCall
  cases hattempt : cleanupAttempt queue event.nowMs event.call with
  | ok result => exact cleanupAttempt_not_failed hattempt .overflow
  | error error =>
    intro h
    cases h
    exact cleanupAttempt_no_overflow _ _ _ hattempt

def Queued (queue : CleanupQueue) (target : CleanupTarget) : Prop :=
  ∃ id row, queue.lookup id = some row ∧ row.target = target

theorem queued_enqueue {entry : CleanupEntry} {target : CleanupTarget}
    (h : enqueueCleanup nowMs queue entry = .ok queue') (hqueued : Queued queue' target) :
    target = ⟨entry.providerKey, entry.action, entry.uploadId⟩ ∨ Queued queue target := by
  obtain ⟨-, row, rfl, -, htarget⟩ := enqueueCleanup_ok h
  obtain ⟨id, row', hlookup, rfl⟩ := hqueued
  obtain ⟨-, rfl⟩ | ⟨-, hold⟩ := AList.lookup_insert_eq_some_iff.mp hlookup
  · exact .inl htarget
  · exact .inr ⟨id, row', hold, rfl⟩

theorem queued_claimCleanup {limit : Nat} {leaseDurationMs : Int64} {tokens : Vector (List Char) 100}
    {items : List CleanupItem} {target : CleanupTarget}
    (h : claimCleanup nowMs queue limit leaseDurationMs tokens = .ok (queue', items)) (hqueued : Queued queue' target) :
    Queued queue target := by
  simp only [claimCleanup, bind_ok_iff] at h
  obtain ⟨-, -, hfold⟩ := h
  refine foldlM_keeps (P := fun claimed => Queued claimed.1 target → Queued queue target) ?_ hfold id hqueued
  rintro claimed ⟨⟨id, selected⟩, leaseToken⟩ claimed' - hclaimed hone ⟨id', row'', hlookup, htarget⟩
  obtain ⟨row, row', item, hrow, -, hqueue, -, -, -, hsame, -⟩ := claimOne_ok hone
  rw [hqueue] at hlookup
  obtain ⟨-, rfl⟩ | ⟨-, hold⟩ := AList.lookup_insert_eq_some_iff.mp hlookup
  · exact hclaimed ⟨id, row, hrow, hsame.symm.trans htarget⟩
  · exact hclaimed ⟨id', row'', hold, htarget⟩

theorem queued_ackCleanup {acks : List CleanupAck} {progress : AckProgress} {target : CleanupTarget}
    (h : ackCleanup nowMs queue acks = .ok progress) (hqueued : Queued progress.queue target) : Queued queue target := by
  simp only [ackCleanup, bind_ok_iff] at h
  obtain ⟨-, -, hfold⟩ := h
  refine foldlM_keeps (P := fun progress => Queued progress.queue target → Queued queue target) ?_ hfold id hqueued
  rintro before ack after - hbefore hone ⟨id, row'', hlookup, htarget⟩
  obtain ⟨row, hrow, -, hqueue | ⟨row', hqueue, -, -, hsame⟩⟩ := ackOne_ok hone
  · rw [hqueue, AList.lookup_erase_eq_some_iff] at hlookup
    exact hbefore ⟨id, row'', hlookup.2, htarget⟩
  · rw [hqueue] at hlookup
    obtain ⟨-, rfl⟩ | ⟨-, hold⟩ := AList.lookup_insert_eq_some_iff.mp hlookup
    · exact hbefore ⟨ack.id, row, hrow, hsame.symm.trans htarget⟩
    · exact hbefore ⟨id, row'', hold, htarget⟩

structure CleanupWorld.Sound (nowMs : Int64) (world : CleanupWorld) : Prop where
  believed : LeasesBelieved nowMs world.queue world.beliefs
  bounded : AttemptsBounded world.queue

theorem CleanupWorld.Sound.step {world : CleanupWorld} {event : CleanupEvent} (h : world.Sound event.nowMs) :
    (cleanupStep world event).Sound event.nowMs := by
  rcases event with ⟨nowMs, call⟩
  unfold cleanupStep cleanupCall
  cases hattempt : cleanupAttempt world.queue nowMs call with
  | error error =>
    have hkept : learnCleanup world.beliefs ⟨nowMs, call⟩ (.failed error) = world.beliefs := by
      cases call <;> rfl
    simp only [hkept]
    exact h
  | ok result =>
    cases call with
    | claim expired limit leaseDurationMs tokens =>
      simp only [cleanupAttempt, bind_ok_iff, pure_ok_iff] at hattempt
      obtain ⟨enqueued, henqueued, ⟨claimed, items⟩, hclaim, rfl⟩ := hattempt
      have hbelieved : LeasesBelieved nowMs enqueued world.beliefs :=
        foldlM_keeps (P := fun queue => LeasesBelieved nowMs queue world.beliefs)
          (fun _ hbelieved henqueue => hbelieved.enqueue henqueue) henqueued h.believed
      have hbounded : AttemptsBounded enqueued := by
        refine foldlM_keeps (P := AttemptsBounded) ?_ henqueued h.bounded
        intro queue entry queue' _ hbounded henqueue
        obtain ⟨-, row, rfl, hzero, -⟩ := enqueueCleanup_ok henqueue
        exact hbounded.insert (by rw [hzero]; decide)
      exact ⟨hbelieved.claimCleanup hclaim, hbounded.claimCleanup hclaim⟩
    | ack acks =>
      simp only [cleanupAttempt, ackCleanup, bind_ok_iff, pure_ok_iff] at hattempt
      obtain ⟨progress, ⟨-, -, hacks⟩, rfl⟩ := hattempt
      have hbelieved : LeasesBelieved nowMs (AckProgress.queue { queue := world.queue }) world.beliefs := h.believed
      have hbounded : AttemptsBounded (AckProgress.queue { queue := world.queue }) := h.bounded
      exact ⟨hbelieved.acks hacks, hbounded.acks hacks⟩
    | enqueue entry =>
      simp only [cleanupAttempt, bind_ok_iff, pure_ok_iff] at hattempt
      obtain ⟨queue, henqueue, rfl⟩ := hattempt
      refine ⟨h.believed.enqueue henqueue, ?_⟩
      obtain ⟨-, row, rfl, hzero, -⟩ := enqueueCleanup_ok henqueue
      exact h.bounded.insert (by rw [hzero]; decide)

def ClockedEvents (events : List CleanupEvent) : Prop := events.Pairwise fun first second => first.nowMs ≤ second.nowMs

theorem sound_cleanupRun {events : List CleanupEvent} (hclock : ClockedEvents events) {nowMs : Int64}
    (hnow : ∀ event ∈ events, event.nowMs ≤ nowMs) : (cleanupRun events).Sound nowMs := by
  induction events using List.reverseRecOn generalizing nowMs with
  | nil =>
    refine ⟨?_, ?_⟩
    · intro id leaseToken lease hbelief
      cases hbelief
    · intro id row hlookup
      cases hlookup
  | append_singleton events event ih =>
    obtain ⟨hevents, -, hlast⟩ := List.pairwise_append.mp hclock
    have hstep := (ih hevents fun earlier hmem => hlast earlier hmem event (by simp)).step
    have hrun : cleanupRun (events ++ [event]) = cleanupStep (cleanupRun events) event := by
      unfold cleanupRun
      exact Machine.run_append _ events [event]
    rw [hrun]
    refine ⟨?_, hstep.bounded⟩
    intro id leaseToken lease hbelief hlive
    exact hstep.believed id leaseToken lease hbelief (Int64.lt_of_le_of_lt (hnow event (by simp)) hlive)

/-- Leases of cleanup items, for every interleaving of claims and acknowledgements under a clock that does not
go back. The unexpired lease of an item is one, and the current one; an item goes or is rescheduled only
by its current token; a batch with a stale token changes nothing; attempts stay bounded; and nothing
overflows, whatever is stored and whatever the clock says. -/
theorem cleanup_leases_exclusive (events : List CleanupEvent) (hclock : ClockedEvents events) :
    (∀ nowMs, (∀ event ∈ events, event.nowMs ≤ nowMs) →
      ∀ id leaseToken leaseToken' lease lease', (cleanupRun events).beliefs (id, leaseToken) = some lease →
        (cleanupRun events).beliefs (id, leaseToken') = some lease' → nowMs < lease → nowMs < lease' →
        leaseToken = leaseToken' ∧ IsCurrent (cleanupRun events).queue id leaseToken) ∧
    (∀ nowMs acks, let queue := (cleanupRun events).queue
      let called := cleanupCall queue ⟨nowMs, .ack acks⟩
      (∀ id row, queue.lookup id = some row → called.1.lookup id ≠ some row →
        ∃ ack ∈ acks, ack.id = id ∧ row.leaseToken = some ack.leaseToken) ∧
      ((∃ ack ∈ acks, ¬IsCurrent queue ack.id ack.leaseToken) →
        called.1 = queue ∧ ∃ error, called.2 = .failed error)) ∧
    (∀ id row, (cleanupRun events).queue.lookup id = some row → row.attempts ≤ maxCleanupAttempts) ∧
    ∀ queue event, (cleanupCall queue event).2 ≠ .failed .overflow := by
  refine ⟨?_, ?_, ?_, cleanupCall_no_overflow⟩
  · intro nowMs hnow id leaseToken leaseToken' lease lease' hbelief hbelief' hlive hlive'
    have hsound := sound_cleanupRun hclock hnow
    obtain ⟨row, hlookup, htoken, -⟩ := hsound.believed id leaseToken lease hbelief hlive
    obtain ⟨row', hlookup', htoken', -⟩ := hsound.believed id leaseToken' lease' hbelief' hlive'
    obtain rfl := Option.some.inj (hlookup.symm.trans hlookup')
    exact ⟨Option.some.inj (htoken.symm.trans htoken'), row, hlookup, htoken⟩
  · intro nowMs acks
    generalize (cleanupRun events).queue = queue
    intro queue called
    have hcalled : called = cleanupCall queue ⟨nowMs, .ack acks⟩ := rfl
    unfold cleanupCall at hcalled
    cases hattempt : cleanupAttempt queue nowMs (.ack acks) with
    | error error =>
      simp only [hattempt] at hcalled
      rw [hcalled]
      exact ⟨fun id row hlookup hchanged => absurd hlookup hchanged, fun _ => ⟨rfl, error, rfl⟩⟩
    | ok result =>
      simp only [hattempt] at hcalled
      simp only [cleanupAttempt, ackCleanup, bind_ok_iff, pure_ok_iff] at hattempt
      obtain ⟨progress, ⟨-, -, hacks⟩, rfl⟩ := hattempt
      have hcurrent := isCurrent_of_acks hacks
      refine ⟨?_, ?_⟩
      · intro id row hlookup hchanged
        by_contra hnone
        have hkept : progress.queue.lookup id = queue.lookup id := by
          refine lookup_acks hacks ?_
          rintro ack hmem rfl
          obtain ⟨row', hlookup', htoken⟩ := hcurrent ack hmem
          obtain rfl := Option.some.inj (hlookup.symm.trans hlookup')
          exact hnone ⟨ack, hmem, rfl, htoken⟩
        rw [hcalled] at hchanged
        exact hchanged (hkept.trans hlookup)
      · rintro ⟨ack, hmem, hstale⟩
        exact absurd (hcurrent ack hmem) hstale
  · intro id row hlookup
    exact (sound_cleanupRun hclock fun event _ => Int64.le_maxValue event.nowMs).bounded id row hlookup

private def takeover : List CleanupEvent :=
  [⟨0, .enqueue ⟨"cleanup".toList, "key".toList, .upload, none⟩⟩,
    ⟨10, .claim [] 1 1000 (Vector.replicate 100 "first".toList)⟩,
    ⟨1010, .claim [] 1 1000 (Vector.replicate 100 "second".toList)⟩]

theorem takeover_exclusive :
    ((cleanupRun takeover).queue.lookup "cleanup".toList).map (·.attempts) = some 2 ∧
    (cleanupCall (cleanupRun takeover).queue ⟨1020, .ack [⟨"cleanup".toList, "first".toList, .deleted⟩]⟩).2 =
      .failed .reservationMismatch ∧
    ∀ id row, (cleanupRun takeover).queue.lookup id = some row → row.attempts ≤ maxCleanupAttempts :=
  ⟨by decide +kernel, by decide +kernel,
    (cleanup_leases_exclusive takeover (by unfold ClockedEvents takeover; decide +kernel)).2.2.1⟩

end Calls

end Ffdb.ObjectStorage
