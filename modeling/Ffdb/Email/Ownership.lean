import Mathlib.Data.List.Induction
import Ffdb.Email.Outbox

/-! Who owns a job of the outbox. A worker that is slower than the lock reports on a job that another has claimed
since, and the job cannot tell the two apart; the number of its attempts can. -/
namespace Ffdb.Email
variable {μ : Type} (decrypt : Uuid → Uuid → Int → List UInt8 → Except EmailError μ)

/-- The worker's job was claimed again since: every claim counts one attempt more. -/
def TakenOver (state : OutboxState) (worker : Nat) : Prop :=
  ∃ delivery job, state.workers.lookup worker = some delivery ∧ state.jobs.lookup delivery.job.id = some job ∧
    job.attemptCount ≠ delivery.job.attemptCount

def Sends (state : OutboxState) (call : OutboxCall) (id : Uuid) : Prop :=
  ∃ worker answer delivery, call = .send worker answer ∧ state.workers.lookup worker = some delivery ∧
    delivery.outcome = none ∧ delivery.job.id = id ∧ ∃ message, delivery.job.message decrypt = .ok message

def claimed (state : OutboxState) : OutboxCall → List Uuid
  | .claim worker nowMs _ locked =>
    match candidate state.jobs nowMs locked with
    | some (id, _) => if (state.workers.lookup worker).isSome then [] else [id]
    | none => []
  | _ => []

def claimCount (id : Uuid) (calls : List OutboxCall) : Nat :=
  (Machine.trace (outboxStep decrypt) claimed {} calls).count id

structure OneOwner (calls : List OutboxCall) : Prop where
  takenOver : ∀ before worker dbNowMs after, calls = before ++ .report worker dbNowMs :: after →
    TakenOver (outboxRun decrypt before) worker → ∀ id,
    (outboxStep decrypt (outboxRun decrypt before) (.report worker dbNowMs)).jobs.lookup id =
      (outboxRun decrypt before).jobs.lookup id
  delivered : ∀ before more after, calls = before ++ more ++ after → ∀ id job,
    (outboxRun decrypt before).jobs.lookup id = some job → job.state = .delivered →
    (outboxRun decrypt (before ++ more)).jobs.lookup id = some job
  unsent : ∀ before call after, calls = before ++ call :: after → ∀ id job,
    (outboxRun decrypt before).jobs.lookup id = some job → job.state = .delivered →
    ¬Sends decrypt (outboxRun decrypt before) call id
  attempts : ∀ before after, calls = before ++ after → ∀ id job,
    (outboxRun decrypt before).jobs.lookup id = some job → claimCount decrypt id before ≤ job.maxAttempts

/-- A step at which nothing is amiss: who reports after being taken over finds the job no longer processed, who sends
then does not find it delivered, and a job that is taken over has an attempt left. -/
def InTime (state : OutboxState) : OutboxCall → Prop
  | .claim worker nowMs _ locked => state.workers.lookup worker = none → ∀ id job,
    candidate state.jobs nowMs locked = some (id, job) → job.state = .processing → job.attemptCount < job.maxAttempts
  | .send worker _ => ∀ delivery job, state.workers.lookup worker = some delivery → delivery.outcome = none →
    (∃ message, delivery.job.message decrypt = .ok message) → state.jobs.lookup delivery.job.id = some job →
    job.attemptCount ≠ delivery.job.attemptCount → job.state ≠ .delivered
  | .report worker _ => ∀ delivery job, state.workers.lookup worker = some delivery → delivery.outcome.isSome = true →
    state.jobs.lookup delivery.job.id = some job → job.attemptCount ≠ delivery.job.attemptCount → job.state ≠ .processing
  | .enqueue .. | .crash _ => True

/-- The workers hold jobs of attempts of their own, and a job whose last attempt is held is being processed. -/
structure Held (state : OutboxState) : Prop where
  known : ∀ worker delivery, state.workers.lookup worker = some delivery → ∃ job,
    state.jobs.lookup delivery.job.id = some job ∧ delivery.job.attemptCount ≤ job.attemptCount ∧
      delivery.job.maxAttempts = job.maxAttempts ∧
      (job.attemptCount = delivery.job.attemptCount → job.state = .processing)
  apart : ∀ worker worker' delivery delivery', state.workers.lookup worker = some delivery →
    state.workers.lookup worker' = some delivery' → delivery.job.id = delivery'.job.id →
    delivery.job.attemptCount = delivery'.job.attemptCount → worker = worker'
  bounded : ∀ id job, state.jobs.lookup id = some job →
    job.attemptCount ≤ job.maxAttempts ∧ (job.state = .queued → job.attemptCount < job.maxAttempts)

section Candidates
variable {jobs : Table Uuid EmailJob} {nowMs : Int64} {locked : List Uuid} {id : Uuid} {job : EmailJob}

theorem mem_of_earliest {entries : List (Uuid × EmailJob)} {entry : Uuid × EmailJob}
    (h : earliest entries = some entry) : entry ∈ entries := by
  induction entries with
  | nil => cases h
  | cons first rest ih =>
    unfold earliest at h
    cases hrest : earliest rest with
    | none =>
      rw [hrest] at h
      obtain rfl := Option.some.inj h
      exact List.mem_cons_self
    | some best =>
      rw [hrest] at h
      dsimp only at h
      split at h
      · exact List.mem_cons_of_mem _ (ih (hrest.trans h))
      · obtain rfl := Option.some.inj h
        exact List.mem_cons_self

theorem candidate_eq_some (h : candidate jobs nowMs locked = some (id, job)) :
    jobs.lookup id = some job ∧ job.claimable nowMs = true := by
  obtain ⟨hmem, hholds⟩ := List.mem_filter.mp (mem_of_earliest h)
  obtain ⟨entry, hentry, hsame⟩ := List.mem_map.mp hmem
  cases hsame
  exact ⟨AList.mem_entries.mp hentry, (Bool.and_eq_true_iff.mp hholds).1⟩

theorem state_of_claimable (h : job.claimable nowMs = true) : job.state = .queued ∨ job.state = .processing := by
  simp only [EmailJob.claimable, Bool.or_eq_true, Bool.and_eq_true, decide_eq_true_eq] at h
  obtain ⟨hqueued, -⟩ | ⟨hprocessing, -⟩ := h
  · exact .inl hqueued
  · exact .inr hprocessing

end Candidates

section Reports
variable {job : EmailJob} {delivery : Delivery} {outcome : Outcome} {dbNowMs : Int}

theorem report_of_not_processing (h : job.state ≠ .processing) : job.report delivery outcome dbNowMs = job := if_neg h

/-- A report on a job that is being processed ends that. -/
theorem report_state (h : job.state = .processing) : (job.report delivery outcome dbNowMs).state ≠ .processing := by
  unfold EmailJob.report
  rw [if_pos h]
  cases outcome with
  | accepted providerId => exact fun hfalse => nomatch hfalse
  | failed error permanent =>
    simp only [EmailJob.fail]
    split
    · exact fun hfalse => nomatch hfalse
    · exact fun hfalse => nomatch hfalse

theorem report_counts (job : EmailJob) (delivery : Delivery) (outcome : Outcome) (dbNowMs : Int) :
    (job.report delivery outcome dbNowMs).attemptCount = job.attemptCount ∧
      (job.report delivery outcome dbNowMs).maxAttempts = job.maxAttempts := by
  unfold EmailJob.report
  split
  · cases outcome with
    | accepted providerId => exact ⟨rfl, rfl⟩
    | failed error permanent => exact ⟨rfl, rfl⟩
  · exact ⟨rfl, rfl⟩

/-- A job is queued again only when its attempts are not used up. -/
theorem report_queued (h : job.state = .processing) (hqueued : (job.report delivery outcome dbNowMs).state = .queued) :
    delivery.job.attemptCount < delivery.job.maxAttempts := by
  unfold EmailJob.report at hqueued
  rw [if_pos h] at hqueued
  cases outcome with
  | accepted providerId => cases hqueued
  | failed error permanent =>
    simp only [EmailJob.fail] at hqueued
    split at hqueued
    · cases hqueued
    · rename_i hleft
      simp only [Bool.or_eq_true, decide_eq_true_eq, not_or, Nat.not_le] at hleft
      exact hleft.2

end Reports

section Steps
variable {decrypt} {state : OutboxState} {id : Uuid} {job : EmailJob} {dbNowMs : Int}

theorem lookup_report {worker : Nat} {delivery : Delivery} {outcome : Outcome} {dbNowMs : Int}
    (hworker : state.workers.lookup worker = some delivery) (houtcome : delivery.outcome = some outcome) (id : Uuid) :
    (outboxStep decrypt state (.report worker dbNowMs)).jobs.lookup id =
      (state.jobs.lookup id).map fun job => if id = delivery.job.id then job.report delivery outcome dbNowMs else job := by
  simp only [outboxStep, hworker, houtcome, AList.lookup_mapValues]

theorem delivered_step (h : state.jobs.lookup id = some job) (hdelivered : job.state = .delivered) (call : OutboxCall) :
    (outboxStep decrypt state call).jobs.lookup id = some job := by
  cases call with
  | enqueue id' tenantId encryptedMessage encryptionKeyVersion idempotencyKey nowMs dbNowMs =>
    simp only [outboxStep]
    split
    · exact h
    · rename_i hfresh
      have hne : id ≠ id' := by
        rintro rfl
        simp [h] at hfresh
      exact (AList.lookup_insert_ne hne).trans h
  | claim worker nowMs dbNowMs locked =>
    simp only [outboxStep]
    cases hcandidate : candidate state.jobs nowMs locked with
    | none => exact h
    | some entry =>
      obtain ⟨id', job'⟩ := entry
      obtain ⟨hlookup, hclaimable⟩ := candidate_eq_some hcandidate
      dsimp only
      split
      · exact h
      · have hne : id ≠ id' := by
          rintro rfl
          obtain rfl := Option.some.inj (h.symm.trans hlookup)
          obtain hqueued | hprocessing := state_of_claimable hclaimable
          · rw [hdelivered] at hqueued
            cases hqueued
          · rw [hdelivered] at hprocessing
            cases hprocessing
        exact (AList.lookup_insert_ne hne).trans h
  | send worker answer =>
    simp only [outboxStep]
    split
    · exact h
    · split
      · exact h
      · exact h
  | report worker dbNowMs =>
    cases hworker : state.workers.lookup worker with
    | none => simpa only [outboxStep, hworker] using h
    | some delivery =>
      cases houtcome : delivery.outcome with
      | none => simpa only [outboxStep, hworker, houtcome] using h
      | some outcome =>
        have hnot : job.state ≠ .processing := by
          rw [hdelivered]
          exact fun hfalse => nomatch hfalse
        rw [lookup_report hworker houtcome, h, Option.map_some, report_of_not_processing hnot, ite_self]
  | crash worker => exact h

theorem Held.enqueue (h : Held state) (hfresh : state.jobs.lookup id = none) (hqueued : job.state = .queued)
    (hbounded : job.attemptCount < job.maxAttempts) : Held { state with jobs := state.jobs.insert id job } where
  known := by
    intro worker delivery hworker
    obtain ⟨found, hfound, hrest⟩ := h.known worker delivery hworker
    have hne : delivery.job.id ≠ id := by
      rintro rfl
      rw [hfresh] at hfound
      cases hfound
    exact ⟨found, (AList.lookup_insert_ne hne).trans hfound, hrest⟩
  apart := h.apart
  bounded := by
    intro id' job' hlookup
    obtain ⟨rfl, rfl⟩ | ⟨-, hlookup⟩ := AList.lookup_insert_eq_some_iff.mp hlookup
    · exact ⟨hbounded.le, fun _ => hbounded⟩
    · exact h.bounded id' job' hlookup

theorem Held.claim (h : Held state) (hlookup : state.jobs.lookup id = some job) (hleft : job.attemptCount < job.maxAttempts)
    {worker : Nat} (hidle : state.workers.lookup worker = none) (nowMs : Int64) (dbNowMs : Int) : Held {
      jobs := state.jobs.insert id (job.claim dbNowMs)
      workers := state.workers.insert worker ⟨(job.claim dbNowMs).delivery id, nowMs, none⟩ } where
  known := by
    intro worker' delivery hworker
    obtain ⟨rfl, rfl⟩ | ⟨-, hworker⟩ := AList.lookup_insert_eq_some_iff.mp hworker
    · exact ⟨job.claim dbNowMs, AList.lookup_insert _, le_rfl, rfl, fun _ => rfl⟩
    · obtain ⟨found, hfound, hle, hmax, hprocessing⟩ := h.known worker' delivery hworker
      by_cases hid : delivery.job.id = id
      · subst hid
        obtain rfl := Option.some.inj (hlookup.symm.trans hfound)
        exact ⟨job.claim dbNowMs, AList.lookup_insert _, hle.trans (Nat.le_succ _), hmax, fun _ => rfl⟩
      · exact ⟨found, (AList.lookup_insert_ne hid).trans hfound, hle, hmax, hprocessing⟩
  apart := by
    -- the new claim's attempt is one more than any that is held
    have hnew : ∀ worker' delivery, state.workers.lookup worker' = some delivery → delivery.job.id = id →
        delivery.job.attemptCount ≠ job.attemptCount+1 := by
      intro worker' delivery hworker hid
      obtain ⟨found, hfound, hle, -⟩ := h.known worker' delivery hworker
      rw [hid] at hfound
      obtain rfl := Option.some.inj (hlookup.symm.trans hfound)
      omega
    intro worker₁ worker₂ delivery₁ delivery₂ h₁ h₂ hid hcount
    obtain ⟨rfl, rfl⟩ | ⟨-, hold₁⟩ := AList.lookup_insert_eq_some_iff.mp h₁
    · obtain ⟨rfl, rfl⟩ | ⟨-, hold₂⟩ := AList.lookup_insert_eq_some_iff.mp h₂
      · rfl
      · exact absurd hcount.symm (hnew worker₂ delivery₂ hold₂ hid.symm)
    · obtain ⟨rfl, rfl⟩ | ⟨-, hold₂⟩ := AList.lookup_insert_eq_some_iff.mp h₂
      · exact absurd hcount (hnew worker₁ delivery₁ hold₁ hid)
      · exact h.apart worker₁ worker₂ delivery₁ delivery₂ hold₁ hold₂ hid hcount
  bounded := by
    intro id' job' hlookup'
    obtain ⟨rfl, rfl⟩ | ⟨-, hlookup'⟩ := AList.lookup_insert_eq_some_iff.mp hlookup'
    · exact ⟨hleft, fun hfalse => nomatch hfalse⟩
    · exact h.bounded id' job' hlookup'

theorem Held.send (h : Held state) {worker : Nat} {delivery : Delivery}
    (hworker : state.workers.lookup worker = some delivery) (outcome : Option Outcome) :
    Held { state with workers := state.workers.insert worker { delivery with outcome } } where
  known := by
    intro worker' delivery' hlookup
    obtain ⟨rfl, rfl⟩ | ⟨-, hlookup⟩ := AList.lookup_insert_eq_some_iff.mp hlookup
    · exact h.known worker' delivery hworker
    · exact h.known worker' delivery' hlookup
  apart := by
    have hheld : ∀ worker' delivery', (state.workers.insert worker { delivery with outcome }).lookup worker' = some delivery' →
        ∃ held, state.workers.lookup worker' = some held ∧ held.job = delivery'.job := by
      intro worker' delivery' hlookup
      obtain ⟨rfl, rfl⟩ | ⟨-, hlookup⟩ := AList.lookup_insert_eq_some_iff.mp hlookup
      · exact ⟨delivery, hworker, rfl⟩
      · exact ⟨delivery', hlookup, rfl⟩
    intro worker₁ worker₂ delivery₁ delivery₂ h₁ h₂ hid hcount
    obtain ⟨held₁, hheld₁, hjob₁⟩ := hheld worker₁ delivery₁ h₁
    obtain ⟨held₂, hheld₂, hjob₂⟩ := hheld worker₂ delivery₂ h₂
    exact h.apart worker₁ worker₂ held₁ held₂ hheld₁ hheld₂ (by rw [hjob₁, hjob₂, hid]) (by rw [hjob₁, hjob₂, hcount])
  bounded := h.bounded

theorem Held.erase (h : Held state) (worker : Nat) : Held { state with workers := state.workers.erase worker } where
  known := fun worker' delivery hlookup => h.known worker' delivery (AList.lookup_erase_eq_some_iff.mp hlookup).2
  apart := by
    intro worker₁ worker₂ delivery₁ delivery₂ h₁ h₂
    exact h.apart worker₁ worker₂ delivery₁ delivery₂ (AList.lookup_erase_eq_some_iff.mp h₁).2
      (AList.lookup_erase_eq_some_iff.mp h₂).2
  bounded := h.bounded

theorem Held.report (h : Held state) {worker : Nat} (hwrites : InTime decrypt state (.report worker dbNowMs)) :
    Held (outboxStep decrypt state (.report worker dbNowMs)) := by
  cases hworker : state.workers.lookup worker with
  | none => simpa only [outboxStep, hworker] using h
  | some delivery =>
    cases houtcome : delivery.outcome with
    | none => simpa only [outboxStep, hworker, houtcome] using h
    | some outcome =>
      have hworkers : (outboxStep decrypt state (.report worker dbNowMs)).workers = state.workers.erase worker := by
        simp only [outboxStep, hworker, houtcome]
      have hlast : ∀ job, state.jobs.lookup delivery.job.id = some job → job.state = .processing →
          job.attemptCount = delivery.job.attemptCount := by
        intro job hlookup hprocessing
        by_contra hcount
        exact hwrites delivery job hworker (by rw [houtcome]; rfl) hlookup hcount hprocessing
      refine ⟨?_, ?_, ?_⟩
      · intro other delivery' hother
        rw [hworkers] at hother
        obtain ⟨hne, hother⟩ := AList.lookup_erase_eq_some_iff.mp hother
        obtain ⟨job, hlookup, hle, hmax, hprocessing⟩ := h.known other delivery' hother
        rw [lookup_report hworker houtcome, hlookup, Option.map_some]
        by_cases hid : delivery'.job.id = delivery.job.id
        · rw [if_pos hid]
          obtain ⟨hcount, hmaxAttempts⟩ := report_counts job delivery outcome dbNowMs
          refine ⟨_, rfl, hcount ▸ hle, hmaxAttempts ▸ hmax, ?_⟩
          intro hsame
          rw [hcount] at hsame
          -- the other holds the last attempt, so that the one that reports does not
          have hstate := hprocessing hsame
          exact absurd (h.apart other worker delivery' delivery hother hworker hid
            (hsame.symm.trans (hlast job (hid ▸ hlookup) hstate))) hne
        · rw [if_neg hid]
          exact ⟨job, rfl, hle, hmax, hprocessing⟩
      · intro worker₁ worker₂ delivery₁ delivery₂ h₁ h₂
        rw [hworkers] at h₁ h₂
        exact h.apart worker₁ worker₂ delivery₁ delivery₂ (AList.lookup_erase_eq_some_iff.mp h₁).2
          (AList.lookup_erase_eq_some_iff.mp h₂).2
      · intro id job' hlookup'
        rw [lookup_report hworker houtcome] at hlookup'
        obtain ⟨job, hlookup, rfl⟩ := Option.map_eq_some_iff.mp hlookup'
        have hbounded := h.bounded id job hlookup
        by_cases hid : id = delivery.job.id
        · subst hid
          rw [if_pos rfl]
          obtain ⟨hcount, hmaxAttempts⟩ := report_counts job delivery outcome dbNowMs
          rw [hcount, hmaxAttempts]
          refine ⟨hbounded.1, ?_⟩
          intro hqueued
          by_cases hprocessing : job.state = .processing
          · obtain ⟨known, hknown, -, hmax, -⟩ := h.known worker delivery hworker
            obtain rfl := Option.some.inj (hlookup.symm.trans hknown)
            rw [hlast job hlookup hprocessing, ← hmax]
            exact report_queued hprocessing hqueued
          · rw [report_of_not_processing hprocessing] at hqueued
            exact hbounded.2 hqueued
        · rw [if_neg hid]
          exact hbounded

theorem Held.step (h : Held state) {call : OutboxCall} (hin : InTime decrypt state call) :
    Held (outboxStep decrypt state call) := by
  cases call with
  | enqueue id tenantId encryptedMessage encryptionKeyVersion idempotencyKey nowMs dbNowMs =>
    simp only [outboxStep]
    split
    · exact h
    · rename_i hfresh
      simp only [Bool.or_eq_true, not_or, Option.not_isSome_iff_eq_none] at hfresh
      exact h.enqueue hfresh.1 rfl maxAttempts_pos
  | claim worker nowMs dbNowMs locked =>
    simp only [outboxStep]
    cases hcandidate : candidate state.jobs nowMs locked with
    | none => exact h
    | some entry =>
      obtain ⟨id, job⟩ := entry
      dsimp only
      split
      · exact h
      · rename_i hidle
        rw [Option.not_isSome_iff_eq_none] at hidle
        obtain ⟨hlookup, hclaimable⟩ := candidate_eq_some hcandidate
        refine h.claim hlookup ?_ hidle nowMs dbNowMs
        obtain hqueued | hprocessing := state_of_claimable hclaimable
        · exact (h.bounded id job hlookup).2 hqueued
        · exact hin hidle id job hcandidate hprocessing
  | send worker answer =>
    simp only [outboxStep]
    split
    · exact h
    · rename_i delivery hworker
      split
      · exact h
      · exact h.send hworker _
  | report worker dbNowMs => exact h.report hin
  | crash worker => exact h.erase worker

def attemptsOf (jobs : Table Uuid EmailJob) (id : Uuid) : Nat := ((jobs.lookup id).map (·.attemptCount)).getD 0

theorem attemptsOf_insert (jobs : Table Uuid EmailJob) (id id' : Uuid) (job : EmailJob) :
    attemptsOf (jobs.insert id' job) id = if id = id' then job.attemptCount else attemptsOf jobs id := by
  unfold attemptsOf
  by_cases hid : id = id'
  · subst hid
    rw [AList.lookup_insert, if_pos rfl]
    rfl
  · rw [AList.lookup_insert_ne hid, if_neg hid]

/-- A step counts an attempt for the job that it claims. -/
theorem attemptsOf_step (state : OutboxState) (call : OutboxCall) (id : Uuid) :
    attemptsOf (outboxStep decrypt state call).jobs id = attemptsOf state.jobs id + (claimed state call).count id := by
  cases call with
  | enqueue id' tenantId encryptedMessage encryptionKeyVersion idempotencyKey nowMs dbNowMs =>
    simp only [outboxStep, claimed, List.count_nil, Nat.add_zero]
    split
    · rfl
    · rename_i hfresh
      simp only [Bool.or_eq_true, not_or, Option.not_isSome_iff_eq_none] at hfresh
      rw [attemptsOf_insert]
      by_cases hid : id = id'
      · subst hid
        rw [if_pos rfl, attemptsOf, hfresh.1]
        rfl
      · rw [if_neg hid]
  | claim worker nowMs dbNowMs locked =>
    simp only [outboxStep, claimed]
    cases hcandidate : candidate state.jobs nowMs locked with
    | none => rfl
    | some entry =>
      obtain ⟨id', job⟩ := entry
      dsimp only
      split
      · rfl
      · rw [attemptsOf_insert]
        by_cases hid : id = id'
        · subst hid
          rw [if_pos rfl, attemptsOf, (candidate_eq_some hcandidate).1]
          simp [EmailJob.claim]
        · rw [if_neg hid, List.count_singleton, if_neg (by simpa using Ne.symm hid), Nat.add_zero]
  | send worker answer =>
    simp only [outboxStep, claimed, List.count_nil, Nat.add_zero]
    split
    · rfl
    · split
      · rfl
      · rfl
  | report worker dbNowMs =>
    simp only [claimed, List.count_nil, Nat.add_zero]
    cases hworker : state.workers.lookup worker with
    | none => simp only [outboxStep, hworker]
    | some delivery =>
      cases houtcome : delivery.outcome with
      | none => simp only [outboxStep, hworker, houtcome]
      | some outcome =>
        unfold attemptsOf
        rw [lookup_report hworker houtcome, Option.map_map]
        refine congrArg (fun count => Option.getD count 0) (Option.map_congr fun job _ => ?_)
        dsimp only [Function.comp_apply]
        split
        · exact (report_counts job delivery outcome dbNowMs).1
        · rfl
  | crash worker => rfl

end Steps

section Runs
variable {decrypt} {calls : List OutboxCall}

theorem outboxRun_append (before after : List OutboxCall) :
    outboxRun decrypt (before ++ after) = Machine.run (outboxStep decrypt) (outboxRun decrypt before) after :=
  Machine.run_append _ _ _

theorem claimCount_eq (id : Uuid) (calls : List OutboxCall) :
    claimCount decrypt id calls = attemptsOf (outboxRun decrypt calls).jobs id := by
  induction calls using List.reverseRecOn with
  | nil => rfl
  | append_singleton calls call ih =>
    have hstep := @attemptsOf_step _ decrypt (outboxRun decrypt calls) call id
    unfold claimCount at ih ⊢
    rw [outboxRun_append, Machine.trace_append, List.count_append, ih]
    simp only [Machine.trace, List.append_nil]
    exact hstep.symm

theorem held_run (hin : ∀ before call after, calls = before ++ call :: after →
    InTime decrypt (outboxRun decrypt before) call) : Held (outboxRun decrypt calls) := by
  induction calls using List.reverseRecOn with
  | nil =>
    refine ⟨?_, ?_, ?_⟩
    · intro worker delivery hlookup
      cases hlookup
    · intro worker worker' delivery delivery' hlookup
      cases hlookup
    · intro id job hlookup
      cases hlookup
  | append_singleton calls call ih =>
    rw [outboxRun_append]
    refine (ih ?_).step (hin calls call [] rfl)
    intro before call' after hsplit
    exact hin before call' (after ++ [call]) (by rw [hsplit]; simp)

theorem delivered_run {state : OutboxState} {id : Uuid} {job : EmailJob} (h : state.jobs.lookup id = some job)
    (hdelivered : job.state = .delivered) (calls : List OutboxCall) :
    (Machine.run (outboxStep decrypt) state calls).jobs.lookup id = some job :=
  Machine.run_preserves (P := fun state : OutboxState => state.jobs.lookup id = some job)
    (fun _ call hlookup => delivered_step hlookup hdelivered call) state calls h

end Runs

/-- Jobs have one owner and a recorded outcome, over a run, exactly if nothing is amiss at any of its steps. -/
theorem one_owner_iff (calls : List OutboxCall) :
    OneOwner decrypt calls ↔ ∀ before call after, calls = before ++ call :: after →
      InTime decrypt (outboxRun decrypt before) call := by
  constructor
  · intro howner before call after hsplit
    cases call with
    | enqueue | crash => trivial
    | claim worker nowMs dbNowMs locked =>
      intro hidle id job hcandidate hprocessing
      have hattempts := howner.attempts (before ++ [.claim worker nowMs dbNowMs locked]) after (by rw [hsplit]; simp) id
        (job.claim dbNowMs)
      have hlookup : (outboxRun decrypt (before ++ [.claim worker nowMs dbNowMs locked])).jobs.lookup id =
          some (job.claim dbNowMs) := by
        rw [outboxRun_append]
        simp [Machine.run, outboxStep, hcandidate, hidle]
      have hcount := hattempts hlookup
      rw [claimCount_eq, attemptsOf, hlookup] at hcount
      exact hcount
    | send worker answer =>
      intro delivery job hworker houtcome hmessage hlookup _ hdelivered
      exact howner.unsent before _ after hsplit _ job hlookup hdelivered
        ⟨worker, answer, delivery, rfl, hworker, houtcome, rfl, hmessage⟩
    | report worker dbNowMs =>
      intro delivery job hworker houtcome hlookup hcount hprocessing
      obtain ⟨outcome, houtcome⟩ := Option.isSome_iff_exists.mp houtcome
      have hsame := howner.takenOver before worker dbNowMs after hsplit ⟨delivery, job, hworker, hlookup, hcount⟩
        delivery.job.id
      rw [lookup_report hworker houtcome, hlookup, Option.map_some, if_pos rfl] at hsame
      have hreported : (job.report delivery outcome dbNowMs).state ≠ .processing := report_state hprocessing
      rw [Option.some.inj hsame] at hreported
      exact hreported hprocessing
  · intro hin
    refine ⟨?_, ?_, ?_, ?_⟩
    · rintro before worker dbNowMs after hsplit ⟨delivery, job, hworker, hlookup, hcount⟩ id
      cases houtcome : delivery.outcome with
      | none => simp only [outboxStep, hworker, houtcome]
      | some outcome =>
        have hnot := hin before _ after hsplit delivery job hworker (by rw [houtcome]; rfl) hlookup hcount
        rw [lookup_report hworker houtcome]
        by_cases hid : id = delivery.job.id
        · rw [hid, hlookup, Option.map_some, if_pos rfl, report_of_not_processing hnot]
        · simp [hid]
    · rintro before more after rfl id job hlookup hdelivered
      rw [outboxRun_append]
      exact delivered_run hlookup hdelivered more
    · rintro before call after rfl id job hlookup hdelivered ⟨worker, answer, delivery, rfl, hworker, houtcome, rfl, hmessage⟩
      have hheld : Held (outboxRun decrypt before) :=
        held_run fun before' call' after' hsplit => hin before' call' (after' ++ .send worker answer :: after) (by
          rw [hsplit]
          simp)
      obtain ⟨known, hknown, -, -, hprocessing⟩ := hheld.known worker delivery hworker
      obtain rfl := Option.some.inj (hlookup.symm.trans hknown)
      by_cases hcount : job.attemptCount = delivery.job.attemptCount
      · rw [hprocessing hcount] at hdelivered
        cases hdelivered
      · exact hin before _ after rfl delivery job hworker houtcome hmessage hlookup hcount hdelivered
    · rintro before after rfl id job hlookup
      have hheld : Held (outboxRun decrypt before) :=
        held_run fun before' call' after' hsplit => hin before' call' (after' ++ after) (by
          rw [hsplit]
          simp)
      rw [claimCount_eq, attemptsOf, hlookup]
      exact (hheld.bounded id job hlookup).1

section Sample

private def readable : Uuid → Uuid → Int → List UInt8 → Except EmailError Unit := fun _ _ _ _ => .ok ()

/-- A worker whose provider takes longer than the lock; another has claimed the job when it reports. -/
private def slowWorker : List OutboxCall :=
  [.enqueue 1 2 (List.replicate 29 0) 1 ['w', 'e', 'l', 'c', 'o', 'm', 'e', '1'] 0 0, .claim 0 0 0 [],
    .send 0 (.error .providerUnavailable), .claim 1 400000 400000 []]

theorem slow_worker_requeues : ¬OneOwner readable (slowWorker ++ [.report 0 400001]) := by
  intro howner
  have hsame := howner.takenOver slowWorker 0 400001 [] rfl ⟨_, _, rfl, rfl, by decide⟩ 1
  exact absurd hsame (by decide)

end Sample

end Ffdb.Email
