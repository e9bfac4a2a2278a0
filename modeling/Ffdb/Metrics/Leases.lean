import Ffdb.Lib.Lease
import Ffdb.Lib.Machine
import Ffdb.Metrics.Ingestion
import Ffdb.Metrics.Outbox

/-! The outbox as work under leases: what the callers are answered tells the history of a report, and the report's
row is where that history leads. -/
namespace Ffdb.Metrics
open DatabaseWorker (Uuid)
open Fallible
open Lease (Move Steps grantTimes)

variable {δ : Type}

inductive OutboxCall where
  | enqueue (report : ReportRequest)
  | claim (period : Option BillingPeriod) (nowMs leaseDurationMs : Int) (limit : Nat) (draw : Nat → Uuid)
  | acknowledge (identifier leaseToken providerEventId : List Char) (nowMs : Int)
  | fail (identifier leaseToken : List Char) (retryAtMs : Int) (error : List Char)

abbrev Happening := List Char × Move (List Char)

def claimOf (store : Store δ) (period : Option BillingPeriod) (nowMs leaseDurationMs : Int) (limit : Nat)
    (draw : Nat → Uuid) : Except MetricsError (Store δ × List ClaimedReport) :=
  match period with
  | none => claimReports store nowMs leaseDurationMs limit draw
  | some period => claimReportsForPeriod store period nowMs leaseDurationMs limit draw

def ClaimedReport.happening (nowMs expiresMs : Int) (claimed : ClaimedReport) : Happening :=
  (claimed.identifier, .grant nowMs claimed.leaseToken expiresMs)

section Runs
variable [DecidableEq δ] (hash : List UInt8 → δ)

def OutboxCall.perform (store : Store δ) : OutboxCall → Except MetricsError (Store δ × List Happening)
  | .enqueue report => do
    let (store, outcome) ← enqueueReport hash store report
    match outcome with
    | .inserted => pure (store, [(report.identifier, .offer report.nowMs)])
    | .duplicate => pure (store, [])
  | .claim period nowMs leaseDurationMs limit draw => do
    let (store, claimed) ← claimOf store period nowMs leaseDurationMs limit draw
    pure (store, claimed.map (·.happening nowMs (saturatingAdd nowMs leaseDurationMs)))
  | .acknowledge identifier leaseToken providerEventId nowMs => do
    let store ← acknowledgeReport store identifier leaseToken providerEventId nowMs
    pure (store, [(identifier, .finish leaseToken)])
  | .fail identifier leaseToken retryAtMs error => do
    let store ← failReport store identifier leaseToken retryAtMs error
    pure (store, [(identifier, .giveBack leaseToken retryAtMs)])

def outboxStep (store : Store δ) (call : OutboxCall) : Store δ :=
  match call.perform hash store with
  | .ok (store', _) => store'
  | .error _ => store

def happened (store : Store δ) (call : OutboxCall) : List Happening :=
  match call.perform hash store with
  | .ok (_, happenings) => happenings
  | .error _ => []

def outboxRun (calls : List OutboxCall) : Store δ := Machine.run (outboxStep hash) {} calls

def movesOf (identifier : List Char) (happenings : List Happening) : List (Move (List Char)) :=
  happenings.filterMap fun happening => if happening.1 = identifier then some happening.2 else none

def history (identifier : List Char) (calls : List OutboxCall) : List (Move (List Char)) :=
  movesOf identifier (Machine.trace (outboxStep hash) (happened hash) {} calls)

end Runs

def OutboxRow.contents (row : OutboxRow δ) : OutboxRow δ :=
  { row with
    state := .pending
    attemptCount := 0
    nextAttemptMs := 0
    leaseToken := none
    leaseExpiresMs := none
    acknowledgedAtMs := none }

section Rows
variable (hash : List UInt8 → δ)

inductive RowStep : Option (OutboxRow δ) → Move (List Char) → OutboxRow δ → Prop
  | enqueued (report : ReportRequest) : RowStep none (.offer report.nowMs) (report.row hash)
  | leased {row : OutboxRow δ} {nowMs : Int} (token : List Char) (expiresMs : Int) (claimable : row.isClaimable nowMs = true) :
    RowStep (some row) (.grant nowMs token expiresMs) (row.leased token expiresMs)
  | acknowledged {row : OutboxRow δ} {token : List Char} (nowMs : Int) (held : row.isHeldWith token = true) :
    RowStep (some row) (.finish token) (row.acknowledged nowMs)
  | failed {row : OutboxRow δ} {token : List Char} (retryAtMs : Int) (held : row.isHeldWith token = true) :
    RowStep (some row) (.giveBack token retryAtMs) (row.failed retryAtMs)

inductive RowSteps : Option (OutboxRow δ) → List (Move (List Char)) → Option (OutboxRow δ) → Prop
  | nil (row : Option (OutboxRow δ)) : RowSteps row [] row
  | cons {row last : Option (OutboxRow δ)} {next : OutboxRow δ} {move : Move (List Char)} {moves : List (Move (List Char))}
    (first : RowStep hash row move next) (rest : RowSteps (some next) moves last) : RowSteps row (move :: moves) last

variable {hash} {row row' row'' : Option (OutboxRow δ)} {moves moves' : List (Move (List Char))}

theorem RowSteps.append (h : RowSteps hash row moves row') (h' : RowSteps hash row' moves' row'') :
    RowSteps hash row (moves ++ moves') row'' := by
  induction h with
  | nil => exact h'
  | cons first _ ih => exact .cons first (ih h')

def OutboxRow.Shows (row : OutboxRow δ) : Lease.Item (List Char) → Prop
  | .absent => False
  | .waiting due => (row.state = .pending ∨ row.state = .failed) ∧ row.nextAttemptMs = due
  | .held token expires => row.state = .inFlight ∧ row.leaseToken = some token ∧ row.leaseExpiresMs = some expires
  | .done => row.state = .acknowledged

theorem OutboxRow.Shows.isClaimable_iff {row : OutboxRow δ} {item : Lease.Item (List Char)} (h : row.Shows item)
    (nowMs : Int) : row.isClaimable nowMs = true ↔ item.Available nowMs := by
  cases item with
  | absent => exact h.elim
  | done =>
    have hstate : row.state = .acknowledged := h
    simp [isClaimable, hstate, Lease.Item.Available]
  | waiting due =>
    obtain ⟨hstate | hstate, rfl⟩ := h <;> simp [isClaimable, hstate, Lease.Item.Available]
  | held token expires =>
    obtain ⟨hstate, -, hexpires⟩ := h
    simp [isClaimable, hstate, hexpires, Lease.Item.Available]

theorem OutboxRow.Shows.held {row : OutboxRow δ} {item : Lease.Item (List Char)} {token : List Char} (h : row.Shows item)
    (hheld : row.isHeldWith token = true) : ∃ expires, item = .held token expires := by
  simp only [isHeldWith, Bool.and_eq_true, decide_eq_true_eq] at hheld
  obtain ⟨hstate, htoken⟩ := hheld
  cases item with
  | absent => exact h.elim
  | done =>
    have hdone : row.state = .acknowledged := h
    rw [hstate] at hdone
    cases hdone
  | waiting due =>
    obtain ⟨hwaiting | hwaiting, -⟩ := h
    · rw [hstate] at hwaiting
      cases hwaiting
    · rw [hstate] at hwaiting
      cases hwaiting
  | held token' expires =>
    obtain ⟨-, htoken', -⟩ := h
    rw [htoken] at htoken'
    obtain rfl := Option.some.inj htoken'
    exact ⟨expires, rfl⟩

inductive Traced : Option (OutboxRow δ) → List (Move (List Char)) → Prop
  | none : Traced none []
  | some {row : OutboxRow δ} {item : Lease.Item (List Char)} {moves : List (Move (List Char))}
    (steps : Steps .absent moves item) (tells : row.Shows item) (attempts : row.attemptCount = (grantTimes moves).length) :
    Traced (some row) moves

theorem grantTimes_append (moves moves' : List (Move (List Char))) :
    grantTimes (moves ++ moves') = grantTimes moves ++ grantTimes moves' := by
  simp [grantTimes]

theorem RowStep.traced {next : OutboxRow δ} {move : Move (List Char)} (h : RowStep hash row move next)
    (htraced : Traced row moves) : Traced (some next) (moves ++ [move]) := by
  cases h with
  | enqueued report =>
    cases htraced
    exact .some (.cons .offer (.nil _)) ⟨.inl rfl, rfl⟩ rfl
  | leased token expiresMs claimable =>
    cases htraced with
    | some steps tells attempts =>
      have havailable := (tells.isClaimable_iff _).mp claimable
      refine .some (steps.append (.cons (.grant havailable) (.nil _))) ⟨rfl, rfl, rfl⟩ ?_
      rw [grantTimes_append, List.length_append, ← attempts]
      rfl
  | acknowledged nowMs held =>
    cases htraced with
    | some steps tells attempts =>
      obtain ⟨expires, rfl⟩ := tells.held held
      refine .some (steps.append (.cons .finish (.nil _))) rfl ?_
      rw [grantTimes_append, List.length_append, ← attempts]
      rfl
  | failed retryAtMs held =>
    cases htraced with
    | some steps tells attempts =>
      obtain ⟨expires, rfl⟩ := tells.held held
      refine .some (steps.append (.cons .giveBack (.nil _))) ⟨.inr rfl, rfl⟩ ?_
      rw [grantTimes_append, List.length_append, ← attempts]
      rfl

theorem RowSteps.traced {earlier : List (Move (List Char))} (h : RowSteps hash row moves row')
    (htraced : Traced row earlier) : Traced row' (earlier ++ moves) := by
  induction h generalizing earlier with
  | nil => simpa using htraced
  | cons first _ ih =>
    have hrest := ih (first.traced htraced)
    simpa using hrest

theorem Traced.steps (h : Traced row moves) :
    ∃ item, Steps .absent moves item := by
  cases h with
  | none => exact ⟨_, .nil _⟩
  | some steps _ _ => exact ⟨_, steps⟩

theorem RowStep.contents {old next : OutboxRow δ} {move : Move (List Char)} (h : RowStep hash (some old) move next) :
    next.contents = old.contents := by
  cases h <;> rfl

theorem RowSteps.contents {old : OutboxRow δ} (h : RowSteps hash (some old) moves row') :
    ∃ next, row' = some next ∧ next.contents = old.contents := by
  generalize hrow : some old = row at h
  induction h generalizing old with
  | nil => exact ⟨old, hrow.symm, rfl⟩
  | cons first _ ih =>
    subst hrow
    obtain ⟨last, hlast, hcontents⟩ := ih rfl
    exact ⟨last, hlast, hcontents.trans first.contents⟩

end Rows

section Calls
variable {hash : List UInt8 → δ} {store store' : Store δ}

theorem movesOf_append (identifier : List Char) (happenings happenings' : List Happening) :
    movesOf identifier (happenings ++ happenings') = movesOf identifier happenings ++ movesOf identifier happenings' := by
  simp [movesOf]

theorem movesOf_single (identifier other : List Char) (move : Move (List Char)) :
    movesOf identifier [(other, move)] = if other = identifier then [move] else [] := by
  unfold movesOf
  by_cases hid : other = identifier
  · simp [hid]
  · simp [hid]

theorem rowSteps_insert {outbox : Table (List Char) (OutboxRow δ)} {identifier other : List Char} {move : Move (List Char)}
    {next : OutboxRow δ} (h : RowStep hash (outbox.lookup other) move next) :
    RowSteps hash (outbox.lookup identifier) (movesOf identifier [(other, move)])
      ((outbox.insert other next).lookup identifier) := by
  rw [movesOf_single]
  by_cases hid : other = identifier
  · subst hid
    rw [if_pos rfl, AList.lookup_insert]
    exact .cons h (.nil _)
  · rw [if_neg hid, AList.lookup_insert_ne fun hsame => hid hsame.symm]
    exact .nil _

theorem rowSteps_claimRows {nowMs expiresMs : Int} {outbox outbox' : Table (List Char) (OutboxRow δ)}
    {rows : List (List Char × OutboxRow δ)} {draw : Nat → Uuid} {claimed : List ClaimedReport}
    (h : claimRows nowMs expiresMs outbox rows draw = .ok (outbox', claimed)) (identifier : List Char) :
    RowSteps hash (outbox.lookup identifier) (movesOf identifier (claimed.map (·.happening nowMs expiresMs)))
      (outbox'.lookup identifier) := by
  induction rows generalizing outbox draw claimed with
  | nil =>
    simp only [claimRows, pure_ok_iff, Prod.mk.injEq] at h
    obtain ⟨rfl, rfl⟩ := h
    exact .nil _
  | cons entry rows ih =>
    obtain ⟨other, row⟩ := entry
    unfold claimRows at h
    cases hcurrent : outbox.lookup other with
    | none =>
      rw [hcurrent] at h
      exact ih h
    | some current =>
      rw [hcurrent] at h
      by_cases hclaimable : current.isClaimable nowMs = true
      · simp only [hclaimable, if_true, bind_ok_iff, pure_ok_iff, Prod.mk.injEq, Prod.exists] at h
        obtain ⟨_, -, middle, more, hrest, rfl, rfl⟩ := h
        have hstep : RowStep hash (outbox.lookup other) (.grant nowMs (uuidText (draw 0)) expiresMs)
            (current.leased (uuidText (draw 0)) expiresMs) := by
          rw [hcurrent]
          exact .leased _ expiresMs hclaimable
        have hboth := (rowSteps_insert hstep).append (ih hrest)
        rwa [← movesOf_append] at hboth
      · simp only [hclaimable] at h
        exact ih h

theorem enqueueReport_ok [DecidableEq δ] {report : ReportRequest} {outcome : IngestOutcome}
    (h : enqueueReport hash store report = .ok (store', outcome)) :
    outcome = .duplicate ∧ store'.outbox = store.outbox ∨
      outcome = .inserted ∧ store.outbox.lookup report.identifier = none ∧
        store'.outbox = store.outbox.insert report.identifier (report.row hash) := by
  simp only [enqueueReport, bind_ok_iff] at h
  obtain ⟨_, -, middle, hensure, hrest⟩ := h
  have houtbox : middle.outbox = store.outbox := by rw [ensurePeriod_frame hensure]
  rw [houtbox] at hrest
  cases hknown : store.outbox.lookup report.identifier with
  | some stored =>
    rw [hknown] at hrest
    simp only [bind_ok_iff, pure_ok_iff, Prod.mk.injEq] at hrest
    obtain ⟨_, -, rfl, rfl⟩ := hrest
    exact .inl ⟨rfl, houtbox⟩
  | none =>
    rw [hknown] at hrest
    simp only [pure_ok_iff, Prod.mk.injEq] at hrest
    obtain ⟨rfl, rfl⟩ := hrest
    exact .inr ⟨rfl, rfl, rfl⟩

theorem resolveReport_ok {identifier leaseToken : List Char} {change : OutboxRow δ → OutboxRow δ}
    (h : resolveReport store identifier leaseToken change = .ok store') :
    ∃ row, store.outbox.lookup identifier = some row ∧ row.isHeldWith leaseToken = true ∧
      store'.outbox = store.outbox.insert identifier (change row) := by
  simp only [resolveReport, bind_ok_iff, orError_ok_iff, require_ok_iff, pure_ok_iff] at h
  obtain ⟨row, hrow, _, hheld, rfl⟩ := h
  exact ⟨row, hrow, hheld, rfl⟩

theorem claimReportsInner_ok {period : Option BillingPeriod} {nowMs leaseDurationMs : Int} {limit : Nat} {draw : Nat → Uuid}
    {claimed : List ClaimedReport}
    (h : claimReportsInner store period nowMs leaseDurationMs limit draw = .ok (store', claimed)) :
    claimRows nowMs (saturatingAdd nowMs leaseDurationMs) store.outbox ((claimable store period nowMs).take limit) draw =
      .ok (store'.outbox, claimed) := by
  simp only [claimReportsInner, bind_ok_iff, pure_ok_iff, Prod.mk.injEq, Prod.exists] at h
  obtain ⟨_, -, outbox, more, hrows, rfl, rfl⟩ := h
  exact hrows

theorem claimOf_ok {period : Option BillingPeriod} {nowMs leaseDurationMs : Int} {limit : Nat} {draw : Nat → Uuid}
    {claimed : List ClaimedReport} (h : claimOf store period nowMs leaseDurationMs limit draw = .ok (store', claimed)) :
    claimRows nowMs (saturatingAdd nowMs leaseDurationMs) store.outbox ((claimable store period nowMs).take limit) draw =
      .ok (store'.outbox, claimed) := by
  cases period with
  | none => exact claimReportsInner_ok h
  | some period =>
    simp only [claimOf, claimReportsForPeriod, bind_ok_iff] at h
    obtain ⟨_, -, hinner⟩ := h
    exact claimReportsInner_ok hinner

variable [DecidableEq δ]

/-- What a call does to the row of a report is what it answers. -/
theorem rowSteps_perform {call : OutboxCall} {happenings : List Happening}
    (h : call.perform hash store = .ok (store', happenings)) (identifier : List Char) :
    RowSteps hash (store.outbox.lookup identifier) (movesOf identifier happenings) (store'.outbox.lookup identifier) := by
  cases call with
  | enqueue report =>
    simp only [OutboxCall.perform, bind_ok_iff, Prod.exists] at h
    obtain ⟨middle, outcome, henqueue, hrest⟩ := h
    obtain ⟨rfl, houtbox⟩ | ⟨rfl, hnew, houtbox⟩ := enqueueReport_ok henqueue
    · simp only [pure_ok_iff, Prod.mk.injEq] at hrest
      obtain ⟨rfl, rfl⟩ := hrest
      rw [houtbox]
      exact .nil _
    · simp only [pure_ok_iff, Prod.mk.injEq] at hrest
      obtain ⟨rfl, rfl⟩ := hrest
      rw [houtbox]
      refine rowSteps_insert ?_
      rw [hnew]
      exact .enqueued report
  | claim period nowMs leaseDurationMs limit draw =>
    simp only [OutboxCall.perform, bind_ok_iff, Prod.exists, pure_ok_iff, Prod.mk.injEq] at h
    obtain ⟨middle, claimed, hclaim, rfl, rfl⟩ := h
    exact rowSteps_claimRows (claimOf_ok hclaim) identifier
  | acknowledge other leaseToken providerEventId nowMs =>
    simp only [OutboxCall.perform, acknowledgeReport, bind_ok_iff, pure_ok_iff, Prod.mk.injEq] at h
    obtain ⟨middle, ⟨_, -, hresolve⟩, rfl, rfl⟩ := h
    obtain ⟨row, hrow, hheld, houtbox⟩ := resolveReport_ok hresolve
    rw [houtbox]
    refine rowSteps_insert ?_
    rw [hrow]
    exact .acknowledged nowMs hheld
  | fail other leaseToken retryAtMs error =>
    simp only [OutboxCall.perform, failReport, bind_ok_iff, pure_ok_iff, Prod.mk.injEq] at h
    obtain ⟨middle, ⟨_, -, _, -, hresolve⟩, rfl, rfl⟩ := h
    obtain ⟨row, hrow, hheld, houtbox⟩ := resolveReport_ok hresolve
    rw [houtbox]
    refine rowSteps_insert ?_
    rw [hrow]
    exact .failed retryAtMs hheld

theorem rowSteps_step (store : Store δ) (call : OutboxCall) (identifier : List Char) :
    RowSteps hash (store.outbox.lookup identifier) (movesOf identifier (happened hash store call))
      ((outboxStep hash store call).outbox.lookup identifier) := by
  unfold happened outboxStep
  cases hperform : call.perform hash store with
  | error _ => exact .nil _
  | ok answer => exact rowSteps_perform hperform identifier

theorem rowSteps_run (store : Store δ) (calls : List OutboxCall) (identifier : List Char) :
    RowSteps hash (store.outbox.lookup identifier)
      (movesOf identifier (Machine.trace (outboxStep hash) (happened hash) store calls))
      ((Machine.run (outboxStep hash) store calls).outbox.lookup identifier) := by
  induction calls generalizing store with
  | nil => exact .nil _
  | cons call calls ih =>
    rw [Machine.trace, movesOf_append]
    exact (rowSteps_step store call identifier).append (ih _)

theorem traced_history (identifier : List Char) (calls : List OutboxCall) :
    Traced ((outboxRun hash calls).outbox.lookup identifier) (history hash identifier calls) :=
  (rowSteps_run ({} : Store δ) calls identifier).traced .none

theorem steps_history (hash : List UInt8 → δ) (identifier : List Char) (calls : List OutboxCall) :
    ∃ item, Steps .absent (history hash identifier calls) item :=
  (traced_history identifier calls).steps

theorem history_append (identifier : List Char) (before after : List OutboxCall) :
    history hash identifier (before ++ after) = history hash identifier before ++
      movesOf identifier (Machine.trace (outboxStep hash) (happened hash) (outboxRun hash before) after) := by
  unfold history outboxRun
  rw [Machine.trace_append, movesOf_append]

end Calls

section Clock
variable {hash : List UInt8 → δ} {identifier : List Char}

def OutboxCall.claimTime : OutboxCall → Option Int
  | .claim _ nowMs .. => some nowMs
  | _ => none

def claimTimes (calls : List OutboxCall) : List Int := calls.filterMap OutboxCall.claimTime

theorem mem_grantTimes {happenings : List Happening} {nowMs : Int}
    (h : nowMs ∈ grantTimes (movesOf identifier happenings)) :
    ∃ token expires, (identifier, .grant nowMs token expires) ∈ happenings := by
  simp only [grantTimes, List.mem_filterMap] at h
  obtain ⟨move, hmove, htime⟩ := h
  cases move with
  | grant now token expires =>
    obtain rfl := Option.some.inj htime
    simp only [movesOf, List.mem_filterMap] at hmove
    obtain ⟨⟨other, move⟩, hmem, hof⟩ := hmove
    by_cases hid : other = identifier
    · simp only [hid, if_true, Option.some.injEq] at hof
      exact ⟨token, expires, by rwa [← hof, ← hid]⟩
    · simp [hid] at hof
  | offer | finish | giveBack => cases htime

variable [DecidableEq δ]

theorem claimTime_of_granted {store : Store δ} {call : OutboxCall} {nowMs expires : Int} {token : List Char}
    (h : (identifier, .grant nowMs token expires) ∈ happened hash store call) : call.claimTime = some nowMs := by
  unfold happened at h
  cases hperform : call.perform hash store with
  | error _ =>
    rw [hperform] at h
    cases h
  | ok answer =>
    obtain ⟨store', happenings⟩ := answer
    rw [hperform] at h
    cases call with
    | enqueue report =>
      simp only [OutboxCall.perform, bind_ok_iff, Prod.exists] at hperform
      obtain ⟨middle, outcome, -, hrest⟩ := hperform
      cases outcome with
      | inserted =>
        obtain ⟨-, rfl⟩ := Prod.mk.inj ((pure_ok_iff _ _).mp hrest)
        simp at h
      | duplicate =>
        obtain ⟨-, rfl⟩ := Prod.mk.inj ((pure_ok_iff _ _).mp hrest)
        simp at h
    | claim period now leaseDurationMs limit draw =>
      simp only [OutboxCall.perform, bind_ok_iff, Prod.exists, pure_ok_iff, Prod.mk.injEq] at hperform
      obtain ⟨_, claimed, -, -, rfl⟩ := hperform
      obtain ⟨report, -, hreport⟩ := List.mem_map.mp h
      obtain ⟨-, hgrant⟩ := Prod.mk.inj hreport
      obtain ⟨rfl, -, -⟩ := Move.grant.inj hgrant
      rfl
    | acknowledge other leaseToken providerEventId now =>
      simp only [OutboxCall.perform, bind_ok_iff, pure_ok_iff, Prod.mk.injEq] at hperform
      obtain ⟨_, -, -, rfl⟩ := hperform
      simp at h
    | fail other leaseToken retryAtMs error =>
      simp only [OutboxCall.perform, bind_ok_iff, pure_ok_iff, Prod.mk.injEq] at hperform
      obtain ⟨_, -, -, rfl⟩ := hperform
      simp at h

theorem pairwise_grantTimes {store : Store δ} {calls : List OutboxCall} (h : (claimTimes calls).Pairwise (· ≤ ·)) :
    (grantTimes (movesOf identifier (Machine.trace (outboxStep hash) (happened hash) store calls))).Pairwise (· ≤ ·) := by
  induction calls generalizing store with
  | nil => exact .nil
  | cons call calls ih =>
    have hown {now : Int} (hnow : now ∈ grantTimes (movesOf identifier (happened hash store call))) :
        call.claimTime = some now := by
      obtain ⟨token, expires, hmem⟩ := mem_grantTimes hnow
      exact claimTime_of_granted hmem
    have hlater {now : Int} (hnow : now ∈ grantTimes (movesOf identifier
        (Machine.trace (outboxStep hash) (happened hash) (outboxStep hash store call) calls))) : now ∈ claimTimes calls := by
      obtain ⟨token, expires, hmem⟩ := mem_grantTimes hnow
      obtain ⟨before, other, after, rfl, hother⟩ := Machine.mem_trace hmem
      exact List.mem_filterMap.mpr ⟨other, by simp, claimTime_of_granted hother⟩
    rw [Machine.trace, movesOf_append, grantTimes_append, List.pairwise_append]
    unfold claimTimes at h
    refine ⟨?_, ih ?_, ?_⟩
    · refine List.pairwise_iff_forall_sublist.mpr ?_
      intro now now' hsub
      have hnow := hown (hsub.subset (by simp : now ∈ [now, now']))
      have hnow' := hown (hsub.subset (by simp : now' ∈ [now, now']))
      rw [hnow] at hnow'
      exact (Option.some.inj hnow').le
    · exact h.sublist (List.Sublist.filterMap _ (List.sublist_cons_self _ _))
    · intro now hnow now' hnow'
      rw [List.filterMap_cons, hown hnow, List.pairwise_cons] at h
      exact h.1 now' (hlater hnow')

end Clock

section Claimed
variable {nowMs expiresMs : Int} {outbox outbox' : Table (List Char) (OutboxRow δ)} {rows : List (List Char × OutboxRow δ)}
  {draw : Nat → Uuid} {claimed : List ClaimedReport}

theorem mem_claimable {store : Store δ} {period : Option BillingPeriod} {entry : List Char × OutboxRow δ}
    (h : entry ∈ claimable store period nowMs) :
    store.outbox.lookup entry.1 = some entry.2 ∧ entry.2.isClaimable nowMs = true := by
  rw [claimable, List.mem_insertionSort, List.mem_filter, List.mem_map] at h
  obtain ⟨⟨stored, hstored, rfl⟩, hkeep⟩ := h
  rw [Bool.and_eq_true] at hkeep
  exact ⟨AList.mem_entries.mp hstored, hkeep.2⟩

theorem nodup_claimable (store : Store δ) (period : Option BillingPeriod) (nowMs : Int) :
    ((claimable store period nowMs).map (·.1)).Nodup := by
  have hperm := (List.perm_insertionSort comesBefore ((store.outbox.entries.map fun entry => (entry.1, entry.2)).filter
    fun entry => entry.2.isOf period && entry.2.isClaimable nowMs)).map (·.1)
  refine hperm.nodup_iff.mpr ?_
  have hkeys : ((store.outbox.entries.map fun entry => (entry.1, entry.2)).map (·.1)).Nodup := by
    rw [List.map_map]
    exact store.outbox.nodupKeys
  exact hkeys.sublist (List.filter_sublist.map _)

theorem claimRows_carries (h : claimRows nowMs expiresMs outbox rows draw = .ok (outbox', claimed)) :
    ∀ report ∈ claimed, ∃ row, (report.identifier, row) ∈ rows ∧ report = row.claimed report.identifier report.leaseToken := by
  induction rows generalizing outbox outbox' draw claimed with
  | nil =>
    simp only [claimRows, pure_ok_iff, Prod.mk.injEq] at h
    obtain ⟨-, rfl⟩ := h
    simp
  | cons entry rows ih =>
    have hlater {report : ClaimedReport} (hrest : ∃ row, (report.identifier, row) ∈ rows ∧
        report = row.claimed report.identifier report.leaseToken) : ∃ row, (report.identifier, row) ∈ entry :: rows ∧
        report = row.claimed report.identifier report.leaseToken := by
      obtain ⟨row, hmem, hrow⟩ := hrest
      exact ⟨row, List.mem_cons_of_mem _ hmem, hrow⟩
    obtain ⟨other, row⟩ := entry
    unfold claimRows at h
    cases hcurrent : outbox.lookup other with
    | none =>
      rw [hcurrent] at h
      exact fun report hreport => hlater (ih h report hreport)
    | some current =>
      rw [hcurrent] at h
      by_cases hclaimable : current.isClaimable nowMs = true
      · simp only [hclaimable, if_true, bind_ok_iff, pure_ok_iff, Prod.mk.injEq, Prod.exists] at h
        obtain ⟨_, -, middle, more, hrest, -, rfl⟩ := h
        intro report hreport
        obtain rfl | hreport := List.mem_cons.mp hreport
        · exact ⟨row, List.mem_cons_self, rfl⟩
        · exact hlater (ih hrest report hreport)
      · simp only [hclaimable] at h
        exact fun report hreport => hlater (ih h report hreport)

/-- Rows that can be claimed, and have attempts left, are claimed. -/
theorem claimRows_of_claimable (hnodup : (rows.map (·.1)).Nodup)
    (hrows : ∀ entry ∈ rows, outbox.lookup entry.1 = some entry.2 ∧ entry.2.isClaimable nowMs = true ∧
      entry.2.attemptCount + 1 ≤ u32Max) :
    ∃ outbox' claimed, claimRows nowMs expiresMs outbox rows draw = .ok (outbox', claimed) ∧
      claimed.map (·.identifier) = rows.map (·.1) := by
  induction rows generalizing outbox draw with
  | nil => exact ⟨outbox, [], rfl, rfl⟩
  | cons entry rows ih =>
    obtain ⟨identifier, row⟩ := entry
    obtain ⟨hlookup, hclaimable, hattempts⟩ := hrows _ List.mem_cons_self
    rw [List.map_cons, List.nodup_cons] at hnodup
    obtain ⟨hnew, hnodup⟩ := hnodup
    have hlater : ∀ entry ∈ rows, (outbox.insert identifier (row.leased (uuidText (draw 0)) expiresMs)).lookup entry.1 =
        some entry.2 ∧ entry.2.isClaimable nowMs = true ∧ entry.2.attemptCount + 1 ≤ u32Max := by
      intro entry hentry
      have hne : entry.1 ≠ identifier := by
        rintro rfl
        exact hnew (List.mem_map.mpr ⟨entry, hentry, rfl⟩)
      rw [AList.lookup_insert_ne hne]
      exact hrows entry (List.mem_cons_of_mem _ hentry)
    obtain ⟨outbox', claimed, hrest, hidentifiers⟩ := @ih _ (fun n => draw (n + 1)) hnodup hlater
    refine ⟨outbox', row.claimed identifier (uuidText (draw 0)) :: claimed, ?_, ?_⟩
    · simp only [claimRows, hlookup, hclaimable, if_true, bind_ok_iff, require_ok_iff, decide_eq_true_eq, pure_ok_iff,
        Prod.mk.injEq, Prod.exists]
      exact ⟨(), hattempts, outbox', claimed, hrest, rfl, rfl⟩
    · rw [List.map_cons, List.map_cons, hidentifiers]
      rfl

def claimedBy (store : Store δ) : OutboxCall → List ClaimedReport
  | .claim period nowMs leaseDurationMs limit draw =>
    match claimOf store period nowMs leaseDurationMs limit draw with
    | .ok (_, claimed) => claimed
    | .error _ => []
  | _ => []

theorem answered_of_claimed {store : Store δ} {call : OutboxCall} {claimed : ClaimedReport}
    (h : claimed ∈ claimedBy store call) : ∃ row, store.outbox.lookup claimed.identifier = some row ∧
      claimed = row.claimed claimed.identifier claimed.leaseToken := by
  cases call with
  | enqueue | acknowledge | fail => cases h
  | claim period nowMs leaseDurationMs limit draw =>
    dsimp only [claimedBy] at h
    cases hclaim : claimOf store period nowMs leaseDurationMs limit draw with
    | error _ =>
      rw [hclaim] at h
      cases h
    | ok answer =>
      rw [hclaim] at h
      obtain ⟨row, hmem, hrow⟩ := claimRows_carries (claimOf_ok hclaim) claimed h
      exact ⟨row, (mem_claimable (List.mem_of_mem_take hmem)).1, hrow⟩

end Claimed

section Protocol
variable [DecidableEq δ] (hash : List UInt8 → δ)

/-- Leases exclude one another, only their tokens resolve a report, and a report is what was enqueued until it is
acknowledged for good. -/
structure LeaseProtocol (calls : List OutboxCall) : Prop where
  exclusive : ∀ identifier earlier nowMs token expiresMs middle nowMs' token' expiresMs' later,
    history hash identifier calls =
      earlier ++ (.grant nowMs token expiresMs :: middle ++ [.grant nowMs' token' expiresMs']) ++ later →
    expiresMs ≤ nowMs' ∨ ∃ retryAtMs, .giveBack token retryAtMs ∈ middle
  holder : ∀ identifier earlier move token later, history hash identifier calls = earlier ++ move :: later →
    move = .finish token ∨ (∃ retryAtMs, move = .giveBack token retryAtMs) →
    ∃ before nowMs expiresMs, earlier = before ++ [.grant nowMs token expiresMs]
  final : ∀ identifier earlier token later, history hash identifier calls = earlier ++ .finish token :: later → later = []
  recorded : ∀ before call after, calls = before ++ call :: after → ∀ identifier,
    history hash identifier (before ++ [call]) = history hash identifier before →
    (outboxRun hash (before ++ [call])).outbox.lookup identifier = (outboxRun hash before).outbox.lookup identifier
  enqueued : ∀ before report middle after store, calls = before ++ .enqueue report :: middle ++ after →
    enqueueReport hash (outboxRun hash before) report = .ok (store, .inserted) →
    ∃ row, (outboxRun hash (before ++ .enqueue report :: middle)).outbox.lookup report.identifier = some row ∧
      row.contents = (report.row hash).contents
  answered : ∀ before call after, calls = before ++ call :: after →
    ∀ claimed ∈ claimedBy (outboxRun hash before) call,
    ∃ row, (outboxRun hash before).outbox.lookup claimed.identifier = some row ∧
      claimed = row.claimed claimed.identifier claimed.leaseToken

/-- A report that is not acknowledged can be claimed when its time has come, and a claim takes the first of those
that can be claimed. -/
structure Reclaimable (calls : List OutboxCall) : Prop where
  due : ∀ before after, calls = before ++ after → ∀ identifier earlier move nowMs,
    history hash identifier before = earlier ++ [move] → move.leaves.Available nowMs →
    ∃ row, (outboxRun hash before).outbox.lookup identifier = some row ∧ row.isClaimable nowMs = true
  claimed : ∀ before after, calls = before ++ after → ∀ period nowMs leaseDurationMs limit draw,
    (∀ p, period = some p → p.Valid) → validClaim nowMs leaseDurationMs limit = true →
    ∃ store claimed, claimOf (outboxRun hash before) period nowMs leaseDurationMs limit draw = .ok (store, claimed) ∧
      claimed.map (·.identifier) = ((claimable (outboxRun hash before) period nowMs).take limit).map (·.1)

variable {hash}

theorem contents_kept {store : Store δ} {identifier : List Char} {row : OutboxRow δ}
    (h : store.outbox.lookup identifier = some row) (calls : List OutboxCall) :
    ∃ row', (Machine.run (outboxStep hash) store calls).outbox.lookup identifier = some row' ∧
      row'.contents = row.contents := by
  have hsteps : RowSteps hash _ _ _ := rowSteps_run store calls identifier
  rw [h] at hsteps
  exact hsteps.contents

theorem exclusive_of_clocked {calls : List OutboxCall} (hclock : (claimTimes calls).Pairwise (· ≤ ·))
    {identifier : List Char} {earlier middle later : List (Move (List Char))} {nowMs nowMs' expiresMs expiresMs' : Int}
    {token token' : List Char} (h : history hash identifier calls =
      earlier ++ (.grant nowMs token expiresMs :: middle ++ [.grant nowMs' token' expiresMs']) ++ later) :
    expiresMs ≤ nowMs' ∨ ∃ retryAtMs, .giveBack token retryAtMs ∈ middle := by
  have htimes : (grantTimes (history hash identifier calls)).Pairwise (· ≤ ·) := pairwise_grantTimes hclock
  obtain ⟨_, hsteps⟩ := steps_history hash identifier calls
  rw [h] at htimes hsteps
  obtain ⟨_, hearlier, -⟩ := hsteps.split
  obtain ⟨_, -, hmiddle⟩ := hearlier.split
  refine hmiddle.exclusive (htimes.sublist (List.Sublist.filterMap _ ?_))
  rw [List.append_assoc]
  exact ((List.sublist_cons_self _ _).trans (List.sublist_append_left _ later)).trans (List.sublist_append_right earlier _)

theorem holder_of_resolved {calls : List OutboxCall} {identifier : List Char} {earlier later : List (Move (List Char))}
    {move : Move (List Char)} {token : List Char} (h : history hash identifier calls = earlier ++ move :: later)
    (hmove : move = .finish token ∨ ∃ retryAtMs, move = .giveBack token retryAtMs) :
    ∃ before nowMs expiresMs, earlier = before ++ [.grant nowMs token expiresMs] := by
  obtain ⟨_, hsteps⟩ := steps_history hash identifier calls
  rw [h] at hsteps
  obtain ⟨_, hearlier, hlater⟩ := hsteps.split
  cases hlater with
  | cons first _ =>
    obtain rfl | ⟨retryAtMs, rfl⟩ := hmove
    · cases first
      obtain ⟨before, nowMs, hbefore⟩ := hearlier.holder
      exact ⟨before, nowMs, _, hbefore⟩
    · cases first
      obtain ⟨before, nowMs, hbefore⟩ := hearlier.holder
      exact ⟨before, nowMs, _, hbefore⟩

theorem nil_of_finished {calls : List OutboxCall} {identifier : List Char} {earlier later : List (Move (List Char))}
    {token : List Char} (h : history hash identifier calls = earlier ++ .finish token :: later) : later = [] := by
  obtain ⟨_, hsteps⟩ := steps_history hash identifier calls
  rw [h] at hsteps
  obtain ⟨_, -, hlater⟩ := hsteps.split
  cases hlater with
  | cons first rest =>
    cases first
    exact rest.done.1

theorem leaseProtocol_of_clocked {calls : List OutboxCall} (hclock : (claimTimes calls).Pairwise (· ≤ ·)) :
    LeaseProtocol hash calls := by
  refine ⟨?_, ?_, ?_, ?_, ?_, ?_⟩
  · intro identifier earlier nowMs token expiresMs middle nowMs' token' expiresMs' later h
    exact exclusive_of_clocked hclock h
  · intro identifier earlier move token later h hmove
    exact holder_of_resolved h hmove
  · intro identifier earlier token later h
    exact nil_of_finished h
  · intro before call after _ identifier hsame
    have hsteps : RowSteps hash _ _ _ := rowSteps_run (outboxRun hash before) [call] identifier
    rw [history_append, List.append_right_eq_self] at hsame
    rw [hsame] at hsteps
    unfold outboxRun at hsteps ⊢
    rw [Machine.run_append]
    generalize (Machine.run (outboxStep hash) (Machine.run (outboxStep hash) {} before) [call]).outbox.lookup identifier =
      row at hsteps ⊢
    cases hsteps
    rfl
  · intro before report middle after store _ henqueue
    obtain ⟨hduplicate, -⟩ | ⟨-, -, houtbox⟩ := enqueueReport_ok henqueue
    · cases hduplicate
    · have hstep : outboxStep hash (outboxRun hash before) (.enqueue report) = store := by
        simp [outboxStep, OutboxCall.perform, henqueue, bind, Except.bind, pure, Except.pure]
      have hrow : store.outbox.lookup report.identifier = some (report.row hash) := by
        rw [houtbox, AList.lookup_insert]
      obtain ⟨row, hlookup, hcontents⟩ := contents_kept hrow middle
      refine ⟨row, ?_, hcontents⟩
      unfold outboxRun at hstep ⊢
      rw [Machine.run_append, Machine.run, hstep]
      exact hlookup
  · intro before call after _ claimed hclaimed
    exact answered_of_claimed hclaimed

theorem reclaimable_of_attempts {calls : List OutboxCall}
    (hattempts : ∀ identifier, (grantTimes (history hash identifier calls)).length < u32Max) : Reclaimable hash calls := by
  refine ⟨?_, ?_⟩
  · intro before after _ identifier earlier move nowMs h havailable
    have htraced : Traced _ (history hash identifier before) := traced_history identifier before
    rw [h] at htraced
    cases hlookup : (outboxRun hash before).outbox.lookup identifier with
    | none =>
      rw [hlookup] at htraced
      generalize hmoves : earlier ++ [move] = moves at htraced
      cases htraced
      simp at hmoves
    | some row =>
      rw [hlookup] at htraced
      cases htraced with
      | some steps tells _ =>
        obtain rfl := steps.last
        exact ⟨row, rfl, (tells.isClaimable_iff nowMs).mpr havailable⟩
  · intro before after hsplit period nowMs leaseDurationMs limit draw hperiod hclaim
    have hnodup := (nodup_claimable (outboxRun hash before) period nowMs).sublist ((List.take_sublist limit _).map _)
    have hready : ∀ entry ∈ (claimable (outboxRun hash before) period nowMs).take limit,
        (outboxRun hash before).outbox.lookup entry.1 = some entry.2 ∧ entry.2.isClaimable nowMs = true ∧
          entry.2.attemptCount + 1 ≤ u32Max := by
      intro entry hentry
      obtain ⟨hlookup, hclaimable⟩ := mem_claimable (List.mem_of_mem_take hentry)
      refine ⟨hlookup, hclaimable, ?_⟩
      have htraced : Traced _ (history hash entry.1 before) := traced_history entry.1 before
      rw [hlookup] at htraced
      cases htraced with
      | some _ _ attempts =>
        have hall := hattempts entry.1
        rw [hsplit, history_append, grantTimes_append, List.length_append] at hall
        omega
    obtain ⟨outbox', claimed, hrows, hidentifiers⟩ := @claimRows_of_claimable _ nowMs
      (saturatingAdd nowMs leaseDurationMs) _ _ draw hnodup hready
    refine ⟨{ outboxRun hash before with outbox := outbox' }, claimed, ?_, hidentifiers⟩
    have hinner : claimReportsInner (outboxRun hash before) period nowMs leaseDurationMs limit draw =
        .ok ({ outboxRun hash before with outbox := outbox' }, claimed) := by
      simp only [claimReportsInner, bind_ok_iff, require_ok_iff, pure_ok_iff, Prod.mk.injEq, Prod.exists]
      exact ⟨(), hclaim, outbox', claimed, hrows, rfl, rfl⟩
    cases period with
    | none => exact hinner
    | some period =>
      simp only [claimOf, claimReportsForPeriod, bind_ok_iff, require_ok_iff, decide_eq_true_eq]
      exact ⟨(), hperiod period rfl, hinner⟩

/-- The outbox keeps to the protocol of leases, and gives every report out again as long as its attempts can be
counted. -/
theorem reports_leased_and_reclaimable (calls : List OutboxCall) (hclock : (claimTimes calls).Pairwise (· ≤ ·)) :
    LeaseProtocol hash calls ∧
      ((∀ identifier, (grantTimes (history hash identifier calls)).length < u32Max) → Reclaimable hash calls) :=
  ⟨leaseProtocol_of_clocked hclock, reclaimable_of_attempts⟩

end Protocol

section Sample

def sampleReport : ReportRequest where
  identifier := ['r']
  eventName := ['e']
  customerId := ['c']
  period := samplePeriod
  dimension := .readUnits
  windowStartMs := 0
  windowEndMs := 1000
  quantity := 1
  providerTimestampMs := 1000
  nowMs := 1000

def sampleAttempt (n : Nat) : List OutboxCall :=
  [.claim none 1000 1000 1 fun _ => BitVec.ofNat 128 n, .fail ['r'] (uuidText (BitVec.ofNat 128 n)) 0 ['x']]

def sampleAttempts (n : Nat) : List OutboxCall := .enqueue sampleReport :: (List.range n).flatMap sampleAttempt

theorem sample_reclaimable : LeaseProtocol id (sampleAttempts 2) ∧ Reclaimable id (sampleAttempts 2) := by
  obtain ⟨hprotocol, hreclaimable⟩ :=
    @reports_leased_and_reclaimable (List UInt8) _ id (sampleAttempts 2) (by decide +kernel)
  refine ⟨hprotocol, hreclaimable fun identifier => ?_⟩
  have hlength : (Machine.trace (outboxStep id) (happened id) ({} : Store (List UInt8)) (sampleAttempts 2)).length <
      u32Max := by decide +kernel
  have hmoves : (grantTimes (history id identifier (sampleAttempts 2))).length ≤
      (Machine.trace (outboxStep id) (happened id) ({} : Store (List UInt8)) (sampleAttempts 2)).length :=
    (List.length_filterMap_le _ _).trans (List.length_filterMap_le _ _)
  omega

def Attempted (store : Store (List UInt8)) (n : Nat) : Prop :=
  ∃ row, store.outbox = AList.insert ['r'] row ∅ ∧ row.attemptCount = n ∧
    (row.state = .pending ∨ row.state = .failed) ∧ row.nextAttemptMs ≤ 1000

variable {store : Store (List UInt8)} {n : Nat}

theorem claimable_single {row : OutboxRow (List UInt8)} (h : store.outbox = AList.insert ['r'] row ∅)
    (hclaimable : row.isClaimable 1000 = true) : claimable store none 1000 = [(['r'], row)] := by
  have hentries : store.outbox.entries = [⟨['r'], row⟩] := by
    rw [h]
    rfl
  simp [claimable, hentries, OutboxRow.isOf, hclaimable]

theorem Attempted.isClaimable {row : OutboxRow (List UInt8)} (hstate : row.state = .pending ∨ row.state = .failed)
    (hnext : row.nextAttemptMs ≤ 1000) : row.isClaimable 1000 = true := by
  obtain hstate | hstate := hstate <;> simp [OutboxRow.isClaimable, hstate, hnext]

theorem Attempted.again (h : Attempted store n) (hn : n < u32Max) :
    Attempted (Machine.run (outboxStep id) store (sampleAttempt n)) (n + 1) := by
  obtain ⟨row, houtbox, rfl, hstate, hnext⟩ := h
  have hclaimable := Attempted.isClaimable hstate hnext
  have hlookup : store.outbox.lookup ['r'] = some row := by rw [houtbox, AList.lookup_insert]
  generalize htoken : uuidText (BitVec.ofNat 128 row.attemptCount) = token
  have hvalid : validateIdentifier token = true := by
    rw [← htoken]
    exact valid_uuidText _
  have hrows : claimRows 1000 (saturatingAdd 1000 1000) store.outbox [(['r'], row)]
      (fun _ => BitVec.ofNat 128 row.attemptCount) =
      .ok (store.outbox.insert ['r'] (row.leased token (saturatingAdd 1000 1000)), [row.claimed ['r'] token]) := by
    simp [claimRows, hlookup, hclaimable, htoken, require, show row.attemptCount + 1 ≤ u32Max from hn, bind,
      Except.bind, pure, Except.pure]
  generalize hleased : row.leased token (saturatingAdd 1000 1000) = leased at hrows
  have hheld : leased.isHeldWith token = true := by simp [← hleased, OutboxRow.isHeldWith, OutboxRow.leased]
  have hclaim : outboxStep id store (.claim none 1000 1000 1 fun _ => BitVec.ofNat 128 row.attemptCount) =
      { store with outbox := store.outbox.insert ['r'] leased } := by
    simp [outboxStep, OutboxCall.perform, claimOf, claimReports, claimReportsInner, claimable_single houtbox hclaimable,
      hrows, require, show validClaim 1000 1000 1 = true by decide, bind, Except.bind, pure, Except.pure]
  have hfail : outboxStep id { store with outbox := store.outbox.insert ['r'] leased } (.fail ['r'] token 0 ['x']) =
      { store with outbox := store.outbox.insert ['r'] (leased.failed 0) } := by
    simp [outboxStep, OutboxCall.perform, failReport, resolveReport, hvalid, require, orError, hheld,
      show validateIdentifier ['r'] = true by decide, show Text.byteLength ['x'] ≤ maxProviderErrorBytes by decide, bind,
      Except.bind, pure, Except.pure]
  refine ⟨leased.failed 0, ?_, ?_, .inr rfl, ?_⟩
  · rw [sampleAttempt, htoken, Machine.run, hclaim, Machine.run, hfail, Machine.run]
    dsimp only
    rw [houtbox, AList.insert_insert]
  · rw [← hleased]
    rfl
  · change (0 : Int) ≤ 1000
    decide

theorem attempted_run (hn : n ≤ u32Max) : Attempted (outboxRun id (sampleAttempts n)) n := by
  induction n with
  | zero => exact ⟨sampleReport.row id, rfl, rfl, .inl rfl, by decide⟩
  | succ n ih =>
    have hrun : outboxRun id (sampleAttempts (n + 1)) =
        Machine.run (outboxStep id) (outboxRun id (sampleAttempts n)) (sampleAttempt n) := by
      unfold outboxRun sampleAttempts
      rw [List.range_succ, List.flatMap_append, List.flatMap_singleton, ← List.cons_append, Machine.run_append]
    rw [hrun]
    exact (ih (by omega)).again (by omega)

theorem Attempted.refused (h : Attempted store n) (hn : ¬n + 1 ≤ u32Max) (draw : Nat → Uuid) :
    claimOf store none 1000 1000 1 draw = .error .unavailable := by
  obtain ⟨row, houtbox, rfl, hstate, hnext⟩ := h
  have hclaimable := Attempted.isClaimable hstate hnext
  have hlookup : store.outbox.lookup ['r'] = some row := by rw [houtbox, AList.lookup_insert]
  have hrows : claimRows 1000 (saturatingAdd 1000 1000) store.outbox [(['r'], row)] draw = .error .unavailable := by
    simp [claimRows, hlookup, hclaimable, require, hn, bind, Except.bind]
  simp [claimOf, claimReports, claimReportsInner, claimable_single houtbox hclaimable, hrows, require,
    show validClaim 1000 1000 1 = true by decide, bind, Except.bind]

/-- A report whose attempts cannot be counted any more is never given out again. -/
theorem exhausted_report_stuck : ¬Reclaimable id (sampleAttempts u32Max) := by
  intro h
  have hattempted : Attempted (outboxRun id (sampleAttempts u32Max)) u32Max := attempted_run le_rfl
  have hrefused := hattempted.refused (Nat.not_succ_le_self u32Max) fun _ => 0
  -- the list of calls is never to be evaluated
  generalize sampleAttempts u32Max = calls at h hrefused
  obtain ⟨store, claimed, hclaim, -⟩ := h.claimed calls [] (List.append_nil calls).symm none 1000 1000 1 (fun _ => 0)
    (fun _ hnone => nomatch hnone) (by decide)
  rw [hrefused] at hclaim
  cases hclaim

end Sample

end Ffdb.Metrics
