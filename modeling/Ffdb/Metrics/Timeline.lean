import Ffdb.Lib.Machine
import Ffdb.Metrics.Periods

/-! Requests of an organization while its billing account changes. Requests that are metered in periods of one start
need one end as well, or the later ones are blocked. -/
namespace Ffdb.Metrics
open Fallible
open DatabaseWorker (Uuid)
open Billing (BillingAccount BillingTables Collation PlatformBillingUnit PlatformBillingUpdate VerifiedBillingEvent
  byteCollation)

variable {δ : Type} {hash : List UInt8 → δ} {store store' : Store δ} {P : BillingPeriod → Prop}

section Timeline
variable {δ' : Type} [DecidableEq δ] (hash : List UInt8 → δ) (organization : Organization) (collation : Collation)
  (proBillingUnit : PlatformBillingUnit)

/-- What happens to the organization: its billing account is updated, or a request comes in. -/
inductive Moment where
  | update (event : VerifiedBillingEvent) (update : PlatformBillingUpdate)
  | request (nowMs : Int)

inductive PeriodStep where
  | update (event : VerifiedBillingEvent) (update : PlatformBillingUpdate)
  | request (nowMs : Int) (call : MeteringCall)

def PeriodStep.moment : PeriodStep → Moment
  | .update event platformUpdate => .update event platformUpdate
  | .request nowMs _ => .request nowMs

structure BilledLedger (δ δ' : Type) where
  tables : BillingTables δ'
  ledger : Ledger δ

def updated (tables : BillingTables δ') (event : VerifiedBillingEvent) (update : PlatformBillingUpdate) :
    BillingTables δ' :=
  (Billing.applyUpdate collation proBillingUnit tables event update).toOption.getD tables

def accountOf (tables : BillingTables δ') : Option BillingAccount := tables.accounts.lookup organization.id

def periodStep (world : BilledLedger δ δ') : PeriodStep → BilledLedger δ δ'
  | .update event update => { world with tables := updated collation proBillingUnit world.tables event update }
  | .request nowMs call =>
    { world with
      ledger := (call.perform hash organization (accountOf organization world.tables) nowMs world.ledger).toOption.getD
        world.ledger }

/-- Whatever is done for the requests of a timeline, none of them fails because its period was recorded
with another end or cutoff. -/
def NeverBlocked (tables : BillingTables δ') (ledger : Ledger δ) (timeline : List Moment) : Prop :=
  ∀ steps : List PeriodStep, steps.map PeriodStep.moment = timeline →
    ∀ before step after, steps = before ++ step :: after → ∀ nowMs call, step = .request nowMs call →
      let world := Machine.run (periodStep hash organization collation proBillingUnit) ⟨tables, ledger⟩ before
      ¬Blocked hash organization (accountOf organization world.tables) nowMs world.ledger call

def requestPeriods (tables : BillingTables δ') : List Moment → List BillingPeriod
  | [] => []
  | .update event update :: rest => requestPeriods (updated collation proBillingUnit tables event update) rest
  | .request nowMs :: rest =>
    (billingPeriod (accountOf organization tables) nowMs).toOption.toList ++ requestPeriods tables rest

def EndTogether (period period' : BillingPeriod) : Prop :=
  period.Valid → period'.Valid → period.startMs = period'.startMs → period.endMs = period'.endMs

instance (period period' : BillingPeriod) : Decidable (EndTogether period period') := by
  unfold EndTogether
  infer_instance

instance : Std.Symm EndTogether :=
  ⟨fun _ _ hends hvalid hvalid' hstart => (hends hvalid' hvalid hstart.symm).symm⟩

end Timeline

section Together
variable {δ' : Type} {organization : Organization} {collation : Collation} {proBillingUnit : PlatformBillingUnit}
  {tables : BillingTables δ'} {account : Option BillingAccount} {nowMs : Int} {ledger : Ledger δ}

theorem requestPeriods_bounds {timeline : List Moment} {period : BillingPeriod}
    (h : period ∈ requestPeriods organization collation proBillingUnit tables timeline) :
    period = .ofBounds period.startMs period.endMs := by
  induction timeline generalizing tables with
  | nil => cases h
  | cons moment rest ih =>
    cases moment with
    | update event update => exact ih h
    | request nowMs =>
      obtain hfirst | hrest := List.mem_append.mp h
      · cases hperiod : billingPeriod (accountOf organization tables) nowMs with
        | ok billed =>
          rw [hperiod] at hfirst
          obtain rfl := List.mem_singleton.mp hfirst
          exact (billingPeriod_contains hperiod).1
        | error e =>
          rw [hperiod] at hfirst
          cases hfirst
      · exact ih hrest

variable [DecidableEq δ]

theorem Ledger.Within.not_blocked (h : ledger.Within P)
    (hbounds : ∀ period, P period → period = .ofBounds period.startMs period.endMs)
    (htogether : ∀ period period', P period → P period' → EndTogether period period')
    (hrequest : ∀ period, billingPeriod account nowMs = .ok period → P period) (call : MeteringCall) :
    ¬Blocked hash organization account nowMs ledger call := by
  intro hblocked
  obtain ⟨hfailed, period, hperiod, row, hrow, hdiffers⟩ := hblocked
  have hvalid := period_valid hfailed hperiod
  have hthis := h.period hbounds hrequest hperiod
  obtain ⟨known, hknown, hknownValid, hstart, hend, hcutoff⟩ := h.store.periods _ row hrow
  have hsame := htogether known period hknown hthis hknownValid hvalid hstart
  refine hdiffers ⟨hend.symm.trans hsame, ?_⟩
  rw [← hcutoff, hbounds known hknown, hbounds period hthis, hsame]
  rfl

theorem never_blocked_within {timeline : List Moment}
    (hbounds : ∀ period, P period → period = .ofBounds period.startMs period.endMs)
    (htogether : ∀ period period', P period → P period' → EndTogether period period')
    (hrequests : ∀ period ∈ requestPeriods organization collation proBillingUnit tables timeline, P period)
    (h : ledger.Within P) : NeverBlocked hash organization collation proBillingUnit tables ledger timeline := by
  intro steps hsteps
  induction steps generalizing tables ledger timeline with
  | nil => exact Machine.forall_point_nil
  | cons step steps ih =>
    subst hsteps
    cases step with
    | update event update =>
      refine Machine.forall_point_cons (fun _ _ hstep => nomatch hstep) ?_
      exact ih hrequests h rfl
    | request nowMs call =>
      have hrequest (period : BillingPeriod)
          (hperiod : billingPeriod (accountOf organization tables) nowMs = .ok period) : P period := by
        refine hrequests period (List.mem_append_left _ ?_)
        rw [hperiod]
        exact List.mem_singleton_self period
      have hnext : (((call.perform hash organization (accountOf organization tables) nowMs ledger).toOption.getD
          ledger).Within P) := by
        cases hperform : call.perform hash organization (accountOf organization tables) nowMs ledger with
        | ok ledger' => exact h.performed hbounds hrequest hperform
        | error e => exact h
      refine Machine.forall_point_cons ?_ ?_
      · intro nowMs' call' hstep
        cases hstep
        exact h.not_blocked hbounds htogether hrequest call
      · exact ih (fun period hperiod => hrequests period (List.mem_append_right _ hperiod)) hnext rfl

end Together

section Filling
variable {δ' : Type} [DecidableEq δ] {organization : Organization} {collation : Collation}
  {proBillingUnit : PlatformBillingUnit} {tables : BillingTables δ'} {account : Option BillingAccount} {nowMs : Int}
  {ledger : Ledger δ} {period period' : BillingPeriod}

theorem recordEvent_first {event : UsageEvent} (hvalid : event.Valid) :
    ∃ store' : Store δ, recordEvent hash {} event = .ok (store', .inserted) ∧ Registered store' event.period := by
  have hperiod : event.period.Valid := hvalid.2.1
  have hempty : Accepts ({} : Store δ) event.period := fun row hrow => by simp at hrow
  obtain ⟨ensured, hensure, hopen⟩ := hempty.ensure hperiod
  have hsound : Sound hash ⟨ensured, []⟩ := sound_empty.ensured hensure
  have hnew : ensured.eventReceipts.lookup event.eventId = none := by
    rw [ensurePeriod_frame hensure]
    rfl
  obtain ⟨store', hingest⟩ := ingestEvent_new hsound hvalid hopen.registered hnew
  refine ⟨store', ?_, ?_⟩
  · have haccepting := hopen.accepting hvalid.2.2.1.2.2.2
    simp [recordEvent, require, hvalid, hensure, haccepting, hingest, bind, Except.bind]
  · rw [Registered, hopen.registered.ingested hperiod hingest]
    exact hopen.registered

theorem recordEvent_clash {event : UsageEvent} (hvalid : event.Valid) (hclash : Clashes store event.period) :
    recordEvent hash store event = .error .hashConflict := by
  obtain ⟨row, hrow, hdiffers⟩ := hclash
  have hrefused : (decide (row.endMs = event.period.endMs) &&
      decide (row.cutoffMs = event.period.cutoffMs)) = false := by
    simpa using hdiffers
  have hensure : ensurePeriod store event.period = .error .hashConflict := by
    unfold ensurePeriod
    rw [hrow]
    simp only [require, hvalid.2.1, hrefused, bind, Except.bind, decide_true, if_true]
    rfl
  simp [recordEvent, require, hvalid, hensure, bind, Except.bind]

def openSettings : BillingSettings := ⟨fun _ => some ⟨1, 1, 1, 1⟩, false, false, false⟩

theorem valid_storageEventId (eventId : Uuid) : validateIdentifier ("storage:".toList ++ uuidText eventId) = true := by
  have hword : IsPlain "storage:".toList := by decide
  have hlength : "storage:".toList.length = 8 := by decide
  refine validateIdentifier_of_plain (hword.append (isPlain_uuidText eventId)) ?_ ?_ <;>
    rw [List.length_append, length_uuidText, hlength] <;> decide

def probe : MeteringCall := .recordObject openSettings 0 0 ['u'] 0

theorem probe_eq (ledger : Ledger δ) (hbilled : billingPeriod account nowMs = .ok period) (hvalid : period.Valid) :
    ∃ event : UsageEvent, event.Valid ∧ event.period = period ∧
      probe.perform hash organization account nowMs ledger =
        ((recordEvent hash ledger.store event).mapError MeteringError.store >>= fun result =>
          pure { ledger with store := result.1 }) := by
  obtain ⟨subjectHash, hsubject⟩ : ∃ subjectHash, hashActiveSubject organization period ['u'] = .ok subjectHash := by
    have hchecks : (! ['u'].isEmpty && decide (Text.byteLength ['u'] ≤ 512) && ['u'].all (· ≠ Char.ofNat 0)) = true := by
      decide
    unfold hashActiveSubject
    rw [hchecks, decide_eq_true hvalid]
    exact ⟨_, rfl⟩
  obtain ⟨-, hstart, hend⟩ := billingPeriod_contains hbilled
  refine ⟨objectEvent 0 ("storage:".toList ++ uuidText 0) period subjectHash 0 nowMs,
    valid_objectEvent (valid_storageEventId 0) hvalid (Nat.zero_le _) hstart hend, rfl, ?_⟩
  have hcontext : billingContext openSettings account nowMs = .ok ⟨period, 1, 1, 1, 1, false, false, false⟩ := by
    unfold billingContext
    rw [hbilled]
    simp [openSettings, positive, require, orError, bind, Except.bind, pure, Except.pure]
  rw [probe, MeteringCall.perform, hcontext]
  change (recordObjectStorage hash organization ⟨period, 1, 1, 1, 1, false, false, false⟩ 0 0 ['u'] 0 nowMs
    ledger.store >>= _) = _
  rw [recordObjectStorage, hsubject]
  rfl

def Moment.idle : Moment → PeriodStep
  | .update event platformUpdate => .update event platformUpdate
  | .request nowMs => .request nowMs (.release 0)

theorem Moment.moment_idle (moment : Moment) : moment.idle.moment = moment := by
  cases moment <;> rfl

theorem NeverBlocked.after {step : PeriodStep} {rest : List Moment}
    (h : NeverBlocked hash organization collation proBillingUnit tables ledger (step.moment :: rest)) :
    let world := periodStep hash organization collation proBillingUnit ⟨tables, ledger⟩ step
    NeverBlocked hash organization collation proBillingUnit world.tables world.ledger rest := by
  intro world steps hsteps before next after hsplit
  exact h (step :: steps) (congrArg (step.moment :: ·) hsteps) (step :: before) next after (congrArg (step :: ·) hsplit)

theorem NeverBlocked.now {rest : List Moment}
    (h : NeverBlocked hash organization collation proBillingUnit tables ledger (.request nowMs :: rest))
    (call : MeteringCall) : ¬Blocked hash organization (accountOf organization tables) nowMs ledger call := by
  have hrest : (rest.map Moment.idle).map PeriodStep.moment = rest := by
    rw [List.map_map]
    exact (List.map_congr_left fun moment _ => moment.moment_idle).trans (List.map_id rest)
  exact h (.request nowMs call :: rest.map Moment.idle) (congrArg (Moment.request nowMs :: ·) hrest) [] _ _ rfl
    nowMs call rfl

/-- Nothing is in flight, so that giving up the first usage is nothing. -/
theorem NeverBlocked.idle {moment : Moment} {rest : List Moment} (hprepared : ledger.prepared = [])
    (h : NeverBlocked hash organization collation proBillingUnit tables ledger (moment :: rest)) :
    NeverBlocked hash organization collation proBillingUnit
      (periodStep hash organization collation proBillingUnit ⟨tables, ledger⟩ moment.idle).tables ledger rest := by
  have hidle : NeverBlocked hash organization collation proBillingUnit tables ledger (moment.idle.moment :: rest) := by
    rw [moment.moment_idle]
    exact h
  have hnext := hidle.after
  have hsame : (periodStep hash organization collation proBillingUnit ⟨tables, ledger⟩ moment.idle).ledger =
      ledger := by
    cases moment with
    | update event update => rfl
    | request nowMs =>
      simp only [Moment.idle, periodStep, MeteringCall.perform, hprepared]
      rfl
  rw [← hsame]
  simpa only [hsame] using hnext

theorem together_of_registered {timeline : List Moment} (hprepared : ledger.prepared = [])
    (hregistered : Registered ledger.store period)
    (h : NeverBlocked hash organization collation proBillingUnit tables ledger timeline) :
    ∀ period' ∈ requestPeriods organization collation proBillingUnit tables timeline, EndTogether period period' := by
  induction timeline generalizing tables with
  | nil => exact fun _ hnone => nomatch hnone
  | cons moment rest ih =>
    have hrest := ih (h.idle hprepared)
    cases moment with
    | update event update => exact hrest
    | request nowMs =>
      intro period' hmember
      obtain hfirst | hlater := List.mem_append.mp hmember
      · intro hvalid hvalid' hstart
        have hbilled : billingPeriod (accountOf organization tables) nowMs = .ok period' := by
          cases hbilled : billingPeriod (accountOf organization tables) nowMs with
          | ok billed =>
            rw [hbilled] at hfirst
            exact congrArg Except.ok (List.mem_singleton.mp hfirst).symm
          | error e =>
            rw [hbilled] at hfirst
            cases hfirst
        by_contra hdiffers
        obtain ⟨row, hrow, hend, -⟩ := hregistered
        have hclash : Clashes ledger.store period' :=
          ⟨row, hstart ▸ hrow, fun hsame => hdiffers (hend.symm.trans hsame.1)⟩
        obtain ⟨event, hevent, hperiod, hprobe⟩ :=
          @probe_eq δ hash _ organization _ nowMs period' ledger hbilled hvalid'
        refine h.now probe ⟨?_, period', ?_, hclash⟩
        · rw [hprobe, recordEvent_clash hevent (hperiod ▸ hclash)]
          rfl
        · rw [probe, MeteringCall.period, hbilled]
          rfl
      · exact hrest period' hlater

theorem NeverBlocked.pairwise {timeline : List Moment}
    (h : NeverBlocked hash organization collation proBillingUnit tables {} timeline) :
    (requestPeriods organization collation proBillingUnit tables timeline).Pairwise EndTogether := by
  induction timeline generalizing tables with
  | nil => exact List.Pairwise.nil
  | cons moment rest ih =>
    have hrest := ih (h.idle rfl)
    cases moment with
    | update event update => exact hrest
    | request nowMs =>
      cases hbilled : billingPeriod (accountOf organization tables) nowMs with
      | error e =>
        rw [requestPeriods, hbilled]
        exact hrest
      | ok period =>
        rw [requestPeriods, hbilled]
        refine List.Pairwise.cons (fun period' hperiod' hvalid => ?_) hrest
        obtain ⟨event, hevent, hperiod, hprobe⟩ := @probe_eq δ hash _ organization _ nowMs period {} hbilled hvalid
        obtain ⟨store', hrecord, hregistered⟩ := @recordEvent_first δ hash _ event hevent
        have hprobed : probe.perform hash organization (accountOf organization tables) nowMs ({} : Ledger δ) =
            .ok { store := store' } := by
          rw [hprobe]
          change ((recordEvent hash {} event).mapError MeteringError.store >>= _) = _
          rw [hrecord]
          rfl
        have hnext : NeverBlocked hash organization collation proBillingUnit tables { store := store' } rest := by
          have hstep : NeverBlocked hash organization collation proBillingUnit tables {}
              ((PeriodStep.request nowMs probe).moment :: rest) := h
          have hafter := hstep.after
          simp only [periodStep, hprobed] at hafter
          exact hafter
        exact together_of_registered rfl (hperiod ▸ hregistered) hnext period' hperiod' hvalid

end Filling

section Claim
variable {δ' : Type} [DecidableEq δ] (hash : List UInt8 → δ) (organization : Organization) (collation : Collation)
  (proBillingUnit : PlatformBillingUnit)

/-- No request of an organization is blocked, whatever the requests are, exactly when those of their periods that begin
together end together. -/
theorem neverBlocked_iff (tables : BillingTables δ') (timeline : List Moment) :
    NeverBlocked hash organization collation proBillingUnit tables {} timeline ↔
      (requestPeriods organization collation proBillingUnit tables timeline).Pairwise EndTogether := by
  refine ⟨NeverBlocked.pairwise, fun h => ?_⟩
  have htogether : ∀ period ∈ requestPeriods organization collation proBillingUnit tables timeline,
      ∀ period' ∈ requestPeriods organization collation proBillingUnit tables timeline, EndTogether period period' :=
    fun _ hperiod _ hperiod' => h.forall_of_forall (fun _ _ _ _ _ => rfl) hperiod hperiod'
  exact never_blocked_within (fun period hperiod => requestPeriods_bounds hperiod)
    (fun period period' hperiod hperiod' => htogether period hperiod period' hperiod') (fun _ hperiod => hperiod)
    ledger_within_empty

end Claim

section Sample

def IsTimeline {δ' : Type} (collation : Collation) (proBillingUnit : PlatformBillingUnit) :
    BillingTables δ' → Int → List Moment → Prop
  | _, _, [] => True
  | tables, nowMs, .update event update :: rest =>
    (Billing.applyUpdate collation proBillingUnit tables event update).toOption.isSome = true ∧
      IsTimeline collation proBillingUnit (updated collation proBillingUnit tables event update) nowMs rest
  | tables, nowMs, .request nowMs' :: rest =>
    nowMs ≤ nowMs' ∧ IsTimeline collation proBillingUnit tables nowMs' rest

def sampleTables : BillingTables Unit := { organizations := [5] }

def sampleSubscribed (eventId : String) (createdAtMs endDays : Int) : Moment :=
  .update ⟨eventId, "customer.subscription.updated", false, createdAtMs, none, none⟩
    ⟨5, "cus_0001", some "sub_0001", .pro, .active, 1, some (10*dayMs), some (endDays*dayMs), false⟩

def sampleProlonged : List Moment :=
  [sampleSubscribed "evt_0001" (10*dayMs) 20, .request (11*dayMs), sampleSubscribed "evt_0002" (12*dayMs) 40,
    .request (13*dayMs)]

theorem prolonged_subscription_blocks :
    IsTimeline byteCollation .organization sampleTables 0 sampleProlonged ∧
      ¬NeverBlocked id sampleOrganization byteCollation .organization sampleTables {} sampleProlonged := by
  refine ⟨?_, fun h => ?_⟩
  · simp only [IsTimeline, sampleProlonged, sampleSubscribed]
    decide +kernel
  · have hends := h.pairwise
    revert hends
    decide +kernel

end Sample

end Ffdb.Metrics
