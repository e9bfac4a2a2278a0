import Mathlib.Data.Rat.Floor
import Ffdb.Lib.Machine

/-! The controller that syncs by itself: it runs full syncs and waiting pulls, one after another, each started by a
timer, and it can be woken, paused and stopped at any time. -/
namespace Ffdb.Client

inductive AutoSyncStatus where
  | stopped
  | paused
  | syncing
  | watching
  | backoff
  deriving DecidableEq

inductive AutoSyncWakeReason where
  | focus
  | mutation
  | manual
  deriving DecidableEq

inductive RunKind where
  | sync
  | watch
  deriving DecidableEq

structure SyncWaitResult where
  changed : Bool
  waitedMs : ℚ

structure AutoSyncOptions where
  syncOnStart : Bool
  syncOnMutation : Bool
  mutationDebounceMs : ℚ
  pollIntervalMs : ℚ
  longPollMs : ℚ
  retryMinMs : ℚ
  retryMaxMs : ℚ
  active : Bool
  online : Bool

structure Run where
  id : Nat
  kind : RunKind
  /-- its signal -/
  aborted : Bool
  /-- it has failed, and its status is being published -/
  backingOff : Bool

structure AutoSync where
  active : Bool
  online : Bool
  stopped : Bool := false
  running : Bool := false
  rerun : Bool := false
  rerunDelayMs : ℚ := 0
  retryAttempt : Nat := 0
  timer : Option (RunKind × ℚ) := none
  request : Option Nat := none
  status : AutoSyncStatus := .stopped
  runs : List Run := []
  nextId : Nat := 0

def waitReturnedTooQuickly (result : SyncWaitResult) (requestedMs : ℚ) : Bool :=
  if result.changed || requestedMs = 0 then false else result.waitedMs < min 1000 (max 100 (requestedMs/2))

/-- The random number is in [0, 1). -/
def retryDelay (attempt : Nat) (options : AutoSyncOptions) (random : ℚ) : ℚ :=
  let ceiling := min options.retryMaxMs (options.retryMinMs*2^(attempt-1))
  ⌊ceiling*(1/2+random*(1/2))+1/2⌋

namespace AutoSync
variable (state : AutoSync)

def available : Bool := !state.stopped && state.active && state.online

def abortRequest : AutoSync :=
  { state with runs := state.runs.map fun run =>
      if state.request = some run.id then { run with aborted := true } else run }

def schedule (kind : RunKind) (delayMs : ℚ) : AutoSync :=
  if state.stopped || !state.active || !state.online then state else { state with timer := some (kind, delayMs) }

def scheduleRerun : AutoSync := schedule { state with rerunDelayMs := 0 } .sync state.rerunDelayMs

def start (options : AutoSyncOptions) : AutoSync :=
  if state.stopped then state
  else if !state.active || !state.online then { state with status := .paused }
  else state.schedule (if options.syncOnStart then .sync else .watch) 0

def reconcileAvailability : AutoSync :=
  if !state.active || !state.online then { abortRequest { state with timer := none } with status := .paused }
  else
    let state := abortRequest { state with retryAttempt := 0, rerun := true, rerunDelayMs := 0 }
    if state.running then state else state.schedule .sync 0

def setActive (active : Bool) : AutoSync :=
  if state.stopped || state.active = active then state else reconcileAvailability { state with active }

def setOnline (online : Bool) : AutoSync :=
  if state.stopped || state.online = online then state else reconcileAvailability { state with online }

def wake (options : AutoSyncOptions) (reason : AutoSyncWakeReason) : AutoSync :=
  if state.stopped || (reason = .mutation && !options.syncOnMutation) then state
  else if !state.active || !state.online then { state with rerun := true, status := .paused }
  else
    let state := abortRequest { state with
      rerun := true
      rerunDelayMs := if reason = .mutation then options.mutationDebounceMs else 0 }
    if state.running then state else state.scheduleRerun

def stop : AutoSync :=
  if state.stopped then state
  else { abortRequest { state with stopped := true, timer := none } with status := .stopped }

def beginRun (kind : RunKind) : AutoSync :=
  if state.stopped || !state.active || !state.online || state.running then state
  else { state with
    running := true
    rerun := false
    request := some state.nextId
    status := if kind = .sync then .syncing else .watching
    runs := ⟨state.nextId, kind, false, false⟩ :: state.runs
    nextId := state.nextId + 1 }

def endRun (id : Nat) : AutoSync :=
  { state with
    request := if state.request = some id then none else state.request
    running := false
    runs := state.runs.filter (·.id ≠ id) }

def resolved (options : AutoSyncOptions) (run : Run) (result : SyncWaitResult) : AutoSync :=
  let state := { state with retryAttempt := 0 }
  endRun (
    if state.stopped || !state.active || !state.online then state
    else if state.rerun then state.scheduleRerun
    else if run.kind = .watch && waitReturnedTooQuickly result options.longPollMs then
      state.schedule .sync options.pollIntervalMs
    else if 0 < options.longPollMs then state.schedule .watch 0
    else state.schedule .sync options.pollIntervalMs) run.id

def rejected (run : Run) (isAbort : Bool) : AutoSync :=
  if state.stopped || !state.active || !state.online then state.endRun run.id
  else if isAbort then
    endRun (if state.rerun then state.scheduleRerun else state.schedule .watch 0) run.id
  else { state with
    retryAttempt := state.retryAttempt + 1
    status := .backoff
    runs := state.runs.map fun other => if other.id = run.id then { other with backingOff := true } else other }

def backedOff (options : AutoSyncOptions) (run : Run) (random : ℚ) : AutoSync :=
  endRun (state.schedule .sync (retryDelay state.retryAttempt options random)) run.id

end AutoSync

inductive AutoSyncEvent where
  | fire
  | resolve (id : Nat) (result : SyncWaitResult)
  | reject (id : Nat) (isAbort : Bool)
  | publish (id : Nat) (random : ℚ)
  | wake (reason : AutoSyncWakeReason)
  | setActive (active : Bool)
  | setOnline (online : Bool)
  | stop

section Steps
variable (options : AutoSyncOptions)

def AutoSync.runOf (state : AutoSync) (id : Nat) (backingOff : Bool) : Option Run :=
  state.runs.find? fun run => run.id = id ∧ run.backingOff = backingOff

def autoSyncStep (state : AutoSync) : AutoSyncEvent → AutoSync
  | .fire =>
    match state.timer with
    | none => state
    | some (kind, _) => AutoSync.beginRun { state with timer := none } kind
  | .resolve id result => (state.runOf id false).elim state fun run => state.resolved options run result
  | .reject id isAbort => (state.runOf id false).elim state fun run => state.rejected run isAbort
  | .publish id random => (state.runOf id true).elim state fun run => state.backedOff options run random
  | .wake reason => state.wake options reason
  | .setActive active => state.setActive active
  | .setOnline online => state.setOnline online
  | .stop => state.stop

def startAutoSync : AutoSync := AutoSync.start { active := options.active, online := options.online } options

def startedBy (state : AutoSync) : AutoSyncEvent → List RunKind
  | .fire => state.timer.elim [] fun timer =>
    if state.stopped || !state.active || !state.online || state.running then [] else [timer.1]
  | _ => []

end Steps

namespace AutoSync
variable {state : AutoSync} {options : AutoSyncOptions} {kind : RunKind} {run : Run}

section Frames

theorem unavailable_iff : (state.stopped || !state.active || !state.online) = true ↔ ¬state.available = true := by
  unfold available
  cases state.stopped <;> cases state.active <;> cases state.online <;> decide

@[simp] theorem length_abortRequest : state.abortRequest.runs.length = state.runs.length := by
  simp [abortRequest]

theorem schedule_eq (delayMs : ℚ) : state.schedule kind delayMs =
    { state with timer := if state.available then some (kind, delayMs) else state.timer } := by
  unfold schedule
  by_cases h : state.available = true
  · rw [if_neg fun hnot => unavailable_iff.mp hnot h, if_pos h]
  · rw [if_pos (unavailable_iff.mpr h), if_neg h]

end Frames

/-- At most one run is in progress, the flag says whether one is, and an available controller has something to come. -/
structure Sound (state : AutoSync) : Prop where
  single : state.runs.length ≤ 1
  running : state.running = true ↔ state.runs.length = 1
  alive : state.available = true → state.running = true ∨ state.timer.isSome = true

theorem timer_schedule (h : state.available = true) (delayMs : ℚ) :
    (state.schedule kind delayMs).timer = some (kind, delayMs) := by
  rw [schedule_eq]
  exact if_pos h

theorem available_schedule (delayMs : ℚ) : (state.schedule kind delayMs).available = state.available := by
  rw [schedule_eq]
  rfl

theorem runs_schedule (delayMs : ℚ) : (state.schedule kind delayMs).runs = state.runs := by
  rw [schedule_eq]

theorem sound_endRun (hruns : state.runs = [run]) (htimer : state.available = true → state.timer.isSome = true) :
    (state.endRun run.id).Sound := by
  have hempty : (state.endRun run.id).runs = [] := by
    unfold endRun
    simp [hruns]
  refine ⟨by rw [hempty]; exact Nat.zero_le 1, ?_, fun havailable => .inr (htimer havailable)⟩
  rw [hempty]
  exact iff_of_false Bool.false_ne_true (by decide)

theorem Sound.runs_eq (h : state.Sound) {id : Nat} {backingOff : Bool} (hrun : state.runOf id backingOff = some run) :
    state.runs = [run] := by
  have hmem := List.mem_of_find?_eq_some hrun
  obtain ⟨other, hother⟩ := List.length_eq_one_iff.mp (Nat.le_antisymm h.single (List.length_pos_of_mem hmem))
  rw [hother] at hmem ⊢
  rw [List.mem_singleton.mp hmem]

theorem sound_endRun_schedule (hruns : state.runs = [run]) (delayMs : ℚ) :
    ((state.schedule kind delayMs).endRun run.id).Sound := by
  refine sound_endRun ((runs_schedule delayMs).trans hruns) fun havailable => ?_
  rw [timer_schedule ((available_schedule delayMs).symm.trans havailable)]
  rfl

theorem sound_endRun_scheduleRerun (hruns : state.runs = [run]) : (state.scheduleRerun.endRun run.id).Sound :=
  @sound_endRun_schedule { state with rerunDelayMs := 0 } .sync run hruns state.rerunDelayMs

theorem Sound.beginRun (hsingle : state.runs.length ≤ 1) (hrunning : state.running = true ↔ state.runs.length = 1) :
    (state.beginRun kind).Sound := by
  unfold AutoSync.beginRun
  split
  next hrefused =>
    refine ⟨hsingle, hrunning, fun havailable => .inl ?_⟩
    obtain hnot | hbusy := Bool.or_eq_true_iff.mp hrefused
    · exact absurd havailable (unavailable_iff.mp hnot)
    · exact hbusy
  next hfree =>
    have hnone : state.runs = [] := by
      have hidle : ¬state.running = true := fun hbusy => hfree (by rw [hbusy, Bool.or_true])
      rw [hrunning] at hidle
      exact List.eq_nil_of_length_eq_zero (by omega)
    rw [hnone]
    exact ⟨Nat.le_refl 1, iff_of_true rfl rfl, fun _ => .inl rfl⟩

theorem sound_resolved (hruns : state.runs = [run]) (result : SyncWaitResult) :
    (state.resolved options run result).Sound := by
  have hruns' : ({ state with retryAttempt := 0 } : AutoSync).runs = [run] := hruns
  unfold AutoSync.resolved
  dsimp only
  split
  next hunavailable =>
    exact sound_endRun hruns' fun havailable => absurd havailable (unavailable_iff.mp hunavailable)
  · split
    · exact sound_endRun_scheduleRerun hruns'
    · split
      · exact sound_endRun_schedule hruns' _
      · split
        · exact sound_endRun_schedule hruns' _
        · exact sound_endRun_schedule hruns' _

theorem Sound.rejected (h : state.Sound) (hruns : state.runs = [run]) (isAbort : Bool) :
    (state.rejected run isAbort).Sound := by
  unfold AutoSync.rejected
  split
  next hunavailable =>
    exact sound_endRun hruns fun havailable => absurd havailable (unavailable_iff.mp hunavailable)
  · split
    · split
      · exact sound_endRun_scheduleRerun hruns
      · exact sound_endRun_schedule hruns _
    · refine ⟨?_, ?_, fun _ => .inl (h.running.mpr (by rw [hruns]; rfl))⟩
      · rw [List.length_map]
        exact h.single
      · rw [List.length_map]
        exact h.running

/-- A controller that is free gets something to do; one that is not keeps its run. -/
theorem sound_orSchedule (hsingle : state.runs.length ≤ 1) (hrunning : state.running = true ↔ state.runs.length = 1)
    (delayMs : ℚ) : (if state.running then state else state.schedule kind delayMs).Sound := by
  split
  next hbusy => exact ⟨hsingle, hrunning, fun _ => .inl hbusy⟩
  · rw [schedule_eq]
    refine ⟨hsingle, hrunning, fun havailable => .inr ?_⟩
    replace havailable : state.available = true := havailable
    simp only [havailable, if_true, Option.isSome_some]

theorem sound_orScheduleRerun (hsingle : state.runs.length ≤ 1)
    (hrunning : state.running = true ↔ state.runs.length = 1) :
    (if state.running then state else state.scheduleRerun).Sound := by
  by_cases hbusy : state.running = true
  · rw [if_pos hbusy]
    exact ⟨hsingle, hrunning, fun _ => .inl hbusy⟩
  · have hscheduled := @sound_orSchedule { state with rerunDelayMs := 0 } .sync hsingle hrunning state.rerunDelayMs
    rw [if_neg hbusy]
    dsimp only at hscheduled
    rwa [if_neg hbusy] at hscheduled

theorem paused_unavailable (h : (!state.active || !state.online) = true) : ¬state.available = true := by
  rw [← unavailable_iff, Bool.or_assoc, h, Bool.or_true]

theorem Sound.reconcileAvailability (hsingle : state.runs.length ≤ 1)
    (hrunning : state.running = true ↔ state.runs.length = 1) : state.reconcileAvailability.Sound := by
  unfold AutoSync.reconcileAvailability
  split
  next hpaused =>
    refine ⟨length_abortRequest.trans_le hsingle, hrunning.trans ?_, fun havailable => ?_⟩
    · exact (Eq.congr_left length_abortRequest).symm
    · exact absurd havailable (paused_unavailable hpaused)
  · dsimp only
    refine sound_orSchedule ?_ ?_ 0
    · rw [length_abortRequest]
      exact hsingle
    · rw [length_abortRequest]
      exact hrunning

theorem Sound.wake (h : state.Sound) (reason : AutoSyncWakeReason) : (state.wake options reason).Sound := by
  unfold AutoSync.wake
  split
  · exact h
  · split
    next hpaused =>
      exact ⟨h.single, h.running, fun havailable => absurd havailable (paused_unavailable hpaused)⟩
    · dsimp only
      refine sound_orScheduleRerun ?_ ?_
      · rw [length_abortRequest]
        exact h.single
      · rw [length_abortRequest]
        exact h.running

theorem Sound.stop (h : state.Sound) : state.stop.Sound := by
  unfold AutoSync.stop
  split
  · exact h
  · refine ⟨length_abortRequest.trans_le h.single, h.running.trans (Eq.congr_left length_abortRequest).symm, ?_⟩
    intro havailable
    cases havailable

theorem Sound.step (h : state.Sound) (event : AutoSyncEvent) : (autoSyncStep options state event).Sound := by
  cases event with
  | fire =>
    unfold autoSyncStep
    dsimp only
    split
    · exact h
    · exact Sound.beginRun h.single h.running
  | resolve id result =>
    unfold autoSyncStep
    dsimp only
    cases hrun : state.runOf id false with
    | none => exact h
    | some run => exact sound_resolved (h.runs_eq hrun) result
  | reject id isAbort =>
    unfold autoSyncStep
    dsimp only
    cases hrun : state.runOf id false with
    | none => exact h
    | some run => exact h.rejected (h.runs_eq hrun) isAbort
  | publish id random =>
    unfold autoSyncStep
    dsimp only
    cases hrun : state.runOf id true with
    | none => exact h
    | some run => exact sound_endRun_schedule (h.runs_eq hrun) _
  | wake reason => exact h.wake reason
  | setActive active =>
    change (state.setActive active).Sound
    unfold AutoSync.setActive
    split
    · exact h
    · exact Sound.reconcileAvailability h.single h.running
  | setOnline online =>
    change (state.setOnline online).Sound
    unfold AutoSync.setOnline
    split
    · exact h
    · exact Sound.reconcileAvailability h.single h.running
  | stop => exact h.stop

theorem sound_start (options : AutoSyncOptions) : (startAutoSync options).Sound := by
  have hidle : (false = true) ↔ (([] : List Run).length = 1) := by decide
  unfold startAutoSync AutoSync.start
  split
  next hstopped => cases hstopped
  · split
    next hpaused => exact ⟨Nat.zero_le 1, hidle, fun havailable => absurd havailable (paused_unavailable hpaused)⟩
    · exact @sound_orSchedule { active := options.active, online := options.online } _ (Nat.zero_le 1) hidle 0

/-- A full sync is still to come: the run in progress is to be followed by it, or its timer is armed. -/
structure Woken (state : AutoSync) : Prop where
  available : state.available = true
  rerun : state.running = true → state.rerun = true
  armed : ¬state.running = true → ∃ delayMs, state.timer = some (.sync, delayMs)

theorem Woken.active (h : state.Woken) : state.active = true := by
  have havailable := h.available
  simp only [AutoSync.available, Bool.and_eq_true] at havailable
  exact havailable.1.2

theorem Woken.online (h : state.Woken) : state.online = true := by
  have havailable := h.available
  simp only [AutoSync.available, Bool.and_eq_true] at havailable
  exact havailable.2

theorem reconcile_paused (h : (!state.active || !state.online) = true) :
    ¬state.reconcileAvailability.available = true := by
  unfold AutoSync.reconcileAvailability
  rw [if_pos h]
  exact paused_unavailable h

theorem woken_endRun_schedule (h : state.available = true) (delayMs : ℚ) (id : Nat) :
    ((state.schedule .sync delayMs).endRun id).Woken where
  available := (available_schedule delayMs).trans h
  rerun hbusy := absurd hbusy Bool.false_ne_true
  armed _ := ⟨delayMs, timer_schedule h delayMs⟩

theorem Woken.not_unavailable (h : state.Woken) : ¬(state.stopped || !state.active || !state.online) = true :=
  fun hunavailable => unavailable_iff.mp hunavailable h.available

theorem Woken.resolved (h : state.Woken) (hbusy : state.running = true) (result : SyncWaitResult) :
    (state.resolved options run result).Woken := by
  unfold AutoSync.resolved
  dsimp only
  rw [if_neg h.not_unavailable, if_pos (h.rerun hbusy)]
  exact @woken_endRun_schedule { state with retryAttempt := 0, rerunDelayMs := 0 } h.available state.rerunDelayMs run.id

theorem Woken.rejected (h : state.Woken) (hbusy : state.running = true) (isAbort : Bool) :
    (state.rejected run isAbort).Woken := by
  unfold AutoSync.rejected
  rw [if_neg h.not_unavailable]
  split
  · rw [if_pos (h.rerun hbusy)]
    exact @woken_endRun_schedule { state with rerunDelayMs := 0 } h.available state.rerunDelayMs run.id
  · exact ⟨h.available, h.rerun, h.armed⟩

theorem woken_orScheduleRerun (havailable : state.available = true) (hrerun : state.rerun = true) :
    (if state.running then state else state.scheduleRerun).Woken := by
  by_cases hbusy : state.running = true
  · rw [if_pos hbusy]
    exact ⟨havailable, fun _ => hrerun, fun hfree => absurd hbusy hfree⟩
  · rw [if_neg hbusy]
    refine ⟨(available_schedule _).trans havailable, fun hrunning => ?_, fun _ => ⟨_, timer_schedule ?_ _⟩⟩
    · unfold scheduleRerun at hrunning
      rw [schedule_eq] at hrunning
      exact absurd hrunning hbusy
    · exact havailable

/-- A wake-up that is not filtered out. -/
theorem woken_wake {reason : AutoSyncWakeReason} (havailable : state.available = true)
    (hreason : (reason = .mutation && !options.syncOnMutation) = false) : (state.wake options reason).Woken := by
  have hopen : ¬(state.stopped || !state.active || !state.online) = true := fun h => unavailable_iff.mp h havailable
  rw [Bool.or_assoc] at hopen
  obtain ⟨hstopped, hactive⟩ := not_or.mp (Bool.or_eq_true_iff.not.mp hopen)
  unfold AutoSync.wake
  rw [hreason, Bool.or_false, if_neg hstopped, if_neg hactive]
  exact woken_orScheduleRerun havailable rfl

theorem Woken.step (h : state.Woken) (hsound : state.Sound) (event : AutoSyncEvent)
    (hnext : (autoSyncStep options state event).available = true) :
    startedBy state event = [.sync] ∨ startedBy state event = [] ∧ (autoSyncStep options state event).Woken := by
  cases event with
  | fire =>
    by_cases hbusy : state.running = true
    · refine .inr ?_
      have hrefused : (state.stopped || !state.active || !state.online || state.running) = true := by
        rw [hbusy, Bool.or_true]
      unfold startedBy autoSyncStep AutoSync.beginRun
      cases htimer : state.timer with
      | none => exact ⟨rfl, h⟩
      | some timer =>
        dsimp only [Option.elim]
        rw [if_pos hrefused, if_pos hrefused]
        exact ⟨rfl, h.available, h.rerun, fun hfree => absurd hbusy hfree⟩
    · obtain ⟨delayMs, htimer⟩ := h.armed hbusy
      have hopen : ¬(state.stopped || !state.active || !state.online || state.running) = true := by
        rw [Bool.or_eq_true_iff, not_or]
        exact ⟨h.not_unavailable, hbusy⟩
      refine .inl ?_
      unfold startedBy
      rw [htimer]
      exact if_neg hopen
  | resolve id result =>
    refine .inr ⟨rfl, ?_⟩
    unfold autoSyncStep
    dsimp only
    cases hrun : state.runOf id false with
    | none => exact h
    | some run => exact h.resolved (hsound.running.mpr (by rw [hsound.runs_eq hrun]; rfl)) result
  | reject id isAbort =>
    refine .inr ⟨rfl, ?_⟩
    unfold autoSyncStep
    dsimp only
    cases hrun : state.runOf id false with
    | none => exact h
    | some run => exact h.rejected (hsound.running.mpr (by rw [hsound.runs_eq hrun]; rfl)) isAbort
  | publish id random =>
    refine .inr ⟨rfl, ?_⟩
    unfold autoSyncStep
    dsimp only
    cases hrun : state.runOf id true with
    | none => exact h
    | some run => exact woken_endRun_schedule h.available _ run.id
  | wake reason =>
    refine .inr ⟨rfl, ?_⟩
    cases hreason : (reason = .mutation && !options.syncOnMutation) with
    | true =>
      change (state.wake options reason).Woken
      unfold AutoSync.wake
      rw [hreason, Bool.or_true, if_pos rfl]
      exact h
    | false => exact woken_wake h.available hreason
  | setActive active =>
    refine .inr ⟨rfl, ?_⟩
    change (state.setActive active).available = true at hnext
    change (state.setActive active).Woken
    unfold AutoSync.setActive at hnext ⊢
    split
    · exact h
    next hother =>
      rw [if_neg hother] at hnext
      refine absurd hnext (reconcile_paused ?_)
      simp only [Bool.or_eq_true, decide_eq_true_eq, not_or, h.active] at hother
      simp [Ne.symm hother.2]
  | setOnline online =>
    refine .inr ⟨rfl, ?_⟩
    change (state.setOnline online).available = true at hnext
    change (state.setOnline online).Woken
    unfold AutoSync.setOnline at hnext ⊢
    split
    · exact h
    next hother =>
      rw [if_neg hother] at hnext
      refine absurd hnext (reconcile_paused ?_)
      simp only [Bool.or_eq_true, decide_eq_true_eq, not_or, h.online] at hother
      simp [Ne.symm hother.2]
  | stop =>
    change state.stop.available = true at hnext
    have hstopped : ¬state.stopped = true := fun hstopped => h.not_unavailable (by rw [hstopped]; rfl)
    unfold AutoSync.stop at hnext
    rw [if_neg hstopped] at hnext
    cases hnext

/-- A wake-up is not lost: as long as the controller stays available, the next run that starts is a full sync. -/
theorem Woken.not_lost (h : state.Woken) (hsound : state.Sound) (later : List AutoSyncEvent)
    (havailable : ∀ before, before <+: later → (Machine.run (autoSyncStep options) state before).available = true) :
    (Machine.trace (autoSyncStep options) startedBy state later = [] →
        (Machine.run (autoSyncStep options) state later).Woken) ∧
      ∀ kind rest, Machine.trace (autoSyncStep options) startedBy state later = kind :: rest → kind = .sync := by
  induction later generalizing state with
  | nil =>
    refine ⟨fun _ => h, fun kind rest hnone => ?_⟩
    cases hnone
  | cons event later ih =>
    have hnext := havailable [event] (List.prefix_append [event] later)
    have hrest : ∀ before, before <+: later →
        (Machine.run (autoSyncStep options) (autoSyncStep options state event) before).available = true :=
      fun before hbefore => havailable (event :: before) (List.cons_prefix_cons.mpr ⟨rfl, hbefore⟩)
    obtain hstarted | ⟨hquiet, hwoken⟩ := h.step hsound event hnext
    · unfold Machine.trace
      rw [hstarted]
      refine ⟨fun hnone => ?_, fun kind rest hfirst => ?_⟩
      · cases hnone
      · exact (List.cons_eq_cons.mp hfirst).1.symm
    · unfold Machine.trace Machine.run
      rw [hquiet, List.nil_append]
      exact ih hwoken (hsound.step event) hrest

end AutoSync

section Claim
variable (options : AutoSyncOptions)

/-- After any events: one run at most is in progress; an available controller has a run in progress or a timer armed;
and after a wake-up that is not filtered out, as long as it stays available, it is to sync and does so before it watches
again. -/
theorem autoSync_never_stalls (events : List AutoSyncEvent) :
    let state := Machine.run (autoSyncStep options) (startAutoSync options) events
    state.runs.length ≤ 1 ∧ (state.available = true → state.runs ≠ [] ∨ state.timer.isSome = true) ∧
      ∀ reason later, (reason = .mutation && !options.syncOnMutation) = false → state.available = true →
        (∀ before, before <+: later →
          (Machine.run (autoSyncStep options) (state.wake options reason) before).available = true) →
        (Machine.trace (autoSyncStep options) startedBy (state.wake options reason) later = [] →
            (Machine.run (autoSyncStep options) (state.wake options reason) later).Woken) ∧
          ∀ kind rest, Machine.trace (autoSyncStep options) startedBy (state.wake options reason) later = kind :: rest →
            kind = .sync := by
  intro state
  have hsound : state.Sound :=
    Machine.run_preserves (P := AutoSync.Sound) (fun _ event h => h.step event) _ events (AutoSync.sound_start options)
  refine ⟨hsound.single, fun havailable => (hsound.alive havailable).imp_left ?_, ?_⟩
  · intro hbusy hnone
    have hone := hsound.running.mp hbusy
    rw [hnone] at hone
    cases hone
  · intro reason later hreason havailable hstays
    exact (AutoSync.woken_wake havailable hreason).not_lost (hsound.wake reason) later hstays

end Claim

end Ffdb.Client
