import Ffdb.Sync.Wire
import Ffdb.Worker.Durable

/-! The life of a command from its delivery to its answer, and what the answer says about
the disk. -/
namespace Ffdb.Sync
variable {crates : StoreCrates}

section World
variable {ι : Type} [DecidableEq ι] {world : World ι}

/-- A worker that waits for the store is left alone by every other step. -/
theorem run_workers_of_waiting {i : ι} (hwaits : (world.workers i).pending.isSome = true)
    {acts : List (Act ι)} (hacts : ∀ fault, .store i fault ∉ acts) :
    (world.run crates acts).workers i = world.workers i := by
  induction acts generalizing world with
  | nil => rfl
  | cons act acts ih =>
    have hstep : (world.step crates act).workers i = world.workers i := by
      cases act with
      | deliver j command fault =>
        by_cases hj : i = j
        · subst hj
          simp only [World.step, Function.update_self, World.deliver]
          split <;> rfl
        · simp only [World.step, Function.update_of_ne hj]
      | store j fault =>
        have hj : i ≠ j := fun he => hacts fault (by simp [he])
        simp only [World.step, Function.update_of_ne hj]
    have hwaits' : ((world.step crates act).workers i).pending.isSome = true := by
      rw [hstep]
      exact hwaits
    exact (ih hwaits' fun fault hmem => hacts fault (List.mem_cons_of_mem act hmem)).trans hstep

/-- The steps in which worker `i` serves a command: it answers at once, or after its
store step, between which the other workers go on. -/
inductive Serves (crates : StoreCrates) (world : World ι) (i : ι) (command : Command) :
    List (Act ι) → Except WorkerError Answer → Prop where
  | atOnce {fault : Fault} {result : Except WorkerError Answer}
    (hanswer : world.answer crates (.deliver i command fault) = some result) :
    Serves crates world i command [.deliver i command fault] result
  | stored {fault fault' : Fault} {during : List (Act ι)} {result : Except WorkerError Answer}
    (hidle : (world.workers i).pending = none)
    (hwaits : world.answer crates (.deliver i command fault) = none)
    (hduring : ∀ fault, .store i fault ∉ during)
    (hanswer : (world.run crates (.deliver i command fault :: during)).answer crates
      (.store i fault') = some result) :
    Serves crates world i command (.deliver i command fault :: during ++ [.store i fault']) result

/-- The durable checkpoint is one revision on, and is the previous one after the
operation. -/
def OnDisk (crates : StoreCrates) (projectId : String) (op : Op)
    (store store' : DirectorySyncStore) : Prop :=
  ∃ stored checkpoint, store.durable crates projectId = some stored ∧
    store'.durable crates projectId = some ⟨stored.revision+1, checkpoint⟩ ∧
    Derives crates stored.checkpoint [op] checkpoint

/-- A command that waits has a swap pending, for its own operation if it writes, and the
worker falls back to where it was. -/
theorem waiting_of_deliver (hcursors : CursorsIssued crates.toCrates) {i : ι} {command : Command}
    {fault : Fault} (hidle : (world.workers i).pending = none)
    (hwaits : world.answer crates (.deliver i command fault) = none) :
    ∃ pending, ((world.step crates (.deliver i command fault)).workers i).pending = some pending ∧
      { (world.step crates (.deliver i command fault)).workers i with
        engines := ((world.step crates (.deliver i command fault)).workers i).settled
        pending := none } = world.workers i ∧
      ∀ projectId op, command.op (world.workers i).authorizer = some (projectId, op) →
        ∃ original answer checkpoint, (world.workers i).engines[projectId]? = some original ∧
          pending = .commit projectId original (original.engine.step crates.toCrates op)
            checkpoint answer := by
  have hidle' : (world.workers i).pending.isSome = false := by simp [hidle]
  simp only [World.answer, World.deliver, hidle'] at hwaits
  split at hwaits
  · cases hwaits
  · next hstopped =>
    have hworker : (world.step crates (.deliver i command fault)).workers i =
        ((world.workers i).receive crates world.store fault command).1 := by
      simp [World.step, World.deliver, hidle', hstopped]
    rw [hworker]
    have hreceived := receive_received hcursors world.store (world.workers i) fault command
    generalize (world.workers i).receive crates world.store fault command = out
      at hreceived hwaits ⊢
    obtain ⟨worker', answer⟩ := out
    dsimp only at hreceived hwaits ⊢
    subst hwaits
    cases hreceived with
    | created hread hcheckpoint =>
      refine ⟨_, rfl, ?_, fun projectId op hop => by simp [hread] at hop⟩
      simp only [Worker.settled, ← hidle]
    | @prepared projectId op original checkpoint answer hop hopen hcheckpoint =>
      refine ⟨_, rfl, ?_, fun projectId' op' hop' => ?_⟩
      · rw [settled_of_commit hopen rfl rfl]
        simp only [← hidle]
      · rw [hop] at hop'
        cases hop'
        exact ⟨original, answer, checkpoint, hopen, rfl⟩

theorem answer_of_refused (hcursors : CursorsIssued crates.toCrates) {i : ι} {command : Command}
    {fault : Fault} {result : Except WorkerError Answer}
    (hanswer : world.answer crates (.deliver i command fault) = some result) :
    (∀ error, result = .error error →
      (world.step crates (.deliver i command fault)).workers i = world.workers i) ∧
    ∀ answer, result = .ok answer → command.op (world.workers i).authorizer = none := by
  simp only [World.answer, World.step, Function.update_self, World.deliver] at hanswer ⊢
  split at hanswer
  · next hstopped =>
    cases hanswer
    simp [hstopped]
  · next hstopped =>
    split at hanswer
    · cases hanswer
    · next hidle =>
      simp only [hstopped, hidle, if_false, Bool.false_eq_true]
      have hreceived := receive_received hcursors world.store (world.workers i) fault command
      generalize (world.workers i).receive crates world.store fault command = out
        at hreceived hanswer ⊢
      obtain ⟨worker', answer⟩ := out
      dsimp only at hreceived hanswer ⊢
      subst hanswer
      cases hreceived with
      | refused error => exact ⟨fun _ _ => rfl, fun answer h => by cases h⟩
      | served answer hread => exact ⟨fun error h => (by cases h), fun _ _ => hread⟩
      | stopped hread => exact ⟨fun error h => (by cases h), fun _ _ => hread⟩
      | opened hread hdurable hengine => exact ⟨fun error h => (by cases h), fun _ _ => hread⟩

/-- The store step of a served command: success puts the operation on disk, an error puts
the worker back, and the disk as well unless it came after the rename. -/
theorem store_step_spec (hround : EnvelopeRoundTrip crates.toCrates)
    (hfiles : FilesRoundTrip crates) (hsound : world.Sound crates) {i : ι} {fault : Fault}
    {pending : Pending} {result : Except WorkerError Answer}
    (hpending : (world.workers i).pending = some pending)
    (hanswer : world.answer crates (.store i fault) = some result) :
    ((∃ answer, result = .ok answer) ∧
      Swapped crates pending.projectId pending.revision pending.checkpoint world.store
        (world.step crates (.store i fault)).store) ∨
    ∃ error, result = .error (.store error) ∧
      (world.step crates (.store i fault)).workers i =
        { world.workers i with engines := (world.workers i).settled, pending := none } ∧
      ((∀ projectId, (world.step crates (.store i fault)).store.durable crates projectId =
          world.store.durable crates projectId) ∨
        error = .unavailable ∧ fault.late = true ∧
        Swapped crates pending.projectId pending.revision pending.checkpoint world.store
          (world.step crates (.store i fault)).store) := by
  have hfinished := hsound.finished hround hfiles i fault hpending
  simp only [World.step, World.answer, Function.update_self] at hanswer ⊢
  generalize (world.workers i).finish crates world.store fault = out at hfinished hanswer ⊢
  obtain ⟨worker', store', answer⟩ := out
  dsimp only at hfinished hanswer ⊢
  subst hanswer
  cases hfinished with
  | failed error hkept => exact .inr ⟨error, rfl, rfl, .inl hkept⟩
  | late hlate hswap => exact .inr ⟨_, rfl, rfl, .inr ⟨rfl, hlate, hswap⟩⟩
  | done hswap => exact .inl ⟨⟨_, rfl⟩, hswap⟩

/-- A swap for a command that writes puts its operation on disk. -/
theorem onDisk_of_swapped (hround : EnvelopeRoundTrip crates.toCrates)
    {store store' : DirectorySyncStore} {worker : Worker} {projectId : String} {op : Op}
    {original : OpenEngine} {checkpoint : SyncCheckpoint} {answer : Answer}
    (hsound : Sound crates store worker)
    (hpending : worker.pending = some (.commit projectId original
      (original.engine.step crates.toCrates op) checkpoint answer))
    (hswap : Swapped crates projectId original.revision checkpoint store store') :
    OnDisk crates projectId op store store' := by
  obtain ⟨hcheckpoint, hsettled, _⟩ := hsound.prepared _ hpending
  obtain ⟨stored, hstored, _, hreads⟩ := hsound.tracks projectId original hsettled
  have hrevision : stored.revision = original.revision := by
    have hbefore := hswap.before
    simpa [hstored] using hbefore
  refine ⟨stored, checkpoint, hstored, ?_,
    .step (hreads hrevision.symm) (reads_of_checkpoint hround hcheckpoint).1 (.refl _)⟩
  rw [hswap.after projectId rfl, hrevision]

/-- A command that waited for the store, at its answer. -/
theorem served_by_store (hround : EnvelopeRoundTrip crates.toCrates)
    (hfiles : FilesRoundTrip crates) (hcursors : CursorsIssued crates.toCrates)
    (hsound : world.Sound crates) {i : ι} {command : Command} {fault fault' : Fault}
    {during : List (Act ι)} {result : Except WorkerError Answer}
    (hidle : (world.workers i).pending = none)
    (hwaits : world.answer crates (.deliver i command fault) = none)
    (hduring : ∀ fault, .store i fault ∉ during)
    (hanswer : (world.run crates (.deliver i command fault :: during)).answer crates
      (.store i fault') = some result) :
    let prior := world.run crates (.deliver i command fault :: during)
    let answered := prior.step crates (.store i fault')
    let onDisk := ∀ projectId op,
      command.op (world.workers i).authorizer = some (projectId, op) →
        OnDisk crates projectId op prior.store answered.store
    ((∃ answer, result = .ok answer) ∧ onDisk) ∨
    ∃ error, result = .error (.store error) ∧ answered.workers i = world.workers i ∧
      ((∀ projectId, answered.store.durable crates projectId =
          prior.store.durable crates projectId) ∨
        error = .unavailable ∧ fault'.late = true ∧ onDisk) := by
  intro prior answered onDisk
  obtain ⟨pending, hpending, hback, hcommand⟩ := waiting_of_deliver hcursors hidle hwaits
  have hworker : prior.workers i = (world.step crates (.deliver i command fault)).workers i :=
    run_workers_of_waiting (by simp [hpending]) hduring
  have hprior : prior.Sound crates := (hsound.run hround hfiles hcursors _).1
  rw [← hworker] at hpending hback
  have hwritten : Swapped crates pending.projectId pending.revision pending.checkpoint prior.store
      answered.store → onDisk := by
    intro hswap projectId op hop
    obtain ⟨original, answer, checkpoint, _, rfl⟩ := hcommand projectId op hop
    exact onDisk_of_swapped hround (hprior i) hpending hswap
  obtain ⟨hok, hswap⟩ | ⟨error, hresult, hfallen, hdisk⟩ :=
    store_step_spec hround hfiles hprior hpending hanswer
  · exact .inl ⟨hok, hwritten hswap⟩
  · refine .inr ⟨error, hresult, hfallen.trans hback, ?_⟩
    obtain hkept | ⟨herror, hlate, hswap⟩ := hdisk
    · exact .inl hkept
    · exact .inr ⟨herror, hlate, hwritten hswap⟩

/-- An acknowledged push, invalidation or compaction is in the durable checkpoint and in
every later one. A command answered with an error leaves its worker as it was, and the
durable checkpoints as well, except when the store failed after its rename: then the
command is on disk. No other step moves a durable checkpoint. -/
theorem acknowledged_commands_are_durable (crates : StoreCrates) (start : World ι)
    (before acts after : List (Act ι)) (i : ι) (command : Command)
    (result : Except WorkerError Answer) (hround : EnvelopeRoundTrip crates.toCrates)
    (hfiles : FilesRoundTrip crates) (hcursors : CursorsIssued crates.toCrates)
    (hfresh : start.Fresh) (hserves : Serves crates (start.run crates before) i command acts result) :
    let world := start.run crates before
    let prior := world.run crates acts.dropLast
    let answered := world.run crates acts
    let last := answered.run crates after
    (∀ answer projectId op, result = .ok answer →
      command.op (world.workers i).authorizer = some (projectId, op) →
        OnDisk crates projectId op prior.store answered.store ∧
        Descends crates projectId answered.store last.store) ∧
    (∀ error, result = .error error →
      answered.workers i = world.workers i ∧
      ((∀ projectId, answered.store.durable crates projectId =
          prior.store.durable crates projectId) ∨
        error = .store .unavailable ∧
        (∃ fault, acts.getLast? = some (.store i fault) ∧ fault.late = true) ∧
        ∀ projectId op, command.op (world.workers i).authorizer = some (projectId, op) →
          OnDisk crates projectId op prior.store answered.store)) ∧
    ∀ run act projectId, let reached := start.run crates run
      (reached.step crates act).store.durable crates projectId ≠
        reached.store.durable crates projectId →
      (reached.step crates act).store.revision crates projectId =
        reached.store.revision crates projectId+1 ∧
      ∃ j fault, act = .store j fault ∧
        ((∃ answer, reached.answer crates act = some (.ok answer)) ∨
          reached.answer crates act = some (.error (.store .unavailable)) ∧
          fault.late = true) := by
  intro world prior answered last
  have hworld : world.Sound crates := (hfresh.sound.run hround hfiles hcursors before).1
  obtain ⟨hanswered, _⟩ := hworld.run hround hfiles hcursors acts
  obtain ⟨_, hdescends⟩ := hanswered.run hround hfiles hcursors after
  refine ⟨?_, ?_, fun run act projectId hmoves =>
    (hfresh.sound.run hround hfiles hcursors run).1.moves hround hfiles hmoves⟩
  · intro answer projectId op hresult hop
    refine ⟨?_, hdescends projectId⟩
    cases hserves with
    | atOnce hanswer =>
      have hread := (answer_of_refused hcursors hanswer).2 answer hresult
      rw [hop] at hread
      cases hread
    | @stored fault fault' during _ hidle hwaits hduring hanswer =>
      have hprior : prior = world.run crates (.deliver i command fault :: during) := by
        simp only [prior, List.dropLast_concat]
      have hlast : answered = prior.step crates (.store i fault') := by
        rw [hprior]
        exact Machine.run_append world _ _
      obtain ⟨_, honDisk⟩ | ⟨error, herror, _⟩ :=
        served_by_store hround hfiles hcursors hworld hidle hwaits hduring hanswer
      · rw [hlast, hprior]
        exact honDisk projectId op hop
      · rw [herror] at hresult
        cases hresult
  · intro error hresult
    cases hserves with
    | atOnce hanswer =>
      exact ⟨(answer_of_refused hcursors hanswer).1 error hresult, .inl fun projectId => rfl⟩
    | @stored fault fault' during _ hidle hwaits hduring hanswer =>
      have hprior : prior = world.run crates (.deliver i command fault :: during) := by
        simp only [prior, List.dropLast_concat]
      have hlast : answered = prior.step crates (.store i fault') := by
        rw [hprior]
        exact Machine.run_append world _ _
      obtain ⟨⟨answer, hok⟩, _⟩ | ⟨error', herror, hworker, hdisk⟩ :=
        served_by_store hround hfiles hcursors hworld hidle hwaits hduring hanswer
      · rw [hok] at hresult
        cases hresult
      · rw [herror] at hresult
        cases hresult
        rw [hlast, hprior]
        refine ⟨hworker, ?_⟩
        obtain hkept | ⟨rfl, hlate, honDisk⟩ := hdisk
        · exact .inl hkept
        · exact .inr ⟨rfl, ⟨fault', List.getLast?_concat, hlate⟩, honDisk⟩

/-- A directory that cannot be synced changes the answer and nothing on disk. -/
theorem directory_fault_answers {i : ι} {answer : Answer}
    (h : world.answer crates (.store i .none) = some (.ok answer)) :
    world.answer crates (.store i .directory) = some (.error (.store .unavailable)) ∧
    (world.step crates (.store i .directory)).store =
      (world.step crates (.store i .none)).store := by
  simp only [World.answer, World.step, Worker.finish] at h ⊢
  cases hpending : (world.workers i).pending with
  | none => simp [hpending] at h
  | some pending =>
    cases pending with
    | create projectId engine checkpoint =>
      simp only [hpending] at h ⊢
      cases hswap : world.store.compareAndSwap crates projectId 0 checkpoint .none with
      | mk result store' =>
        cases result with
        | error error => simp [hswap] at h
        | ok revision => simp [compareAndSwap_directory hswap]
    | commit projectId original engine checkpoint answer' =>
      simp only [hpending] at h ⊢
      cases hswap : world.store.compareAndSwap crates projectId original.revision checkpoint .none with
      | mk result store' =>
        cases result with
        | error error => simp [hswap] at h
        | ok revision => simp [compareAndSwap_directory hswap]

theorem moved_by_directory_fault (hround : EnvelopeRoundTrip crates.toCrates)
    (hfiles : FilesRoundTrip crates) (hsound : world.Sound crates) {i : ι} {answer : Answer}
    {pending : Pending} (hpending : (world.workers i).pending = some pending)
    (h : world.answer crates (.store i .none) = some (.ok answer)) :
    (world.step crates (.store i .directory)).store.durable crates pending.projectId ≠
      world.store.durable crates pending.projectId := by
  obtain ⟨_, hswap⟩ | ⟨error, herror, _⟩ := store_step_spec hround hfiles hsound hpending h
  · rw [(directory_fault_answers h).2]
    intro hkept
    have hbefore := hswap.before
    rw [← hkept, hswap.after _ rfl] at hbefore
    simp at hbefore
  · cases herror

theorem run_deliver_store (i : ι) (command : Command) (fault : Fault) :
    (world.run crates [.deliver i command fault]).store = world.store := rfl

theorem run_pair (first second : Act ι) :
    world.run crates [first, second] = (world.run crates [first]).step crates second := rfl

end World

section Runs

def renderFile (envelope : FileEnvelope) : Option String :=
  some (renderStruct
    [("format_version", toString envelope.formatVersion),
     ("revision", toString envelope.revision),
     ("checkpoint_base64", "\"" ++ String.ofList envelope.checkpointBase64 ++ "\"")])

def knownEnvelopes : List CheckpointEnvelope :=
  [sampleEngine.envelope, (sampleEngine.announced .policyChanged 1 5).envelope]

def fileOf (revision : Nat) (envelope : CheckpointEnvelope) : FileEnvelope :=
  ⟨1, revision, Base64.encodeStandard (((renderEnvelope envelope).map utf8).getD [])⟩

def knownFiles : List FileEnvelope :=
  [fileOf 1 sampleEngine.envelope, fileOf 2 (sampleEngine.announced .policyChanged 1 5).envelope]

def workerCrates : StoreCrates where
  toCrates := { Crates.listing [] knownEnvelopes with
    claimsToVec := fun claims => some (utf8 (renderClaims claims)) }
  fileToVec := writeListed renderFile knownFiles
  fileFromSlice := readListed renderFile knownFiles

def freshWorld : World Unit :=
  ⟨fun _ => ⟨allowAll, 4, ∅, none, false⟩, ⟨fun _ => none, 0⟩⟩

def createP : List (Act Unit) :=
  [.deliver () (.createProject "p" 1 sampleSecret sampleConfig) .none, .store () .none]

def announceP : Command := .invalidate "p" .policyChanged none 5

def openedWorld : World Unit := freshWorld.run workerCrates createP

theorem announceP_waits :
    (openedWorld.workers ()).pending.isNone = true ∧
    openedWorld.answer workerCrates (.deliver () announceP .none) = none := by
  decide +kernel

theorem announceP_answered :
    (openedWorld.run workerCrates [.deliver () announceP .none]).answer workerCrates
      (.store () .none) = some (.ok (.invalidated 1)) := by
  decide +kernel

theorem freshWorld_fresh : freshWorld.Fresh := fun _ => ⟨⟨1, 4⟩, allowAll, rfl⟩

theorem workerCrates_roundTrip : EnvelopeRoundTrip workerCrates.toCrates ∧
    FilesRoundTrip workerCrates ∧ CursorsIssued workerCrates.toCrates :=
  ⟨readListed_writeListed renderEnvelope (by decide +kernel),
    readListed_writeListed renderFile (by decide +kernel),
    fun _ => ⟨_, rfl⟩, fun _ _ => ⟨_, rfl⟩⟩

theorem announceP_served :
    Serves workerCrates openedWorld () announceP [.deliver () announceP .none, .store () .none]
      (.ok (.invalidated 1)) ∧
    Serves workerCrates openedWorld () announceP
      [.deliver () announceP .none, .store () .directory] (.error (.store .unavailable)) := by
  obtain ⟨hidle, hwaits⟩ := announceP_waits
  have hidle' := Option.isNone_iff_eq_none.mp hidle
  have hduring : ∀ fault, Act.store () fault ∉ ([] : List (Act Unit)) := by simp
  exact ⟨.stored hidle' hwaits hduring announceP_answered,
    .stored hidle' hwaits hduring (directory_fault_answers announceP_answered).1⟩

/-- An announcement that is answered with an error has moved the durable checkpoint. -/
theorem late_failure_moves_checkpoint :
    freshWorld.Fresh ∧ EnvelopeRoundTrip workerCrates.toCrates ∧ FilesRoundTrip workerCrates ∧
    CursorsIssued workerCrates.toCrates ∧
    Serves workerCrates (freshWorld.run workerCrates createP) () announceP
      [.deliver () announceP .none, .store () .directory] (.error (.store .unavailable)) ∧
    ((freshWorld.run workerCrates createP).run workerCrates
      [.deliver () announceP .none, .store () .directory]).store.durable workerCrates "p" ≠
      (freshWorld.run workerCrates createP).store.durable workerCrates "p" := by
  obtain ⟨hround, hfiles, hcursors⟩ := workerCrates_roundTrip
  refine ⟨freshWorld_fresh, hround, hfiles, hcursors, announceP_served.2, ?_⟩
  have hsound := (freshWorld_fresh.sound.run hround hfiles hcursors createP).1.run hround hfiles
    hcursors [.deliver () announceP .none]
  obtain ⟨pending, hpending, _, hcommand⟩ := waiting_of_deliver hcursors
    (Option.isNone_iff_eq_none.mp announceP_waits.1) announceP_waits.2
  have hmoved := moved_by_directory_fault hround hfiles hsound.1 hpending announceP_answered
  obtain ⟨original, answer, checkpoint, _, rfl⟩ := hcommand "p" _ rfl
  simp only [Pending.projectId] at hmoved
  rw [run_deliver_store] at hmoved
  rw [run_pair]
  exact hmoved

/-- The announcement without a failure is on disk. -/
theorem acknowledged_announcement_is_durable :
    OnDisk workerCrates "p" (.invalidate .policyChanged none 5)
      (openedWorld.run workerCrates [.deliver () announceP .none]).store
      (openedWorld.run workerCrates [.deliver () announceP .none, .store () .none]).store := by
  obtain ⟨hround, hfiles, hcursors⟩ := workerCrates_roundTrip
  have h := acknowledged_commands_are_durable workerCrates freshWorld createP
    [.deliver () announceP .none, .store () .none] [] () announceP (.ok (.invalidated 1)) hround
    hfiles hcursors freshWorld_fresh announceP_served.1
  exact (h.1 (.invalidated 1) "p" _ rfl rfl).1

end Runs

end Ffdb.Sync