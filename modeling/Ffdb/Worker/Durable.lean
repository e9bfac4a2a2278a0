import Ffdb.Worker.Transitions

/-! What is on disk after any interleaving of run loops and store failures: one line of
checkpoints a project, each the previous one after one more operation. -/
namespace Ffdb.Sync
open Fallible
variable (crates : StoreCrates)

/-- The last checkpoint is the first one after these operations, each performed by an
engine the checkpoint before it is read as. -/
inductive Derives : SyncCheckpoint → List Op → SyncCheckpoint → Prop where
  | refl (checkpoint : SyncCheckpoint) : Derives checkpoint [] checkpoint
  | step {checkpoint next last : SyncCheckpoint} {engine : SyncEngine} {op : Op} {ops : List Op} :
    Reads crates checkpoint engine → Reads crates next (engine.step crates.toCrates op) →
    Derives next ops last → Derives checkpoint (op :: ops) last

/-- An open engine is not ahead of the disk, and at the disk's revision it is what the
disk holds. -/
def Tracks (store : DirectorySyncStore) (projectId : String) (opened : OpenEngine) : Prop :=
  ∃ stored, store.durable crates projectId = some stored ∧ opened.revision ≤ stored.revision ∧
    (opened.revision = stored.revision → Reads crates stored.checkpoint opened.engine)

def Worker.Prepared (worker : Worker) : Pending → Prop
  | .create _ engine checkpoint => engine.checkpoint crates.toCrates = .ok checkpoint
  | .commit projectId original engine checkpoint _ =>
    engine.checkpoint crates.toCrates = .ok checkpoint ∧
      worker.settled[projectId]? = some original ∧
      ∃ op, engine = original.engine.step crates.toCrates op

structure Sound (store : DirectorySyncStore) (worker : Worker) : Prop where
  tracks : ∀ (projectId : String) opened, worker.settled[projectId]? = some opened →
    Tracks crates store projectId opened
  prepared : ∀ pending, worker.pending = some pending → worker.Prepared crates pending

def Descends (projectId : String) (store store' : DirectorySyncStore) : Prop :=
  ∀ stored, store.durable crates projectId = some stored →
    ∃ ops checkpoint,
      store'.durable crates projectId = some ⟨stored.revision+ops.length, checkpoint⟩ ∧
      Derives crates stored.checkpoint ops checkpoint

variable {crates}

theorem Derives.trans {first next last : SyncCheckpoint} {ops more : List Op}
    (h : Derives crates first ops next) (h' : Derives crates next more last) :
    Derives crates first (ops ++ more) last := by
  induction h with
  | refl checkpoint => exact h'
  | step hread hnext _ ih => exact .step hread hnext (ih h')

theorem Descends.of_durable {projectId : String} {store store' : DirectorySyncStore}
    (h : store'.durable crates projectId = store.durable crates projectId) :
    Descends crates projectId store store' := by
  intro stored hstored
  exact ⟨[], stored.checkpoint, by simpa [hstored] using h, .refl _⟩

theorem Descends.trans {projectId : String} {store store' store'' : DirectorySyncStore}
    (h : Descends crates projectId store store') (h' : Descends crates projectId store' store'') :
    Descends crates projectId store store'' := by
  intro stored hstored
  obtain ⟨ops, checkpoint, hnext, hderives⟩ := h stored hstored
  obtain ⟨more, last, hlast, hmore⟩ := h' _ hnext
  refine ⟨ops ++ more, last, ?_, hderives.trans hmore⟩
  rw [hlast, List.length_append, Nat.add_assoc]

theorem Tracks.of_durable {store store' : DirectorySyncStore} {projectId : String}
    {opened : OpenEngine} (h : Tracks crates store projectId opened)
    (hdurable : store'.durable crates projectId = store.durable crates projectId) :
    Tracks crates store' projectId opened := by
  obtain ⟨stored, hstored, hopened⟩ := h
  exact ⟨stored, hdurable.trans hstored, hopened⟩

/-- The disk moves past every engine that was open before a swap. -/
theorem Tracks.swapped {store store' : DirectorySyncStore} {projectId projectId' : String}
    {revision : Nat} {checkpoint : SyncCheckpoint} {opened : OpenEngine}
    (h : Tracks crates store projectId' opened)
    (hswap : Swapped crates projectId revision checkpoint store store') :
    Tracks crates store' projectId' opened := by
  by_cases hsame : SameFile crates projectId projectId'
  · obtain ⟨stored, hstored, hle, _⟩ := h
    have hrevision : stored.revision = revision := by
      have hbefore := hswap.before
      rw [durable_congr hsame, hstored] at hbefore
      exact hbefore
    refine ⟨_, hswap.after projectId' hsame, ?_, ?_⟩
    · simp only
      omega
    · intro he
      simp only at he
      omega
  · exact h.of_durable (hswap.others projectId' hsame)

/-- What a worker waits for has been written by the crates. -/
theorem Worker.Prepared.checkpoint {worker : Worker} {pending : Pending}
    (h : worker.Prepared crates pending) :
    pending.engine.checkpoint crates.toCrates = .ok pending.checkpoint := by
  cases pending with
  | create projectId engine checkpoint => exact h
  | commit projectId original engine checkpoint answer => exact h.1

theorem settled_of_idle {worker : Worker} (h : worker.pending = none) :
    worker.settled = worker.engines := by
  simp [Worker.settled, h]

/-- A worker that waits falls back to the engines it had. -/
theorem settled_of_commit {worker worker' : Worker} {projectId : String}
    {original changed : OpenEngine} {engine : SyncEngine} {checkpoint : SyncCheckpoint}
    {answer : Answer} (hopen : worker.engines[projectId]? = some original)
    (hengines : worker'.engines = worker.engines.insert projectId changed)
    (hpending : worker'.pending = some (.commit projectId original engine checkpoint answer)) :
    worker'.settled = worker.engines := by
  simp only [Worker.settled, hpending, hengines]
  refine Std.ExtTreeMap.ext_getElem? fun key => ?_
  simp only [Std.ExtTreeMap.getElem?_insert, compare_eq_iff_eq]
  split
  · next hk => rw [← hk, hopen]
  · rfl

theorem durable_revision_ne_zero {store : DirectorySyncStore} {projectId : String}
    {stored : StoredSyncCheckpoint} (h : store.durable crates projectId = some stored) :
    stored.revision ≠ 0 := by
  unfold DirectorySyncStore.durable at h
  split at h
  · cases h
  · split at h
    · next bytes _ =>
      cases hread : readFile crates bytes with
      | error error => simp [hread, Except.toOption] at h
      | ok stored' =>
        simp only [hread, Except.toOption, Option.some.injEq] at h
        subst h
        simp only [readFile, bind_ok_iff, require_ok_iff, pure_ok_iff] at hread
        obtain ⟨envelope, _, _, haccepted, _, _, _, _, rfl⟩ := hread
        simp only [Bool.not_eq_true', Bool.or_eq_false_iff, decide_eq_false_iff_not] at haccepted
        exact haccepted.2
    · cases h

/-- A swap for a waiting worker extends the durable checkpoint by the worker's operation. -/
theorem Swapped.extends {store store' : DirectorySyncStore} {worker : Worker} {pending : Pending}
    (hround : EnvelopeRoundTrip crates.toCrates) (hsound : Sound crates store worker)
    (hpending : worker.pending = some pending)
    (hswap : Swapped crates pending.projectId pending.revision pending.checkpoint store store') :
    ∀ stored, store.durable crates pending.projectId = some stored →
      ∃ op original, worker.settled[pending.projectId]? = some original ∧
        pending.engine = original.engine.step crates.toCrates op ∧
        pending.revision = stored.revision ∧ Reads crates stored.checkpoint original.engine ∧
        Reads crates pending.checkpoint pending.engine := by
  intro stored hstored
  have hprepared := hsound.prepared pending hpending
  have hbefore := hswap.before
  simp only [hstored, Option.map_some, Option.getD_some] at hbefore
  cases pending with
  | create projectId engine checkpoint =>
    exact absurd hbefore (durable_revision_ne_zero hstored)
  | commit projectId original engine checkpoint answer =>
    obtain ⟨hcheckpoint, hsettled, op, hop⟩ := hprepared
    obtain ⟨stored', hstored', _, hreads⟩ := hsound.tracks projectId original hsettled
    have hsame : stored' = stored := Option.some.inj (hstored'.symm.trans hstored)
    subst hsame
    exact ⟨op, original, hsettled, hop, hbefore.symm, hreads hbefore.symm,
      (reads_of_checkpoint hround hcheckpoint).1⟩

theorem Swapped.descends {store store' : DirectorySyncStore} {worker : Worker} {pending : Pending}
    (hround : EnvelopeRoundTrip crates.toCrates) (hsound : Sound crates store worker)
    (hpending : worker.pending = some pending)
    (hswap : Swapped crates pending.projectId pending.revision pending.checkpoint store store')
    (projectId : String) : Descends crates projectId store store' := by
  by_cases hsame : SameFile crates pending.projectId projectId
  · intro stored hstored
    have hstored' : store.durable crates pending.projectId = some stored :=
      (durable_congr hsame).trans hstored
    obtain ⟨op, original, _, hop, hrevision, hreads, hnext⟩ :=
      hswap.extends hround hsound hpending stored hstored'
    rw [hop] at hnext
    refine ⟨[op], pending.checkpoint, ?_, .step hreads hnext (.refl _)⟩
    rw [hswap.after projectId hsame, hrevision]
    rfl
  · exact .of_durable (hswap.others projectId hsame)

theorem Sound.of_tracks {store store' : DirectorySyncStore} {worker : Worker}
    (h : Sound crates store worker)
    (htracks : ∀ projectId opened, Tracks crates store projectId opened →
      Tracks crates store' projectId opened) : Sound crates store' worker :=
  ⟨fun projectId opened hopen => htracks projectId opened (h.tracks projectId opened hopen),
    h.prepared⟩

theorem Sound.fallBack {store : DirectorySyncStore} {worker : Worker}
    (h : Sound crates store worker) :
    Sound crates store { worker with engines := worker.settled, pending := none } :=
  ⟨h.tracks, fun _ hpending => nomatch hpending⟩

theorem Received.sound {store : DirectorySyncStore} {worker worker' : Worker} {command : Command}
    {answer : Option (Except WorkerError Answer)}
    (h : Received crates store worker command worker' answer) (hidle : worker.pending = none)
    (hsound : Sound crates store worker) : Sound crates store worker' := by
  have hsettled := settled_of_idle hidle
  cases h with
  | refused error => exact hsound
  | served answer hread => exact hsound
  | stopped hread => exact ⟨hsound.tracks, hsound.prepared⟩
  | @opened projectId engine stored hread hdurable hengine =>
    refine ⟨?_, fun pending hpending => by simp [hidle] at hpending⟩
    intro projectId' opened' hopen
    simp only [Worker.settled, hidle, Std.ExtTreeMap.getElem?_insert, compare_eq_iff_eq] at hopen
    split at hopen
    · next hk =>
      subst hk
      cases hopen
      exact ⟨stored, hdurable, le_rfl, fun _ => hengine⟩
    · exact hsound.tracks projectId' opened' (by rw [hsettled]; exact hopen)
  | @created projectId engine checkpoint hread hcheckpoint =>
    refine ⟨fun projectId' opened hopen => ?_, fun pending hpending => ?_⟩
    · exact hsound.tracks projectId' opened (by rw [hsettled]; exact hopen)
    · cases hpending
      exact hcheckpoint
  | @prepared projectId op original checkpoint answer hop hopen hcheckpoint =>
    refine ⟨fun projectId' opened hopen' => ?_, fun pending hpending => ?_⟩
    · rw [settled_of_commit hopen rfl rfl] at hopen'
      exact hsound.tracks projectId' opened (by rw [hsettled]; exact hopen')
    · cases hpending
      exact ⟨hcheckpoint, by rw [settled_of_commit hopen rfl rfl]; exact hopen, op, rfl⟩

theorem Sound.done {store store' : DirectorySyncStore} {worker : Worker} {pending : Pending}
    (hround : EnvelopeRoundTrip crates.toCrates) (hsound : Sound crates store worker)
    (hpending : worker.pending = some pending)
    (hswap : Swapped crates pending.projectId pending.revision pending.checkpoint store store') :
    Sound crates store' { worker with
      engines := worker.engines.insert pending.projectId ⟨pending.engine, pending.revision+1⟩
      pending := none } := by
  have hreads := (reads_of_checkpoint hround (hsound.prepared pending hpending).checkpoint).1
  refine ⟨fun projectId opened hopen => ?_, fun _ hpending => nomatch hpending⟩
  simp only [Worker.settled, Std.ExtTreeMap.getElem?_insert, compare_eq_iff_eq] at hopen
  split at hopen
  · next hk =>
    subst hk
    cases hopen
    exact ⟨_, hswap.after _ rfl, le_rfl, fun _ => hreads⟩
  · next hk =>
    -- another project of this worker: it was open before the swap
    have hbefore : worker.settled[projectId]? = some opened := by
      cases pending with
      | create projectId' engine checkpoint => simpa [Worker.settled, hpending] using hopen
      | commit projectId' original engine checkpoint answer =>
        simp only [Pending.projectId] at hk
        simpa [Worker.settled, hpending, Std.ExtTreeMap.getElem?_insert, hk] using hopen
    exact (hsound.tracks projectId opened hbefore).swapped hswap

section World
variable {ι : Type} [DecidableEq ι] {world : World ι}

def World.Sound (crates : StoreCrates) (world : World ι) : Prop :=
  ∀ i, Sync.Sound crates world.store (world.workers i)

omit [DecidableEq ι] in
theorem World.Sound.finished (hround : EnvelopeRoundTrip crates.toCrates)
    (hfiles : FilesRoundTrip crates) (hsound : world.Sound crates) (i : ι) (fault : Fault)
    {pending : Pending} (hpending : (world.workers i).pending = some pending) :
    Finished crates world.store (world.workers i) pending fault
      ((world.workers i).finish crates world.store fault).1
      ((world.workers i).finish crates world.store fault).2.1
      ((world.workers i).finish crates world.store fault).2.2 :=
  finish_finished hfiles world.store fault hpending
    (reads_of_checkpoint hround ((hsound i).prepared pending hpending).checkpoint).2

theorem World.Sound.step (hround : EnvelopeRoundTrip crates.toCrates)
    (hfiles : FilesRoundTrip crates) (hcursors : CursorsIssued crates.toCrates)
    (hsound : world.Sound crates) (act : Act ι) :
    (world.step crates act).Sound crates ∧
    ∀ projectId, Descends crates projectId world.store (world.step crates act).store := by
  cases act with
  | deliver i command fault =>
    refine ⟨fun j => ?_, fun projectId => .of_durable rfl⟩
    by_cases hj : j = i
    · subst hj
      simp only [World.step, Function.update_self, World.deliver]
      split
      · exact hsound j
      · split
        · exact hsound j
        · next hidle =>
          exact (receive_received hcursors world.store (world.workers j) fault command).sound
            (by simpa using hidle) (hsound j)
    · simpa only [World.step, Function.update_of_ne hj] using hsound j
  | store i fault =>
    cases hpending : (world.workers i).pending with
    | none =>
      have hsame : world.step crates (.store i fault) = world := by
        simp [World.step, Worker.finish, hpending]
      rw [hsame]
      exact ⟨hsound, fun projectId => .of_durable rfl⟩
    | some pending =>
      have hfinished := hsound.finished hround hfiles i fault hpending
      simp only [World.step]
      generalize (world.workers i).finish crates world.store fault = out at hfinished ⊢
      obtain ⟨worker', store', answer⟩ := out
      dsimp only at hfinished ⊢
      have hothers : ∀ {worker'' : Worker},
          (∀ projectId opened, Tracks crates world.store projectId opened →
            Tracks crates store' projectId opened) →
          Sync.Sound crates store' worker'' →
          World.Sound crates ⟨Function.update world.workers i worker'', store'⟩ := by
        intro worker'' htracks hworker j
        by_cases hj : j = i
        · subst hj
          simpa only [Function.update_self] using hworker
        · simpa only [Function.update_of_ne hj] using (hsound j).of_tracks htracks
      cases hfinished with
      | failed error hkept =>
        have htracks : ∀ projectId opened, Tracks crates world.store projectId opened →
            Tracks crates store' projectId opened :=
          fun projectId opened h => h.of_durable (hkept projectId)
        exact ⟨hothers htracks ((hsound i).of_tracks htracks).fallBack,
          fun projectId => .of_durable (hkept projectId)⟩
      | late hlate hswap =>
        have htracks : ∀ projectId opened, Tracks crates world.store projectId opened →
            Tracks crates store' projectId opened :=
          fun projectId opened h => h.swapped hswap
        exact ⟨hothers htracks ((hsound i).of_tracks htracks).fallBack,
          hswap.descends hround (hsound i) hpending⟩
      | done hswap =>
        exact ⟨hothers (fun projectId opened h => h.swapped hswap)
          ((hsound i).done hround hpending hswap), hswap.descends hround (hsound i) hpending⟩

omit [DecidableEq ι] in
theorem World.Fresh.sound (h : world.Fresh) : world.Sound crates := by
  intro i
  obtain ⟨config, authorizer, hspawn⟩ := h i
  simp only [Worker.spawn, bind_ok_iff, pure_ok_iff] at hspawn
  obtain ⟨_, _, hworker⟩ := hspawn
  rw [← hworker]
  refine ⟨fun projectId opened hopen => ?_, fun _ hpending => by cases hpending⟩
  simp [Worker.settled] at hopen

theorem World.Sound.run (hround : EnvelopeRoundTrip crates.toCrates)
    (hfiles : FilesRoundTrip crates) (hcursors : CursorsIssued crates.toCrates)
    (hsound : world.Sound crates) (acts : List (Act ι)) :
    (world.run crates acts).Sound crates ∧
    ∀ projectId, Descends crates projectId world.store (world.run crates acts).store := by
  induction acts generalizing world with
  | nil => exact ⟨hsound, fun projectId => .of_durable rfl⟩
  | cons act acts ih =>
    obtain ⟨hnext, hstep⟩ := hsound.step hround hfiles hcursors act
    obtain ⟨hlast, hrun⟩ := ih hnext
    exact ⟨hlast, fun projectId => (hstep projectId).trans (hrun projectId)⟩

def DirectorySyncStore.revision (crates : StoreCrates) (store : DirectorySyncStore)
    (projectId : String) : Nat :=
  ((store.durable crates projectId).map StoredSyncCheckpoint.revision).getD 0

/-- A durable checkpoint only moves by one revision, in a step that answers with success
or that reports a failure after the rename. -/
theorem World.Sound.moves (hround : EnvelopeRoundTrip crates.toCrates)
    (hfiles : FilesRoundTrip crates) (hsound : world.Sound crates) {act : Act ι}
    {projectId : String} (hmoves : (world.step crates act).store.durable crates projectId ≠
      world.store.durable crates projectId) :
    (world.step crates act).store.revision crates projectId =
      world.store.revision crates projectId+1 ∧
    ∃ i fault, act = .store i fault ∧
      ((∃ answer, world.answer crates act = some (.ok answer)) ∨
        world.answer crates act = some (.error (.store .unavailable)) ∧ fault.late = true) := by
  cases act with
  | deliver i command fault => exact absurd rfl hmoves
  | store i fault =>
    cases hpending : (world.workers i).pending with
    | none => exact absurd (by simp [World.step, Worker.finish, hpending]) hmoves
    | some pending =>
      have hfinished := hsound.finished hround hfiles i fault hpending
      simp only [World.step, World.answer] at hmoves ⊢
      generalize (world.workers i).finish crates world.store fault = out at hfinished hmoves ⊢
      obtain ⟨worker', store', answer⟩ := out
      dsimp only at hfinished hmoves ⊢
      have hnext : ∀ {revision checkpoint},
          Swapped crates pending.projectId revision checkpoint world.store store' →
          store'.revision crates projectId = world.store.revision crates projectId+1 := by
        intro revision checkpoint hswap
        by_cases hsame : SameFile crates pending.projectId projectId
        · have hbefore := hswap.before
          rw [durable_congr hsame] at hbefore
          simp only [DirectorySyncStore.revision, hswap.after projectId hsame, hbefore,
            Option.map_some, Option.getD_some]
        · exact absurd (hswap.others projectId hsame) hmoves
      cases hfinished with
      | failed error hkept => exact absurd (hkept projectId) hmoves
      | late hlate hswap => exact ⟨hnext hswap, i, fault, rfl, .inr ⟨rfl, hlate⟩⟩
      | done hswap => exact ⟨hnext hswap, i, fault, rfl, .inl ⟨_, rfl⟩⟩

end World

end Ffdb.Sync
