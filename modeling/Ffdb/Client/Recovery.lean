import Ffdb.Client.Sync
import Mathlib.Data.List.Perm.Subperm

/-! Whether a replica gets over a change of the schema. -/
namespace Ffdb.Client
open Turns Sync

structure SyncDatabase.Lawful {σ : Type} (database : SyncDatabase σ) (js : Js) : Prop where
  schemaVersion : ∀ s mutation, database.schemaVersion (database.applySyncMutation s mutation).1 = database.schemaVersion s
  claims : ∀ s sequence, database.cursorClaims s (database.issueSyncCursor s sequence) =
    some (database.schemaVersion s, sequence)
  complete : ∀ s after limit, ∀ change ∈ (database.visibleChanges s after limit).1, change.Complete
  advances : ∀ s after limit, 1 ≤ limit → (database.visibleChanges s after limit).2.2 = true →
    after < (database.visibleChanges s after limit).2.1 ∧
      (database.visibleChanges s after limit).2.1 ≤ database.latestSequence s
  decodes : ∀ s, (database.executeSnapshot s).Decodes js

/-- A mutation is off the queue, and the server has taken it in or the replica holds it as rejected. -/
def Session.Settled {σ : Type} (session : Session σ) (id : String) : Prop :=
  session.replica.pending[id]? = none ∧
    ((∃ result ∈ session.results, result.mutationId = id ∧ result.status ≠ .rejected) ∨
      session.replica.rejected[id]?.isSome)

section Progress
variable {σ : Type} (database : SyncDatabase σ)

structure Progress (before after : Session σ) : Prop where
  schemaVersion : database.schemaVersion after.server = database.schemaVersion before.server
  keyed : after.replica.Keyed
  pending : ∀ id : String, after.replica.pending[id]? = before.replica.pending[id]? ∨ after.Settled id
  results : ∀ result ∈ before.results, result ∈ after.results
  rejected : ∀ id : String, before.replica.rejected[id]?.isSome → after.replica.rejected[id]?.isSome

variable {database} {first second third : Session σ}

theorem Session.Settled.progress {id : String} (h : first.Settled id) (hprogress : Progress database first second) :
    second.Settled id := by
  obtain hsame | hsettled := hprogress.pending id
  · refine ⟨hsame.trans h.1, ?_⟩
    obtain ⟨result, hmem, hresult⟩ | hrejected := h.2
    · exact .inl ⟨result, hprogress.results result hmem, hresult⟩
    · exact .inr (hprogress.rejected id hrejected)
  · exact hsettled

theorem Progress.refl (h : first.replica.Keyed) : Progress database first first :=
  ⟨rfl, h, fun _ => .inl rfl, fun _ hmem => hmem, fun _ hsome => hsome⟩

theorem Progress.trans (h : Progress database first second) (h' : Progress database second third) :
    Progress database first third where
  schemaVersion := h'.schemaVersion.trans h.schemaVersion
  keyed := h'.keyed
  pending id := by
    obtain hsame | hsettled := h'.pending id
    · obtain hsame' | hsettled' := h.pending id
      · exact .inl (hsame.trans hsame')
      · exact .inr (hsettled'.progress h')
    · exact .inr hsettled
  results result hmem := h'.results result (h.results result hmem)
  rejected id hsome := h'.rejected id (h.rejected id hsome)

theorem Progress.of_queue {replica : MemoryReplica} (h : first.replica.Keyed)
    (hpending : replica.pending = first.replica.pending) (hrejected : replica.rejected = first.replica.rejected) :
    Progress database first { first with replica } where
  schemaVersion := rfl
  keyed := ⟨fun hget => h.key (hpending ▸ hget), fun hget => h.valid (hpending ▸ hget),
    fun hget => h.complete (hpending ▸ hget)⟩
  pending id := .inl (by rw [hpending])
  results _ hmem := hmem
  rejected id hsome := by
    change (replica.rejected[id]?).isSome
    rwa [hrejected]

end Progress

section Phases
variable {σ : Type} {js : Js} {database : SyncDatabase σ} {options : OfflineSyncOptions} {clock : MemoryReplica → Int}
  (hlawful : database.Lawful js) {session : Session σ}

omit hlawful in
theorem transaction_ok {ρ : Type} {work : Transaction ρ} {replica : MemoryReplica} {result : ρ}
    (h : work.run (MemoryReplica.perform js) session.replica = (replica, .ok result)) :
    transaction js work session = (.ok result, { session with replica }) := by
  unfold transaction Work.transact
  rw [h]

include hlawful

theorem resnapshot_ok (h : session.replica.Keyed) : ∃ position session',
    resnapshot js database session = (.ok position, session') ∧
      position.schemaVersion = database.schemaVersion session.server ∧ session'.replica.cursor = some position ∧
      session'.server = session.server ∧ Progress database session session' := by
  have hcomplete : ∀ mutation ∈ session.replica.shown js, mutation.toSyncMutation.Complete := fun mutation hmem =>
    h.complete ((mem_queue js h).mp (List.mem_of_mem_take hmem))
  have hrun := transaction_ok (applySnapshot_run session.replica (hlawful.decodes session.server) hcomplete)
  have heq : resnapshot js database session = (.ok ⟨(database.executeSnapshot session.server).cursor,
      database.schemaVersion session.server⟩, { session with replica := { session.replica with
        rows := (session.replica.shown js).foldl (showMutation js) ((database.executeSnapshot session.server).rows js)
        cursor := some ⟨(database.executeSnapshot session.server).cursor, database.schemaVersion session.server⟩ } }) := by
    unfold resnapshot
    rw [Act.bind_ok (Act.read_apply _ _), Act.bind_ok hrun]
    rfl
  exact ⟨_, _, heq, rfl, rfl, rfl, Progress.of_queue h rfl rfl⟩

/-- Pulling ends, and leaves a cursor of the schema that the server has. -/
theorem pullFrom_ok (options : OfflineSyncOptions) {position : Position} (h : session.replica.Keyed)
    (hposition : database.verifySyncCursor position.cursor session.server = none ∨
      position.schemaVersion = database.schemaVersion session.server) :
    ∃ rounds end' session', pullFrom js database options rounds position session = (.ok end', session') ∧
      (∃ cursor, session'.replica.cursor = some ⟨cursor, database.schemaVersion session.server⟩) ∧
      Progress database session session' := by
  generalize hleft : (database.verifySyncCursor position.cursor session.server).elim 0
    (fun after => database.latestSequence session.server + 1 - after) = left
  induction left using Nat.strong_induction_on generalizing position session with
  | _ left ih =>
  cases hverify : database.verifySyncCursor position.cursor session.server with
  | none =>
    obtain ⟨end', session', hresnapshot, hversion, hcursor, -, hprogress⟩ := resnapshot_ok hlawful h
    refine ⟨1, end', session', ?_, ⟨end'.cursor, ?_⟩, hprogress⟩
    · unfold pullFrom
      rw [Act.bind_ok (Act.read_apply _ _)]
      unfold SyncDatabase.executeSyncPull
      rw [hverify]
      exact hresnapshot
    · rw [hcursor, ← hversion]
  | some after =>
    have hversion := hposition.resolve_left (by rw [hverify]; exact Option.some_ne_none after)
    have hpull : database.executeSyncPull position.cursor options.pullBatchSize session.server = {
        changes := (database.visibleChanges session.server after options.pullBatchSize).1
        cursor := database.issueSyncCursor session.server
          (database.visibleChanges session.server after options.pullBatchSize).2.1
        hasMore := (database.visibleChanges session.server after options.pullBatchSize).2.2
        control := none } := by
      unfold SyncDatabase.executeSyncPull
      rw [hverify]
    have hcomplete := hlawful.complete session.server after options.pullBatchSize
    have hadvances := hlawful.advances session.server after options.pullBatchSize options.pull_bounds.1
    generalize database.visibleChanges session.server after options.pullBatchSize = page at hpull hcomplete hadvances
    obtain ⟨changes, examined, hasMore⟩ := page
    have hissued : database.verifySyncCursor (database.issueSyncCursor session.server examined) session.server =
        some examined := by
      unfold SyncDatabase.verifySyncCursor
      rw [hlawful.claims]
      exact if_pos rfl
    have hpage := transaction_ok (applyPage_run js session.replica
      ⟨database.issueSyncCursor session.server examined, position.schemaVersion⟩ hcomplete)
    have hstep : ∀ rounds, pullFrom js database options (rounds+1) position session =
        (if hasMore then pullFrom js database options rounds
          ⟨database.issueSyncCursor session.server examined, position.schemaVersion⟩
          else pure ⟨database.issueSyncCursor session.server examined, position.schemaVersion⟩)
        { session with replica := { session.replica with
          rows := changes.foldl (receiveChange js) session.replica.rows
          cursor := some ⟨database.issueSyncCursor session.server examined, position.schemaVersion⟩ } } := by
      intro rounds
      rw [pullFrom, Act.bind_ok (Act.read_apply _ _), hpull]
      exact Act.bind_ok hpage
    have hprogress : Progress database session { session with replica := { session.replica with
        rows := changes.foldl (receiveChange js) session.replica.rows
        cursor := some ⟨database.issueSyncCursor session.server examined, position.schemaVersion⟩ } } :=
      Progress.of_queue h rfl rfl
    cases hasMore with
    | false => exact ⟨1, _, _, hstep 0, ⟨_, by rw [hversion]⟩, hprogress⟩
    | true =>
      obtain ⟨hlater, hlatest⟩ := hadvances rfl
      rw [hverify] at hleft
      have hless : database.latestSequence session.server + 1 - examined < left := by
        simp only [Option.elim_some] at hlater hlatest hleft
        omega
      obtain ⟨rounds, end', session', hrest, hcursor, hprogress'⟩ := @ih _ hless _
        ⟨database.issueSyncCursor session.server examined, position.schemaVersion⟩ hprogress.keyed (.inr hversion)
        (by rw [hissued, Option.elim_some])
      exact ⟨rounds+1, end', session', (hstep rounds).trans hrest, hcursor, hprogress.trans hprogress'⟩

theorem applyIndividually_spec (mutations : List SyncMutation) (s : σ) :
    (database.applyIndividually mutations s).2.map (·.mutationId) = mutations.map (·.mutationId) ∧
      database.schemaVersion (database.applyIndividually mutations s).1 = database.schemaVersion s := by
  induction mutations generalizing s with
  | nil => exact ⟨rfl, rfl⟩
  | cons mutation mutations ih =>
    obtain ⟨hids, hversion⟩ := ih (database.applySyncMutation s mutation).1
    refine ⟨?_, hversion.trans (hlawful.schemaVersion s mutation)⟩
    rw [SyncDatabase.applyIndividually, List.map_cons, List.map_cons, hids]
    cases (database.applySyncMutation s mutation).2 <;> rfl

theorem push_ok (session : Session σ) {batch : List PendingMutation} (hne : batch ≠ []) (hlength : batch.length ≤ 100) :
    ∃ server results, push database ⟨database.schemaVersion session.server, batch.map (·.toSyncMutation)⟩ session =
        (.ok results, { session with server, results := session.results ++ results }) ∧
      results.map (·.mutationId) = batch.map (·.mutationId) ∧
      database.schemaVersion server = database.schemaVersion session.server := by
  obtain ⟨hids, hversion⟩ := applyIndividually_spec hlawful (batch.map (·.toSyncMutation)) session.server
  refine ⟨_, _, ?_, hids.trans (List.map_map ..), hversion⟩
  have hbounds : ¬(batch.map (·.toSyncMutation) = [] ∨ 100 < (batch.map (·.toSyncMutation)).length) := by
    rw [List.map_eq_nil_iff, List.length_map, not_or]
    exact ⟨hne, Nat.not_lt.mpr hlength⟩
  unfold push SyncDatabase.executeSyncPush
  dsimp only
  rw [if_neg hbounds, if_neg (not_not.mpr rfl)]

omit hlawful in
theorem batch_progress (database : SyncDatabase σ) {batch : List PendingMutation}
    {results : List SyncMutationResult} {server : σ} {nowMs : Int}
    {replica : MemoryReplica} (h : session.replica.Keyed)
    (hversion : database.schemaVersion server = database.schemaVersion session.server)
    (hbatch : ∀ mutation ∈ batch, session.replica.pending[mutation.mutationId]?.isSome)
    (hnodup : (batch.map (·.mutationId)).Nodup) (hids : results.map (·.mutationId) = batch.map (·.mutationId))
    (hpending : replica.pending = (results.foldl (settleResult nowMs) session.replica).pending)
    (hrejected : replica.rejected = (results.foldl (settleResult nowMs) session.replica).rejected) :
    Progress database session { session with server, replica, results := session.results ++ results } := by
  have hget : ∀ id : String, replica.pending[id]? =
      if id ∈ batch.map (·.mutationId) then none else session.replica.pending[id]? := by
    intro id
    rw [hpending, pending_settled, hids]
  have hold : ∀ {id : String} {mutation : PendingMutation}, replica.pending[id]? = some mutation →
      session.replica.pending[id]? = some mutation := by
    intro id mutation hsome
    rw [hget] at hsome
    split at hsome
    · cases hsome
    · exact hsome
  refine ⟨hversion, ⟨fun hsome => h.key (hold hsome), fun hsome => h.valid (hold hsome),
    fun hsome => h.complete (hold hsome)⟩, ?_, fun result hmem => List.mem_append_left _ hmem, ?_⟩
  · intro id
    by_cases hmem : id ∈ batch.map (·.mutationId)
    · refine .inr ⟨(hget id).trans (if_pos hmem), ?_⟩
      obtain ⟨result, hresult, rfl⟩ := List.mem_map.mp (hids ▸ hmem)
      by_cases hstatus : result.status = .rejected
      · refine .inr ?_
        obtain ⟨mutation, hmutation, hid⟩ := List.mem_map.mp hmem
        have hknown := hbatch mutation hmutation
        rw [hid] at hknown
        change (replica.rejected[result.mutationId]?).isSome
        rw [hrejected]
        exact rejected_settled nowMs session.replica (hids ▸ hnodup) hresult hstatus hknown
      · exact .inl ⟨result, List.mem_append_right _ hresult, rfl, hstatus⟩
    · exact .inl ((hget id).trans (if_neg hmem))
  · intro id hsome
    change (replica.rejected[id]?).isSome
    rw [hrejected]
    exact rejected_kept nowMs session.replica results id hsome

omit hlawful in
theorem queue_nil (js : Js) (h : session.replica.Keyed) (hnil : session.replica.queue js = []) (id : String) :
    session.replica.pending[id]? = none := by
  cases hpending : session.replica.pending[id]? with
  | none => rfl
  | some mutation =>
    have hmem : mutation ∈ session.replica.queue js := (mem_queue js h).mpr (by rwa [h.key hpending])
    rw [hnil] at hmem
    cases hmem

omit hlawful in
theorem pushLoop_nil (options : OfflineSyncOptions) (clock : MemoryReplica → Int) (schemaVersion : Nat) (requires : Bool)
    (hnil : session.replica.queue js = []) :
    pushLoop js database options clock schemaVersion 1 requires session = (.ok requires, session) := by
  have hbounds := options.push_bounds
  have hbatch := getPending_eq js session.replica hbounds.1 (Nat.le_trans hbounds.2 (by decide))
  unfold pushLoop
  rw [Act.bind_ok (Act.read_apply _ _), Act.bind_ok (Act.read_apply _ _), hbatch, hnil, List.take_nil]
  rfl

omit hlawful in
theorem queue_shorter {replica replica' : MemoryReplica} (h : replica.Keyed) (h' : replica'.Keyed) {n : Nat} (hpos : 1 ≤ n)
    (hne : replica.queue js ≠ [])
    (hpending : ∀ id : String, replica'.pending[id]? =
      if id ∈ ((replica.queue js).take n).map (·.mutationId) then none else replica.pending[id]?) :
    (replica'.queue js).length < (replica.queue js).length := by
  have hsubset : (replica'.queue js).map (·.mutationId) ⊆ ((replica.queue js).drop n).map (·.mutationId) := by
    intro id hmem
    obtain ⟨mutation, hmutation, rfl⟩ := List.mem_map.mp hmem
    have hget := (mem_queue js h').mp hmutation
    rw [hpending] at hget
    split at hget
    · cases hget
    next hout =>
      have hold := (mem_queue js h).mpr hget
      rw [← List.take_append_drop n (replica.queue js)] at hold
      obtain hold | hold := List.mem_append.mp hold
      · exact absurd (List.mem_map_of_mem hold) hout
      · exact List.mem_map_of_mem hold
  have hle := (List.subperm_of_subset (queue_ids_nodup js h') hsubset).length_le
  rw [List.length_map, List.length_map, List.length_drop] at hle
  have hlength := List.length_pos_of_ne_nil hne
  omega

theorem pushLoop_ok (options : OfflineSyncOptions) (clock : MemoryReplica → Int) {requires : Bool}
    {schemaVersion : Nat} (h : session.replica.Keyed) (hversion : database.schemaVersion session.server = schemaVersion) :
    ∃ rounds requires' session',
      pushLoop js database options clock schemaVersion rounds requires session = (.ok requires', session') ∧
      (∀ id : String, session'.replica.pending[id]? = none) ∧ Progress database session session' := by
  generalize hlength : (session.replica.queue js).length = length
  induction length using Nat.strong_induction_on generalizing session requires with
  | _ length ih =>
  have hbounds := options.push_bounds
  have hbatch := getPending_eq js session.replica hbounds.1 (Nat.le_trans hbounds.2 (by decide))
  by_cases hnil : session.replica.queue js = []
  · exact ⟨1, requires, session, pushLoop_nil options clock schemaVersion requires hnil, queue_nil js h hnil, .refl h⟩
  · have hne : (session.replica.queue js).take options.pushBatchSize ≠ [] := fun heq => by
      obtain hzero | hempty := List.take_eq_nil_iff.mp heq
      · omega
      · exact hnil hempty
    have hnodup : (((session.replica.queue js).take options.pushBatchSize).map (·.mutationId)).Nodup :=
      (queue_ids_nodup js h).sublist ((List.take_sublist _ _).map _)
    have hknown : ∀ mutation ∈ (session.replica.queue js).take options.pushBatchSize,
        session.replica.pending[mutation.mutationId]?.isSome := fun mutation hmem =>
      Option.isSome_iff_exists.mpr ⟨mutation, (mem_queue js h).mp (List.mem_of_mem_take hmem)⟩
    obtain ⟨server, results, hpush, hids, hserver⟩ := push_ok hlawful session hne
      (Nat.le_trans (List.length_take_le _ _) hbounds.2)
    have hconsume := @transaction_ok _ js { session with server, results := session.results ++ results } _ _ _ _
      (consumePushResults_run js session.replica (clock session.replica) hnodup hids)
    have hstep : ∀ rounds, pushLoop js database options clock schemaVersion (rounds+1) requires session =
        pushLoop js database options clock schemaVersion rounds (requiresSnapshot results || requires) { session with
          server
          replica := settleBatch (clock session.replica) session.replica results
          results := session.results ++ results } := by
      intro rounds
      rw [pushLoop, Act.bind_ok (Act.read_apply _ _), Act.bind_ok (Act.read_apply _ _), hbatch]
      obtain ⟨first, rest, hcons⟩ := List.exists_cons_of_ne_nil hne
      rw [hcons] at hpush hconsume ⊢
      subst hversion
      exact (Act.bind_ok hpush).trans (Act.bind_ok hconsume)
    have hprogress := batch_progress database h hserver hknown hnodup hids
      (pending_settleBatch (clock session.replica) session.replica results) (rejected_settleBatch _ _ _)
    have hless : ((settleBatch (clock session.replica) session.replica results).queue js).length <
        (session.replica.queue js).length := by
      refine queue_shorter h hprogress.keyed hbounds.1 hnil fun id => ?_
      rw [pending_settleBatch, pending_settled, hids]
    obtain ⟨rounds, requires', session', hrest, hempty, hprogress'⟩ := @ih _ (hlength ▸ hless) _
      (requiresSnapshot results || requires) hprogress.keyed (hserver.trans hversion) rfl
    exact ⟨rounds+1, requires', session', (hstep rounds).trans hrest, hempty, hprogress.trans hprogress'⟩

end Phases

structure Recovered {σ : Type} (database : SyncDatabase σ) (before after : Session σ) : Prop where
  cursor : ∃ cursor, after.replica.cursor = some ⟨cursor, database.schemaVersion after.server⟩
  schemaVersion : database.schemaVersion after.server = database.schemaVersion before.server
  settled : ∀ id : String, before.replica.pending[id]?.isSome → after.Settled id

section Recovery
variable {σ : Type} {js : Js} {database : SyncDatabase σ} (options : OfflineSyncOptions) (clock : MemoryReplica → Int)
  {session : Session σ}

/-- Once the queue is pushed, what follows pulls. -/
theorem rest_recovers (hlawful : database.Lawful js) {middle : Session σ} {requires : Bool} {position : Position}
    (hprogress : Progress database session middle) (hempty : ∀ id : String, middle.replica.pending[id]? = none)
    (hposition : database.verifySyncCursor position.cursor middle.server = none ∨
      position.schemaVersion = database.schemaVersion middle.server) :
    ∃ pulls session', (do
        let position ← if requires then resnapshot js database else pure position
        let _ ← pullFrom js database options pulls position : SyncCall σ Unit) middle = (.ok (), session') ∧
      Recovered database session session' := by
  have hend : ∀ {session'}, Progress database middle session' →
      (∃ cursor, session'.replica.cursor = some ⟨cursor, database.schemaVersion middle.server⟩) →
      Recovered database session session' := by
    intro session' hlater ⟨cursor, hcursor⟩
    refine ⟨⟨cursor, by rw [hcursor, hlater.schemaVersion]⟩, (hprogress.trans hlater).schemaVersion, ?_⟩
    intro id hpending
    obtain hsame | hsettled := (hprogress.trans hlater).pending id
    · obtain hsame' | hsettled := hprogress.pending id
      · rw [← hsame', hempty] at hpending
        cases hpending
      · exact hsettled.progress hlater
    · exact hsettled
  cases requires with
  | false =>
    obtain ⟨pulls, end', session', hpull, hcursor, hlater⟩ := pullFrom_ok hlawful options hprogress.keyed hposition
    exact ⟨pulls, session', Act.bind_ok hpull, hend hlater hcursor⟩
  | true =>
    obtain ⟨position, fresh, hresnapshot, hversion, -, hserver, hfresh⟩ := resnapshot_ok hlawful hprogress.keyed
    obtain ⟨pulls, end', session', hpull, hcursor, hlater⟩ := pullFrom_ok hlawful options hfresh.keyed
      (.inr (hversion.trans hfresh.schemaVersion.symm))
    refine ⟨pulls, session', (Act.bind_ok hresnapshot).trans (Act.bind_ok hpull), hend (hfresh.trans hlater) ?_⟩
    rwa [← hfresh.schemaVersion]

/-- With a cursor of another schema version and mutations in the queue, a synchronisation throws and changes nothing. -/
theorem sync_stuck (database : SyncDatabase σ) {position : Position} (hcursor : session.replica.cursor = some position)
    (hversion : position.schemaVersion ≠ database.schemaVersion session.server)
    (hpending : session.replica.queue js ≠ []) (pushes pulls : Nat) :
    ∃ failure, performSync js database options clock pushes pulls session = (.error failure, session) := by
  have hbounds := options.push_bounds
  have hloop : ∃ failure, pushLoop js database options clock position.schemaVersion pushes false session =
      (.error failure, session) := by
    cases pushes with
    | zero => exact ⟨.running, rfl⟩
    | succ rounds =>
      have hbatch := getPending_eq js session.replica hbounds.1 (Nat.le_trans hbounds.2 (by decide))
      obtain ⟨first, rest, hcons⟩ := List.exists_cons_of_ne_nil hpending
      obtain ⟨n, hn⟩ := Nat.exists_eq_add_of_le' hbounds.1
      rw [hcons, hn, List.take_succ_cons] at hbatch
      have hlength : ¬((first :: rest.take n).map (·.toSyncMutation) = [] ∨
          100 < ((first :: rest.take n).map (·.toSyncMutation)).length) := by
        rw [List.length_map, List.length_cons, not_or]
        exact ⟨List.cons_ne_nil _ _, by rw [List.length_take]; omega⟩
      have hpush : push database ⟨position.schemaVersion, (first :: rest.take n).map (·.toSyncMutation)⟩ session =
          (.error (.thrown "sync.schema_version_mismatch"), session) := by
        unfold push SyncDatabase.executeSyncPush
        dsimp only
        rw [if_neg hlength, if_pos hversion.symm]
      refine ⟨.thrown "sync.schema_version_mismatch", ?_⟩
      rw [pushLoop, Act.bind_ok (Act.read_apply _ _), Act.bind_ok (Act.read_apply _ _), hn, hbatch]
      exact Act.bind_error hpush
  obtain ⟨failure, hloop⟩ := hloop
  refine ⟨failure, ?_⟩
  unfold performSync
  rw [Act.bind_ok (Act.read_apply _ _), hcursor]
  exact (Act.bind_ok (Act.pure_apply _ _)).trans (Act.bind_error hloop)

/-- When the schema of the server has moved ahead, a synchronisation ends there with all that was pending accepted or
rejected exactly if the replica has no cursor or nothing is pending. -/
theorem sync_recovers_iff (js : Js) (database : SyncDatabase σ) (hlawful : database.Lawful js)
    (options : OfflineSyncOptions) (clock : MemoryReplica → Int) (session : Session σ) (hkeyed : session.replica.Keyed)
    (hahead : ∀ position, session.replica.cursor = some position →
      position.schemaVersion < database.schemaVersion session.server ∧
        ∀ claims, database.cursorClaims session.server position.cursor = some claims → claims.1 = position.schemaVersion) :
    (∃ pushes pulls session', performSync js database options clock pushes pulls session = (.ok (), session') ∧
      Recovered database session session') ↔
    session.replica.cursor = none ∨ ∀ id : String, session.replica.pending[id]? = none := by
  constructor
  · rintro ⟨pushes, pulls, session', hsync, -⟩
    cases hcursor : session.replica.cursor with
    | none => exact .inl rfl
    | some position =>
      refine .inr (queue_nil js hkeyed ?_)
      by_contra hpending
      obtain ⟨failure, hstuck⟩ := sync_stuck options clock database hcursor (Nat.ne_of_lt (hahead position hcursor).1) hpending
        pushes pulls
      rw [hstuck] at hsync
      cases congrArg Prod.fst hsync
  · intro hready
    cases hcursor : session.replica.cursor with
    | none =>
      obtain ⟨position, fresh, hresnapshot, hversion, -, hserver, hfresh⟩ := resnapshot_ok hlawful hkeyed
      obtain ⟨pushes, requires, middle, hpush, hempty, hmiddle⟩ := pushLoop_ok hlawful options clock hfresh.keyed
        (hfresh.schemaVersion.trans hversion.symm)
      obtain ⟨pulls, session', hrest, hrecovered⟩ := rest_recovers options hlawful (hfresh.trans hmiddle) hempty
        (.inr (hversion.trans (hfresh.trans hmiddle).schemaVersion.symm))
      refine ⟨pushes, pulls, session', ?_, hrecovered⟩
      unfold performSync
      rw [Act.bind_ok (Act.read_apply _ _), hcursor]
      exact (Act.bind_ok hresnapshot).trans ((Act.bind_ok hpush).trans hrest)
    | some position =>
      obtain ⟨hless, hclaims⟩ := hahead position hcursor
      have hnone := hready.resolve_left (by rw [hcursor]; exact Option.some_ne_none position)
      have hstale : database.verifySyncCursor position.cursor session.server = none := by
        unfold SyncDatabase.verifySyncCursor
        cases hclaimed : database.cursorClaims session.server position.cursor with
        | none => rfl
        | some claims => exact if_neg (by rw [hclaims claims hclaimed]; omega)
      have hnil : session.replica.queue js = [] := by
        refine List.eq_nil_iff_forall_not_mem.mpr fun mutation hmem => ?_
        have hpending := (mem_queue js hkeyed).mp hmem
        rw [hnone] at hpending
        cases hpending
      obtain ⟨pulls, session', hrest, hrecovered⟩ := @rest_recovers _ js database options session hlawful session false
        position (.refl hkeyed) hnone (.inl hstale)
      refine ⟨1, pulls, session', ?_, hrecovered⟩
      unfold performSync
      rw [Act.bind_ok (Act.read_apply _ _), hcursor]
      exact (Act.bind_ok (Act.pure_apply _ _)).trans
        ((Act.bind_ok (pushLoop_nil options clock position.schemaVersion false hnil)).trans hrest)

end Recovery

section Samples

def sampleDatabase : SyncDatabase Nat where
  schemaVersion _ := 2
  applySyncMutation s _ := (s+1, .ok false)
  cursorClaims _ cursor := if cursor = "old" then some (1, 0) else some (2, cursor.length)
  issueSyncCursor _ sequence := String.ofList (List.replicate sequence 'x')
  latestSequence s := s
  visibleChanges s _ _ := ([], s, false)
  snapshotTables _ := []

theorem sampleDatabase_lawful : sampleDatabase.Lawful sampleJs where
  schemaVersion _ _ := rfl
  claims s sequence := by
    have hne : String.ofList (List.replicate sequence 'x') ≠ "old" := by
      intro heq
      have hmem : 'o' ∈ List.replicate sequence 'x' := by
        rw [← String.toList_ofList (l := List.replicate sequence 'x'), heq]
        decide
      exact absurd (List.eq_of_mem_replicate hmem) (by decide)
    change (if String.ofList (List.replicate sequence 'x') = "old" then some (1, 0)
      else some (2, (String.ofList (List.replicate sequence 'x')).length)) = some (2, sequence)
    rw [if_neg hne, String.length_ofList, List.length_replicate]
  complete _ _ _ _ hmem := nomatch hmem
  advances _ _ _ _ hmore := nomatch hmore
  decodes _ := rfl

def sampleOptions : OfflineSyncOptions := ⟨100, 1000, by decide, by decide⟩

def sampleSession (cursor : Option Position) : Session Nat where
  server := 0
  replica := { (queueRun sampleJs [.mutate (sampleDeletion "a").toSyncMutation 0]).replica with cursor }

theorem sampleSession_keyed (cursor : Option Position) : (sampleSession cursor).replica.Keyed := by
  have h := (queueRun_sound sampleJs [.mutate (sampleDeletion "a").toSyncMutation 0]).keyed
  exact ⟨h.key, h.valid, h.complete⟩

theorem sampleSession_ahead {session : Session Nat} (hcursor : session.replica.cursor = some ⟨"old", 1⟩) :
    ∀ position, session.replica.cursor = some position → position.schemaVersion < sampleDatabase.schemaVersion session.server ∧
      ∀ claims, sampleDatabase.cursorClaims session.server position.cursor = some claims →
        claims.1 = position.schemaVersion := by
  intro position hposition
  obtain rfl := Option.some_inj.mp (hcursor.symm.trans hposition)
  refine ⟨show 1 < 2 by decide, fun claims hclaims => ?_⟩
  obtain rfl := Option.some_inj.mp hclaims
  rfl

def idleSession : Session Nat where
  server := 0
  replica := { (queueRun sampleJs []).replica with cursor := some ⟨"old", 1⟩ }

theorem idleSession_keyed : idleSession.replica.Keyed := by
  have h := (queueRun_sound sampleJs []).keyed
  exact ⟨h.key, h.valid, h.complete⟩

/-- A replica without a cursor recovers, and one that has nothing to push. -/
theorem fresh_replica_recovers :
    (∃ pushes pulls session',
      performSync sampleJs sampleDatabase sampleOptions (fun _ => 0) pushes pulls (sampleSession none) = (.ok (), session') ∧
        Recovered sampleDatabase (sampleSession none) session') ∧
    ∃ pushes pulls session',
      performSync sampleJs sampleDatabase sampleOptions (fun _ => 0) pushes pulls idleSession = (.ok (), session') ∧
        Recovered sampleDatabase idleSession session' := by
  refine ⟨(sync_recovers_iff sampleJs sampleDatabase sampleDatabase_lawful sampleOptions (fun _ => 0) (sampleSession none)
    (sampleSession_keyed none) fun _ hcursor => nomatch hcursor).mpr (.inl rfl), ?_⟩
  refine (sync_recovers_iff sampleJs sampleDatabase sampleDatabase_lawful sampleOptions (fun _ => 0) idleSession
    idleSession_keyed (sampleSession_ahead rfl)).mpr (.inr fun id => ?_)
  change (∅ : Map PendingMutation)[id]? = none
  exact Std.ExtTreeMap.getElem?_empty

/-- A replica with a cursor of the first schema version and a pending mutation. -/
theorem stale_replica_stuck : ¬ ∀ (js : Js) (database : SyncDatabase Nat), database.Lawful js →
    ∀ (options : OfflineSyncOptions) (clock : MemoryReplica → Int) (session : Session Nat), session.replica.Keyed →
    (∀ position, session.replica.cursor = some position →
      position.schemaVersion < database.schemaVersion session.server ∧
        ∀ claims, database.cursorClaims session.server position.cursor = some claims → claims.1 = position.schemaVersion) →
    ∃ pushes pulls session', performSync js database options clock pushes pulls session = (.ok (), session') ∧
      Recovered database session session' := by
  intro h
  have hstale : (sampleSession (some ⟨"old", 1⟩)).replica.cursor = some ⟨"old", 1⟩ := rfl
  obtain ⟨pushes, pulls, session', hsync, -⟩ := h sampleJs sampleDatabase sampleDatabase_lawful sampleOptions (fun _ => 0)
    (sampleSession (some ⟨"old", 1⟩)) (sampleSession_keyed _) (sampleSession_ahead hstale)
  have hmem : sampleDeletion "a" ∈ (sampleSession (some ⟨"old", 1⟩)).replica.queue sampleJs :=
    (mem_queue sampleJs (sampleSession_keyed _)).mpr (by decide +kernel)
  obtain ⟨failure, hstuck⟩ := sync_stuck sampleOptions (fun _ => 0) sampleDatabase hstale (by decide)
    (List.ne_nil_of_mem hmem) pushes pulls
  rw [hstuck] at hsync
  cases congrArg Prod.fst hsync

end Samples

end Ffdb.Client
