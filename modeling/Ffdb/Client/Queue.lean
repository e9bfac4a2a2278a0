import Ffdb.Client.Batches
import Ffdb.Client.Runs
import Ffdb.Lib.Machine
import Mathlib.Data.List.Induction

/-! The queue of pending mutations, and the order in which it is pushed. -/
namespace Ffdb.Client
open Turns Sync

structure Js.OrdersIds (js : Js) : Prop where
  trans : Std.TransCmp js.localeCompare
  eq_of_valid : ∀ {a b}, validMutationId a = true → validMutationId b = true → js.localeCompare a b = .eq → a = b

def pendingOrder (js : Js) (left right : PendingMutation) : Ordering :=
  (compare left.enqueuedAtMs right.enqueuedAtMs).then (js.localeCompare left.mutationId right.mutationId)

def Ordered (js : Js) (mutations : List PendingMutation) : Prop :=
  mutations.Pairwise fun left right => pendingOrder js left right = .lt

structure MemoryReplica.Keyed (replica : MemoryReplica) : Prop where
  key : ∀ {id : String} {mutation : PendingMutation}, replica.pending[id]? = some mutation → mutation.mutationId = id
  valid : ∀ {id : String} {mutation : PendingMutation}, replica.pending[id]? = some mutation → validMutationId id = true
  complete : ∀ {id : String} {mutation : PendingMutation}, replica.pending[id]? = some mutation →
    mutation.toSyncMutation.Complete

def MemoryReplica.without (replica : MemoryReplica) (mutations : List PendingMutation) : MemoryReplica :=
  { replica with pending := (mutations.map (·.mutationId)).foldl (fun pending id => pending.erase id) replica.pending }

def pushBatches (js : Js) (limit : Nat) : Nat → MemoryReplica → List (List PendingMutation)
  | 0, _ => []
  | fuel+1, replica =>
    match replica.getPending js limit with
    | .ok [] => []
    | .ok batch => batch :: pushBatches js limit fuel (replica.without batch)
    | .error _ => []

section Order
variable {js : Js} (hjs : js.OrdersIds)
include hjs

theorem pendingOrder_trans : Std.TransCmp (pendingOrder js) := by
  have := hjs.trans
  have hids : Std.TransCmp fun left right : PendingMutation => js.localeCompare left.mutationId right.mutationId := {
    eq_swap := Std.OrientedCmp.eq_swap
    isLE_trans := Std.TransCmp.isLE_trans }
  exact inferInstanceAs (Std.TransCmp (compareLex (compareOn fun mutation : PendingMutation => mutation.enqueuedAtMs)
    fun left right : PendingMutation => js.localeCompare left.mutationId right.mutationId))

theorem pendingOrder_eq {left right : PendingMutation} (hleft : validMutationId left.mutationId = true)
    (hright : validMutationId right.mutationId = true) (h : pendingOrder js left right = .eq) :
    left.mutationId = right.mutationId :=
  hjs.eq_of_valid hleft hright (Ordering.then_eq_eq.mp h).2

theorem sortPending_pairwise (mutations : List PendingMutation) :
    (sortPending js mutations).Pairwise fun left right => (pendingOrder js left right).isLE = true := by
  have := pendingOrder_trans hjs
  refine List.pairwise_mergeSort ?_ ?_ mutations
  · exact fun a b c => this.isLE_trans
  · intro a b
    rw [show pendingOrder js b a = (pendingOrder js a b).swap from this.eq_swap]
    cases pendingOrder js a b <;> rfl

end Order

section Queue
variable {js : Js} {replica : MemoryReplica}

theorem mem_queue (js : Js) (h : replica.Keyed) {mutation : PendingMutation} :
    mutation ∈ replica.queue js ↔ replica.pending[mutation.mutationId]? = some mutation := by
  have hmem : mutation ∈ replica.queue js ↔ mutation ∈ replica.pending.toList.map (·.2) := List.mem_mergeSort
  rw [hmem, List.mem_map]
  constructor
  · rintro ⟨⟨id, other⟩, hentry, rfl⟩
    have hget := Std.ExtTreeMap.mem_toList_iff_getElem?_eq_some.mp hentry
    rwa [h.key hget]
  · intro hget
    exact ⟨(mutation.mutationId, mutation), Std.ExtTreeMap.mem_toList_iff_getElem?_eq_some.mpr hget, rfl⟩

theorem queue_ids_nodup (js : Js) (h : replica.Keyed) : ((replica.queue js).map (·.mutationId)).Nodup := by
  have hperm : (replica.queue js).Perm (replica.pending.toList.map (·.2)) := List.mergeSort_perm _ _
  refine (hperm.map _).nodup_iff.mpr ?_
  have hkeys : (replica.pending.toList.map (·.2)).map (·.mutationId) = replica.pending.keys := by
    rw [List.map_map, ← Std.ExtTreeMap.map_fst_toList_eq_keys]
    refine List.map_congr_left fun entry hentry => ?_
    exact h.key (Std.ExtTreeMap.mem_toList_iff_getElem?_eq_some.mp hentry)
  rw [hkeys]
  exact Std.ExtTreeMap.nodup_keys

variable (hjs : js.OrdersIds)
include hjs

theorem queue_ordered (h : replica.Keyed) : Ordered js (replica.queue js) := by
  have hids := List.pairwise_map.mp (queue_ids_nodup js h)
  refine ((sortPending_pairwise hjs _).and hids).imp_of_mem ?_
  intro left right hleft hright hboth
  obtain ⟨hle, hne⟩ := hboth
  have hvalid : ∀ {mutation}, mutation ∈ replica.queue js → validMutationId mutation.mutationId = true :=
    fun hmem => h.valid ((mem_queue js h).mp hmem)
  cases horder : pendingOrder js left right with
  | lt => rfl
  | eq => exact absurd (pendingOrder_eq hjs (hvalid hleft) (hvalid hright) horder) hne
  | gt =>
    rw [horder] at hle
    cases hle

theorem Ordered.nodup {mutations : List PendingMutation} (h : Ordered js mutations) : mutations.Nodup := by
  have := pendingOrder_trans hjs
  refine h.imp fun hlt heq => ?_
  have hself : ∀ mutation, pendingOrder js mutation mutation = .eq := fun _ => Std.ReflCmp.compare_self
  rw [heq, hself] at hlt
  cases hlt

/-- The queue is told by what is in it. -/
theorem queue_eq_of_ordered (h : replica.Keyed) {mutations : List PendingMutation} (hordered : Ordered js mutations)
    (hmem : ∀ mutation, mutation ∈ mutations ↔ replica.pending[mutation.mutationId]? = some mutation) :
    replica.queue js = mutations := by
  have := pendingOrder_trans hjs
  have hqueue := queue_ordered hjs h
  have hperm : (replica.queue js).Perm mutations :=
    (List.perm_ext_iff_of_nodup (hqueue.nodup hjs) (hordered.nodup hjs)).mpr fun mutation =>
      (mem_queue js h).trans (hmem mutation).symm
  refine hperm.eq_of_pairwise ?_ hqueue hordered
  intro a b _ _ hab hba
  rw [this.eq_swap, hab] at hba
  cases hba

omit hjs in
theorem getElem?_without (mutations : List PendingMutation) (id : String) :
    (replica.without mutations).pending[id]? =
      if id ∈ mutations.map (·.mutationId) then none else replica.pending[id]? := getElem?_removed _ _ _

omit hjs in
theorem MemoryReplica.Keyed.without (h : replica.Keyed) (mutations : List PendingMutation) :
    (replica.without mutations).Keyed := by
  have hget : ∀ {id : String} {mutation : PendingMutation}, (replica.without mutations).pending[id]? = some mutation →
      replica.pending[id]? = some mutation := by
    intro id mutation hget
    rw [getElem?_without] at hget
    split at hget
    · cases hget
    · exact hget
  exact ⟨fun hmem => h.key (hget hmem), fun hmem => h.valid (hget hmem), fun hmem => h.complete (hget hmem)⟩

theorem queue_without (h : replica.Keyed) (n : Nat) :
    (replica.without ((replica.queue js).take n)).queue js = (replica.queue js).drop n := by
  have hsplit := List.take_append_drop n (replica.queue js)
  have hids := queue_ids_nodup js h
  rw [← hsplit, List.map_append] at hids
  obtain ⟨-, -, hdisjoint⟩ := List.nodup_append.mp hids
  refine queue_eq_of_ordered hjs (h.without _) ((queue_ordered hjs h).sublist (List.drop_sublist n _)) ?_
  intro mutation
  rw [getElem?_without]
  constructor
  · intro hmem
    have hout : mutation.mutationId ∉ ((replica.queue js).take n).map (·.mutationId) := fun hin =>
      hdisjoint _ hin _ (List.mem_map_of_mem hmem) rfl
    rw [if_neg hout]
    exact (mem_queue js h).mp (List.mem_of_mem_drop hmem)
  · intro hget
    split at hget
    · cases hget
    next hout =>
      have hmem := (mem_queue js h).mpr hget
      rw [← hsplit] at hmem
      obtain hmem | hmem := List.mem_append.mp hmem
      · exact absurd (List.mem_map_of_mem hmem) hout
      · exact hmem

theorem flatten_pushBatches {limit : Nat} (hpos : 0 < limit) (hlimit : limit ≤ maxSafeInteger) {fuel : Nat}
    (h : replica.Keyed) (hfuel : (replica.queue js).length ≤ fuel) :
    (pushBatches js limit fuel replica).flatten = replica.queue js := by
  induction fuel generalizing replica with
  | zero => exact (List.eq_nil_of_length_eq_zero (Nat.le_zero.mp hfuel)).symm
  | succ fuel ih =>
    have hbatch := getPending_eq js replica hpos hlimit
    have hrest := queue_without hjs h limit
    rw [pushBatches, hbatch]
    split
    next hnone =>
      have hempty : (replica.queue js).take limit = [] := by simpa using hnone
      obtain hzero | hempty := List.take_eq_nil_iff.mp hempty
      · omega
      · exact hempty.symm
    next batch hne hsome =>
      obtain rfl : (replica.queue js).take limit = batch := by simpa using hsome
      have hlength : 0 < ((replica.queue js).take limit).length := List.length_pos_of_ne_nil fun heq => hne (by rw [heq])
      rw [List.length_take] at hlength
      rw [List.flatten_cons, ih (h.without _) (by rw [hrest, List.length_drop]; omega), hrest, List.take_append_drop]
    next hfailed => cases hfailed

end Queue

section Mutate
variable (js : Js)

def mutate (mutation : SyncMutation) (nowMs : Int) (replica : MemoryReplica) : MemoryReplica × Except String Unit :=
  match validateMutation mutation with
  | .error error => (replica, .error error)
  | .ok () => (enqueue js { mutation with enqueuedAtMs := nowMs }).transact (MemoryReplica.perform js) replica

def Queues (replica : MemoryReplica) (mutation : SyncMutation) : Prop :=
  validateMutation mutation = .ok () ∧ replica.pending[mutation.mutationId]? = none ∧
    replica.rejected[mutation.mutationId]? = none

instance (replica : MemoryReplica) (mutation : SyncMutation) : Decidable (Queues replica mutation) :=
  inferInstanceAs (Decidable (_ ∧ _ ∧ _))

variable {js}

theorem validateMutation_ok {mutation : SyncMutation} (h : validateMutation mutation = .ok ()) :
    validMutationId mutation.mutationId = true ∧ mutation.Complete := by
  unfold validateMutation at h
  split at h
  · cases h
  next hid =>
  split at h
  · cases h
  split at h
  · cases h
  next hvalues =>
    refine ⟨by simpa using hid, ?_⟩
    by_cases hdelete : mutation.operation = .delete
    · exact .inl hdelete
    · exact .inr fun hnone => hvalues ⟨hdelete, hnone⟩

theorem alreadyQueued_transact (existing mutation : SyncMutation) (replica : MemoryReplica) :
    ((alreadyQueued js existing mutation).transact (MemoryReplica.perform js) replica).1 = replica := by
  unfold alreadyQueued
  split <;> rfl

theorem enqueue_transact (replica : MemoryReplica) (mutation : PendingMutation) :
    (enqueue js mutation).transact (MemoryReplica.perform js) replica =
      match replica.pending[mutation.mutationId]?, replica.rejected[mutation.mutationId]? with
      | some existing, _ => (alreadyQueued js existing.toSyncMutation mutation.toSyncMutation).transact
          (MemoryReplica.perform js) replica
      | none, some rejected => (alreadyQueued js rejected.toSyncMutation mutation.toSyncMutation).transact
          (MemoryReplica.perform js) replica
      | none, none =>
        match (applyOptimisticMutation mutation).run (MemoryReplica.perform js)
          { replica with pending := replica.pending.insert mutation.mutationId mutation } with
        | (replica', .ok result) => (replica', .ok result)
        | (_, .error error) => (replica, .error error) := by
  have hlook : ∀ {op : ReplicaOp} {next : op.Answer → Transaction Unit}, (replica.perform js op).1 = replica →
      (Work.now op next).transact (MemoryReplica.perform js) replica =
        (next (replica.perform js op).2).transact (MemoryReplica.perform js) replica := by
    intro op next hsame
    unfold Work.transact
    rw [Work.run, hsame]
  have hpending : (replica.perform js (.findPending mutation.mutationId)).2 = replica.pending[mutation.mutationId]? := rfl
  have hrejected : (replica.perform js (.findRejected mutation.mutationId)).2 = replica.rejected[mutation.mutationId]? :=
    rfl
  have hset : (replica.perform js (.setPending mutation)).1 =
      { replica with pending := replica.pending.insert mutation.mutationId mutation } := rfl
  unfold enqueue
  rw [hlook rfl, hpending]
  cases replica.pending[mutation.mutationId]? with
  | some existing => rfl
  | none =>
    dsimp only
    rw [hlook rfl, hrejected]
    cases replica.rejected[mutation.mutationId]? with
    | some rejected => rfl
    | none =>
      dsimp only
      unfold Work.transact
      rw [Work.run, hset]
      generalize (applyOptimisticMutation mutation).run _ _ = outcome
      obtain ⟨replica', error | result⟩ := outcome <;> rfl

theorem mutate_eq (replica : MemoryReplica) (mutation : SyncMutation) (nowMs : Int) :
    (mutate js mutation nowMs replica).1 = if Queues replica mutation then
      { replica with
        rows := showMutation js replica.rows { mutation with enqueuedAtMs := nowMs }
        pending := replica.pending.insert mutation.mutationId { mutation with enqueuedAtMs := nowMs } }
      else replica := by
  unfold mutate
  cases hvalid : validateMutation mutation with
  | error error =>
    refine (if_neg ?_).symm
    rintro ⟨h, -, -⟩
    rw [hvalid] at h
    cases h
  | ok =>
    dsimp only
    rw [enqueue_transact]
    dsimp only
    cases hpending : replica.pending[mutation.mutationId]? with
    | some existing =>
      refine (alreadyQueued_transact _ _ _).trans (if_neg ?_).symm
      rintro ⟨-, h, -⟩
      rw [hpending] at h
      cases h
    | none =>
      cases hrejected : replica.rejected[mutation.mutationId]? with
      | some rejected =>
        refine (alreadyQueued_transact _ _ _).trans (if_neg ?_).symm
        rintro ⟨-, -, h⟩
        rw [hrejected] at h
        cases h
      | none =>
        dsimp only
        rw [if_pos ⟨hvalid, hpending, hrejected⟩, applyOptimisticMutation_run _ (validateMutation_ok hvalid).2]

end Mutate

section Offered
variable (js : Js)

theorem forEach_offered {α : Type} {work : α → Transaction Unit} (h : ∀ x, (work x).Only ReplicaOp.Offered) (xs : List α) :
    (Transaction.forEach work xs).Only ReplicaOp.Offered := by
  induction xs with
  | nil => trivial
  | cons x xs ih => exact (h x).bind fun _ => ih

theorem applyOptimisticMutation_offered (mutation : PendingMutation) :
    (applyOptimisticMutation mutation).Only ReplicaOp.Offered := by
  have hget : (Transaction.getRow mutation.table mutation.primaryKey).Only ReplicaOp.Offered :=
    ⟨trivial, fun _ => trivial⟩
  unfold applyOptimisticMutation
  refine hget.bind fun existing => ?_
  split
  · split
    · exact ⟨trivial, fun _ => trivial⟩
    · trivial
  · split
    · trivial
    · exact ⟨trivial, fun _ => trivial⟩

theorem applyChange_offered (change : LogicalChange) : (applyChange js change).Only ReplicaOp.Offered := by
  have hunder : (applyUnder change (normalizePrimaryKey change.primaryKey)).Only ReplicaOp.Offered := by
    unfold applyUnder
    split
    · exact ⟨trivial, fun _ => trivial⟩
    · split
      · trivial
      · exact ⟨trivial, fun _ => trivial⟩
  have hdelete : (Transaction.delete change.table change.primaryKey change.sequence).Only ReplicaOp.Offered :=
    ⟨trivial, fun _ => trivial⟩
  unfold applyChange
  dsimp only
  split
  · exact hunder
  · exact hdelete.bind fun _ => hunder

theorem consumeResult_offered (pendingIds returnedIds : List String) (nowMs : Int) (result : SyncMutationResult) :
    (consumeResult pendingIds returnedIds nowMs result).Only ReplicaOp.Offered := by
  unfold consumeResult
  dsimp only
  split
  · split
    · trivial
    · split
      · exact ⟨trivial, fun _ => trivial⟩
      · exact ⟨trivial, fun _ => trivial⟩
  · trivial

theorem consumeResults_offered (pendingIds returnedIds : List String) (nowMs : Int) (requires : Bool)
    (results : List SyncMutationResult) :
    (consumeResults pendingIds nowMs returnedIds requires results).Only ReplicaOp.Offered := by
  induction results generalizing returnedIds requires with
  | nil => trivial
  | cons result results ih => exact (consumeResult_offered _ _ _ _).bind fun _ => ih _ _

/-- The transactions of a push, a page and a snapshot leave to enqueueing what is its own. -/
theorem consumePushResults_offered (pending : List PendingMutation) (results : List SyncMutationResult) (nowMs : Int) :
    (consumePushResults pending results nowMs).Only ReplicaOp.Offered := by
  unfold consumePushResults
  dsimp only
  split
  · refine (consumeResults_offered _ _ _ _ _).bind fun requires => ?_
    split
    · exact ⟨trivial, fun _ => trivial⟩
    · trivial
  · trivial

theorem applyPage_offered (changes : List LogicalChange) (position : Position) :
    (applyPage js changes position).Only ReplicaOp.Offered :=
  (forEach_offered (applyChange_offered js) changes).bind fun _ => ⟨trivial, fun _ => trivial⟩

theorem applySnapshot_offered (snapshot : SnapshotResponse) : (applySnapshot snapshot).Only ReplicaOp.Offered := by
  have hlift {α : Type} (answer : Except String α) : (Transaction.lift answer).Only ReplicaOp.Offered := by
    cases answer <;> trivial
  have hreplace : (Transaction.replaceSnapshot snapshot).Only ReplicaOp.Offered := ⟨trivial, hlift⟩
  have hpending : (Transaction.getPending maxSafeInteger).Only ReplicaOp.Offered := ⟨trivial, hlift⟩
  refine hreplace.bind fun _ => hpending.bind fun pending => ?_
  exact (forEach_offered applyOptimisticMutation_offered pending).bind fun _ => ⟨trivial, fun _ => trivial⟩

end Offered

section Run

/-- What the client does to its replica: a mutation, or a transaction of a push, a page or a snapshot. -/
inductive QueueEvent where
  | mutate (mutation : SyncMutation) (nowMs : Int)
  | transaction (work : { work : Transaction Unit // work.Only ReplicaOp.Offered })

structure QueueState where
  replica : MemoryReplica := {}
  issued : List PendingMutation := []

def QueueEvent.time : QueueEvent → Option Int
  | .mutate _ nowMs => some nowMs
  | .transaction _ => none

variable (js : Js)

def queueStep (state : QueueState) : QueueEvent → QueueState
  | .mutate mutation nowMs => {
      replica := (mutate js mutation nowMs state.replica).1
      issued := if Queues state.replica mutation then state.issued ++ [{ mutation with enqueuedAtMs := nowMs }]
        else state.issued }
  | .transaction work =>
    let replica := (work.val.transact (MemoryReplica.perform js) state.replica).1
    { replica, issued := state.issued.filter fun mutation => replica.pending[mutation.mutationId]?.isSome }

def queueRun (events : List QueueEvent) : QueueState := Machine.run (queueStep js) {} events

structure QueueState.Sound (state : QueueState) : Prop where
  keyed : state.replica.Keyed
  mem : ∀ mutation, mutation ∈ state.issued ↔ state.replica.pending[mutation.mutationId]? = some mutation

variable {js}

/-- A transaction leaves a pending mutation as it is, or takes it out. -/
theorem offered_pending (js : Js) {op : ReplicaOp} (h : op.Offered) (replica : MemoryReplica) (id : String) :
    (replica.perform js op).1.pending[id]? = none ∨ (replica.perform js op).1.pending[id]? = replica.pending[id]? := by
  cases op with
  | findPending _ | findRejected _ | setPending _ => exact h.elim
  | removePending ids =>
    have hget : (replica.perform js (.removePending ids)).1.pending[id]? = if id ∈ ids then none else replica.pending[id]? :=
      getElem?_removed ids replica.pending id
    rw [hget]
    split
    · exact .inl rfl
    · exact .inr rfl
  | rejectPending mutationId errorCode nowMs =>
    by_cases hid : mutationId = id
    · exact .inl (hid ▸ pending_rejectPending replica mutationId)
    · refine .inr (@view_rejectPending_of_ne replica _ _ _ (.pending id) ?_)
      rintro (heq | heq)
      · exact hid (Part.pending.inj heq).symm
      · cases heq
  | upsert record =>
    refine .inr ?_
    change (replica.upsert js record).pending[id]? = _
    unfold MemoryReplica.upsert
    split <;> rfl
  | delete table primaryKey serverSequence =>
    refine .inr ?_
    change (replica.delete js table primaryKey serverSequence).pending[id]? = _
    unfold MemoryReplica.delete
    split <;> rfl
  | getRow _ _ | getPending _ | replaceSnapshot _ | setCursor _ | clearCursor => exact .inr rfl

theorem transaction_pending (js : Js) {work : Transaction Unit} (h : work.Only ReplicaOp.Offered) (replica : MemoryReplica)
    (id : String) : (work.transact (MemoryReplica.perform js) replica).1.pending[id]? = none ∨
      (work.transact (MemoryReplica.perform js) replica).1.pending[id]? = replica.pending[id]? := by
  let kept (s : MemoryReplica) : Prop := s.pending[id]? = none ∨ s.pending[id]? = replica.pending[id]?
  have hkept : kept replica := .inr rfl
  refine h.transact_keeps ?_ hkept
  intro s op hop hs
  obtain hnone | hsame := offered_pending js hop s id
  · exact .inl hnone
  · exact hs.imp hsame.trans hsame.trans

theorem queueRun_concat (events : List QueueEvent) (event : QueueEvent) :
    queueRun js (events ++ [event]) = queueStep js (queueRun js events) event := Machine.run_append _ events [event]

theorem queueStep_mutate {state : QueueState} {mutation : SyncMutation} (nowMs : Int)
    (h : Queues state.replica mutation) : queueStep js state (.mutate mutation nowMs) = {
      replica := { state.replica with
        rows := showMutation js state.replica.rows { mutation with enqueuedAtMs := nowMs }
        pending := state.replica.pending.insert mutation.mutationId { mutation with enqueuedAtMs := nowMs } }
      issued := state.issued ++ [{ mutation with enqueuedAtMs := nowMs }] } := by
  unfold queueStep
  dsimp only
  rw [mutate_eq, if_pos h, if_pos h]

theorem queueStep_refused {state : QueueState} {mutation : SyncMutation} (nowMs : Int)
    (h : ¬Queues state.replica mutation) : queueStep js state (.mutate mutation nowMs) = state := by
  unfold queueStep
  dsimp only
  rw [mutate_eq, if_neg h, if_neg h]

theorem QueueState.Sound.mutate {state : QueueState} (h : state.Sound) {mutation : SyncMutation} (nowMs : Int)
    (hqueues : Queues state.replica mutation) : (queueStep js state (.mutate mutation nowMs)).Sound := by
  rw [queueStep_mutate nowMs hqueues]
  have hget : ∀ id : String, (state.replica.pending.insert mutation.mutationId
      ({ mutation with enqueuedAtMs := nowMs } : PendingMutation))[id]? = if mutation.mutationId = id then
        some { mutation with enqueuedAtMs := nowMs } else state.replica.pending[id]? :=
    fun id => (Std.ExtTreeMap.getElem?_insert ..).trans (by simp)
  refine ⟨⟨?_, ?_, ?_⟩, ?_⟩
  · intro id other hother
    rw [hget] at hother
    split at hother
    next heq =>
      obtain rfl := Option.some_inj.mp hother
      exact heq
    · exact h.keyed.key hother
  · intro id other hother
    rw [hget] at hother
    split at hother
    next heq => exact heq ▸ (validateMutation_ok hqueues.1).1
    · exact h.keyed.valid hother
  · intro id other hother
    rw [hget] at hother
    split at hother
    · obtain rfl := Option.some_inj.mp hother
      exact (validateMutation_ok hqueues.1).2
    · exact h.keyed.complete hother
  · intro other
    rw [List.mem_append, List.mem_singleton, h.mem, hget]
    constructor
    · rintro (hmem | rfl)
      · rw [if_neg fun heq => ?_]
        · exact hmem
        · rw [← heq, hqueues.2.1] at hmem
          cases hmem
      · exact if_pos rfl
    · intro hother
      split at hother
      · exact .inr (Option.some_inj.mp hother).symm
      · exact .inl hother

theorem QueueState.Sound.transaction {state : QueueState} (h : state.Sound)
    (work : { work : Transaction Unit // work.Only ReplicaOp.Offered }) :
    (queueStep js state (.transaction work)).Sound := by
  have hpending := transaction_pending js work.property state.replica
  have hold : ∀ {id : String} {mutation : PendingMutation},
      (queueStep js state (.transaction work)).replica.pending[id]? = some mutation →
        state.replica.pending[id]? = some mutation := by
    intro id mutation hget
    obtain hnone | hsame := hpending id
    · exact absurd (hnone.symm.trans hget) (by simp)
    · exact hsame.symm.trans hget
  refine ⟨⟨fun hget => h.keyed.key (hold hget), fun hget => h.keyed.valid (hold hget),
    fun hget => h.keyed.complete (hold hget)⟩, ?_⟩
  intro mutation
  refine List.mem_filter.trans ?_
  rw [h.mem]
  constructor
  · rintro ⟨hmem, hsome⟩
    obtain hnone | hsame := hpending mutation.mutationId
    · rw [hnone] at hsome
      cases hsome
    · exact hsame.trans hmem
  · intro hget
    exact ⟨hold hget, Option.isSome_iff_exists.mpr ⟨mutation, hget⟩⟩

theorem QueueState.Sound.step {state : QueueState} (h : state.Sound) (event : QueueEvent) :
    (queueStep js state event).Sound := by
  cases event with
  | mutate mutation nowMs =>
    by_cases hqueues : Queues state.replica mutation
    · exact h.mutate nowMs hqueues
    · rwa [queueStep_refused nowMs hqueues]
  | transaction work => exact h.transaction work

theorem queueRun_sound (js : Js) (events : List QueueEvent) : (queueRun js events).Sound := by
  induction events using List.reverseRecOn with
  | nil =>
    refine ⟨⟨?_, ?_, ?_⟩, ?_⟩ <;> simp [queueRun, Machine.run]
  | append_singleton events event ih =>
    rw [queueRun_concat]
    exact ih.step event

theorem issued_time {events : List QueueEvent} {mutation : PendingMutation} (h : mutation ∈ (queueRun js events).issued) :
    mutation.enqueuedAtMs ∈ events.filterMap QueueEvent.time := by
  induction events using List.reverseRecOn with
  | nil => cases h
  | append_singleton events event ih =>
    rw [queueRun_concat] at h
    rw [List.filterMap_append, List.mem_append]
    cases event with
    | mutate other nowMs =>
      by_cases hqueues : Queues (queueRun js events).replica other
      · rw [queueStep_mutate nowMs hqueues] at h
        obtain h | h := List.mem_append.mp h
        · exact .inl (ih h)
        · obtain rfl := List.mem_singleton.mp h
          exact .inr (List.mem_singleton_self nowMs)
      · rw [queueStep_refused nowMs hqueues] at h
        exact .inl (ih h)
    | transaction work => exact .inl (ih (List.mem_filter.mp h).1)

theorem pushBatches_issued {limit : Nat} (hjs : js.OrdersIds) (hpos : 0 < limit) (hlimit : limit ≤ 100)
    (events : List QueueEvent) :
    (pushBatches js limit (queueRun js events).replica.pending.size (queueRun js events).replica).flatten =
      (queueRun js events).issued ↔ Ordered js (queueRun js events).issued := by
  have hsound := queueRun_sound js events
  have hlength : ((queueRun js events).replica.queue js).length = (queueRun js events).replica.pending.size := by
    refine (List.length_mergeSort _).trans ?_
    rw [List.length_map, Std.ExtTreeMap.length_toList]
  have hlimit : limit ≤ maxSafeInteger := Nat.le_trans hlimit (by decide)
  rw [flatten_pushBatches hjs hpos hlimit hsound.keyed (Nat.le_of_eq hlength)]
  constructor
  · intro heq
    rw [← heq]
    exact queue_ordered hjs hsound.keyed
  · exact fun hordered => queue_eq_of_ordered hjs hsound.keyed hordered hsound.mem

/-- The id comes after those of the mutations that are pending since the same millisecond. -/
def LastOfItsTime (js : Js) (replica : MemoryReplica) (mutation : SyncMutation) (nowMs : Int) : Prop :=
  ∀ other : PendingMutation, replica.pending[other.mutationId]? = some other → other.enqueuedAtMs = nowMs →
    js.localeCompare other.mutationId mutation.mutationId = .lt

theorem ordered_mutate {events : List QueueEvent} {mutation : SyncMutation} {nowMs : Int}
    (hclock : ((events ++ [QueueEvent.mutate mutation nowMs]).filterMap QueueEvent.time).Pairwise (· ≤ ·))
    (hordered : Ordered js (queueRun js events).issued) :
    Ordered js ((queueRun js events).issued ++ [{ mutation with enqueuedAtMs := nowMs }]) ↔
      LastOfItsTime js (queueRun js events).replica mutation nowMs := by
  have hsound := queueRun_sound js events
  unfold Ordered
  rw [List.pairwise_append]
  constructor
  · rintro ⟨-, -, hlast⟩ other hpending htime
    have hlt := hlast other ((hsound.mem other).mpr hpending) _ (List.mem_singleton_self _)
    unfold pendingOrder at hlt
    rw [htime, show compare nowMs nowMs = .eq from Int.compare_eq_eq.mpr rfl, Ordering.then_eq_lt] at hlt
    obtain hlt | ⟨-, hlt⟩ := hlt
    · cases hlt
    · exact hlt
  · intro hlast
    refine ⟨hordered, List.pairwise_singleton _ _, ?_⟩
    intro other hother last hmem
    obtain rfl := List.mem_singleton.mp hmem
    have hle : other.enqueuedAtMs ≤ nowMs := by
      rw [List.filterMap_append] at hclock
      exact (List.pairwise_append.mp hclock).2.2 _ (issued_time hother) _ (List.mem_singleton_self nowMs)
    refine Ordering.then_eq_lt.mpr ?_
    obtain hlt | heq := Int.lt_or_eq_of_le hle
    · exact .inl (Int.compare_eq_lt.mpr hlt)
    · exact .inr ⟨Int.compare_eq_eq.mpr heq, hlast other ((hsound.mem other).mp hother) heq⟩

/-- The mutations that are pending together are pushed in the order they were made, throughout a run, exactly if each
mutation has an id after those that are pending since the same millisecond. -/
theorem pushed_in_order_iff (js : Js) (hjs : js.OrdersIds) (events : List QueueEvent) (limit : Nat) (hpos : 0 < limit)
    (hlimit : limit ≤ 100) (hclock : (events.filterMap QueueEvent.time).Pairwise (· ≤ ·)) :
    (∀ before, before <+: events →
      (pushBatches js limit (queueRun js before).replica.pending.size (queueRun js before).replica).flatten =
        (queueRun js before).issued) ↔
    ∀ before mutation nowMs, before ++ [.mutate mutation nowMs] <+: events →
      Queues (queueRun js before).replica mutation → LastOfItsTime js (queueRun js before).replica mutation nowMs := by
  simp only [pushBatches_issued hjs hpos hlimit]
  have hclock : ∀ {front : List QueueEvent}, front <+: events →
      (front.filterMap QueueEvent.time).Pairwise (· ≤ ·) := by
    rintro front ⟨rest, rfl⟩
    rw [List.filterMap_append] at hclock
    exact (List.pairwise_append.mp hclock).1
  constructor
  · intro hordered before mutation nowMs hfront hqueues
    have hafter := hordered _ hfront
    rw [queueRun_concat, queueStep_mutate nowMs hqueues] at hafter
    exact (ordered_mutate (hclock hfront) (hordered before ((List.prefix_append _ _).trans hfront))).mp hafter
  · intro hlast before hfront
    induction before using List.reverseRecOn with
    | nil => exact .nil
    | append_singleton before event ih =>
      have hbefore := ih ((List.prefix_append _ _).trans hfront)
      rw [queueRun_concat]
      cases event with
      | mutate mutation nowMs =>
        by_cases hqueues : Queues (queueRun js before).replica mutation
        · rw [queueStep_mutate nowMs hqueues]
          exact (ordered_mutate (hclock hfront) hbefore).mpr (hlast before mutation nowMs hfront hqueues)
        · rwa [queueStep_refused nowMs hqueues]
      | transaction work => exact hbefore.sublist List.filter_sublist

end Run

section Samples

theorem sampleJs_ordersIds : sampleJs.OrdersIds where
  trans := inferInstanceAs (Std.TransCmp fun a b : String => compare a b)
  eq_of_valid _ _ h := Std.LawfulEqOrd.eq_of_compare h

def sampleDeletions (first second : String) : List QueueEvent :=
  [.mutate (sampleDeletion first).toSyncMutation 0, .mutate (sampleDeletion second).toSyncMutation 0]

theorem deletions_pushed_in_order : (queueRun sampleJs (sampleDeletions "a" "b")).replica.pending.size = 2 ∧
    ∀ before, before <+: sampleDeletions "a" "b" →
      (pushBatches sampleJs 1 (queueRun sampleJs before).replica.pending.size
        (queueRun sampleJs before).replica).flatten = (queueRun sampleJs before).issued := by
  refine ⟨by decide +kernel, ?_⟩
  refine (pushed_in_order_iff sampleJs sampleJs_ordersIds (sampleDeletions "a" "b") 1 (by decide) (by decide)
    (by decide)).mpr ?_
  rintro before mutation nowMs ⟨after, hsplit⟩ - other hpending -
  have hmem := ((queueRun_sound sampleJs before).mem other).mpr hpending
  obtain _ | ⟨first, _ | ⟨second, before⟩⟩ := before
  · cases hmem
  · obtain ⟨hfirst, hrest⟩ := List.cons_eq_cons.mp hsplit
    obtain ⟨heq, -⟩ := List.cons_eq_cons.mp hrest
    subst hfirst
    obtain ⟨rfl, -⟩ := QueueEvent.mutate.inj heq
    have hissued : (queueRun sampleJs [.mutate (sampleDeletion "a").toSyncMutation 0]).issued = [sampleDeletion "a"] := by
      decide +kernel
    rw [hissued] at hmem
    obtain rfl := List.mem_singleton.mp hmem
    decide +kernel
  · have hlength := congrArg List.length hsplit
    simp only [sampleDeletions, List.length_append, List.length_cons, List.length_nil] at hlength
    omega

/-- Two mutations in one millisecond, of which the second has the lesser id. -/
theorem mutations_pushed_out_of_order : ¬ ∀ (js : Js), js.OrdersIds → ∀ (events : List QueueEvent) (limit : Nat),
    0 < limit → limit ≤ 100 → (events.filterMap QueueEvent.time).Pairwise (· ≤ ·) → ∀ before, before <+: events →
      (pushBatches js limit (queueRun js before).replica.pending.size (queueRun js before).replica).flatten =
        (queueRun js before).issued := by
  intro h
  have heq := h sampleJs sampleJs_ordersIds (sampleDeletions "b" "a") 1 (by decide) (by decide) (by decide) _
    (List.prefix_refl _)
  have hissued : (queueRun sampleJs (sampleDeletions "b" "a")).issued = [sampleDeletion "b", sampleDeletion "a"] := by
    decide +kernel
  have hordered := (pushBatches_issued sampleJs_ordersIds (by decide) (by decide) _).mp heq
  rw [hissued] at hordered
  have hlt := (List.pairwise_cons.mp hordered).1 _ (List.mem_singleton_self _)
  exact absurd hlt (by decide +kernel)

end Samples

end Ffdb.Client
