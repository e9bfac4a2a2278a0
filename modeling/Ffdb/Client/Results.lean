import Mathlib.Data.List.Perm.Subperm
import Ffdb.Client.Runs

/-! Results of a push: they are refused as a whole, or each of them settles the mutation it is about. -/
namespace Ffdb.Client
open Turns

section Accepted
variable {js : Js} {replica replica' : MemoryReplica} {pendingIds returnedIds : List String} {nowMs : Int}
  {result : SyncMutationResult} {results : List SyncMutationResult} {requires answer : Bool}

theorem consumeResult_ok
    (h : (consumeResult pendingIds returnedIds nowMs result).run (MemoryReplica.perform js) replica =
      (replica', .ok answer)) : result.mutationId ∈ pendingIds ∧ result.mutationId ∉ returnedIds := by
  unfold consumeResult at h
  by_cases hknown : result.mutationId ∈ pendingIds
  · refine ⟨hknown, fun hreturned => ?_⟩
    rw [if_pos hknown, if_pos hreturned] at h
    cases h
  · rw [if_neg hknown] at h
    cases h

/-- Results that are taken are about known mutations, each about another. -/
theorem consumeResults_ok
    (h : (consumeResults pendingIds nowMs returnedIds requires results).run (MemoryReplica.perform js) replica =
      (replica', .ok answer)) :
    (∀ result ∈ results, result.mutationId ∈ pendingIds ∧ result.mutationId ∉ returnedIds) ∧
      (results.map (·.mutationId)).Nodup := by
  induction results generalizing replica returnedIds requires with
  | nil =>
    refine ⟨fun other hnone => ?_, List.nodup_nil⟩
    cases hnone
  | cons result results ih =>
    unfold consumeResults at h
    obtain ⟨middle, snapshot, hfirst, hlater⟩ := run_bind_ok h
    obtain ⟨hrest, hnodup⟩ := ih hlater
    refine ⟨?_, List.nodup_cons.mpr ⟨?_, hnodup⟩⟩
    · intro other hmem
      obtain rfl | hmem := List.mem_cons.mp hmem
      · exact consumeResult_ok hfirst
      · exact ⟨(hrest other hmem).1, fun hold => (hrest other hmem).2 (List.mem_cons_of_mem _ hold)⟩
    · intro hagain
      obtain ⟨other, hmem, heq⟩ := List.mem_map.mp hagain
      exact (hrest other hmem).2 (heq ▸ List.mem_cons_self)

end Accepted

section Batch
variable {js : Js} {replica replica' : MemoryReplica} {batch : List PendingMutation} {nowMs : Int}
  {results : List SyncMutationResult} {answer : Bool}

/-- Results for each of the mutations, once, in any order, settle the batch. -/
theorem consumePushResults_perm (js : Js) (replica : MemoryReplica) (nowMs : Int)
    (h : (results.map (·.mutationId)).Perm ((batch.map (·.mutationId)).dedup)) :
    (consumePushResults batch results nowMs).run (MemoryReplica.perform js) replica =
      (settleBatch nowMs replica results, .ok (requiresSnapshot results)) := by
  have hlength : results.length = ((batch.map (·.mutationId)).dedup).length := by
    rw [← h.length_eq, List.length_map]
  unfold consumePushResults settleBatch
  dsimp only
  rw [if_pos hlength, run_bind, consumeResults_run]
  · dsimp only
    rw [Bool.or_false]
    cases requiresSnapshot results <;> rfl
  · exact fun result hmem => h.subset (List.mem_map_of_mem hmem)
  · exact h.nodup_iff.mpr (List.nodup_dedup _)
  · exact fun _ _ => List.not_mem_nil

/-- Nothing else is taken. -/
theorem consumePushResults_ok
    (h : (consumePushResults batch results nowMs).run (MemoryReplica.perform js) replica = (replica', .ok answer)) :
    (results.map (·.mutationId)).Perm ((batch.map (·.mutationId)).dedup) := by
  unfold consumePushResults at h
  dsimp only at h
  by_cases hlength : results.length = ((batch.map (·.mutationId)).dedup).length
  · rw [if_pos hlength] at h
    obtain ⟨middle, _, hresults, -⟩ := run_bind_ok h
    obtain ⟨hknown, hnodup⟩ := consumeResults_ok hresults
    have hsubset : results.map (·.mutationId) ⊆ (batch.map (·.mutationId)).dedup := by
      intro id hid
      obtain ⟨result, hmem, rfl⟩ := List.mem_map.mp hid
      exact (hknown result hmem).1
    exact (List.subperm_of_subset hnodup hsubset).perm_of_length_le (by rw [List.length_map, hlength])
  · rw [if_neg hlength] at h
    cases h

end Batch

section Settled
variable {replica : MemoryReplica} {nowMs : Int} {results : List SyncMutationResult}

def rejectedAs (nowMs : Int) (result : SyncMutationResult) (mutation : PendingMutation) : RejectedMutation :=
  { mutation with errorCode := result.errorCode.getD "sync.rejected", rejectedAtMs := nowMs }

theorem rows_settled (nowMs : Int) (replica : MemoryReplica) (results : List SyncMutationResult) :
    (results.foldl (settleResult nowMs) replica).rows = replica.rows ∧
      (results.foldl (settleResult nowMs) replica).cursor = replica.cursor := by
  induction results generalizing replica with
  | nil => exact ⟨rfl, rfl⟩
  | cons result results ih =>
    have hfirst : (settleResult nowMs replica result).rows = replica.rows ∧
        (settleResult nowMs replica result).cursor = replica.cursor := by
      unfold settleResult MemoryReplica.rejectPending
      cases result.status with
      | rejected => cases replica.pending[result.mutationId]? <;> exact ⟨rfl, rfl⟩
      | _ => exact ⟨rfl, rfl⟩
    rw [List.foldl_cons, (ih _).1, (ih _).2]
    exact hfirst

theorem rejected_settleResult_eq (nowMs : Int) (replica : MemoryReplica) (result : SyncMutationResult) (id : String) :
    (settleResult nowMs replica result).rejected[id]? =
      if result.status = .rejected ∧ result.mutationId = id then
        ((replica.pending[id]?).map (rejectedAs nowMs result)).or replica.rejected[id]?
      else replica.rejected[id]? := by
  unfold settleResult MemoryReplica.rejectPending
  cases hstatus : result.status with
  | rejected =>
    dsimp only
    by_cases hid : result.mutationId = id
    · rw [if_pos ⟨rfl, hid⟩, ← hid]
      cases hpending : replica.pending[result.mutationId]? with
      | none => rfl
      | some mutation => exact Std.ExtTreeMap.getElem?_insert_self
    · rw [if_neg fun h => hid h.2]
      cases replica.pending[result.mutationId]? with
      | none => rfl
      | some mutation => exact getElem?_insert_of_ne _ hid
  | _ => exact (if_neg fun h => by cases h.1).symm

theorem rejected_unsettled (nowMs : Int) (replica : MemoryReplica) {id : String}
    (h : ∀ result ∈ results, result.status = .rejected → result.mutationId ≠ id) :
    (results.foldl (settleResult nowMs) replica).rejected[id]? = replica.rejected[id]? := by
  induction results generalizing replica with
  | nil => rfl
  | cons result results ih =>
    rw [List.foldl_cons, ih _ fun other hmem => h other (List.mem_cons_of_mem _ hmem), rejected_settleResult_eq,
      if_neg fun hthis => h result List.mem_cons_self hthis.1 hthis.2]

theorem rejected_settled_eq (nowMs : Int) (replica : MemoryReplica) (hnodup : (results.map (·.mutationId)).Nodup)
    {result : SyncMutationResult} (hmem : result ∈ results) (hrejected : result.status = .rejected) :
    (results.foldl (settleResult nowMs) replica).rejected[result.mutationId]? =
      ((replica.pending[result.mutationId]?).map (rejectedAs nowMs result)).or replica.rejected[result.mutationId]? := by
  induction results generalizing replica with
  | nil => cases hmem
  | cons first results ih =>
    obtain ⟨hfirst, hnodup⟩ := List.nodup_cons.mp hnodup
    rw [List.foldl_cons]
    obtain rfl | hmem := List.mem_cons.mp hmem
    · rw [rejected_unsettled, rejected_settleResult_eq, if_pos ⟨hrejected, rfl⟩]
      exact fun other hother _ heq => hfirst (List.mem_map.mpr ⟨other, hother, heq⟩)
    · have hne : first.mutationId ≠ result.mutationId := fun heq =>
        hfirst (List.mem_map.mpr ⟨result, hmem, heq.symm⟩)
      rw [ih _ hnodup hmem, pending_settleResult, if_neg hne, rejected_settleResult_eq, if_neg fun h => hne h.2]

end Settled

section Claim

/-- A transaction with the results of a push throws and leaves the replica as it is exactly when they are not about the
pending mutations, each once; otherwise it takes these off the queue, keeps the rejected ones as such, and gives up the
cursor exactly when one was not applied. -/
theorem consumePushResults_exact (js : Js) (replica : MemoryReplica) (batch : List PendingMutation)
    (results : List SyncMutationResult) (nowMs : Int) :
    let pendingIds := (batch.map (·.mutationId)).dedup
    let after := (consumePushResults batch results nowMs).transact (MemoryReplica.perform js) replica
    ((∃ error, after = (replica, .error error)) ↔ ¬(results.map (·.mutationId)).Perm pendingIds) ∧
      ((results.map (·.mutationId)).Perm pendingIds →
        after.2 = .ok (requiresSnapshot results) ∧ after.1.rows = replica.rows ∧
          (after.1.cursor = if ∃ result ∈ results, result.status ≠ .applied then none else replica.cursor) ∧
          (∀ id, after.1.pending[id]? = if id ∈ pendingIds then none else replica.pending[id]?) ∧
          (∀ result ∈ results, result.status = .rejected → after.1.rejected[result.mutationId]? =
            ((replica.pending[result.mutationId]?).map (rejectedAs nowMs result)).or
              replica.rejected[result.mutationId]?) ∧
          ∀ id, (∀ result ∈ results, result.status = .rejected → result.mutationId ≠ id) →
            after.1.rejected[id]? = replica.rejected[id]?) := by
  intro pendingIds after
  by_cases hperm : (results.map (·.mutationId)).Perm pendingIds
  · have hrun := consumePushResults_perm js replica nowMs hperm
    have hafter : after = (settleBatch nowMs replica results, .ok (requiresSnapshot results)) := by
      unfold after Work.transact
      rw [hrun]
    have hrequires : requiresSnapshot results = true ↔ ∃ result ∈ results, result.status ≠ .applied := by
      simp [requiresSnapshot]
    rw [hafter]
    refine ⟨iff_of_false ?_ (not_not.mpr hperm), fun _ => ⟨rfl, ?_, ?_, ?_, ?_, ?_⟩⟩
    · rintro ⟨error, herror⟩
      cases (Prod.mk.inj herror).2
    · unfold settleBatch
      split <;> exact (rows_settled nowMs replica results).1
    · unfold settleBatch
      by_cases hall : ∃ result ∈ results, result.status ≠ .applied
      · rw [if_pos hall, if_pos (hrequires.mpr hall)]
      · rw [if_neg hall, if_neg fun h => hall (hrequires.mp h)]
        exact (rows_settled nowMs replica results).2
    · intro id
      rw [pending_settleBatch, pending_settled]
      exact if_congr hperm.mem_iff rfl rfl
    · intro result hmem hrejected
      rw [rejected_settleBatch]
      exact rejected_settled_eq nowMs replica (hperm.nodup_iff.mpr (List.nodup_dedup _)) hmem hrejected
    · intro id hid
      rw [rejected_settleBatch]
      exact rejected_unsettled nowMs replica hid
  · refine ⟨iff_of_true ?_ hperm, fun h => absurd h hperm⟩
    unfold after Work.transact
    split
    next replica' answer hrun => exact absurd (consumePushResults_ok hrun) hperm
    next error hrun => exact ⟨error, rfl⟩

end Claim

end Ffdb.Client
