import Ffdb.Client.Replica

/-! What the operations of the replica in memory look at and change. -/
namespace Ffdb.Client
open Turns Sync

inductive Part where
  | row (key : String)
  | pending (mutationId : String)
  | rejected (mutationId : String)
  | cursor

def Part.Cell : Part → Type
  | .row _ => Option ReplicaRecord
  | .pending _ => Option PendingMutation
  | .rejected _ => Option RejectedMutation
  | .cursor => Option Position

namespace MemoryReplica

def view (replica : MemoryReplica) : (part : Part) → part.Cell
  | .row key => replica.rows[key]?
  | .pending mutationId => replica.pending[mutationId]?
  | .rejected mutationId => replica.rejected[mutationId]?
  | .cursor => replica.cursor

end MemoryReplica

section Parts

theorem getElem?_insert_of_ne {α : Type} (map : Map α) {key other : String} {value : α} (h : key ≠ other) :
    (map.insert key value)[other]? = map[other]? := by
  rw [Std.ExtTreeMap.getElem?_insert, if_neg (by simpa using h)]

theorem getElem?_erase_of_ne {α : Type} (map : Map α) {key other : String} (h : key ≠ other) :
    (map.erase key)[other]? = map[other]? := by
  rw [Std.ExtTreeMap.getElem?_erase, if_neg (by simpa using h)]

theorem getElem?_removed (ids : List String) (pending : Map PendingMutation) (id : String) :
    (ids.foldl (fun pending id => pending.erase id) pending)[id]? = if id ∈ ids then none else pending[id]? := by
  induction ids generalizing pending with
  | nil => simp
  | cons other ids ih =>
    rw [List.foldl_cons, ih, Std.ExtTreeMap.getElem?_erase]
    by_cases hmem : id ∈ ids
    · simp [hmem]
    · by_cases hid : id = other
      · simp [hid]
      · simp [hid, hmem, Ne.symm hid]

theorem pending_rejectPending (replica : MemoryReplica) (mutationId : String) {errorCode : String} {nowMs : Int} :
    (replica.rejectPending mutationId errorCode nowMs).pending[mutationId]? = none := by
  unfold MemoryReplica.rejectPending
  split
  next hnone => exact hnone
  next => simp

theorem view_rejectPending_of_ne (replica : MemoryReplica) {mutationId errorCode : String} {nowMs : Int} {part : Part}
    (hpart : part ∉ ({.pending mutationId, .rejected mutationId} : Set Part)) :
    (replica.rejectPending mutationId errorCode nowMs).view part = replica.view part := by
  unfold MemoryReplica.rejectPending
  split
  · rfl
  · cases part with
    | row key => rfl
    | pending id =>
      have hid : mutationId ≠ id := fun heq => hpart (heq ▸ .inl rfl)
      exact getElem?_erase_of_ne replica.pending hid
    | rejected id =>
      have hid : mutationId ≠ id := fun heq => hpart (heq ▸ .inr rfl)
      exact getElem?_insert_of_ne replica.rejected hid
    | cursor => rfl

/-- What a transaction is given to do; only enqueueing does the rest. -/
def ReplicaOp.Offered : ReplicaOp → Prop
  | .findPending _ | .findRejected _ | .setPending _ => False
  | _ => True

def applyUnder (change : LogicalChange) (primaryKey : Value) : Transaction Unit :=
  match change.operation with
  | .delete => Transaction.delete change.table primaryKey change.sequence
  | _ =>
    match change.values with
    | none => .fail "Upsert change is missing values"
    | some values => Transaction.upsert ⟨change.table, primaryKey, values, change.rowVersion, change.sequence⟩

end Parts

section Samples

def sampleJs : Js where
  stringify
    | .string text => "\"" ++ text ++ "\""
    | _ => "null"
  parse text := some (.string text)
  localeCompare := compare
  number _ := 0

end Samples

end Ffdb.Client
