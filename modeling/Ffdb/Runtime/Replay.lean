import Ffdb.Runtime.Database

/-! The log of changes as a whole: its numbering, the versions of its keys, and the rows that
it makes when it is replayed over empty tables. -/
namespace Ffdb.Runtime
open Sql Rls Relation
open Sync (Value JsonMap)

def lastChange (changes : List ChangeRow) (name : Identifier) (key : List Char) : Option ChangeRow :=
  changes.reverse.find? fun change => change.table = name ∧ change.primaryKeyJson = key

abbrev Replica := Identifier → List Char → Option JsonMap

/-- An insert or an update stores its values under its key, a delete removes them. -/
def Replica.applyChange (rows : Replica) (change : ChangeRow) : Replica := fun name key =>
  if change.table = name ∧ change.primaryKeyJson = key then change.valuesJson else rows name key

def replay (changes : List ChangeRow) : Replica := changes.foldl Replica.applyChange fun _ _ => none

/-- The ledger of a log: changes are numbered from 1 on without gaps, each is one version above
the previous change of its key, and the last change of every key is noted. -/
structure SyncTables.Ledger (s : SyncTables) : Prop where
  next : s.nextSequence = s.changes.length+1
  sequences : s.changes.map ChangeRow.sequence = List.range' 1 s.changes.length
  rowVersions : ∀ before change after, s.changes = before ++ change :: after →
    change.rowVersion =
      (lastChange before change.table change.primaryKeyJson).elim 0 ChangeRow.rowVersion+1
  versions : ∀ name key, s.versions name key = (lastChange s.changes name key).map fun change =>
    ⟨change.rowVersion, change.sequence, change.operation = .delete⟩

structure SyncTables.Numbered (s : SyncTables) : Prop where
  next : s.nextSequence = s.changes.length+1
  sequences : s.changes.map ChangeRow.sequence = List.range' 1 s.changes.length

theorem SyncTables.Ledger.numbered {s : SyncTables} (h : s.Ledger) : s.Numbered := ⟨h.next, h.sequences⟩

theorem lastChange_append (changes : List ChangeRow) (change : ChangeRow) (name : Identifier)
    (key : List Char) :
    lastChange (changes ++ [change]) name key =
      if change.table = name ∧ change.primaryKeyJson = key then some change
      else lastChange changes name key := by
  rw [lastChange, List.reverse_append, List.reverse_singleton, List.singleton_append, List.find?_cons]
  by_cases hkey : change.table = name ∧ change.primaryKeyJson = key
  · simp [hkey]
  · simp [hkey, lastChange]

variable {doubles : Doubles}

section Capture
variable (s : SyncTables) (context : RequestContext) (table : TableSchema)
  (operation : SyncChangeOperation) (row : Row)

def SyncTables.changeOf (doubles : Doubles) (s : SyncTables) (context : RequestContext)
    (table : TableSchema) (operation : SyncChangeOperation) (row : Row) : ChangeRow where
  sequence := s.nextSequence
  transactionId := context.transactionId
  table := table.name
  primaryKeyJson := capturedKey doubles table row
  operation
  rowVersion := (s.versions table.name (capturedKey doubles table row)).elim 0 VersionRow.rowVersion+1
  valuesJson := if operation = .delete then none else some (rowObject table row)
  tombstoneJson := if operation = .delete then some (rowObject table row) else none
  clientMutationId := context.clientMutationId

theorem capture_changes : (s.capture doubles context table operation row).changes =
    s.changes ++ [s.changeOf doubles context table operation row] := rfl

theorem lastChange_capture (name : Identifier) (key : List Char) :
    lastChange (s.capture doubles context table operation row).changes name key =
      if table.name = name ∧ capturedKey doubles table row = key then
        some (s.changeOf doubles context table operation row)
      else lastChange s.changes name key :=
  lastChange_append s.changes (s.changeOf doubles context table operation row) name key

theorem SyncTables.Ledger.capture {s : SyncTables} (h : s.Ledger) :
    (s.capture doubles context table operation row).Ledger where
  next := by
    rw [capture_changes, List.length_append]
    exact congrArg (·+1) h.next
  sequences := by
    rw [capture_changes, List.map_append, h.sequences, List.length_append, List.length_singleton,
      List.range'_concat]
    simp [SyncTables.changeOf, h.next, Nat.add_comm]
  rowVersions := by
    intro before change after hsplit
    rw [capture_changes] at hsplit
    obtain rfl | ⟨rest, last, rfl⟩ := after.eq_nil_or_concat
    · obtain ⟨rfl, hchange⟩ := List.append_inj' hsplit rfl
      cases hchange
      simp only [SyncTables.changeOf, h.versions]
      cases lastChange s.changes table.name (capturedKey doubles table row) <;> rfl
    · have hsame : s.changes ++ [s.changeOf doubles context table operation row] =
          (before ++ change :: rest) ++ [last] := by simpa using hsplit
      exact h.rowVersions before change rest (List.append_inj' hsame rfl).1
  versions := by
    intro name key
    rw [lastChange_capture]
    by_cases hkey : table.name = name ∧ capturedKey doubles table row = key
    · obtain ⟨rfl, rfl⟩ := hkey
      simp [SyncTables.capture, SyncTables.changeOf]
    · have hkey' : ¬(name = table.name ∧ key = capturedKey doubles table row) :=
        fun h => hkey ⟨h.1.symm, h.2.symm⟩
      rw [if_neg hkey, ← h.versions]
      simp only [SyncTables.capture, if_neg hkey']

/-- A change decides for its own key alone. -/
theorem replay_capture (name : Identifier) (key : List Char) :
    replay (s.capture doubles context table operation row).changes name key =
      if table.name = name ∧ capturedKey doubles table row = key then
        if operation = .delete then none else some (rowObject table row)
      else replay s.changes name key := by
  rw [capture_changes, replay, List.foldl_append]
  rfl

end Capture

end Ffdb.Runtime
