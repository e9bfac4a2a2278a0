import Ffdb.Client.Replica
import Mathlib.Data.List.Basic

/-! The keys under which batches of mutations are pushed. -/
namespace Ffdb.Client
open Sync

def isIdChar (c : Char) : Bool := c.isAlphanum || c ∈ ['.', '_', ':', '-']

/-- `/^[A-Za-z0-9._:-]{1,200}$/` -/
def validMutationId (id : String) : Bool := 0 < id.length && id.length ≤ 200 && id.toList.all isIdChar

/-- `/^[A-Za-z_][A-Za-z0-9_]*$/`, and no table of the database's own. -/
def validTable (table : String) : Bool :=
  match table.toList with
  | [] => false
  | c :: cs => (c.isAlpha || c = '_') && cs.all (fun c => c.isAlphanum || c = '_') && !table.startsWith "__ffdb_"

def validateMutation (mutation : SyncMutation) : Except String Unit :=
  if !validMutationId mutation.mutationId then .error "mutation_id is invalid"
  else if !validTable mutation.table then .error "table is invalid"
  else if mutation.operation ≠ .delete ∧ mutation.values = none then
    .error (mutation.operation.text ++ " mutation values are required")
  else .ok ()

def batchIdempotencyKey (mutations : List PendingMutation) : String :=
  String.ofList (("sync-" ++ "-".intercalate (mutations.map (·.mutationId))).toList.take 240)

def batchWords (mutations : List PendingMutation) : List (List Char) :=
  mutations.flatMap fun mutation => mutation.mutationId.toList.splitOn '-'

def joinedIds (mutations : List PendingMutation) : List Char :=
  ['-'].intercalate (mutations.map (·.mutationId.toList))

theorem splitOn_intercalate_flatMap (words : List (List Char)) (h : words ≠ []) :
    (['-'].intercalate words).splitOn '-' = words.flatMap (·.splitOn '-') := by
  induction words with
  | nil => exact absurd rfl h
  | cons word words ih =>
    cases words with
    | nil => simp
    | cons other words =>
      rw [List.intercalate_cons_cons, List.append_assoc, List.singleton_append, List.splitOn_append_cons_self,
        ih (List.cons_ne_nil other words)]
      rfl

theorem splitOn_joinedIds {mutations : List PendingMutation} (h : mutations ≠ []) :
    (joinedIds mutations).splitOn '-' = batchWords mutations := by
  unfold joinedIds batchWords
  rw [splitOn_intercalate_flatMap _ (by simpa using h), List.flatMap_map]

theorem joinedIds_eq_iff {a b : List PendingMutation} (ha : a ≠ []) (hb : b ≠ []) :
    joinedIds a = joinedIds b ↔ batchWords a = batchWords b := by
  constructor
  · intro heq
    rw [← splitOn_joinedIds ha, ← splitOn_joinedIds hb, heq]
  · intro heq
    calc joinedIds a = ['-'].intercalate ((joinedIds a).splitOn '-') := (List.intercalate_splitOn '-').symm
      _ = ['-'].intercalate ((joinedIds b).splitOn '-') := by rw [splitOn_joinedIds ha, splitOn_joinedIds hb, heq]
      _ = joinedIds b := List.intercalate_splitOn '-'

theorem key_toList (mutations : List PendingMutation) :
    (batchIdempotencyKey mutations).toList = "sync-".toList ++ (joinedIds mutations).take 235 := by
  unfold batchIdempotencyKey joinedIds
  rw [String.toList_ofList, String.toList_append, String.toList_intercalate, List.map_map, List.take_append]
  rfl

theorem key_eq_iff {a b : List PendingMutation} :
    batchIdempotencyKey a = batchIdempotencyKey b ↔ (joinedIds a).take 235 = (joinedIds b).take 235 := by
  rw [← String.toList_inj, key_toList, key_toList, List.append_cancel_left_eq]

/-- Two texts have a front of that length in common if they are the same, or both go on after it. -/
theorem take_eq_take_iff {α : Type} {xs ys : List α} {n : Nat} :
    xs.take n = ys.take n ↔ xs = ys ∨ n ≤ xs.length ∧ n ≤ ys.length ∧ xs.take n = ys.take n := by
  constructor
  · intro heq
    have hlength := congrArg List.length heq
    rw [List.length_take, List.length_take] at hlength
    by_cases hlong : n ≤ xs.length
    · exact .inr ⟨hlong, by omega, heq⟩
    · rw [List.take_of_length_le (by omega), List.take_of_length_le (by omega)] at heq
      exact .inl heq
  · rintro (rfl | ⟨-, -, heq⟩)
    · rfl
    · exact heq

def CutAlike (a b : List PendingMutation) : Prop :=
  235 ≤ (joinedIds a).length ∧ 235 ≤ (joinedIds b).length ∧ (joinedIds a).take 235 = (joinedIds b).take 235

/-- Batches share a key for other ids exactly if their ids are made of the same words or are cut off alike. -/
theorem batch_keys_distinct_iff (a b : List PendingMutation) (ha : a ≠ []) (hb : b ≠ []) :
    (batchIdempotencyKey a = batchIdempotencyKey b → a.map (·.mutationId) = b.map (·.mutationId)) ↔
      (a.map (·.mutationId) = b.map (·.mutationId) ∨ batchWords a ≠ batchWords b ∧ ¬CutAlike a b) := by
  have hkey : batchIdempotencyKey a = batchIdempotencyKey b ↔ batchWords a = batchWords b ∨ CutAlike a b := by
    rw [key_eq_iff, take_eq_take_iff, joinedIds_eq_iff ha hb]
    rfl
  rw [hkey]
  tauto

section Samples

def sampleDeletion (mutationId : String) : PendingMutation where
  mutationId := mutationId
  table := "notes"
  primaryKey := .string "a"
  operation := .delete
  values := none
  baseRowVersion := none
  clientTimestampMs := none
  enqueuedAtMs := 0

theorem deletions_distinct :
    [sampleDeletion "a:b"].map (·.mutationId) ≠ [sampleDeletion "a", sampleDeletion "b"].map (·.mutationId) ∧
      (batchIdempotencyKey [sampleDeletion "a:b"] = batchIdempotencyKey [sampleDeletion "a", sampleDeletion "b"] →
        [sampleDeletion "a:b"].map (·.mutationId) = [sampleDeletion "a", sampleDeletion "b"].map (·.mutationId)) :=
  ⟨by decide, (batch_keys_distinct_iff _ _ (by simp) (by simp)).mpr
    (.inr ⟨by decide, fun h => absurd h.1 (by decide)⟩)⟩

/-- One mutation with a joiner in its id, and two mutations. -/
theorem batch_keys_collide : ¬ ∀ a b : List PendingMutation, a ≠ [] → b ≠ [] →
    (∀ mutation ∈ a ++ b, validateMutation mutation.toSyncMutation = .ok ()) →
    batchIdempotencyKey a = batchIdempotencyKey b → a.map (·.mutationId) = b.map (·.mutationId) := by
  intro h
  have hids := h [sampleDeletion "a-b"] [sampleDeletion "a", sampleDeletion "b"] (by simp) (by simp)
    (by decide) (by decide)
  exact absurd hids (by decide)

end Samples

end Ffdb.Client
