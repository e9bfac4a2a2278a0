import Mathlib.Data.List.Induction
import Ffdb.Sync.Ledger
import Ffdb.Sync.Wire

/-! Row versions and sequences along a run: they grow together for as long as
compaction does not drop the row's expired tombstone. -/
namespace Ffdb.Sync
open Saturating Fallible
variable {crates : Crates}

def Entry.sequence? : Entry → Option Nat
  | .committed _ _ receipt => some receipt.sequence
  | .dropped _ => none

def sequences (history : List Entry) : List Nat := history.filterMap Entry.sequence?

structure Numbered (start : SyncEngine) (history : List Entry) (engine : SyncEngine) : Prop where
  grows : start.state.nextSequence ≤ engine.state.nextSequence
  increasing : engine.state.nextSequence < u64Max → (sequences history).Pairwise (· < ·)
  within : engine.state.nextSequence < u64Max → ∀ sequence ∈ sequences history,
    start.state.nextSequence ≤ sequence ∧ sequence < engine.state.nextSequence

theorem Numbered.trans {e f g : SyncEngine} {h h' : List Entry} (hl : Numbered e h f)
    (hr : Numbered f h' g) : Numbered e (h ++ h') g := by
  have hgl := hl.grows
  have hgr := hr.grows
  refine ⟨hgl.trans hgr, fun hmax => ?_, fun hmax => ?_⟩
  · have hmid : f.state.nextSequence < u64Max := lt_of_le_of_lt hgr hmax
    rw [sequences, List.filterMap_append]
    refine List.pairwise_append.mpr ⟨hl.increasing hmid, hr.increasing hmax, ?_⟩
    intro a ha b hb
    have := (hl.within hmid a ha).2
    have := (hr.within hmax b hb).1
    omega
  · have hmid : f.state.nextSequence < u64Max := lt_of_le_of_lt hgr hmax
    intro sequence hs
    rw [sequences, List.filterMap_append, List.mem_append] at hs
    rcases hs with hs | hs
    · have := hl.within hmid sequence hs
      omega
    · have := hr.within hmax sequence hs
      omega

theorem numbered_nil {start engine : SyncEngine}
    (h : start.state.nextSequence ≤ engine.state.nextSequence) : Numbered start [] engine :=
  ⟨h, fun _ => by simp [sequences], fun _ => by simp [sequences]⟩

/-- Calls that commit nothing draw no sequence. -/
theorem Call.nextSequence_cases (crates : Crates) (call : Call) :
    (call.entries crates = [] ∧
      (call.after crates).state.nextSequence = call.engine.state.nextSequence) ∨
    ∃ key receipt, call.entries crates = [.committed call.mutation key receipt] ∧
      rowKey crates call.mutation.table call.mutation.primaryKey = .ok key ∧
      receipt.sequence = call.engine.state.nextSequence ∧
      (call.after crates).state.nextSequence = succ call.engine.state.nextSequence := by
  rcases call.cases crates with ⟨error, hr, ha⟩ | ⟨hash, key, record, _, _, _, _, hr, ha⟩ |
    ⟨hr, ha⟩ | ⟨hash, key, ht, _, _, _, hr, ha⟩
  · exact .inl ⟨Call.entries_error hr, by rw [ha]⟩
  · exact .inl ⟨Call.entries_duplicate hr, by rw [ha]⟩
  · exact .inl ⟨Call.entries_error hr, by rw [ha]; rfl⟩
  · exact .inr ⟨key, _, Call.entries_commit ht hr, (mutationTarget_ok ht).2.2, rfl,
      by rw [ha]; rfl⟩

theorem numbered_call (call : Call) :
    Numbered call.engine (call.entries crates) (call.after crates) := by
  rcases call.nextSequence_cases crates with ⟨he, hn⟩ | ⟨key, receipt, he, _, hs, hn⟩
  · rw [he]
    exact numbered_nil hn.ge
  · rw [he]
    refine ⟨by rw [hn]; exact le_succ _, fun _ => by simp [sequences, Entry.sequence?], ?_⟩
    intro hmax sequence hmem
    rw [hn] at hmax ⊢
    have hlt := lt_of_succ_lt hmax
    rw [succ_of_lt hlt]
    simp only [sequences, Entry.sequence?, List.filterMap_cons, List.filterMap_nil,
      List.mem_singleton] at hmem
    omega

theorem sequences_dropped (engine : SyncEngine) (nowMs : Int64) :
    sequences (engine.droppedEntries nowMs) = [] := by
  simp [sequences, SyncEngine.droppedEntries, Entry.sequence?]

theorem numbered_related :
    Related crates (fun _ => True) (Call.entries crates) SyncEngine.droppedEntries Numbered where
  refl _ := numbered_nil le_rfl
  trans := Numbered.trans
  ticket _ := numbered_nil le_rfl
  call call _ := numbered_call call
  announced _ _ _ _ _ _ := numbered_nil (le_succ _)
  compact engine nowMs _ :=
    ⟨le_rfl, fun _ => by simp [sequences_dropped], fun _ => by simp [sequences_dropped]⟩

theorem numbered_run (crates : Crates) (engine : SyncEngine) (ops : List Op) :
    Numbered engine (engine.history crates ops) (engine.run crates ops) :=
  numbered_related.run engine ops fun _ _ => trivial

def Keyed (crates : Crates) (_ : SyncEngine) (history : List Entry) (_ : SyncEngine) : Prop :=
  ∀ mutation key receipt, Entry.committed mutation key receipt ∈ history →
    rowKey crates mutation.table mutation.primaryKey = .ok key

theorem keyed_related :
    Related crates (fun _ => True) (Call.entries crates) SyncEngine.droppedEntries (Keyed crates) where
  refl _ := by simp [Keyed]
  trans hl hr := by
    intro mutation key receipt hmem
    rcases List.mem_append.mp hmem with hmem | hmem
    · exact hl mutation key receipt hmem
    · exact hr mutation key receipt hmem
  ticket _ := by simp [Keyed]
  call call _ := by
    intro mutation key receipt hmem
    rcases call.nextSequence_cases crates with ⟨he, _⟩ | ⟨key', _, he, hk, _⟩
    · simp [he] at hmem
    · simp only [he, List.mem_singleton, Entry.committed.injEq] at hmem
      obtain ⟨rfl, rfl, rfl⟩ := hmem
      exact hk
  announced _ _ _ _ _ _ := by simp [Keyed]
  compact _ _ _ := by simp [Keyed]

theorem keyed_run (crates : Crates) (engine : SyncEngine) (ops : List Op) :
    Keyed crates engine (engine.history crates ops) (engine.run crates ops) :=
  keyed_related.run engine ops fun _ _ => trivial

section Ledger
variable {start engine : SyncEngine} {before mid after : List Entry} {key : String}

theorem ledger_snoc (entries : List Entry) (entry : Entry) (current : Option (Nat × Nat)) :
    ledger key (entries ++ [entry]) current = entry.record key (ledger key entries current) := by
  simp [ledger]

/-- Until the row is dropped, the ledger never falls below a version it has recorded. -/
theorem Refines.ledger_ge {mutation : ClientMutation} {receipt : MutationReceipt}
    (h : Refines start (before ++ .committed mutation key receipt :: (mid ++ after)) engine)
    (hdrop : .dropped key ∉ mid) :
    ∃ version sequence, receipt.rowVersion ≤ version ∧
      ledger key (before ++ .committed mutation key receipt :: mid) (start.versionOf key) =
        some (version, sequence) := by
  induction mid using List.reverseRecOn generalizing after with
  | nil =>
    refine ⟨receipt.rowVersion, receipt.sequence, le_rfl, ?_⟩
    rw [ledger_snoc]
    simp [Entry.record]
  | append_singleton mid entry ih =>
    have hearlier : Refines start (before ++ .committed mutation key receipt ::
        (mid ++ entry :: after)) engine := by simpa using h
    obtain ⟨version, sequence, hle, hl⟩ := ih hearlier fun hm => hdrop (by simp [hm])
    have hsplit : before ++ .committed mutation key receipt :: (mid ++ [entry]) =
        (before ++ .committed mutation key receipt :: mid) ++ [entry] := by simp
    rw [hsplit, ledger_snoc, hl]
    cases entry with
    | dropped key' =>
      have hk : key' ≠ key := fun he => hdrop (by simp [he])
      exact ⟨version, sequence, hle, by simp [Entry.record, hk]⟩
    | committed mutation' key' receipt' =>
      by_cases hk : key' = key
      · subst hk
        refine ⟨receipt'.rowVersion, receipt'.sequence, ?_, by simp [Entry.record]⟩
        rw [h.versions (before ++ .committed mutation key' receipt :: mid) mutation' key' receipt'
          after (by simp), hl]
        exact hle.trans (le_succ version)
      · exact ⟨version, sequence, hle, by simp [Entry.record, hk]⟩

end Ledger

/-- Two commits to one row carry increasing sequences, and increasing versions unless a
compaction dropped the row's tombstone between them. After such a drop the next commit
starts again at version one. -/
theorem row_versions_increase_between_drops (engine : SyncEngine) (ops : List Op)
    (before mid after : List Entry) (first second : ClientMutation) (key key' : String)
    (receipt receipt' : MutationReceipt)
    (hsplit : engine.history crates ops = before ++ .committed first key receipt ::
      (mid ++ .committed second key' receipt' :: after))
    (hrow : first.table = second.table ∧ first.primaryKey = second.primaryKey)
    (hsequence : (engine.run crates ops).state.nextSequence < u64Max)
    (hversion : receipt'.rowVersion < u64Max) :
    receipt.sequence < receipt'.sequence ∧
    (.dropped key ∉ mid → receipt.rowVersion < receipt'.rowVersion) ∧
    (.dropped key ∈ mid → (∀ mutation receipt, .committed mutation key receipt ∉ mid) →
      receipt'.rowVersion = 1) := by
  have hkeyed := keyed_run crates engine ops
  have hkey : rowKey crates first.table first.primaryKey = .ok key :=
    hkeyed first key receipt (by simp [hsplit])
  have hkey' : rowKey crates second.table second.primaryKey = .ok key' :=
    hkeyed second key' receipt' (by simp [hsplit])
  rw [hrow.1, hrow.2, hkey'] at hkey
  cases hkey
  have hrefines := refines_run crates engine ops
  have hversions := hrefines.versions (before ++ .committed first key receipt :: mid) second key
    receipt' after (by simp [hsplit])
  refine ⟨?_, ?_, ?_⟩
  · have hincreasing := (numbered_run crates engine ops).increasing hsequence
    rw [hsplit] at hincreasing
    simp only [sequences, List.filterMap_append, List.filterMap_cons, Entry.sequence?] at hincreasing
    obtain ⟨_, htail, _⟩ := List.pairwise_append.mp hincreasing
    exact (List.pairwise_cons.mp htail).1 receipt'.sequence (by simp)
  · intro hdrop
    rw [hsplit] at hrefines
    obtain ⟨version, sequence, hle, hledger⟩ := hrefines.ledger_ge hdrop
    rw [hledger] at hversions
    change receipt'.rowVersion = succ version at hversions
    have hlt : version < u64Max := lt_of_succ_lt (hversions ▸ hversion)
    rw [succ_of_lt hlt] at hversions
    omega
  · intro hdrop hcommit
    have hnone := (ledger_of_no_commit _ _ hcommit (ledger key
      (before ++ [.committed first key receipt]) (engine.versionOf key))).1 hdrop
    rw [ledger, ledger, ← List.foldl_append, List.append_assoc, List.singleton_append] at hnone
    rw [ledger, hnone] at hversions
    exact hversions

section Runs

/-- Create a row, delete it, compact after the tombstone expired, create it again. -/
def recreated : List Op :=
  [pushAs alice (sampleUpsert "m1" "a" "alice") 0, pushAs alice (sampleDelete "m2" "a") 10,
   .compact 200, pushAs alice (sampleUpsert "m3" "a" "alice") 210]

def recreatedCrates : Crates :=
  .listing [sampleEngine.claims alice 1 0, sampleEngine.claims alice 2 10,
    sampleEngine.claims alice 3 210] []

def recreatedKey : String := "docs" ++ String.ofList [unitSeparator] ++ renderString "a"

def recreatedHistory : List Entry :=
  [.committed (sampleUpsert "m1" "a" "alice") recreatedKey ⟨"m1", 1, 1, .applied⟩,
   .committed (sampleDelete "m2" "a") recreatedKey ⟨"m2", 2, 2, .applied⟩,
   .dropped recreatedKey,
   .committed (sampleUpsert "m3" "a" "alice") recreatedKey ⟨"m3", 3, 1, .applied⟩]

theorem history_recreated : sampleEngine.history recreatedCrates recreated = recreatedHistory := by
  decide +kernel

theorem run_recreated :
    (sampleEngine.run recreatedCrates recreated).state.nextSequence < u64Max := by
  decide +kernel

/-- Without a drop versions grow (one to two), after it they start again (two to one). -/
theorem row_versions_of_recreated :
    (1 < 2 ∧ (.dropped recreatedKey ∉ ([] : List Entry) → 1 < 2) ∧
      (.dropped recreatedKey ∈ ([] : List Entry) →
        (∀ mutation receipt, .committed mutation recreatedKey receipt ∉ ([] : List Entry)) →
        2 = 1)) ∧
    (2 < 3 ∧ (.dropped recreatedKey ∉ [Entry.dropped recreatedKey] → 2 < 1) ∧
      (.dropped recreatedKey ∈ [Entry.dropped recreatedKey] →
        (∀ mutation receipt,
          .committed mutation recreatedKey receipt ∉ [Entry.dropped recreatedKey]) →
        1 = 1)) :=
  ⟨row_versions_increase_between_drops sampleEngine recreated [] []
      [.dropped recreatedKey,
       .committed (sampleUpsert "m3" "a" "alice") recreatedKey ⟨"m3", 3, 1, .applied⟩]
      (sampleUpsert "m1" "a" "alice") (sampleDelete "m2" "a") recreatedKey recreatedKey
      ⟨"m1", 1, 1, .applied⟩ ⟨"m2", 2, 2, .applied⟩ history_recreated ⟨rfl, rfl⟩ run_recreated
      (by decide),
    row_versions_increase_between_drops sampleEngine recreated
      [.committed (sampleUpsert "m1" "a" "alice") recreatedKey ⟨"m1", 1, 1, .applied⟩]
      [.dropped recreatedKey] [] (sampleDelete "m2" "a") (sampleUpsert "m3" "a" "alice")
      recreatedKey recreatedKey ⟨"m2", 2, 2, .applied⟩ ⟨"m3", 3, 1, .applied⟩ history_recreated
      ⟨rfl, rfl⟩ run_recreated (by decide)⟩

/-- Versions do not grow across the compaction of a tombstone. -/
theorem row_versions_restart_after_compaction :
    ¬ ∀ (crates : Crates) (engine : SyncEngine) (ops : List Op) (before mid after : List Entry)
        (first second : ClientMutation) (key key' : String) (receipt receipt' : MutationReceipt),
      Started crates engine →
      engine.history crates ops = before ++ .committed first key receipt ::
        (mid ++ .committed second key' receipt' :: after) →
      first.table = second.table ∧ first.primaryKey = second.primaryKey →
      (engine.run crates ops).state.nextSequence < u64Max → receipt'.rowVersion < u64Max →
      receipt.rowVersion < receipt'.rowVersion ∧ receipt.sequence < receipt'.sequence := by
  intro h
  have hlt := h recreatedCrates sampleEngine recreated
    [.committed (sampleUpsert "m1" "a" "alice") recreatedKey ⟨"m1", 1, 1, .applied⟩]
    [.dropped recreatedKey] [] (sampleDelete "m2" "a") (sampleUpsert "m3" "a" "alice")
    recreatedKey recreatedKey ⟨"m2", 2, 2, .applied⟩ ⟨"m3", 3, 1, .applied⟩
    (sampleEngine_started _) history_recreated ⟨rfl, rfl⟩ run_recreated (by decide)
  exact absurd hlt.1 (by decide)

end Runs

end Ffdb.Sync
