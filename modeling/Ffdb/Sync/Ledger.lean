import Ffdb.Sync.Steps

/-! An abstract ledger of row versions: per key, the version and sequence of the last
commit, forgotten when a compaction drops the row. Every run of the engine refines it. -/
namespace Ffdb.Sync
variable {crates : Crates}

def SyncEngine.versionOf (engine : SyncEngine) (key : String) : Option (Nat × Nat) :=
  (engine.state.rows[key]?).map fun row => (row.rowVersion, row.serverSequence)

def Entry.record (key : String) (current : Option (Nat × Nat)) : Entry → Option (Nat × Nat)
  | .committed _ key' receipt =>
    if key' = key then some (receipt.rowVersion, receipt.sequence) else current
  | .dropped key' => if key' = key then none else current

def ledger (key : String) (history : List Entry) (start : Option (Nat × Nat)) :
    Option (Nat × Nat) :=
  history.foldl (Entry.record key) start

def versionAbove : Option (Nat × Nat) → Nat
  | some (version, _) => Saturating.succ version
  | none => 1

theorem nextRowVersion_eq (engine : SyncEngine) (key : String) :
    nextRowVersion engine.state.rows[key]? = versionAbove (engine.versionOf key) := by
  unfold nextRowVersion SyncEngine.versionOf versionAbove
  cases engine.state.rows[key]? <;> rfl

/-- The engine refines the ledger: rows show what the ledger says, and every commit
was numbered on top of it. -/
structure Refines (start : SyncEngine) (history : List Entry) (engine : SyncEngine) : Prop where
  tracks : ∀ key, engine.versionOf key = ledger key history (start.versionOf key)
  versions : ∀ before mutation key receipt after,
    history = before ++ .committed mutation key receipt :: after →
    receipt.rowVersion = versionAbove (ledger key before (start.versionOf key))

theorem Refines.trans {e f g : SyncEngine} {h h' : List Entry} (hl : Refines e h f)
    (hr : Refines f h' g) : Refines e (h ++ h') g := by
  constructor
  · intro key
    rw [hr.tracks key, hl.tracks key, ledger, ledger, ledger, List.foldl_append]
  · intro before mutation key receipt after hsplit
    rcases List.append_eq_append_iff.mp hsplit with ⟨mid, hb, hh⟩ | ⟨mid, hh, ha⟩
    · rw [hr.versions mid mutation key receipt after hh, hl.tracks key, hb]
      simp only [ledger, List.foldl_append]
    · cases mid with
      | nil =>
        simp only [List.append_nil, List.nil_append] at hh ha
        rw [hr.versions [] mutation key receipt after ha.symm, hl.tracks key, hh]
        rfl
      | cons entry rest =>
        simp only [List.cons_append, List.cons.injEq] at ha
        exact hl.versions before mutation key receipt rest (by rw [hh, ha.1])

theorem Call.entries_commit {call : Call} {hash : Bytes} {key : String} {prior : Option StoredRow}
    {sequence : Nat} (ht : mutationTarget crates call.mutation = .ok (hash, key))
    (hr : call.result crates = .ok (mutationReceipt call.mutation prior sequence)) :
    call.entries crates = [.committed call.mutation key (mutationReceipt call.mutation prior sequence)] := by
  simp [Call.entries, ht, hr, mutationReceipt]

theorem Call.entries_error {call : Call} {error : SyncError}
    (hr : call.result crates = .error error) : call.entries crates = [] := by
  unfold Call.entries
  rw [hr]
  cases mutationTarget crates call.mutation <;> rfl

theorem Call.entries_duplicate {call : Call} {receipt : MutationReceipt}
    (hr : call.result crates = .ok { receipt with outcome := .alreadyApplied }) :
    call.entries crates = [] := by
  unfold Call.entries
  rw [hr]
  cases mutationTarget crates call.mutation <;> simp

/-- Entry by entry: a call commits one row and leaves the others, or commits nothing
and leaves all rows. -/
theorem Call.rows_cases (crates : Crates) (call : Call) :
    (call.entries crates = [] ∧ (call.after crates).state.rows = call.engine.state.rows) ∨
    ∃ hash key, mutationTarget crates call.mutation = .ok (hash, key) ∧
      call.entries crates = [.committed call.mutation key
        (mutationReceipt call.mutation (call.prior key) call.engine.state.nextSequence)] ∧
      (call.after crates).state = commitMutation call.engine call.context call.transactionId
        call.mutation hash key (call.prior key) call.nowMs := by
  rcases call.cases crates with ⟨error, hr, ha⟩ | ⟨hash, key, record, _, _, _, _, hr, ha⟩ |
    ⟨hr, ha⟩ | ⟨hash, key, ht, _, _, _, hr, ha⟩
  · exact .inl ⟨Call.entries_error hr, by rw [ha]⟩
  · exact .inl ⟨Call.entries_duplicate hr, by rw [ha]⟩
  · exact .inl ⟨Call.entries_error hr, by rw [ha]; rfl⟩
  · exact .inr ⟨hash, key, ht, Call.entries_commit ht hr, by rw [ha]⟩

@[simp] theorem commitMutation_rows (engine : SyncEngine) (context : SyncContext)
    (transactionId : String) (mutation : ClientMutation) (hash : Bytes) (key : String)
    (prior : Option StoredRow) (nowMs : Int64) :
    (commitMutation engine context transactionId mutation hash key prior nowMs).rows =
      engine.state.rows.insert key
        (writtenRow mutation prior engine.state.nextSequence nowMs) := rfl

@[simp] theorem writtenRow_rowVersion (mutation : ClientMutation) (prior : Option StoredRow)
    (sequence : Nat) (nowMs : Int64) :
    (writtenRow mutation prior sequence nowMs).rowVersion = nextRowVersion prior := by
  unfold writtenRow
  cases mutation.operation <;> rfl

@[simp] theorem writtenRow_serverSequence (mutation : ClientMutation) (prior : Option StoredRow)
    (sequence : Nat) (nowMs : Int64) :
    (writtenRow mutation prior sequence nowMs).serverSequence = sequence := by
  unfold writtenRow
  cases mutation.operation <;> rfl

theorem refines_nil {start engine : SyncEngine} (h : engine.state.rows = start.state.rows) :
    Refines start [] engine :=
  ⟨fun key => by simp [SyncEngine.versionOf, ledger, h], by simp⟩

theorem refines_call (call : Call) :
    Refines call.engine (call.entries crates) (call.after crates) := by
  rcases call.rows_cases crates with ⟨he, hrows⟩ | ⟨hash, key, _, he, hs⟩
  · rw [he]
    exact refines_nil hrows
  · rw [he]
    constructor
    · intro key'
      simp only [SyncEngine.versionOf, hs, commitMutation_rows, ledger, List.foldl_cons,
        List.foldl_nil, Entry.record, Std.ExtTreeMap.getElem?_insert, compare_eq_iff_eq]
      by_cases hk : key = key'
      · simp [hk, mutationReceipt]
      · simp [hk]
    · intro before mutation key' receipt after hsplit
      rcases List.append_eq_cons_iff.mp hsplit.symm with ⟨rfl, hh⟩ | ⟨_, rfl, hh⟩
      · simp only [List.cons.injEq, Entry.committed.injEq] at hh
        obtain ⟨⟨_, rfl, rfl⟩, _⟩ := hh
        exact nextRowVersion_eq call.engine key'
      · simp at hh

/-- Where a key is not committed, its ledger stays as it is or is forgotten. -/
theorem ledger_of_no_commit (key : String) (entries : List Entry)
    (hcommit : ∀ mutation receipt, .committed mutation key receipt ∉ entries)
    (current : Option (Nat × Nat)) :
    (.dropped key ∈ entries → ledger key entries current = none) ∧
    (.dropped key ∉ entries → ledger key entries current = current) := by
  induction entries generalizing current with
  | nil => simp [ledger]
  | cons entry rest ih =>
    have hrest := ih fun mutation receipt hm =>
      hcommit mutation receipt (List.mem_cons_of_mem _ hm)
    have hstep : ledger key (entry :: rest) current =
      ledger key rest (entry.record key current) := rfl
    rw [hstep]
    cases entry with
    | committed mutation key' receipt =>
      have hk : key' ≠ key := fun he => hcommit mutation receipt (by simp [he])
      simpa [Entry.record, hk] using hrest current
    | dropped key' =>
      by_cases hk : key' = key
      · -- the ledger is forgotten here, and nothing later brings it back
        by_cases hm : .dropped key ∈ rest
        · simpa [Entry.record, hk] using (hrest none).1 hm
        · simpa [Entry.record, hk] using (hrest none).2 hm
      · simpa [Entry.record, hk, Ne.symm hk] using hrest current

@[simp] theorem dropped_mem_droppedEntries {engine : SyncEngine} {nowMs : Int64} {key : String} :
    .dropped key ∈ engine.droppedEntries nowMs ↔ ∃ row, engine.state.rows[key]? = some row ∧
      keepRow (Saturating.sub nowMs engine.config.tombstoneRetentionMs) row = false := by
  simp [SyncEngine.droppedEntries, SyncEngine.droppedKeys,
    Std.ExtTreeMap.mem_toList_iff_getElem?_eq_some]

@[simp] theorem committed_notMem_droppedEntries {engine : SyncEngine} {nowMs : Int64}
    {mutation : ClientMutation} {key : String} {receipt : MutationReceipt} :
    .committed mutation key receipt ∉ engine.droppedEntries nowMs := by
  simp [SyncEngine.droppedEntries]

@[simp] theorem compact_rows (engine : SyncEngine) (nowMs : Int64) :
    (engine.compact nowMs).2.state.rows = engine.state.rows.filter fun _ row =>
      keepRow (Saturating.sub nowMs engine.config.tombstoneRetentionMs) row := rfl

theorem refines_compact (engine : SyncEngine) (nowMs : Int64) :
    Refines engine (engine.droppedEntries nowMs) (engine.compact nowMs).2 := by
  constructor
  · intro key
    have hledger := ledger_of_no_commit key (engine.droppedEntries nowMs)
      (by simp) (engine.versionOf key)
    simp only [dropped_mem_droppedEntries, SyncEngine.versionOf, compact_rows,
      Std.ExtTreeMap.getElem?_filter'] at hledger ⊢
    cases hrow : engine.state.rows[key]? with
    | none => simp [hrow] at hledger; simp [hledger]
    | some row =>
      cases hkeep : keepRow (Saturating.sub nowMs engine.config.tombstoneRetentionMs) row with
      | true => simp [hrow, hkeep] at hledger; simp [hkeep, hledger]
      | false => simp [hrow, hkeep] at hledger; simp [hkeep, hledger]
  · intro before mutation key receipt after hsplit
    have hmem : Entry.committed mutation key receipt ∈ engine.droppedEntries nowMs := by
      rw [hsplit]
      simp
    simp at hmem

theorem refines_related :
    Related crates (fun _ => True) (Call.entries crates) SyncEngine.droppedEntries Refines where
  refl _ := refines_nil rfl
  trans := Refines.trans
  ticket _ := refines_nil rfl
  call call _ := refines_call call
  announced _ _ _ _ _ _ := refines_nil rfl
  compact engine nowMs _ := refines_compact engine nowMs

/-- Every run refines the ledger. -/
theorem refines_run (crates : Crates) (engine : SyncEngine) (ops : List Op) :
    Refines engine (engine.history crates ops) (engine.run crates ops) :=
  refines_related.run engine ops fun _ _ => trivial

end Ffdb.Sync
