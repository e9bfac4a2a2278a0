import Mathlib.Data.List.Sort
import Ffdb.Lib.Fallible
import Ffdb.Lib.Machine
import Ffdb.RateLimits.TokenBucket

/-! The token buckets of all replicas, in a table whose rows are counted by its triggers. -/
namespace Ffdb.RateLimits
open Fallible

structure Floats (F : Type) where
  ofInt : Int → F
  add : F → F → F
  sub : F → F → F
  mul : F → F → F
  div : F → F → F
  min : F → F → F
  ceil : F → F
  le : F → F → Bool
  lt : F → F → Bool
  isFinite : F → Bool
  toU64 : F → Nat

structure PgConfig (F : Type) where
  capacity : Nat
  refillTokensPerSecond : F
  idleTtlMs : Int
  maxEntries : Nat
  idleTtl_pos : 0 < idleTtlMs

abbrev BucketKey := List UInt8

structure RateRow (F : Type) where
  dimension : RateDimension
  tokens : F
  lastRefillMs : Int
  expiresAtMs : Int

structure RateTables (F : Type) where
  rows : Table BucketKey (RateRow F) := ∅
  entryCount : Nat := 0

def RateRow.isExpired {F : Type} (nowMs : Int) (row : RateRow F) : Bool := row.expiresAtMs ≤ nowMs

section Rows
variable {F : Type}

def expiredCount (nowMs : Int) (rows : Table BucketKey (RateRow F)) : Nat :=
  rows.total fun _ row => if row.isExpired nowMs then 1 else 0

/-- The rows that a bounded cleanup takes: the ones that expired first, in an order of the
database's own where that leaves a choice. -/
structure Cleanup (F : Type) where
  victims : Table BucketKey (RateRow F) → Int → Nat → List BucketKey
  nodup : ∀ rows nowMs limit, (victims rows nowMs limit).Nodup
  expired : ∀ rows nowMs limit, ∀ key ∈ victims rows nowMs limit,
    ∃ row, rows.lookup key = some row ∧ row.isExpired nowMs = true
  count : ∀ rows nowMs limit, (victims rows nowMs limit).length = min limit (expiredCount nowMs rows)
  earliest : ∀ rows nowMs limit, ∀ key ∈ victims rows nowMs limit, ∀ other row row',
    rows.lookup key = some row → rows.lookup other = some row' → other ∉ victims rows nowMs limit →
      row.expiresAtMs ≤ row'.expiresAtMs

/-- A row goes, and the trigger counts it. -/
def RateTables.delete (tables : RateTables F) (key : BucketKey) : RateTables F :=
  if (tables.rows.lookup key).isSome then ⟨tables.rows.erase key, tables.entryCount - 1⟩ else tables

def RateTables.cleanupExpired (tables : RateTables F) (cleanup : Cleanup F) (nowMs : Int) (limit : Nat) :
    RateTables F :=
  (cleanup.victims tables.rows nowMs limit).foldl RateTables.delete tables

/-- `INSERT ... ON CONFLICT DO UPDATE`; only an inserted row is counted. -/
def RateTables.upsert (tables : RateTables F) (entry : BucketKey × RateRow F) : RateTables F :=
  match tables.rows.lookup entry.1 with
  | some row =>
    ⟨tables.rows.insert entry.1 ⟨row.dimension, entry.2.tokens, entry.2.lastRefillMs, entry.2.expiresAtMs⟩,
      tables.entryCount⟩
  | none => ⟨tables.rows.insert entry.1 entry.2, tables.entryCount + 1⟩

def RateLimitDecision.isDenied : RateLimitDecision F → Bool
  | .allowed _ => false
  | .denied _ => true

end Rows

section Checks
variable {F : Type} (floats : Floats F) (config : PgConfig F)

def charge (nowMs : Int) (dimension : RateDimension) (tokens : F) (lastRefillMs : Int) (cost : Nat) :
    Except RateLimitError (RateRow F × RateLimitDecision F) := do
  require (floats.isFinite tokens && !floats.lt tokens (floats.ofInt 0)) .unavailable
  let elapsedMs := max (min (nowMs - lastRefillMs) i64Max) 0
  let refill := floats.mul (floats.div (floats.ofInt elapsedMs) (floats.ofInt 1000)) config.refillTokensPerSecond
  let tokens := floats.min (floats.add tokens refill) (floats.ofInt config.capacity)
  let cost := floats.ofInt cost
  let decision : F × RateLimitDecision F :=
    if floats.le cost tokens then (floats.sub tokens cost, .allowed (floats.sub tokens cost))
    else
      let retryMs := floats.ceil (floats.mul (floats.div (floats.sub cost tokens) config.refillTokensPerSecond)
        (floats.ofInt 1000))
      (tokens, .denied (if floats.isFinite retryMs && floats.le (floats.ofInt 1) retryMs then
        floats.toU64 (floats.min retryMs (floats.ofInt Saturating.u64Max)) else 1))
  let refillMs := max lastRefillMs nowMs
  require (refillMs + config.idleTtlMs ≤ i64Max) .invalidCost
  pure (⟨dimension, decision.1, refillMs, refillMs + config.idleTtlMs⟩, decision.2)

def chargeOne (rows : Table BucketKey (RateRow F)) (nowMs : Int) (check : RateLimitKey × Nat) :
    Except RateLimitError (RateRow F × RateLimitDecision F × Bool) :=
  match rows.lookup check.1.digest with
  | some row => do
    require (row.dimension = check.1.dimension) .unavailable
    let (row, decision) ← charge floats config nowMs check.1.dimension row.tokens row.lastRefillMs check.2
    pure (row, decision, false)
  | none => do
    let (row, decision) ← charge floats config nowMs check.1.dimension (floats.ofInt config.capacity) nowMs check.2
    pure (row, decision, true)

structure Charged (F : Type) where
  persisted : List (BucketKey × RateRow F)
  decisions : List (RateLimitDecision F)
  newEntries : Nat

def chargeAll (rows : Table BucketKey (RateRow F)) (nowMs : Int) :
    List (RateLimitKey × Nat) → Except RateLimitError (Charged F)
  | [] => pure ⟨[], [], 0⟩
  | check :: checks => do
    let (row, decision, isNew) ← chargeOne floats config rows nowMs check
    let rest ← (if decision.isDenied then pure ⟨[], [], 0⟩ else chargeAll rows nowMs checks)
    pure ⟨(check.1.digest, row) :: rest.persisted, decision :: rest.decisions,
      (if isNew then 1 else 0) + rest.newEntries⟩

def chargedChecks (rows : Table BucketKey (RateRow F)) (nowMs : Int) :
    List (RateLimitKey × Nat) → List (RateLimitKey × Nat)
  | [] => []
  | check :: checks =>
    check :: if (chargeOne floats config rows nowMs check).toOption.any (·.2.1.isDenied) then []
      else chargedChecks rows nowMs checks

def makeRoom (cleanup : Cleanup F) (tables : RateTables F) (nowMs : Int) (newEntries : Nat) :
    Except RateLimitError (RateTables F) :=
  if newEntries = 0 then .ok tables
  else
    let tables := tables.cleanupExpired cleanup nowMs 256
    if config.maxEntries < tables.entryCount + newEntries then .error .saturated else .ok tables

def isValidBatch (nowMs : Int) (checks : List (RateLimitKey × Nat)) : Bool :=
  !checks.isEmpty && checks.length ≤ 16 && 0 ≤ nowMs &&
    checks.all (fun check => check.2 ≠ 0 && check.2 ≤ config.capacity) && (checks.map (·.1.digest)).Nodup

/-- One transaction: what fails changes nothing. -/
def checkMany (cleanup : Cleanup F) (tables : RateTables F) (nowMs : Int) (checks : List (RateLimitKey × Nat)) :
    Except RateLimitError (RateTables F × List (RateLimitDecision F)) := do
  require (isValidBatch config nowMs checks) .invalidCost
  let charged ← chargeAll floats config tables.rows nowMs checks
  let tables ← makeRoom config cleanup tables nowMs charged.newEntries
  -- a constraint of the table
  require (charged.persisted.all fun entry => !floats.lt entry.2.tokens (floats.ofInt 0)) .unavailable
  pure (charged.persisted.foldl RateTables.upsert tables, charged.decisions)

def checkInOrder (cleanup : Cleanup F) (nowMs : Int) :
    RateTables F → List (RateLimitKey × Nat) → Except RateLimitError (List (RateLimitDecision F))
  | _, [] => pure []
  | tables, check :: checks => do
    let (tables, decisions) ← checkMany floats config cleanup tables nowMs [check]
    let decision ← orError decisions.head? .unavailable
    let rest ← (if decision.isDenied then pure [] else checkInOrder cleanup nowMs tables checks)
    pure (decision :: rest)

end Checks

def RateTables.Counted {F : Type} (tables : RateTables F) : Prop := tables.entryCount = tables.rows.size

def newIn {F : Type} (rows : Table BucketKey (RateRow F)) (entries : List (BucketKey × RateRow F)) : Nat :=
  entries.countP fun entry => (rows.lookup entry.1).isNone

section Tables
variable {F : Type} {tables : RateTables F} {key : BucketKey}

theorem RateTables.Counted.delete (h : tables.Counted) (key : BucketKey) : (tables.delete key).Counted := by
  unfold RateTables.delete
  split_ifs with hsome
  · obtain ⟨row, hrow⟩ := Option.isSome_iff_exists.mp hsome
    have hsize := AList.size_erase hrow
    have hcount : tables.entryCount = tables.rows.size := h
    change tables.entryCount - 1 = (tables.rows.erase key).size
    omega
  · exact h

theorem RateTables.Counted.deletes (h : tables.Counted) (keys : List BucketKey) :
    (keys.foldl RateTables.delete tables).Counted := by
  induction keys generalizing tables with
  | nil => exact h
  | cons key keys ih => exact ih (h.delete key)

theorem RateTables.Counted.upsert (h : tables.Counted) (entry : BucketKey × RateRow F) :
    (tables.upsert entry).Counted := by
  have hcount : tables.entryCount = tables.rows.size := h
  unfold RateTables.upsert
  split
  case h_1 row hrow => exact hcount.trans (AList.size_insert_of_lookup hrow _).symm
  case h_2 hnone =>
    change tables.entryCount + 1 = _
    rw [hcount, AList.size_insert hnone]

theorem RateTables.Counted.upserts (h : tables.Counted) (entries : List (BucketKey × RateRow F)) :
    (entries.foldl RateTables.upsert tables).Counted := by
  induction entries generalizing tables with
  | nil => exact h
  | cons entry entries ih => exact ih (h.upsert entry)

theorem lookup_delete {other : BucketKey} (hne : other ≠ key) :
    (tables.delete key).rows.lookup other = tables.rows.lookup other := by
  unfold RateTables.delete
  split_ifs
  · exact AList.lookup_erase_ne hne
  · rfl

theorem lookup_deletes {keys : List BucketKey} (h : key ∉ keys) :
    (keys.foldl RateTables.delete tables).rows.lookup key = tables.rows.lookup key := by
  induction keys generalizing tables with
  | nil => rfl
  | cons first keys ih =>
    have hrest : key ∉ keys := fun hkey => h (List.mem_cons_of_mem first hkey)
    exact (ih hrest).trans (lookup_delete fun hsame => h (hsame ▸ List.mem_cons_self))

theorem size_deletes {keys : List BucketKey} (hnodup : keys.Nodup)
    (hpresent : ∀ key ∈ keys, (tables.rows.lookup key).isSome = true) :
    (keys.foldl RateTables.delete tables).rows.size + keys.length = tables.rows.size := by
  induction keys generalizing tables with
  | nil => rfl
  | cons key keys ih =>
    obtain ⟨hnotin, hrest⟩ := List.nodup_cons.mp hnodup
    have hsome := hpresent key List.mem_cons_self
    obtain ⟨row, hrow⟩ := Option.isSome_iff_exists.mp hsome
    have hdelete : (tables.delete key).rows = tables.rows.erase key := by
      unfold RateTables.delete
      rw [if_pos hsome]
    have hsize := AList.size_erase hrow
    have hkept : ∀ other ∈ keys, ((tables.delete key).rows.lookup other).isSome = true := by
      intro other hother
      have hne : other ≠ key := fun hsame => hnotin (hsame ▸ hother)
      rw [lookup_delete hne]
      exact hpresent other (List.mem_cons_of_mem key hother)
    have htail := ih hrest hkept
    rw [hdelete] at htail
    simp only [List.foldl_cons, List.length_cons]
    omega

theorem lookup_upsert {entry : BucketKey × RateRow F} (hne : key ≠ entry.1) :
    (tables.upsert entry).rows.lookup key = tables.rows.lookup key := by
  unfold RateTables.upsert
  split
  · exact AList.lookup_insert_ne hne
  · exact AList.lookup_insert_ne hne

theorem size_upsert (entry : BucketKey × RateRow F) :
    (tables.upsert entry).rows.size = tables.rows.size + newIn tables.rows [entry] := by
  unfold RateTables.upsert newIn
  split
  case h_1 row hrow => simp [hrow, AList.size_insert_of_lookup hrow]
  case h_2 hnone => simp [hnone, AList.size_insert hnone]

theorem newIn_congr {rows rows' : Table BucketKey (RateRow F)} {entries : List (BucketKey × RateRow F)}
    (h : ∀ entry ∈ entries, rows.lookup entry.1 = rows'.lookup entry.1) : newIn rows entries = newIn rows' entries := by
  unfold newIn
  refine List.countP_congr fun entry hentry => ?_
  rw [h entry hentry]

/-- A batch of different keys adds as many rows as are not there. -/
theorem size_upserts {entries : List (BucketKey × RateRow F)} (hnodup : (entries.map Prod.fst).Nodup) :
    (entries.foldl RateTables.upsert tables).rows.size = tables.rows.size + newIn tables.rows entries := by
  induction entries generalizing tables with
  | nil => rfl
  | cons entry entries ih =>
    obtain ⟨hnotin, hrest⟩ := List.nodup_cons.mp hnodup
    have hsame : newIn (tables.upsert entry).rows entries = newIn tables.rows entries :=
      newIn_congr fun other hother => lookup_upsert fun h => hnotin (h ▸ List.mem_map_of_mem hother)
    rw [List.foldl_cons, ih hrest, hsame, size_upsert, Nat.add_assoc]
    unfold newIn
    rw [← List.countP_append]
    rfl

end Tables

section Cleaning
variable {F : Type} {tables : RateTables F} {cleanup : Cleanup F} {nowMs : Int} {limit : Nat}

theorem RateTables.Counted.cleanupExpired (h : tables.Counted) :
    (tables.cleanupExpired cleanup nowMs limit).Counted := h.deletes _

theorem size_cleanupExpired :
    (tables.cleanupExpired cleanup nowMs limit).rows.size + min limit (expiredCount nowMs tables.rows) =
      tables.rows.size := by
  have hcount : (cleanup.victims tables.rows nowMs limit).length = min limit (expiredCount nowMs tables.rows) :=
    cleanup.count tables.rows nowMs limit
  rw [← hcount]
  refine size_deletes (cleanup.nodup _ _ _) ?_
  intro key hkey
  obtain ⟨row, hrow, -⟩ := cleanup.expired _ _ _ key hkey
  exact Option.isSome_of_eq_some hrow

theorem lookup_cleanupExpired {key : BucketKey}
    (h : ∀ row, tables.rows.lookup key = some row → row.isExpired nowMs = false) :
    (tables.cleanupExpired cleanup nowMs limit).rows.lookup key = tables.rows.lookup key := by
  refine lookup_deletes fun hkey => ?_
  obtain ⟨row, hrow, hexpired⟩ := cleanup.expired _ _ _ key hkey
  rw [h row hrow] at hexpired
  cases hexpired

theorem expiredCount_upsert {entry : BucketKey × RateRow F}
    (h : ∀ row, tables.rows.lookup entry.1 = some row → row.isExpired nowMs = false) :
    expiredCount nowMs tables.rows ≤ expiredCount nowMs (tables.upsert entry).rows := by
  unfold RateTables.upsert expiredCount
  split
  case h_1 row hrow =>
    have htotal := AList.total_insert_of_lookup (fun _ row => if RateRow.isExpired nowMs row then 1 else 0) hrow
      ⟨row.dimension, entry.2.tokens, entry.2.lastRefillMs, entry.2.expiresAtMs⟩
    simp only [h row hrow, Bool.false_eq_true, if_false, Nat.add_zero] at htotal
    exact (Nat.le_add_right _ _).trans_eq htotal.symm
  case h_2 hnone =>
    rw [AList.total_insert _ hnone]
    exact Nat.le_add_right _ _

end Cleaning

section Batch
variable {F : Type} {floats : Floats F} {config : PgConfig F} {cleanup : Cleanup F} {tables tables' : RateTables F}
  {rows rows' : Table BucketKey (RateRow F)} {nowMs : Int} {checks : List (RateLimitKey × Nat)}

/-- The rows that a batch charges are not touched by its cleanup: there is none, or they have not expired. -/
def Unexpired (floats : Floats F) (config : PgConfig F) (rows : Table BucketKey (RateRow F)) (nowMs : Int)
    (checks : List (RateLimitKey × Nat)) : Prop :=
  (∀ check ∈ chargedChecks floats config rows nowMs checks, (rows.lookup check.1.digest).isSome = true) ∨
    ∀ check ∈ chargedChecks floats config rows nowMs checks, ∀ row, rows.lookup check.1.digest = some row →
      row.isExpired nowMs = false

theorem chargeOne_isNew {check : RateLimitKey × Nat} {row : RateRow F} {decision : RateLimitDecision F} {isNew : Bool}
    (h : chargeOne floats config rows nowMs check = .ok (row, decision, isNew)) :
    isNew = (rows.lookup check.1.digest).isNone := by
  unfold chargeOne at h
  split at h
  case h_1 hrow =>
    simp only [bind_ok_iff, pure_ok_iff] at h
    obtain ⟨_, -, _, -, hpair⟩ := h
    rw [hrow]
    exact (congrArg (·.2.2) hpair).symm
  case h_2 hnone =>
    simp only [bind_ok_iff, pure_ok_iff] at h
    obtain ⟨_, -, hpair⟩ := h
    rw [hnone]
    exact (congrArg (·.2.2) hpair).symm

theorem chargedChecks_sublist (floats : Floats F) (config : PgConfig F) (rows : Table BucketKey (RateRow F))
    (nowMs : Int) (checks : List (RateLimitKey × Nat)) :
    (chargedChecks floats config rows nowMs checks).Sublist checks := by
  induction checks with
  | nil => exact List.Sublist.refl _
  | cons check checks ih =>
    rw [chargedChecks]
    refine List.Sublist.cons_cons check ?_
    split_ifs
    · exact List.nil_sublist checks
    · exact ih

theorem chargeAll_cons {check : RateLimitKey × Nat} {charged : Charged F}
    (h : chargeAll floats config rows nowMs (check :: checks) = .ok charged) :
    ∃ row decision rest, chargeOne floats config rows nowMs check =
        .ok (row, decision, (rows.lookup check.1.digest).isNone) ∧
      chargedChecks floats config rows nowMs (check :: checks) =
        check :: (if decision.isDenied then [] else chargedChecks floats config rows nowMs checks) ∧
      (if decision.isDenied then rest = ⟨[], [], 0⟩ else chargeAll floats config rows nowMs checks = .ok rest) ∧
      charged = ⟨(check.1.digest, row) :: rest.persisted, decision :: rest.decisions,
        (if (rows.lookup check.1.digest).isNone then 1 else 0) + rest.newEntries⟩ := by
  simp only [chargeAll, bind_ok_iff, pure_ok_iff] at h
  obtain ⟨⟨row, decision, isNew⟩, hone, rest, hrest, rfl⟩ := h
  have hnew := chargeOne_isNew hone
  subst hnew
  refine ⟨row, decision, rest, hone, ?_, ?_, rfl⟩
  · rw [chargedChecks, hone]
    rfl
  split_ifs at hrest ⊢
  · exact (Except.ok.inj hrest).symm
  · exact hrest

/-- What is persisted is for the checks that are charged; what is counted are those without a row. -/
theorem chargeAll_persisted {charged : Charged F} (h : chargeAll floats config rows nowMs checks = .ok charged) :
    charged.persisted.map Prod.fst = (chargedChecks floats config rows nowMs checks).map (·.1.digest) ∧
      charged.newEntries = newIn rows charged.persisted := by
  induction checks generalizing charged with
  | nil =>
    obtain rfl := Except.ok.inj h
    exact ⟨rfl, rfl⟩
  | cons check checks ih =>
    obtain ⟨row, decision, rest, -, hchecks, hrest, rfl⟩ := chargeAll_cons h
    obtain ⟨hkeys, hcount⟩ : rest.persisted.map Prod.fst =
          (if decision.isDenied then [] else chargedChecks floats config rows nowMs checks).map (·.1.digest) ∧
        rest.newEntries = newIn rows rest.persisted := by
      split_ifs at hrest ⊢
      · rw [hrest]
        exact ⟨rfl, rfl⟩
      · exact ih hrest
    rw [hchecks]
    refine ⟨congrArg (check.1.digest :: ·) hkeys, ?_⟩
    rw [hcount]
    unfold newIn
    rw [List.countP_cons, Nat.add_comm]

theorem newEntries_of_present {charged : Charged F} (h : chargeAll floats config rows nowMs checks = .ok charged)
    (hpresent : ∀ check ∈ chargedChecks floats config rows nowMs checks,
      (rows.lookup check.1.digest).isSome = true) : charged.newEntries = 0 := by
  obtain ⟨hkeys, hnew⟩ := chargeAll_persisted h
  refine hnew.trans (List.countP_eq_zero.mpr fun entry hentry => ?_)
  have hkey := List.mem_map_of_mem (f := Prod.fst) hentry
  rw [hkeys] at hkey
  obtain ⟨check, hcheck, hsame⟩ := List.mem_map.mp hkey
  rw [← hsame]
  simpa using Option.ne_none_iff_isSome.mpr (hpresent check hcheck)

theorem checkMany_eq {decisions : List (RateLimitDecision F)}
    (h : checkMany floats config cleanup tables nowMs checks = .ok (tables', decisions)) :
    ∃ charged roomy, isValidBatch config nowMs checks = true ∧
      chargeAll floats config tables.rows nowMs checks = .ok charged ∧
      makeRoom config cleanup tables nowMs charged.newEntries = .ok roomy ∧
      (charged.persisted.all fun entry => !floats.lt entry.2.tokens (floats.ofInt 0)) = true ∧
      tables' = charged.persisted.foldl RateTables.upsert roomy ∧ decisions = charged.decisions := by
  simp only [checkMany, bind_ok_iff, require_ok_iff, pure_ok_iff] at h
  obtain ⟨_, hvalid, charged, hcharged, roomy, hroomy, _, htokens, hpair⟩ := h
  obtain ⟨rfl, rfl⟩ := Prod.mk.inj hpair
  exact ⟨charged, roomy, hvalid, hcharged, hroomy, htokens, rfl, rfl⟩

theorem nodup_of_isValidBatch (h : isValidBatch config nowMs checks = true) : (checks.map (·.1.digest)).Nodup := by
  simp only [isValidBatch, Bool.and_eq_true, decide_eq_true_eq] at h
  exact h.2

theorem makeRoom_counted {newEntries : Nat} (hcounted : tables.Counted)
    (h : makeRoom config cleanup tables nowMs newEntries = .ok tables') : tables'.Counted := by
  unfold makeRoom at h
  dsimp only at h
  split_ifs at h
  · obtain rfl := Except.ok.inj h
    exact hcounted
  · obtain rfl := Except.ok.inj h
    exact hcounted.cleanupExpired

/-- The rows of the batch are as they were read, and there is room for the new ones. -/
theorem makeRoom_spec {newEntries : Nat} (hcounted : tables.Counted) (hbound : tables.rows.size ≤ config.maxEntries)
    (h : makeRoom config cleanup tables nowMs newEntries = .ok tables') :
    tables'.rows.size + newEntries ≤ config.maxEntries ∧
      ∀ key, (newEntries ≠ 0 → ∀ row, tables.rows.lookup key = some row → row.isExpired nowMs = false) →
        tables'.rows.lookup key = tables.rows.lookup key := by
  have hafter := makeRoom_counted hcounted h
  unfold makeRoom at h
  dsimp only at h
  split_ifs at h with hzero hfull
  · obtain rfl := Except.ok.inj h
    exact ⟨by omega, fun _ _ => rfl⟩
  · obtain rfl := Except.ok.inj h
    have hcount : (tables.cleanupExpired cleanup nowMs 256).entryCount =
      (tables.cleanupExpired cleanup nowMs 256).rows.size := hafter
    exact ⟨by omega, fun key hkey => lookup_cleanupExpired (hkey hzero)⟩

theorem RateTables.Counted.checkMany {decisions : List (RateLimitDecision F)} (hcounted : tables.Counted)
    (h : checkMany floats config cleanup tables nowMs checks = .ok (tables', decisions)) : tables'.Counted := by
  obtain ⟨charged, roomy, -, -, hroomy, -, rfl, -⟩ := checkMany_eq h
  exact (makeRoom_counted hcounted hroomy).upserts _

theorem size_checkMany_le {decisions : List (RateLimitDecision F)} (hcounted : tables.Counted)
    (hbound : tables.rows.size ≤ config.maxEntries) (hunexpired : Unexpired floats config tables.rows nowMs checks)
    (h : checkMany floats config cleanup tables nowMs checks = .ok (tables', decisions)) :
    tables'.rows.size ≤ config.maxEntries := by
  obtain ⟨charged, roomy, hvalid, hcharged, hroomy, -, rfl, -⟩ := checkMany_eq h
  obtain ⟨hkeys, hnew⟩ := chargeAll_persisted hcharged
  obtain ⟨hroom, hkept⟩ := makeRoom_spec hcounted hbound hroomy
  have hsame : newIn roomy.rows charged.persisted = newIn tables.rows charged.persisted := by
    refine newIn_congr fun entry hentry => hkept entry.1 fun hnonzero row hrow => ?_
    have hentry' := List.mem_map_of_mem (f := Prod.fst) hentry
    rw [hkeys] at hentry'
    obtain ⟨check, hcheck, hkey⟩ := List.mem_map.mp hentry'
    obtain hpresent | hunexpired := hunexpired
    · -- without a new row nothing is cleaned up
      exact absurd (newEntries_of_present hcharged hpresent) hnonzero
    · exact hunexpired check hcheck row (hkey ▸ hrow)
  have hnodup : (charged.persisted.map Prod.fst).Nodup := by
    rw [hkeys]
    exact (nodup_of_isValidBatch hvalid).sublist ((chargedChecks_sublist ..).map _)
  rw [size_upserts hnodup, hsame, ← hnew]
  exact hroom

theorem chargeOne_congr {check : RateLimitKey × Nat}
    (h : rows.lookup check.1.digest = rows'.lookup check.1.digest) :
    chargeOne floats config rows nowMs check = chargeOne floats config rows' nowMs check := by
  unfold chargeOne
  rw [h]

theorem checkMany_singleton {check : RateLimitKey × Nat} {row : RateRow F} {decision : RateLimitDecision F}
    (hvalid : isValidBatch config nowMs [check] = true)
    (hcharge : chargeOne floats config tables.rows nowMs check =
      .ok (row, decision, (tables.rows.lookup check.1.digest).isNone))
    (htokens : floats.lt row.tokens (floats.ofInt 0) = false)
    (hroomy : makeRoom config cleanup tables nowMs (newIn tables.rows [(check.1.digest, row)]) = .ok tables') :
    checkMany floats config cleanup tables nowMs [check] =
      .ok (tables'.upsert (check.1.digest, row), [decision]) := by
  have hall : chargeAll floats config tables.rows nowMs [check] =
      .ok ⟨[(check.1.digest, row)], [decision], newIn tables.rows [(check.1.digest, row)]⟩ := by
    simp only [chargeAll, bind_ok_iff, pure_ok_iff]
    refine ⟨_, hcharge, ⟨[], [], 0⟩, by split <;> rfl, ?_⟩
    simp [newIn, List.countP_cons]
  simp only [checkMany, bind_ok_iff, require_ok_iff, pure_ok_iff]
  refine ⟨(), hvalid, _, hall, tables', hroomy, (), ?_, rfl⟩
  simp [htokens]

/-- Room for a new row in what a cleanup leaves, and for those that come after it. -/
theorem makeRoom_ok (config : PgConfig F) (cleanup : Cleanup F) (nowMs : Int) (newEntries : Nat)
    (hcounted : tables.Counted)
    (hroom : newEntries ≠ 0 →
      tables.rows.size + newEntries ≤ config.maxEntries + min 256 (expiredCount nowMs tables.rows)) :
    ∃ tables', makeRoom config cleanup tables nowMs newEntries = .ok tables' ∧
      if newEntries = 0 then tables' = tables else tables' = tables.cleanupExpired cleanup nowMs 256 := by
  unfold makeRoom
  by_cases hzero : newEntries = 0
  · exact ⟨tables, by rw [if_pos hzero], by rw [if_pos hzero]⟩
  · have hcount : (tables.cleanupExpired cleanup nowMs 256).entryCount =
        (tables.cleanupExpired cleanup nowMs 256).rows.size := hcounted.cleanupExpired
    have hsize : (tables.cleanupExpired cleanup nowMs 256).rows.size + _ = _ := size_cleanupExpired
    have hfits : ¬config.maxEntries < (tables.cleanupExpired cleanup nowMs 256).entryCount + newEntries := by
      have := hroom hzero
      omega
    refine ⟨_, ?_, by rw [if_neg hzero]⟩
    rw [if_neg hzero]
    dsimp only
    rw [if_neg hfits]

/-- The checks one at a time come to what the batch comes to. -/
theorem checkInOrder_of_chargeAll {charged : Charged F} (hcounted : tables.Counted) (hnow : 0 ≤ nowMs)
    (hcosts : ∀ check ∈ checks, check.2 ≠ 0 ∧ check.2 ≤ config.capacity)
    (hnodup : (checks.map (·.1.digest)).Nodup)
    (hlookup : ∀ check ∈ chargedChecks floats config rows nowMs checks,
      tables.rows.lookup check.1.digest = rows.lookup check.1.digest)
    (hcharged : chargeAll floats config rows nowMs checks = .ok charged)
    (htokens : ∀ entry ∈ charged.persisted, floats.lt entry.2.tokens (floats.ofInt 0) = false)
    (hfresh : charged.newEntries ≠ 0 →
      (∀ check ∈ chargedChecks floats config rows nowMs checks, ∀ row,
        tables.rows.lookup check.1.digest = some row → row.isExpired nowMs = false) ∧
        tables.rows.size + charged.newEntries ≤ config.maxEntries + min 256 (expiredCount nowMs tables.rows)) :
    checkInOrder floats config cleanup nowMs tables checks = .ok charged.decisions := by
  induction checks generalizing tables charged with
  | nil =>
    obtain rfl := Except.ok.inj hcharged
    rfl
  | cons check checks ih =>
    obtain ⟨row, decision, rest, hone, hchecks, hrest, rfl⟩ := chargeAll_cons hcharged
    obtain ⟨hnotin, hnodup'⟩ := List.nodup_cons.mp hnodup
    rw [hchecks] at hlookup hfresh
    have hsame := hlookup check List.mem_cons_self
    have hnew : newIn tables.rows [(check.1.digest, row)] =
        if (rows.lookup check.1.digest).isNone then 1 else 0 := by
      simp [newIn, hsame, List.countP_cons]
    have hvalid : isValidBatch config nowMs [check] = true := by
      have hcost := hcosts check List.mem_cons_self
      simp [isValidBatch, hnow, hcost.1, hcost.2]
    -- the check alone
    obtain ⟨roomy, hroomy, hwhich⟩ := makeRoom_ok config cleanup nowMs
      (newIn tables.rows [(check.1.digest, row)]) hcounted (by
        rw [hnew]
        intro hnonzero
        obtain ⟨-, hroom⟩ := hfresh (by dsimp only; omega)
        dsimp only at hroom
        omega)
    have hsingle := checkMany_singleton hvalid
      (by rw [chargeOne_congr hsame, hsame]; exact hone) (htokens _ List.mem_cons_self) hroomy
    simp only [checkInOrder, bind_ok_iff, pure_ok_iff]
    refine ⟨_, hsingle, decision, rfl, rest.decisions, ?_, rfl⟩
    by_cases hdenied : decision.isDenied = true
    · rw [if_pos hdenied] at hrest ⊢
      rw [hrest]
      rfl
    · rw [if_neg hdenied] at hrest hlookup hfresh ⊢
      -- the rest finds its rows as they were, and room for the new ones
      have hcounts : (⟨(check.1.digest, row) :: rest.persisted, decision :: rest.decisions,
          (if (rows.lookup check.1.digest).isNone then 1 else 0) + rest.newEntries⟩ : Charged F).newEntries =
            newIn tables.rows [(check.1.digest, row)] + rest.newEntries := by rw [hnew]
      rw [hcounts] at hfresh
      have hkept : ∀ other ∈ chargedChecks floats config rows nowMs checks,
          (roomy.upsert (check.1.digest, row)).rows.lookup other.1.digest = tables.rows.lookup other.1.digest := by
        intro other hother
        have hne : other.1.digest ≠ check.1.digest := fun h =>
          hnotin (List.mem_map.mpr ⟨other, (chargedChecks_sublist ..).subset hother, h⟩)
        rw [lookup_upsert hne]
        split_ifs at hwhich with hzero
        · rw [hwhich]
        · rw [hwhich]
          exact lookup_cleanupExpired ((hfresh (by omega)).1 other (List.mem_cons_of_mem _ hother))
      refine ih ?_ (fun other hother => hcosts other (List.mem_cons_of_mem _ hother)) hnodup' ?_ hrest
        (fun entry hentry => htokens entry (List.mem_cons_of_mem _ hentry)) ?_
      · exact (makeRoom_counted hcounted hroomy).upsert _
      · exact fun other hother => (hkept other hother).trans (hlookup other (List.mem_cons_of_mem _ hother))
      · intro hnonzero
        obtain ⟨hunexpired, hroom⟩ := hfresh (by omega)
        refine ⟨?_, ?_⟩
        · intro other hother row hrow
          rw [hkept other hother] at hrow
          exact hunexpired other (List.mem_cons_of_mem _ hother) row hrow
        · change (roomy.upsert (check.1.digest, row)).rows.size + rest.newEntries ≤
            config.maxEntries + min 256 (expiredCount nowMs (roomy.upsert (check.1.digest, row)).rows)
          rw [size_upsert]
          split_ifs at hwhich with hzero
          · rw [hwhich]
            have hexpired : expiredCount nowMs tables.rows ≤
                expiredCount nowMs (tables.upsert (check.1.digest, row)).rows :=
              expiredCount_upsert (hunexpired check List.mem_cons_self)
            omega
          · have hsize : (tables.cleanupExpired cleanup nowMs 256).rows.size + _ = _ := size_cleanupExpired
            have hsame : newIn roomy.rows [(check.1.digest, row)] = newIn tables.rows [(check.1.digest, row)] := by
              refine newIn_congr fun entry hentry => ?_
              obtain rfl := List.mem_singleton.mp hentry
              rw [hwhich]
              exact lookup_cleanupExpired (hunexpired check List.mem_cons_self)
            rw [hsame, hwhich]
            omega

end Batch

inductive LimiterEvent (F : Type) where
  | checkMany (cleanup : Cleanup F) (nowMs : Int) (checks : List (RateLimitKey × Nat))
  | cleanupExpired (cleanup : Cleanup F) (nowMs : Int) (limit : Nat)

section Runs
variable {F : Type} (floats : Floats F) (config : PgConfig F)

def limiterStep (tables : RateTables F) : LimiterEvent F → RateTables F
  | .checkMany cleanup nowMs checks =>
    match checkMany floats config cleanup tables nowMs checks with
    | .ok (tables, _) => tables
    | .error _ => tables
  | .cleanupExpired cleanup nowMs limit =>
    if nowMs < 0 || limit = 0 || 10000 < limit then tables else tables.cleanupExpired cleanup nowMs limit

def AllUnexpired : RateTables F → List (LimiterEvent F) → Prop
  | _, [] => True
  | tables, event :: events =>
    (∀ cleanup nowMs checks, event = .checkMany cleanup nowMs checks →
      Unexpired floats config tables.rows nowMs checks) ∧
      AllUnexpired (limiterStep floats config tables event) events

variable {floats : Floats F} {config : PgConfig F} {tables : RateTables F}

/-- The counter is right whatever happens. -/
theorem RateTables.Counted.step (h : tables.Counted) (event : LimiterEvent F) :
    (limiterStep floats config tables event).Counted := by
  cases event with
  | checkMany cleanup nowMs checks =>
    simp only [limiterStep]
    split
    case h_1 hcheck => exact h.checkMany hcheck
    case h_2 => exact h
  | cleanupExpired cleanup nowMs limit =>
    simp only [limiterStep]
    split_ifs
    · exact h
    · exact h.cleanupExpired

theorem size_limiterStep_le (hcounted : tables.Counted) (hbound : tables.rows.size ≤ config.maxEntries)
    {event : LimiterEvent F}
    (hevent : ∀ cleanup nowMs checks, event = .checkMany cleanup nowMs checks →
      Unexpired floats config tables.rows nowMs checks) :
    (limiterStep floats config tables event).rows.size ≤ config.maxEntries := by
  cases event with
  | checkMany cleanup nowMs checks =>
    simp only [limiterStep]
    split
    case h_1 hcheck => exact size_checkMany_le hcounted hbound (hevent _ _ _ rfl) hcheck
    case h_2 => exact hbound
  | cleanupExpired cleanup nowMs limit =>
    simp only [limiterStep]
    split_ifs
    · exact hbound
    · have hsize : (tables.cleanupExpired cleanup nowMs limit).rows.size + _ = _ := size_cleanupExpired
      omega

theorem bounded_run (hcounted : tables.Counted) (hbound : tables.rows.size ≤ config.maxEntries)
    {events : List (LimiterEvent F)} (hevents : AllUnexpired floats config tables events) :
    let after := Machine.run (limiterStep floats config) tables events
    after.Counted ∧ after.rows.size ≤ config.maxEntries := by
  induction events generalizing tables with
  | nil => exact ⟨hcounted, hbound⟩
  | cons event events ih => exact ih (hcounted.step event) (size_limiterStep_le hcounted hbound hevents.1) hevents.2

/-- A batch that is committed decides as its checks would one at a time. -/
theorem checkInOrder_of_checkMany {cleanup cleanup' : Cleanup F} {nowMs : Int} {checks : List (RateLimitKey × Nat)}
    {tables' : RateTables F} {decisions : List (RateLimitDecision F)} (hcounted : tables.Counted)
    (hbound : tables.rows.size ≤ config.maxEntries) (hunexpired : Unexpired floats config tables.rows nowMs checks)
    (h : checkMany floats config cleanup tables nowMs checks = .ok (tables', decisions)) :
    checkInOrder floats config cleanup' nowMs tables checks = .ok decisions := by
  obtain ⟨charged, roomy, hvalid, hcharged, hroomy, htokens, -, rfl⟩ := checkMany_eq h
  have hnodup := nodup_of_isValidBatch hvalid
  simp only [isValidBatch, Bool.and_eq_true, decide_eq_true_eq, List.all_eq_true] at hvalid
  refine checkInOrder_of_chargeAll hcounted hvalid.1.1.2 (fun check hcheck => by simpa using hvalid.1.2 check hcheck)
    hnodup (fun _ _ => rfl) hcharged (fun entry hentry => by simpa using List.all_eq_true.mp htokens entry hentry) ?_
  intro hnonzero
  refine ⟨?_, ?_⟩
  · obtain hpresent | hunexpired := hunexpired
    · exact absurd (newEntries_of_present hcharged hpresent) hnonzero
    · exact hunexpired
  · obtain ⟨hroom, -⟩ := makeRoom_spec hcounted hbound hroomy
    have hwhich : roomy = tables.cleanupExpired cleanup nowMs 256 := by
      rw [makeRoom, if_neg hnonzero] at hroomy
      dsimp only at hroomy
      split_ifs at hroomy
      exact (Except.ok.inj hroomy).symm
    have hsize : (tables.cleanupExpired cleanup nowMs 256).rows.size + _ = _ := size_cleanupExpired
    rw [hwhich] at hroom
    omega

end Runs

/-- After every transaction the counter is the number of rows and within the bound, and the next
batch decides as its checks would one at a time, as long as no batch meets rows of its own that have
expired. -/
theorem rate_limit_state_bounded {F : Type} (floats : Floats F) (config : PgConfig F) (events : List (LimiterEvent F))
    (hevents : AllUnexpired floats config {} events) :
    let tables := Machine.run (limiterStep floats config) {} events
    (tables.entryCount = tables.rows.size ∧ tables.entryCount ≤ config.maxEntries) ∧
      ∀ cleanup cleanup' nowMs checks tables' decisions, Unexpired floats config tables.rows nowMs checks →
        checkMany floats config cleanup tables nowMs checks = .ok (tables', decisions) →
          checkInOrder floats config cleanup' nowMs tables checks = .ok decisions := by
  intro tables
  have hstart : ({} : RateTables F).Counted := rfl
  obtain ⟨hcounted, hbound⟩ := bounded_run hstart (Nat.zero_le config.maxEntries) hevents
  have hcount : tables.entryCount = tables.rows.size := hcounted
  refine ⟨⟨hcounted, hcount.trans_le hbound⟩, ?_⟩
  intro cleanup cleanup' nowMs checks tables' decisions hunexpired hcheck
  exact checkInOrder_of_checkMany hcounted hbound hunexpired hcheck

def byExpiry {F : Type} (rows : Table BucketKey (RateRow F)) (nowMs : Int) :
    List (Sigma fun _ : BucketKey => RateRow F) :=
  (rows.entries.filter fun entry => entry.2.isExpired nowMs).insertionSort
    fun entry entry' => entry.2.expiresAtMs ≤ entry'.2.expiresAtMs

theorem mem_byExpiry {F : Type} {rows : Table BucketKey (RateRow F)} {nowMs : Int}
    {entry : Sigma fun _ : BucketKey => RateRow F} :
    entry ∈ byExpiry rows nowMs ↔ rows.lookup entry.1 = some entry.2 ∧ entry.2.isExpired nowMs = true := by
  rw [byExpiry, List.mem_insertionSort, List.mem_filter, ← AList.mem_entries]

theorem length_byExpiry {F : Type} (rows : Table BucketKey (RateRow F)) (nowMs : Int) :
    (byExpiry rows nowMs).length = expiredCount nowMs rows := by
  rw [byExpiry, List.length_insertionSort, ← List.countP_eq_length_filter, expiredCount, AList.total]
  induction rows.entries with
  | nil => rfl
  | cons entry entries ih =>
    rw [List.countP_cons, List.map_cons, List.sum_cons, ih, Nat.add_comm]

def Cleanup.oldestFirst {F : Type} : Cleanup F where
  victims rows nowMs limit := ((byExpiry rows nowMs).take limit).map Sigma.fst
  nodup rows nowMs limit := by
    have hsorted : ((byExpiry rows nowMs).map Sigma.fst).Nodup := by
      refine (((List.perm_insertionSort _ _).map Sigma.fst).nodup_iff).mpr ?_
      exact rows.nodupKeys.sublist List.filter_sublist
    rw [List.map_take]
    exact hsorted.sublist (List.take_sublist _ _)
  expired rows nowMs limit key hkey := by
    obtain ⟨entry, hentry, rfl⟩ := List.mem_map.mp hkey
    obtain ⟨hlookup, hexpired⟩ := mem_byExpiry.mp (List.mem_of_mem_take hentry)
    exact ⟨entry.2, hlookup, hexpired⟩
  count rows nowMs limit := by rw [List.length_map, List.length_take, length_byExpiry]
  earliest rows nowMs limit key hkey other row row' hrow hrow' hother := by
    obtain ⟨entry, hentry, rfl⟩ := List.mem_map.mp hkey
    obtain ⟨hlookup, hexpired⟩ := mem_byExpiry.mp (List.mem_of_mem_take hentry)
    obtain rfl := Option.some.inj (hrow.symm.trans hlookup)
    cases hexpired' : row'.isExpired nowMs with
    | false =>
      simp only [RateRow.isExpired, decide_eq_true_eq, decide_eq_false_iff_not] at hexpired hexpired'
      omega
    | true =>
      have hmem : (⟨other, row'⟩ : Sigma fun _ : BucketKey => RateRow F) ∈ byExpiry rows nowMs :=
        mem_byExpiry.mpr ⟨hrow', hexpired'⟩
      rw [← List.take_append_drop limit (byExpiry rows nowMs), List.mem_append] at hmem
      obtain hmem | hmem := hmem
      · exact absurd (List.mem_map_of_mem hmem) hother
      · have hsorted := List.pairwise_insertionSort
          (fun entry entry' : Sigma fun _ : BucketKey => RateRow F => entry.2.expiresAtMs ≤ entry'.2.expiresAtMs)
          (rows.entries.filter fun entry => entry.2.isExpired nowMs)
        change (byExpiry rows nowMs).Pairwise _ at hsorted
        rw [← List.take_append_drop limit (byExpiry rows nowMs), List.pairwise_append] at hsorted
        exact hsorted.2.2 entry hentry _ hmem

def rationals : Floats ℚ where
  ofInt n := n
  add := (· + ·)
  sub := (· - ·)
  mul := (· * ·)
  div := (· / ·)
  min := min
  ceil q := ⌈q⌉
  le a b := a ≤ b
  lt a b := a < b
  isFinite _ := true
  toU64 q := ⌊q⌋.toNat

private def oneRow : PgConfig ℚ := ⟨2, 1, 1, 1, by decide⟩

private def twoRows : PgConfig ℚ := ⟨2, 1, 10, 2, by decide⟩

private def callerIp : RateLimitKey := ⟨.ip, [1]⟩

private def callerProject : RateLimitKey := ⟨.project, [2]⟩

private def callerUser : RateLimitKey := ⟨.user, [3]⟩

/-- Two keys fill the table; a third one finds no room until the row of the first has expired. -/
private def fullTable : List (LimiterEvent ℚ) :=
  [.checkMany .oldestFirst 0 [(callerIp, 1)], .checkMany .oldestFirst 5 [(callerProject, 1)],
    .checkMany .oldestFirst 6 [(callerUser, 1)], .checkMany .oldestFirst 12 [(callerProject, 2), (callerUser, 1)],
    .checkMany .oldestFirst 13 [(callerUser, 1)]]

private theorem fullTable_unexpired : AllUnexpired rationals twoRows {} fullTable := by
  have hrows {rows : Table BucketKey (RateRow ℚ)} {nowMs : Int} {checks : List (RateLimitKey × Nat)}
      (h : (chargedChecks rationals twoRows rows nowMs checks).all
        (fun check => (rows.lookup check.1.digest).all (!·.isExpired nowMs)) = true) :
      Unexpired rationals twoRows rows nowMs checks := by
    refine .inr fun check hcheck row hrow => ?_
    have hkept := List.all_eq_true.mp h check hcheck
    rw [hrow] at hkept
    simpa using hkept
  refine ⟨?_, ?_, ?_, ?_, ?_, trivial⟩ <;> rintro cleanup nowMs checks ⟨⟩ <;> exact hrows (by decide +kernel)

theorem rate_limit_state_bounded_twoRows :
    let tables := Machine.run (limiterStep rationals twoRows) {} fullTable
    (tables.entryCount = tables.rows.size ∧ tables.entryCount ≤ 2) ∧ tables.rows.keys = [[3], [2]] ∧
      ∃ decisions, checkInOrder rationals twoRows .oldestFirst 14 tables [(callerProject, 1), (callerUser, 1)] =
        .ok decisions ∧ decisions.map RateLimitDecision.isDenied = [false, false] := by
  intro tables
  obtain ⟨hbounded, hdecides⟩ := rate_limit_state_bounded rationals twoRows fullTable fullTable_unexpired
  have hdecisions : (checkMany rationals twoRows .oldestFirst tables 14
      [(callerProject, 1), (callerUser, 1)]).map (·.2.map RateLimitDecision.isDenied) = .ok [false, false] := by
    decide +kernel
  refine ⟨hbounded, by decide +kernel, ?_⟩
  cases hbatch : checkMany rationals twoRows .oldestFirst tables 14 [(callerProject, 1), (callerUser, 1)] with
  | error e =>
    rw [hbatch] at hdecisions
    cases hdecisions
  | ok result =>
    rw [hbatch] at hdecisions
    refine ⟨result.2, hdecides .oldestFirst .oldestFirst 14 _ result.1 result.2 ?_ hbatch, Except.ok.inj hdecisions⟩
    exact .inl (by decide +kernel)

/-- The row of the first check has expired: the cleanup for the second one takes it, and the batch
puts it back without having counted it. -/
theorem rate_limit_state_exceeds :
    let before := Machine.run (limiterStep rationals oneRow) {} [.checkMany .oldestFirst 0 [(callerIp, 1)]]
    let batch := checkMany rationals oneRow .oldestFirst before 5 [(callerIp, 1), (callerProject, 1)]
    (∃ after decisions, batch = .ok (after, decisions) ∧ oneRow.maxEntries < after.entryCount) ∧
      checkInOrder rationals oneRow .oldestFirst 5 before [(callerIp, 1), (callerProject, 1)] = .error .saturated := by
  intro before batch
  have hcount : (batch.toOption.any fun result => oneRow.maxEntries < result.1.entryCount) = true := by decide +kernel
  have hsequence : checkInOrder rationals oneRow .oldestFirst 5 before [(callerIp, 1), (callerProject, 1)] =
      .error .saturated := by decide +kernel
  refine ⟨?_, hsequence⟩
  cases hbatch : batch with
  | error e =>
    rw [hbatch] at hcount
    cases hcount
  | ok result =>
    rw [hbatch] at hcount
    exact ⟨result.1, result.2, rfl, of_decide_eq_true hcount⟩

end Ffdb.RateLimits
