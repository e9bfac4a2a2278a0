import Mathlib.Algebra.Order.BigOperators.Group.List
import Mathlib.Data.List.AList
import Mathlib.Tactic.Linarith

/-! Finite maps as association lists with one entry a key: what is kept of one by a predicate,
and sums over its entries. -/
abbrev Table (κ ν : Type*) := AList fun _ : κ => ν

namespace AList
variable {κ ν : Type*} [DecidableEq κ] (table : Table κ ν)

def size : Nat := table.entries.length

def retain (keep : κ → ν → Bool) : Table κ ν :=
  ⟨table.entries.filter fun entry => keep entry.1 entry.2, table.nodupKeys.sublist List.filter_sublist⟩

def mapValues (f : κ → ν → ν) : Table κ ν :=
  ⟨table.entries.map fun entry => ⟨entry.1, f entry.1 entry.2⟩, by
    have hkeys : (table.entries.map fun entry => (⟨entry.1, f entry.1 entry.2⟩ : Sigma fun _ : κ => ν)).keys =
        table.entries.keys := by simp [List.keys, List.map_map, Function.comp_def]
    rw [List.NodupKeys, hkeys]
    exact table.nodupKeys⟩

def findEntry (holds : κ → ν → Bool) : Option (κ × ν) :=
  (table.entries.find? fun entry => holds entry.1 entry.2).map fun entry => (entry.1, entry.2)

def total (weight : κ → ν → Nat) : Nat := (table.entries.map fun entry => weight entry.1 entry.2).sum

variable {table}

theorem mem_entries {k : κ} {v : ν} : (⟨k, v⟩ : Sigma fun _ : κ => ν) ∈ table.entries ↔ table.lookup k = some v :=
  mem_lookup_iff.symm

theorem findEntry_eq_some {holds : κ → ν → Bool} {entry : κ × ν} (h : table.findEntry holds = some entry) :
    table.lookup entry.1 = some entry.2 ∧ holds entry.1 entry.2 = true := by
  unfold findEntry at h
  obtain ⟨found, hfound, rfl⟩ := Option.map_eq_some_iff.mp h
  refine ⟨mem_entries.mp (List.mem_of_find?_eq_some hfound), ?_⟩
  exact List.find?_some (p := fun entry : Sigma fun _ : κ => ν => holds entry.1 entry.2) hfound

theorem lookup_insert_eq_some_iff {k k' : κ} {v v' : ν} :
    (table.insert k v).lookup k' = some v' ↔ (k' = k ∧ v' = v) ∨ (k' ≠ k ∧ table.lookup k' = some v') := by
  by_cases hk : k' = k
  · subst hk
    simp [AList.lookup_insert, eq_comm]
  · simp [AList.lookup_insert_ne hk, hk]

theorem isSome_lookup_insert {k k' : κ} {v : ν} :
    ((table.insert k v).lookup k').isSome = true ↔ k' = k ∨ (table.lookup k').isSome = true := by
  by_cases hk : k' = k
  · subst hk
    simp
  · simp [AList.lookup_insert_ne hk, hk]

theorem lookup_erase_eq_some_iff {k k' : κ} {v : ν} :
    (table.erase k).lookup k' = some v ↔ k' ≠ k ∧ table.lookup k' = some v := by
  by_cases hk : k' = k
  · subst hk
    simp
  · simp [AList.lookup_erase_ne hk, hk]

theorem lookup_retain (keep : κ → ν → Bool) (k : κ) :
    (table.retain keep).lookup k = (table.lookup k).filter (keep k) := by
  ext v
  rw [← mem_entries, Option.filter_eq_some_iff, ← mem_entries]
  exact List.mem_filter

theorem lookup_mapValues (f : κ → ν → ν) (k : κ) :
    (table.mapValues f).lookup k = (table.lookup k).map (f k) := by
  ext v
  rw [← mem_entries, Option.map_eq_some_iff]
  constructor
  · intro h
    obtain ⟨entry, hentry, hsame⟩ := List.mem_map.mp h
    cases hsame
    exact ⟨entry.2, mem_entries.mp hentry, rfl⟩
  · intro h
    obtain ⟨old, hold, rfl⟩ := h
    exact List.mem_map.mpr ⟨⟨k, old⟩, mem_entries.mpr hold, rfl⟩

omit [DecidableEq κ] in
theorem total_mapValues (f : κ → ν → ν) (weight : κ → ν → Nat) :
    (table.mapValues f).total weight = table.total fun k v => weight k (f k v) := by
  simp [total, mapValues, List.map_map, Function.comp_def]

theorem notMem_of_lookup {k : κ} (h : table.lookup k = none) : k ∉ table := AList.lookup_eq_none.mp h

theorem size_insert {k : κ} (h : table.lookup k = none) (v : ν) : (table.insert k v).size = table.size + 1 := by
  unfold size
  rw [AList.entries_insert_of_notMem (notMem_of_lookup h), List.length_cons]

theorem total_insert (weight : κ → ν → Nat) {k : κ} (h : table.lookup k = none) (v : ν) :
    total (table.insert k v) weight = table.total weight + weight k v := by
  unfold total
  rw [AList.entries_insert_of_notMem (notMem_of_lookup h), List.map_cons, List.sum_cons, Nat.add_comm]

theorem perm_of_lookup {k : κ} {v : ν} (h : table.lookup k = some v) :
    table.entries.Perm (⟨k, v⟩ :: (table.erase k).entries) := by
  refine (List.perm_ext_iff_of_nodup (List.Nodup.of_map _ table.nodupKeys) ?_).mpr ?_
  · refine List.nodup_cons.mpr ⟨?_, List.Nodup.of_map _ (table.erase k).nodupKeys⟩
    intro hmem
    have := mem_entries.mp hmem
    rw [AList.lookup_erase] at this
    cases this
  · rintro ⟨k', v'⟩
    rw [List.mem_cons, mem_entries, mem_entries]
    by_cases hk : k' = k
    · subst hk
      simp [h, eq_comm]
    · simp [AList.lookup_erase_ne hk, hk]

theorem size_erase {k : κ} {v : ν} (h : table.lookup k = some v) : (table.erase k).size + 1 = table.size := by
  have := (perm_of_lookup h).length_eq
  simpa [size] using this.symm

theorem size_insert_of_lookup {k : κ} {v : ν} (h : table.lookup k = some v) (v' : ν) :
    (table.insert k v').size = table.size := by
  rw [← size_erase h]
  exact congrArg (· + 1) rfl

theorem total_erase (weight : κ → ν → Nat) {k : κ} {v : ν} (h : table.lookup k = some v) :
    total (table.erase k) weight + weight k v = table.total weight := by
  have := ((perm_of_lookup h).map fun entry => weight entry.1 entry.2).sum_nat
  rw [List.map_cons, List.sum_cons] at this
  rw [Nat.add_comm]
  exact this.symm

theorem total_insert_of_lookup (weight : κ → ν → Nat) {k : κ} {v : ν} (h : table.lookup k = some v) (v' : ν) :
    total (table.insert k v') weight + weight k v = table.total weight + weight k v' := by
  rw [← total_erase weight h]
  change (weight k v' + total (table.erase k) weight) + weight k v = _
  omega

omit [DecidableEq κ] in
theorem total_mono {weight weight' : κ → ν → Nat} (h : ∀ k v, weight k v ≤ weight' k v) :
    table.total weight ≤ table.total weight' :=
  List.sum_le_sum fun entry _ => h entry.1 entry.2

theorem total_insert_le (weight : κ → ν → Nat) (k : κ) (v : ν) :
    total (table.insert k v) weight ≤ table.total weight + weight k v := by
  cases h : table.lookup k with
  | none => exact Nat.le_of_eq (total_insert weight h v)
  | some old =>
    have := total_insert_of_lookup weight h v
    omega

theorem erase_of_lookup_none {k : κ} (h : table.lookup k = none) : table.erase k = table := by
  refine AList.ext ?_
  exact List.kerase_of_notMem_keys (notMem_of_lookup h)

theorem total_erase_le (weight : κ → ν → Nat) (k : κ) : total (table.erase k) weight ≤ table.total weight := by
  cases h : table.lookup k with
  | none => rw [erase_of_lookup_none h]
  | some old =>
    have := total_erase weight h
    omega

end AList
