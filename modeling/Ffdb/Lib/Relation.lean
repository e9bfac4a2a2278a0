import Mathlib.Data.List.Nodup
import Mathlib.Algebra.Order.BigOperators.Group.List
import Mathlib.Tactic.Linarith

/-! Tables with constraints. Entries keep a row under an identity of their own; a relation
tells which rows cannot stand together, and a write either fails on such a row or displaces
it. Every write lists its effects on single rows, in the order in which they happen. -/
namespace Relation

structure Entry (ρ : Type) where
  id : Nat
  row : ρ
  deriving DecidableEq

inductive Conflict where
  | abort
  | replace
  deriving DecidableEq

inductive Effect (ρ : Type) where
  | insert (row : ρ)
  | update (old new : ρ)
  | delete (row : ρ)
  /-- deleted to make room for another row -/
  | displace (row : ρ)
  deriving DecidableEq

variable {ρ : Type}

structure Written (ρ : Type) where
  entries : List (Entry ρ)
  effects : List (Effect ρ)

def fresh (entries : List (Entry ρ)) : Nat := (entries.map Entry.id).sum+1

variable (clash : ρ → ρ → Bool)

def blocking (entries : List (Entry ρ)) (entry : Entry ρ) : List (Entry ρ) :=
  entries.filter fun other => other.id ≠ entry.id ∧ clash entry.row other.row

def cleared (entries : List (Entry ρ)) (entry : Entry ρ) : List (Entry ρ) :=
  entries.filter fun other => ¬(other.id ≠ entry.id ∧ clash entry.row other.row)

def clear (conflict : Conflict) (entries : List (Entry ρ)) (entry : Entry ρ) :
    Option (Written ρ) :=
  if conflict = .replace ∨ blocking clash entries entry = [] then
    some ⟨cleared clash entries entry, (blocking clash entries entry).map (.displace ·.row)⟩
  else none

def insert (conflict : Conflict) (entries : List (Entry ρ)) (row : ρ) : Option (Written ρ) := do
  let entry := ⟨fresh entries, row⟩
  let room ← clear clash conflict entries entry
  pure ⟨room.entries ++ [entry], room.effects ++ [.insert row]⟩

def change (conflict : Conflict) (entries : List (Entry ρ)) (old : Entry ρ) (row : ρ) :
    Option (Written ρ) := do
  let entry := ⟨old.id, row⟩
  let room ← clear clash conflict entries entry
  pure ⟨room.entries.map fun other => if other.id = old.id then entry else other,
    room.effects ++ [.update old.row row]⟩

def delete (entries : List (Entry ρ)) (selected : ρ → Bool) : Written ρ :=
  ⟨entries.filter (!selected ·.row), (entries.filter (selected ·.row)).map (.delete ·.row)⟩

def Distinct (entries : List (Entry ρ)) : Prop := (entries.map Entry.id).Nodup

theorem Distinct.eq_of_id {entries : List (Entry ρ)} (h : Distinct entries) {a b : Entry ρ}
    (ha : a ∈ entries) (hb : b ∈ entries) (hid : a.id = b.id) : a = b :=
  List.inj_on_of_nodup_map h ha hb hid

theorem lt_fresh {entries : List (Entry ρ)} {entry : Entry ρ} (h : entry ∈ entries) :
    entry.id < fresh entries :=
  Nat.lt_succ_of_le (List.single_le_sum (fun _ _ => Nat.zero_le _) _ (List.mem_map_of_mem h))

variable {clash}

theorem mem_cleared {entries : List (Entry ρ)} {entry other : Entry ρ} :
    other ∈ cleared clash entries entry ↔
      other ∈ entries ∧ (clash entry.row other.row = true → other.id = entry.id) := by
  simp only [cleared, List.mem_filter, decide_eq_true_eq, not_and, ne_eq]
  refine and_congr_right fun _ => ?_
  constructor
  · intro h hclash
    by_contra hne
    exact h hne hclash
  · intro h hne hclash
    exact hne (h hclash)

theorem clear_eq_some {conflict : Conflict} {entries : List (Entry ρ)} {entry : Entry ρ}
    {room : Written ρ} (h : clear clash conflict entries entry = some room) :
    room.entries = cleared clash entries entry ∧
      (conflict = .abort → ∀ other ∈ entries, clash entry.row other.row = true → other.id = entry.id) := by
  rw [clear, Option.ite_none_right_eq_some, Option.some.injEq] at h
  obtain ⟨hroom, rfl⟩ := h
  refine ⟨rfl, fun habort other hother hclash => ?_⟩
  obtain hreplace | hnone := hroom
  · rw [habort] at hreplace
    cases hreplace
  · by_contra hne
    have hmem : other ∈ blocking clash entries entry := by simp [blocking, hother, hne, hclash]
    rw [hnone] at hmem
    cases hmem

/-- What an insertion leaves: the entries that could stay, and the new one. -/
theorem mem_insert {conflict : Conflict} {entries : List (Entry ρ)} {row : ρ} {written : Written ρ}
    (h : insert clash conflict entries row = some written) (entry : Entry ρ) :
    entry ∈ written.entries ↔
      (entry ∈ entries ∧ clash row entry.row = false) ∨ entry = ⟨fresh entries, row⟩ := by
  simp only [insert, Option.bind_eq_bind, Option.bind_eq_some_iff] at h
  obtain ⟨room, hroom, hwritten⟩ := h
  cases hwritten
  simp only [(clear_eq_some hroom).1, List.mem_append, mem_cleared, List.mem_singleton]
  refine or_congr_left (and_congr_right fun hentry => ?_)
  have hne : entry.id ≠ fresh entries := (lt_fresh hentry).ne
  simp [hne]

/-- What a change leaves: the other entries that could stay, and the changed one. -/
theorem mem_change {conflict : Conflict} {entries : List (Entry ρ)} {old : Entry ρ} {row : ρ}
    {written : Written ρ} (h : change clash conflict entries old row = some written)
    (entry : Entry ρ) :
    entry ∈ written.entries ↔
      (entry ∈ entries ∧ entry.id ≠ old.id ∧ clash row entry.row = false) ∨
        ((∃ other ∈ entries, other.id = old.id) ∧ entry = ⟨old.id, row⟩) := by
  simp only [change, Option.bind_eq_bind, Option.bind_eq_some_iff] at h
  obtain ⟨room, hroom, hwritten⟩ := h
  cases hwritten
  simp only [(clear_eq_some hroom).1, List.mem_map, mem_cleared]
  constructor
  · intro h
    obtain ⟨other, ⟨hother, hstays⟩, rfl⟩ := h
    by_cases hid : other.id = old.id
    · exact .inr ⟨⟨other, hother, hid⟩, by simp [hid]⟩
    · rw [if_neg hid]
      exact .inl ⟨hother, hid, by simpa using fun hclash => hid (hstays hclash)⟩
  · intro h
    obtain ⟨hentry, hid, hclash⟩ | ⟨⟨other, hother, hid⟩, rfl⟩ := h
    · exact ⟨entry, ⟨hentry, by simp [hclash]⟩, by simp [hid]⟩
    · exact ⟨other, ⟨hother, fun _ => hid⟩, by simp [hid]⟩

/-- A write that fails on conflicts displaces nothing. -/
theorem no_clash_of_insert {entries : List (Entry ρ)} {row : ρ} {written : Written ρ}
    (h : insert clash .abort entries row = some written) :
    ∀ entry ∈ entries, clash row entry.row = false := by
  simp only [insert, Option.bind_eq_bind, Option.bind_eq_some_iff] at h
  obtain ⟨room, hroom, _⟩ := h
  intro entry hentry
  by_contra hclash
  have hid := (clear_eq_some hroom).2 rfl entry hentry (by simpa using hclash)
  exact absurd hid (lt_fresh hentry).ne

theorem no_clash_of_change {entries : List (Entry ρ)} {old : Entry ρ} {row : ρ} {written : Written ρ}
    (h : change clash .abort entries old row = some written) :
    ∀ entry ∈ entries, clash row entry.row = true → entry.id = old.id := by
  simp only [change, Option.bind_eq_bind, Option.bind_eq_some_iff] at h
  obtain ⟨room, hroom, _⟩ := h
  exact (clear_eq_some hroom).2 rfl

theorem Distinct.insert {conflict : Conflict} {entries : List (Entry ρ)} {row : ρ}
    {written : Written ρ} (hdistinct : Distinct entries)
    (h : insert clash conflict entries row = some written) : Distinct written.entries := by
  simp only [Relation.insert, Option.bind_eq_bind, Option.bind_eq_some_iff] at h
  obtain ⟨room, hroom, hwritten⟩ := h
  cases hwritten
  simp only [Distinct, (clear_eq_some hroom).1, List.map_append, List.map_cons, List.map_nil]
  refine List.Nodup.append (hdistinct.sublist ((List.filter_sublist).map _)) (List.nodup_singleton _) ?_
  intro id hid hfresh
  obtain ⟨entry, hentry, rfl⟩ := List.mem_map.mp hid
  rw [List.mem_singleton] at hfresh
  exact absurd hfresh (lt_fresh (mem_cleared.mp hentry).1).ne

theorem Distinct.change {conflict : Conflict} {entries : List (Entry ρ)} {old : Entry ρ} {row : ρ}
    {written : Written ρ} (hdistinct : Distinct entries)
    (h : change clash conflict entries old row = some written) : Distinct written.entries := by
  simp only [Relation.change, Option.bind_eq_bind, Option.bind_eq_some_iff] at h
  obtain ⟨room, hroom, hwritten⟩ := h
  cases hwritten
  have hids : (fun other : Entry ρ => (if other.id = old.id then (⟨old.id, row⟩ : Entry ρ) else other).id) =
      Entry.id := by
    funext other
    by_cases hid : other.id = old.id <;> simp [hid]
  simp only [Distinct, (clear_eq_some hroom).1, List.map_map]
  exact (congrArg (fun f => ((cleared clash entries ⟨old.id, row⟩).map f).Nodup) hids).mpr
    (hdistinct.sublist ((List.filter_sublist).map _))

def forEach {α : Type} (write : List (Entry ρ) → α → Option (Written ρ)) (entries : List (Entry ρ)) :
    List α → Option (Written ρ)
  | [] => some ⟨entries, []⟩
  | a :: rest => do
    let first ← write entries a
    let others ← forEach write first.entries rest
    pure ⟨others.entries, first.effects ++ others.effects⟩

/-- Between two states of a table, only allowed entries were lost and only admitted ones
came. -/
structure Within (allowed admitted : Entry ρ → Prop) (before now : List (Entry ρ)) : Prop where
  lost : ∀ entry ∈ before, entry ∉ now → allowed entry
  came : ∀ entry ∈ now, entry ∉ before → admitted entry

section Within
variable {allowed admitted : Entry ρ → Prop} {before now next : List (Entry ρ)}

theorem Within.refl : Within allowed admitted before before where
  lost _ hin hout := absurd hin hout
  came _ hin hout := absurd hin hout

theorem Within.step (h : Within allowed admitted before now)
    (hlost : ∀ entry ∈ before, entry ∈ now → entry ∉ next → allowed entry)
    (hcame : ∀ entry ∈ next, entry ∉ now → admitted entry) : Within allowed admitted before next where
  lost entry hin hout := by
    by_cases hnow : entry ∈ now
    · exact hlost entry hin hnow hout
    · exact h.lost entry hin hnow
  came entry hin hout := by
    by_cases hnow : entry ∈ now
    · exact h.came entry hnow hout
    · exact hcame entry hin hnow

end Within

end Relation
