import Mathlib.Data.List.Induction
import Mathlib.Data.List.Infix

/-! Chains of records, each of which carries the digest of the one before it. A digest that commits
to its record commits to everything before it. -/
namespace HashChain

/-- The digest of the record before, the digest a record carries, and the one it should carry. -/
structure Scheme (α δ : Type*) where
  previous : α → Option δ
  recorded : α → δ
  computed : α → δ

namespace Scheme
variable {α δ : Type*} (scheme : Scheme α δ)

def Linked : Option δ → List α → Prop
  | _, [] => True
  | start, a :: rest => scheme.previous a = start ∧ scheme.computed a = scheme.recorded a ∧
      Linked (some (scheme.recorded a)) rest

def head : Option δ → List α → Option δ
  | start, [] => start
  | _, a :: rest => head (some (scheme.recorded a)) rest

structure Committing : Prop where
  previous : ∀ {a b}, scheme.computed a = scheme.computed b → scheme.previous a = scheme.previous b
  unique : ∀ {a b}, scheme.computed a = scheme.computed b → scheme.recorded a = scheme.recorded b → a = b

variable {scheme} {start : Option δ} {xs ys xs' ys' : List α} {a b : α}

theorem head_append : scheme.head start (xs ++ ys) = scheme.head (scheme.head start xs) ys := by
  induction xs generalizing start with
  | nil => rfl
  | cons x xs ih => exact ih

theorem linked_append :
    scheme.Linked start (xs ++ ys) ↔ scheme.Linked start xs ∧ scheme.Linked (scheme.head start xs) ys := by
  induction xs generalizing start with
  | nil => simp [Linked, head]
  | cons x xs ih => simp only [List.cons_append, Linked, head, ih, and_assoc]

theorem head_concat : scheme.head start (xs ++ [a]) = some (scheme.recorded a) := by
  rw [head_append]
  rfl

/-- Linked records that carry the same digest are the same. -/
theorem Committing.eq_of_recorded (h : scheme.Committing) (ha : scheme.computed a = scheme.recorded a)
    (hb : scheme.computed b = scheme.recorded b) (hab : scheme.recorded a = scheme.recorded b) : a = b :=
  h.unique (ha.trans (hab.trans hb.symm)) hab

theorem Linked.front_unique (h : scheme.Committing) (hx : scheme.Linked none (xs ++ a :: xs'))
    (hy : scheme.Linked none (ys ++ b :: ys')) (hab : scheme.recorded a = scheme.recorded b) : xs = ys ∧ a = b := by
  induction xs using List.reverseRecOn generalizing ys a b xs' ys' with
  | nil =>
    obtain ⟨hprevious, ha, -⟩ := hx
    obtain ⟨-, hprevious', hb, -⟩ := linked_append.mp hy
    obtain rfl := h.eq_of_recorded ha hb hab
    cases ys using List.reverseRecOn with
    | nil => exact ⟨rfl, rfl⟩
    | append_singleton ys d =>
      rw [head_concat, hprevious] at hprevious'
      cases hprevious'
  | append_singleton xs c ih =>
    obtain ⟨-, hprevious, ha, -⟩ := linked_append.mp hx
    obtain ⟨-, hprevious', hb, -⟩ := linked_append.mp hy
    obtain rfl := h.eq_of_recorded ha hb hab
    rw [head_concat] at hprevious
    cases ys using List.reverseRecOn with
    | nil =>
      rw [hprevious] at hprevious'
      cases hprevious'
    | append_singleton ys d =>
      rw [head_concat, hprevious] at hprevious'
      rw [List.append_assoc] at hx hy
      obtain ⟨rfl, rfl⟩ := ih hx hy (Option.some.inj hprevious')
      exact ⟨rfl, rfl⟩

theorem Linked.recorded_ne (h : scheme.Committing) (hx : scheme.Linked none (xs ++ a :: ys)) (hb : b ∈ ys) :
    scheme.recorded b ≠ scheme.recorded a := by
  intro hsame
  obtain ⟨between, after, rfl⟩ := List.append_of_mem hb
  have hx' : scheme.Linked none ((xs ++ a :: between) ++ b :: after) := by simpa using hx
  obtain ⟨hfront, -⟩ := Linked.front_unique h hx hx' hsame.symm
  have hlength := congrArg List.length hfront
  simp at hlength

/-- A chain within another one is its front. -/
theorem Linked.prefix_of_subset (h : scheme.Committing) (hx : scheme.Linked none xs) (hy : scheme.Linked none ys)
    (hsubset : ys ⊆ xs) : ys <+: xs := by
  cases ys using List.reverseRecOn with
  | nil => exact List.nil_prefix
  | append_singleton ys a =>
    obtain ⟨front, after, rfl⟩ := List.append_of_mem (hsubset (by simp) : a ∈ xs)
    obtain ⟨rfl, -⟩ := Linked.front_unique h hx hy rfl
    exact ⟨after, by simp⟩

theorem Linked.of_leading (hx : scheme.Linked start xs) (hy : ys <+: xs) : scheme.Linked start ys := by
  obtain ⟨rest, rfl⟩ := hy
  exact (linked_append.mp hx).1

theorem Linked.eq_of_perm (h : scheme.Committing) (hx : scheme.Linked none xs) (hy : scheme.Linked none ys)
    (hperm : ys.Perm xs) : ys = xs :=
  (Linked.prefix_of_subset h hx hy hperm.subset).eq_of_length hperm.length_eq

/-- Only the last record of a chain can be replaced. -/
theorem Linked.last_of_replaced (h : scheme.Committing) (hx : scheme.Linked none (xs ++ a :: ys))
    (hy : scheme.Linked none (xs ++ b :: ys)) (hne : b ≠ a) : ys = [] := by
  cases ys with
  | nil => rfl
  | cons y ys =>
    obtain ⟨-, -, ha, hprevious, -⟩ := linked_append.mp hx
    obtain ⟨-, -, hb, hprevious', -⟩ := linked_append.mp hy
    rw [hprevious] at hprevious'
    exact absurd (h.eq_of_recorded hb ha (Option.some.inj hprevious').symm) hne

/-- Only the last record of a chain can be taken out. -/
theorem Linked.last_of_removed (h : scheme.Committing) (hx : scheme.Linked none (xs ++ a :: ys))
    (hy : scheme.Linked none (xs ++ ys)) : ys = [] := by
  cases ys with
  | nil => rfl
  | cons y ys =>
    obtain ⟨-, -, -, hprevious, -⟩ := linked_append.mp hx
    obtain ⟨-, hprevious', -⟩ := linked_append.mp hy
    cases xs using List.reverseRecOn with
    | nil =>
      rw [hprevious] at hprevious'
      cases hprevious'
    | append_singleton xs b =>
      rw [head_concat, hprevious] at hprevious'
      have hx' : scheme.Linked none (xs ++ b :: (a :: y :: ys)) := by simpa using hx
      exact absurd (Option.some.inj hprevious') (Linked.recorded_ne h hx' List.mem_cons_self)

end Scheme

end HashChain
