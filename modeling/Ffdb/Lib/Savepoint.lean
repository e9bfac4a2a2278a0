import Mathlib.Tactic.Linarith
import Ffdb.Lib.Text

/-! A database connection with one transaction at a time and named savepoints inside it, as
SQLite has them: a savepoint outside of a transaction opens one, and releasing it commits. -/
namespace Savepoint
open Text
variable {σ : Type}

/-- An open transaction: the contents it would go back to, whether `BEGIN` opened it, and its
savepoints with the contents at each, the latest first. -/
structure Transaction (σ : Type) where
  start : σ
  begun : Bool
  savepoints : List (List Char × σ)

structure Connection (σ : Type) where
  contents : σ
  transaction : Option (Transaction σ)

def named (name : List Char) (savepoints : List (List Char × σ)) : List (List Char × σ) :=
  savepoints.dropWhile fun savepoint => !eqIgnoreAsciiCase savepoint.1 name

namespace Connection

def begin (c : Connection σ) : Option (Connection σ) :=
  match c.transaction with
  | none => some { c with transaction := some ⟨c.contents, true, []⟩ }
  | some _ => none

/-- Fails, and keeps the transaction, on contents that break a deferred constraint. -/
def commit (valid : σ → Bool) (c : Connection σ) : Option (Connection σ) :=
  match c.transaction with
  | none => none
  | some _ => if valid c.contents then some ⟨c.contents, none⟩ else none

def rollback (c : Connection σ) : Option (Connection σ) :=
  c.transaction.map fun t => ⟨t.start, none⟩

def abort (c : Connection σ) : Connection σ := c.rollback.getD c

def savepoint (name : List Char) (c : Connection σ) : Connection σ :=
  match c.transaction with
  | none => { c with transaction := some ⟨c.contents, false, [(name, c.contents)]⟩ }
  | some t => { c with transaction := some { t with savepoints := (name, c.contents) :: t.savepoints } }

def release (valid : σ → Bool) (name : List Char) (c : Connection σ) : Option (Connection σ) := do
  let t ← c.transaction
  match named name t.savepoints with
  | [] => none
  | _ :: rest =>
    if rest.isEmpty && !t.begun then c.commit valid
    else some { c with transaction := some { t with savepoints := rest } }

def rollbackTo (name : List Char) (c : Connection σ) : Option (Connection σ) := do
  let t ← c.transaction
  match named name t.savepoints with
  | [] => none
  | point :: rest => some ⟨point.2, some { t with savepoints := point :: rest }⟩

def Since (start : σ) (c : Connection σ) : Prop :=
  ∃ t, c.transaction = some t ∧ t.begun = true ∧ t.start = start

def Idle (c : Connection σ) : Prop := c.transaction = none

section Since
variable {start : σ} {c c' : Connection σ}

theorem Since.savepoint (h : c.Since start) (name : List Char) : (c.savepoint name).Since start := by
  obtain ⟨t, ht, hbegun, hstart⟩ := h
  unfold Connection.savepoint
  rw [ht]
  exact ⟨_, rfl, hbegun, hstart⟩

theorem Since.release {valid : σ → Bool} {name : List Char} (h : c.Since start)
    (hrelease : c.release valid name = some c') : c'.Since start ∧ c'.contents = c.contents := by
  obtain ⟨t, ht, hbegun, hstart⟩ := h
  simp only [Connection.release, ht, Option.bind_eq_bind, Option.bind_some] at hrelease
  split at hrelease
  · cases hrelease
  · rw [hbegun] at hrelease
    obtain rfl := Option.some.inj (by simpa using hrelease)
    exact ⟨⟨_, rfl, rfl, hstart⟩, rfl⟩

theorem Since.rollbackTo {name : List Char} (h : c.Since start) (hrollback : c.rollbackTo name = some c') :
    c'.Since start := by
  obtain ⟨t, ht, hbegun, hstart⟩ := h
  simp only [Connection.rollbackTo, ht, Option.bind_eq_bind, Option.bind_some] at hrollback
  split at hrollback
  · cases hrollback
  · obtain rfl := Option.some.inj hrollback
    exact ⟨_, rfl, hbegun, hstart⟩

theorem Since.rollback (h : c.Since start) : c.rollback = some ⟨start, none⟩ := by
  obtain ⟨t, ht, -, rfl⟩ := h
  simp [Connection.rollback, ht]

theorem Since.abort (h : c.Since start) : c.abort = ⟨start, none⟩ := by
  rw [Connection.abort, h.rollback]
  rfl

theorem Since.commit {valid : σ → Bool} (h : c.Since start) :
    c.commit valid = if valid c.contents then some ⟨c.contents, none⟩ else none := by
  obtain ⟨t, ht, -, -⟩ := h
  simp [Connection.commit, ht]

theorem Since.write (h : c.Since start) (contents : σ) : ({ c with contents } : Connection σ).Since start := h

end Since

theorem Idle.release {valid : σ → Bool} {c : Connection σ} (h : c.Idle) (name : List Char) :
    c.release valid name = none := by
  unfold Idle at h
  simp [Connection.release, h]

theorem Idle.rollbackTo {c : Connection σ} (h : c.Idle) (name : List Char) : c.rollbackTo name = none := by
  unfold Idle at h
  simp [Connection.rollbackTo, h]

def All (P : σ → Prop) (c : Connection σ) : Prop :=
  P c.contents ∧ ∀ t, c.transaction = some t → P t.start ∧ ∀ point ∈ t.savepoints, P point.2

section All
variable {P : σ → Prop} {c c' : Connection σ}

theorem mem_of_named {name : List Char} {savepoints rest : List (List Char × σ)} {point : List Char × σ}
    (h : named name savepoints = point :: rest) : ∀ other ∈ point :: rest, other ∈ savepoints := by
  intro other hother
  rw [← h] at hother
  exact (List.dropWhile_sublist _).subset hother

theorem All.write (h : c.All P) {contents : σ} (hcontents : P contents) :
    ({ c with contents } : Connection σ).All P := ⟨hcontents, h.2⟩

theorem All.begin (h : c.All P) (hbegin : c.begin = some c') : c'.All P := by
  unfold Connection.begin at hbegin
  split at hbegin
  · obtain rfl := Option.some.inj hbegin
    refine ⟨h.1, ?_⟩
    rintro t ht
    obtain rfl := Option.some.inj ht
    exact ⟨h.1, by simp⟩
  · cases hbegin

theorem All.commit {valid : σ → Bool} (h : c.All P) (hcommit : c.commit valid = some c') : c'.All P := by
  unfold Connection.commit at hcommit
  split at hcommit
  · cases hcommit
  · split at hcommit
    · obtain rfl := Option.some.inj hcommit
      exact ⟨h.1, by simp⟩
    · cases hcommit

theorem All.rollback (h : c.All P) (hrollback : c.rollback = some c') : c'.All P := by
  unfold Connection.rollback at hrollback
  obtain ⟨t, ht, rfl⟩ := Option.map_eq_some_iff.mp hrollback
  exact ⟨(h.2 t ht).1, by simp⟩

theorem All.abort (h : c.All P) : c.abort.All P := by
  unfold Connection.abort
  cases hrollback : c.rollback with
  | none => exact h
  | some c' => exact h.rollback hrollback

theorem All.savepoint (h : c.All P) (name : List Char) : (c.savepoint name).All P := by
  unfold Connection.savepoint
  cases ht : c.transaction with
  | none =>
    refine ⟨h.1, ?_⟩
    intro t htransaction
    obtain rfl := Option.some.inj htransaction
    exact ⟨h.1, by simpa using h.1⟩
  | some t =>
    obtain ⟨hstart, hpoints⟩ := h.2 t ht
    refine ⟨h.1, ?_⟩
    intro t' htransaction
    obtain rfl := Option.some.inj htransaction
    exact ⟨hstart, by simpa using ⟨h.1, by simpa using hpoints⟩⟩

theorem All.release {valid : σ → Bool} {name : List Char} (h : c.All P)
    (hrelease : c.release valid name = some c') : c'.All P := by
  cases ht : c.transaction with
  | none => simp [Connection.release, ht] at hrelease
  | some t =>
    simp only [Connection.release, ht, Option.bind_eq_bind, Option.bind_some] at hrelease
    obtain ⟨hstart, hpoints⟩ := h.2 t ht
    cases hnamed : named name t.savepoints with
    | nil =>
      rw [hnamed] at hrelease
      cases hrelease
    | cons point rest =>
      rw [hnamed] at hrelease
      dsimp only at hrelease
      split at hrelease
      · exact h.commit hrelease
      · obtain rfl := Option.some.inj hrelease
        refine ⟨h.1, ?_⟩
        intro t' htransaction
        obtain rfl := Option.some.inj htransaction
        exact ⟨hstart, fun other hother => hpoints other (mem_of_named hnamed other (by simp [hother]))⟩

theorem All.rollbackTo {name : List Char} (h : c.All P) (hrollback : c.rollbackTo name = some c') :
    c'.All P := by
  cases ht : c.transaction with
  | none => simp [Connection.rollbackTo, ht] at hrollback
  | some t =>
    simp only [Connection.rollbackTo, ht, Option.bind_eq_bind, Option.bind_some] at hrollback
    obtain ⟨hstart, hpoints⟩ := h.2 t ht
    cases hnamed : named name t.savepoints with
    | nil =>
      rw [hnamed] at hrollback
      cases hrollback
    | cons point rest =>
      rw [hnamed] at hrollback
      obtain rfl := Option.some.inj hrollback
      have hkept : ∀ other ∈ point :: rest, P other.2 := fun other hother =>
        hpoints other (mem_of_named hnamed other hother)
      refine ⟨hkept point (by simp), ?_⟩
      intro t' htransaction
      obtain rfl := Option.some.inj htransaction
      exact ⟨hstart, hkept⟩

end All

end Connection
end Savepoint
