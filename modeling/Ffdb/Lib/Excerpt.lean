import Mathlib.Tactic.Linarith
import Mathlib.Data.Option.Basic

/-! A store of values by their keys that follows a log of updates, and a copy that is told of an
update only where it may see its value. -/
namespace Excerpt
variable {κ ν : Type*} [DecidableEq κ]

/-- An update stores its value under its key or removes what is there, then its value is what
was removed. -/
structure Update (κ ν : Type*) where
  key : κ
  value : ν
  removes : Bool

abbrev Store (κ ν : Type*) := κ → Option ν

def Store.apply (store : Store κ ν) (update : Update κ ν) : Store κ ν := fun key =>
  if update.key = key then if update.removes then none else some update.value else store key

variable (sees : κ → ν → Bool)

def Store.excerpt (store : Store κ ν) : Store κ ν := fun key => (store key).filter (sees key)

def Update.shown (update : Update κ ν) : Bool := sees update.key update.value

def Keeps (store : Store κ ν) (update : Update κ ν) : Prop :=
  ∀ value, store update.key = some value → sees update.key value = true → update.shown sees = true

def KeepsAll : Store κ ν → List (Update κ ν) → Prop
  | _, [] => True
  | store, update :: updates => Keeps sees store update ∧ KeepsAll (store.apply update) updates

variable {sees}

theorem KeepsAll.append {store : Store κ ν} {updates : List (Update κ ν)} (h : KeepsAll sees store updates)
    {update : Update κ ν} (hlast : Keeps sees (updates.foldl Store.apply store) update) :
    KeepsAll sees store (updates ++ [update]) := by
  induction updates generalizing store with
  | nil => exact ⟨hlast, trivial⟩
  | cons first updates ih => exact ⟨h.1, ih h.2 hlast⟩

theorem excerpt_apply {store : Store κ ν} {update : Update κ ν} (h : Keeps sees store update) :
    (store.apply update).excerpt sees =
      if update.shown sees then (store.excerpt sees).apply update else store.excerpt sees := by
  funext key
  by_cases hkey : update.key = key
  · subst hkey
    cases hshown : update.shown sees with
    | true =>
      have hsees : sees update.key update.value = true := hshown
      cases hremoves : update.removes <;> simp [Store.apply, Store.excerpt, hremoves, hsees]
    | false =>
      have hsees : sees update.key update.value = false := hshown
      -- neither the new value nor what was there can be seen
      have hbefore : (store update.key).filter (sees update.key) = none := by
        rw [Option.filter_eq_none_iff]
        intro value hvalue hseen
        rw [h value hvalue hseen] at hshown
        cases hshown
      cases hremoves : update.removes <;> simp [Store.apply, Store.excerpt, hremoves, hsees, hbefore]
  · cases update.shown sees <;> simp [Store.apply, Store.excerpt, hkey]

/-- The copy holds what may be seen of the store. -/
theorem foldl_shown {updates : List (Update κ ν)} {store : Store κ ν} (h : KeepsAll sees store updates) :
    (updates.filter (·.shown sees)).foldl Store.apply (store.excerpt sees) =
      (updates.foldl Store.apply store).excerpt sees := by
  induction updates generalizing store with
  | nil => rfl
  | cons update updates ih =>
    rw [List.foldl_cons, ← ih h.2, excerpt_apply h.1, List.filter_cons]
    cases update.shown sees <;> rfl

end Excerpt
