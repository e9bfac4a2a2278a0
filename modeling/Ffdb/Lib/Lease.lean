import Mathlib.Tactic.Linarith

/-! Work under leases: a piece of work waits until it is due, is held under a token until a time, goes back or to the
next holder when that time is over, and is done at last. -/
namespace Lease

inductive Item (τ : Type*) where
  | absent
  | waiting (due : Int)
  | held (token : τ) (expires : Int)
  | done

inductive Move (τ : Type*) where
  | offer (due : Int)
  | grant (now : Int) (token : τ) (expires : Int)
  | finish (token : τ)
  | giveBack (token : τ) (retry : Int)

variable {τ : Type*}

def Item.Available (item : Item τ) (now : Int) : Prop :=
  match item with
  | .absent | .done => False
  | .waiting due => due ≤ now
  | .held _ expires => expires ≤ now

inductive Step : Item τ → Move τ → Item τ → Prop
  | offer {due : Int} : Step .absent (.offer due) (.waiting due)
  | grant {item : Item τ} {now : Int} {token : τ} {expires : Int} (available : item.Available now) :
    Step item (.grant now token expires) (.held token expires)
  | finish {token : τ} {expires : Int} : Step (.held token expires) (.finish token) .done
  | giveBack {token : τ} {expires retry : Int} : Step (.held token expires) (.giveBack token retry) (.waiting retry)

inductive Steps : Item τ → List (Move τ) → Item τ → Prop
  | nil (item : Item τ) : Steps item [] item
  | cons {item next last : Item τ} {move : Move τ} {moves : List (Move τ)} (first : Step item move next)
    (rest : Steps next moves last) : Steps item (move :: moves) last

def Move.leaves : Move τ → Item τ
  | .offer due => .waiting due
  | .grant _ token expires => .held token expires
  | .finish _ => .done
  | .giveBack _ retry => .waiting retry

section Steps
variable {item next final : Item τ} {move : Move τ} {moves more : List (Move τ)} {token : τ} {expires : Int}

theorem Step.leaves (h : Step item move next) : next = move.leaves := by
  cases h <;> rfl

theorem Steps.append (h : Steps item moves next) (h' : Steps next more final) : Steps item (moves ++ more) final := by
  induction h with
  | nil => exact h'
  | cons first _ ih => exact .cons first (ih h')

theorem Steps.split (h : Steps item (moves ++ more) final) : ∃ next, Steps item moves next ∧ Steps next more final := by
  induction moves generalizing item with
  | nil => exact ⟨item, .nil item, h⟩
  | cons move moves ih =>
    cases h with
    | cons first rest =>
      obtain ⟨middle, hleft, hright⟩ := ih rest
      exact ⟨middle, .cons first hleft, hright⟩

theorem Steps.last (h : Steps item (moves ++ [move]) final) : final = move.leaves := by
  obtain ⟨next, -, hlast⟩ := h.split
  cases hlast with
  | cons first rest =>
    cases rest
    exact first.leaves

theorem Steps.done (h : Steps .done moves final) : moves = [] ∧ final = (.done : Item τ) := by
  cases h with
  | nil => exact ⟨rfl, rfl⟩
  | cons first _ =>
    cases first with
    | grant available => exact available.elim

/-- Who finishes or gives back holds the lease that was granted last. -/
theorem Steps.holder (h : Steps .absent moves (.held token expires)) :
    ∃ earlier now, moves = earlier ++ [.grant now token expires] := by
  obtain rfl | ⟨earlier, move, rfl⟩ := moves.eq_nil_or_concat
  · cases h
  · rw [List.concat_eq_append] at h ⊢
    have hlast := h.last
    cases move with
    | grant now token' expires' =>
      obtain ⟨rfl, rfl⟩ := Item.held.inj hlast
      exact ⟨earlier, now, rfl⟩
    | offer | finish | giveBack => cases hlast

def grantTimes (moves : List (Move τ)) : List Int :=
  moves.filterMap fun
    | .grant now _ _ => some now
    | _ => none

/-- When a lease is granted, one that was granted before is over: its time has come, or its holder gave it back. -/
theorem Steps.exclusive {middle : List (Move τ)} {now now' : Int} {token' : τ} {expires' : Int}
    (h : Steps item (.grant now token expires :: middle ++ [.grant now' token' expires']) final)
    (hclock : (grantTimes (middle ++ [.grant now' token' expires'])).Pairwise (· ≤ ·)) :
    expires ≤ now' ∨ ∃ retry, .giveBack token retry ∈ middle := by
  cases h with
  | cons first rest =>
    obtain rfl := first.leaves
    cases middle with
    | nil =>
      cases rest with
      | cons second _ =>
        cases second with
        | grant available => exact .inl available
    | cons move middle =>
      cases rest with
      | cons second rest =>
        cases second with
        | giveBack => exact .inr ⟨_, List.mem_cons_self⟩
        | finish =>
          have hnone := rest.done.1
          simp at hnone
        | grant available =>
          simp only [List.cons_append, grantTimes, List.filterMap_cons, List.filterMap_append, List.filterMap_nil,
            List.pairwise_cons] at hclock
          have hlater := hclock.1 now' (by simp)
          exact .inl (available.trans hlater)

end Steps

end Lease
