import Mathlib.Tactic.Linarith

/-! Reference counts with a flag. A mark is there while it is flagged or something holds it; once it
is flagged it stays, and its count is no longer relied upon. -/
namespace Tally

structure Mark where
  flagged : Bool
  count : Nat

def flag : Option Mark → Option Mark
  | none => some ⟨true, 0⟩
  | some mark => some ⟨true, mark.count⟩

def hold : Option Mark → Option Mark
  | none => some ⟨false, 1⟩
  | some mark => some ⟨mark.flagged, mark.count + 1⟩

/-- A holder lets go; a mark that nothing stands for goes with it. -/
def drop : Option Mark → Option Mark
  | none => none
  | some mark => if !mark.flagged && mark.count - 1 = 0 then none else some ⟨mark.flagged, mark.count - 1⟩

/-- A holder lets go and leaves the flag behind. -/
def convert : Option Mark → Option Mark
  | none => some ⟨true, 0⟩
  | some mark => some ⟨true, mark.count - 1⟩

def Mark.isCounted (mark : Mark) : Bool := mark.flagged || 0 < mark.count

/-- The mark tells whether it was flagged, and how many hold it unless it was. -/
def Stands (mark : Option Mark) (flagged : Prop) (holders : Nat) : Prop :=
  match mark with
  | none => ¬flagged ∧ holders = 0
  | some mark => (mark.flagged = true ↔ flagged) ∧ mark.count ≤ holders ∧
      (mark.flagged = false → mark.count = holders ∧ 0 < holders)

variable {mark : Option Mark} {flagged : Prop} {holders : Nat}

theorem Stands.congr {flagged' : Prop} (h : Stands mark flagged holders) (hflagged : flagged ↔ flagged') :
    Stands mark flagged' holders := propext hflagged ▸ h

theorem Stands.flag (h : Stands mark flagged holders) : Stands (flag mark) True holders := by
  cases mark with
  | none => exact ⟨by simp, Nat.zero_le _, fun hfalse => nomatch hfalse⟩
  | some mark => exact ⟨by simp, h.2.1, fun hfalse => nomatch hfalse⟩

theorem Stands.hold (h : Stands mark flagged holders) : Stands (hold mark) flagged (holders + 1) := by
  cases mark with
  | none =>
    obtain ⟨hflagged, rfl⟩ := h
    exact ⟨by simpa using hflagged, le_rfl, fun _ => ⟨rfl, Nat.one_pos⟩⟩
  | some mark =>
    obtain ⟨hflagged, hcount, hunflagged⟩ := h
    refine ⟨hflagged, Nat.add_le_add_right hcount 1, fun hfalse => ?_⟩
    exact ⟨congrArg (· + 1) (hunflagged hfalse).1, Nat.succ_pos holders⟩

theorem Stands.drop (h : Stands mark flagged (holders + 1)) : Stands (drop mark) flagged holders := by
  cases mark with
  | none => exact absurd h.2 (Nat.succ_ne_zero holders)
  | some mark =>
    obtain ⟨hflagged, hcount, hunflagged⟩ := h
    change Stands (if !mark.flagged && mark.count - 1 = 0 then none else some ⟨mark.flagged, mark.count - 1⟩) _ _
    cases hmark : mark.flagged with
    | true =>
      rw [hmark] at hflagged
      exact ⟨hflagged, Nat.sub_le_of_le_add hcount, fun hfalse => nomatch hfalse⟩
    | false =>
      obtain ⟨hexact, -⟩ := hunflagged hmark
      rw [hmark] at hflagged
      have hcount' : mark.count - 1 = holders := by omega
      rw [hcount']
      by_cases hlast : holders = 0
      · rw [if_pos (by simp [hlast])]
        exact ⟨fun hyes => (nomatch hflagged.mpr hyes), hlast⟩
      · rw [if_neg (by simp [hlast])]
        exact ⟨hflagged, le_rfl, fun _ => ⟨rfl, Nat.pos_of_ne_zero hlast⟩⟩

theorem Stands.convert {holders' : Nat} (h : Stands mark flagged holders) (hholders : holders ≤ holders' + 1) :
    Stands (convert mark) True holders' := by
  cases mark with
  | none => exact ⟨by simp, Nat.zero_le _, fun hfalse => nomatch hfalse⟩
  | some mark =>
    have hcount : mark.count ≤ holders := h.2.1
    exact ⟨by simp, by simp only; omega, fun hfalse => nomatch hfalse⟩

theorem Stands.isCounted {mark : Mark} (h : Stands (some mark) flagged holders) : mark.isCounted = true := by
  unfold Mark.isCounted
  cases hmark : mark.flagged with
  | true => rfl
  | false =>
    obtain ⟨hcount, hpos⟩ := h.2.2 hmark
    simpa [hcount] using hpos

/-- There is a mark exactly when it was flagged or something holds it. -/
theorem Stands.isSome_iff (h : Stands mark flagged holders) : mark.isSome = true ↔ flagged ∨ 0 < holders := by
  cases mark with
  | none =>
    obtain ⟨hflagged, rfl⟩ := h
    simpa using hflagged
  | some mark =>
    simp only [Option.isSome_some, true_iff]
    cases hmark : mark.flagged with
    | true => exact .inl (h.1.mp hmark)
    | false => exact .inr (h.2.2 hmark).2

end Tally
