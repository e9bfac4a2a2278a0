import Mathlib.Tactic.Linarith

/-! Three-valued logic as SQL has it: an operand that is not known leaves a connective
open unless the other operand decides it. -/
inductive Truth where
  | true
  | false
  | unknown
  deriving DecidableEq

namespace Truth

def ofBool (b : Bool) : Truth := if b then .true else .false

def not : Truth → Truth
  | .true => .false
  | .false => .true
  | .unknown => .unknown

def and : Truth → Truth → Truth
  | .true, b => b
  | .false, _ => .false
  | .unknown, .false => .false
  | .unknown, _ => .unknown

def or : Truth → Truth → Truth
  | .true, _ => .true
  | .false, b => b
  | .unknown, .true => .true
  | .unknown, _ => .unknown

@[simp] theorem ofBool_eq_true (b : Bool) : ofBool b = .true ↔ b := by
  cases b <;> decide

@[simp] theorem not_ofBool (b : Bool) : not (ofBool b) = ofBool (!b) := by
  cases b <;> rfl

@[simp] theorem or_ofBool (a b : Bool) : or (ofBool a) (ofBool b) = ofBool (a || b) := by
  cases a <;> cases b <;> rfl

@[simp] theorem and_eq_true (a b : Truth) : and a b = .true ↔ a = .true ∧ b = .true := by
  cases a <;> cases b <;> decide

@[simp] theorem or_eq_true (a b : Truth) : or a b = .true ↔ a = .true ∨ b = .true := by
  cases a <;> cases b <;> decide

theorem foldl_or_eq_true {α : Type} (value : α → Truth) (x : α) (xs : List α) :
    (xs.map value).foldl or (value x) = .true ↔ ∃ y ∈ x :: xs, value y = .true := by
  have hgeneral (a : Truth) :
      (xs.map value).foldl or a = .true ↔ a = .true ∨ ∃ y ∈ xs, value y = .true := by
    induction xs generalizing a with
    | nil => simp
    | cons y xs ih => simp [ih, or_assoc]
  simp [hgeneral]

theorem foldl_and_eq_true {α : Type} (value : α → Truth) (x : α) (xs : List α) :
    (xs.map value).foldl and (value x) = .true ↔ ∀ y ∈ x :: xs, value y = .true := by
  have hgeneral (a : Truth) :
      (xs.map value).foldl and a = .true ↔ a = .true ∧ ∀ y ∈ xs, value y = .true := by
    induction xs generalizing a with
    | nil => simp
    | cons y xs ih => simp [ih, and_assoc]
  simp [hgeneral]

end Truth
