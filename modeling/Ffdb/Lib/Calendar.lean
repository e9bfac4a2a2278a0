import Mathlib.Data.Int.Basic
import Mathlib.Data.List.Basic
import Mathlib.Algebra.BigOperators.Group.List.Basic
import Mathlib.Tactic.Linarith

/-! The Gregorian calendar over all years, with days counted from the first of January of the year one. Months are
counted from zero within their year. -/
namespace Calendar

def isLeap (year : Int) : Bool := year % 4 = 0 && (year % 100 ≠ 0 || year % 400 = 0)

def monthLengths (year : Int) : List Int :=
  [31, if isLeap year then 29 else 28, 31, 30, 31, 30, 31, 31, 30, 31, 30, 31]

def daysBefore (year : Int) : Int := 365*(year - 1) + (year - 1)/4 - (year - 1)/100 + (year - 1)/400

def yearOf (day : Int) : Int :=
  let year := 400*day/146097 + 1
  if day < daysBefore year then year - 1 else if daysBefore (year + 1) ≤ day then year + 1 else year

section Locate
variable {lengths : List Int}

def locate : List Int → Int → Nat
  | [], _ => 0
  | length :: lengths, distance => if distance < length then 0 else locate lengths (distance - length) + 1

theorem locate_spec {distance : Int} (hstart : 0 ≤ distance) (hend : distance < lengths.sum) :
    locate lengths distance < lengths.length ∧ (lengths.take (locate lengths distance)).sum ≤ distance ∧
      distance < (lengths.take (locate lengths distance + 1)).sum := by
  induction lengths generalizing distance with
  | nil =>
    rw [List.sum_nil] at hend
    omega
  | cons length lengths ih =>
    unfold locate
    by_cases hfirst : distance < length
    · simp [hfirst, hstart]
    · rw [List.sum_cons] at hend
      obtain ⟨hbound, hbefore, hafter⟩ := @ih (distance - length) (by omega) (by omega)
      rw [if_neg hfirst, List.take_succ_cons, List.take_succ_cons, List.sum_cons, List.sum_cons, List.length_cons]
      omega

end Locate

def monthOf (day : Int) : Nat := locate (monthLengths (yearOf day)) (day - daysBefore (yearOf day))

/-- The first day of a month; the month after the last one of a year is the first of the next. -/
def monthStart (year : Int) (month : Nat) : Int := daysBefore year + ((monthLengths year).take month).sum

theorem daysBefore_succ (year : Int) : daysBefore (year + 1) = daysBefore year + (monthLengths year).sum := by
  have hsum : (monthLengths year).sum = if isLeap year then 366 else 365 := by
    unfold monthLengths
    cases isLeap year <;> rfl
  rw [hsum]
  by_cases hleap : isLeap year = true
  · rw [if_pos hleap]
    simp only [isLeap, Bool.and_eq_true, Bool.or_eq_true, decide_eq_true_eq] at hleap
    unfold daysBefore
    omega
  · rw [if_neg hleap]
    simp only [isLeap, Bool.and_eq_true, Bool.or_eq_true, decide_eq_true_eq] at hleap
    unfold daysBefore
    omega

theorem monthStart_twelve (year : Int) : monthStart year 12 = monthStart (year + 1) 0 := by
  unfold monthStart
  rw [daysBefore_succ, List.take_zero, List.sum_nil, add_zero]
  rfl

theorem yearOf_spec (day : Int) : daysBefore (yearOf day) ≤ day ∧ day < daysBefore (yearOf day + 1) := by
  unfold yearOf
  dsimp only
  split
  · unfold daysBefore at *
    omega
  · split
    · unfold daysBefore at *
      omega
    · omega

theorem monthOf_spec (day : Int) : monthOf day < 12 ∧ monthStart (yearOf day) (monthOf day) ≤ day ∧
    day < monthStart (yearOf day) (monthOf day + 1) := by
  obtain ⟨hstart, hend⟩ := yearOf_spec day
  rw [daysBefore_succ] at hend
  obtain ⟨hbound, hbefore, hafter⟩ :=
    @locate_spec (monthLengths (yearOf day)) (day - daysBefore (yearOf day)) (by omega) (by omega)
  unfold monthStart monthOf
  exact ⟨hbound, by omega, by omega⟩

example : (yearOf 730178, monthOf 730178, daysBefore 1970) = (2000, 1, 719162) := by decide

end Calendar
