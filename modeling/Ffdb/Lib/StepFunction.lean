import Mathlib.Algebra.BigOperators.Intervals
import Mathlib.Algebra.Order.BigOperators.Group.Finset
import Mathlib.Data.Int.ConditionallyCompleteOrder
import Mathlib.Data.Int.Interval
import Mathlib.Data.List.Sort

/-! Step functions over time, given by the steps in their order: every step sets the level from its time on, and what is
under the levels between two times is their sum. -/
namespace StepFunction
variable {τ ν : Type*} {time : τ → Int}

section Level
variable {value : τ → ν} {current : ν} {step : τ} {steps : List τ} {t : Int}

/-- The level at a time: that of the last step until then, or the one before all steps. -/
def level (time : τ → Int) (value : τ → ν) : ν → List τ → Int → ν
  | current, [], _ => current
  | current, step :: steps, t => if time step ≤ t then level time value (value step) steps t else current

def Ordered (time : τ → Int) (steps : List τ) : Prop := steps.Pairwise fun step step' => time step ≤ time step'

theorem level_of_le (h : time step ≤ t) :
    level time value current (step :: steps) t = level time value (value step) steps t := if_pos h

theorem level_of_lt (h : t < time step) : level time value current (step :: steps) t = current :=
  if_neg (not_le.mpr h)

/-- No step is there until some time, and the level is the first one, or it is that of the last of them. -/
theorem level_spec {R : τ → τ → Prop} (hsorted : steps.Pairwise R)
    (htime : ∀ step step', R step step' → time step ≤ time step') :
    (level time value current steps t = current ∧ ∀ step ∈ steps, t < time step) ∨
      ∃ last ∈ steps, time last ≤ t ∧ level time value current steps t = value last ∧
        ∀ step ∈ steps, time step ≤ t → step = last ∨ R step last := by
  induction steps generalizing current with
  | nil => exact .inl ⟨rfl, fun _ hnone => nomatch hnone⟩
  | cons first rest ih =>
    obtain ⟨hfirst, hrest⟩ := List.pairwise_cons.mp hsorted
    by_cases hbefore : time first ≤ t
    · right
      rw [level_of_le hbefore]
      obtain ⟨hlevel, hlater⟩ | ⟨last, hlast, htlast, hlevel, hmax⟩ := @ih (value first) hrest
      · refine ⟨first, List.mem_cons_self, hbefore, hlevel, fun step hstep hle => ?_⟩
        obtain rfl | hstep := List.mem_cons.mp hstep
        · exact .inl rfl
        · exact absurd hle (not_le.mpr (hlater step hstep))
      · refine ⟨last, List.mem_cons_of_mem first hlast, htlast, hlevel, fun step hstep hle => ?_⟩
        obtain rfl | hstep := List.mem_cons.mp hstep
        · exact .inr (hfirst last hlast)
        · exact hmax step hstep hle
    · refine .inl ⟨level_of_lt (not_le.mp hbefore), fun step hstep => ?_⟩
      obtain rfl | hstep := List.mem_cons.mp hstep
      · exact not_le.mp hbefore
      · exact (not_le.mp hbefore).trans_le (htime first step (hfirst step hstep))

end Level

section Area
variable {value : τ → ℕ} {current : ℕ} {step : τ} {steps : List τ} {start stop : Int}

noncomputable def area (time : τ → Int) (value : τ → ℕ) (current : ℕ) (steps : List τ) (start stop : Int) : ℕ :=
  ∑ t ∈ Finset.Ico start stop, level time value current steps t

theorem area_nil : area time value current [] start stop = current*(stop - start).toNat := by
  simp [area, level, mul_comm]

/-- A step before the beginning only sets the first level. -/
theorem area_cons_of_le (h : time step ≤ start) :
    area time value current (step :: steps) start stop = area time value (value step) steps start stop := by
  refine Finset.sum_congr rfl fun t ht => level_of_le (h.trans ?_)
  exact (Finset.mem_Ico.mp ht).1

theorem area_cons (hstart : start ≤ time step) (hstop : time step ≤ stop) :
    area time value current (step :: steps) start stop =
      current*(time step - start).toNat + area time value (value step) steps (time step) stop := by
  have hbefore : ∑ t ∈ Finset.Ico start (time step), level time value current (step :: steps) t =
      current*(time step - start).toNat := by
    rw [Finset.sum_congr rfl fun t ht => level_of_lt (Finset.mem_Ico.mp ht).2]
    simp [mul_comm]
  have hafter : ∑ t ∈ Finset.Ico (time step) stop, level time value current (step :: steps) t =
      area time value (value step) steps (time step) stop := area_cons_of_le le_rfl
  rw [← hbefore, ← hafter, area, ← Finset.Ico_union_Ico_eq_Ico hstart hstop,
    Finset.sum_union (Finset.Ico_disjoint_Ico_consecutive _ _ _)]

end Area

end StepFunction
