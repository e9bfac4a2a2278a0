import Mathlib.Tactic.Linarith

/-! Saturating machine arithmetic: unsigned 64-bit successors over `Nat` and
signed 64-bit sums and differences. No wrap-around operation is provided. -/
namespace Saturating

def u64Max : Nat := 2^64-1

/-- Successor that sticks at `u64Max`. Values above the range stay where they are,
so the function is monotone on all of `Nat`. -/
def succ (n : Nat) : Nat := if n < u64Max then n+1 else n

theorem succ_of_lt {n : Nat} (h : n < u64Max) : succ n = n+1 := if_pos h

theorem le_succ (n : Nat) : n ≤ succ n := by
  unfold succ
  split <;> omega

theorem succ_pos {n : Nat} : 0 < succ n := by
  unfold succ
  split
  · omega
  · have : 0 < u64Max := by decide
    omega

/-- An unsaturated result certifies that the argument was not saturated either. -/
theorem lt_of_succ_lt {n : Nat} (h : succ n < u64Max) : n < u64Max :=
  lt_of_le_of_lt (le_succ n) h

def sub (a b : Int64) : Int64 := Int64.ofIntClamp (a.toInt-b.toInt)

def add (a b : Int64) : Int64 := Int64.ofIntClamp (a.toInt+b.toInt)

theorem toInt_clamp_le {i : Int} {t : Int64} (h : i ≤ t.toInt) :
    (Int64.ofIntClamp i).toInt ≤ t.toInt := by
  have hlo := Int64.minValue_le_toInt t
  have hhi := Int64.toInt_le t
  unfold Int64.ofIntClamp
  split
  · split
    · rwa [Int64.toInt_ofIntLE]
    · omega
  · simpa using hlo

theorem le_toInt_clamp {i : Int} {t : Int64} (h : t.toInt ≤ i) :
    t.toInt ≤ (Int64.ofIntClamp i).toInt := by
  have hlo := Int64.minValue_le_toInt t
  have hhi := Int64.toInt_le t
  unfold Int64.ofIntClamp
  split
  · split
    · rwa [Int64.toInt_ofIntLE]
    · simpa using hhi
  · omega

theorem toInt_clamp_le_self {i : Int} (h : 0 ≤ i) : (Int64.ofIntClamp i).toInt ≤ i := by
  unfold Int64.ofIntClamp
  split
  · split
    · rw [Int64.toInt_ofIntLE]
    · rw [Int64.toInt_maxValue]
      have : Int64.maxValue.toInt = 2^63-1 := by decide
      omega
  · have : Int64.minValue.toInt = -2^63 := by decide
    omega

theorem toInt_max (a b : Int64) : (max a b).toInt = max a.toInt b.toInt := by
  change (if a ≤ b then b else a).toInt = _
  split
  case isTrue h => rw [max_eq_right (Int64.le_iff_toInt_le.mp h)]
  case isFalse h => rw [max_eq_left (by have := mt Int64.le_iff_toInt_le.mpr h; omega)]

/-- The time since an earlier moment is at most the exact one, and none since a later one. -/
theorem max_sub_zero_le (a b : Int64) : (max (sub a b) 0).toInt ≤ (max b a).toInt-b.toInt := by
  rw [toInt_max, toInt_max, Int64.toInt_zero]
  refine max_le ?_ (by have := le_max_left b.toInt a.toInt; omega)
  obtain h | h := le_total b.toInt a.toInt
  · rw [max_eq_right h]
    exact toInt_clamp_le_self (by omega)
  · rw [max_eq_left h, Int.sub_self]
    have hzero : a.toInt-b.toInt ≤ (0 : Int64).toInt := by
      rw [Int64.toInt_zero]
      omega
    exact toInt_clamp_le hzero

/-- A cutoff computed with saturation never passes a time the exact one does not pass. -/
theorem sub_le_of_toInt_sub_le {a b t : Int64} (h : a.toInt-b.toInt ≤ t.toInt) : sub a b ≤ t :=
  Int64.le_iff_toInt_le.mpr (toInt_clamp_le h)

/-- Measured back from the end of time no cutoff is negative. -/
theorem sub_maxValue_nonneg (a : Int64) : 0 ≤ sub Int64.maxValue a := by
  have hhi := Int64.toInt_le a
  refine Int64.le_iff_toInt_le.mpr (le_toInt_clamp ?_)
  simp only [Int64.toInt_zero, Int64.toInt_maxValue] at *
  omega

end Saturating
