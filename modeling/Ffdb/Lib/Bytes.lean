import Mathlib.Tactic.Linarith
import Mathlib.Data.List.Induction
import Ffdb.Lib.Sha256

/-! Byte strings of known length: fixed arrays, big-endian integers, and reading an
exact number of bytes off the front of an input. -/
namespace Octets
open Sha256 (bytesOf length_bytesOf)

abbrev Block (count : Nat) := { bytes : List UInt8 // bytes.length = count }

def ofBytes (bytes : List UInt8) : Nat := bytes.foldl (fun n byte => n*256+byte.toNat) 0

/-- `read_exact`: so many bytes and what is left, or nothing when the input is too short. -/
def readExact (count : Nat) (input : List UInt8) : Option (List UInt8 × List UInt8) :=
  if count ≤ input.length then some (input.take count, input.drop count) else none

theorem ofBytes_concat (bytes : List UInt8) (byte : UInt8) :
    ofBytes (bytes ++ [byte]) = ofBytes bytes*256+byte.toNat := by
  simp [ofBytes]

theorem ofBytes_bytesOf {count n : Nat} (h : n < 256^count) : ofBytes (bytesOf count n) = n := by
  induction count generalizing n with
  | zero =>
    have hzero : n = 0 := by simpa using h
    rw [hzero]
    rfl
  | succ count ih =>
    have hhigh : n/256 < 256^count := by
      rw [Nat.pow_succ] at h
      omega
    have hlow : (UInt8.ofNat n).toNat = n%256 := by simp
    rw [bytesOf, ofBytes_concat, ih hhigh, hlow]
    omega

theorem bytesOf_injective {count a b : Nat} (ha : a < 256^count) (hb : b < 256^count)
    (h : bytesOf count a = bytesOf count b) : a = b := by
  rw [← ofBytes_bytesOf ha, h, ofBytes_bytesOf hb]

theorem bytesOf_ofBytes (bytes : List UInt8) : bytesOf bytes.length (ofBytes bytes) = bytes := by
  induction bytes using List.reverseRecOn with
  | nil => rfl
  | append_singleton bytes byte ih =>
    have hbound : byte.toNat < 256 := byte.toNat_lt
    have hhigh : (ofBytes bytes*256+byte.toNat)/256 = ofBytes bytes := by omega
    have hlow : UInt8.ofNat (ofBytes bytes*256+byte.toNat) = byte := by
      apply UInt8.toNat_inj.mp
      rw [UInt8.toNat_ofNat']
      omega
    rw [List.length_append, List.length_singleton, bytesOf, ofBytes_concat, hhigh, ih, hlow]

theorem readExact_eq_some_iff {count : Nat} {input bytes rest : List UInt8} :
    readExact count input = some (bytes, rest) ↔ input = bytes ++ rest ∧ bytes.length = count := by
  unfold readExact
  constructor
  · intro h
    by_cases hlength : count ≤ input.length
    · rw [if_pos hlength] at h
      obtain ⟨rfl, rfl⟩ := Prod.mk.inj (Option.some.inj h)
      exact ⟨(List.take_append_drop count input).symm, List.length_take_of_le hlength⟩
    · rw [if_neg hlength] at h
      cases h
  · intro h
    obtain ⟨rfl, rfl⟩ := h
    simp

end Octets
