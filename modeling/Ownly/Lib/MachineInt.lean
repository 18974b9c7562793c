import Mathlib.Algebra.Group.Int.Defs
import Mathlib.Algebra.Group.Nat.Defs
import Mathlib.Tactic.Common

-- Reading fixed-width integers as mathematical ones while nothing wraps.
namespace MachineInt

theorem toInt_toInt64 (x : UInt64) (small : x.toNat < 2^63) : x.toInt64.toInt = x.toNat := by
  have value : x.toBitVec.toInt = x.toBitVec.toNat := BitVec.toInt_eq_toNat_of_lt (by
    have same : x.toBitVec.toNat = x.toNat := rfl
    omega)
  exact value

theorem toInt_toInt64_high (x : UInt64) (high : 2^63 ≤ x.toNat) : x.toInt64.toInt = (x.toNat : Int) - 2^64 := by
  have same : x.toBitVec.toNat = x.toNat := rfl
  have value : x.toBitVec.toInt = (x.toBitVec.toNat : Int) - 2^64 := by
    rw [BitVec.toInt_eq_toNat_cond,if_neg (by omega)]
    rfl
  exact value

theorem toInt_add (x y : Int64) (low : -2^63 ≤ x.toInt + y.toInt) (high : x.toInt + y.toInt < 2^63) :
    (x + y).toInt = x.toInt + y.toInt := by
  rw [Int64.toInt_add]
  exact Int.bmod_eq_of_le (by omega) (by omega)

theorem toInt_sub (x y : Int64) (low : -2^63 ≤ x.toInt - y.toInt) (high : x.toInt - y.toInt < 2^63) :
    (x - y).toInt = x.toInt - y.toInt := by
  rw [Int64.toInt_sub]
  exact Int.bmod_eq_of_le (by omega) (by omega)

theorem toInt_sub_high (x y : Int64) (high : 2^63 ≤ x.toInt - y.toInt) (small : x.toInt - y.toInt < 3 * 2^63) :
    (x - y).toInt = x.toInt - y.toInt - 2^64 := by
  rw [Int64.toInt_sub,← Int.sub_bmod_right]
  exact Int.bmod_eq_of_le (by omega) (by omega)

theorem toInt_max (x y : Int64) : (max x y).toInt = max x.toInt y.toInt := by
  have unfolded : max x y = if x ≤ y then y else x := rfl
  by_cases order : x ≤ y
  · rw [unfolded,if_pos order,Int.max_eq_right (Int64.le_iff_toInt_le.mp order)]
  · rw [unfolded,if_neg order,Int.max_eq_left]
    exact Int.le_of_lt (Int.not_le.mp (fun le => order (Int64.le_iff_toInt_le.mpr le)))

theorem toInt_min (x y : Int64) : (min x y).toInt = min x.toInt y.toInt := by
  have unfolded : min x y = if x ≤ y then x else y := rfl
  by_cases order : x ≤ y
  · rw [unfolded,if_pos order,Int.min_eq_left (Int64.le_iff_toInt_le.mp order)]
  · rw [unfolded,if_neg order,Int.min_eq_right]
    exact Int.le_of_lt (Int.not_le.mp (fun le => order (Int64.le_iff_toInt_le.mpr le)))

theorem toNat_toUInt64 (x : Int64) (nonneg : 0 ≤ x.toInt) : x.toUInt64.toNat = x.toInt.toNat :=
  Int64.toNat_toUInt64_of_le (Int64.le_iff_toInt_le.mpr (by simpa using nonneg))

theorem toNat_add (x y : UInt64) (small : x.toNat + y.toNat < 2^64) : (x + y).toNat = x.toNat + y.toNat := by
  rw [UInt64.toNat_add,Nat.mod_eq_of_lt small]

theorem toNat_ofNat (n : Nat) (small : n < 2^64) : (UInt64.ofNat n).toNat = n :=
  UInt64.toNat_ofNat_of_lt' small

theorem toNat_min (x y : UInt64) : (min x y).toNat = min x.toNat y.toNat := by
  have unfolded : min x y = if x ≤ y then x else y := rfl
  by_cases order : x ≤ y
  · rw [unfolded,if_pos order,Nat.min_eq_left (UInt64.le_iff_toNat_le.mp order)]
  · rw [unfolded,if_neg order,Nat.min_eq_right]
    exact Nat.le_of_lt (Nat.not_le.mp (fun le => order (UInt64.le_iff_toNat_le.mpr le)))

end MachineInt
