import Mathlib.Data.Nat.Notation

-- Numbers in decimal digits, filled up with zeros to a width.
namespace Digits

def padded (width n : Nat) : List Char :=
  List.replicate (width - (Nat.toDigits 10 n).length) '0' ++ Nat.toDigits 10 n

theorem ofDigitChars_padded (width n : Nat) : Nat.ofDigitChars 10 (padded width n) 0 = n := by
  rw [padded,Nat.ofDigitChars_append,Nat.ofDigitChars_replicate_zero,Nat.mul_zero,Nat.ofDigitChars_ten_toDigits]

theorem padded_inj {width n m : Nat} (same : padded width n = padded width m) : n = m := by
  rw [← ofDigitChars_padded width n,same,ofDigitChars_padded]

end Digits
