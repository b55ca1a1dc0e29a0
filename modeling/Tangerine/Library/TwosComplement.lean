import Mathlib.Data.Int.Bitwise
import Mathlib.Data.Nat.Digits.Lemmas

/-! Integers as two's complement bit strings, as big-integer libraries treat them. -/

namespace Tangerine.Library

/-- `(2^k - 1) \ n`: the low `k` bits that `n` lacks, the complement of `n % 2^k` below `2^k`. -/
theorem ldiff_two_pow_sub_one (k n : Nat) : Nat.ldiff (2 ^ k - 1) n = 2 ^ k - 1 - n % 2 ^ k := by
  apply Nat.eq_of_testBit_eq
  intro i
  have below : n % 2 ^ k < 2 ^ k := Nat.mod_lt _ (Nat.two_pow_pos k)
  rw [Nat.testBit_ldiff, Nat.testBit_two_pow_sub_one,
    show 2 ^ k - 1 - n % 2 ^ k = 2 ^ k - (n % 2 ^ k + 1) by omega,
    Nat.testBit_two_pow_sub_succ below, Nat.testBit_mod_two_pow]
  cases decide (i < k) <;> rfl

/-- Masking with `2^k - 1` is the remainder modulo `2^k`, for negative numbers too. -/
theorem land_two_pow_sub_one (x : Int) (k : Nat) :
    Int.land x ((2 ^ k - 1 : Nat) : Int) = x % ((2 ^ k : Nat) : Int) := by
  have positive := Nat.two_pow_pos k
  cases x with
  | ofNat n =>
      show ((n &&& (2 ^ k - 1) : Nat) : Int) = _
      rw [Nat.and_two_pow_sub_one_eq_mod]
      rfl
  | negSucc n =>
      show ((Nat.ldiff (2 ^ k - 1) n : Nat) : Int) = _
      rw [ldiff_two_pow_sub_one, Int.negSucc_emod _ (by omega)]
      have below : n % 2 ^ k < 2 ^ k := Nat.mod_lt _ positive
      push_cast [Nat.cast_sub (Nat.one_le_two_pow), Nat.cast_sub (by omega : n % 2 ^ k ≤ 2 ^ k - 1)]
      omega

theorem lnot_eq (x : Int) : Int.lnot x = -x - 1 := by
  cases x with
  | ofNat n =>
      show Int.negSucc n = -((n : Nat) : Int) - 1
      rw [Int.negSucc_eq]
      omega
  | negSucc n =>
      show ((n : Nat) : Int) = _
      rw [Int.negSucc_eq]
      omega

/-- ORing `n ≥ 0` with the complement of `2^k - 1` sets every bit from `k` on. -/
theorem lor_lnot_two_pow_sub_one (n k : Nat) :
    Int.lor n (Int.lnot ((2 ^ k - 1 : Nat) : Int)) = ((n % 2 ^ k : Nat) : Int) - ((2 ^ k : Nat) : Int) := by
  show Int.negSucc (Nat.ldiff (2 ^ k - 1) n) = _
  rw [ldiff_two_pow_sub_one, Int.negSucc_eq]
  have positive := Nat.two_pow_pos k
  have below : n % 2 ^ k < 2 ^ k := Nat.mod_lt _ positive
  push_cast [Nat.cast_sub (Nat.one_le_two_pow), Nat.cast_sub (by omega : n % 2 ^ k ≤ 2 ^ k - 1)]
  omega

/-- Bits `j` up to `j + k` of `x % 2^m` are those of `x`, below `m`. -/
theorem mod_two_pow_div_mod (x j k m : Nat) (inside : j + k ≤ m) :
    x % 2 ^ m / 2 ^ j % 2 ^ k = x / 2 ^ j % 2 ^ k := by
  apply Nat.eq_of_testBit_eq
  intro i
  simp only [Nat.testBit_mod_two_pow, Nat.testBit_div_two_pow]
  by_cases low : i < k
  · simp [low, show i + j < m by omega]
  · simp [low]

/-- Byte `n` of a number read from its base-`2^64` digit `n / 8` at byte `n % 8`. -/
theorem byte_of_digits (v n : Nat) :
    (Nat.digits (2 ^ 64) v).getD (n / 8) 0 / 2 ^ (8 * (n % 8)) % 2 ^ 8 = v / 2 ^ (8 * n) % 2 ^ 8 := by
  rw [Nat.getD_digits _ _ (by norm_num), ← pow_mul,
    mod_two_pow_div_mod _ _ _ _ (by omega), Nat.div_div_eq_div_mul, ← pow_add]
  congr 3
  omega

end Tangerine.Library
