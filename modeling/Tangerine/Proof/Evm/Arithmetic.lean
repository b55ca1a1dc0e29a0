import Tangerine.Core.Vm.Instructions
import Mathlib.Data.Int.ModEq
import Tangerine.Library.TwosComplement
import Tangerine.Library.Transition

/-! The word arithmetic of the EVM meets the Yellow Paper on operands below `2^256`. -/

namespace Tangerine.Proof.Arithmetic

open Tangerine.Core.Vm Tangerine.Library

/-! ### Words -/

/-- A word read as a signed number. -/
def toSigned (a : Nat) : Int := if a < 2 ^ 255 then a else (a : Int) - 2 ^ 256

/-- A number written as a word: its remainder modulo `2^256`. -/
def toWord (x : Int) : Nat := (x % 2 ^ 256).toNat

/-- `SIGNEXTEND b x`: the low `8(b+1)` bits of `x` with the highest of them copied upwards. -/
def signExtend (b x : Nat) : Nat :=
  if b < 31 then
    let k := 8 * (b + 1)
    if x.testBit (k - 1) then x % 2 ^ k + (2 ^ 256 - 2 ^ k) else x % 2 ^ k
  else x

/-- An instruction's result on one operand. -/
def unary (f : Nat → Nat) : List Nat → Nat
  | [a] => f a
  | _ => 0

/-- An instruction's result on two operands, the top first. -/
def binary (f : Nat → Nat → Nat) : List Nat → Nat
  | [a, b] => f a b
  | _ => 0

/-- An instruction's result on three operands, the top first. -/
def ternary (f : Nat → Nat → Nat → Nat) : List Nat → Nat
  | [a, b, c] => f a b c
  | _ => 0

/-- The result of each instruction on its operands, as the Yellow Paper gives it. -/
def yellowPaper : ArithOp → List Nat → Nat
  | .add => binary fun a b => (a + b) % 2 ^ 256
  | .mul => binary fun a b => a * b % 2 ^ 256
  | .sub => binary fun a b => toWord ((a : Int) - b)
  | .div => binary fun a b => if b = 0 then 0 else a / b
  | .sdiv => binary fun a b =>
    if b = 0 then 0
    else if toSigned a = -2 ^ 255 ∧ toSigned b = -1 then 2 ^ 255
    else toWord ((toSigned a).sign * (toSigned b).sign *
      ((toSigned a).natAbs / (toSigned b).natAbs : Nat))
  | .mod => binary fun a b => if b = 0 then 0 else a % b
  | .smod => binary fun a b =>
    if b = 0 then 0
    else toWord ((toSigned a).sign * ((toSigned a).natAbs % (toSigned b).natAbs : Nat))
  | .addmod => ternary fun a b n => if n = 0 then 0 else (a + b) % n
  | .mulmod => ternary fun a b n => if n = 0 then 0 else a * b % n
  | .exp => binary fun a b => a ^ b % 2 ^ 256
  | .signextend => binary signExtend
  | .lt => binary fun a b => if a < b then 1 else 0
  | .gt => binary fun a b => if a > b then 1 else 0
  | .slt => binary fun a b => if toSigned a < toSigned b then 1 else 0
  | .sgt => binary fun a b => if toSigned a > toSigned b then 1 else 0
  | .eq => binary fun a b => if a = b then 1 else 0
  | .iszero => unary fun a => if a = 0 then 1 else 0
  | .and => binary (· &&& ·)
  | .or => binary (· ||| ·)
  | .xor => binary (· ^^^ ·)
  | .not => unary fun a => 2 ^ 256 - 1 - a
  | .byte => binary fun i x => if i < 32 then x / 256 ^ (31 - i) % 256 else 0
  | .shl => binary fun shift value => value * 2 ^ shift % 2 ^ 256
  | .shr => binary fun shift value => value / 2 ^ shift
  | .sar => binary fun shift value => toWord (Int.fdiv (toSigned value) (2 ^ shift))

theorem U256_eq (x : Int) : U256 x = x % 2 ^ 256 := by
  have mask : tt256m1 = ((2 ^ 256 - 1 : Nat) : Int) := by norm_num [tt256m1, tt256]
  rw [U256, mask, land_two_pow_sub_one]
  norm_num

theorem U256_of_lt {x : Int} (low : 0 ≤ x) (high : x < 2 ^ 256) : U256 x = x := by
  rw [U256_eq, Int.emod_eq_of_lt low high]

theorem U256_natCast {n : Nat} (h : n < 2 ^ 256) : U256 n = n :=
  U256_of_lt (Int.natCast_nonneg n) (by exact_mod_cast h)

theorem toWord_eq (x : Int) : (toWord x : Int) = x % 2 ^ 256 :=
  Int.toNat_of_nonneg (Int.emod_nonneg _ (by norm_num))

theorem toWord_lt (x : Int) : toWord x < 2 ^ 256 := by
  have bounded := Int.emod_lt_of_pos x (by norm_num : (0 : Int) < 2 ^ 256)
  rw [← toWord_eq] at bounded
  exact_mod_cast bounded

theorem U256_eq_toWord (x : Int) : U256 x = toWord x := by
  rw [U256_eq, toWord_eq]

theorem S256_eq (a : Nat) : S256 a = toSigned a := by
  simp only [S256, toSigned, tt255, tt256]
  norm_cast

/-! ### The handlers' shapes -/

theorem peekBinary_cons (f : Int → Int → Int) (x y : Int) (rest : Stack) :
    peekBinary f (x :: y :: rest) = .ok (f x y :: rest) := rfl

theorem popBinary_cons (f : Int → Int → Int) (x y : Int) (rest : Stack) :
    popBinary f (x :: y :: rest) = .ok (f x y :: rest) := rfl

theorem popTernary_cons (f : Int → Int → Int → Int) (x y z : Int) (rest : Stack) :
    popTernary f (x :: y :: z :: rest) = .ok (f x y z :: rest) := rfl

theorem peekUnary_cons (f : Int → Int) (x : Int) (rest : Stack) :
    peekUnary f (x :: rest) = .ok (f x :: rest) := rfl

/-! ### Unsigned arithmetic -/

section Words

variable (rest : Stack)

theorem opAdd_eq (a b : Nat) : opAdd (a :: b :: rest) = .ok (yellowPaper .add [a, b] :: rest) := by
  rw [opAdd, peekBinary_cons, U256_eq]
  push_cast [yellowPaper, binary]
  rfl

theorem opMul_eq (a b : Nat) : opMul (a :: b :: rest) = .ok (yellowPaper .mul [a, b] :: rest) := by
  rw [opMul, popBinary_cons, U256_eq]
  push_cast [yellowPaper, binary]
  rfl

theorem opSub_eq (a b : Nat) : opSub (a :: b :: rest) = .ok (yellowPaper .sub [a, b] :: rest) := by
  rw [opSub, peekBinary_cons, U256_eq_toWord]
  rfl

theorem opDiv_eq {a : Nat} (ha : a < 2 ^ 256) (b : Nat) :
    opDiv (a :: b :: rest) = .ok (yellowPaper .div [a, b] :: rest) := by
  rw [opDiv, peekBinary_cons]
  simp only [yellowPaper, binary]
  by_cases zero : b = 0
  · rw [if_neg (by exact_mod_cast not_not.mpr zero), if_pos zero]
    rfl
  · have quotient : a / b < 2 ^ 256 := lt_of_le_of_lt (Nat.div_le_self a b) ha
    rw [if_pos (by exact_mod_cast zero), if_neg zero, ← Int.natCast_ediv, U256_natCast quotient]

theorem opMod_eq (a : Nat) {b : Nat} (hb : b < 2 ^ 256) :
    opMod (a :: b :: rest) = .ok (yellowPaper .mod [a, b] :: rest) := by
  rw [opMod, popBinary_cons]
  simp only [yellowPaper, binary]
  by_cases zero : b = 0
  · rw [if_pos (by exact_mod_cast zero), if_pos zero]
    rfl
  · have remainder : a % b < 2 ^ 256 := lt_of_lt_of_le (Nat.mod_lt a (by omega)) hb.le
    rw [if_neg (by exact_mod_cast zero), if_neg zero, ← Int.natCast_emod, U256_natCast remainder]

theorem opAddmod_eq (a b : Nat) {n : Nat} (hn : n < 2 ^ 256) :
    opAddmod (a :: b :: n :: rest) = .ok (yellowPaper .addmod [a, b, n] :: rest) := by
  rw [opAddmod, popTernary_cons]
  simp only [yellowPaper, ternary]
  by_cases zero : n = 0
  · rw [if_neg (by rw [zero]; exact lt_irrefl 0), if_pos zero]
    rfl
  · have remainder : (a + b) % n < 2 ^ 256 := lt_of_lt_of_le (Nat.mod_lt _ (by omega)) hn.le
    rw [if_pos (by omega), if_neg zero, ← Nat.cast_add, ← Int.natCast_emod, U256_natCast remainder]

theorem opMulmod_eq (a b : Nat) {n : Nat} (hn : n < 2 ^ 256) :
    opMulmod (a :: b :: n :: rest) = .ok (yellowPaper .mulmod [a, b, n] :: rest) := by
  rw [opMulmod, popTernary_cons]
  simp only [yellowPaper, ternary]
  by_cases zero : n = 0
  · rw [if_neg (by rw [zero]; exact lt_irrefl 0), if_pos zero]
    rfl
  · have remainder : a * b % n < 2 ^ 256 := lt_of_lt_of_le (Nat.mod_lt _ (by omega)) hn.le
    rw [if_pos (by omega), if_neg zero, ← Nat.cast_mul, ← Int.natCast_emod, U256_natCast remainder]

/-! ### Comparisons and bitwise operations -/

theorem opLt_eq (a b : Nat) : opLt (a :: b :: rest) = .ok (yellowPaper .lt [a, b] :: rest) := by
  rw [opLt, peekBinary_cons]
  simp only [yellowPaper, binary]
  by_cases below : a < b
  · rw [if_pos (by exact_mod_cast below), if_pos below]
    rfl
  · rw [if_neg (by exact_mod_cast below), if_neg below]
    rfl

theorem opGt_eq (a b : Nat) : opGt (a :: b :: rest) = .ok (yellowPaper .gt [a, b] :: rest) := by
  rw [opGt, peekBinary_cons]
  simp only [yellowPaper, binary]
  by_cases above : a > b
  · rw [if_pos (by exact_mod_cast above), if_pos above]
    rfl
  · rw [if_neg (by exact_mod_cast above), if_neg above]
    rfl

theorem opEq_eq (a b : Nat) : opEq (a :: b :: rest) = .ok (yellowPaper .eq [a, b] :: rest) := by
  rw [opEq, peekBinary_cons]
  simp only [yellowPaper, binary]
  by_cases same : a = b
  · rw [if_pos (by exact_mod_cast same), if_pos same]
    rfl
  · rw [if_neg (by exact_mod_cast same), if_neg same]
    rfl

theorem opIszero_eq (a : Nat) : opIszero (a :: rest) = .ok (yellowPaper .iszero [a] :: rest) := by
  rw [opIszero, peekUnary_cons]
  simp only [yellowPaper, unary]
  by_cases zero : a = 0
  · rw [if_neg (by rw [zero]; exact lt_irrefl 0), if_pos zero]
    rfl
  · rw [if_pos (by exact_mod_cast Nat.pos_of_ne_zero zero), if_neg zero]
    rfl

theorem opAnd_eq (a b : Nat) : opAnd (a :: b :: rest) = .ok (yellowPaper .and [a, b] :: rest) := rfl

theorem opOr_eq (a b : Nat) : opOr (a :: b :: rest) = .ok (yellowPaper .or [a, b] :: rest) := rfl

theorem opXor_eq (a b : Nat) : opXor (a :: b :: rest) = .ok (yellowPaper .xor [a, b] :: rest) := rfl

theorem opNot_eq {a : Nat} (ha : a < 2 ^ 256) :
    opNot (a :: rest) = .ok (yellowPaper .not [a] :: rest) := by
  rw [opNot, peekUnary_cons, lnot_eq, U256_eq]
  have wrapped : (-(a : Int) - 1) % 2 ^ 256 = ((2 ^ 256 - 1 - a : Nat) : Int) := by
    rw [show -(a : Int) - 1 = (2 ^ 256 - 1 - a) + (-1) * 2 ^ 256 by ring, Int.add_mul_emod_self_right,
      Int.emod_eq_of_lt (by omega) (by omega)]
    rw [Nat.cast_sub (by omega : a ≤ 2 ^ 256 - 1), Nat.cast_sub Nat.one_le_two_pow]
    push_cast
    rfl
  rw [wrapped]
  rfl

/-! ### Shifts and bytes -/

theorem uint64_of_lt {n : Nat} (small : n < 2 ^ 64) : uint64 n = n := Nat.mod_eq_of_lt small

theorem opSHL_eq {shift value : Nat} (hs : shift < 2 ^ 256) (hv : value < 2 ^ 256) :
    opSHL (shift :: value :: rest) = .ok (yellowPaper .shl [shift, value] :: rest) := by
  rw [opSHL, peekBinary_cons]
  simp only [yellowPaper, binary, U256_natCast hs, U256_natCast hv]
  by_cases far : shift ≥ 256
  · have divisible : value * 2 ^ shift % 2 ^ 256 = 0 := by
      rw [show shift = (shift - 256) + 256 by omega, pow_add, ← Nat.mul_assoc, Nat.mul_mod_left]
    rw [if_pos (by exact_mod_cast far), divisible]
    rfl
  · rw [if_neg (by exact_mod_cast far), Int.natAbs_natCast, uint64_of_lt (by omega),
      Int.shiftLeft_eq, U256_eq]
    push_cast
    rfl

theorem opSHR_eq {shift value : Nat} (hs : shift < 2 ^ 256) (hv : value < 2 ^ 256) :
    opSHR (shift :: value :: rest) = .ok (yellowPaper .shr [shift, value] :: rest) := by
  rw [opSHR, peekBinary_cons]
  simp only [yellowPaper, binary, U256_natCast hs, U256_natCast hv]
  by_cases far : shift ≥ 256
  · have below : value < 2 ^ shift := lt_of_lt_of_le hv (Nat.pow_le_pow_right (by norm_num) far)
    rw [if_pos (by exact_mod_cast far), Nat.div_eq_of_lt below]
    rfl
  · have quotient : value / 2 ^ shift < 2 ^ 256 := lt_of_le_of_lt (Nat.div_le_self _ _) hv
    rw [if_neg (by exact_mod_cast far), Int.natAbs_natCast, uint64_of_lt (by omega),
      ← Int.natCast_shiftRight, Nat.shiftRight_eq_div_pow, U256_natCast quotient]

theorem toSigned_bounds {a : Nat} (ha : a < 2 ^ 256) : -2 ^ 255 ≤ toSigned a ∧ toSigned a < 2 ^ 255 := by
  unfold toSigned
  split <;> omega

theorem opSAR_eq {shift value : Nat} (hs : shift < 2 ^ 256) (hv : value < 2 ^ 256) :
    opSAR (shift :: value :: rest) = .ok (yellowPaper .sar [shift, value] :: rest) := by
  rw [opSAR, popBinary_cons]
  simp only [yellowPaper, binary, U256_natCast hs, S256_eq]
  obtain ⟨low, high⟩ := toSigned_bounds hv
  rw [Int.fdiv_eq_ediv_of_nonneg _ (by positivity)]
  by_cases far : shift ≥ 256
  · have wide : (2 : Int) ^ 255 < 2 ^ shift := pow_lt_pow_right₀ (by norm_num) (by omega)
    rw [if_pos (by exact_mod_cast far), U256_eq_toWord]
    by_cases nonneg : toSigned value ≥ 0
    · rw [if_pos nonneg, Int.ediv_eq_zero_of_lt nonneg (by omega)]
    · rw [if_neg nonneg, Int.ediv_eq_neg_one_of_neg_of_le (by omega) (by omega)]
  · rw [if_neg (by exact_mod_cast far), Int.natAbs_natCast, uint64_of_lt (by omega),
      Int.shiftRight_eq_div_pow, U256_eq_toWord]
    push_cast
    rfl

/-- Byte `n` of a number from the least significant, as `bigEndianByteAt` reads it. -/
theorem bigEndianByteAt_eq (x n : Nat) : bigEndianByteAt x n = x / 2 ^ (8 * n) % 256 := by
  have byte := byte_of_digits x n
  simp only [bigEndianByteAt, bigBits, wordBits, Int.natAbs_natCast, Nat.shiftRight_eq_div_pow]
  norm_num only at byte ⊢
  split
  · rename_i missing
    rw [List.getD_eq_default _ _ missing, Nat.zero_div, Nat.zero_mod] at byte
    exact byte
  · exact byte

theorem opByte_eq (i x : Nat) : opByte (i :: x :: rest) = .ok (yellowPaper .byte [i, x] :: rest) := by
  rw [opByte, peekBinary_cons]
  simp only [yellowPaper, binary]
  by_cases inside : i < 32
  · rw [if_pos (by exact_mod_cast inside), if_pos inside, mathByte, Int.toNat_natCast,
      if_neg (by omega), bigEndianByteAt_eq,
      show (256 : Nat) ^ (31 - i) = 2 ^ (8 * (32 - 1 - i)) by rw [pow_mul]; norm_num]
  · rw [if_neg (by exact_mod_cast inside), if_neg inside]
    rfl

/-! ### Signed operations -/

theorem tt255_eq : tt255 = 2 ^ 255 := rfl

/-- Two words compare as signed numbers by their halves first. -/
theorem toSigned_lt_toSigned {a b : Nat} (ha : a < 2 ^ 256) (hb : b < 2 ^ 256) :
    toSigned a < toSigned b ↔
      ((a : Int) ≥ tt255 ∧ (b : Int) < tt255) ∨ (¬((a : Int) < tt255 ∧ (b : Int) ≥ tt255) ∧ (a : Int) < b) := by
  rw [tt255_eq]
  unfold toSigned
  by_cases x : a < 2 ^ 255 <;> by_cases y : b < 2 ^ 255 <;>
    simp only [x, y, if_true, if_false] <;> omega

theorem opSlt_eq {a b : Nat} (ha : a < 2 ^ 256) (hb : b < 2 ^ 256) :
    opSlt (a :: b :: rest) = .ok (yellowPaper .slt [a, b] :: rest) := by
  rw [opSlt, peekBinary_cons]
  simp only [yellowPaper, binary]
  have half := tt255_eq
  by_cases below : toSigned a < toSigned b
  · rw [if_pos below]
    rcases (toSigned_lt_toSigned ha hb).mp below with first | ⟨other, lower⟩
    · rw [if_pos first]
      rfl
    · rw [if_neg (by omega), if_neg other, if_pos lower]
      rfl
  · rw [if_neg below]
    have none := mt (toSigned_lt_toSigned ha hb).mpr below
    rw [if_neg (fun first => none (Or.inl first))]
    by_cases other : (a : Int) < tt255 ∧ (b : Int) ≥ tt255
    · rw [if_pos other]
      rfl
    · rw [if_neg other, if_neg (fun lower => none (Or.inr ⟨other, lower⟩))]
      rfl

theorem opSgt_eq {a b : Nat} (ha : a < 2 ^ 256) (hb : b < 2 ^ 256) :
    opSgt (a :: b :: rest) = .ok (yellowPaper .sgt [a, b] :: rest) := by
  rw [opSgt, peekBinary_cons]
  simp only [yellowPaper, binary, gt_iff_lt]
  have half := tt255_eq
  by_cases above : toSigned b < toSigned a
  · rw [if_pos above]
    rcases (toSigned_lt_toSigned hb ha).mp above with first | ⟨other, lower⟩
    · rw [if_neg (by omega), if_pos (by omega)]
      rfl
    · rw [if_neg (by omega)]
      by_cases flipped : (a : Int) < tt255 ∧ (b : Int) ≥ tt255
      · rw [if_pos flipped]
        rfl
      · rw [if_neg flipped, if_pos lower]
        rfl
  · rw [if_neg above]
    have none := mt (toSigned_lt_toSigned hb ha).mpr above
    by_cases first : (a : Int) ≥ tt255 ∧ (b : Int) < tt255
    · rw [if_pos first]
      rfl
    · rw [if_neg first, if_neg (fun flipped => none (Or.inl (by omega))),
        if_neg (fun lower => none (Or.inr ⟨by omega, lower⟩))]
      rfl

theorem toSigned_eq_zero {a : Nat} (ha : a < 2 ^ 256) : toSigned a = 0 ↔ a = 0 := by
  unfold toSigned
  split <;> omega

/-- The product of the signs of two nonzero numbers: `1` when they agree, `-1` when not. -/
theorem sign_mul_sign {x y : Int} (hx : x ≠ 0) (hy : y ≠ 0) :
    x.sign * y.sign = if x.sign ≠ y.sign then -1 else 1 := by
  rcases Int.lt_or_gt_of_ne hx with negative | positive <;>
    rcases Int.lt_or_gt_of_ne hy with negative' | positive' <;>
    simp [Int.sign_eq_neg_one_of_neg, Int.sign_eq_one_of_pos, *]

theorem abs_ediv_abs (x y : Int) : |x| / |y| = ((x.natAbs / y.natAbs : Nat) : Int) := by
  rw [Int.abs_eq_natAbs, Int.abs_eq_natAbs, Int.natCast_ediv]

theorem abs_emod_abs (x y : Int) : |x| % |y| = ((x.natAbs % y.natAbs : Nat) : Int) := by
  rw [Int.abs_eq_natAbs, Int.abs_eq_natAbs, Int.natCast_emod]

theorem opSdiv_eq {a b : Nat} (ha : a < 2 ^ 256) (hb : b < 2 ^ 256) :
    opSdiv (a :: b :: rest) = .ok (yellowPaper .sdiv [a, b] :: rest) := by
  rw [opSdiv, popBinary_cons]
  simp only [yellowPaper, binary, S256_eq]
  by_cases divisor : b = 0
  · rw [if_pos (Or.inl ((toSigned_eq_zero hb).mpr divisor)), if_pos divisor]
    rfl
  have y := mt (toSigned_eq_zero hb).mp divisor
  rw [if_neg divisor]
  by_cases dividend : a = 0
  · have zero := (toSigned_eq_zero ha).mpr dividend
    rw [if_pos (Or.inr zero), if_neg (fun special => by omega), zero, Int.sign_zero, zero_mul,
      zero_mul]
    rfl
  have x := mt (toSigned_eq_zero ha).mp dividend
  rw [if_neg (not_or.mpr ⟨y, x⟩), abs_ediv_abs, sign_mul_sign x y]
  by_cases special : toSigned a = -2 ^ 255 ∧ toSigned b = -1
  · rw [if_pos special, special.1, special.2, if_neg (by decide), U256_natCast (by norm_num)]
    norm_num
  · rw [if_neg special]
    split_ifs <;> rw [U256_eq_toWord] <;> push_cast <;> ring_nf

theorem opSmod_eq (a : Nat) {b : Nat} (hb : b < 2 ^ 256) :
    opSmod (a :: b :: rest) = .ok (yellowPaper .smod [a, b] :: rest) := by
  rw [opSmod, popBinary_cons]
  simp only [yellowPaper, binary, S256_eq]
  by_cases divisor : b = 0
  · rw [if_pos ((toSigned_eq_zero hb).mpr divisor), if_pos divisor]
    rfl
  rw [if_neg (mt (toSigned_eq_zero hb).mp divisor), if_neg divisor, abs_emod_abs, U256_eq_toWord,
    U256_eq_toWord]
  rcases lt_trichotomy (toSigned a) 0 with negative | zero | positive
  · rw [if_pos negative, Int.sign_eq_neg_one_of_neg negative]
    ring_nf
  · rw [if_neg (by omega), zero]
    rfl
  · rw [if_neg (by omega), Int.sign_eq_one_of_pos positive, one_mul]

/-! ### Sign extension -/

/-- `x % 2^(k+1)` is `x % 2^k` with bit `k` added. -/
theorem mod_two_pow_succ_eq (x k : Nat) :
    x % 2 ^ (k + 1) = x % 2 ^ k + if x.testBit k then 2 ^ k else 0 := by
  rw [Nat.mod_pow_succ, Nat.testBit_eq_decide_div_mod_eq]
  rcases Nat.mod_two_eq_zero_or_one (x / 2 ^ k) with zero | one
  · simp [zero]
  · simp [one]

theorem opSignExtend_eq (b x : Nat) :
    opSignExtend (b :: x :: rest) = .ok (yellowPaper .signextend [b, x] :: rest) := by
  simp only [yellowPaper, binary, signExtend, opSignExtend, pop, except_bind_ok]
  by_cases small : b < 31
  · obtain ⟨k, sign⟩ : ∃ k, k = 8 * b + 7 := ⟨_, rfl⟩
    have bit : uint64 (b : Int).natAbs * 8 + 7 = k := by
      rw [Int.natAbs_natCast, uint64_of_lt (by omega)]
      omega
    have mask : (1 : Int) <<< k - 1 = ((2 ^ k - 1 : Nat) : Int) := by
      rw [Int.shiftLeft_eq, one_mul, Nat.cast_sub Nat.one_le_two_pow]
      push_cast
      rfl
    have width : 8 * (b + 1) = k + 1 := by omega
    have within : 2 ^ (k + 1) ≤ 2 ^ 256 := Nat.pow_le_pow_right (by norm_num) (by omega)
    have double : 2 ^ (k + 1) = 2 * 2 ^ k := by rw [pow_succ]; ring
    have low := Nat.mod_lt x (Nat.two_pow_pos k)
    rw [if_pos (by exact_mod_cast small), if_pos small]
    simp only [bit, mask, width, Nat.add_sub_cancel]
    rw [mod_two_pow_succ_eq]
    by_cases set : x.testBit k
    · rw [if_pos (show (x : Int).testBit k = true from set), if_pos set, if_pos set,
        lor_lnot_two_pow_sub_one, U256_eq]
      have sub : ((2 ^ 256 - 2 ^ (k + 1) : Nat) : Int) = 2 ^ 256 - 2 * 2 ^ k := by
        rw [Nat.cast_sub within, double]
        push_cast
        ring
      have wrapped : (((x % 2 ^ k : Nat) : Int) - ((2 ^ k : Nat) : Int)) % 2 ^ 256 =
          ((x % 2 ^ k + 2 ^ k + (2 ^ 256 - 2 ^ (k + 1)) : Nat) : Int) := by
        rw [show (((x % 2 ^ k : Nat) : Int) - ((2 ^ k : Nat) : Int)) =
            ((x % 2 ^ k + 2 ^ k + (2 ^ 256 - 2 ^ (k + 1)) : Nat) : Int) + (-1) * 2 ^ 256 by
          rw [Nat.cast_add, Nat.cast_add, sub]
          push_cast
          ring]
        rw [Int.add_mul_emod_self_right, Int.emod_eq_of_lt (by omega) (by omega)]
      rw [wrapped]
      rfl
    · rw [if_neg (show ¬(x : Int).testBit k = true from set), if_neg set, if_neg set,
        land_two_pow_sub_one, U256_eq, Nat.add_zero,
        Int.emod_eq_of_lt (by omega) (by exact_mod_cast lt_of_lt_of_le low (by omega))]
      rfl
  · rw [if_neg (by exact_mod_cast small), if_neg small]
    rfl

/-! ### Exponentiation -/

/-- Over `i` bits of a word, `math.Exp`'s inner loop raises `result` by those bits. -/
theorem expWord_spec (word : Nat) (result base : Int) (i : Nat) (low : 0 ≤ result)
    (high : result < 2 ^ 256) :
    0 ≤ (expWord word (result, base) i).1 ∧ (expWord word (result, base) i).1 < 2 ^ 256 ∧
      (expWord word (result, base) i).1 ≡ result * base ^ (word % 2 ^ i) [ZMOD 2 ^ 256] ∧
      (expWord word (result, base) i).2 ≡ base ^ 2 ^ i [ZMOD 2 ^ 256] := by
  induction i generalizing word result base with
  | zero =>
      simp only [expWord, pow_zero, Nat.mod_one, mul_one, pow_one]
      exact ⟨low, high, Int.ModEq.refl _, Int.ModEq.refl _⟩
  | succ i inductionHypothesis =>
      -- one iteration: multiply on the low bit, square the base, shift the word
      have step : ∀ result', 0 ≤ result' → result' < 2 ^ 256 →
          result' ≡ result * base ^ (word % 2) [ZMOD 2 ^ 256] →
          0 ≤ (expWord (word >>> 1) (result', U256 (base * base)) i).1 ∧
            (expWord (word >>> 1) (result', U256 (base * base)) i).1 < 2 ^ 256 ∧
            (expWord (word >>> 1) (result', U256 (base * base)) i).1 ≡
              result * base ^ (word % 2 ^ (i + 1)) [ZMOD 2 ^ 256] ∧
            (expWord (word >>> 1) (result', U256 (base * base)) i).2 ≡ base ^ 2 ^ (i + 1) [ZMOD 2 ^ 256] := by
        intro result' low' high' congruent
        have squared : U256 (base * base) ≡ base ^ 2 [ZMOD 2 ^ 256] := by
          rw [U256_eq, sq]
          exact Int.mod_modEq _ _
        obtain ⟨low'', high'', congruent', squares⟩ := inductionHypothesis (word >>> 1) result' _ low' high'
        refine ⟨low'', high'', congruent'.trans ?_, squares.trans ?_⟩
        · have split : word % 2 ^ (i + 1) = word % 2 + 2 * (word / 2 % 2 ^ i) := by
            rw [pow_succ, Nat.mul_comm, Nat.mod_mul]
          rw [Nat.shiftRight_eq_div_pow, pow_one, split, pow_add, pow_mul, ← mul_assoc]
          exact congruent.mul (squared.pow _)
        · have doubled : base ^ 2 ^ (i + 1) = (base ^ 2) ^ 2 ^ i := by
            rw [← pow_mul, Nat.pow_succ, Nat.mul_comm]
          rw [doubled]
          exact squared.pow _
      simp only [expWord]
      split
      · rename_i odd
        refine step _ (by rw [U256_eq]; omega) (by rw [U256_eq]; omega) ?_
        rw [U256_eq, ← Nat.and_one_is_mod, odd, pow_one]
        exact Int.mod_modEq _ _
      · rename_i even
        refine step _ low high ?_
        have zero : word % 2 = 0 := by
          have := Nat.and_one_is_mod word
          omega
        rw [zero, pow_zero, mul_one]

/-- Over the words of an exponent, `math.Exp`'s outer loop raises `result` by them. -/
theorem foldl_expWord (words : List Nat) (digit : ∀ w ∈ words, w < 2 ^ wordBits) (result base : Int)
    (low : 0 ≤ result) (high : result < 2 ^ 256) :
    0 ≤ (words.foldl (fun state word => expWord word state wordBits) (result, base)).1 ∧
      (words.foldl (fun state word => expWord word state wordBits) (result, base)).1 < 2 ^ 256 ∧
      (words.foldl (fun state word => expWord word state wordBits) (result, base)).1 ≡
        result * base ^ Nat.ofDigits (2 ^ wordBits) words [ZMOD 2 ^ 256] := by
  induction words generalizing result base with
  | nil =>
      rw [List.foldl_nil, Nat.ofDigits_nil, pow_zero, mul_one]
      exact ⟨low, high, Int.ModEq.refl _⟩
  | cons w words inductionHypothesis =>
      obtain ⟨low', high', congruent, squares⟩ := expWord_spec w result base wordBits low high
      obtain ⟨low'', high'', congruent'⟩ := inductionHypothesis
        (fun w' mem => digit w' (List.mem_cons_of_mem _ mem)) (expWord w (result, base) wordBits).1
        (expWord w (result, base) wordBits).2 low' high'
      rw [Prod.mk.eta] at low'' high'' congruent'
      rw [List.foldl_cons]
      refine ⟨low'', high'', congruent'.trans ?_⟩
      have small : w % 2 ^ wordBits = w := Nat.mod_eq_of_lt (digit w List.mem_cons_self)
      rw [small] at congruent
      have spelled : base ^ Nat.ofDigits (2 ^ wordBits) (w :: words) =
          base ^ w * (base ^ 2 ^ wordBits) ^ Nat.ofDigits (2 ^ wordBits) words := by
        rw [Nat.ofDigits_cons, pow_add, pow_mul]
      rw [spelled, ← mul_assoc]
      exact Int.ModEq.mul congruent (Int.ModEq.pow _ squares)

theorem mathExp_eq (a b : Nat) : mathExp a b = ((a ^ b % 2 ^ 256 : Nat) : Int) := by
  have digit : ∀ w ∈ bigBits b, w < 2 ^ wordBits := fun w mem =>
    Nat.digits_lt_base (by norm_num [wordBits]) mem
  have spelled : Nat.ofDigits (2 ^ wordBits) (bigBits b) = b := by
    rw [bigBits, Int.natAbs_natCast, Nat.ofDigits_digits]
  obtain ⟨low, high, congruent⟩ := foldl_expWord (bigBits b) digit 1 a (by norm_num) (by norm_num)
  rw [spelled, one_mul] at congruent
  rw [mathExp, ← Int.emod_eq_of_lt low high, congruent.eq]
  push_cast
  rfl

theorem opExp_eq (a b : Nat) : opExp (a :: b :: rest) = .ok (yellowPaper .exp [a, b] :: rest) := by
  rw [opExp, popBinary_cons]
  simp only [yellowPaper, binary]
  split
  · rename_i table
    obtain ⟨two, small⟩ := table
    have base : a = 2 := by exact_mod_cast two
    have fits : 2 ^ b < 2 ^ 256 := Nat.pow_lt_pow_right (by norm_num) (by exact_mod_cast small)
    rw [power2, Int.toNat_natCast, base, Nat.mod_eq_of_lt fits]
    push_cast
    rfl
  · rw [mathExp_eq]

/-! ### Every instruction -/

theorem pops_bounds (op : ArithOp) : 1 ≤ op.pops ∧ op.pops ≤ 3 := by
  cases op <;> decide

theorem execute_unary {op : ArithOp} (one : op.pops = 1) {a : Nat} (ha : a < 2 ^ 256) :
    op.execute (a :: rest) = .ok (yellowPaper op [a] :: rest) := by
  cases op with
  | iszero => exact opIszero_eq rest a
  | not => exact opNot_eq rest ha
  | add | mul | sub | div | sdiv | mod | smod | addmod | mulmod | exp | signextend | lt | gt | slt
    | sgt | eq | and | or | xor | byte | shl | shr | sar => exact absurd one (by decide)

theorem execute_binary {op : ArithOp} (two : op.pops = 2) {a b : Nat} (ha : a < 2 ^ 256)
    (hb : b < 2 ^ 256) : op.execute (a :: b :: rest) = .ok (yellowPaper op [a, b] :: rest) := by
  cases op with
  | add => exact opAdd_eq rest a b
  | mul => exact opMul_eq rest a b
  | sub => exact opSub_eq rest a b
  | div => exact opDiv_eq rest ha b
  | sdiv => exact opSdiv_eq rest ha hb
  | mod => exact opMod_eq rest a hb
  | smod => exact opSmod_eq rest a hb
  | exp => exact opExp_eq rest a b
  | signextend => exact opSignExtend_eq rest a b
  | lt => exact opLt_eq rest a b
  | gt => exact opGt_eq rest a b
  | slt => exact opSlt_eq rest ha hb
  | sgt => exact opSgt_eq rest ha hb
  | eq => exact opEq_eq rest a b
  | and => exact opAnd_eq rest a b
  | or => exact opOr_eq rest a b
  | xor => exact opXor_eq rest a b
  | byte => exact opByte_eq rest a b
  | shl => exact opSHL_eq rest ha hb
  | shr => exact opSHR_eq rest ha hb
  | sar => exact opSAR_eq rest ha hb
  | iszero | not | addmod | mulmod => exact absurd two (by decide)

theorem execute_ternary {op : ArithOp} (three : op.pops = 3) (a b : Nat) {n : Nat}
    (hn : n < 2 ^ 256) : op.execute (a :: b :: n :: rest) = .ok (yellowPaper op [a, b, n] :: rest) := by
  cases op with
  | addmod => exact opAddmod_eq rest a b hn
  | mulmod => exact opMulmod_eq rest a b hn
  | add | mul | sub | div | sdiv | mod | smod | exp | signextend | lt | gt | slt | sgt | eq
    | iszero | and | or | xor | not | byte | shl | shr | sar => exact absurd three (by decide)

end Words

/-! ### Results are words -/

theorem unary_lt {f : Nat → Nat} (bound : ∀ a, a < 2 ^ 256 → f a < 2 ^ 256) (args : List Nat)
    (words : ∀ a ∈ args, a < 2 ^ 256) : unary f args < 2 ^ 256 := by
  rcases args with _ | ⟨a, _ | ⟨b, more⟩⟩
  · simp [unary]
  · exact bound a (words a (by simp))
  · simp [unary]

theorem binary_lt {f : Nat → Nat → Nat} (bound : ∀ a b, a < 2 ^ 256 → b < 2 ^ 256 → f a b < 2 ^ 256)
    (args : List Nat) (words : ∀ a ∈ args, a < 2 ^ 256) : binary f args < 2 ^ 256 := by
  rcases args with _ | ⟨a, _ | ⟨b, _ | ⟨c, more⟩⟩⟩
  · simp [binary]
  · simp [binary]
  · exact bound a b (words a (by simp)) (words b (by simp))
  · simp [binary]

theorem ternary_lt {f : Nat → Nat → Nat → Nat}
    (bound : ∀ a b n, a < 2 ^ 256 → b < 2 ^ 256 → n < 2 ^ 256 → f a b n < 2 ^ 256)
    (args : List Nat) (words : ∀ a ∈ args, a < 2 ^ 256) : ternary f args < 2 ^ 256 := by
  rcases args with _ | ⟨a, _ | ⟨b, _ | ⟨n, _ | ⟨d, more⟩⟩⟩⟩
  · simp [ternary]
  · simp [ternary]
  · simp [ternary]
  · exact bound a b n (words a (by simp)) (words b (by simp)) (words n (by simp))
  · simp [ternary]

theorem signExtend_lt (b : Nat) {x : Nat} (hx : x < 2 ^ 256) : signExtend b x < 2 ^ 256 := by
  simp only [signExtend]
  split
  · rename_i small
    have within : 2 ^ (8 * (b + 1)) ≤ 2 ^ 256 := Nat.pow_le_pow_right (by norm_num) (by omega)
    have low := Nat.mod_lt x (Nat.two_pow_pos (8 * (b + 1)))
    split <;> omega
  · exact hx

theorem yellowPaper_lt (op : ArithOp) (args : List Nat) (words : ∀ a ∈ args, a < 2 ^ 256) :
    yellowPaper op args < 2 ^ 256 := by
  have word : ∀ n, n % 2 ^ 256 < 2 ^ 256 := fun n => Nat.mod_lt n (by norm_num)
  have flag : ∀ c : Prop, [Decidable c] → (if c then 1 else 0) < 2 ^ 256 := by
    intro c _
    split <;> norm_num
  cases op with
  | add => exact binary_lt (fun a b _ _ => word _) args words
  | mul => exact binary_lt (fun a b _ _ => word _) args words
  | sub => exact binary_lt (fun a b _ _ => toWord_lt _) args words
  | div =>
      refine binary_lt (fun a b ha _ => ?_) args words
      split
      · norm_num
      · exact lt_of_le_of_lt (Nat.div_le_self a b) ha
  | sdiv =>
      refine binary_lt (fun a b _ _ => ?_) args words
      split
      · norm_num
      · split
        · norm_num
        · exact toWord_lt _
  | mod =>
      refine binary_lt (fun a b ha _ => ?_) args words
      split
      · norm_num
      · exact lt_of_le_of_lt (Nat.mod_le a b) ha
  | smod =>
      refine binary_lt (fun a b _ _ => ?_) args words
      split
      · norm_num
      · exact toWord_lt _
  | addmod =>
      refine ternary_lt (fun a b n _ _ hn => ?_) args words
      split
      · norm_num
      · exact lt_trans (Nat.mod_lt _ (by omega)) hn
  | mulmod =>
      refine ternary_lt (fun a b n _ _ hn => ?_) args words
      split
      · norm_num
      · exact lt_trans (Nat.mod_lt _ (by omega)) hn
  | exp => exact binary_lt (fun a b _ _ => word _) args words
  | signextend => exact binary_lt (fun b x _ hx => signExtend_lt b hx) args words
  | lt => exact binary_lt (fun a b _ _ => flag _) args words
  | gt => exact binary_lt (fun a b _ _ => flag _) args words
  | slt => exact binary_lt (fun a b _ _ => flag _) args words
  | sgt => exact binary_lt (fun a b _ _ => flag _) args words
  | eq => exact binary_lt (fun a b _ _ => flag _) args words
  | iszero => exact unary_lt (fun a _ => flag _) args words
  | and => exact binary_lt (fun a b _ hb => Nat.and_lt_two_pow a hb) args words
  | or => exact binary_lt (fun a b ha hb => Nat.or_lt_two_pow ha hb) args words
  | xor => exact binary_lt (fun a b ha hb => Nat.xor_lt_two_pow ha hb) args words
  | not => exact unary_lt (fun a _ => by omega) args words
  | byte =>
      refine binary_lt (fun i x _ _ => ?_) args words
      split
      · exact lt_trans (Nat.mod_lt _ (by norm_num)) (by norm_num)
      · norm_num
  | shl => exact binary_lt (fun a b _ _ => word _) args words
  | shr => exact binary_lt (fun shift value _ hv => lt_of_le_of_lt (Nat.div_le_self _ _) hv) args words
  | sar => exact binary_lt (fun a b _ _ => toWord_lt _) args words

/-- Each arithmetic, comparison, bitwise and shift instruction computes the Yellow Paper's word. -/
theorem execute_yellowPaper (op : ArithOp) (args : List Nat) (rest : Stack)
    (operands : args.length = op.pops) (words : ∀ a ∈ args, a < 2 ^ 256) :
    op.execute (args.map (↑) ++ rest) = .ok ((yellowPaper op args : Int) :: rest) ∧
      yellowPaper op args < 2 ^ 256 := by
  refine ⟨?_, yellowPaper_lt op args words⟩
  have bounds := pops_bounds op
  rcases args with _ | ⟨a, _ | ⟨b, _ | ⟨n, _ | ⟨d, more⟩⟩⟩⟩
  · simp only [List.length_nil] at operands
    omega
  · exact execute_unary rest operands.symm (words a (by simp))
  · exact execute_binary rest operands.symm (words a (by simp)) (words b (by simp))
  · exact execute_ternary rest operands.symm a b (words n (by simp))
  · simp only [List.length_cons] at operands
    omega

/-- `SDIV` of `-2^255` by `-1`: the quotient `2^255` wraps around to `-2^255`. -/
theorem execute_yellowPaper_sdiv :
    ArithOp.sdiv.execute [((2 ^ 255 : Nat) : Int), ((2 ^ 256 - 1 : Nat) : Int)] =
      .ok [((2 ^ 255 : Nat) : Int)] := by
  have run := (execute_yellowPaper .sdiv [2 ^ 255, 2 ^ 256 - 1] [] rfl (by decide)).1
  have overflow : yellowPaper .sdiv [2 ^ 255, 2 ^ 256 - 1] = 2 ^ 255 := by decide
  rw [overflow] at run
  exact run

end Tangerine.Proof.Arithmetic
