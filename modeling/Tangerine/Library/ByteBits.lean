import Mathlib.Logic.Basic

/-! Bit vectors stored in bytes, the most significant bit first. -/

namespace Tangerine.Library

/-- Bit `j` of a byte, counting from the most significant: `b & (0x80 >> j) != 0`. -/
def bitOf (b : UInt8) (j : Nat) : Bool := b &&& 0x80 >>> UInt8.ofNat j != 0

/-- Bit `q` of a byte string; past its end no bit is set. -/
def bitAt (bytes : List UInt8) (q : Nat) : Bool :=
  match bytes[q / 8]? with
  | some b => bitOf b (q % 8)
  | none => false

theorem or_ne_zero (x y : UInt8) : (x ||| y != 0) = (x != 0 || y != 0) := by
  rw [Bool.eq_iff_iff]
  simp only [bne_iff_ne, ne_eq, Bool.or_eq_true, UInt8.or_eq_zero_iff, not_and_or]

@[simp] theorem bitOf_or (a b : UInt8) (j : Nat) : bitOf (a ||| b) j = (bitOf a j || bitOf b j) := by
  have distrib : (a ||| b) &&& 0x80 >>> UInt8.ofNat j =
      (a &&& 0x80 >>> UInt8.ofNat j) ||| (b &&& 0x80 >>> UInt8.ofNat j) :=
    UInt8.toBitVec_inj.1 (by simp [BitVec.and_or_distrib_right])
  rw [bitOf, distrib, or_ne_zero]
  rfl

@[simp] theorem bitOf_zero (j : Nat) : bitOf 0 j = false := by simp [bitOf]

/-- `0x80 >> k` holds bit `k` alone. -/
theorem bitOf_single {j k : Nat} (hj : j < 8) (hk : k < 8) :
    bitOf (0x80 >>> UInt8.ofNat k) j = decide (j = k) := by
  have table : ∀ j, j < 8 → ∀ k, k < 8 → bitOf (0x80 >>> UInt8.ofNat k) j = decide (j = k) := by
    decide
  exact table j hj k hk

/-- `0xFF >> k` holds the bits from `k` on. -/
theorem bitOf_from {j k : Nat} (hj : j < 8) (hk : k < 8) :
    bitOf (0xFF >>> UInt8.ofNat k) j = decide (k ≤ j) := by
  have table : ∀ j, j < 8 → ∀ k, k < 8 → bitOf (0xFF >>> UInt8.ofNat k) j = decide (k ≤ j) := by
    decide
  exact table j hj k hk

/-- `^(0xFF >> k)` holds the bits before `k`. -/
theorem bitOf_before {j k : Nat} (hj : j < 8) (hk : k < 8) :
    bitOf (~~~(0xFF >>> UInt8.ofNat k)) j = decide (j < k) := by
  have table : ∀ j, j < 8 → ∀ k, k < 8 → bitOf (~~~(0xFF >>> UInt8.ofNat k)) j = decide (j < k) := by
    decide
  exact table j hj k hk

theorem bitAt_of_found {bytes : List UInt8} {q : Nat} {b : UInt8} (found : bytes[q / 8]? = some b) :
    bitAt bytes q = bitOf b (q % 8) := by
  simp [bitAt, found]

@[simp] theorem bitAt_replicate_zero (n q : Nat) : bitAt (List.replicate n 0) q = false := by
  unfold bitAt
  rw [List.getElem?_replicate]
  by_cases inside : q / 8 < n <;> simp [inside]

/-- ORing a mask into byte `i` sets, of all the bits, those the mask holds in that byte. -/
theorem bitAt_set_or {bytes : List UInt8} {i : Nat} {b : UInt8} (found : bytes[i]? = some b)
    (mask : UInt8) (q : Nat) :
    bitAt (bytes.set i (b ||| mask)) q = (bitAt bytes q || (decide (q / 8 = i) && bitOf mask (q % 8))) := by
  obtain ⟨inside, rfl⟩ := List.getElem?_eq_some_iff.mp found
  by_cases same : q / 8 = i
  · simp [bitAt, same, inside]
  · simp [bitAt, same, List.getElem?_set_ne (Ne.symm same)]

end Tangerine.Library
