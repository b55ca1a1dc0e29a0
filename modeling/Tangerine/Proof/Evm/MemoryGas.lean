import Tangerine.Core.Vm.Memory

/-! The gas of memory expansion against the Yellow Paper's `C_mem(w) = 3 w + ⌊w² / 512⌋`. -/

namespace Tangerine.Proof.MemoryGas

open Tangerine.Core.Vm

/-- The Yellow Paper's cost of `w` words of memory, over the naturals. -/
def Cmem (w : Nat) : Nat := 3 * w + w * w / 512

/-- A memory whose size is a whole number of words, with the cost of that size cached. -/
structure Priced (mem : Memory) : Prop where
  aligned : mem.len % 32 = 0
  bounded : mem.len < 2 ^ 63
  cached : mem.lastGasCost.toNat = Cmem (mem.len / 32)

theorem Cmem_mono {v w : Nat} (le : v ≤ w) : Cmem v ≤ Cmem w := by
  have square : v * v ≤ w * w := Nat.mul_le_mul le le
  have quad : v * v / 512 ≤ w * w / 512 := Nat.div_le_div_right square
  unfold Cmem
  omega

/-- Below `2 ^ 32` words the square of the word count does not wrap. -/
theorem square_lt_of_small {w : Nat} (small : w < 2 ^ 32) : w * w < 2 ^ 64 :=
  calc w * w < 2 ^ 32 * 2 ^ 32 := Nat.mul_lt_mul'' small small
    _ = 2 ^ 64 := (Nat.pow_add 2 32 32).symm

/-- A length below `2 ^ 63` compares as a `uint64` as it does as a number. -/
theorem ofNat_lt_iff {n : Nat} (bounded : n < 2 ^ 63) (size : UInt64) :
    UInt64.ofNat n < size ↔ n < size.toNat := by
  rw [UInt64.lt_iff_toNat_lt, UInt64.toNat_ofNat', Nat.mod_eq_of_lt (by omega)]

/-- The number of words of a size `memoryGasCost` accepts. -/
theorem toNat_toWordSize {size : UInt64} (accepted : size.toNat ≤ 0xffffffffe0) :
    (toWordSize size).toNat = (size.toNat + 31) / 32 := by
  have small : ¬size > maxUint64 - 31 := by
    rw [gt_iff_lt, UInt64.lt_iff_toNat_lt, UInt64.toNat_sub_of_le _ _ (by decide)]
    simp only [maxUint64, UInt64.toNat_ofNat, Nat.reducePow, Nat.reduceMod]
    omega
  rw [toWordSize, if_neg small, UInt64.toNat_div, UInt64.toNat_add]
  simp only [UInt64.toNat_ofNat, Nat.reducePow, Nat.reduceMod]
  omega

/-- What `memoryGasCost` does when the memory grows. -/
theorem memoryGasCost_grow {mem : Memory} {newMemSize : UInt64} (nonzero : newMemSize ≠ 0)
    (accepted : newMemSize.toNat ≤ 0xffffffffe0) (bounded : mem.len < 2 ^ 63)
    (grows : mem.len < (newMemSize.toNat + 31) / 32 * 32) :
    ∃ total : UInt64, total.toNat =
        3 * ((newMemSize.toNat + 31) / 32) +
          (newMemSize.toNat + 31) / 32 * ((newMemSize.toNat + 31) / 32) % 2 ^ 64 / 512 ∧
      memoryGasCost mem newMemSize = .ok (total - mem.lastGasCost, { mem with lastGasCost := total }) := by
  have words := toNat_toWordSize accepted
  have within : ¬newMemSize > 0xffffffffe0 := by
    rw [gt_iff_lt, UInt64.lt_iff_toNat_lt]
    simpa using accepted
  have larger : toWordSize newMemSize * 32 > UInt64.ofNat mem.len := by
    rw [gt_iff_lt, UInt64.lt_iff_toNat_lt, UInt64.toNat_mul, words, UInt64.toNat_ofNat',
      Nat.mod_eq_of_lt (by omega)]
    simp only [UInt64.toNat_ofNat, Nat.reducePow, Nat.reduceMod]
    omega
  refine ⟨toWordSize newMemSize * memoryGas + toWordSize newMemSize * toWordSize newMemSize / quadCoeffDiv,
    ?_, by simp only [memoryGasCost, if_neg nonzero, if_neg within, if_pos larger]⟩
  rw [UInt64.toNat_add, UInt64.toNat_mul, UInt64.toNat_div, UInt64.toNat_mul, words]
  simp only [memoryGas, quadCoeffDiv, UInt64.toNat_ofNat, Nat.reducePow, Nat.reduceMod]
  omega

/-- What `memoryGasCost` does when the memory does not grow: nothing, for no gas. -/
theorem memoryGasCost_within {mem : Memory} {newMemSize : UInt64}
    (accepted : newMemSize.toNat ≤ 0xffffffffe0) (bounded : mem.len < 2 ^ 63)
    (within : (newMemSize.toNat + 31) / 32 * 32 ≤ mem.len) :
    memoryGasCost mem newMemSize = .ok (0, mem) := by
  have words := toNat_toWordSize accepted
  by_cases zero : newMemSize = 0
  · simp [memoryGasCost, zero]
  have small : ¬newMemSize > 0xffffffffe0 := by
    rw [gt_iff_lt, UInt64.lt_iff_toNat_lt]
    simpa using accepted
  have notLarger : ¬toWordSize newMemSize * 32 > UInt64.ofNat mem.len := by
    rw [gt_iff_lt, UInt64.lt_iff_toNat_lt, UInt64.toNat_mul, words, UInt64.toNat_ofNat',
      Nat.mod_eq_of_lt (by omega)]
    simp only [UInt64.toNat_ofNat, Nat.reducePow, Nat.reduceMod]
    omega
  simp only [memoryGasCost, if_neg zero, if_neg small, if_neg notLarger]

/-- Below `2 ^ 32` words the fee is the difference of the Yellow Paper's costs. -/
theorem memoryGasCost_fee {mem : Memory} {newMemSize : UInt64} (priced : Priced mem)
    (small : newMemSize.toNat ≤ 0x1fffffffe0) :
    (memoryGasCost mem newMemSize).map (·.1.toNat) =
      .ok (Cmem ((newMemSize.toNat + 31) / 32) - Cmem (mem.len / 32)) := by
  set w := (newMemSize.toNat + 31) / 32 with w_def
  by_cases grows : mem.len < w * 32
  · have nonzero : newMemSize ≠ 0 := by
      rintro rfl
      simp [w_def] at grows
    obtain ⟨total, value, cost⟩ :=
      memoryGasCost_grow nonzero (by omega) priced.bounded (w_def ▸ grows)
    have square : w * w < 2 ^ 64 := square_lt_of_small (by omega)
    have below : mem.len / 32 ≤ w := by omega
    have increase := Cmem_mono below
    have fits : Cmem w < 2 ^ 64 := by
      unfold Cmem
      omega
    rw [cost]
    simp only [Except.map, UInt64.toNat_sub, value, priced.cached, ← w_def, Nat.mod_eq_of_lt square,
      Except.ok.injEq]
    unfold Cmem at increase fits ⊢
    omega
  · rw [memoryGasCost_within (by omega) priced.bounded (by omega)]
    have shrink : Cmem w ≤ Cmem (mem.len / 32) := Cmem_mono (by have := priced.aligned; omega)
    simp only [Except.map, UInt64.toNat_zero, Except.ok.injEq]
    omega

/-- Resizing to a whole number of words below `2 ^ 32` after paying leaves the memory priced. -/
theorem priced_resize {mem mem' : Memory} {memorySize fee : UInt64} (priced : Priced mem)
    (small : memorySize.toNat ≤ 0x1fffffffe0) (aligned : memorySize.toNat % 32 = 0)
    (cost : memoryGasCost mem memorySize = .ok (fee, mem')) : Priced (mem'.resize memorySize) := by
  have words : (memorySize.toNat + 31) / 32 * 32 = memorySize.toNat := by omega
  by_cases grows : mem.len < (memorySize.toNat + 31) / 32 * 32
  · have nonzero : memorySize ≠ 0 := by
      rintro rfl
      simp at grows
    obtain ⟨total, value, grown⟩ := memoryGasCost_grow nonzero (by omega) priced.bounded grows
    obtain ⟨-, rfl⟩ := Prod.mk.inj (Except.ok.inj (grown.symm.trans cost))
    have longer : UInt64.ofNat mem.len < memorySize :=
      (ofNat_lt_iff priced.bounded memorySize).mpr (by omega)
    have square : (memorySize.toNat + 31) / 32 * ((memorySize.toNat + 31) / 32) < 2 ^ 64 :=
      square_lt_of_small (by omega)
    have resized : ({ mem with lastGasCost := total } : Memory).resize memorySize =
        ⟨mem.store ++ List.replicate (memorySize.toNat - mem.len) 0, total⟩ := by
      unfold Memory.resize
      exact if_pos longer
    have length : (Memory.mk (mem.store ++ List.replicate (memorySize.toNat - mem.len) 0) total).len =
        memorySize.toNat := by
      simp only [Memory.len, List.length_append, List.length_replicate]
      have := priced.bounded
      simp only [Memory.len] at grows this
      omega
    have quotient : (memorySize.toNat + 31) / 32 = memorySize.toNat / 32 := by omega
    rw [resized]
    refine ⟨by rw [length]; exact aligned, by rw [length]; omega, ?_⟩
    rw [length, value, Nat.mod_eq_of_lt square, quotient]
    rfl
  · rw [memoryGasCost_within (by omega) priced.bounded (by omega)] at cost
    obtain ⟨-, rfl⟩ := Prod.mk.inj (Except.ok.inj cost)
    have notLonger : ¬UInt64.ofNat mem.len < memorySize := by
      rw [ofNat_lt_iff priced.bounded]
      omega
    rw [Memory.resize, if_neg notLonger]
    exact priced

/-- One expansion of a priced memory below `2 ^ 32` words is charged by the Yellow Paper. -/
theorem memoryGasCost_step {mem : Memory} {memorySize : UInt64} (priced : Priced mem)
    (small : memorySize.toNat ≤ 0x1fffffffe0) (aligned : memorySize.toNat % 32 = 0) :
    ∃ fee mem', memoryGasCost mem memorySize = .ok (fee, mem') ∧
      fee.toNat = Cmem (memorySize.toNat / 32) - Cmem (mem.len / 32) ∧
      Priced (mem'.resize memorySize) := by
  have charged := memoryGasCost_fee priced small
  have words : (memorySize.toNat + 31) / 32 = memorySize.toNat / 32 := by omega
  rw [words] at charged
  cases cost : memoryGasCost mem memorySize with
  | error err => simp [cost, Except.map] at charged
  | ok result =>
    obtain ⟨fee, mem'⟩ := result
    simp only [cost, Except.map, Except.ok.injEq] at charged
    exact ⟨fee, mem', rfl, charged, priced_resize priced small aligned cost⟩

theorem memoryGasCost_step_fresh :
    Priced {} ∧ (UInt64.toNat 64 ≤ 0x1fffffffe0 ∧ UInt64.toNat 64 % 32 = 0) ∧
      ∃ fee mem', memoryGasCost {} 64 = .ok (fee, mem') ∧
        fee.toNat = Cmem (UInt64.toNat 64 / 32) - Cmem (({} : Memory).len / 32) ∧
        Priced (mem'.resize 64) :=
  have priced : Priced {} := ⟨rfl, by decide, rfl⟩
  ⟨priced, ⟨by decide, by decide⟩, memoryGasCost_step priced (by decide) (by decide)⟩

/-- From `2 ^ 32` words on, the square wraps and the fee is not the Yellow Paper's. -/
theorem memoryGasCost_wraps {mem : Memory} {newMemSize : UInt64} (priced : Priced mem)
    (accepted : newMemSize.toNat ≤ 0xffffffffe0) (large : 2 ^ 32 ≤ (newMemSize.toNat + 31) / 32)
    (grows : mem.len < (newMemSize.toNat + 31) / 32 * 32) :
    ∃ fee mem', memoryGasCost mem newMemSize = .ok (fee, mem') ∧
      fee.toNat ≠ Cmem ((newMemSize.toNat + 31) / 32) - Cmem (mem.len / 32) := by
  set w := (newMemSize.toNat + 31) / 32 with w_def
  have nonzero : newMemSize ≠ 0 := by
    rintro rfl
    simp [w_def] at large
  obtain ⟨total, value, cost⟩ := memoryGasCost_grow nonzero accepted priced.bounded grows
  refine ⟨_, _, cost, ?_⟩
  have lower : 2 ^ 64 ≤ w * w :=
    calc 2 ^ 64 = 2 ^ 32 * 2 ^ 32 := Nat.pow_add 2 32 32
      _ ≤ w * w := Nat.mul_le_mul large large
  have upper : w * w < 2 ^ 70 := by
    have : w < 2 ^ 35 := by omega
    calc w * w < 2 ^ 35 * 2 ^ 35 := Nat.mul_lt_mul'' this this
      _ = 2 ^ 70 := (Nat.pow_add 2 35 35).symm
  have below : mem.len / 32 ≤ w := by omega
  have increase := Cmem_mono below
  rw [UInt64.toNat_sub, value, priced.cached, ← w_def]
  unfold Cmem at increase ⊢
  omega

/-- The witness: a fresh memory grown to `2 ^ 37` bytes, `2 ^ 32` words. -/
theorem memoryGasCost_wraps_fresh : Priced {} ∧ ∃ fee mem', memoryGasCost {} 0x2000000000 = .ok (fee, mem') ∧
    fee.toNat ≠ Cmem ((UInt64.toNat 0x2000000000 + 31) / 32) - Cmem ((({} : Memory)).len / 32) :=
  have priced : Priced {} := ⟨rfl, by decide, rfl⟩
  ⟨priced, memoryGasCost_wraps priced (by decide) (by decide) (by decide)⟩

example : memoryGasCost {} 0x2000000000 = .ok (0x300000000, { lastGasCost := 0x300000000 }) := by
  decide

end Tangerine.Proof.MemoryGas
