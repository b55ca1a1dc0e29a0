import Mathlib

/-! Natural numbers written in base 256, most significant byte first. -/

namespace Tangerine.Library.BigEndian

/-- The number a big-endian string of bytes stands for. -/
def ofBytes (bytes : List UInt8) : Nat :=
  bytes.foldl (fun acc byte => 256 * acc + byte.toNat) 0

/-- The shortest big-endian string of `n`, found within `fuel` digits. -/
def toBytesWithin : Nat → Nat → List UInt8
  | 0, _ => []
  | fuel + 1, n => if n = 0 then [] else toBytesWithin fuel (n / 256) ++ [UInt8.ofNat n]

/-- The shortest big-endian string of `n`; `n` itself bounds the number of its digits. -/
def toBytes (n : Nat) : List UInt8 := toBytesWithin n n

theorem toBytesWithin_eq {fuel fuel' n : Nat} (enough : n ≤ fuel) (enough' : n ≤ fuel') :
    toBytesWithin fuel n = toBytesWithin fuel' n := by
  induction fuel generalizing fuel' n with
  | zero =>
      obtain rfl : n = 0 := by omega
      cases fuel' <;> simp [toBytesWithin]
  | succ fuel inductionHypothesis =>
      cases fuel' with
      | zero =>
          obtain rfl : n = 0 := by omega
          simp [toBytesWithin]
      | succ fuel' =>
          simp only [toBytesWithin]
          split
          · rfl
          · -- a digit fewer is left, and the quotient is below both fuels
            rw [@inductionHypothesis fuel' (n / 256) (by omega) (by omega)]

@[simp] theorem toBytes_zero : toBytes 0 = [] := rfl

/-- A positive number is its quotient by 256 followed by its last digit. -/
theorem toBytes_of_pos {n : Nat} (positive : 0 < n) :
    toBytes n = toBytes (n / 256) ++ [UInt8.ofNat n] := by
  obtain ⟨m, rfl⟩ : ∃ m, n = m + 1 := ⟨n - 1, by omega⟩
  rw [toBytes, toBytesWithin, if_neg (by omega), toBytes, toBytesWithin_eq (by omega) le_rfl]

theorem ofBytes_append_singleton (bytes : List UInt8) (byte : UInt8) :
    ofBytes (bytes ++ [byte]) = 256 * ofBytes bytes + byte.toNat := by
  simp [ofBytes, List.foldl_append]

@[simp] theorem ofBytes_toBytes (n : Nat) : ofBytes (toBytes n) = n := by
  induction n using Nat.strong_induction_on with
  | _ n inductionHypothesis =>
      rcases Nat.eq_zero_or_pos n with rfl | positive
      · rfl
      · rw [toBytes_of_pos positive, ofBytes_append_singleton,
          inductionHypothesis (n / 256) (Nat.div_lt_self positive (by norm_num)),
          UInt8.toNat_ofNat']
        omega

/-- A string of zero bytes stands for zero, and only such a string does. -/
theorem ofBytes_eq_zero_iff {bytes : List UInt8} : ofBytes bytes = 0 ↔ ∀ byte ∈ bytes, byte = 0 := by
  induction bytes using List.reverseRecOn with
  | nil => simp [ofBytes]
  | append_singleton bytes byte inductionHypothesis =>
      rw [ofBytes_append_singleton]
      simp only [List.mem_append, List.mem_singleton]
      constructor
      · intro zero
        have leading : ofBytes bytes = 0 := by omega
        have last : byte.toNat = 0 := by omega
        intro x member
        rcases member with member | rfl
        · exact inductionHypothesis.mp leading x member
        · exact UInt8.toNat_inj.mp last
      · intro zeros
        have leading := inductionHypothesis.mpr fun x member => zeros x (.inl member)
        rw [leading, zeros byte (.inr rfl)]
        rfl

/-- The shortest string of the number a string stands for drops its leading zero bytes. -/
theorem toBytes_ofBytes (bytes : List UInt8) : toBytes (ofBytes bytes) = bytes.dropWhile (· == 0) := by
  induction bytes using List.reverseRecOn with
  | nil => rfl
  | append_singleton bytes byte inductionHypothesis =>
      rw [ofBytes_append_singleton, List.dropWhile_append]
      by_cases leading : ofBytes bytes = 0
      · have zeros := ofBytes_eq_zero_iff.mp leading
        have dropped : (bytes.dropWhile (· == 0)).isEmpty = true := by
          simpa [List.dropWhile_eq_nil_iff] using zeros
        rw [if_pos dropped, leading]
        by_cases last : byte = 0
        · subst last
          rfl
        · have positive : 0 < byte.toNat := by
            rcases Nat.eq_zero_or_pos byte.toNat with zero | positive
            · exact absurd (UInt8.toNat_inj.mp zero) last
            · exact positive
          rw [toBytes_of_pos (by omega)]
          have below := byte.toNat_lt
          simp [last, UInt8.ofNat_toNat, Nat.div_eq_of_lt below]
      · have dropped : (bytes.dropWhile (· == 0)).isEmpty = false := by
          rw [← inductionHypothesis]
          rcases Nat.eq_zero_or_pos (ofBytes bytes) with zero | positive
          · exact absurd zero leading
          · rw [toBytes_of_pos positive]
            simp
        rw [if_neg (by simp [dropped]), toBytes_of_pos (by omega), ← inductionHypothesis]
        have below := byte.toNat_lt
        congr 2
        · omega
        · apply UInt8.toNat_inj.mp
          simp only [UInt8.toNat_ofNat']
          omega

/-- The shortest string of a number never starts with a zero byte. -/
theorem head_toBytes_ne_zero (n : Nat) : (toBytes n).head? ≠ some 0 := by
  intro leading
  have dropped := toBytes_ofBytes (toBytes n)
  rw [ofBytes_toBytes] at dropped
  obtain ⟨rest, split⟩ : ∃ rest, toBytes n = 0 :: rest := by
    cases bytes : toBytes n with
    | nil => simp [bytes] at leading
    | cons byte rest =>
        simp only [bytes, List.head?_cons, Option.some.injEq] at leading
        exact ⟨rest, by rw [leading]⟩
  rw [split, List.dropWhile_cons_of_pos (by rfl)] at dropped
  have shorter := congrArg List.length dropped
  have bound := List.length_dropWhile_le (· == 0) rest
  simp only [List.length_cons] at shorter
  omega

/-- `n` big-endian in exactly `width` bytes, taken modulo `256 ^ width`. -/
def toFixedBytes : Nat → Nat → List UInt8
  | 0, _ => []
  | width + 1, n => toFixedBytes width (n / 256) ++ [UInt8.ofNat n]

@[simp] theorem length_toFixedBytes (width n : Nat) : (toFixedBytes width n).length = width := by
  induction width generalizing n with
  | zero => rfl
  | succ width inductionHypothesis => simp [toFixedBytes, inductionHypothesis]

/-- A string of `width` bytes is the fixed-width string of the number it stands for. -/
theorem toFixedBytes_ofBytes {bytes : List UInt8} : toFixedBytes bytes.length (ofBytes bytes) = bytes := by
  induction bytes using List.reverseRecOn with
  | nil => rfl
  | append_singleton bytes byte inductionHypothesis =>
      have below := byte.toNat_lt
      rw [List.length_append, List.length_singleton, toFixedBytes, ofBytes_append_singleton]
      have quotient : (256 * ofBytes bytes + byte.toNat) / 256 = ofBytes bytes := by omega
      rw [quotient, inductionHypothesis]
      congr 2
      apply UInt8.toNat_inj.mp
      simp only [UInt8.toNat_ofNat']
      omega

/-- The number a string stands for is below `256` to the string's length. -/
theorem ofBytes_lt (bytes : List UInt8) : ofBytes bytes < 256 ^ bytes.length := by
  induction bytes using List.reverseRecOn with
  | nil => simp [ofBytes]
  | append_singleton bytes byte inductionHypothesis =>
      have below := byte.toNat_lt
      rw [ofBytes_append_singleton, List.length_append, List.length_singleton, pow_succ]
      omega

/-- A number below `256 ^ k` takes at most `k` bytes. -/
theorem length_toBytes_le {n k : Nat} (below : n < 256 ^ k) : (toBytes n).length ≤ k := by
  induction k generalizing n with
  | zero =>
      obtain rfl : n = 0 := by simpa using below
      simp
  | succ k inductionHypothesis =>
      rcases Nat.eq_zero_or_pos n with rfl | positive
      · simp
      · have quotient : n / 256 < 256 ^ k := by
          rw [pow_succ] at below
          omega
        rw [toBytes_of_pos positive, List.length_append, List.length_singleton]
        have := inductionHypothesis quotient
        omega

end Tangerine.Library.BigEndian
