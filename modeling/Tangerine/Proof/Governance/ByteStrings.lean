import Tangerine.Core.Vm.GovernanceStorage

/-! The round trip of `writeBytes` and `readBytes`. -/

namespace Tangerine.Proof.ByteStrings

open Tangerine.Common Tangerine.Core.Vm Tangerine.Library GovernanceStorage

variable (keccak256 : Bytes → Bytes) (s : GovernanceStorage) (loc : Nat) {data : Bytes}

/-- The slot `writeBytes` stores for a string of 1 to 31 bytes. -/
def shortSlot (data : Bytes) : Bytes :=
  data ++ List.replicate (31 - data.length) 0 ++ [UInt8.ofNat (data.length * 2)]

theorem length_shortSlot (short : data.length < 32) : (shortSlot data).length = 32 := by
  simp only [shortSlot, List.length_append, List.length_replicate, List.length_singleton]
  omega

theorem writeBytes_short (nonempty : data ≠ []) (short : data.length < 32) :
    s.writeBytes keccak256 loc data = s.setState (bigToHash loc) (bytesToHash (shortSlot data)) := by
  have positive : data.length ≠ 0 := by simpa using nonempty
  simp only [writeBytes, if_neg positive, if_pos short, shortSlot]

/-- The low byte of a short slot is twice the length. -/
theorem ofBytes_shortSlot_mod (short : data.length < 32) :
    BigEndian.ofBytes (shortSlot data) % 256 = data.length * 2 := by
  rw [shortSlot, BigEndian.ofBytes_append_singleton, UInt8.toNat_ofNat']
  omega

/-- What `readBytes` makes of a short string just written. -/
theorem readBytes_writeBytes_short (nonempty : data ≠ []) (short : data.length < 32) :
    (s.writeBytes keccak256 loc data).readBytes keccak256 loc =
      if data.length ≤ ((shortSlot data).dropWhile (· == 0)).length then
        some (((shortSlot data).dropWhile (· == 0)).take data.length)
      else none := by
  have raw : (s.writeBytes keccak256 loc data).getStateBigInt loc = BigEndian.ofBytes (shortSlot data) := by
    rw [writeBytes_short keccak256 s loc nonempty short, getStateBigInt, getState_setState_self,
      toNat_bytesToHash (length_shortSlot short).le]
  have even : BigEndian.ofBytes (shortSlot data) % 256 % 2 = 0 := by
    rw [ofBytes_shortSlot_mod short]
    omega
  have length : uint64 (BigEndian.ofBytes (shortSlot data) % 256 / 2) = data.length := by
    rw [ofBytes_shortSlot_mod short, uint64_of_lt (by omega)]
    omega
  simp only [readBytes, raw, if_pos even, length, BigEndian.toBytes_ofBytes]

/-- A short string that starts with a zero byte does not come back from `readBytes`. -/
theorem readBytes_writeBytes_leadingZero (short : data.length < 32) (leading : data.head? = some 0) :
    (s.writeBytes keccak256 loc data).readBytes keccak256 loc ≠ some data := by
  have nonempty : data ≠ [] := by
    rintro rfl
    cases leading
  rw [readBytes_writeBytes_short keccak256 s loc nonempty short]
  intro read
  split at read
  · have cut := Option.some.inj read
    have positive : 0 < data.length := List.length_pos_iff.mpr nonempty
    have first : ((shortSlot data).dropWhile (· == 0)).head? = some 0 := by
      have taken := congrArg List.head? cut
      rwa [List.head?_take, if_neg positive.ne', leading] at taken
    rw [← BigEndian.toBytes_ofBytes] at first
    exact BigEndian.head_toBytes_ne_zero _ first
  · cases read

/-- The one-byte string `0x00` reads back as the byte `0x02`, its length. -/
theorem readBytes_writeBytes_zeroByte :
    ((GovernanceStorage.mk fun _ => 0).writeBytes (fun _ => []) 0 [0]).readBytes (fun _ => []) 0 ≠
      some [0] :=
  readBytes_writeBytes_leadingZero (fun _ => []) ⟨fun _ => 0⟩ 0 (by decide) rfl

example : ((GovernanceStorage.mk fun _ => 0).writeBytes (fun _ => []) 0 [0]).readBytes
    (fun _ => []) 0 = some [2] := by decide

example : ((GovernanceStorage.mk fun _ => 0).writeBytes (fun _ => []) 0 [0, 0]).readBytes
    (fun _ => []) 0 = none := by decide

section Long

/-- The data of a long string, padded with a slot of zeros. -/
def padded (data : Bytes) : Bytes := data ++ List.replicate 32 0

/-- The slot `i` of a long string's data: the 32 bytes of the padded data from `32 i` on. -/
def chunk (data : Bytes) (i : Nat) : Bytes := ((padded data).drop (i * 32)).take 32

theorem lt_chunks_iff {length i : Nat} :
    i < length / 32 + (if length % 32 > 0 then 1 else 0) ↔ i * 32 < length := by
  split <;> omega

theorem length_chunk {i : Nat} (inside : i * 32 < data.length) : (chunk data i).length = 32 := by
  simp only [chunk, padded, List.length_take, List.length_drop, List.length_append,
    List.length_replicate]
  omega

/-- The write of chunk `i` stores `chunk data i`. -/
theorem writeChunk_eq (dataLoc : Nat) {i : Nat} (inside : i * 32 < data.length) :
    writeChunk dataLoc data s i = s.setState (bigToHash (dataLoc + i)) (bytesToHash (chunk data i)) := by
  have dropped : (padded data).drop (i * 32) = data.drop (i * 32) ++ List.replicate 32 0 :=
    List.drop_append_of_le_length (by omega)
  have rest : (data.drop (i * 32)).length = data.length - i * 32 := List.length_drop ..
  rw [writeChunk, chunk, dropped, List.take_append, rest]
  by_cases full : 32 ≤ data.length - i * 32
  · have maxLoc : min ((i + 1) * 32) data.length - i * 32 = 32 := by omega
    simp [maxLoc, rest, full, Nat.sub_eq_zero_of_le full]
  · have maxLoc : min ((i + 1) * 32) data.length - i * 32 = data.length - i * 32 := by omega
    rw [maxLoc, List.take_of_length_le rest.le, List.take_of_length_le (by omega),
      List.take_replicate, rest, min_eq_left (by omega)]

theorem getState_writeChunk_of_ne (dataLoc : Nat) (i : Nat) {slot : Hash}
    (other : slot ≠ bigToHash (dataLoc + i)) :
    (writeChunk dataLoc data s i).getState slot = s.getState slot :=
  getState_setState_of_ne _ _ other

/-- After the chunk loop, the slot of chunk `j` holds it. -/
theorem getState_foldl_writeChunk (dataLoc : Nat) {n j : Nat} (below : n ≤ 2 ^ 256) (within : j < n)
    (inside : j * 32 < data.length) :
    ((List.range n).foldl (writeChunk dataLoc data) s).getState (bigToHash (dataLoc + j)) =
      bytesToHash (chunk data j) := by
  induction n with
  | zero => omega
  | succ n inductionHypothesis =>
      rw [List.range_succ, List.foldl_append, List.foldl_cons, List.foldl_nil]
      by_cases last : j = n
      · subst last
        rw [writeChunk_eq _ _ inside, getState_setState_self]
      · have apart : bigToHash (dataLoc + j) ≠ bigToHash (dataLoc + n) := by
          intro same
          have := congrArg BitVec.toNat same
          simp only [toNat_bigToHash] at this
          omega
        rw [getState_writeChunk_of_ne _ _ _ apart, inductionHypothesis (by omega) (by omega)]

/-- The chunk loop leaves every slot it does not write alone. -/
theorem getState_foldl_writeChunk_of_apart (dataLoc : Nat) (n : Nat) {slot : Hash}
    (apart : ∀ i < n, bigToHash (dataLoc + i) ≠ slot) :
    ((List.range n).foldl (writeChunk dataLoc data) s).getState slot = s.getState slot := by
  induction n with
  | zero => rfl
  | succ n inductionHypothesis =>
      rw [List.range_succ, List.foldl_append, List.foldl_cons, List.foldl_nil]
      rw [getState_writeChunk_of_ne _ _ _ (apart n (by omega)).symm,
        inductionHypothesis fun i within => apart i (by omega)]

theorem foldl_append_range (f : Nat → Bytes) (n : Nat) :
    (List.range n).foldl (fun data i => data ++ f i) [] = (List.range n).flatMap f := by
  induction n with
  | zero => rfl
  | succ n inductionHypothesis =>
      rw [List.range_succ, List.foldl_append, inductionHypothesis, List.flatMap_append]
      simp

/-- The chunks of the first `n` slots are the first `32 n` bytes of the padded data. -/
theorem flatMap_chunk (data : Bytes) (n : Nat) :
    (List.range n).flatMap (chunk data) = (padded data).take (n * 32) := by
  induction n with
  | zero => rfl
  | succ n inductionHypothesis =>
      rw [List.range_succ, List.flatMap_append, inductionHypothesis, Nat.succ_mul, List.take_add]
      simp [chunk]

/-- A string of 32 bytes or more comes back, if no data slot is its length slot. -/
theorem readBytes_writeBytes_long (long : 32 ≤ data.length) (fits : data.length < 2 ^ 63)
    (apart : ∀ i, i * 32 < data.length → bigToHash (getSlotLoc keccak256 loc + i) ≠ bigToHash loc) :
    (s.writeBytes keccak256 loc data).readBytes keccak256 loc = some data := by
  set dataLoc := getSlotLoc keccak256 loc
  set chunks := data.length / 32 + (if data.length % 32 > 0 then 1 else 0) with chunks_def
  have written : s.writeBytes keccak256 loc data =
      (List.range chunks).foldl (writeChunk dataLoc data) (s.setStateBigInt loc (data.length * 2 + 1)) := by
    simp only [writeBytes, if_neg (show data.length ≠ 0 by omega), if_neg (show ¬data.length < 32 by omega)]
    rfl
  have raw : (s.writeBytes keccak256 loc data).getStateBigInt loc = data.length * 2 + 1 := by
    rw [written, getStateBigInt, getState_foldl_writeChunk_of_apart _ _ _ fun i within =>
      apart i (lt_chunks_iff.mp within)]
    simp only [setStateBigInt, getState_setState_self, toNat_bigToHash]
    omega
  have few : chunks ≤ 2 ^ 256 := by
    rw [chunks_def]
    split <;> omega
  have cover : data.length ≤ chunks * 32 := by
    rw [chunks_def]
    split <;> omega
  have odd : ¬(data.length * 2 + 1) % 256 % 2 = 0 := by omega
  have length : uint64 ((data.length * 2 + 1 - 1) / 2) = data.length := by
    rw [uint64_of_lt (by omega)]
    omega
  have read : (List.range chunks).foldl (fun acc i => acc ++ hashToBytes
      ((s.writeBytes keccak256 loc data).getState (bigToHash (dataLoc + i)))) [] =
      (padded data).take (chunks * 32) := by
    rw [foldl_append_range, ← flatMap_chunk]
    apply List.flatMap_congr
    intro i member
    have inside := lt_chunks_iff.mp (List.mem_range.mp member)
    rw [written, getState_foldl_writeChunk _ _ few (List.mem_range.mp member) inside,
      hashToBytes_bytesToHash (length_chunk inside)]
  simp only [readBytes, raw, if_neg odd, length]
  rw [← chunks_def, read, List.take_take, min_eq_left cover, padded, List.take_left]

/-- The data slots of `keccakOnes` start at `0x0101…01`, far from slot zero. -/
def keccakOnes : Bytes → Bytes := fun _ => List.replicate 32 1

theorem readBytes_writeBytes_long_fives :
    32 ≤ (List.replicate 40 (5 : UInt8)).length ∧ (List.replicate 40 (5 : UInt8)).length < 2 ^ 63 ∧
      (∀ i, i * 32 < (List.replicate 40 (5 : UInt8)).length →
        bigToHash (getSlotLoc keccakOnes 0 + i) ≠ bigToHash 0) ∧
      ((⟨fun _ => 0⟩ : GovernanceStorage).writeBytes keccakOnes 0 (List.replicate 40 5)).readBytes keccakOnes 0 =
        some (List.replicate 40 5) := by
  have length : (List.replicate 40 (5 : UInt8)).length = 40 := List.length_replicate
  have apart : ∀ i, i * 32 < (List.replicate 40 (5 : UInt8)).length →
      bigToHash (getSlotLoc keccakOnes 0 + i) ≠ bigToHash 0 := by
    intro i inside
    rw [length] at inside
    -- the two data slots, 0 and 1
    have few : i = 0 ∨ i = 1 := by omega
    rcases few with rfl | rfl <;> decide
  have long : 32 ≤ (List.replicate 40 (5 : UInt8)).length := by rw [length]; decide
  have fits : (List.replicate 40 (5 : UInt8)).length < 2 ^ 63 := by rw [length]; decide
  exact ⟨long, fits, apart, readBytes_writeBytes_long keccakOnes _ 0 long fits apart⟩

end Long

end Tangerine.Proof.ByteStrings
