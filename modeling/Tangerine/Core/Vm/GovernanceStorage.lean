import Tangerine.Common.Types
import Tangerine.Library.BigEndian

/-! The byte-string helpers of `GovernanceState` (`core/vm/oracle_contracts.go`). -/

namespace Tangerine.Core.Vm

open Tangerine.Common Tangerine.Library

/-- The storage of `GovernanceContractAddress`, as `GetState` and `SetState` see it. -/
structure GovernanceStorage where
  slots : Hash → Hash

/-- `common.BigToHash` of a non-negative number. -/
def bigToHash (b : Nat) : Hash := BitVec.ofNat 256 b

/-- `common.BytesToHash`: the last 32 bytes, right-aligned. -/
def bytesToHash (b : Bytes) : Hash := BitVec.ofNat 256 (BigEndian.ofBytes b)

/-- `Hash.Bytes`: the 32 bytes of a hash. -/
def hashToBytes (h : Hash) : Bytes := BigEndian.toFixedBytes 32 h.toNat

/-- `big.Int.Uint64`: the low 64 bits. -/
def uint64 (n : Nat) : Nat := n % 2 ^ 64

@[simp] theorem toNat_bigToHash (b : Nat) : (bigToHash b).toNat = b % 2 ^ 256 :=
  BitVec.toNat_ofNat b 256

theorem toNat_bytesToHash {b : Bytes} (fits : b.length ≤ 32) :
    (bytesToHash b).toNat = BigEndian.ofBytes b := by
  have below : BigEndian.ofBytes b < 2 ^ 256 :=
    calc BigEndian.ofBytes b < 256 ^ b.length := BigEndian.ofBytes_lt b
      _ ≤ 256 ^ 32 := Nat.pow_le_pow_right (by norm_num) fits
      _ = 2 ^ 256 := by norm_num
  rw [bytesToHash, BitVec.toNat_ofNat, Nat.mod_eq_of_lt below]

theorem hashToBytes_bytesToHash {b : Bytes} (word : b.length = 32) : hashToBytes (bytesToHash b) = b := by
  rw [hashToBytes, toNat_bytesToHash word.le, ← word, BigEndian.toFixedBytes_ofBytes]

theorem uint64_of_lt {n : Nat} (below : n < 2 ^ 64) : uint64 n = n := Nat.mod_eq_of_lt below

namespace GovernanceStorage

variable (keccak256 : Bytes → Bytes) (s : GovernanceStorage)

/-- `getState`. -/
def getState (loc : Hash) : Hash := s.slots loc

/-- `setState`. -/
def setState (loc val : Hash) : GovernanceStorage :=
  ⟨Function.update s.slots loc val⟩

/-- `getStateBigInt`: the slot read as an unsigned number. -/
def getStateBigInt (loc : Nat) : Nat := (s.getState (bigToHash loc)).toNat

/-- `setStateBigInt`. -/
def setStateBigInt (loc val : Nat) : GovernanceStorage :=
  s.setState (bigToHash loc) (bigToHash val)

@[simp] theorem getState_setState_self (loc val : Hash) : (s.setState loc val).getState loc = val := by
  simp [getState, setState]

theorem getState_setState_of_ne {loc loc' : Hash} (val : Hash) (other : loc' ≠ loc) :
    (s.setState loc val).getState loc' = s.getState loc' := by
  simp [getState, setState, other]

/-- `getSlotLoc`: the location of the data of a dynamic value stored at `loc`. -/
def getSlotLoc (loc : Nat) : Nat :=
  BigEndian.ofBytes (keccak256 (hashToBytes (bigToHash loc)))

/-- `readBytes`; slicing past the end of `rawLength.Bytes()` panics (`none`). -/
def readBytes (loc : Nat) : Option Bytes :=
  let rawLength := s.getStateBigInt loc
  let lengthByte := rawLength % 256
  if lengthByte % 2 = 0 then
    let length := uint64 (lengthByte / 2)
    let bytes := BigEndian.toBytes rawLength
    if length ≤ bytes.length then some (bytes.take length) else none
  else
    let length := uint64 ((rawLength - 1) / 2)
    let dataLoc := getSlotLoc keccak256 loc
    let carry := if length % 32 > 0 then 1 else 0
    let chunks := length / 32 + carry
    let data := (List.range chunks).foldl
      (fun data i => data ++ hashToBytes (s.getState (bigToHash (dataLoc + i)))) []
    some (data.take length)

/-- One iteration of the chunk loop of `writeBytes`. -/
def writeChunk (dataLoc : Nat) (data : Bytes) (s : GovernanceStorage) (i : Nat) :
    GovernanceStorage :=
  let maxLoc := min ((i + 1) * 32) data.length
  let data2 := (data.drop (i * 32)).take (maxLoc - i * 32)
  let data2 := data2 ++ List.replicate (32 - data2.length) 0
  s.setState (bigToHash (dataLoc + i)) (bytesToHash data2)

/-- `writeBytes`. -/
def writeBytes (loc : Nat) (data : Bytes) : GovernanceStorage :=
  let length := data.length
  if length = 0 then s.setState (bigToHash loc) 0
  else if length < 32 then
    -- right padded with zeros, and twice the length in the last byte
    let data2 := data ++ List.replicate (31 - length) 0 ++ [UInt8.ofNat (length * 2)]
    s.setState (bigToHash loc) (bytesToHash data2)
  else
    let s := s.setStateBigInt loc (length * 2 + 1)
    let dataLoc := getSlotLoc keccak256 loc
    let carry := if length % 32 > 0 then 1 else 0
    let chunks := length / 32 + carry
    (List.range chunks).foldl (writeChunk dataLoc data) s

/-- `eraseBytes`: the data of a long string is overwritten with zeros, then the slot cleared. -/
def eraseBytes (loc : Nat) : GovernanceStorage :=
  let rawLength := s.getStateBigInt loc
  let lengthByte := rawLength % 256
  if lengthByte % 2 = 0 then s.setStateBigInt loc 0
  else
    let length := uint64 ((rawLength - 1) / 2)
    (s.writeBytes keccak256 loc (List.replicate length 0)).setStateBigInt loc 0

/-- `read1DByteArray`; a panicking element makes the whole read panic. -/
def read1DByteArray (loc : Nat) : Option (List Bytes) :=
  let arrayLength := uint64 (s.getStateBigInt loc)
  let dataLoc := getSlotLoc keccak256 loc
  let count := if arrayLength < 2 ^ 63 then arrayLength else 0
  (List.range count).mapM fun i => s.readBytes keccak256 (dataLoc + i)

/-- `appendTo1DByteArray`. -/
def appendTo1DByteArray (loc : Nat) (data : Bytes) : GovernanceStorage :=
  let arrayLength := s.getStateBigInt loc
  let s := s.setStateBigInt loc (arrayLength + 1)
  let dataLoc := getSlotLoc keccak256 loc
  s.writeBytes keccak256 (dataLoc + arrayLength) data

/-- `erase1DByteArray`. -/
def erase1DByteArray (loc : Nat) : GovernanceStorage :=
  let arrayLength := uint64 (s.getStateBigInt loc)
  let dataLoc := getSlotLoc keccak256 loc
  let count := if arrayLength < 2 ^ 63 then arrayLength else 0
  ((List.range count).foldl (fun s i => s.eraseBytes keccak256 (dataLoc + i)) s).setStateBigInt
    loc 0

end GovernanceStorage

end Tangerine.Core.Vm
