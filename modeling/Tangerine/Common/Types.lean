import Mathlib.Data.BitVec

/-! The value types of `common` and of the consensus library. -/

namespace Tangerine.Common

/-- `common.Address`. -/
abbrev Address := BitVec 160

/-- `common.Hash`, also `vm.Bytes32` and `coreCommon.Hash`. -/
abbrev Hash := BitVec 256

/-- A Go `[]byte`. -/
abbrev Bytes := List UInt8

/-- `coreTypes.NodeID`: the hash of a node's public key. -/
structure NodeID where
  hash : Hash
deriving DecidableEq, Repr

/-- Go's conversion `int64(x)` of a `uint64`: the two's complement reading of its 64 bits. -/
def int64 (n : Nat) : Int := Int.bmod n (2 ^ 64)

/-- `n--` on a `uint64` counter, which wraps from zero to `2^64 - 1`. -/
def decrement (n : Nat) : Nat := if n = 0 then 2 ^ 64 - 1 else n - 1

@[simp] theorem decrement_of_pos {n : Nat} (positive : 0 < n) : decrement n = n - 1 :=
  if_neg (Nat.pos_iff_ne_zero.mp positive)

/-- `IdToAddress`: the low twenty of the thirty-two bytes of the node hash. -/
def idToAddress (id : NodeID) : Address :=
  id.hash.setWidth 160

end Tangerine.Common
