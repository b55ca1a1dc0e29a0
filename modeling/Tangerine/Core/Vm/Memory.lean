import Mathlib.Data.UInt

/-! The memory of the EVM interpreter (`core/vm/memory.go`) and the gas of its expansion. -/

namespace Tangerine.Core.Vm

/-- `Memory`: the bytes of the memory and the total cost paid for its size. -/
structure Memory where
  store : List UInt8 := []
  lastGasCost : UInt64 := 0
deriving DecidableEq, Repr

/-- The gas errors of memory sizing. -/
inductive GasError where
  /-- `errGasUintOverflow`: "gas uint64 overflow". -/
  | gasUintOverflow
deriving DecidableEq, Repr

/-- `params.MemoryGas`. -/
def memoryGas : UInt64 := 3

/-- `params.QuadCoeffDiv`. -/
def quadCoeffDiv : UInt64 := 512

/-- `math.MaxUint64`. -/
def maxUint64 : UInt64 := 0xFFFFFFFFFFFFFFFF

namespace Memory

/-- `Len`. -/
def len (m : Memory) : Nat := m.store.length

/-- `Resize`: the memory grown with zeros to `size` bytes, if it is shorter. -/
def resize (m : Memory) (size : UInt64) : Memory :=
  if UInt64.ofNat m.len < size then
    { m with store := m.store ++ List.replicate (size.toNat - m.len) 0 }
  else m

end Memory

/-- `toWordSize`: the number of 32-byte words that hold `size` bytes, saturating. -/
def toWordSize (size : UInt64) : UInt64 :=
  if size > maxUint64 - 31 then maxUint64 / 32 + 1 else (size + 31) / 32

/-- `memoryGasCost`, in `uint64` arithmetic, with the new total cost cached. -/
def memoryGasCost (mem : Memory) (newMemSize : UInt64) : Except GasError (UInt64 × Memory) :=
  if newMemSize = 0 then .ok (0, mem)
  -- the source's bound on sizes it accepts
  else if newMemSize > 0xffffffffe0 then .error .gasUintOverflow
  else
    let newMemSizeWords := toWordSize newMemSize
    let newMemSize := newMemSizeWords * 32
    if newMemSize > UInt64.ofNat mem.len then
      let square := newMemSizeWords * newMemSizeWords
      let linCoef := newMemSizeWords * memoryGas
      let quadCoef := square / quadCoeffDiv
      let newTotalFee := linCoef + quadCoef
      let fee := newTotalFee - mem.lastGasCost
      .ok (fee, { mem with lastGasCost := newTotalFee })
    else .ok (0, mem)

end Tangerine.Core.Vm
