import Tangerine.Common.Types

/-! The intrinsic gas rule of the state transition (`core/state_transition.go`). -/

namespace Tangerine.Core

open Tangerine.Common

/-- `params.TxGas`. -/
def TxGas : Nat := 21000

/-- `params.TxGasContractCreation`. -/
def TxGasContractCreation : Nat := 53000

/-- `params.TxDataZeroGas`. -/
def TxDataZeroGas : Nat := 4

/-- `params.TxDataNonZeroGas`. -/
def TxDataNonZeroGas : Nat := 68

/-- `math.MaxUint64`. -/
def MaxUint64 : Nat := 2 ^ 64 - 1

/-- `IntrinsicGas`: its error is `vm.ErrOutOfGas`, when the total would pass `math.MaxUint64`. -/
def intrinsicGas (data : Bytes) (contractCreation homestead : Bool) : Except String Nat :=
  let gas := if contractCreation && homestead then TxGasContractCreation else TxGas
  if 0 < data.length then
    let nz := (data.filter (· != 0)).length
    if (MaxUint64 - gas) / TxDataNonZeroGas < nz then .error "out of gas" else
    let gas := gas + nz * TxDataNonZeroGas
    let z := data.length - nz
    if (MaxUint64 - gas) / TxDataZeroGas < z then .error "out of gas" else
    .ok (gas + z * TxDataZeroGas)
  else .ok gas

end Tangerine.Core
