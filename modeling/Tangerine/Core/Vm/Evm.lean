import Tangerine.Core.Vm.GovernanceDKG

/-! How a frame reaches the governance contract (`core/vm/evm.go`, `core/vm/oracle.go`). -/

namespace Tangerine.Core.Vm

open Tangerine.Common Function

/-- A governance method with its arguments unpacked from the input. -/
inductive GovernanceCall where
  | addDKGComplaint (complaint : Bytes)
  | addDKGMasterPublicKey (publicKey : Bytes)
  | addDKGMPKReady (ready : Bytes)
  | addDKGFinalize (finalize : Bytes)
  | addDKGSuccess (success : Bytes)
  | addToWhitelist (address : Address)
  | payFine (address : Address)
  | proposeCRS (round : Nat) (signedCRS : Bytes)
  | removeFromWhitelist (address : Address)
  | report (reportType : Nat) (arg1 arg2 : Bytes)
  | resetDKG (newSignedCRS : Bytes)
  | register (publicKey : Bytes) (name email location url : String)
  | stake
  | transferOwnership (newOwner : Address)
  | transferNodeOwnership (newOwner : Address)
  | transferNodeOwnershipByFoundation (oldOwner newOwner : Address)
  | unstake (amount : Nat)
  | updateConfiguration (cfg : RawConfig)
  | updateNodeInfo (name email location url : String)
  | withdraw
  | replaceNodePublicKey (publicKey : Bytes)
  /-- A getter, such as `totalStaked` or `withdrawable`. -/
  | view
  /-- Input shorter than a selector, an unknown selector, or arguments that do not unpack. -/
  | malformed

/-- `GovernanceContract.Run`. -/
def GovernanceContract.run (ext : Externals) (ctx : CallContext) (call : GovernanceCall)
    (db : StateDB) : Except VmError StateDB :=
  match call with
  | .addDKGComplaint complaint => addDKGComplaint ext ctx complaint db
  | .addDKGMasterPublicKey publicKey => addDKGMasterPublicKey ext ctx publicKey db
  | .addDKGMPKReady ready => addDKGMPKReady ext ctx ready db
  | .addDKGFinalize finalize => addDKGFinalize ext ctx finalize db
  | .addDKGSuccess success => addDKGSuccess ext ctx success db
  | .addToWhitelist address => (addToWhitelist ctx address db).map Prod.snd
  | .payFine address => payFine ctx address db
  | .proposeCRS round signedCRS => proposeCRS ext ctx round signedCRS db
  | .removeFromWhitelist address => (removeFromWhitelist ctx address db).map Prod.snd
  | .report reportType arg1 arg2 => report ext ctx reportType arg1 arg2 db
  | .resetDKG newSignedCRS => resetDKG ext ctx newSignedCRS db
  | .register publicKey name email location url =>
      register ext ctx publicKey name email location url db
  | .stake => stake ctx db
  | .transferOwnership newOwner => transferOwnership ctx newOwner db
  | .transferNodeOwnership newOwner => transferNodeOwnership ext ctx newOwner db
  | .transferNodeOwnershipByFoundation oldOwner newOwner =>
      transferNodeOwnershipByFoundation ext ctx oldOwner newOwner db
  | .unstake amount => unstake ctx amount db
  | .updateConfiguration cfg => updateConfiguration ctx cfg db
  | .updateNodeInfo name email location url => updateNodeInfo ctx name email location url db
  | .withdraw => withdraw ext ctx db
  | .replaceNodePublicKey publicKey => replaceNodePublicKey ext ctx publicKey db
  | .view => .ok db
  | .malformed => .error .executionReverted

/-- The four ways a frame calls another. -/
inductive CallKind where
  | call
  | callCode
  | delegateCall
  | staticCall
deriving DecidableEq, Repr

/-- The frame that issues a call. -/
structure Frame where
  address : Address
  callerAddress : Address
  value : Nat

/-- The block fields a governance frame reads from the `EVM`. -/
structure BlockContext where
  round : Nat
  time : Nat
  blockNumber : Nat

/-- `params.CallCreateDepth`. -/
def CallCreateDepth : Nat := 1024

/-- The errors the call entries return before running the callee. -/
inductive CallError where
  | depth
  | insufficientBalance
  | vm (error : VmError)

/-- The `Contract` each entry builds: who it names as the caller, and the value it reports. -/
def contractFor (kind : CallKind) (parent : Frame) (value gas : Nat) (block : BlockContext) :
    CallContext :=
  match kind with
  | .call => ⟨parent.address, value, gas, block.round, block.time, block.blockNumber⟩
  | .callCode => ⟨parent.address, value, gas, block.round, block.time, block.blockNumber⟩
  | .delegateCall =>
      ⟨parent.callerAddress, parent.value, gas, block.round, block.time, block.blockNumber⟩
  | .staticCall => ⟨parent.address, 0, gas, block.round, block.time, block.blockNumber⟩

/-- The four `EVM` call entries with the governance contract as the callee. -/
def callGovernance (ext : Externals) (kind : CallKind) (parent : Frame) (call : GovernanceCall)
    (value gas : Nat) (block : BlockContext) (depth : Nat) (db : StateDB) :
    Except CallError StateDB :=
  if CallCreateDepth < depth then .error .depth else
  let needsFunds := kind = .call ∨ kind = .callCode
  if needsFunds ∧ !db.canTransfer parent.address value then .error .insufficientBalance else
  let entered := if kind = .call then db.transfer parent.address GovernanceContractAddress value
    else db
  match GovernanceContract.run ext (contractFor kind parent value gas block) call entered with
  | .ok committed => .ok committed
  | .error error => .error (.vm error)

/-- What the caller sees after the frame: the committed state, or its snapshot. -/
def afterCall (ext : Externals) (kind : CallKind) (parent : Frame) (call : GovernanceCall)
    (value gas : Nat) (block : BlockContext) (depth : Nat) (db : StateDB) : StateDB :=
  match callGovernance ext kind parent call value gas block depth db with
  | .ok committed => committed
  | .error _ => db

end Tangerine.Core.Vm
