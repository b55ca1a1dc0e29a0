import Tangerine.Core.Vm.GovernanceState

/-! The governance oracle contract (`GovernanceContract` in `core/vm/oracle_contracts.go`). -/

namespace Tangerine.Core.Vm

open Tangerine.Common Function

/-- `errExecutionReverted`, `ErrOutOfGas`, an error of `GovUtil`, and a Go panic. -/
inductive VmError where
  | executionReverted
  | outOfGas
  | failed (message : String)
  | panic (message : String)
deriving DecidableEq, Repr

/-- What a governance frame reads from its `Contract` and its `EVM`. -/
structure CallContext where
  caller : Address
  value : Nat
  gas : Nat
  round : Nat
  time : Nat
  blockNumber : Nat

/-- A decoded `MasterPublicKey`, `MPKReady`, `Finalize` or `Success`. -/
structure DKGMessage where
  proposerID : NodeID
  round : Nat
  reset : Nat

/-- A decoded DKG `Complaint`: the fields the contract reads. -/
structure DKGComplaint where
  proposerID : NodeID
  round : Nat
  reset : Nat
  privateShareProposerID : NodeID
  isNack : Bool

/-- How `NewGroupPublicKey` ends: a key with its qualified nodes, or one of its errors. -/
inductive GroupPublicKeyOutcome where
  | key (qualifiedNodes : Nat) (verifySignature : Hash → Bytes → Bool)
  | notReachThreshold
  | invalidThreshold
  | otherError

/-- The contract's dependencies outside its own storage, taken as parameters. -/
structure Externals where
  /-- `publicKeyToNodeKeyAddress`: `crypto.UnmarshalPubkey`, then `PubkeyToAddress`. -/
  nodeKeyAddress : Bytes → Option Address
  /-- `crypto.Keccak256Hash` of a byte string. -/
  keccak256 : Bytes → Hash
  /-- `rlp.DecodeBytes` into a `MasterPublicKey`. -/
  decodeMasterPublicKey : Bytes → Option DKGMessage
  /-- `rlp.DecodeBytes` into an `MPKReady`, a `Finalize` or a `Success`. -/
  decodeDKGProgress : DKGFlag → Bytes → Option DKGMessage
  /-- `rlp.DecodeBytes` into a `Complaint`. -/
  decodeComplaint : Bytes → Option DKGComplaint
  /-- `VerifyDKGMasterPublicKeySignature`. -/
  verifyMasterPublicKeySignature : Bytes → Bool
  /-- `VerifyDKGMPKReadySignature`, `VerifyDKGFinalizeSignature`, `VerifyDKGSuccessSignature`. -/
  verifyDKGProgressSignature : DKGFlag → Bytes → Bool
  /-- `VerifyDKGComplaintSignature`. -/
  verifyComplaintSignature : Bytes → Bool
  /-- `VerifyDKGComplaint` against the accused node's master public key, with no error. -/
  verifyComplaint : Bytes → Bytes → Bool
  /-- `NeedPenaltyDKGPrivateShare`; `none` for its error. -/
  needPenaltyDKGPrivateShare : Bytes → Bytes → Option Bool
  /-- `NeedPenaltyForkVote` or `NeedPenaltyForkBlock` on a report's two decoded arguments. -/
  forkPenalty : Nat → Bytes → Bytes → Option NodeID
  /-- `getNotarySet`: the notary set of a round, from its CRS and configuration snapshot. -/
  notarySet : Nat → List NodeID
  /-- `configNotarySetSize`. -/
  configNotarySetSize : Nat → Nat
  /-- `GovUtil.GetConfigState`. -/
  configState : Nat → Option GovernanceState
  /-- `GovUtil.GetStateAtRound`. -/
  stateAtRound : Nat → Option GovernanceState
  /-- `coreDKGUtil.NewGroupPublicKey` on a state, a round and a threshold. -/
  newGroupPublicKey : GovernanceState → Nat → Nat → GroupPublicKeyOutcome

/-- The part of the `vm.StateDB` a governance frame touches. -/
structure StateDB where
  balance : Address → Int
  governance : GovernanceState

/-- `GovernanceContractAddress`. -/
def GovernanceContractAddress : Address := 0x246fcde58581e2754f215a523c0718c4bfc8041f#160

/-- `GovernanceActionGasCost`. -/
def GovernanceActionGasCost : Nat := 200000

namespace StateDB

/-- `core.CanTransfer`. -/
def canTransfer (db : StateDB) (addr : Address) (amount : Nat) : Bool :=
  decide ((amount : Int) ≤ db.balance addr)

/-- `core.Transfer`: `SubBalance` of the sender, then `AddBalance` of the recipient. -/
def transfer (db : StateDB) (sender recipient : Address) (amount : Nat) : StateDB :=
  let db := { db with balance := update db.balance sender (db.balance sender - amount) }
  { db with balance := update db.balance recipient (db.balance recipient + amount) }

def setGovernance (db : StateDB) (s : GovernanceState) : StateDB := { db with governance := s }

/-- `StateDB.AddBalance`. -/
def addBalance (db : StateDB) (addr : Address) (amount : Nat) : StateDB :=
  { db with balance := update db.balance addr (db.balance addr + amount) }

@[simp] theorem setGovernance_governance (db : StateDB) (s : GovernanceState) :
    (db.setGovernance s).governance = s := rfl

end StateDB

/-- `Contract.UseGas` of the action cost, after which the method returns. -/
def useGas (ctx : CallContext) (db : StateDB) : Except VmError StateDB :=
  if ctx.gas < GovernanceActionGasCost then .error .outOfGas else .ok db

theorem useGas_eq_ok {ctx : CallContext} {db db' : StateDB} :
    useGas ctx db = .ok db' ↔ GovernanceActionGasCost ≤ ctx.gas ∧ db' = db := by
  by_cases short : ctx.gas < GovernanceActionGasCost
  · simp [useGas, short]
  · simp [useGas, short, eq_comm, Nat.le_of_not_lt short]

/-- A helper's panic ends the frame. -/
def orPanic {α : Type} : Except String α → Except VmError α
  | .ok value => .ok value
  | .error message => .error (.panic message)

@[simp] theorem orPanic_eq_ok {α : Type} {result : Except String α} {value : α} :
    orPanic result = .ok value ↔ result = .ok value := by
  cases result <;> simp [orPanic]

/-- `GovernanceContract.transfer`: the governance account pays when it can. -/
def transferFrom (db : StateDB) (sender recipient : Address) (amount : Nat) : Option StateDB :=
  if db.canTransfer sender amount then some (db.transfer sender recipient amount) else none

theorem transferFrom_governance {db db' : StateDB} {sender recipient : Address} {amount : Nat}
    (moved : transferFrom db sender recipient amount = some db') : db'.governance = db.governance := by
  unfold transferFrom at moved
  split at moved
  · cases moved
    rfl
  · cases moved

/-- The descriptive fields' length limits of `register` and `updateNodeInfo`. -/
def nodeInfoTooLong (name email location url : String) : Bool :=
  64 ≤ name.utf8ByteSize || 128 ≤ email.utf8ByteSize || 64 ≤ location.utf8ByteSize ||
    128 ≤ url.utf8ByteSize

namespace GovernanceContract

variable (ext : Externals) (ctx : CallContext)

def register (publicKey : Bytes) (name email location url : String) (db : StateDB) :
    Except VmError StateDB :=
  if nodeInfoTooLong name email location url then .error .executionReverted else
  let s := db.governance
  let caller := ctx.caller
  let value := ctx.value
  if 0 ≤ s.nodesOffsetByAddress caller then .error .executionReverted else
  match ext.nodeKeyAddress publicKey with
  | none => .error .executionReverted
  | some nodeKeyAddr =>
  if 0 ≤ s.nodesOffsetByNodeKeyAddress nodeKeyAddr then .error .executionReverted else
  let offset := s.lenNodes
  let node : NodeInfo :=
    { owner := caller, publicKey := publicKey, staked := value, fined := 0, name := name,
      email := email, location := location, url := url, unstaked := 0, unstakedAt := 0 }
  do
  let s ← orPanic ((s.pushNode node).putNodeOffsets ext.nodeKeyAddress node offset)
  let s := s.addLog (.nodeAdded caller)
  let s := if 0 < value then (s.incTotalStaked value).addLog (.staked caller value) else s
  useGas ctx (db.setGovernance s)

def stake (db : StateDB) : Except VmError StateDB :=
  let s := db.governance
  let caller := ctx.caller
  let value := ctx.value
  if value = 0 then .error .executionReverted else
  let offset := s.nodesOffsetByAddress caller
  if offset < 0 then .error .executionReverted else
  let node := s.node offset.toNat
  if 0 < node.fined then .error .executionReverted else
  let node := { node with staked := node.staked + value }
  let s := ((s.updateNode offset.toNat node).incTotalStaked value).addLog (.staked caller value)
  useGas ctx (db.setGovernance s)

def unstake (amount : Nat) (db : StateDB) : Except VmError StateDB :=
  let s := db.governance
  if 0 < ctx.value then .error .executionReverted else
  let caller := ctx.caller
  let offset := s.nodesOffsetByAddress caller
  if offset < 0 then .error .executionReverted else
  let node := s.node offset.toNat
  if 0 < node.fined then .error .executionReverted else
  if 0 < node.unstaked then .error .executionReverted else
  if node.staked < amount then .error .executionReverted else
  let node := { node with staked := node.staked - amount, unstaked := amount, unstakedAt := ctx.time }
  let s := ((s.updateNode offset.toNat node).decTotalStaked amount).addLog (.unstaked caller amount)
  useGas ctx (db.setGovernance s)

def updateNodeInfo (name email location url : String) (db : StateDB) : Except VmError StateDB :=
  let s := db.governance
  if 0 < ctx.value then .error .executionReverted else
  let offset := s.nodesOffsetByAddress ctx.caller
  if offset < 0 then .error .executionReverted else
  if nodeInfoTooLong name email location url then .error .executionReverted else
  let s := s.updateNodeInfo offset.toNat
    { NodeInfo.erased with name := name, email := email, location := location, url := url }
  useGas ctx (db.setGovernance s)

def withdrawable (s : GovernanceState) : Bool :=
  let offset := s.nodesOffsetByAddress ctx.caller
  if offset < 0 then false else
  let node := s.node offset.toNat
  if 0 < node.fined then false else
  if node.unstakedAt = 0 then false else
  let unlockTime := node.unstakedAt + s.lockupPeriod
  decide (unlockTime < ctx.time)

/-- A node left with nothing staked is deleted: the last node moves into its slot. -/
def withdraw (db : StateDB) : Except VmError StateDB :=
  let s := db.governance
  if 0 < ctx.value then .error .executionReverted else
  if !withdrawable ctx s then .error .executionReverted else
  let caller := ctx.caller
  let offset := s.nodesOffsetByAddress caller
  if offset < 0 then .error .executionReverted else
  let node := s.node offset.toNat
  let amount := node.unstaked
  let node := { node with unstaked := 0, unstakedAt := 0 }
  let s := s.updateNode offset.toNat node
  do
  let s ← if node.staked = 0 then do
      let length := s.lenNodes
      let lastIndex : Int := length - 1
      let s ← if offset ≠ lastIndex then do
          let lastNode := s.node lastIndex.toNat
          let s := s.updateNode offset.toNat lastNode
          orPanic (s.putNodeOffsets ext.nodeKeyAddress lastNode offset.toNat)
        else pure s
      let s ← orPanic (s.deleteNodeOffsets ext.nodeKeyAddress node)
      pure (s.popLastNode.addLog (.nodeRemoved caller))
    else pure s
  match transferFrom (db.setGovernance s) GovernanceContractAddress node.owner amount with
  | none => .error .executionReverted
  | some db => useGas ctx (db.setGovernance (db.governance.addLog (.withdrawn caller amount)))

/-- The fine is paid to the governance owner out of the value the frame carries. -/
def payFine (nodeAddr : Address) (db : StateDB) : Except VmError StateDB :=
  let s := db.governance
  let nodeOffset := s.nodesOffsetByAddress nodeAddr
  if nodeOffset < 0 then .error .executionReverted else
  let node := s.node nodeOffset.toNat
  if node.fined ≤ 0 ∨ node.fined < ctx.value then .error .executionReverted else
  let node := { node with fined := node.fined - ctx.value }
  let s := s.updateNode nodeOffset.toNat node
  match transferFrom (db.setGovernance s) GovernanceContractAddress s.owner ctx.value with
  | none => .error .executionReverted
  | some db =>
      useGas ctx (db.setGovernance (db.governance.addLog (.finePaid nodeAddr ctx.value)))

def transferOwnership (newOwner : Address) (db : StateDB) : Except VmError StateDB :=
  let s := db.governance
  if 0 < ctx.value then .error .executionReverted else
  if ctx.caller ≠ s.owner then .error .executionReverted else
  if newOwner = 0 then .error .executionReverted else
  .ok (db.setGovernance (s.setOwner newOwner))

/-- The common end of the two ownership transfers. -/
def moveNodeOwnership (offset : Nat) (oldOwner newOwner : Address) (db : StateDB) :
    Except VmError StateDB := do
  let s := db.governance
  let node := s.node offset
  let s ← orPanic (s.deleteNodeOffsets ext.nodeKeyAddress node)
  let node := { node with owner := newOwner }
  let s ← orPanic (s.putNodeOffsets ext.nodeKeyAddress node offset)
  let s := (s.updateNode offset node).addLog (.nodeOwnershipTransfered oldOwner newOwner)
  pure (db.setGovernance s)

def transferNodeOwnership (newOwner : Address) (db : StateDB) : Except VmError StateDB :=
  let s := db.governance
  if 0 < ctx.value then .error .executionReverted else
  if newOwner = 0 then .error .executionReverted else
  let caller := ctx.caller
  let offset := s.nodesOffsetByAddress caller
  if offset < 0 then .error .executionReverted else
  if 0 ≤ s.nodesOffsetByAddress newOwner then .error .executionReverted else
  moveNodeOwnership ext offset.toNat caller newOwner db

def transferNodeOwnershipByFoundation (oldOwner newOwner : Address) (db : StateDB) :
    Except VmError StateDB :=
  let s := db.governance
  if 0 < ctx.value then .error .executionReverted else
  if ctx.caller ≠ s.owner then .error .executionReverted else
  if newOwner = 0 then .error .executionReverted else
  let offset := s.nodesOffsetByAddress oldOwner
  if offset < 0 then .error .executionReverted else
  if 0 ≤ s.nodesOffsetByAddress newOwner then .error .executionReverted else
  moveNodeOwnership ext offset.toNat oldOwner newOwner db

def replaceNodePublicKey (newPublicKey : Bytes) (db : StateDB) : Except VmError StateDB :=
  let s := db.governance
  if 0 < ctx.value then .error .executionReverted else
  let caller := ctx.caller
  let offset := s.nodesOffsetByAddress caller
  if offset < 0 then .error .executionReverted else
  match ext.nodeKeyAddress newPublicKey with
  | none => .error .executionReverted
  | some newNodeKeyAddr =>
  if 0 ≤ s.nodesOffsetByNodeKeyAddress newNodeKeyAddr then .error .executionReverted else
  let node := s.node offset.toNat
  do
  let s ← orPanic (s.deleteNodeOffsets ext.nodeKeyAddress node)
  let node := { node with publicKey := newPublicKey }
  let s ← orPanic (s.putNodeOffsets ext.nodeKeyAddress node offset.toNat)
  let s := (s.updateNode offset.toNat node).addLog (.nodePublicKeyReplaced caller newPublicKey)
  pure (db.setGovernance s)

def addToWhitelist (addr : Address) (db : StateDB) : Except VmError (Int × StateDB) :=
  let s := db.governance
  if 0 < ctx.value then .error .executionReverted else
  if ctx.caller ≠ s.owner then .error .executionReverted else
  let (offset, s) := s.addToWhitelist addr
  .ok (offset, db.setGovernance s)

def removeFromWhitelist (addr : Address) (db : StateDB) : Except VmError (Int × StateDB) :=
  let s := db.governance
  if 0 < ctx.value then .error .executionReverted else
  if ctx.caller ≠ s.owner then .error .executionReverted else
  let (offset, s) := s.deleteAddressWhitelist addr
  .ok (offset, db.setGovernance s)

end GovernanceContract

end Tangerine.Core.Vm
