import Tangerine.Dex.App
import Tangerine.Core.HeaderChain
import Tangerine.Core.StateTransition
import Tangerine.Core.Vm.GovernanceDKG

/-! How a proposer fills a block and how every node checks it (`dex/app.go`). -/

namespace Tangerine.Dex

open Tangerine.Common Tangerine.Core Tangerine.Core.Vm Function

/-- A pool transaction: the bookkeeping fields, `To()` (`none` for a creation) and its data. -/
structure PoolTransaction extends Transaction where
  recipient : Option Address
  data : Bytes
  gasFits : gasLimit < 2 ^ 64
  nonceFits : nonce < 2 ^ 64

/-- The state of a block, as the payload rules read it. -/
structure AccountState where
  balance : Address → Nat
  nonce : Address → Nat

/-- `coreTypes.Block`, with the fields `VerifyBlock` reads: its position and its witness. -/
structure ProposedBlock where
  round : Nat
  height : Nat
  witness : Witness
  payload : Bytes

/-- `coreTypes.BlockVerifyStatus`. -/
inductive VerifyStatus where
  | verifyOK
  | verifyInvalidBlock
  | verifyRetryLater
deriving DecidableEq, Repr

/-- What the payload rules take from outside. -/
structure PayloadExternals where
  /-- `tx.AsMessage(signer).From()`, or its error; `GlobalSigCache.Add` fails with it. -/
  sender : PoolTransaction → Except String Address
  /-- `rlp.EncodeToBytes(&allTxs)`. -/
  encodeTransactions : List PoolTransaction → Bytes
  /-- `rlp.DecodeBytes(block.Payload, &transactions)`. -/
  decodeTransactions : Bytes → Except String (List PoolTransaction)
  /-- `rlp.DecodeBytes(block.Witness.Data, &witnessBlockHash)`. -/
  decodeWitnessHash : Bytes → Except String Hash
  /-- `DexconGovernance.RawConfiguration`: the configuration of a round's state. -/
  rawConfiguration : Nat → Except String RawConfig
  /-- `blockchain.CurrentBlock().NumberU64()`. -/
  currentHeight : Nat
  /-- `blockchain.GetBlockByNumber(height).Hash()`, `none` for a nil block. -/
  blockHash : Nat → Option Hash
  /-- `blockchain.StateAt(GetBlockByNumber(height).Root())`, `none` for its error. -/
  stateAt : Nat → Option AccountState

namespace DexconApp

variable (ext : PayloadExternals) (d : DexconApp)

/-- The balance a sender is left with once the confirmed blocks are paid for. -/
def pendingBalance (state : AccountState) (address : Address) : Int :=
  match d.addressCost address with
  | some cost => state.balance address - cost
  | none => state.balance address

/-- The nonce a sender's next transaction must carry. -/
def expectedNonce (state : AccountState) (address : Address) : Nat :=
  match d.addressNonce address with
  | some lastConfirmedNonce => (lastConfirmedNonce + 1) % 2 ^ 64
  | none => state.nonce address

/-- How the loop over one sender's transactions ends. -/
structure SenderScan where
  taken : List PoolTransaction
  gasUsed : Int
  full : Bool

/-- The inner loop of `preparePayload` over one sender's transactions. -/
def takeSender (config : RawConfig) (balance gasUsed : Int) :
    List PoolTransaction → Except String SenderScan
  | [] => .ok ⟨[], gasUsed, false⟩
  | tx :: rest =>
    if tx.price < config.minGasPrice then .ok ⟨[], gasUsed, false⟩ else
    match intrinsicGas tx.data tx.recipient.isNone true with
    | .error err => .error ("calculate intrinsic gas error: " ++ err)
    | .ok intrGas =>
    if tx.gasLimit < intrGas then .ok ⟨[], gasUsed, false⟩ else
    let balance := balance - tx.cost
    if balance < 0 then .ok ⟨[], gasUsed, false⟩ else
    let gasUsed := gasUsed + int64 tx.gasLimit
    if (config.blockGasLimit : Int) < gasUsed then .ok ⟨[], gasUsed, true⟩ else
    (takeSender config balance gasUsed rest).map fun scan => { scan with taken := tx :: scan.taken }

/-- The outer loop of `preparePayload`; the `k`-th sender is visited after the `k + 1`-th check. -/
def takeSenders (state : AccountState) (config : RawConfig) (expired : Nat → Bool) :
    Nat → Int → List (Address × List PoolTransaction) → Except String (List PoolTransaction)
  | _, _, [] => .ok []
  | k, gasUsed, (address, txs) :: rest =>
    if expired (k + 1) then .ok [] else
    let balance := d.pendingBalance state address
    let expectNonce := d.expectedNonce state address
    match txs with
    | [] => takeSenders state config expired (k + 1) gasUsed rest
    | first :: _ =>
      -- the pool may run ahead of the expected nonce while syncing: no transaction is taken
      let startIndex := int64 ((expectNonce + 2 ^ 64 - first.nonce) % 2 ^ 64)
      let scanned := if startIndex < 0 then .ok ⟨[], gasUsed, false⟩
        else takeSender config balance gasUsed (txs.drop startIndex.toNat)
      scanned >>= fun scan =>
      if scan.full then .ok scan.taken else
      (takeSenders state config expired (k + 1) scan.gasUsed rest).map (scan.taken ++ ·)

/-- `preparePayload` over the pool's pending transactions, in some map order. -/
def preparePayload (round height : Nat) (expired : Nat → Bool)
    (pending : List (Address × List PoolTransaction)) : Except String Bytes :=
  if expired 0 then .ok [] else
  if d.deliveredHeight + d.undeliveredNum + 1 ≠ height then .error "expected height" else
  match ext.stateAt d.deliveredHeight with
  | none => .error "get state by root error"
  | some state =>
  ext.rawConfiguration round >>= fun config =>
  (d.takeSenders state config expired 0 0 pending).map ext.encodeTransactions

/-- One iteration of `validateNonce`: each sender's first nonce, and the last one seen. -/
def validateNonceStep (acc : AList (fun _ : Address => Nat) × (Address → Nat))
    (tx : PoolTransaction) : Except String (AList (fun _ : Address => Nat) × (Address → Nat)) :=
  ext.sender tx >>= fun sender =>
  match acc.1.lookup sender with
  | some _ =>
    if (acc.2 sender + 1) % 2 ^ 64 ≠ tx.nonce then .error "address nonce check error" else
    .ok (acc.1, update acc.2 sender tx.nonce)
  | none => .ok (acc.1.insert sender tx.nonce, update acc.2 sender tx.nonce)

/-- `validateNonce`: each sender's nonces follow one another; the first nonce of each. -/
def validateNonce (txs : List PoolTransaction) : Except String (AList fun _ : Address => Nat) :=
  (txs.foldlM (validateNonceStep ext) (∅, fun _ => 0)).map Prod.fst

/-- `validateGasPrice`: no price below the round's minimum; a missing configuration fails. -/
def validateGasPrice (txs : List PoolTransaction) (round : Nat) : Bool :=
  match ext.rawConfiguration round with
  | .error _ => false
  | .ok config => txs.all fun tx => !decide (tx.price < config.minGasPrice)

/-- One iteration of the funds loop of `VerifyBlock`. -/
def verifyTransaction (config : RawConfig) (acc : (Address → Int) × Nat) (tx : PoolTransaction) :
    Except VerifyStatus ((Address → Int) × Nat) :=
  match ext.sender tx with
  | .error _ => .error .verifyInvalidBlock
  | .ok sender =>
  let balance := acc.1 sender
  match intrinsicGas tx.data tx.recipient.isNone true with
  | .error _ => .error .verifyInvalidBlock
  | .ok intrGas =>
  if tx.gasLimit < intrGas then .error .verifyInvalidBlock else
  let balance := balance - tx.cost
  if balance < 0 then .error .verifyInvalidBlock else
  let blockGasUsed := acc.2 + tx.gasLimit
  if config.blockGasLimit < blockGasUsed then .error .verifyInvalidBlock else
  .ok (update acc.1 sender balance, blockGasUsed)

/-- The payload part of `VerifyBlock`, once the witness and the height are checked. -/
def verifyPayload (block : ProposedBlock) : VerifyStatus :=
  if block.payload.length = 0 then .verifyOK else
  match ext.stateAt d.deliveredHeight with
  | none => .verifyInvalidBlock
  | some state =>
  match ext.decodeTransactions block.payload with
  | .error _ => .verifyInvalidBlock
  | .ok transactions =>
  match transactions.mapM ext.sender with
  | .error _ => .verifyInvalidBlock
  | .ok _ =>
  match validateNonce ext transactions with
  | .error _ => .verifyInvalidBlock
  | .ok addressNonce =>
  if !validateGasPrice ext transactions block.round then .verifyInvalidBlock else
  if addressNonce.entries.any fun entry => d.expectedNonce state entry.1 ≠ entry.2 then
    .verifyInvalidBlock else
  let addressesBalance := d.pendingBalance state
  match ext.rawConfiguration block.round with
  | .error _ => .verifyRetryLater
  | .ok config =>
  match transactions.foldlM (verifyTransaction ext config) (addressesBalance, 0) with
  | .error status => status
  | .ok _ => .verifyOK

/-- `VerifyBlock`. -/
def verifyBlock (block : ProposedBlock) : VerifyStatus :=
  match ext.decodeWitnessHash block.witness.data with
  | .error _ => .verifyInvalidBlock
  | .ok witnessBlockHash =>
  if ext.currentHeight < block.witness.height then .verifyRetryLater else
  match ext.blockHash block.witness.height with
  | none => .verifyInvalidBlock
  | some hash =>
  if hash ≠ witnessBlockHash then .verifyInvalidBlock else
  if (ext.stateAt block.witness.height).isNone then .verifyInvalidBlock else
  if d.deliveredHeight + d.undeliveredNum + 1 ≠ block.height then .verifyRetryLater else
  d.verifyPayload ext block

end DexconApp

end Tangerine.Dex
