import Tangerine.Core.HeaderChain
import Tangerine.Core.Vm.GovernanceDKG

/-! `Dexcon.Finalize` (`consensus/dexcon/dexcon.go`) and the state `ProcessEmptyBlock` writes. -/

namespace Tangerine.Consensus

open Tangerine.Common Tangerine.Core Tangerine.Core.Vm

/-- What `Dexcon` reads through its `GovernanceStateFetcher`. -/
structure DexconExternals where
  vm : Externals
  /-- `DKGSetNodeKeyAddresses`, in map order; `none` for its error. -/
  dkgSetNodeKeyAddresses : Nat → Option (List Address)
  /-- The reward `calculateBlockReward` computes from a round's configuration state. -/
  blockReward : GovernanceState → Nat

namespace Dexcon

variable (ext : DexconExternals)

/-- `Dexcon.inExtendedRound`: the block is past the configured length of its round. -/
def inExtendedRound (header : Header) (gs : GovernanceState) : Except String Bool :=
  match ext.vm.configState header.round with
  | none => .error "config state not found"
  | some rgs =>
    let roundEnd := gs.roundHeight header.round + rgs.roundLength
    -- Round 0 starts at height 0 instead of height 1.
    let roundEnd := if header.round = 0 then roundEnd + 1 else roundEnd
    .ok (decide (roundEnd ≤ header.number))

/-- `Dexcon.calculateBlockReward`. -/
def calculateBlockReward (round : Nat) : Except String Nat :=
  match ext.vm.configState round with
  | none => .error "config state not found"
  | some gs => .ok (ext.blockReward gs)

/-- One iteration of the dead-node loop of `Finalize`; a failed `Disqualify` is only logged. -/
def disqualifyDead (round : Nat) (gcs gs : GovernanceState) (addr : Address) :
    Except String GovernanceState :=
  let offset := gcs.nodesOffsetByNodeKeyAddress addr
  if offset < 0 then .error "invalid notary set found" else
  let node := gcs.node offset.toNat
  let lastHeight := gs.lastProposedHeight node.owner
  let prevRoundHeight := gs.roundHeight (round - 1)
  if lastHeight < prevRoundHeight then
    match gs.disqualify ext.vm.nodeKeyAddress node with
    | .ok disqualified => .ok disqualified
    | .error _ => .ok gs
  else .ok gs

/-- The dead-node check of `Finalize` for a round past `DKGDelayRound`. -/
def disqualifyDeadNodes (round : Nat) (gs : GovernanceState) : Except String GovernanceState :=
  match ext.dkgSetNodeKeyAddresses (round - 1) with
  | none => .error "DKG set not found"
  | some addrs =>
    match ext.vm.configState (round - 1) with
    | none => .error "config state not found"
    | some gcs => addrs.foldlM (disqualifyDead ext round gcs) gs

/-- The start of `Finalize`: the round's height, and the fines of the dead nodes. -/
def recordRoundHeight (header : Header) (gs : GovernanceState) : Except String GovernanceState :=
  let height := gs.roundHeight header.round
  if 0 < header.round ∧ height = 0 then
    let gs := gs.pushRoundHeight header.number
    if DKGDelayRound < header.round then disqualifyDeadNodes ext header.round gs else .ok gs
  else .ok gs

/-- The block reward of `Finalize`: none for an empty block or in an extended round. -/
def blockReward (header : Header) (gs : GovernanceState) : Except String Nat :=
  if header.coinbase ≠ 0 then
    inExtendedRound ext header gs >>= fun extended =>
    if !extended then calculateBlockReward ext header.round else .ok 0
  else .ok 0

/-- The end of `Finalize`: the reward, the halving and the proposer's height. -/
def payReward (header : Header) (reward : Nat) (db : StateDB) : StateDB :=
  let db := db.addBalance header.coinbase reward
  let gs := db.governance.incTotalSupply reward
  let gs := if gs.nextHalvingSupply ≤ gs.totalSupply then gs.miningHalved else gs
  let gs := if header.coinbase ≠ 0 then gs.putLastProposedHeight header.coinbase header.number
    else gs
  db.setGovernance gs

/-- `Dexcon.Finalize`, with the `Reward` it writes into the header. A panic is an error. -/
def finalize (header : Header) (db : StateDB) : Except String (StateDB × Nat) :=
  recordRoundHeight ext header db.governance >>= fun gs =>
  blockReward ext header gs >>= fun reward =>
  .ok (payReward header reward (db.setGovernance gs), reward)

end Dexcon

end Tangerine.Consensus

namespace Tangerine.Core.BlockChain

open Tangerine.Core.Vm Tangerine.Consensus

end Tangerine.Core.BlockChain
