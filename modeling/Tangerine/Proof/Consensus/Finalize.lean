import Tangerine.Consensus.Dexcon
import Tangerine.Proof.Governance.Registry
import Tangerine.Library.Transition

/-! What `Dexcon.Finalize` does to the supply and the node records. -/

namespace Tangerine.Proof.Finalize

open Tangerine.Common Tangerine.Core Tangerine.Core.Vm Tangerine.Consensus
  Tangerine.Consensus.Dexcon Tangerine.Library Tangerine.Proof.OracleFrames Tangerine.Proof.Registry

variable {ext : DexconExternals}

/-! ### The fines -/

/-- The node key address of the public key `[6]`. -/
def replacedKey : Address := 0x6#160

/-- Externals that parse the public key `[6]` to `replacedKey` and any other to `nodeKey`. -/
def rekeyingExternals : Externals :=
  { keyExternals nodeKey with
    nodeKeyAddress := fun key => if key = [6] then some replacedKey else some nodeKey }

/-- `smallConfig` with a fail-stop fine of three and rounds of ten blocks. -/
def fineConfig : DexconConfig := { smallConfig with fineValues := [3], roundLength := 10 }

/-- The genesis of `oneStakerAlloc` under `fineConfig`. -/
def failStopGenesis : StateDB :=
  match toBlock rekeyingExternals fineConfig oneStakerAlloc with
  | .ok db => db
  | .error _ => oneNodeGenesis

/-- The configuration state of rounds up to two is the genesis state. -/
def failStopExternals : DexconExternals where
  vm := { rekeyingExternals with configState := fun _ => some failStopGenesis.governance }
  dkgSetNodeKeyAddresses := fun _ => some [nodeKey]
  blockReward := fun _ => 0

/-- An empty block: no proposer, so no coinbase. -/
def emptyBlockOf (round number : Nat) : Header := ⟨0, 0, 1, number, 0, 0, round, [], []⟩

def afterRoundOne : StateDB :=
  match finalize failStopExternals (emptyBlockOf 1 1) failStopGenesis with
  | .ok (db, _) => db
  | .error _ => failStopGenesis

/-- `nodeOwner` replaces its node's public key in block two. -/
def rekeyContext : CallContext := ⟨nodeOwner, 0, GovernanceActionGasCost, 1, 1, 2⟩

def rekeyed : StateDB :=
  match GovernanceContract.run failStopExternals.vm rekeyContext (.replaceNodePublicKey [6])
      afterRoundOne with
  | .ok db => db
  | .error _ => afterRoundOne

def afterRoundTwo : StateDB :=
  match finalize failStopExternals (emptyBlockOf 2 2) rekeyed with
  | .ok (db, _) => db
  | .error _ => rekeyed

/-! ### `Finalize` -/

/-- A dead node whose owner replaced its public key escapes the fail-stop fine. -/
theorem rekeyed_dead_node_escapes_fine :
    toBlock failStopExternals.vm fineConfig oneStakerAlloc = .ok failStopGenesis ∧
      finalize failStopExternals (emptyBlockOf 1 1) failStopGenesis = .ok (afterRoundOne, 0) ∧
      GovernanceContract.run failStopExternals.vm rekeyContext (.replaceNodePublicKey [6])
        afterRoundOne = .ok rekeyed ∧
      finalize failStopExternals (emptyBlockOf 2 2) rekeyed = .ok (afterRoundTwo, 0) ∧
      DKGDelayRound < 2 ∧ afterRoundTwo.governance.roundHeightsLength = 3 ∧
      afterRoundTwo.governance.roundHeight 1 = 1 ∧ afterRoundTwo.governance.roundHeight 2 = 2 ∧
      failStopExternals.dkgSetNodeKeyAddresses 1 = some [nodeKey] ∧
      failStopExternals.vm.configState 1 = some failStopGenesis.governance ∧
      (failStopGenesis.governance.node
        (failStopGenesis.governance.nodesOffsetByNodeKeyAddress nodeKey).toNat).owner = nodeOwner ∧
      (emptyBlockOf 1 1).coinbase ≠ nodeOwner ∧
      afterRoundTwo.governance.fineValue fineTypeFailStop = 3 ∧
      afterRoundTwo.governance.nodesLength = 1 ∧
      (afterRoundTwo.governance.node 0).owner = nodeOwner ∧
      (afterRoundTwo.governance.node 0).fined = 0 :=
  ⟨rfl, rfl, rfl, rfl, by decide, rfl, rfl, rfl, rfl, rfl, rfl, by decide, rfl, rfl, rfl, rfl⟩

end Tangerine.Proof.Finalize
