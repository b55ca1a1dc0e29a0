import Tangerine.Core.Vm.Evm

/-! What a frame can do to the governance contract, by the kind of call that reaches it. -/

namespace Tangerine.Proof.OracleFrames

open Tangerine.Common Tangerine.Core.Vm Function

/-- The amounts awaiting withdrawal, summed over the registered nodes. -/
def totalUnstaked (s : GovernanceState) : Nat :=
  ((List.range s.nodesLength).map fun index => (s.node index).unstaked).sum

/-- The governance account holds every stake and every pending withdrawal. -/
def GovernanceSolvent (db : StateDB) : Prop :=
  (db.governance.totalStaked : Int) + totalUnstaked db.governance ≤
    db.balance GovernanceContractAddress

instance (db : StateDB) : Decidable (GovernanceSolvent db) :=
  inferInstanceAs (Decidable (_ ≤ _))

/-- Externals under which every public key parses, to `key`, and no consensus message decodes. -/
def keyExternals (key : Address) : Externals where
  nodeKeyAddress := fun _ => some key
  keccak256 := fun _ => 0
  decodeMasterPublicKey := fun _ => none
  decodeDKGProgress := fun _ _ => none
  decodeComplaint := fun _ => none
  verifyMasterPublicKeySignature := fun _ => false
  verifyDKGProgressSignature := fun _ _ => false
  verifyComplaintSignature := fun _ => false
  verifyComplaint := fun _ _ => false
  needPenaltyDKGPrivateShare := fun _ _ => none
  forkPenalty := fun _ _ _ => none
  notarySet := fun _ => []
  configNotarySetSize := fun _ => 0
  configState := fun _ => none
  stateAtRound := fun _ => none
  newGroupPublicKey := fun _ _ _ => .otherError

/-- A contract account that owns a node. -/
def nodeOwner : Address := 0x1#160

/-- The node key of that node. -/
def nodeKey : Address := 0x2#160

/-- Another contract, which the node owner calls. -/
def intermediary : Address := 0x3#160

/-- A genesis with one registered node owned by `nodeOwner`, nothing staked. -/
def oneNodeGenesis : StateDB where
  balance := update (fun _ => 0) nodeOwner 1
  governance :=
    { GovernanceState.empty with
      nodes := update GovernanceState.empty.nodes 0
        { NodeInfo.erased with owner := nodeOwner, publicKey := [4] }
      nodesLength := 1
      ownerSlot := update GovernanceState.empty.ownerSlot nodeOwner 1
      nodeKeySlot := update GovernanceState.empty.nodeKeySlot nodeKey 1
      owner := nodeOwner }

/-- A block of round zero. -/
def firstBlock : BlockContext := ⟨0, 1, 1⟩

/-- A `CallCode` frame that stakes one token records the stake but moves no token. -/
theorem callCode_stake_breaks_solvency :
    GovernanceSolvent oneNodeGenesis ∧
      ¬ GovernanceSolvent (afterCall (keyExternals nodeKey) .callCode
        ⟨nodeOwner, nodeOwner, 0⟩ .stake 1 GovernanceActionGasCost firstBlock 1 oneNodeGenesis) := by
  decide

/-- A read-only `StaticCall` frame adds an address to the whitelist. -/
theorem staticCall_addToWhitelist_writes_storage :
    oneNodeGenesis.governance.whitelistLength = 0 ∧
      (afterCall (keyExternals nodeKey) .staticCall ⟨nodeOwner, nodeOwner, 0⟩
        (.addToWhitelist intermediary) 0 GovernanceActionGasCost firstBlock 1
        oneNodeGenesis).governance.whitelistLength = 1 := by
  decide

end Tangerine.Proof.OracleFrames
