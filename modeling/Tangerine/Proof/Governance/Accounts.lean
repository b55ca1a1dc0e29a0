import Tangerine.Core.Vm.Evm
import Tangerine.Core.Genesis
import Tangerine.Library.Transition

/-! What the node registry and the stake accounting read of the governance storage. -/

namespace Tangerine.Proof.Accounts

open Tangerine.Common Tangerine.Core Tangerine.Core.Vm Tangerine.Library Function

/-- A node's fields that the registry and the stake accounting read. -/
structure NodeAccount where
  owner : Address
  publicKey : Bytes
  staked : Nat
  unstaked : Nat
  unstakedAt : Nat

/-- The registry and stake accounting part of the governance storage. -/
structure AccountsView where
  nodesLength : Nat
  ownerSlot : Address → Nat
  nodeKeySlot : Address → Nat
  totalStaked : Nat
  node : Nat → NodeAccount

end Tangerine.Proof.Accounts

namespace Tangerine.Core.Vm

open Tangerine.Proof.Accounts

def NodeInfo.account (n : NodeInfo) : NodeAccount :=
  ⟨n.owner, n.publicKey, n.staked, n.unstaked, n.unstakedAt⟩

def GovernanceState.accounts (s : GovernanceState) : AccountsView :=
  ⟨s.nodesLength, s.ownerSlot, s.nodeKeySlot, s.totalStaked, fun index => (s.nodes index).account⟩

end Tangerine.Core.Vm

namespace Tangerine.Proof.Accounts

open Tangerine.Common Tangerine.Core Tangerine.Core.Vm Tangerine.Library Function

section Projections

variable (n : NodeInfo)

@[simp] theorem account_owner : n.account.owner = n.owner := rfl

@[simp] theorem account_publicKey : n.account.publicKey = n.publicKey := rfl

@[simp] theorem account_staked : n.account.staked = n.staked := rfl

@[simp] theorem account_unstaked : n.account.unstaked = n.unstaked := rfl

@[simp] theorem account_unstakedAt : n.account.unstakedAt = n.unstakedAt := rfl

end Projections

section Primitives

variable (s : GovernanceState)

@[simp] theorem accounts_addLog (event : GovernanceEvent) :
    (s.addLog event).accounts = s.accounts := rfl

@[simp] theorem accounts_setCRS (crs : Hash) : (s.setCRS crs).accounts = s.accounts := rfl

@[simp] theorem accounts_setCRSRound (round : Nat) :
    (s.setCRSRound round).accounts = s.accounts := rfl

@[simp] theorem accounts_setDKGRound (round : Nat) :
    (s.setDKGRound round).accounts = s.accounts := rfl

@[simp] theorem accounts_incDKGResetCount (round : Nat) :
    (s.incDKGResetCount round).accounts = s.accounts := rfl

@[simp] theorem accounts_pushDKGMasterPublicKey (mpk : Bytes) :
    (s.pushDKGMasterPublicKey mpk).accounts = s.accounts := rfl

@[simp] theorem accounts_clearDKGMasterPublicKeys :
    s.clearDKGMasterPublicKeys.accounts = s.accounts := rfl

@[simp] theorem accounts_putDKGMasterPublicKeyOffset (id : Hash) (offset : Int) :
    (s.putDKGMasterPublicKeyOffset id offset).accounts = s.accounts := rfl

@[simp] theorem accounts_pushDKGComplaint (complaint : Bytes) :
    (s.pushDKGComplaint complaint).accounts = s.accounts := rfl

@[simp] theorem accounts_clearDKGComplaints : s.clearDKGComplaints.accounts = s.accounts := rfl

@[simp] theorem accounts_putDKGComplaintProposed (id : Hash) (status : Bool) :
    (s.putDKGComplaintProposed id status).accounts = s.accounts := rfl

@[simp] theorem accounts_putDKGFlag (flag : DKGFlag) (addr : Address) (value : Bool) :
    (s.putDKGFlag flag addr value).accounts = s.accounts := rfl

@[simp] theorem accounts_incDKGFlagsCount (flag : DKGFlag) :
    (s.incDKGFlagsCount flag).accounts = s.accounts := rfl

@[simp] theorem accounts_resetDKGFlagsCount (flag : DKGFlag) :
    (s.resetDKGFlagsCount flag).accounts = s.accounts := rfl

@[simp] theorem accounts_setOwner (newOwner : Address) :
    (s.setOwner newOwner).accounts = s.accounts := rfl

@[simp] theorem accounts_setFineRecords (recordHash : Hash) (status : Bool) :
    (s.setFineRecords recordHash status).accounts = s.accounts := rfl

@[simp] theorem accounts_updateConfigurationRaw (cfg : RawConfig) :
    (s.updateConfigurationRaw cfg).accounts = s.accounts := rfl

@[simp] theorem accounts_putLastProposedHeight (addr : Address) (height : Nat) :
    (s.putLastProposedHeight addr height).accounts = s.accounts := rfl

@[simp] theorem accounts_pushRoundHeight (height : Nat) :
    (s.pushRoundHeight height).accounts = s.accounts := rfl

@[simp] theorem accounts_incTotalSupply (amount : Nat) :
    (s.incTotalSupply amount).accounts = s.accounts := rfl

@[simp] theorem accounts_addToWhitelist (addr : Address) :
    (s.addToWhitelist addr).2.accounts = s.accounts := by
  unfold GovernanceState.addToWhitelist
  dsimp only
  split <;> rfl

@[simp] theorem accounts_deleteAddressWhitelist (addr : Address) :
    (s.deleteAddressWhitelist addr).2.accounts = s.accounts := by
  unfold GovernanceState.deleteAddressWhitelist
  dsimp only
  split
  · rfl
  · split <;> rfl

theorem accounts_clearDKGFlags (flag : DKGFlag) (notarySet : List NodeID) :
    (s.clearDKGFlags flag notarySet).accounts = s.accounts := by
  induction notarySet generalizing s with
  | nil => rfl
  | cons id rest inductionHypothesis =>
      simp only [GovernanceState.clearDKGFlags, List.foldl_cons] at inductionHypothesis ⊢
      rw [inductionHypothesis]
      rfl

@[simp] theorem accounts_nodesLength : s.accounts.nodesLength = s.nodesLength := rfl

@[simp] theorem accounts_ownerSlot : s.accounts.ownerSlot = s.ownerSlot := rfl

@[simp] theorem accounts_nodeKeySlot : s.accounts.nodeKeySlot = s.nodeKeySlot := rfl

@[simp] theorem accounts_totalStaked : s.accounts.totalStaked = s.totalStaked := rfl

@[simp] theorem accounts_node_apply (index : Nat) : s.accounts.node index = (s.node index).account :=
  rfl

@[simp] theorem accounts_updateNode (index : Nat) (n : NodeInfo) :
    (s.updateNode index n).accounts =
      { s.accounts with node := update s.accounts.node index n.account } := by
  simp only [GovernanceState.accounts, GovernanceState.updateNode,
    GovernanceState.calNotarySetSize_eq, AccountsView.mk.injEq, true_and]
  funext position
  by_cases here : position = index
  · subst here
    simp
  · simp [here]

/-- A write that keeps the node's account, such as a fine, keeps the view. -/
theorem accounts_updateNode_same {index : Nat} {n : NodeInfo}
    (same : n.account = (s.node index).account) : (s.updateNode index n).accounts = s.accounts := by
  rw [accounts_updateNode]
  have unchanged : update s.accounts.node index n.account = s.accounts.node := by
    rw [same]
    exact update_eq_self index s.accounts.node
  rw [unchanged]

@[simp] theorem accounts_calNotarySetSize : s.calNotarySetSize.accounts = s.accounts := rfl

/-- `UpdateNodeInfo` rewrites only the descriptive strings, which no account reads. -/
theorem accounts_updateNodeInfo (index : Nat) (n : NodeInfo) :
    (s.updateNodeInfo index n).accounts = s.accounts :=
  @accounts_updateNode_same s index
    { s.node index with name := n.name, email := n.email, location := n.location, url := n.url } rfl

@[simp] theorem accounts_pushNode (n : NodeInfo) :
    (s.pushNode n).accounts = { s.accounts with
      nodesLength := s.accounts.nodesLength + 1,
      node := update s.accounts.node s.accounts.nodesLength n.account } := by
  simp only [GovernanceState.pushNode, accounts_updateNode]
  rfl

@[simp] theorem accounts_popLastNode :
    s.popLastNode.accounts = { s.accounts with
      nodesLength := ((s.accounts.nodesLength : Int) - 1).natAbs,
      node := update s.accounts.node (s.accounts.nodesLength - 1) NodeInfo.erased.account } := by
  simp only [GovernanceState.popLastNode, GovernanceState.eraseNode, accounts_updateNode]
  rfl

@[simp] theorem accounts_putNodesOffsetByAddress (addr : Address) (offset : Nat) :
    (s.putNodesOffsetByAddress addr offset).accounts =
      { s.accounts with ownerSlot := update s.accounts.ownerSlot addr (offset + 1) } := rfl

@[simp] theorem accounts_deleteNodesOffsetByAddress (addr : Address) :
    (s.deleteNodesOffsetByAddress addr).accounts =
      { s.accounts with ownerSlot := update s.accounts.ownerSlot addr 0 } := rfl

@[simp] theorem accounts_putNodesOffsetByNodeKeyAddress (addr : Address) (offset : Nat) :
    (s.putNodesOffsetByNodeKeyAddress addr offset).accounts =
      { s.accounts with nodeKeySlot := update s.accounts.nodeKeySlot addr (offset + 1) } := rfl

@[simp] theorem accounts_deleteNodesOffsetByNodeKeyAddress (addr : Address) :
    (s.deleteNodesOffsetByNodeKeyAddress addr).accounts =
      { s.accounts with nodeKeySlot := update s.accounts.nodeKeySlot addr 0 } := rfl

@[simp] theorem accounts_incTotalStaked (amount : Nat) :
    (s.incTotalStaked amount).accounts =
      { s.accounts with totalStaked := s.accounts.totalStaked + amount } := rfl

@[simp] theorem accounts_decTotalStaked (amount : Nat) :
    (s.decTotalStaked amount).accounts =
      { s.accounts with totalStaked := ((s.accounts.totalStaked : Int) - amount).natAbs } := rfl

end Primitives

/-! ### What a call can do to the view -/

namespace AccountsView

variable (v : AccountsView)

/-- `register`: the node is appended and indexed under its owner and its node key. -/
def push (n : NodeAccount) (nodeKey : Address) : AccountsView where
  nodesLength := v.nodesLength + 1
  ownerSlot := update v.ownerSlot n.owner (v.nodesLength + 1)
  nodeKeySlot := update v.nodeKeySlot nodeKey (v.nodesLength + 1)
  totalStaked := v.totalStaked + n.staked
  node := update v.node v.nodesLength n

/-- `stake`. -/
def stake (index amount : Nat) : AccountsView :=
  { v with
    node := update v.node index { v.node index with staked := (v.node index).staked + amount }
    totalStaked := v.totalStaked + amount }

/-- `unstake`, at block time `time`. -/
def unstake (index amount time : Nat) : AccountsView :=
  { v with
    node := update v.node index
      { v.node index with
        staked := (v.node index).staked - amount, unstaked := amount, unstakedAt := time }
    totalStaked := ((v.totalStaked : Int) - amount).natAbs }

/-- `withdraw` of a node that keeps a stake. -/
def settle (index : Nat) : AccountsView :=
  { v with node := update v.node index { v.node index with unstaked := 0, unstakedAt := 0 } }

/-- `withdraw` of a node with nothing staked: the last node moves into its slot. -/
def remove (index : Nat) (removedKey movedKey : Address) : AccountsView where
  nodesLength := v.nodesLength - 1
  ownerSlot :=
    update (update v.ownerSlot (v.node (v.nodesLength - 1)).owner (index + 1)) (v.node index).owner 0
  nodeKeySlot := update (update v.nodeKeySlot movedKey (index + 1)) removedKey 0
  totalStaked := v.totalStaked
  node := update (update v.node index (v.node (v.nodesLength - 1))) (v.nodesLength - 1)
    NodeInfo.erased.account

/-- The ownership transfers and `replaceNodePublicKey`: both keys of the node rewritten. -/
def rekey (index : Nat) (owner : Address) (publicKey : Bytes) (oldKey newKey : Address) :
    AccountsView :=
  { v with
    ownerSlot := update (update v.ownerSlot (v.node index).owner 0) owner (index + 1)
    nodeKeySlot := update (update v.nodeKeySlot oldKey 0) newKey (index + 1)
    node := update v.node index { v.node index with owner := owner, publicKey := publicKey } }

end AccountsView

/-- The effect of one successful governance call with block time `time` on the view. -/
inductive AccountsStep (nodeKeyAddress : Bytes → Option Address) (time : Nat) :
    AccountsView → AccountsView → Prop
  | keep (v : AccountsView) : AccountsStep nodeKeyAddress time v v
  | register (v : AccountsView) (owner : Address) (publicKey : Bytes) (staked : Nat)
      (nodeKey : Address) (parsed : nodeKeyAddress publicKey = some nodeKey)
      (ownerFresh : v.ownerSlot owner = 0) (keyFresh : v.nodeKeySlot nodeKey = 0) :
      AccountsStep nodeKeyAddress time v (v.push ⟨owner, publicKey, staked, 0, 0⟩ nodeKey)
  | stake (v : AccountsView) (owner : Address) (index amount : Nat)
      (registered : v.ownerSlot owner = index + 1) :
      AccountsStep nodeKeyAddress time v (v.stake index amount)
  | unstake (v : AccountsView) (owner : Address) (index amount : Nat)
      (registered : v.ownerSlot owner = index + 1) (covered : amount ≤ (v.node index).staked) :
      AccountsStep nodeKeyAddress time v (v.unstake index amount time)
  | settle (v : AccountsView) (owner : Address) (index : Nat)
      (registered : v.ownerSlot owner = index + 1) :
      AccountsStep nodeKeyAddress time v (v.settle index)
  | remove (v : AccountsView) (owner : Address) (index : Nat) (removedKey movedKey : Address)
      (registered : v.ownerSlot owner = index + 1) (emptied : (v.node index).staked = 0)
      (removedParsed : nodeKeyAddress (v.node index).publicKey = some removedKey)
      (movedParsed : nodeKeyAddress (v.node (v.nodesLength - 1)).publicKey = some movedKey) :
      AccountsStep nodeKeyAddress time v (v.remove index removedKey movedKey)
  | rekey (v : AccountsView) (holder : Address) (index : Nat) (owner : Address)
      (publicKey : Bytes) (oldKey newKey : Address) (registered : v.ownerSlot holder = index + 1)
      (oldParsed : nodeKeyAddress (v.node index).publicKey = some oldKey)
      (newParsed : nodeKeyAddress publicKey = some newKey)
      (ownerFresh : v.ownerSlot owner = 0 ∨ owner = (v.node index).owner)
      (keyFresh : v.nodeKeySlot newKey = 0 ∨ newKey = oldKey) :
      AccountsStep nodeKeyAddress time v (v.rekey index owner publicKey oldKey newKey)

end Tangerine.Proof.Accounts
