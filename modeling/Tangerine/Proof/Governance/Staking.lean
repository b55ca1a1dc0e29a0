import Tangerine.Proof.Governance.Registry

/-! Stake accounting: `TotalStaked` and the pending withdrawals over every run. -/

namespace Tangerine.Proof.Staking

open Tangerine.Common Tangerine.Core Tangerine.Core.Vm Tangerine.Library
  Tangerine.Library.IndexedArray Tangerine.Proof.Accounts Tangerine.Proof.Registry
  Tangerine.Proof.OracleFrames Function

/-- `TotalStaked` is the sum of the registered nodes' stakes. -/
def StakeBalanced (v : AccountsView) : Prop :=
  v.totalStaked = total NodeAccount.staked v.node v.nodesLength

/-- A node with an amount awaiting withdrawal records when it was unstaked. -/
def Dated (n : NodeAccount) : Prop := 0 < n.unstaked → 0 < n.unstakedAt

/-- Every registered node is `Dated`. -/
def UnstakeDated (v : AccountsView) : Prop := Every Dated v.node v.nodesLength

variable {nodeKeyAddress : Bytes → Option Address} {time : Nat} {v v' : AccountsView}

/-! ### The view operations -/

section Operations

variable {index : Nat}

theorem StakeBalanced.push (balanced : StakeBalanced v) (n : NodeAccount) (nodeKey : Address) :
    StakeBalanced (v.push n nodeKey) := by
  unfold StakeBalanced at balanced ⊢
  simp only [AccountsView.push]
  rw [total_push, balanced]

/-- Rewriting a registered node changes the total by the change of its stake. -/
theorem StakeBalanced.write (balanced : StakeBalanced v) (below : index < v.nodesLength)
    (n : NodeAccount) {totalStaked : Nat}
    (moved : totalStaked + (v.node index).staked = v.totalStaked + n.staked) :
    StakeBalanced { v with node := update v.node index n, totalStaked := totalStaked } := by
  unfold StakeBalanced at balanced ⊢
  have updated : total NodeAccount.staked (update v.node index n) v.nodesLength +
      (v.node index).staked = total NodeAccount.staked v.node v.nodesLength + n.staked :=
    total_update NodeAccount.staked below n
  dsimp only
  omega

theorem StakeBalanced.stake (balanced : StakeBalanced v) (below : index < v.nodesLength)
    (amount : Nat) : StakeBalanced (v.stake index amount) := by
  apply balanced.write below
  dsimp only
  omega

theorem StakeBalanced.unstake (balanced : StakeBalanced v) (below : index < v.nodesLength)
    {amount : Nat} (covered : amount ≤ (v.node index).staked) (time : Nat) :
    StakeBalanced (v.unstake index amount time) := by
  -- the total covers the node's stake, so the `Int` subtraction of `DecTotalStaked` stays
  -- non-negative
  have within : (v.node index).staked ≤ v.totalStaked := by
    rw [balanced]
    exact entry_le_total NodeAccount.staked below
  apply balanced.write below
  dsimp only
  omega

theorem StakeBalanced.settle (balanced : StakeBalanced v) (below : index < v.nodesLength) :
    StakeBalanced (v.settle index) :=
  balanced.write below _ rfl

theorem StakeBalanced.rekey (balanced : StakeBalanced v) (below : index < v.nodesLength)
    (owner : Address) (publicKey : Bytes) (oldKey newKey : Address) :
    StakeBalanced (v.rekey index owner publicKey oldKey newKey) :=
  balanced.write below _ rfl

theorem StakeBalanced.remove (balanced : StakeBalanced v) (below : index < v.nodesLength)
    (emptied : (v.node index).staked = 0) (removedKey movedKey : Address) :
    StakeBalanced (v.remove index removedKey movedKey) := by
  unfold StakeBalanced at balanced ⊢
  have removed : total NodeAccount.staked (update (update v.node index
      (v.node (v.nodesLength - 1))) (v.nodesLength - 1) NodeInfo.erased.account)
      (v.nodesLength - 1) + (v.node index).staked = total NodeAccount.staked v.node v.nodesLength :=
    total_swapRemove NodeAccount.staked below NodeInfo.erased.account
  simp only [AccountsView.remove]
  omega

theorem UnstakeDated.push (dated : UnstakeDated v) (n : NodeAccount) (nodeKey : Address)
    (fresh : n.unstaked = 0) : UnstakeDated (v.push n nodeKey) :=
  Every.push dated fun pending => absurd fresh (Nat.pos_iff_ne_zero.mp pending)

/-- A rewrite that keeps the node's pending withdrawal keeps the view dated. -/
theorem UnstakeDated.keep (dated : UnstakeDated v) (below : index < v.nodesLength)
    {n : NodeAccount} (unstaked : n.unstaked = (v.node index).unstaked)
    (unstakedAt : n.unstakedAt = (v.node index).unstakedAt) :
    UnstakeDated { v with node := update v.node index n } := by
  apply Every.write dated
  intro pending
  rw [unstakedAt]
  exact dated index below (unstaked ▸ pending)

theorem UnstakeDated.unstake (dated : UnstakeDated v) (index amount : Nat) (positive : 0 < time) :
    UnstakeDated (v.unstake index amount time) :=
  Every.write dated fun _ => positive

theorem UnstakeDated.settle (dated : UnstakeDated v) (index : Nat) :
    UnstakeDated (v.settle index) :=
  Every.write dated fun pending => absurd pending (Nat.lt_irrefl 0)

theorem UnstakeDated.remove (dated : UnstakeDated v) (index : Nat) (removedKey movedKey : Address) :
    UnstakeDated (v.remove index removedKey movedKey) :=
  Every.swapRemove dated index _

end Operations

/-! ### Steps and runs -/

end Tangerine.Proof.Staking
