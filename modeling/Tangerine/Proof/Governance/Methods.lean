import Tangerine.Proof.Governance.Accounts

/-! What each governance method does to the accounts view: every call is one `AccountsStep`. -/

namespace Tangerine.Proof.Accounts

open Tangerine.Common Tangerine.Core Tangerine.Core.Vm Tangerine.Library Function

section Offsets

variable {s : GovernanceState} {addr : Address}

theorem ownerSlot_of_offset (found : ¬s.nodesOffsetByAddress addr < 0) :
    s.ownerSlot addr = (s.nodesOffsetByAddress addr).toNat + 1 := by
  unfold GovernanceState.nodesOffsetByAddress at found ⊢
  omega

theorem ownerSlot_of_no_offset (absent : ¬0 ≤ s.nodesOffsetByAddress addr) : s.ownerSlot addr = 0 := by
  unfold GovernanceState.nodesOffsetByAddress at absent
  omega

theorem nodeKeySlot_of_no_offset (absent : ¬0 ≤ s.nodesOffsetByNodeKeyAddress addr) :
    s.nodeKeySlot addr = 0 := by
  unfold GovernanceState.nodesOffsetByNodeKeyAddress at absent
  omega

end Offsets

/-- Appending a node and writing its offsets, as `register` and the genesis `Register` do. -/
theorem pushNode_putNodeOffsets_accounts {s s' : GovernanceState}
    {nodeKeyAddress : Bytes → Option Address} {n : NodeInfo}
    (put : (s.pushNode n).putNodeOffsets nodeKeyAddress n s.lenNodes = .ok s') :
    ∃ nodeKey, nodeKeyAddress n.publicKey = some nodeKey ∧
      (s'.incTotalStaked n.staked).accounts = s.accounts.push n.account nodeKey := by
  obtain ⟨nodeKey, parsed, rfl⟩ := (GovernanceState.putNodeOffsets_eq_ok _).mp put
  refine ⟨nodeKey, parsed, ?_⟩
  simp [AccountsView.push, GovernanceState.lenNodes]

/-- The genesis `Register`: the node is appended, with no check that its keys are fresh. -/
theorem register_state_accounts {s s' : GovernanceState} {nodeKeyAddress : Bytes → Option Address}
    {addr : Address} {publicKey : Bytes} {name email location url : String} {staked : Nat}
    (registered : s.register nodeKeyAddress addr publicKey name email location url staked = .ok s') :
    ∃ nodeKey, nodeKeyAddress publicKey = some nodeKey ∧
      s'.accounts = s.accounts.push ⟨addr, publicKey, staked, 0, 0⟩ nodeKey := by
  obtain ⟨pushed, put, rest⟩ := except_bind_eq_ok.mp registered
  obtain ⟨nodeKey, parsed, moved⟩ := pushNode_putNodeOffsets_accounts put
  refine ⟨nodeKey, parsed, ?_⟩
  by_cases none : staked = 0
  · subst none
    simp only [if_true] at rest
    rw [← Except.ok.inj rest]
    exact moved
  · simp only [none, if_false] at rest
    rw [← Except.ok.inj rest]
    exact moved

section Helpers

variable {ext : Externals} {ctx : CallContext}

/-- What no `PutDKGMasterPublicKeyOffset` changes, clearing the offsets keeps. -/
theorem clearDKGMasterPublicKeyOffset_preserves {View : Type} (view : GovernanceState → View)
    (kept : ∀ state id offset, view (state.putDKGMasterPublicKeyOffset id offset) = view state)
    {s s' : GovernanceState} (cleared : s.clearDKGMasterPublicKeyOffset ext = .ok s') :
    view s' = view s := by
  unfold GovernanceState.clearDKGMasterPublicKeyOffset at cleared
  apply foldlM_preserves view _ _ cleared
  intro state mpk next stepped
  split at stepped
  · cases stepped
  · cases stepped
    exact kept _ _ _

/-- What no `PutDKGComplaintProposed` changes, clearing the proposed marks keeps. -/
theorem clearDKGComplaintProposed_preserves {View : Type} (view : GovernanceState → View)
    (kept : ∀ state id status, view (state.putDKGComplaintProposed id status) = view state)
    {s s' : GovernanceState} (cleared : s.clearDKGComplaintProposed ext = .ok s') :
    view s' = view s := by
  unfold GovernanceState.clearDKGComplaintProposed at cleared
  apply foldlM_preserves view _ _ cleared
  intro state complaint next stepped
  split at stepped
  · cases stepped
  · cases stepped
    exact kept _ _ _

theorem accounts_clearDKGMasterPublicKeyOffset {s s' : GovernanceState}
    (cleared : s.clearDKGMasterPublicKeyOffset ext = .ok s') : s'.accounts = s.accounts :=
  clearDKGMasterPublicKeyOffset_preserves GovernanceState.accounts (fun _ _ _ => rfl) cleared

theorem accounts_clearDKGComplaintProposed {s s' : GovernanceState}
    (cleared : s.clearDKGComplaintProposed ext = .ok s') : s'.accounts = s.accounts :=
  clearDKGComplaintProposed_preserves GovernanceState.accounts (fun _ _ _ => rfl) cleared

theorem clearDKG_accounts {s s' : GovernanceState} (cleared : GovernanceContract.clearDKG ext s = .ok s') :
    s'.accounts = s.accounts := by
  simp only [GovernanceContract.clearDKG, except_bind_eq_ok, orPanic_eq_ok] at cleared
  obtain ⟨offsetsCleared, offsets, proposedCleared, proposed, done⟩ := cleared
  rw [← Except.ok.inj done]
  simp [GovernanceState.clearDKGMPKReadys, GovernanceState.clearDKGFinalizeds,
    GovernanceState.clearDKGSuccesses, GovernanceState.resetDKGMPKReadysCount,
    GovernanceState.resetDKGFinalizedsCount, GovernanceState.resetDKGSuccessesCount,
    accounts_clearDKGFlags, accounts_clearDKGComplaintProposed proposed,
    accounts_clearDKGMasterPublicKeyOffset offsets]

theorem advanceDKGRound_accounts {round nextRound : Nat} {s s' : GovernanceState}
    (advanced : GovernanceContract.advanceDKGRound ext round nextRound s = .ok s') :
    s'.accounts = s.accounts := by
  unfold GovernanceContract.advanceDKGRound at advanced
  split at advanced
  · obtain ⟨cleared, clearedOk, done⟩ := except_bind_eq_ok.mp advanced
    rw [← Except.ok.inj done, accounts_setDKGRound, clearDKG_accounts clearedOk]
  · rw [← Except.ok.inj advanced]

theorem fine_accounts {nodeAddr : Address} {amount : Nat} {payloads : List Bytes}
    {s s' : GovernanceState} (fined : GovernanceContract.fine ext nodeAddr amount payloads s = .ok s') :
    s'.accounts = s.accounts := by
  simp only [GovernanceContract.fine, except_ite_error_eq_ok] at fined
  obtain ⟨-, -, fined⟩ := fined
  rw [← Except.ok.inj fined, accounts_addLog, accounts_updateNode_same, accounts_setFineRecords]
  rfl

theorem accounts_fineFailStopNode (s : GovernanceState) (id : NodeID) :
    (GovernanceContract.fineFailStopNode s id).accounts = s.accounts := by
  unfold GovernanceContract.fineFailStopNode
  dsimp only
  split
  · rfl
  · rw [accounts_addLog, accounts_updateNode_same]
    rfl

theorem fineFailStopDKG_accounts {threshold : Nat} {s s' : GovernanceState}
    (fined : GovernanceContract.fineFailStopDKG ext threshold s = .ok s') :
    s'.accounts = s.accounts := by
  obtain ⟨nodes, -, done⟩ := except_bind_eq_ok.mp fined
  rw [← Except.ok.inj done]
  exact foldl_preserves GovernanceState.accounts accounts_fineFailStopNode nodes s

theorem addDKGProgress_accounts {flag : DKGFlag} {message : Bytes} {s s' : GovernanceState}
    (added : GovernanceContract.addDKGProgress ext ctx flag message s = .ok s') :
    s'.accounts = s.accounts := by
  unfold GovernanceContract.addDKGProgress at added
  split at added
  · cases added
  simp only [except_ite_error_eq_ok] at added
  obtain ⟨-, -, -, -, added⟩ := added
  split at added
  · rw [← Except.ok.inj added]
    rfl
  · rw [← Except.ok.inj added]

theorem accounts_updateConfiguration (s : GovernanceState) (cfg : DexconConfig) :
    (s.updateConfiguration cfg).accounts = s.accounts := by
  unfold GovernanceState.updateConfiguration
  dsimp only
  rw [accounts_calNotarySetSize]
  split
  · rw [foldl_preserves GovernanceState.accounts (fun state addr => accounts_addToWhitelist state addr)]
    rfl
  · rfl

/-- `setWhitelist` keeps whatever `AddToWhitelist` and the consortium flag keep. -/
theorem setWhitelist_keeps {View : Type} (view : GovernanceState → View)
    (whitelisted : ∀ s addr, view (s.addToWhitelist addr).2 = view s)
    (consortium : ∀ s : GovernanceState, view { s with isConsortium := true } = view s)
    {nodeKeyAddress : Bytes → Option Address} {isConsortium : Bool} {s s' : GovernanceState}
    (enabled : s.setWhitelist nodeKeyAddress isConsortium = .ok s') : view s' = view s := by
  unfold GovernanceState.setWhitelist at enabled
  split at enabled
  · rw [← Except.ok.inj enabled]
  · rw [foldlM_preserves view _ _ enabled, consortium]
    intro state index next stepped
    split at stepped
    · cases stepped
    · rw [← Except.ok.inj stepped, whitelisted]

theorem setWhitelist_accounts {isConsortium : Bool} {s s' : GovernanceState}
    (enabled : s.setWhitelist ext.nodeKeyAddress isConsortium = .ok s') : s'.accounts = s.accounts :=
  setWhitelist_keeps GovernanceState.accounts accounts_addToWhitelist (fun _ => rfl) enabled

theorem initializeState_accounts {config : DexconConfig} {totalSupply : Int} {s s' : GovernanceState}
    (initialized : s.initializeState ext config totalSupply = .ok s') : s'.accounts = s.accounts := by
  simp only [GovernanceState.initializeState, except_ite_error_eq_ok] at initialized
  obtain ⟨-, initialized⟩ := initialized
  rw [setWhitelist_accounts initialized]
  simp [accounts_updateConfiguration]

/-- One iteration of the genesis staking loop. -/
theorem registerAccount_accounts {nodeKeyAddress : Bytes → Option Address} {s s' : GovernanceState}
    {account : GenesisAccount} (registered : registerAccount nodeKeyAddress s account = .ok s') :
    (0 < account.staked ∧ ∃ nodeKey, nodeKeyAddress account.publicKey = some nodeKey ∧
      s'.accounts = s.accounts.push ⟨account.address, account.publicKey, account.staked, 0, 0⟩ nodeKey) ∨
    (account.staked = 0 ∧ s' = s) := by
  unfold registerAccount at registered
  split at registered
  · rename_i positive
    exact .inl ⟨positive, register_state_accounts registered⟩
  · rename_i notStaked
    exact .inr ⟨by omega, (Except.ok.inj registered).symm⟩

/-- The view a genesis leaves: that of its registrations, which `Initialize` keeps. -/
theorem toBlock_accounts {config : DexconConfig} {alloc : GenesisAlloc} {db : StateDB}
    (built : toBlock ext config alloc = .ok db) : ∃ registered,
      alloc.sorted.foldlM (registerAccount ext.nodeKeyAddress) GovernanceState.empty = .ok registered ∧
      db.governance.accounts = registered.accounts := by
  obtain ⟨governance, generated, stored⟩ := except_bind_eq_ok.mp built
  obtain ⟨registered, folded, initialized⟩ := except_bind_eq_ok.mp generated
  refine ⟨registered, folded, ?_⟩
  rw [← Except.ok.inj stored]
  exact initializeState_accounts initialized

/-- The genesis induction over the accounts still to register. -/
theorem toBlock_accounts_invariant {config : DexconConfig} {alloc : GenesisAlloc} {db : StateDB}
    {invariant : List GenesisAccount → AccountsView → Prop}
    (pushed : ∀ account rest v nodeKey, invariant (account :: rest) v → 0 < account.staked →
      ext.nodeKeyAddress account.publicKey = some nodeKey →
      invariant rest (v.push ⟨account.address, account.publicKey, account.staked, 0, 0⟩ nodeKey))
    (skipped : ∀ account rest v, invariant (account :: rest) v → account.staked = 0 →
      invariant rest v)
    (start : invariant alloc.sorted GovernanceState.empty.accounts)
    (built : toBlock ext config alloc = .ok db) : invariant [] db.governance.accounts := by
  obtain ⟨registered, folded, kept⟩ := toBlock_accounts built
  have preserved : ∀ account rest state next, invariant (account :: rest) state.accounts →
      registerAccount ext.nodeKeyAddress state account = .ok next → invariant rest next.accounts := by
    intro account rest state next building stepped
    rcases registerAccount_accounts stepped with ⟨staked, nodeKey, parsed, grown⟩ | ⟨notStaked, rfl⟩
    · rw [grown]
      exact pushed account rest _ nodeKey building staked parsed
    · exact skipped account rest _ building notStaked
  rw [kept]
  exact @foldlM_invariant_rest _ _ _ (fun rest state => invariant rest state.accounts) _ preserved
    _ _ _ start folded

end Helpers

section Methods

variable {ext : Externals} {ctx : CallContext} {db db' : StateDB}

/-- A payment out of the governance account followed by the gas charge keeps the storage. -/
theorem paid_governance {paidDb : StateDB} {sender recipient : Address} {amount : Nat}
    {event : GovernanceEvent} (transferred : transferFrom db sender recipient amount = some paidDb)
    (charged : useGas ctx (paidDb.setGovernance (paidDb.governance.addLog event)) = .ok db') :
    db'.governance = db.governance.addLog event := by
  obtain ⟨-, rfl⟩ := useGas_eq_ok.mp charged
  rw [StateDB.setGovernance_governance, transferFrom_governance transferred]

theorem register_accounts {publicKey : Bytes} {name email location url : String}
    (ran : GovernanceContract.register ext ctx publicKey name email location url db = .ok db') :
    ∃ nodeKey, ext.nodeKeyAddress publicKey = some nodeKey ∧
      db.governance.ownerSlot ctx.caller = 0 ∧ db.governance.nodeKeySlot nodeKey = 0 ∧
      db'.governance.accounts =
        db.governance.accounts.push ⟨ctx.caller, publicKey, ctx.value, 0, 0⟩ nodeKey := by
  simp only [GovernanceContract.register, except_ite_error_eq_ok] at ran
  obtain ⟨-, ownerAbsent, ran⟩ := ran
  split at ran
  · cases ran
  rename_i nodeKey parsed
  rw [except_ite_error_eq_ok] at ran
  obtain ⟨keyAbsent, ran⟩ := ran
  obtain ⟨pushed, put, charged⟩ := except_bind_eq_ok.mp ran
  obtain ⟨key, parsedKey, moved⟩ := pushNode_putNodeOffsets_accounts (orPanic_eq_ok.mp put)
  have sameKey : key = nodeKey := by
    rw [parsed] at parsedKey
    exact (Option.some.inj parsedKey).symm
  subst sameKey
  refine ⟨key, parsed, ownerSlot_of_no_offset ownerAbsent, nodeKeySlot_of_no_offset keyAbsent, ?_⟩
  obtain ⟨-, rfl⟩ := useGas_eq_ok.mp charged
  refine Eq.trans ?_ moved
  by_cases positive : 0 < ctx.value
  · rw [if_pos positive]
    rfl
  · have none : ctx.value = 0 := by omega
    rw [if_neg positive]
    show pushed.accounts = (pushed.incTotalStaked ctx.value).accounts
    rw [none]
    rfl

theorem stake_accounts (ran : GovernanceContract.stake ctx db = .ok db') :
    ∃ index, db.governance.ownerSlot ctx.caller = index + 1 ∧
      db'.governance.accounts = db.governance.accounts.stake index ctx.value := by
  simp only [GovernanceContract.stake, except_ite_error_eq_ok, useGas_eq_ok] at ran
  obtain ⟨-, found, -, -, rfl⟩ := ran
  refine ⟨_, ownerSlot_of_offset found, ?_⟩
  simp [AccountsView.stake, NodeInfo.account]

theorem unstake_accounts {amount : Nat} (ran : GovernanceContract.unstake ctx amount db = .ok db') :
    ∃ index, db.governance.ownerSlot ctx.caller = index + 1 ∧
      amount ≤ (db.governance.node index).staked ∧
      db'.governance.accounts = db.governance.accounts.unstake index amount ctx.time := by
  simp only [GovernanceContract.unstake, except_ite_error_eq_ok, useGas_eq_ok] at ran
  obtain ⟨-, found, -, -, covered, -, rfl⟩ := ran
  refine ⟨_, ownerSlot_of_offset found, Nat.le_of_not_lt covered, ?_⟩
  simp [AccountsView.unstake, NodeInfo.account]

/-- `withdraw`: a node that keeps a stake is settled, one with nothing staked is removed. -/
theorem withdraw_accounts (ran : GovernanceContract.withdraw ext ctx db = .ok db')
    (bounded : db.governance.ownerSlot ctx.caller ≤ db.governance.nodesLength) :
    ∃ index, db.governance.ownerSlot ctx.caller = index + 1 ∧
      (db'.governance.accounts = db.governance.accounts.settle index ∨
       ((db.governance.node index).staked = 0 ∧ ∃ removedKey movedKey,
          ext.nodeKeyAddress (db.governance.node index).publicKey = some removedKey ∧
          ext.nodeKeyAddress (db.governance.node (db.governance.nodesLength - 1)).publicKey =
            some movedKey ∧
          db'.governance.accounts = db.governance.accounts.remove index removedKey movedKey)) := by
  simp only [GovernanceContract.withdraw, except_ite_error_eq_ok] at ran
  obtain ⟨-, -, found, ran⟩ := ran
  have registered := ownerSlot_of_offset found
  refine ⟨_, registered, ?_⟩
  generalize (db.governance.nodesOffsetByAddress ctx.caller) = offset at ran registered found
  obtain ⟨index, rfl⟩ : ∃ index : Nat, offset = index := ⟨offset.toNat, by omega⟩
  simp only [Int.toNat_natCast] at registered ⊢
  generalize zeroedIs :
    ({ db.governance.node index with unstaked := 0, unstakedAt := 0 } : NodeInfo) = zeroed at ran
  have lastIndex : ((db.governance.nodesLength : Int) - 1).toNat = db.governance.nodesLength - 1 := by
    omega
  have lengthAbs : ((db.governance.nodesLength : Int) - 1).natAbs = db.governance.nodesLength - 1 := by
    omega
  -- split on the source's branches before simplifying, so that their decision procedures
  -- still match their conditions
  split at ran
  · rename_i emptied
    right
    refine ⟨emptied, ?_⟩
    split at ran
    · -- the last node moves into the hole
      rename_i notLast
      simp only [Int.toNat_natCast, GovernanceState.lenNodes, GovernanceState.updateNode_nodesLength]
        at ran notLast
      have notHole : db.governance.nodesLength - 1 ≠ index := by omega
      simp only [except_bind_eq_ok, orPanic_eq_ok, GovernanceState.putNodeOffsets_eq_ok,
        GovernanceState.deleteNodeOffsets_eq_ok, pure_bind, lastIndex,
        GovernanceState.updateNode_node_of_ne _ _ notHole] at ran
      obtain ⟨moved, ⟨movedKey, movedParsed, rfl⟩, deleted, ⟨removedKey, removedParsed, rfl⟩, ran⟩ :=
        ran
      split at ran
      · cases ran
      rename_i paidDb transferred
      refine ⟨removedKey, movedKey, removedParsed, movedParsed, ?_⟩
      rw [paid_governance transferred ran]
      subst zeroedIs
      simp [AccountsView.remove, NodeInfo.account, lengthAbs]
    · -- the removed node is the last one
      rename_i last
      simp only [Int.toNat_natCast, GovernanceState.lenNodes, GovernanceState.updateNode_nodesLength]
        at ran last
      have atLast : db.governance.nodesLength - 1 = index := by omega
      simp only [except_bind_eq_ok, orPanic_eq_ok, GovernanceState.deleteNodeOffsets_eq_ok,
        pure_bind] at ran
      obtain ⟨deleted, ⟨removedKey, removedParsed, rfl⟩, ran⟩ := ran
      split at ran
      · cases ran
      rename_i paidDb transferred
      refine ⟨removedKey, removedKey, removedParsed, by rw [atLast]; exact removedParsed, ?_⟩
      rw [paid_governance transferred ran]
      subst zeroedIs
      simp [AccountsView.remove, NodeInfo.account, lengthAbs, atLast]
  · left
    simp only [pure_bind, Int.toNat_natCast] at ran
    split at ran
    · cases ran
    · rename_i paidDb transferred
      rw [paid_governance transferred ran]
      subst zeroedIs
      simp [AccountsView.settle, NodeInfo.account]

/-- The common end of the two ownership transfers re-keys the node under its new owner. -/
theorem moveNodeOwnership_accounts {offset : Nat} {oldOwner newOwner : Address}
    (ran : GovernanceContract.moveNodeOwnership ext offset oldOwner newOwner db = .ok db') :
    ∃ nodeKey, ext.nodeKeyAddress (db.governance.node offset).publicKey = some nodeKey ∧
      db'.governance.accounts = db.governance.accounts.rekey offset newOwner
        (db.governance.node offset).publicKey nodeKey nodeKey := by
  simp only [GovernanceContract.moveNodeOwnership, except_bind_eq_ok, orPanic_eq_ok,
    GovernanceState.putNodeOffsets_eq_ok, GovernanceState.deleteNodeOffsets_eq_ok] at ran
  obtain ⟨deleted, ⟨nodeKey, parsed, rfl⟩, put, ⟨key, parsedKey, rfl⟩, ran⟩ := ran
  rw [parsed] at parsedKey
  cases parsedKey
  refine ⟨nodeKey, parsed, ?_⟩
  cases ran
  simp [AccountsView.rekey, NodeInfo.account]

theorem transferNodeOwnership_accounts {newOwner : Address}
    (ran : GovernanceContract.transferNodeOwnership ext ctx newOwner db = .ok db') :
    ∃ index, db.governance.ownerSlot ctx.caller = index + 1 ∧
      db.governance.ownerSlot newOwner = 0 ∧ ∃ nodeKey,
      ext.nodeKeyAddress (db.governance.node index).publicKey = some nodeKey ∧
      db'.governance.accounts = db.governance.accounts.rekey index newOwner
        (db.governance.node index).publicKey nodeKey nodeKey := by
  simp only [GovernanceContract.transferNodeOwnership, except_ite_error_eq_ok] at ran
  obtain ⟨-, -, found, newAbsent, ran⟩ := ran
  exact ⟨_, ownerSlot_of_offset found, ownerSlot_of_no_offset newAbsent,
    moveNodeOwnership_accounts ran⟩

theorem transferNodeOwnershipByFoundation_accounts {oldOwner newOwner : Address}
    (ran : GovernanceContract.transferNodeOwnershipByFoundation ext ctx oldOwner newOwner db =
      .ok db') :
    ∃ index, db.governance.ownerSlot oldOwner = index + 1 ∧
      db.governance.ownerSlot newOwner = 0 ∧ ∃ nodeKey,
      ext.nodeKeyAddress (db.governance.node index).publicKey = some nodeKey ∧
      db'.governance.accounts = db.governance.accounts.rekey index newOwner
        (db.governance.node index).publicKey nodeKey nodeKey := by
  simp only [GovernanceContract.transferNodeOwnershipByFoundation, except_ite_error_eq_ok] at ran
  obtain ⟨-, -, -, found, newAbsent, ran⟩ := ran
  exact ⟨_, ownerSlot_of_offset found, ownerSlot_of_no_offset newAbsent,
    moveNodeOwnership_accounts ran⟩

theorem replaceNodePublicKey_accounts {newPublicKey : Bytes}
    (ran : GovernanceContract.replaceNodePublicKey ext ctx newPublicKey db = .ok db') :
    ∃ index, db.governance.ownerSlot ctx.caller = index + 1 ∧ ∃ oldKey newKey,
      ext.nodeKeyAddress (db.governance.node index).publicKey = some oldKey ∧
      ext.nodeKeyAddress newPublicKey = some newKey ∧ db.governance.nodeKeySlot newKey = 0 ∧
      db'.governance.accounts = db.governance.accounts.rekey index
        (db.governance.node index).owner newPublicKey oldKey newKey := by
  simp only [GovernanceContract.replaceNodePublicKey, except_ite_error_eq_ok] at ran
  obtain ⟨-, found, ran⟩ := ran
  refine ⟨_, ownerSlot_of_offset found, ?_⟩
  split at ran
  · cases ran
  rename_i newKey newParsed
  rw [except_ite_error_eq_ok] at ran
  obtain ⟨newAbsent, ran⟩ := ran
  simp only [except_bind_eq_ok, orPanic_eq_ok, GovernanceState.putNodeOffsets_eq_ok,
    GovernanceState.deleteNodeOffsets_eq_ok] at ran
  obtain ⟨deleted, ⟨oldKey, oldParsed, rfl⟩, put, ⟨key, parsedKey, rfl⟩, ran⟩ := ran
  rw [newParsed] at parsedKey
  cases parsedKey
  refine ⟨oldKey, newKey, oldParsed, newParsed, nodeKeySlot_of_no_offset newAbsent, ?_⟩
  cases ran
  simp [AccountsView.rekey, NodeInfo.account]

/-! ### The methods that keep the view -/

theorem updateNodeInfo_accounts {name email location url : String}
    (ran : GovernanceContract.updateNodeInfo ctx name email location url db = .ok db') :
    db'.governance.accounts = db.governance.accounts := by
  simp only [GovernanceContract.updateNodeInfo, except_ite_error_eq_ok, useGas_eq_ok] at ran
  obtain ⟨-, -, -, -, rfl⟩ := ran
  rw [StateDB.setGovernance_governance, accounts_updateNodeInfo]

theorem payFine_accounts {nodeAddr : Address} (ran : GovernanceContract.payFine ctx nodeAddr db = .ok db') :
    db'.governance.accounts = db.governance.accounts := by
  simp only [GovernanceContract.payFine, except_ite_error_eq_ok] at ran
  obtain ⟨-, -, ran⟩ := ran
  split at ran
  · cases ran
  rename_i paidDb transferred
  rw [paid_governance transferred ran, accounts_addLog, StateDB.setGovernance_governance,
    accounts_updateNode_same]
  rfl

theorem transferOwnership_accounts {newOwner : Address}
    (ran : GovernanceContract.transferOwnership ctx newOwner db = .ok db') :
    db'.governance.accounts = db.governance.accounts := by
  simp only [GovernanceContract.transferOwnership, except_ite_error_eq_ok] at ran
  obtain ⟨-, -, -, ran⟩ := ran
  rw [← Except.ok.inj ran, StateDB.setGovernance_governance, accounts_setOwner]

theorem addToWhitelist_accounts {addr : Address}
    (ran : (GovernanceContract.addToWhitelist ctx addr db).map Prod.snd = .ok db') :
    db'.governance.accounts = db.governance.accounts := by
  simp only [GovernanceContract.addToWhitelist] at ran
  split at ran
  · cases ran
  split at ran
  · cases ran
  cases ran
  rw [StateDB.setGovernance_governance, accounts_addToWhitelist]

theorem removeFromWhitelist_accounts {addr : Address}
    (ran : (GovernanceContract.removeFromWhitelist ctx addr db).map Prod.snd = .ok db') :
    db'.governance.accounts = db.governance.accounts := by
  simp only [GovernanceContract.removeFromWhitelist] at ran
  split at ran
  · cases ran
  split at ran
  · cases ran
  cases ran
  rw [StateDB.setGovernance_governance, accounts_deleteAddressWhitelist]

theorem report_accounts {reportType : Nat} {arg1 arg2 : Bytes}
    (ran : GovernanceContract.report ext ctx reportType arg1 arg2 db = .ok db') :
    db'.governance.accounts = db.governance.accounts := by
  simp only [GovernanceContract.report, except_ite_error_eq_ok] at ran
  obtain ⟨-, -, ran⟩ := ran
  split at ran
  · cases ran
  split at ran
  · cases ran
  split at ran
  · cases ran
  rename_i fined fineOk
  rw [← Except.ok.inj ran, StateDB.setGovernance_governance, fine_accounts fineOk, accounts_addLog]

theorem addDKGComplaint_accounts {complaint : Bytes}
    (ran : GovernanceContract.addDKGComplaint ext ctx complaint db = .ok db') :
    db'.governance.accounts = db.governance.accounts := by
  simp only [GovernanceContract.addDKGComplaint, except_ite_error_eq_ok] at ran
  obtain ⟨-, -, -, ran⟩ := ran
  split at ran
  · cases ran
  simp only [except_ite_error_eq_ok] at ran
  obtain ⟨-, -, -, -, -, ran⟩ := ran
  split at ran
  · cases ran
  rw [except_ite_error_eq_ok] at ran
  obtain ⟨-, ran⟩ := ran
  split at ran
  · cases ran
  split at ran
  · -- the complaint is against a private share that deserves a fine
    split at ran
    · simp at ran
    split at ran
    · simp at ran
    rename_i fined fineOk
    simp only [except_bind_ok, useGas_eq_ok] at ran
    obtain ⟨-, rfl⟩ := ran
    simp [fine_accounts fineOk]
  · simp only [pure_bind, useGas_eq_ok] at ran
    obtain ⟨-, rfl⟩ := ran
    simp

theorem addDKGMasterPublicKey_accounts {mpk : Bytes}
    (ran : GovernanceContract.addDKGMasterPublicKey ext ctx mpk db = .ok db') :
    db'.governance.accounts = db.governance.accounts := by
  simp only [GovernanceContract.addDKGMasterPublicKey] at ran
  split at ran
  · cases ran
  simp only [except_ite_error_eq_ok, except_bind_eq_ok] at ran
  obtain ⟨-, advanced, advancedOk, -, -, -, -, -, -, -, ran⟩ := ran
  obtain ⟨-, rfl⟩ := useGas_eq_ok.mp ran
  simp [advanceDKGRound_accounts advancedOk]

theorem addDKGMPKReady_accounts {ready : Bytes}
    (ran : GovernanceContract.addDKGMPKReady ext ctx ready db = .ok db') :
    db'.governance.accounts = db.governance.accounts := by
  obtain ⟨added, addedOk, ran⟩ := except_bind_eq_ok.mp ran
  obtain ⟨-, rfl⟩ := useGas_eq_ok.mp ran
  rw [StateDB.setGovernance_governance, addDKGProgress_accounts addedOk]

theorem addDKGSuccess_accounts {success : Bytes}
    (ran : GovernanceContract.addDKGSuccess ext ctx success db = .ok db') :
    db'.governance.accounts = db.governance.accounts := by
  obtain ⟨added, addedOk, ran⟩ := except_bind_eq_ok.mp ran
  obtain ⟨-, rfl⟩ := useGas_eq_ok.mp ran
  rw [StateDB.setGovernance_governance, addDKGProgress_accounts addedOk]

theorem addDKGFinalize_accounts {finalize : Bytes}
    (ran : GovernanceContract.addDKGFinalize ext ctx finalize db = .ok db') :
    db'.governance.accounts = db.governance.accounts := by
  obtain ⟨added, addedOk, ran⟩ := except_bind_eq_ok.mp ran
  rw [← addDKGProgress_accounts addedOk]
  dsimp only at ran
  split at ran
  · obtain ⟨fined, finedOk, ran⟩ := except_bind_eq_ok.mp ran
    obtain ⟨-, rfl⟩ := useGas_eq_ok.mp ran
    rw [StateDB.setGovernance_governance, fineFailStopDKG_accounts finedOk]
  · obtain ⟨-, rfl⟩ := useGas_eq_ok.mp ran
    rfl

theorem proposeCRS_accounts {nextRound : Nat} {signedCRS : Bytes}
    (ran : GovernanceContract.proposeCRS ext ctx nextRound signedCRS db = .ok db') :
    db'.governance.accounts = db.governance.accounts := by
  simp only [GovernanceContract.proposeCRS, except_ite_error_eq_ok] at ran
  obtain ⟨-, -, ran⟩ := ran
  split at ran
  · rw [except_ite_error_eq_ok, useGas_eq_ok] at ran
    obtain ⟨-, -, rfl⟩ := ran
    simp
  all_goals cases ran

theorem resetDKG_accounts {newSignedCRS : Bytes}
    (ran : GovernanceContract.resetDKG ext ctx newSignedCRS db = .ok db') :
    db'.governance.accounts = db.governance.accounts := by
  simp only [GovernanceContract.resetDKG, except_ite_error_eq_ok, except_bind_eq_ok] at ran
  obtain ⟨-, advanced, advancedOk, -, ran⟩ := ran
  split at ran
  · cases ran
  simp only [except_ite_error_eq_ok, except_bind_eq_ok] at ran
  obtain ⟨-, -, fined, finedOk, ran⟩ := ran
  split at ran
  · cases ran
  split at ran
  · simp only [except_ite_error_eq_ok, except_bind_eq_ok] at ran
    obtain ⟨-, cleared, clearedOk, ran⟩ := ran
    rw [← Except.ok.inj ran]
    simp [clearDKG_accounts clearedOk, fineFailStopDKG_accounts finedOk,
      advanceDKGRound_accounts advancedOk]
  all_goals cases ran

theorem updateConfiguration_accounts {cfg : RawConfig}
    (ran : GovernanceContract.updateConfiguration ctx cfg db = .ok db') :
    db'.governance.accounts = db.governance.accounts := by
  simp only [GovernanceContract.updateConfiguration, except_ite_error_eq_ok] at ran
  obtain ⟨-, -, ran⟩ := ran
  rw [← Except.ok.inj ran]
  simp

/-- Every successful governance call is one step of the accounts view. -/
theorem run_accountsStep {call : GovernanceCall}
    (ran : GovernanceContract.run ext ctx call db = .ok db')
    (bounded : db.governance.ownerSlot ctx.caller ≤ db.governance.nodesLength) :
    AccountsStep ext.nodeKeyAddress ctx.time db.governance.accounts db'.governance.accounts := by
  cases call with
  | register publicKey name email location url =>
      obtain ⟨nodeKey, parsed, ownerFresh, keyFresh, moved⟩ := register_accounts ran
      rw [moved]
      exact .register _ _ _ _ _ parsed ownerFresh keyFresh
  | stake =>
      obtain ⟨index, registered, moved⟩ := stake_accounts ran
      rw [moved]
      exact .stake _ _ _ _ registered
  | unstake amount =>
      obtain ⟨index, registered, covered, moved⟩ := unstake_accounts ran
      rw [moved]
      exact .unstake _ _ _ _ registered covered
  | withdraw =>
      obtain ⟨index, registered, settled | ⟨emptied, removedKey, movedKey, removedParsed,
        movedParsed, moved⟩⟩ := withdraw_accounts ran bounded
      · rw [settled]
        exact .settle _ _ _ registered
      · rw [moved]
        exact .remove _ _ _ _ _ registered emptied removedParsed movedParsed
  | transferNodeOwnership newOwner =>
      obtain ⟨index, registered, fresh, nodeKey, parsed, moved⟩ := transferNodeOwnership_accounts ran
      rw [moved]
      exact .rekey _ _ _ _ _ _ _ registered parsed parsed (.inl fresh) (.inr rfl)
  | transferNodeOwnershipByFoundation oldOwner newOwner =>
      obtain ⟨index, registered, fresh, nodeKey, parsed, moved⟩ :=
        transferNodeOwnershipByFoundation_accounts ran
      rw [moved]
      exact .rekey _ _ _ _ _ _ _ registered parsed parsed (.inl fresh) (.inr rfl)
  | replaceNodePublicKey publicKey =>
      obtain ⟨index, registered, oldKey, newKey, oldParsed, newParsed, fresh, moved⟩ :=
        replaceNodePublicKey_accounts ran
      rw [moved]
      exact .rekey _ _ _ _ _ _ _ registered oldParsed newParsed (.inr rfl) (.inl fresh)
  | addDKGComplaint complaint =>
      rw [addDKGComplaint_accounts ran]
      exact .keep _
  | addDKGMasterPublicKey publicKey =>
      rw [addDKGMasterPublicKey_accounts ran]
      exact .keep _
  | addDKGMPKReady ready =>
      rw [addDKGMPKReady_accounts ran]
      exact .keep _
  | addDKGFinalize finalize =>
      rw [addDKGFinalize_accounts ran]
      exact .keep _
  | addDKGSuccess success =>
      rw [addDKGSuccess_accounts ran]
      exact .keep _
  | addToWhitelist address =>
      rw [addToWhitelist_accounts ran]
      exact .keep _
  | payFine address =>
      rw [payFine_accounts ran]
      exact .keep _
  | proposeCRS round signedCRS =>
      rw [proposeCRS_accounts ran]
      exact .keep _
  | removeFromWhitelist address =>
      rw [removeFromWhitelist_accounts ran]
      exact .keep _
  | report reportType arg1 arg2 =>
      rw [report_accounts ran]
      exact .keep _
  | resetDKG newSignedCRS =>
      rw [resetDKG_accounts ran]
      exact .keep _
  | transferOwnership newOwner =>
      rw [transferOwnership_accounts ran]
      exact .keep _
  | updateConfiguration cfg =>
      rw [updateConfiguration_accounts ran]
      exact .keep _
  | updateNodeInfo name email location url =>
      rw [updateNodeInfo_accounts ran]
      exact .keep _
  | view =>
      cases ran
      exact .keep _
  | malformed => cases ran

end Methods

/-! ### Runs of the chain -/

/-- A governance frame that commits; a frame that fails reverts. -/
def GovernanceStep (admissible : Externals → CallContext → Prop) (db db' : StateDB) : Prop :=
  ∃ ext ctx call, admissible ext ctx ∧ GovernanceContract.run ext ctx call db = .ok db'

/-- The state of a Dexcon genesis whose allocation `admissible` allows. -/
def GenesisOf (admissible : Externals → GenesisAlloc → Prop) (db : StateDB) : Prop :=
  ∃ ext config alloc, admissible ext alloc ∧ toBlock ext config alloc = .ok db

end Tangerine.Proof.Accounts
