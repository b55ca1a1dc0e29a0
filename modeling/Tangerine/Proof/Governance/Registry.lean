import Tangerine.Proof.Governance.Methods
import Tangerine.Library.IndexedArray
import Tangerine.Proof.Evm.OracleFrames

/-! The node registry: the nodes array and its two offset maps invert each other. -/

namespace Tangerine.Proof.Registry

open Tangerine.Common Tangerine.Core Tangerine.Core.Vm Tangerine.Library
  Tangerine.Library.IndexedArray Tangerine.Proof.Accounts Tangerine.Proof.OracleFrames Function

/-- A node's key in `nodesOffsetByAddress`. -/
def ownerKey (n : NodeAccount) : Option Address := some n.owner

/-- A node's key in `nodesOffsetByNodeKeyAddress`: the address of its public key. -/
def nodeKeyOf (nodeKeyAddress : Bytes → Option Address) (n : NodeAccount) : Option Address :=
  nodeKeyAddress n.publicKey

/-- The owner map inverts the nodes array. -/
def OwnersIndexed (v : AccountsView) : Prop :=
  Inverse ownerKey v.node v.nodesLength v.ownerSlot

/-- Both offset maps invert the nodes array. -/
structure RegistryConsistent (nodeKeyAddress : Bytes → Option Address) (v : AccountsView) :
    Prop where
  owners : OwnersIndexed v
  nodeKeys : Inverse (nodeKeyOf nodeKeyAddress) v.node v.nodesLength v.nodeKeySlot

variable {nodeKeyAddress : Bytes → Option Address} {time : Nat} {v v' : AccountsView}

theorem OwnersIndexed.bounded (indexed : OwnersIndexed v) (owner : Address) :
    v.ownerSlot owner ≤ v.nodesLength := by
  by_cases absent : v.ownerSlot owner = 0
  · omega
  · exact (Inverse.located indexed owner absent).1

theorem OwnersIndexed.below (indexed : OwnersIndexed v) {owner : Address} {index : Nat}
    (registered : v.ownerSlot owner = index + 1) : index < v.nodesLength := by
  have bounded := indexed.bounded owner
  omega

/-- Every step keeps the owner map. -/
theorem ownersIndexed_step (step : AccountsStep nodeKeyAddress time v v')
    (indexed : OwnersIndexed v) : OwnersIndexed v' := by
  cases step with
  | keep => exact indexed
  | register owner publicKey staked nodeKey parsed ownerFresh keyFresh =>
      exact Inverse.push indexed rfl ownerFresh
  | stake owner index amount registered => exact Inverse.update_sameKey indexed rfl
  | unstake owner index amount registered covered => exact Inverse.update_sameKey indexed rfl
  | settle owner index registered => exact Inverse.update_sameKey indexed rfl
  | remove owner index removedKey movedKey registered emptied removedParsed movedParsed =>
      exact Inverse.swapRemove indexed (indexed.below registered) rfl rfl _
  | rekey holder index owner publicKey oldKey newKey registered oldParsed newParsed ownerFresh
      keyFresh =>
      exact Inverse.rekey indexed (indexed.below registered) rfl rfl ownerFresh

theorem nodeKeysIndexed_step (step : AccountsStep nodeKeyAddress time v v')
    (consistent : RegistryConsistent nodeKeyAddress v) :
    Inverse (nodeKeyOf nodeKeyAddress) v'.node v'.nodesLength v'.nodeKeySlot := by
  have indexed := consistent.nodeKeys
  cases step with
  | keep => exact indexed
  | register owner publicKey staked nodeKey parsed ownerFresh keyFresh =>
      exact Inverse.push indexed parsed keyFresh
  | stake owner index amount registered => exact Inverse.update_sameKey indexed rfl
  | unstake owner index amount registered covered => exact Inverse.update_sameKey indexed rfl
  | settle owner index registered => exact Inverse.update_sameKey indexed rfl
  | remove owner index removedKey movedKey registered emptied removedParsed movedParsed =>
      -- the node's position is bounded through the owner map, which it shares
      exact Inverse.swapRemove indexed (consistent.owners.below registered) removedParsed
        movedParsed _
  | rekey holder index owner publicKey oldKey newKey registered oldParsed newParsed ownerFresh
      keyFresh =>
      exact Inverse.rekey indexed (consistent.owners.below registered) oldParsed newParsed keyFresh

theorem registryConsistent_step (step : AccountsStep nodeKeyAddress time v v')
    (consistent : RegistryConsistent nodeKeyAddress v) : RegistryConsistent nodeKeyAddress v' :=
  ⟨ownersIndexed_step step consistent.owners, nodeKeysIndexed_step step consistent⟩

/-! ### Genesis -/

/-- The staking accounts of a list have pairwise distinct node key addresses. -/
def DistinctNodeKeys (nodeKeyAddress : Bytes → Option Address) (accounts : List GenesisAccount) :
    Prop :=
  ((accounts.filter fun account => 0 < account.staked).map
    fun account => nodeKeyAddress account.publicKey).Nodup

instance (nodeKeyAddress : Bytes → Option Address) (accounts : List GenesisAccount) :
    Decidable (DistinctNodeKeys nodeKeyAddress accounts) :=
  inferInstanceAs (Decidable (List.Nodup _))

/-- While the genesis still has `rest` to register. -/
structure GenesisOwners (rest : List GenesisAccount) (v : AccountsView) : Prop where
  owners : OwnersIndexed v
  distinctAddresses : (rest.map (·.address)).Nodup
  ownersFresh : ∀ account ∈ rest, v.ownerSlot account.address = 0

/-- The same for both maps: the node keys to come are distinct and not yet indexed either. -/
structure GenesisRegistry (nodeKeyAddress : Bytes → Option Address) (rest : List GenesisAccount)
    (v : AccountsView) : Prop extends GenesisOwners rest v where
  nodeKeys : Inverse (nodeKeyOf nodeKeyAddress) v.node v.nodesLength v.nodeKeySlot
  distinctKeys : DistinctNodeKeys nodeKeyAddress rest
  keysFresh : ∀ account ∈ rest, 0 < account.staked → ∀ nodeKey,
    nodeKeyAddress account.publicKey = some nodeKey → v.nodeKeySlot nodeKey = 0

section GenesisSteps

variable {account : GenesisAccount} {rest : List GenesisAccount}

theorem GenesisOwners.skip (building : GenesisOwners (account :: rest) v) : GenesisOwners rest v where
  owners := building.owners
  distinctAddresses := (List.nodup_cons.mp building.distinctAddresses).2
  ownersFresh := fun later member => building.ownersFresh later (List.mem_cons_of_mem _ member)

theorem GenesisOwners.push (building : GenesisOwners (account :: rest) v) (nodeKey : Address) :
    GenesisOwners rest (v.push ⟨account.address, account.publicKey, account.staked, 0, 0⟩ nodeKey) := by
  obtain ⟨addressLater, addressesRest⟩ := List.nodup_cons.mp building.distinctAddresses
  refine ⟨Inverse.push building.owners rfl (building.ownersFresh account List.mem_cons_self),
    addressesRest, ?_⟩
  intro later member
  have other : later.address ≠ account.address := by
    intro same
    apply addressLater
    show account.address ∈ rest.map (·.address)
    rw [← same]
    exact List.mem_map_of_mem member
  show update v.ownerSlot account.address _ later.address = 0
  rw [update_of_ne other]
  exact building.ownersFresh later (List.mem_cons_of_mem _ member)

theorem GenesisRegistry.skip (building : GenesisRegistry nodeKeyAddress (account :: rest) v)
    (notStaked : account.staked = 0) : GenesisRegistry nodeKeyAddress rest v where
  toGenesisOwners := building.toGenesisOwners.skip
  nodeKeys := building.nodeKeys
  distinctKeys := by
    have keys := building.distinctKeys
    simp only [DistinctNodeKeys, List.filter_cons, notStaked, Nat.lt_irrefl, decide_false] at keys
    exact keys
  keysFresh := fun later member => building.keysFresh later (List.mem_cons_of_mem _ member)

theorem GenesisRegistry.push (building : GenesisRegistry nodeKeyAddress (account :: rest) v)
    (staked : 0 < account.staked) {nodeKey : Address}
    (parsed : nodeKeyAddress account.publicKey = some nodeKey) :
    GenesisRegistry nodeKeyAddress rest
      (v.push ⟨account.address, account.publicKey, account.staked, 0, 0⟩ nodeKey) := by
  have keys := building.distinctKeys
  simp only [DistinctNodeKeys, List.filter_cons, staked, decide_true, if_true, List.map_cons]
    at keys
  obtain ⟨keyLater, keysRest⟩ := List.nodup_cons.mp keys
  refine ⟨building.toGenesisOwners.push nodeKey, ?_, keysRest, ?_⟩
  · exact Inverse.push building.nodeKeys parsed
      (building.keysFresh account List.mem_cons_self staked nodeKey parsed)
  · intro later member laterStaked laterKey laterParsed
    have other : laterKey ≠ nodeKey := by
      intro same
      apply keyLater
      rw [parsed, ← same, ← laterParsed]
      exact List.mem_map_of_mem (List.mem_filter.mpr ⟨member, by simpa using laterStaked⟩)
    show update v.nodeKeySlot nodeKey _ laterKey = 0
    rw [update_of_ne other]
    exact building.keysFresh later (List.mem_cons_of_mem _ member) laterStaked laterKey
      laterParsed

end GenesisSteps

theorem genesisOwners_start (alloc : GenesisAlloc) :
    GenesisOwners alloc.sorted GovernanceState.empty.accounts where
  owners := inverse_empty _ _
  distinctAddresses := ((List.perm_insertionSort _ _).map _).nodup_iff.mpr alloc.distinct
  ownersFresh := fun _ _ => rfl

theorem genesisRegistry_start {alloc : GenesisAlloc}
    (distinct : DistinctNodeKeys nodeKeyAddress alloc.accounts) :
    GenesisRegistry nodeKeyAddress alloc.sorted GovernanceState.empty.accounts where
  toGenesisOwners := genesisOwners_start alloc
  nodeKeys := inverse_empty _ _
  distinctKeys := (((List.perm_insertionSort _ _).filter _).map _).nodup_iff.mpr distinct
  keysFresh := fun _ _ _ _ _ => rfl

/-- A genesis whose staking accounts have distinct node keys builds a consistent registry. -/
theorem genesis_registryConsistent {ext : Externals} {config : DexconConfig} {alloc : GenesisAlloc}
    {db : StateDB} (distinct : DistinctNodeKeys ext.nodeKeyAddress alloc.accounts)
    (built : toBlock ext config alloc = .ok db) :
    RegistryConsistent ext.nodeKeyAddress db.governance.accounts := by
  have registry : GenesisRegistry ext.nodeKeyAddress [] db.governance.accounts :=
    toBlock_accounts_invariant (fun _ _ _ _ building staked parsed => building.push staked parsed)
      (fun _ _ _ building notStaked => building.skip notStaked) (genesisRegistry_start distinct)
      built
  exact ⟨registry.owners, registry.nodeKeys⟩

/-! ### Every reachable state -/

/-- The registry as the contract's getters show it. -/
structure OffsetsInverse (nodeKeyAddress : Bytes → Option Address) (s : GovernanceState) :
    Prop where
  byIndex : ∀ index < s.lenNodes, s.nodesOffsetByAddress (s.node index).owner = index ∧
    ∃ nodeKey, nodeKeyAddress (s.node index).publicKey = some nodeKey ∧
      s.nodesOffsetByNodeKeyAddress nodeKey = index
  byOwner : ∀ addr, 0 ≤ s.nodesOffsetByAddress addr →
    s.nodesOffsetByAddress addr < s.lenNodes ∧
      (s.node (s.nodesOffsetByAddress addr).toNat).owner = addr
  byNodeKey : ∀ addr, 0 ≤ s.nodesOffsetByNodeKeyAddress addr →
    s.nodesOffsetByNodeKeyAddress addr < s.lenNodes ∧
      nodeKeyAddress (s.node (s.nodesOffsetByNodeKeyAddress addr).toNat).publicKey = some addr

theorem RegistryConsistent.offsets {s : GovernanceState}
    (consistent : RegistryConsistent nodeKeyAddress s.accounts) : OffsetsInverse nodeKeyAddress s where
  byIndex := by
    intro index below
    have byOwner := Inverse.index_of_key consistent.owners below rfl
    obtain ⟨nodeKey, parsed, byKey⟩ := consistent.nodeKeys.indexed index below
    refine ⟨?_, nodeKey, parsed, ?_⟩
    · simp only [GovernanceState.nodesOffsetByAddress]
      rw [show s.ownerSlot (s.node index).owner = index + 1 from byOwner]
      omega
    · simp only [GovernanceState.nodesOffsetByNodeKeyAddress]
      rw [show s.nodeKeySlot nodeKey = index + 1 from byKey]
      omega
  byOwner := by
    intro addr found
    unfold GovernanceState.nodesOffsetByAddress at found ⊢
    have present : s.ownerSlot addr ≠ 0 := by omega
    obtain ⟨bounded, keyed⟩ := consistent.owners.located addr present
    simp only [ownerKey, accounts_ownerSlot, accounts_nodesLength, accounts_node_apply,
      account_owner, Option.some.injEq] at bounded keyed
    have position : ((s.ownerSlot addr : Int) - 1).toNat = s.ownerSlot addr - 1 := by omega
    refine ⟨by unfold GovernanceState.lenNodes; omega, ?_⟩
    rw [position]
    exact keyed
  byNodeKey := by
    intro addr found
    unfold GovernanceState.nodesOffsetByNodeKeyAddress at found ⊢
    have present : s.nodeKeySlot addr ≠ 0 := by omega
    obtain ⟨bounded, keyed⟩ := consistent.nodeKeys.located addr present
    simp only [nodeKeyOf, accounts_nodeKeySlot, accounts_nodesLength, accounts_node_apply,
      account_publicKey] at bounded keyed
    have position : ((s.nodeKeySlot addr : Int) - 1).toNat = s.nodeKeySlot addr - 1 := by omega
    refine ⟨by unfold GovernanceState.lenNodes; omega, ?_⟩
    rw [position]
    exact keyed

/-- The states reached from a genesis with distinct node keys, under one key parser. -/
def RegistryReachable (nodeKeyAddress : Bytes → Option Address) : StateDB → Prop :=
  Reachable (GovernanceStep fun ext _ => ext.nodeKeyAddress = nodeKeyAddress)
    (GenesisOf fun ext alloc =>
      ext.nodeKeyAddress = nodeKeyAddress ∧ DistinctNodeKeys nodeKeyAddress alloc.accounts)

/-- Node registry consistency: every run keeps the nodes array and the offset maps inverse. -/
theorem registry_consistent {nodeKeyAddress : Bytes → Option Address} {db : StateDB}
    (reachable : RegistryReachable nodeKeyAddress db) :
    OffsetsInverse nodeKeyAddress db.governance := by
  have consistent : RegistryConsistent nodeKeyAddress db.governance.accounts := by
    apply Reachable.invariant _ _ reachable
    · rintro state ⟨ext, config, alloc, ⟨sameParser, distinct⟩, built⟩
      subst sameParser
      exact genesis_registryConsistent distinct built
    · rintro state next consistent ⟨ext, ctx, call, sameParser, ran⟩
      subst sameParser
      exact registryConsistent_step (run_accountsStep ran (consistent.owners.bounded ctx.caller))
        consistent
  exact consistent.offsets

/-- A chain configuration whose first halving lies above a small genesis supply. -/
def smallConfig : DexconConfig where
  genesisCRSText := ""
  owner := nodeOwner
  minStake := 1
  lockupPeriod := 0
  miningVelocity := 0
  nextHalvingSupply := 1000
  lastHalvedAmount := 0
  minGasPrice := 0
  blockGasLimit := 0
  lambdaBA := 0
  lambdaDKG := 0
  notaryParamAlpha := 0
  notaryParamBeta := 0
  roundLength := 0
  minBlockInterval := 0
  fineValues := []
  isConsortium := false
  addressWhitelist := []

/-- One account, `nodeOwner`, holding ten tokens of which it stakes five. -/
def oneStakerAlloc : GenesisAlloc :=
  ⟨[⟨nodeOwner, 10, 5, [4], "", "", "", ""⟩], by decide⟩

/-- The state `ToBlock` builds from `oneStakerAlloc`. -/
def oneStakerGenesis : StateDB :=
  match toBlock (keyExternals nodeKey) smallConfig oneStakerAlloc with
  | .ok db => db
  | .error _ => oneNodeGenesis

theorem oneStakerGenesis_built :
    toBlock (keyExternals nodeKey) smallConfig oneStakerAlloc = .ok oneStakerGenesis := rfl

/-- `nodeOwner` unstakes its five tokens in the block of time one. -/
def unstakeAtTimeOne : CallContext := ⟨nodeOwner, 0, GovernanceActionGasCost, 0, 1, 1⟩

/-- The state after that call. -/
def oneStakerUnstaked : StateDB :=
  match GovernanceContract.run (keyExternals nodeKey) unstakeAtTimeOne (.unstake 5)
      oneStakerGenesis with
  | .ok db => db
  | .error _ => oneStakerGenesis

theorem oneStakerUnstaked_ran :
    GovernanceContract.run (keyExternals nodeKey) unstakeAtTimeOne (.unstake 5) oneStakerGenesis =
      .ok oneStakerUnstaked := rfl

theorem registry_consistent_oneStaker :
    RegistryReachable (keyExternals nodeKey).nodeKeyAddress oneStakerUnstaked ∧
      OffsetsInverse (keyExternals nodeKey).nodeKeyAddress oneStakerUnstaked.governance :=
  have reachable : RegistryReachable (keyExternals nodeKey).nodeKeyAddress oneStakerUnstaked :=
    .step (.initial ⟨keyExternals nodeKey, smallConfig, oneStakerAlloc, ⟨rfl, by decide⟩,
      oneStakerGenesis_built⟩) ⟨keyExternals nodeKey, unstakeAtTimeOne, .unstake 5, rfl,
        oneStakerUnstaked_ran⟩
  ⟨reachable, registry_consistent reachable⟩

end Tangerine.Proof.Registry
