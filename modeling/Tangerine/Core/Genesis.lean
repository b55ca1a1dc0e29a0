import Tangerine.Core.Vm.GovernanceDKG

/-! The Dexcon genesis (`Genesis.ToBlock` in `core/genesis.go`). -/

namespace Tangerine.Core

open Tangerine.Common Tangerine.Core.Vm Function

/-- `params.DexconConfig`, its `float32` fields as the integers `UpdateConfiguration` stores. -/
structure DexconConfig where
  genesisCRSText : String
  owner : Address
  minStake : Nat
  lockupPeriod : Nat
  miningVelocity : Nat
  nextHalvingSupply : Nat
  lastHalvedAmount : Nat
  minGasPrice : Nat
  blockGasLimit : Nat
  lambdaBA : Nat
  lambdaDKG : Nat
  notaryParamAlpha : Nat
  notaryParamBeta : Nat
  roundLength : Nat
  minBlockInterval : Nat
  fineValues : List Nat
  isConsortium : Bool
  addressWhitelist : List Address

namespace Vm.GovernanceState

variable (s : GovernanceState)

/-- `UpdateConfiguration`; a consortium chain also whitelists the configured addresses. -/
def updateConfiguration (cfg : DexconConfig) : GovernanceState :=
  let s := ({ s with
    minStake := cfg.minStake, lockupPeriod := cfg.lockupPeriod,
    miningVelocity := cfg.miningVelocity, nextHalvingSupply := cfg.nextHalvingSupply,
    lastHalvedAmount := cfg.lastHalvedAmount, minGasPrice := cfg.minGasPrice,
    blockGasLimit := cfg.blockGasLimit, lambdaBA := cfg.lambdaBA, lambdaDKG := cfg.lambdaDKG,
    notaryParamAlpha := cfg.notaryParamAlpha, notaryParamBeta := cfg.notaryParamBeta,
    roundLength := cfg.roundLength, minBlockInterval := cfg.minBlockInterval } : GovernanceState)
    |>.setFineValues cfg.fineValues
  let s := if cfg.isConsortium then
      cfg.addressWhitelist.foldl (fun s addr => (s.addToWhitelist addr).2) s
    else s
  s.calNotarySetSize

/-- `setWhitelist`: a consortium chain whitelists the node key of every registered node. -/
def setWhitelist (nodeKeyAddress : Bytes → Option Address) (isConsortium : Bool) :
    Except String GovernanceState :=
  if !isConsortium then .ok s else
  let enable (state : GovernanceState) (index : Nat) : Except String GovernanceState :=
    match nodeKeyAddress (state.node index).publicKey with
    | none => .error "invalid public key"
    | some address => .ok (state.addToWhitelist address).2
  (List.range s.lenNodes).foldlM enable { s with isConsortium := true }

/-- `Initialize`: panics unless the first halving lies above the genesis supply. -/
def initializeState (ext : Externals) (config : DexconConfig) (totalSupply : Int) :
    Except String GovernanceState :=
  if (config.nextHalvingSupply : Int) ≤ totalSupply then .error "invalid genesis found" else
  let s := s.setCRS (ext.keccak256 config.genesisCRSText.toUTF8.toList)
  let s := s.pushRoundHeight 0
  let s := s.setOwner config.owner
  let s := s.updateConfiguration config
  let s := s.incTotalSupply totalSupply.natAbs
  let s := s.setDKGRound DKGDelayRound
  s.setWhitelist ext.nodeKeyAddress config.isConsortium

end Vm.GovernanceState

/-- `GenesisAccount`, with the address that keys it in the allocation. -/
structure GenesisAccount where
  address : Address
  balance : Int
  staked : Nat
  publicKey : Bytes
  name : String
  email : String
  location : String
  url : String

/-- `GenesisAlloc`, a map: no address is allocated twice. -/
structure GenesisAlloc where
  accounts : List GenesisAccount
  distinct : (accounts.map (·.address)).Nodup

/-- The staking accounts are registered in increasing address order (`AllocKey`). -/
def GenesisAlloc.sorted (alloc : GenesisAlloc) : List GenesisAccount :=
  alloc.accounts.insertionSort fun a b => a.address.toNat ≤ b.address.toNat

/-- One iteration of the staking loop of `ToBlock`. -/
def registerAccount (nodeKeyAddress : Bytes → Option Address) (s : GovernanceState)
    (account : GenesisAccount) : Except String GovernanceState :=
  if 0 < account.staked then
    s.register nodeKeyAddress account.address account.publicKey account.name account.email
      account.location account.url account.staked
  else .ok s

/-- The governance storage `ToBlock` builds. -/
def genesisGovernance (ext : Externals) (config : DexconConfig) (alloc : GenesisAlloc) :
    Except String GovernanceState := do
  let s ← alloc.sorted.foldlM (registerAccount ext.nodeKeyAddress) GovernanceState.empty
  let totalSupply := (alloc.accounts.map (·.balance)).sum
  s.initializeState ext config totalSupply

/-- The balances `ToBlock` credits. -/
def genesisBalance (alloc : GenesisAlloc) (addr : Address) : Int :=
  let own := ((alloc.accounts.filter (·.address = addr)).map
    fun account => account.balance - (account.staked : Int)).sum
  let totalStaked : Int := (alloc.accounts.map (·.staked)).sum
  if addr = GovernanceContractAddress then own + totalStaked else own

/-- `Genesis.ToBlock`'s state for a Dexcon chain. -/
def toBlock (ext : Externals) (config : DexconConfig) (alloc : GenesisAlloc) :
    Except String StateDB := do
  let governance ← genesisGovernance ext config alloc
  pure { balance := genesisBalance alloc, governance := governance }

end Tangerine.Core
