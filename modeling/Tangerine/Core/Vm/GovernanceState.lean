import Tangerine.Common.Types
import Mathlib.Logic.Function.Basic

/-! The storage of the governance contract (`core/vm/oracle_contracts.go`). -/

namespace Tangerine.Core.Vm

open Tangerine.Common Function

/-- `nodeInfo`, one element of the `nodes` array. -/
structure NodeInfo where
  owner : Address
  publicKey : Bytes
  staked : Nat
  fined : Nat
  name : String
  email : String
  location : String
  url : String
  unstaked : Nat
  unstakedAt : Nat
deriving DecidableEq, Repr

/-- The record `EraseNode` writes. -/
def NodeInfo.erased : NodeInfo where
  owner := 0
  publicKey := []
  staked := 0
  fined := 0
  name := ""
  email := ""
  location := ""
  url := ""
  unstaked := 0
  unstakedAt := 0

/-- The events the contract adds to the state's log. -/
inductive GovernanceEvent where
  | configurationChanged
  | crsProposed (round : Nat) (crs : Hash)
  | nodeOwnershipTransfered (nodeAddress newOwnerAddress : Address)
  | nodePublicKeyReplaced (nodeAddress : Address) (publicKey : Bytes)
  | staked (nodeAddress : Address) (amount : Nat)
  | unstaked (nodeAddress : Address) (amount : Nat)
  | withdrawn (nodeAddress : Address) (amount : Nat)
  | nodeAdded (nodeAddress : Address)
  | nodeRemoved (nodeAddress : Address)
  | reported (nodeAddress : Address) (reportType : Nat) (arg1 arg2 : Bytes)
  | fined (nodeAddress : Address) (amount : Nat)
  | finePaid (nodeAddress : Address) (amount : Nat)
  | dkgReset (round blockHeight : Nat)
deriving DecidableEq, Repr

/-- The three DKG progress maps, each with its counter. -/
inductive DKGFlag where
  | mpkReady
  | finalized
  | success
deriving DecidableEq, Repr

/-- The governance contract's storage and the log entries it has emitted. -/
structure GovernanceState where
  roundHeights : Nat → Nat
  roundHeightsLength : Nat
  totalSupply : Nat
  totalStaked : Nat
  nodes : Nat → NodeInfo
  nodesLength : Nat
  /-- `nodesOffsetByAddress`, as stored: offset plus one. -/
  ownerSlot : Address → Nat
  /-- `nodesOffsetByNodeKeyAddress`, as stored: offset plus one. -/
  nodeKeySlot : Address → Nat
  lastProposedHeight : Address → Nat
  crsRound : Nat
  crs : Hash
  dkgRound : Nat
  dkgResetCount : Nat → Nat
  dkgMasterPublicKeys : List Bytes
  /-- `dkgMasterPublicKeyOffset`, as stored: offset plus one. -/
  masterPublicKeySlot : Hash → Nat
  dkgComplaints : List Bytes
  dkgComplaintsProposed : Hash → Bool
  dkgFlags : DKGFlag → Address → Bool
  dkgFlagsCount : DKGFlag → Nat
  owner : Address
  minStake : Nat
  lockupPeriod : Nat
  miningVelocity : Nat
  nextHalvingSupply : Nat
  lastHalvedAmount : Nat
  minGasPrice : Nat
  blockGasLimit : Nat
  lambdaBA : Nat
  lambdaDKG : Nat
  notaryParamAlpha : Nat
  notaryParamBeta : Nat
  notarySetSize : Nat
  roundLength : Nat
  minBlockInterval : Nat
  fineValues : Nat → Nat
  fineValuesLength : Nat
  finedRecords : Hash → Bool
  isConsortium : Bool
  addressWhitelist : Nat → Address
  whitelistLength : Nat
  /-- `whitelistOffsetByAddress`, as stored: offset plus one. -/
  whitelistSlot : Address → Nat
  logs : List GovernanceEvent

/-- `decimalMultiplier`, the scale of the stored notary parameters. -/
def decimalMultiplier : Float := 100000000.0

/-- The size `CalNotarySetSize` computes for `nodeSetSize` qualified nodes. -/
def notarySetSizeOf (nodeSetSize alpha beta : Nat) : Nat :=
  -- `math.Ceil((n*0.6-1)/3)*3 + 1`: `3n - 5` is never a multiple of 15, so rounding never
  -- moves the ceiling of `(3n - 5)/15`
  if nodeSetSize < 80 then 3 * ((3 * nodeSetSize + 9) / 15) + 1
  else
    let alpha := Float.ofNat (alpha % 2 ^ 64) / decimalMultiplier
    let beta := Float.ofNat (beta % 2 ^ 64) / decimalMultiplier
    let setSize := Float.ceil (alpha * Float.log (Float.ofNat nodeSetSize) - beta)
    if setSize < 0 then (-setSize).toUInt64.toNat else setSize.toUInt64.toNat

namespace GovernanceState

/-- The storage of a fresh account: every slot reads zero. -/
def empty : GovernanceState where
  roundHeights := fun _ => 0
  roundHeightsLength := 0
  totalSupply := 0
  totalStaked := 0
  nodes := fun _ => NodeInfo.erased
  nodesLength := 0
  ownerSlot := fun _ => 0
  nodeKeySlot := fun _ => 0
  lastProposedHeight := fun _ => 0
  crsRound := 0
  crs := 0
  dkgRound := 0
  dkgResetCount := fun _ => 0
  dkgMasterPublicKeys := []
  masterPublicKeySlot := fun _ => 0
  dkgComplaints := []
  dkgComplaintsProposed := fun _ => false
  dkgFlags := fun _ _ => false
  dkgFlagsCount := fun _ => 0
  owner := 0
  minStake := 0
  lockupPeriod := 0
  miningVelocity := 0
  nextHalvingSupply := 0
  lastHalvedAmount := 0
  minGasPrice := 0
  blockGasLimit := 0
  lambdaBA := 0
  lambdaDKG := 0
  notaryParamAlpha := 0
  notaryParamBeta := 0
  notarySetSize := 0
  roundLength := 0
  minBlockInterval := 0
  fineValues := fun _ => 0
  fineValuesLength := 0
  finedRecords := fun _ => false
  isConsortium := false
  addressWhitelist := fun _ => 0
  whitelistLength := 0
  whitelistSlot := fun _ => 0
  logs := []

variable (s : GovernanceState)

def roundHeight (round : Nat) : Nat := s.roundHeights round

/-- The new height goes to the slot at the old length, which is not bounds-checked. -/
def pushRoundHeight (height : Nat) : GovernanceState :=
  { s with
    roundHeightsLength := s.roundHeightsLength + 1
    roundHeights := update s.roundHeights s.roundHeightsLength height }

def incTotalSupply (amount : Nat) : GovernanceState :=
  { s with totalSupply := s.totalSupply + amount }

/-- `common.BigToHash` keeps the magnitude of a negative difference. -/
def decTotalSupply (amount : Nat) : GovernanceState :=
  { s with totalSupply := ((s.totalSupply : Int) - amount).natAbs }

def incTotalStaked (amount : Nat) : GovernanceState :=
  { s with totalStaked := s.totalStaked + amount }

def decTotalStaked (amount : Nat) : GovernanceState :=
  { s with totalStaked := ((s.totalStaked : Int) - amount).natAbs }

def lenNodes : Nat := s.nodesLength

def node (index : Nat) : NodeInfo := s.nodes index

/-- `QualifiedNodes`: the nodes with no unpaid fine and at least `MinStake` staked. -/
def qualifiedNodes : List NodeInfo :=
  ((List.range s.lenNodes).map s.node).filter fun node =>
    node.fined == 0 && decide (s.minStake ≤ node.staked)

/-- `CalNotarySetSize`, writing the size computed from the qualified nodes. -/
def calNotarySetSize : GovernanceState :=
  { s with notarySetSize :=
      notarySetSizeOf s.qualifiedNodes.length s.notaryParamAlpha s.notaryParamBeta }

/-- `CalNotarySetSize` writes the set size and nothing else. -/
@[simp] theorem calNotarySetSize_eq : s.calNotarySetSize =
    { s with notarySetSize :=
      notarySetSizeOf s.qualifiedNodes.length s.notaryParamAlpha s.notaryParamBeta } := rfl

/-- `UpdateNode` writes the record, then recomputes the notary set size. -/
def updateNode (index : Nat) (n : NodeInfo) : GovernanceState :=
  ({ s with nodes := update s.nodes index n } : GovernanceState).calNotarySetSize

@[simp] theorem updateNode_nodesLength (index : Nat) (n : NodeInfo) :
    (s.updateNode index n).nodesLength = s.nodesLength := rfl

@[simp] theorem updateNode_node_self (index : Nat) (n : NodeInfo) :
    (s.updateNode index n).node index = n := by
  simp [updateNode, node]

theorem updateNode_node_of_ne {index position : Nat} (n : NodeInfo) (other : position ≠ index) :
    (s.updateNode index n).node position = s.node position := by
  simp [updateNode, node, update_of_ne other]

def pushNode (n : NodeInfo) : GovernanceState :=
  ({ s with nodesLength := s.nodesLength + 1 } : GovernanceState).updateNode s.nodesLength n

def eraseNode (index : Nat) : GovernanceState :=
  s.updateNode index NodeInfo.erased

def popLastNode : GovernanceState :=
  let newArrayLength := ((s.nodesLength : Int) - 1).natAbs
  ({ s with nodesLength := newArrayLength } : GovernanceState).eraseNode (s.nodesLength - 1)

/-- `UpdateNodeInfo` rewrites only the four descriptive strings, and leaves the set size. -/
def updateNodeInfo (index : Nat) (n : NodeInfo) : GovernanceState :=
  let info := { s.node index with name := n.name, email := n.email, location := n.location, url := n.url }
  { s with nodes := update s.nodes index info }

def nodesOffsetByAddress (addr : Address) : Int := (s.ownerSlot addr : Int) - 1

def putNodesOffsetByAddress (addr : Address) (offset : Nat) : GovernanceState :=
  { s with ownerSlot := update s.ownerSlot addr (offset + 1) }

def deleteNodesOffsetByAddress (addr : Address) : GovernanceState :=
  { s with ownerSlot := update s.ownerSlot addr 0 }

def nodesOffsetByNodeKeyAddress (addr : Address) : Int := (s.nodeKeySlot addr : Int) - 1

def putNodesOffsetByNodeKeyAddress (addr : Address) (offset : Nat) : GovernanceState :=
  { s with nodeKeySlot := update s.nodeKeySlot addr (offset + 1) }

def deleteNodesOffsetByNodeKeyAddress (addr : Address) : GovernanceState :=
  { s with nodeKeySlot := update s.nodeKeySlot addr 0 }

/-- `PutNodeOffsets` panics on a public key that does not parse. -/
def putNodeOffsets (nodeKeyAddress : Bytes → Option Address) (n : NodeInfo) (offset : Nat) :
    Except String GovernanceState :=
  match nodeKeyAddress n.publicKey with
  | none => .error "invalid public key"
  | some address =>
      .ok ((s.putNodesOffsetByNodeKeyAddress address offset).putNodesOffsetByAddress n.owner offset)

def deleteNodeOffsets (nodeKeyAddress : Bytes → Option Address) (n : NodeInfo) :
    Except String GovernanceState :=
  match nodeKeyAddress n.publicKey with
  | none => .error "invalid public key"
  | some address =>
      .ok ((s.deleteNodesOffsetByNodeKeyAddress address).deleteNodesOffsetByAddress n.owner)

theorem putNodeOffsets_eq_ok {nodeKeyAddress : Bytes → Option Address} {n : NodeInfo}
    {offset : Nat} {s' : GovernanceState} :
    s.putNodeOffsets nodeKeyAddress n offset = .ok s' ↔ ∃ address,
      nodeKeyAddress n.publicKey = some address ∧
      s' = (s.putNodesOffsetByNodeKeyAddress address offset).putNodesOffsetByAddress n.owner offset := by
  cases parsed : nodeKeyAddress n.publicKey <;> simp [putNodeOffsets, parsed, eq_comm]

theorem deleteNodeOffsets_eq_ok {nodeKeyAddress : Bytes → Option Address} {n : NodeInfo}
    {s' : GovernanceState} :
    s.deleteNodeOffsets nodeKeyAddress n = .ok s' ↔ ∃ address,
      nodeKeyAddress n.publicKey = some address ∧
      s' = (s.deleteNodesOffsetByNodeKeyAddress address).deleteNodesOffsetByAddress n.owner := by
  cases parsed : nodeKeyAddress n.publicKey <;> simp [deleteNodeOffsets, parsed, eq_comm]

def getNodeByID (id : NodeID) : Except String NodeInfo :=
  let offset := s.nodesOffsetByNodeKeyAddress (idToAddress id)
  if offset < 0 then .error "node not found" else .ok (s.node offset.toNat)

def putLastProposedHeight (addr : Address) (height : Nat) : GovernanceState :=
  { s with lastProposedHeight := update s.lastProposedHeight addr height }

def halfMiningVelocity : GovernanceState := { s with miningVelocity := s.miningVelocity / 2 }

def halfLastHalvedAmount : GovernanceState := { s with lastHalvedAmount := s.lastHalvedAmount / 2 }

def incNextHalvingSupply (amount : Nat) : GovernanceState :=
  { s with nextHalvingSupply := s.nextHalvingSupply + amount }

/-- `MiningHalved`: the next halving waits for the halved amount. -/
def miningHalved : GovernanceState :=
  let s := s.halfMiningVelocity.halfLastHalvedAmount
  s.incNextHalvingSupply s.lastHalvedAmount

def setCRSRound (round : Nat) : GovernanceState := { s with crsRound := round }

def setCRS (crs : Hash) : GovernanceState := { s with crs := crs }

def setDKGRound (round : Nat) : GovernanceState := { s with dkgRound := round }

def incDKGResetCount (round : Nat) : GovernanceState :=
  { s with dkgResetCount := update s.dkgResetCount round (s.dkgResetCount round + 1) }

def lenDKGMasterPublicKeys : Nat := s.dkgMasterPublicKeys.length

/-- An element past the end reads as the empty string that erasing left there. -/
def dkgMasterPublicKey (offset : Nat) : Bytes := s.dkgMasterPublicKeys.getD offset []

def pushDKGMasterPublicKey (mpk : Bytes) : GovernanceState :=
  { s with dkgMasterPublicKeys := s.dkgMasterPublicKeys ++ [mpk] }

def clearDKGMasterPublicKeys : GovernanceState := { s with dkgMasterPublicKeys := [] }

def dkgMasterPublicKeyOffset (id : Hash) : Int := (s.masterPublicKeySlot id : Int) - 1

def putDKGMasterPublicKeyOffset (id : Hash) (offset : Int) : GovernanceState :=
  { s with masterPublicKeySlot := update s.masterPublicKeySlot id (offset + 1).natAbs }

def pushDKGComplaint (complaint : Bytes) : GovernanceState :=
  { s with dkgComplaints := s.dkgComplaints ++ [complaint] }

def clearDKGComplaints : GovernanceState := { s with dkgComplaints := [] }

def dkgComplaintProposed (id : Hash) : Bool := s.dkgComplaintsProposed id

def putDKGComplaintProposed (id : Hash) (status : Bool) : GovernanceState :=
  { s with dkgComplaintsProposed := update s.dkgComplaintsProposed id status }

/-! The three flag maps and their counters share one set of helpers. -/

def dkgFlag (flag : DKGFlag) (addr : Address) : Bool := s.dkgFlags flag addr

def putDKGFlag (flag : DKGFlag) (addr : Address) (value : Bool) : GovernanceState :=
  { s with dkgFlags := update s.dkgFlags flag (update (s.dkgFlags flag) addr value) }

/-- The flags of the given set's members go back to false; no other address is touched. -/
def clearDKGFlags (flag : DKGFlag) (notarySet : List NodeID) : GovernanceState :=
  notarySet.foldl (fun state id => state.putDKGFlag flag (idToAddress id) false) s

def incDKGFlagsCount (flag : DKGFlag) : GovernanceState :=
  { s with dkgFlagsCount := update s.dkgFlagsCount flag (s.dkgFlagsCount flag + 1) }

def resetDKGFlagsCount (flag : DKGFlag) : GovernanceState :=
  { s with dkgFlagsCount := update s.dkgFlagsCount flag 0 }

theorem dkgFlag_putDKGFlag (flag flag' : DKGFlag) (addr target : Address) (value : Bool) :
    (s.putDKGFlag flag addr value).dkgFlag flag' target =
      if flag' = flag ∧ target = addr then value else s.dkgFlag flag' target := by
  unfold putDKGFlag dkgFlag
  by_cases same : flag' = flag
  · subst same
    by_cases here : target = addr <;> simp [here]
  · simp [same]

@[simp] theorem dkgFlagsCount_putDKGFlag (flag flag' : DKGFlag) (addr : Address) (value : Bool) :
    (s.putDKGFlag flag addr value).dkgFlagsCount flag' = s.dkgFlagsCount flag' := rfl

/-- Clearing at a set resets exactly the flags of the set's addresses. -/
theorem dkgFlag_clearDKGFlags (flag flag' : DKGFlag) (notarySet : List NodeID) (addr : Address) :
    (s.clearDKGFlags flag notarySet).dkgFlag flag' addr =
      if flag' = flag ∧ addr ∈ notarySet.map idToAddress then false else s.dkgFlag flag' addr := by
  induction notarySet generalizing s with
  | nil => simp [clearDKGFlags]
  | cons id rest inductionHypothesis =>
      simp only [clearDKGFlags, List.foldl_cons] at inductionHypothesis ⊢
      rw [inductionHypothesis, dkgFlag_putDKGFlag]
      by_cases same : flag' = flag
      · by_cases here : addr = idToAddress id
        · simp [same, here]
        · simp [same, here]
      · simp [same]

@[simp] theorem dkgFlagsCount_clearDKGFlags (flag flag' : DKGFlag) (notarySet : List NodeID) :
    (s.clearDKGFlags flag notarySet).dkgFlagsCount flag' = s.dkgFlagsCount flag' := by
  induction notarySet generalizing s with
  | nil => rfl
  | cons id rest inductionHypothesis =>
      simp only [clearDKGFlags, List.foldl_cons] at inductionHypothesis ⊢
      rw [inductionHypothesis, dkgFlagsCount_putDKGFlag]

@[simp] theorem dkgFlag_incDKGFlagsCount (flag flag' : DKGFlag) (addr : Address) :
    (s.incDKGFlagsCount flag).dkgFlag flag' addr = s.dkgFlag flag' addr := rfl

@[simp] theorem dkgFlag_resetDKGFlagsCount (flag flag' : DKGFlag) (addr : Address) :
    (s.resetDKGFlagsCount flag).dkgFlag flag' addr = s.dkgFlag flag' addr := rfl

theorem dkgFlagsCount_resetDKGFlagsCount (flag flag' : DKGFlag) :
    (s.resetDKGFlagsCount flag).dkgFlagsCount flag' =
      if flag' = flag then 0 else s.dkgFlagsCount flag' := by
  unfold resetDKGFlagsCount
  split
  · next same => subst same; simp
  · next other => simp [update_of_ne other]

def dkgMPKReady (addr : Address) : Bool := s.dkgFlag .mpkReady addr
def putDKGMPKReady (addr : Address) (ready : Bool) : GovernanceState :=
  s.putDKGFlag .mpkReady addr ready
def clearDKGMPKReadys (notarySet : List NodeID) : GovernanceState :=
  s.clearDKGFlags .mpkReady notarySet
def dkgMPKReadysCount : Nat := s.dkgFlagsCount .mpkReady
def incDKGMPKReadysCount : GovernanceState := s.incDKGFlagsCount .mpkReady
def resetDKGMPKReadysCount : GovernanceState := s.resetDKGFlagsCount .mpkReady

def dkgFinalized (addr : Address) : Bool := s.dkgFlag .finalized addr
def putDKGFinalized (addr : Address) (finalized : Bool) : GovernanceState :=
  s.putDKGFlag .finalized addr finalized
def clearDKGFinalizeds (notarySet : List NodeID) : GovernanceState :=
  s.clearDKGFlags .finalized notarySet
def dkgFinalizedsCount : Nat := s.dkgFlagsCount .finalized
def incDKGFinalizedsCount : GovernanceState := s.incDKGFlagsCount .finalized
def resetDKGFinalizedsCount : GovernanceState := s.resetDKGFlagsCount .finalized

def dkgSuccess (addr : Address) : Bool := s.dkgFlag .success addr
def putDKGSuccess (addr : Address) (success : Bool) : GovernanceState :=
  s.putDKGFlag .success addr success
def clearDKGSuccesses (notarySet : List NodeID) : GovernanceState :=
  s.clearDKGFlags .success notarySet
def dkgSuccessesCount : Nat := s.dkgFlagsCount .success
def incDKGSuccessesCount : GovernanceState := s.incDKGFlagsCount .success
def resetDKGSuccessesCount : GovernanceState := s.resetDKGFlagsCount .success

def setOwner (newOwner : Address) : GovernanceState := { s with owner := newOwner }

def fineValue (index : Nat) : Nat := s.fineValues index

def setFineValues (values : List Nat) : GovernanceState :=
  { s with
    fineValuesLength := values.length
    fineValues := fun index => if index < values.length then values.getD index 0
      else s.fineValues index }

def fineRecords (recordHash : Hash) : Bool := s.finedRecords recordHash

def setFineRecords (recordHash : Hash) (status : Bool) : GovernanceState :=
  { s with finedRecords := update s.finedRecords recordHash status }

def addLog (event : GovernanceEvent) : GovernanceState := { s with logs := s.logs ++ [event] }

def lenWhitelist : Nat := s.whitelistLength

def whitelistOffsetByAddress (addr : Address) : Int := (s.whitelistSlot addr : Int) - 1

def putWhitelistOffsetByAddress (addr : Address) (offset : Nat) : GovernanceState :=
  { s with whitelistSlot := update s.whitelistSlot addr (offset + 1) }

def deleteWhitelistOffsetByAddress (addr : Address) : GovernanceState :=
  { s with whitelistSlot := update s.whitelistSlot addr 0 }

def putAddressWhitelist (addr : Address) (offset : Nat) : GovernanceState :=
  ({ s with addressWhitelist := update s.addressWhitelist offset addr } : GovernanceState)
    |>.putWhitelistOffsetByAddress addr offset

/-- `AddToWhitelist`: a listed address keeps its offset, a new one goes to the end. -/
def addToWhitelist (addr : Address) : Int × GovernanceState :=
  let offset := s.whitelistOffsetByAddress addr
  if 0 ≤ offset then (offset, s) else
  let len := s.whitelistLength
  let s := s.putAddressWhitelist addr len
  let len := len + 1
  (len, { s with whitelistLength := len })

/-- `DeleteAddressWhitelist`: the last address moves into the hole unless it is the one removed. -/
def deleteAddressWhitelist (addr : Address) : Int × GovernanceState :=
  let offset := s.whitelistOffsetByAddress addr
  if offset < 0 then (offset, s) else
  let s := s.deleteWhitelistOffsetByAddress addr
  let len := s.whitelistLength
  let newLen : Int := len - 1
  let s := if 1 < len ∧ offset ≠ newLen then
      s.putAddressWhitelist (s.addressWhitelist newLen.toNat) offset.toNat
    else s
  (len, { s with whitelistLength := newLen.natAbs })

/-- `Register`, the genesis helper: no check for a registered owner or node key. -/
def register (nodeKeyAddress : Bytes → Option Address) (addr : Address) (publicKey : Bytes)
    (name email location url : String) (staked : Nat) : Except String GovernanceState := do
  let offset := s.lenNodes
  let node : NodeInfo :=
    { owner := addr, publicKey := publicKey, staked := staked, fined := 0, name := name,
      email := email, location := location, url := url, unstaked := 0, unstakedAt := 0 }
  let s ← (s.pushNode node).putNodeOffsets nodeKeyAddress node offset
  if staked = 0 then return s
  return s.incTotalStaked staked

end GovernanceState

/-- `FineTypeFailStop` and the other fine types, indices into `fineValues`. -/
def fineTypeFailStop : Nat := 0
def fineTypeFailStopDKG : Nat := 1
def fineTypeInvalidDKG : Nat := 2
def fineTypeForkVote : Nat := 3
def fineTypeForkBlock : Nat := 4

namespace GovernanceState

variable (s : GovernanceState)

/-- The node is found again in this state by its node key address and fined there. -/
def disqualify (nodeKeyAddress : Bytes → Option Address) (n : NodeInfo) :
    Except String GovernanceState :=
  match nodeKeyAddress n.publicKey with
  | none => .error "invalid public key"
  | some nodeAddr =>
      let offset := s.nodesOffsetByNodeKeyAddress nodeAddr
      if offset < 0 then .error "node does not exist" else
      let node := s.node offset.toNat
      let amount := s.fineValue fineTypeFailStop
      .ok (s.updateNode offset.toNat { node with fined := node.fined + amount })

end GovernanceState

end Tangerine.Core.Vm
