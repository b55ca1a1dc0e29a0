import Tangerine.Core.Vm.GovernanceContract
import Mathlib.Data.List.Sort

/-! The governance methods that fine nodes and run the distributed key generation. -/

namespace Tangerine.Core.Vm

open Tangerine.Common Function

/-- The thirty-two bytes of a hash, most significant first. -/
def hashBytes (h : Hash) : Bytes :=
  (List.range 32).map fun index => ((h >>> (8 * (31 - index))).toNat % 256).toUInt8

/-- `bytes.Compare(a, b) < 0`. -/
def bytesLess : Bytes → Bytes → Bool
  | [], [] => false
  | [], _ :: _ => true
  | _ :: _, [] => false
  | a :: rest, b :: rest' => a < b || (a == b && bytesLess rest rest')

/-- `getDKGComplaintID`: Keccak-256 of both proposers and `fmt.Sprintf("%v", IsNack())`. -/
def getDKGComplaintID (ext : Externals) (comp : DKGComplaint) : Hash :=
  ext.keccak256 (hashBytes comp.proposerID.hash ++ hashBytes comp.privateShareProposerID.hash ++
    (if comp.isNack then "true" else "false").toUTF8.toList)

/-- `coreUtils.GetDKGThreshold`, in the `uint32` arithmetic of the notary set size. -/
def getDKGThreshold (notarySetSize : Nat) : Nat :=
  ((notarySetSize.toUInt32 * 2 / 3).toNat) + 1

/-- `coreUtils.GetDKGNackThreshold`. -/
def getDKGNackThreshold (notarySetSize : Nat) : Nat :=
  ((notarySetSize.toUInt32 * 1 / 3).toNat) + 1

/-- `coreUtils.GetDKGValidThreshold`. -/
def getDKGValidThreshold (notarySetSize : Nat) : Nat :=
  (notarySetSize.toUInt32 * 5 / 6).toNat

/-- `dexCore.DKGDelayRound`. -/
def DKGDelayRound : Nat := 1

/-- The fields `UpdateConfigurationRaw` writes. -/
structure RawConfig where
  minStake : Nat
  lockupPeriod : Nat
  blockGasLimit : Nat
  minGasPrice : Nat
  lambdaBA : Nat
  lambdaDKG : Nat
  notaryParamAlpha : Nat
  notaryParamBeta : Nat
  roundLength : Nat
  minBlockInterval : Nat
  fineValues : List Nat

namespace GovernanceState

variable (s : GovernanceState)

/-- `UpdateConfigurationRaw`. -/
def updateConfigurationRaw (cfg : RawConfig) : GovernanceState :=
  ({ s with
    minStake := cfg.minStake, lockupPeriod := cfg.lockupPeriod, minGasPrice := cfg.minGasPrice,
    blockGasLimit := cfg.blockGasLimit, lambdaBA := cfg.lambdaBA, lambdaDKG := cfg.lambdaDKG,
    notaryParamAlpha := cfg.notaryParamAlpha, notaryParamBeta := cfg.notaryParamBeta,
    roundLength := cfg.roundLength, minBlockInterval := cfg.minBlockInterval } : GovernanceState)
    |>.setFineValues cfg.fineValues |>.calNotarySetSize

/-- `ClearDKGMasterPublicKeyOffset` decodes every stored key and panics on one that fails. -/
def clearDKGMasterPublicKeyOffset (ext : Externals) : Except String GovernanceState :=
  let clear (state : GovernanceState) (mpk : Bytes) : Except String GovernanceState :=
    match ext.decodeMasterPublicKey mpk with
    | none => .error "rlp decode of a master public key"
    | some item => .ok (state.putDKGMasterPublicKeyOffset item.proposerID.hash (-1))
  s.dkgMasterPublicKeys.foldlM clear s

def clearDKGComplaintProposed (ext : Externals) : Except String GovernanceState :=
  let clear (state : GovernanceState) (complaint : Bytes) : Except String GovernanceState :=
    match ext.decodeComplaint complaint with
    | none => .error "rlp decode of a complaint"
    | some comp => .ok (state.putDKGComplaintProposed (getDKGComplaintID ext comp) false)
  s.dkgComplaints.foldlM clear s

end GovernanceState

namespace GovernanceContract

variable (ext : Externals) (ctx : CallContext)

def inNotarySet (round : Nat) (nodeID : NodeID) : Bool :=
  decide (nodeID ∈ ext.notarySet round)

/-- `clearDKG`: flags cleared at the stored round's notary set only, counters reset. -/
def clearDKG (s : GovernanceState) : Except VmError GovernanceState := do
  let dkgSet := ext.notarySet s.dkgRound
  let s ← orPanic (s.clearDKGMasterPublicKeyOffset ext)
  let s := s.clearDKGMasterPublicKeys
  let s ← orPanic (s.clearDKGComplaintProposed ext)
  let s := s.clearDKGComplaints
  let s := (s.clearDKGMPKReadys dkgSet).resetDKGMPKReadysCount
  let s := (s.clearDKGFinalizeds dkgSet).resetDKGFinalizedsCount
  pure ((s.clearDKGSuccesses dkgSet).resetDKGSuccessesCount)

/-- `fine`: each evidence is fined once, keyed by the hash of the sorted payloads. -/
def fine (nodeAddr : Address) (amount : Nat) (payloads : List Bytes) (s : GovernanceState) :
    Except String GovernanceState :=
  let sorted := payloads.insertionSort fun a b => bytesLess a b
  let hash := ext.keccak256 sorted.flatten
  if s.fineRecords hash then .error "already fined" else
  let s := s.setFineRecords hash true
  let nodeOffset := s.nodesOffsetByAddress nodeAddr
  if nodeOffset < 0 then .error "execution reverted" else
  let node := s.node nodeOffset.toNat
  let s := s.updateNode nodeOffset.toNat { node with fined := node.fined + amount }
  .ok (s.addLog (.fined nodeAddr amount))

/-- `report`: only the fork types are accepted; the type is read as a `uint64`. -/
def report (reportType : Nat) (arg1 arg2 : Bytes) (db : StateDB) : Except VmError StateDB :=
  let s := db.governance
  if 0 < ctx.value then .error .executionReverted else
  let typeEnum := reportType % 2 ^ 64
  if typeEnum ≠ fineTypeForkVote ∧ typeEnum ≠ fineTypeForkBlock then .error .executionReverted else
  match ext.forkPenalty typeEnum arg1 arg2 with
  | none => .error .executionReverted
  | some reportedNodeID =>
  match s.getNodeByID reportedNodeID with
  | .error _ => .error .executionReverted
  | .ok node =>
  let s := s.addLog (.reported node.owner reportType arg1 arg2)
  let fineValue := s.fineValue reportType
  match fine ext node.owner fineValue [arg1, arg2] s with
  | .error _ => .error .executionReverted
  | .ok s => .ok (db.setGovernance s)

/-- The nodes `fineFailStopDKG` fines, sorted by node hash. -/
def failStopDKGNodes (threshold : Nat) (s : GovernanceState) : Except VmError (List NodeID) := do
  let dkgSet := ext.notarySet s.dkgRound
  let silent := dkgSet.filter fun id => s.dkgMasterPublicKeyOffset id.hash < 0
  let complaints ← (s.dkgComplaints.mapM fun complaint =>
    match ext.decodeComplaint complaint with
    | none => .error (VmError.panic "rlp decode of a complaint")
    | some comp => .ok comp)
  let nacks := complaints.filter (·.isNack)
  let accused := (nacks.map (·.privateShareProposerID)).dedup
  let complainedEnough := accused.filter fun id =>
    threshold ≤ ((nacks.filter (·.privateShareProposerID = id)).map (·.proposerID)).dedup.length
  pure ((silent ++ complainedEnough).dedup.insertionSort fun a b => a.hash.toNat ≤ b.hash.toNat)

/-- One step of `fineFailStopDKG`'s loop: a node that has left the registry is skipped. -/
def fineFailStopNode (s : GovernanceState) (id : NodeID) : GovernanceState :=
  let offset := s.nodesOffsetByNodeKeyAddress (idToAddress id)
  if offset < 0 then s else
  let node := s.node offset.toNat
  let amount := s.fineValue fineTypeFailStopDKG
  (s.updateNode offset.toNat { node with fined := node.fined + amount }).addLog
    (.fined node.owner amount)

/-- `fineFailStopDKG`. -/
def fineFailStopDKG (threshold : Nat) (s : GovernanceState) : Except VmError GovernanceState := do
  let nodes ← failStopDKGNodes ext threshold s
  pure (nodes.foldl fineFailStopNode s)

def addDKGComplaint (comp : Bytes) (db : StateDB) : Except VmError StateDB :=
  let s := db.governance
  let caller := ctx.caller
  if s.nodesOffsetByNodeKeyAddress caller < 0 then .error .executionReverted else
  if s.dkgFinalized caller then .error .executionReverted else
  let threshold := getDKGThreshold (ext.configNotarySetSize ctx.round)
  if threshold ≤ s.dkgFinalizedsCount then .error .executionReverted else
  match ext.decodeComplaint comp with
  | none => .error .executionReverted
  | some dkgComplaint =>
  if s.dkgComplaintProposed (getDKGComplaintID ext dkgComplaint) then .error .executionReverted else
  let round := dkgComplaint.round
  if round ≠ ctx.round + 1 then .error .executionReverted else
  if dkgComplaint.reset ≠ s.dkgResetCount round then .error .executionReverted else
  if !inNotarySet ext round dkgComplaint.proposerID then .error .executionReverted else
  if !ext.verifyComplaintSignature comp then .error .executionReverted else
  let mpkOffset := s.dkgMasterPublicKeyOffset dkgComplaint.privateShareProposerID.hash
  -- an absent key reads the slot before the array, which holds no encoding
  let mpk := if mpkOffset < 0 then [] else s.dkgMasterPublicKey mpkOffset.toNat
  match ext.decodeMasterPublicKey mpk with
  | none => .error (.panic "rlp decode of a master public key")
  | some _ =>
  if !ext.verifyComplaint comp mpk then .error .executionReverted else
  match ext.needPenaltyDKGPrivateShare comp mpk with
  | none => .error .executionReverted
  | some need => do
  let s ← if need then
      match s.getNodeByID dkgComplaint.privateShareProposerID with
      | .error _ => .error .executionReverted
      | .ok node =>
          match fine ext node.owner (s.fineValue fineTypeInvalidDKG) [comp, []] s with
          | .error _ => .error .executionReverted
          | .ok s => .ok s
    else pure s
  let s := (s.pushDKGComplaint comp).putDKGComplaintProposed
    (getDKGComplaintID ext dkgComplaint) true
  useGas ctx (db.setGovernance s)

/-- The DKG state of the stored round is cleared by the first message of the next round. -/
def advanceDKGRound (round nextRound : Nat) (s : GovernanceState) :
    Except VmError GovernanceState :=
  if s.dkgRound = round then do
    let s ← clearDKG ext s
    pure (s.setDKGRound nextRound)
  else pure s

def addDKGMasterPublicKey (mpk : Bytes) (db : StateDB) : Except VmError StateDB :=
  match ext.decodeMasterPublicKey mpk with
  | none => .error .executionReverted
  | some dkgMasterPK =>
  let round := dkgMasterPK.round
  if round ≠ ctx.round + 1 then .error .executionReverted else
  advanceDKGRound ext ctx.round round db.governance >>= fun s =>
  if 0 ≤ s.dkgMasterPublicKeyOffset dkgMasterPK.proposerID.hash then .error .executionReverted else
  let caller := ctx.caller
  if s.nodesOffsetByNodeKeyAddress caller < 0 then .error .executionReverted else
  if s.dkgMPKReady caller then .error .executionReverted else
  let threshold := getDKGThreshold (ext.configNotarySetSize ctx.round)
  if threshold ≤ s.dkgMPKReadysCount then .error .executionReverted else
  if dkgMasterPK.reset ≠ s.dkgResetCount round then .error .executionReverted else
  if !inNotarySet ext round dkgMasterPK.proposerID then .error .executionReverted else
  if !ext.verifyMasterPublicKeySignature mpk then .error .executionReverted else
  let mpkOffset := s.lenDKGMasterPublicKeys
  let s := (s.pushDKGMasterPublicKey mpk).putDKGMasterPublicKeyOffset dkgMasterPK.proposerID.hash
    mpkOffset
  useGas ctx (db.setGovernance s)

/-- The shared body of `addDKGMPKReady`, `addDKGFinalize` and `addDKGSuccess`. -/
def addDKGProgress (flag : DKGFlag) (message : Bytes) (s : GovernanceState) :
    Except VmError GovernanceState :=
  let caller := ctx.caller
  match ext.decodeDKGProgress flag message with
  | none => .error .executionReverted
  | some progress =>
  let round := progress.round
  if round ≠ ctx.round + 1 then .error .executionReverted else
  if progress.reset ≠ s.dkgResetCount round then .error .executionReverted else
  if !inNotarySet ext round progress.proposerID then .error .executionReverted else
  if !ext.verifyDKGProgressSignature flag message then .error .executionReverted else
  if !s.dkgFlag flag caller then .ok ((s.putDKGFlag flag caller true).incDKGFlagsCount flag)
  else .ok s

def addDKGMPKReady (ready : Bytes) (db : StateDB) : Except VmError StateDB := do
  let s ← addDKGProgress ext ctx .mpkReady ready db.governance
  useGas ctx (db.setGovernance s)

def addDKGSuccess (success : Bytes) (db : StateDB) : Except VmError StateDB := do
  let s ← addDKGProgress ext ctx .success success db.governance
  useGas ctx (db.setGovernance s)

/-- The finalize that reaches the threshold exactly fines the fail-stop nodes. -/
def addDKGFinalize (finalize : Bytes) (db : StateDB) : Except VmError StateDB := do
  let s ← addDKGProgress ext ctx .finalized finalize db.governance
  let threshold := getDKGThreshold (ext.configNotarySetSize ctx.round)
  let s ← if s.dkgFinalizedsCount = threshold then
      fineFailStopDKG ext (getDKGNackThreshold (ext.configNotarySetSize ctx.round)) s
    else pure s
  useGas ctx (db.setGovernance s)

/-- `prevCRS` hashed `count` times. -/
def hashCRS (count : Nat) (crs : Hash) : Hash :=
  (List.range count).foldl (fun crs _ => ext.keccak256 (hashBytes crs)) crs

def proposeCRS (nextRound : Nat) (signedCRS : Bytes) (db : StateDB) : Except VmError StateDB :=
  let s := db.governance
  if 0 < ctx.value then .error .executionReverted else
  if nextRound % 2 ^ 64 ≠ ctx.round + 1 ∨ s.crsRound % 2 ^ 64 = nextRound % 2 ^ 64 then
    .error .executionReverted else
  let prevCRS := if ctx.round = DKGDelayRound then hashCRS ext DKGDelayRound s.crs else s.crs
  let threshold := getDKGThreshold (ext.configNotarySetSize nextRound)
  match ext.newGroupPublicKey s nextRound threshold with
  | .key _ verifySignature =>
      if !verifySignature prevCRS signedCRS then .error .executionReverted else
      let crs := ext.keccak256 signedCRS
      let s := ((s.setCRS crs).setCRSRound nextRound).addLog (.crsProposed nextRound crs)
      useGas ctx (db.setGovernance s)
  | _ => .error .executionReverted

/-- Whether the DKG of the next round failed, so that a reset is allowed. -/
def dkgFailed (nextRound : Nat) (s : GovernanceState) : Bool :=
  let size := ext.configNotarySetSize nextRound
  if s.dkgSuccessesCount < getDKGValidThreshold size then true else
  let threshold := getDKGThreshold size
  if s.dkgFinalizedsCount < threshold then true else
  match ext.newGroupPublicKey s nextRound threshold with
  | .key qualified _ => qualified < getDKGValidThreshold size
  | .notReachThreshold => true
  | .invalidThreshold => true
  | .otherError => false

def resetDKG (newSignedCRS : Bytes) (db : StateDB) : Except VmError StateDB :=
  if 0 < ctx.value then .error .executionReverted else
  let round := ctx.round
  let nextRound := round + 1
  advanceDKGRound ext round nextRound db.governance >>= fun s =>
  let resetCount := s.dkgResetCount nextRound
  if round = 0 then .error .executionReverted else
  let target := 85 + 100 * resetCount
  let roundHeight := s.roundHeight round
  match ext.configState round with
  | none => .error (.failed "config state unavailable")
  | some gs =>
  let targetBlockNum := gs.roundLength * target / 100 + roundHeight
  let blockHeight := ctx.blockNumber
  if blockHeight < targetBlockNum then .error .executionReverted else
  if !dkgFailed ext nextRound s then .error .executionReverted else
  fineFailStopDKG ext (getDKGNackThreshold (ext.configNotarySetSize nextRound)) s >>= fun s =>
  match ext.stateAtRound round with
  | none => .error .executionReverted
  | some state =>
  let prevCRS := if round = DKGDelayRound then hashCRS ext DKGDelayRound state.crs else state.crs
  let prevCRS := hashCRS ext (resetCount + 1) prevCRS
  match ext.newGroupPublicKey state round (getDKGThreshold (ext.configNotarySetSize round)) with
  | .key _ verifySignature =>
      if !verifySignature prevCRS newSignedCRS then .error .executionReverted else
      clearDKG ext s >>= fun s =>
      let s := s.setDKGRound nextRound
      let crs := ext.keccak256 newSignedCRS
      let s := ((s.setCRS crs).setCRSRound nextRound).addLog (.crsProposed nextRound crs)
      let s := (s.incDKGResetCount nextRound).addLog (.dkgReset round blockHeight)
      .ok (db.setGovernance s)
  | _ => .error .executionReverted

def updateConfiguration (cfg : RawConfig) (db : StateDB) : Except VmError StateDB :=
  let s := db.governance
  if ctx.caller ≠ s.owner then .error .executionReverted else
  if cfg.minStake = 0 ∨ cfg.lockupPeriod = 0 ∨ cfg.blockGasLimit = 0 ∨ cfg.minGasPrice = 0 ∨
      cfg.lambdaBA = 0 ∨ cfg.lambdaDKG = 0 ∨ cfg.roundLength = 0 ∨ cfg.minBlockInterval = 0 then
    .error .executionReverted else
  .ok (db.setGovernance ((s.updateConfigurationRaw cfg).addLog .configurationChanged))

end GovernanceContract

end Tangerine.Core.Vm
