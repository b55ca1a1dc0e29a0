import Tangerine.Common.Types

/-! Validation of Tangerine headers (`core/headerchain.go`). -/

namespace Tangerine.Core

open Tangerine.Common

/-- `types.Header`, with the fields the validation reads. -/
structure Header where
  parentHash : Hash
  coinbase : Address
  difficulty : Nat
  number : Nat
  gasLimit : Nat
  time : Nat
  round : Nat
  randomness : Bytes
  dexconMeta : Bytes
deriving DecidableEq, Repr

/-- `Number.Uint64()`: the low 64 bits of the number. -/
def Header.numberUint64 (header : Header) : Nat := header.number % 2 ^ 64

/-- `Number.Uint64()-1`, the parent's number, which wraps to `2^64 - 1` below zero. -/
def Header.parentNumber (header : Header) : Nat := (header.numberUint64 + (2 ^ 64 - 1)) % 2 ^ 64

/-- `coreTypes.Witness`. -/
structure Witness where
  height : Nat
  data : Bytes
deriving DecidableEq, Repr

/-- `coreTypes.Block` decoded from a `DexconMeta`; `Timestamp` in nanoseconds. -/
structure CoreBlock where
  proposerID : NodeID
  hash : Hash
  round : Nat
  height : Nat
  timestamp : Nat
  randomness : Bytes
  witness : Witness
deriving DecidableEq, Repr

/-- `Block.IsEmpty`: an empty block has no proposer. -/
def CoreBlock.isEmpty (block : CoreBlock) : Bool := decide (block.proposerID.hash = 0)

/-- A round's `TSigVerifier`: `VerifySignature` of a hash and a BLS signature. -/
abbrev TSigVerifier := Hash → Bytes → Bool

/-- What the validation reads of the governance state `GetConfigState` gives for a round. -/
structure RoundState where
  /-- The `Owner` of `GetNodeByID`, or its error. -/
  nodeOwner : NodeID → Except String Address
  /-- `Configuration().BlockGasLimit`. -/
  blockGasLimit : Nat

/-- What the validation takes from outside. -/
structure ChainExternals where
  /-- `Header.Hash`. -/
  headerHash : Header → Hash
  /-- `BadHashes`. -/
  badHashes : Hash → Bool
  /-- `rlp.DecodeBytes` of a `DexconMeta`. -/
  decodeCoreBlock : Bytes → Except String CoreBlock
  /-- `rlp.DecodeBytes` of witness data into a hash. -/
  decodeWitnessHash : Bytes → Except String Hash
  /-- `GovernanceStateFetcher.GetConfigState`. -/
  getConfigState : Nat → Except String RoundState
  /-- `TSigVerifierCache.UpdateAndGet`: its error, or the verifier once the DKG is finished. -/
  updateAndGet : Nat → Except String (Option TSigVerifier)
  /-- `HeaderChain.procInterrupt`. -/
  procInterrupt : Bool
  /-- `HeaderChain.GetHeader` finds a header of this hash and number. -/
  hasHeader : Hash → Nat → Bool
  /-- `Validator.ValidateWitnessData`: its error, if any. -/
  validateWitnessData : Nat → Hash → Option String

/-- How a validation ends without accepting: an error it returns, or a panic. -/
inductive ChainError where
  /-- `consensus.ErrUnknownAncestor`. -/
  | unknownAncestor
  /-- `ErrBlacklistedHash`. -/
  | blacklistedHash
  /-- `consensus.ErrWitnessMismatch`. -/
  | witnessMismatch
  | failed (message : String)
  | panic (message : String)
deriving DecidableEq, Repr

namespace HeaderChain

variable (ext : ChainExternals)

/-- `headerVerifierCache.state`: failing to fetch a round's state panics. -/
def state (round : Nat) : Except ChainError RoundState :=
  match ext.getConfigState round with
  | .ok state => .ok state
  | .error err => .error (.panic err)

/-- `headerVerifierCache.getNodeOwnerByID`. -/
def getNodeOwnerByID (round : Nat) (id : NodeID) : Except ChainError Address :=
  state ext round >>= fun state =>
  match state.nodeOwner id with
  | .ok owner => .ok owner
  | .error err => .error (.failed err)

/-- `headerVerifierCache.configuration`, of which the validation reads `BlockGasLimit`. -/
def configuration (round : Nat) : Except ChainError Nat :=
  state ext round >>= fun state => .ok state.blockGasLimit

/-- `HeaderChain.verifyTSig`: a round whose verifier cannot be had panics. -/
def verifyTSig (coreBlock : CoreBlock) : Except ChainError Unit :=
  let round := coreBlock.round
  let randomness := coreBlock.randomness
  if round = 0 then .ok () else
  match ext.updateAndGet round with
  | .error err => .error (.panic err)
  | .ok none => .error (.panic ("DKG of round " ++ toString round ++ " is not finished"))
  | .ok (some v) => if !v coreBlock.hash randomness then .error (.failed "signature invalid") else .ok ()

/-- `log.Debug` of a returned error: the validation goes on. A panic still ends it. -/
def logDebug (result : Except ChainError Unit) : Except ChainError Unit :=
  match result with
  | .error (.panic message) => .error (.panic message)
  | _ => .ok ()

/-- The coinbase check of `verifyTangerineHeader`. -/
def checkCoinbase (header : Header) (coreBlock : CoreBlock) : Except ChainError Unit :=
  if coreBlock.isEmpty then
    if header.coinbase ≠ 0 then .error (.failed "coinbase should be nil for empty block") else .ok ()
  else
    getNodeOwnerByID ext header.round coreBlock.proposerID >>= fun owner =>
    if header.coinbase ≠ owner then .error (.failed "coinbase mismatch") else .ok ()

/-- `HeaderChain.verifyTangerineHeader`. The error `verifyTSig` returns is only logged. -/
def verifyTangerineHeader (header : Header) (verifyTSig : Bool) : Except ChainError Unit :=
  if ext.badHashes (ext.headerHash header) then .error .blacklistedHash else
  if header.difficulty ≠ 1 then .error (.failed "difficulty should be 1") else
  match ext.decodeCoreBlock header.dexconMeta with
  | .error err => .error (.failed
      ("decode dexcon meta fail, number=" ++ toString header.numberUint64 ++ ", err=" ++ err))
  | .ok coreBlock =>
  (if verifyTSig then logDebug (HeaderChain.verifyTSig ext coreBlock) else .ok ()) >>= fun _ =>
  checkCoinbase ext header coreBlock >>= fun _ =>
  if header.time ≠ coreBlock.timestamp / 1000000 then .error (.failed "timestamp mismatch") else
  if header.numberUint64 ≠ coreBlock.height then .error (.failed "height mismatch") else
  if header.randomness ≠ coreBlock.randomness then .error (.failed "randomness mismatch") else
  if header.round ≠ coreBlock.round then .error (.failed "round mismatch") else
  configuration ext header.round >>= fun blockGasLimit =>
  if header.gasLimit ≠ blockGasLimit then .error (.failed "block gas limit mismatch") else .ok ()

/-- `rlp.DecodeBytes` of a header's `DexconMeta`, its error returned as it is. -/
def decodeDexconMeta (header : Header) : Except ChainError CoreBlock :=
  (ext.decodeCoreBlock header.dexconMeta).mapError .failed

/-- `rlp.DecodeBytes` of a block's witness data. -/
def decodeWitnessHash (coreBlock : CoreBlock) : Except ChainError Hash :=
  (ext.decodeWitnessHash coreBlock.witness.data).mapError .failed

/-- `Validator.ValidateWitnessData`, its error returned. -/
def validateWitnessData (height : Nat) (witnessBlockHash : Hash) : Except ChainError Unit :=
  match ext.validateWitnessData height witnessBlockHash with
  | some err => .error (.failed err)
  | none => .ok ()

/-- `HeaderChain.VerifyTangerineHeader`, for one block of `insertTangerineChain`. -/
def VerifyTangerineHeader (header : Header) : Except ChainError Unit :=
  if !ext.hasHeader header.parentHash header.parentNumber then .error .unknownAncestor else
  verifyTangerineHeader ext header true >>= fun _ =>
  decodeDexconMeta ext header >>= fun coreBlock =>
  if !coreBlock.isEmpty then
    decodeWitnessHash ext coreBlock >>= fun witnessBlockHash =>
    validateWitnessData ext coreBlock.witness.height witnessBlockHash
  else .ok ()

/-- One step of the ancestry check of `ValidateTangerineHeaderChain`. -/
def checkLinked (link : Header × Header) : Except ChainError Unit :=
  let (previous, header) := link
  if header.numberUint64 ≠ (previous.numberUint64 + 1) % 2 ^ 64 ∨
      header.parentHash ≠ ext.headerHash previous then
    .error (.failed "non contiguous insert")
  else .ok ()

/-- `int64(coreBlock.Witness.Height) - int64(chain[0].Number.Uint64())`, wrapping in 64 bits. -/
def witnessIndex (coreBlock : CoreBlock) (first : Header) : Int :=
  Int.bmod (int64 coreBlock.witness.height - int64 first.numberUint64) (2 ^ 64)

/-- The witness check of `ValidateTangerineHeaderChain`, which indexes the chain unchecked. -/
def checkWitness (chain : List Header) (first : Header) (coreBlock : CoreBlock) :
    Except ChainError Unit :=
  decodeWitnessHash ext coreBlock >>= fun witnessBlockHash =>
  let index := witnessIndex coreBlock first
  if index < 0 then validateWitnessData ext coreBlock.witness.height witnessBlockHash else
  match chain[index.toNat]? with
  | none => .error (.panic "index out of range")
  | some witnessed =>
    if witnessBlockHash ≠ ext.headerHash witnessed then .error .witnessMismatch else .ok ()

/-- One iteration of the header loop of `ValidateTangerineHeaderChain`. -/
def checkHeader (chain : List Header) (first : Header) (verifyTSig : Bool)
    (entry : Header × Nat) : Except (Nat × ChainError) Unit :=
  let (header, index) := entry
  if ext.procInterrupt then .error (0, .failed "aborted") else
  if index = 0 ∧ !ext.hasHeader header.parentHash header.parentNumber then
    .error (0, .unknownAncestor) else
  (verifyTangerineHeader ext header verifyTSig >>= fun _ =>
    decodeDexconMeta ext header >>= fun coreBlock =>
    if !coreBlock.isEmpty then checkWitness ext chain first coreBlock else .ok ()).mapError
    (index, ·)

/-- `HeaderChain.ValidateTangerineHeaderChain`: `.ok ()` is its `(0, nil)`. -/
def validateTangerineHeaderChain (chain : List Header) : Except (Nat × ChainError) Unit :=
  ((chain.zip chain.tail).forM (checkLinked ext)).mapError (0, ·) >>= fun _ =>
  match chain.head?, chain.getLast? with
  | some first, some last =>
    (match verifyTangerineHeader ext last true with
      | .ok () => .ok false
      | .error (.panic message) => .error (0, .panic message)
      | .error _ => .ok true) >>= fun verifyTSig =>
    chain.zipIdx.forM (checkHeader ext chain first verifyTSig)
  | _, _ => .error (0, .panic "index out of range")

end HeaderChain

end Tangerine.Core
