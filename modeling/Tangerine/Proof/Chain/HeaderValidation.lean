import Tangerine.Core.HeaderChain
import Tangerine.Library.Transition

/-! What the validation of Tangerine headers establishes, and where it panics. -/

namespace Tangerine.Proof.HeaderValidation

open Tangerine.Common Tangerine.Core Tangerine.Core.HeaderChain Tangerine.Library

/-- What an accepted header satisfies, against its decoded block and its round's state. -/
structure HeaderValid (ext : ChainExternals) (header : Header) (coreBlock : CoreBlock)
    (state : RoundState) : Prop where
  notBad : ext.badHashes (ext.headerHash header) = false
  difficulty : header.difficulty = 1
  decoded : ext.decodeCoreBlock header.dexconMeta = .ok coreBlock
  fetched : ext.getConfigState header.round = .ok state
  coinbase : if coreBlock.isEmpty then header.coinbase = 0
    else state.nodeOwner coreBlock.proposerID = .ok header.coinbase
  time : header.time = coreBlock.timestamp / 1000000
  number : header.numberUint64 = coreBlock.height
  randomness : header.randomness = coreBlock.randomness
  round : header.round = coreBlock.round
  gasLimit : header.gasLimit = state.blockGasLimit

/-- `verifyTSig` comes to an answer, of whichever kind, rather than panicking. -/
def TSigDecided (ext : ChainExternals) (coreBlock : CoreBlock) : Prop :=
  coreBlock.round = 0 ∨ ∃ verifier, ext.updateAndGet coreBlock.round = .ok (some verifier)

/-- Each header of a chain has the next 64-bit number and the previous header's hash as parent. -/
def Linked (ext : ChainExternals) (chain : List Header) : Prop :=
  chain.IsChain fun previous header =>
    header.numberUint64 = (previous.numberUint64 + 1) % 2 ^ 64 ∧
      header.parentHash = ext.headerHash previous

/-- A nonempty block's witness: accepted below the chain, the hash there inside it. -/
def WitnessHolds (ext : ChainExternals) (chain : List Header) (first : Header)
    (coreBlock : CoreBlock) : Prop :=
  ∃ witnessBlockHash, ext.decodeWitnessHash coreBlock.witness.data = .ok witnessBlockHash ∧
    if witnessIndex coreBlock first < 0 then
      ext.validateWitnessData coreBlock.witness.height witnessBlockHash = none
    else ∃ witnessed, chain[(witnessIndex coreBlock first).toNat]? = some witnessed ∧
      ext.headerHash witnessed = witnessBlockHash

/-- The same externals, with each round's verifier, where one can be had, replaced. -/
def withVerifiers (ext : ChainExternals) (verifiers : Nat → TSigVerifier) : ChainExternals :=
  { ext with
    updateAndGet := fun round => (ext.updateAndGet round).map (Option.map fun _ => verifiers round) }

variable {ext : ChainExternals}

/-! ### One header -/

/-- A header's `DexconMeta` decodes to one block only. -/
theorem HeaderValid.block_eq {header : Header} {block coreBlock : CoreBlock} {state : RoundState}
    (valid : HeaderValid ext header block state)
    (decoded : ext.decodeCoreBlock header.dexconMeta = .ok coreBlock) : block = coreBlock :=
  Except.ok.inj (valid.decoded.symm.trans decoded)

theorem state_eq_ok {round : Nat} {state : RoundState} :
    HeaderChain.state ext round = .ok state ↔ ext.getConfigState round = .ok state := by
  unfold HeaderChain.state
  cases ext.getConfigState round <;> simp

theorem getNodeOwnerByID_eq_ok {round : Nat} {id : NodeID} {owner : Address} :
    getNodeOwnerByID ext round id = .ok owner ↔
      ∃ state, ext.getConfigState round = .ok state ∧ state.nodeOwner id = .ok owner := by
  simp only [getNodeOwnerByID, except_bind_eq_ok, state_eq_ok]
  refine exists_congr fun state => and_congr_right fun _ => ?_
  cases state.nodeOwner id <;> simp

theorem configuration_eq_ok {round blockGasLimit : Nat} :
    configuration ext round = .ok blockGasLimit ↔
      ∃ state, ext.getConfigState round = .ok state ∧ state.blockGasLimit = blockGasLimit := by
  simp only [configuration, except_bind_eq_ok, state_eq_ok, Except.ok.injEq]

/-- The logged signature check lets the validation go on exactly when it does not panic. -/
theorem logDebug_verifyTSig_eq_ok {coreBlock : CoreBlock} :
    logDebug (verifyTSig ext coreBlock) = .ok () ↔ TSigDecided ext coreBlock := by
  unfold verifyTSig TSigDecided
  by_cases genesis : coreBlock.round = 0
  · simp [genesis, logDebug]
  · simp only [genesis, if_false, false_or]
    cases ext.updateAndGet coreBlock.round with
    | error err => simp [logDebug]
    | ok found =>
        cases found with
        | none => simp [logDebug]
        | some verifier =>
            -- accepted or not, the signature leaves the validation going
            cases accepted : verifier coreBlock.hash coreBlock.randomness <;>
              simp [accepted, logDebug]

theorem checkCoinbase_eq_ok {header : Header} {coreBlock : CoreBlock} :
    checkCoinbase ext header coreBlock = .ok () ↔
      if coreBlock.isEmpty then header.coinbase = 0
      else ∃ state, ext.getConfigState header.round = .ok state ∧
        state.nodeOwner coreBlock.proposerID = .ok header.coinbase := by
  unfold checkCoinbase
  cases coreBlock.isEmpty
  · simp only [Bool.false_eq_true, if_false, except_bind_eq_ok, getNodeOwnerByID_eq_ok,
      except_ite_error_eq_ok, not_not]
    constructor
    · rintro ⟨owner, ⟨state, fetched, owned⟩, rfl, -⟩
      exact ⟨state, fetched, owned⟩
    · rintro ⟨state, fetched, owned⟩
      exact ⟨header.coinbase, ⟨state, fetched, owned⟩, rfl, trivial⟩
  · simp

/-- The owner check reads the round's state, which is the one the gas limit is read from. -/
theorem coinbase_iff_of_fetched {header : Header} {coreBlock : CoreBlock} {state : RoundState}
    (fetched : ext.getConfigState header.round = .ok state) :
    (if coreBlock.isEmpty then header.coinbase = 0
      else ∃ state, ext.getConfigState header.round = .ok state ∧
        state.nodeOwner coreBlock.proposerID = .ok header.coinbase) ↔
    (if coreBlock.isEmpty then header.coinbase = 0
      else state.nodeOwner coreBlock.proposerID = .ok header.coinbase) := by
  cases coreBlock.isEmpty <;> simp [fetched]

/-- What `verifyTangerineHeader` accepts: a valid header whose signature check, if made, decides. -/
theorem verifyTangerineHeader_eq_ok {header : Header} {verify : Bool} :
    verifyTangerineHeader ext header verify = .ok () ↔
      ∃ coreBlock state, HeaderValid ext header coreBlock state ∧
        (verify = true → TSigDecided ext coreBlock) := by
  unfold verifyTangerineHeader
  cases decoded : ext.decodeCoreBlock header.dexconMeta with
  | error err =>
      simp only [except_ite_error_eq_ok, reduceCtorEq, and_false, false_iff, not_exists,
        not_and]
      intro coreBlock state valid
      exact absurd (valid.decoded.symm.trans decoded) (by simp)
  | ok coreBlock =>
      have flagged : (if verify then logDebug (verifyTSig ext coreBlock) else .ok ()) = .ok () ↔
          (verify = true → TSigDecided ext coreBlock) := by
        cases verify <;> simp [logDebug_verifyTSig_eq_ok]
      simp only [except_ite_error_eq_ok, except_check_bind_eq_ok, flagged, checkCoinbase_eq_ok]
      simp only [except_bind_eq_ok, configuration_eq_ok, except_ite_error_eq_ok, not_not,
        and_true, Bool.not_eq_true]
      constructor
      · rintro ⟨notBad, difficulty, tsig, coinbase, time, number, randomness, round, _,
          ⟨state, fetched, rfl⟩, gasLimit⟩
        exact ⟨coreBlock, state, ⟨notBad, difficulty, decoded, fetched,
          (coinbase_iff_of_fetched fetched).mp coinbase, time, number, randomness, round,
          gasLimit⟩, tsig⟩
      · rintro ⟨block, state, valid, tsig⟩
        obtain rfl := valid.block_eq decoded
        exact ⟨valid.notBad, valid.difficulty, tsig,
          (coinbase_iff_of_fetched valid.fetched).mpr valid.coinbase, valid.time, valid.number,
          valid.randomness, valid.round, _, ⟨state, valid.fetched, rfl⟩, valid.gasLimit⟩

/-! ### A chain -/

theorem checkLinked_eq_ok {previous header : Header} :
    checkLinked ext (previous, header) = .ok () ↔
      header.numberUint64 = (previous.numberUint64 + 1) % 2 ^ 64 ∧
        header.parentHash = ext.headerHash previous := by
  simp [checkLinked, not_or]

/-- The ancestry loop passes exactly on a linked chain. -/
theorem forM_checkLinked_eq_ok {chain : List Header} :
    (chain.zip chain.tail).forM (checkLinked ext) = .ok () ↔ Linked ext chain := by
  rw [except_forM_eq_ok]
  induction chain with
  | nil => simp [Linked]
  | cons previous rest inductionHypothesis =>
      cases rest with
      | nil => simp [Linked]
      | cons header rest =>
          -- the loop's first pair, then the loop on the rest of the chain
          simp only [List.tail_cons, List.zip_cons_cons, List.forall_mem_cons] at inductionHypothesis ⊢
          rw [checkLinked_eq_ok, Linked, List.isChain_cons_cons, ← Linked, inductionHypothesis]

theorem validateWitnessData_eq_ok {height : Nat} {witnessBlockHash : Hash} :
    HeaderChain.validateWitnessData ext height witnessBlockHash = .ok () ↔
      ext.validateWitnessData height witnessBlockHash = none := by
  unfold HeaderChain.validateWitnessData
  cases ext.validateWitnessData height witnessBlockHash <;> simp

theorem checkWitness_eq_ok {chain : List Header} {first : Header} {coreBlock : CoreBlock} :
    checkWitness ext chain first coreBlock = .ok () ↔ WitnessHolds ext chain first coreBlock := by
  simp only [checkWitness, HeaderChain.decodeWitnessHash, except_bind_eq_ok,
    except_mapError_eq_ok, WitnessHolds]
  refine exists_congr fun witnessBlockHash => and_congr_right fun _ => ?_
  by_cases below : witnessIndex coreBlock first < 0
  · rw [if_pos below, if_pos below, validateWitnessData_eq_ok]
  · rw [if_neg below, if_neg below]
    cases chain[(witnessIndex coreBlock first).toNat]? <;> simp [eq_comm]

/-- One iteration of the header loop passes exactly when each of its checks does. -/
theorem checkHeader_eq_ok {chain : List Header} {first header : Header} {verify : Bool}
    {index : Nat} :
    checkHeader ext chain first verify (header, index) = .ok () ↔
      ext.procInterrupt = false ∧
      (index = 0 → ext.hasHeader header.parentHash header.parentNumber = true) ∧
      verifyTangerineHeader ext header verify = .ok () ∧
      ∃ coreBlock, ext.decodeCoreBlock header.dexconMeta = .ok coreBlock ∧
        (coreBlock.isEmpty = false → WitnessHolds ext chain first coreBlock) := by
  simp only [checkHeader, except_ite_error_eq_ok, Bool.not_eq_true, except_mapError_eq_ok,
    except_check_bind_eq_ok, not_and, Bool.not_eq_eq_eq_not, Bool.not_true, Bool.not_eq_false]
  simp only [except_bind_eq_ok, decodeDexconMeta, except_mapError_eq_ok]
  refine and_congr_right fun _ => and_congr_right fun _ => and_congr_right fun _ =>
    exists_congr fun coreBlock => and_congr_right fun _ => ?_
  cases coreBlock.isEmpty <;> simp [checkWitness_eq_ok]

/-! ### Headers of round one -/

/-- The owner of every node. -/
def proposerOwner : Address := 0x4#160

/-- A round-one block proposed by a node, with randomness `[7]`, witnessing height zero. -/
def roundOneBlock : CoreBlock := ⟨⟨0x5#256⟩, 0x9#256, 1, 1, 0, [7], ⟨0, []⟩⟩

/-- A header of height one that carries `roundOneBlock` and agrees with it. -/
def roundOneHeader : Header := ⟨0x2#256, proposerOwner, 1, 1, 10, 0, 1, [7], [1]⟩

/-- Externals that decode every `DexconMeta` to `roundOneBlock` and accept every signature. -/
def signingExternals : ChainExternals where
  headerHash := fun _ => 0x3#256
  badHashes := fun _ => false
  decodeCoreBlock := fun _ => .ok roundOneBlock
  decodeWitnessHash := fun _ => .ok 0#256
  getConfigState := fun _ => .ok ⟨fun _ => .ok proposerOwner, 10⟩
  updateAndGet := fun _ => .ok (some fun _ _ => true)
  procInterrupt := false
  hasHeader := fun _ _ => true
  validateWitnessData := fun _ _ => none

/-- The same, with a verifier that rejects every signature. -/
def rejectingExternals : ChainExternals :=
  { signingExternals with updateAndGet := fun _ => .ok (some fun _ _ => false) }

/-- What `ValidateTangerineHeaderChain` establishes when it returns `(0, nil)`. -/
theorem validateTangerineHeaderChain_sound {chain : List Header}
    (accepted : validateTangerineHeaderChain ext chain = .ok ()) :
    Linked ext chain ∧ ∃ first ∈ chain.head?,
      ext.hasHeader first.parentHash first.parentNumber = true ∧
      ∀ header ∈ chain, ∃ coreBlock state, HeaderValid ext header coreBlock state ∧
        (coreBlock.isEmpty = false → WitnessHolds ext chain first coreBlock) := by
  simp only [validateTangerineHeaderChain, except_check_bind_eq_ok, except_mapError_eq_ok,
    forM_checkLinked_eq_ok] at accepted
  obtain ⟨linked, checked⟩ := accepted
  refine ⟨linked, ?_⟩
  cases chain with
  | nil => simp at checked
  | cons first rest =>
      simp only [List.head?_cons, List.getLast?_cons, except_bind_eq_ok] at checked
      obtain ⟨verify, -, loop⟩ := checked
      -- every header passed its iteration of the loop
      have passed : ∀ header index, (first :: rest)[index]? = some header →
          checkHeader ext (first :: rest) first verify (header, index) = .ok () := by
        intro header index found
        exact except_forM_eq_ok.mp loop _ (List.mk_mem_zipIdx_iff_getElem?.mpr found)
      refine ⟨first, rfl, (checkHeader_eq_ok.mp (passed first 0 rfl)).2.1 rfl, ?_⟩
      intro header member
      obtain ⟨index, found⟩ := List.mem_iff_getElem?.mp member
      obtain ⟨-, -, verified, coreBlock, decoded, witness⟩ := checkHeader_eq_ok.mp (passed _ _ found)
      obtain ⟨block, state, valid, -⟩ := verifyTangerineHeader_eq_ok.mp verified
      obtain rfl := valid.block_eq decoded
      exact ⟨block, state, valid, witness⟩

theorem validateTangerineHeaderChain_sound_roundOne :
    validateTangerineHeaderChain signingExternals [roundOneHeader] = .ok () ∧
      (Linked signingExternals [roundOneHeader] ∧ ∃ first ∈ [roundOneHeader].head?,
        signingExternals.hasHeader first.parentHash first.parentNumber = true ∧
        ∀ header ∈ [roundOneHeader], ∃ coreBlock state,
          HeaderValid signingExternals header coreBlock state ∧
          (coreBlock.isEmpty = false → WitnessHolds signingExternals [roundOneHeader] first coreBlock)) :=
  have accepted : validateTangerineHeaderChain signingExternals [roundOneHeader] = .ok () := rfl
  ⟨accepted, validateTangerineHeaderChain_sound accepted⟩

/-! ### What the signatures decide -/

section Verifiers

variable (verifiers : Nat → TSigVerifier)

/-- Replacing the verifiers changes what `verifyTSig` answers, never whether it panics. -/
theorem logDebug_verifyTSig_withVerifiers (coreBlock : CoreBlock) :
    logDebug (verifyTSig (withVerifiers ext verifiers) coreBlock) =
      logDebug (verifyTSig ext coreBlock) := by
  unfold verifyTSig withVerifiers
  by_cases genesis : coreBlock.round = 0
  · simp [genesis]
  · simp only [genesis, if_false]
    cases ext.updateAndGet coreBlock.round with
    | error err => rfl
    | ok found =>
        cases found with
        | none => rfl
        | some verifier =>
            -- both answers are logged and dropped
            cases replaced : verifiers coreBlock.round coreBlock.hash coreBlock.randomness <;>
              cases answered : verifier coreBlock.hash coreBlock.randomness <;>
              simp [Except.map, replaced, answered, logDebug]

theorem verifyTangerineHeader_withVerifiers (header : Header) (verify : Bool) :
    verifyTangerineHeader (withVerifiers ext verifiers) header verify =
      verifyTangerineHeader ext header verify := by
  unfold verifyTangerineHeader
  simp only [logDebug_verifyTSig_withVerifiers]
  rfl

theorem checkHeader_withVerifiers (chain : List Header) (first : Header) (verify : Bool) :
    checkHeader (withVerifiers ext verifiers) chain first verify =
      checkHeader ext chain first verify := by
  funext entry
  unfold checkHeader
  simp only [verifyTangerineHeader_withVerifiers]
  rfl

/-- The threshold signatures decide nothing: both entry points ignore every verifier's answer. -/
theorem validation_ignores_signatures (chain : List Header) (header : Header) :
    validateTangerineHeaderChain (withVerifiers ext verifiers) chain =
        validateTangerineHeaderChain ext chain ∧
      VerifyTangerineHeader (withVerifiers ext verifiers) header =
        VerifyTangerineHeader ext header := by
  constructor
  · unfold validateTangerineHeaderChain
    simp only [verifyTangerineHeader_withVerifiers, checkHeader_withVerifiers]
    rfl
  · unfold VerifyTangerineHeader
    simp only [verifyTangerineHeader_withVerifiers]
    rfl

end Verifiers

/-- A round-one header whose randomness the round's verifier rejects is accepted. -/
theorem forged_randomness_accepted :
    rejectingExternals.decodeCoreBlock roundOneHeader.dexconMeta = .ok roundOneBlock ∧
      0 < roundOneBlock.round ∧ roundOneHeader.randomness = roundOneBlock.randomness ∧
      verifyTSig rejectingExternals roundOneBlock = .error (.failed "signature invalid") ∧
      validateTangerineHeaderChain rejectingExternals [roundOneHeader] = .ok () ∧
      VerifyTangerineHeader rejectingExternals roundOneHeader = .ok () :=
  ⟨rfl, by decide, rfl, rfl, rfl, rfl⟩

/-! ### Panics on peer input -/

/-- The witness index is the difference of the heights while that fits in a signed 64 bits. -/
theorem witnessIndex_eq {coreBlock : CoreBlock} {first : Header}
    (above : first.numberUint64 ≤ coreBlock.witness.height)
    (within : coreBlock.witness.height < first.numberUint64 + 2 ^ 63) :
    witnessIndex coreBlock first = (coreBlock.witness.height - first.numberUint64 : Nat) := by
  unfold witnessIndex int64
  rw [Int.bmod_sub_bmod, Int.sub_bmod_bmod, Nat.cast_sub above]
  apply Int.bmod_eq_of_le <;> push_cast <;> omega

/-- A witness height past the chain, within `2^63` of its first number, indexes past it. -/
theorem checkWitness_beyond_chain {chain : List Header} {first : Header} {coreBlock : CoreBlock}
    {witnessBlockHash : Hash}
    (decoded : ext.decodeWitnessHash coreBlock.witness.data = .ok witnessBlockHash)
    (beyond : first.numberUint64 + chain.length ≤ coreBlock.witness.height)
    (within : coreBlock.witness.height < first.numberUint64 + 2 ^ 63) :
    checkWitness ext chain first coreBlock = .error (.panic "index out of range") := by
  have index := witnessIndex_eq (by omega) within
  have past : chain[coreBlock.witness.height - first.numberUint64]? = none := by
    apply List.getElem?_eq_none
    omega
  simp [checkWitness, HeaderChain.decodeWitnessHash, Except.mapError, decoded, index, past]

/-- The first header, accepted on its own, panics on a witness past the chain. -/
theorem checkHeader_first_beyond_chain {first : Header} {rest : List Header}
    {coreBlock : CoreBlock} {state : RoundState} {witnessBlockHash : Hash} (verify : Bool)
    (running : ext.procInterrupt = false)
    (known : ext.hasHeader first.parentHash first.parentNumber = true)
    (valid : HeaderValid ext first coreBlock state) (decided : TSigDecided ext coreBlock)
    (nonempty : coreBlock.isEmpty = false)
    (witness : ext.decodeWitnessHash coreBlock.witness.data = .ok witnessBlockHash)
    (beyond : first.numberUint64 + (rest.length + 1) ≤ coreBlock.witness.height)
    (within : coreBlock.witness.height < first.numberUint64 + 2 ^ 63) :
    checkHeader ext (first :: rest) first verify (first, 0) =
      .error (0, .panic "index out of range") := by
  have verified : verifyTangerineHeader ext first verify = .ok () :=
    verifyTangerineHeader_eq_ok.mpr ⟨coreBlock, state, valid, fun _ => decided⟩
  have panicked : checkWitness ext (first :: rest) first coreBlock =
      .error (.panic "index out of range") := checkWitness_beyond_chain witness beyond within
  simp [checkHeader, running, known, verified, decodeDexconMeta, Except.mapError, valid.decoded,
    nonempty, panicked]

/-- `roundOneBlock`, witnessing height two. -/
def beyondBlock : CoreBlock := { roundOneBlock with witness := ⟨2, []⟩ }

/-- Externals under which every `DexconMeta` decodes to `beyondBlock`. -/
def beyondExternals : ChainExternals :=
  { signingExternals with decodeCoreBlock := fun _ => .ok beyondBlock }

theorem beyondValid :
    HeaderValid beyondExternals roundOneHeader beyondBlock ⟨fun _ => .ok proposerOwner, 10⟩ :=
  ⟨rfl, rfl, rfl, rfl, rfl, rfl, rfl, rfl, rfl, rfl⟩

/-- `ValidateTangerineHeaderChain` panics on a witness past the chain within `2^63`. -/
theorem validateTangerineHeaderChain_witness_panics {first : Header} {rest : List Header}
    {coreBlock : CoreBlock} {state : RoundState} {witnessBlockHash : Hash}
    (linked : Linked ext (first :: rest)) (running : ext.procInterrupt = false)
    (known : ext.hasHeader first.parentHash first.parentNumber = true)
    (valid : HeaderValid ext first coreBlock state) (decided : TSigDecided ext coreBlock)
    (nonempty : coreBlock.isEmpty = false)
    (witness : ext.decodeWitnessHash coreBlock.witness.data = .ok witnessBlockHash)
    (beyond : first.numberUint64 + (rest.length + 1) ≤ coreBlock.witness.height)
    (within : coreBlock.witness.height < first.numberUint64 + 2 ^ 63) :
    ∃ message, validateTangerineHeaderChain ext (first :: rest) = .error (0, .panic message) := by
  have ancestry : ((first :: rest).zip (first :: rest).tail).forM (checkLinked ext) = .ok () :=
    forM_checkLinked_eq_ok.mpr linked
  have looped : ∀ verify, (first :: rest).zipIdx.forM (checkHeader ext (first :: rest) first verify) =
      .error (0, .panic "index out of range") := by
    intro verify
    simp [List.zipIdx_cons, checkHeader_first_beyond_chain verify running known valid decided
      nonempty witness beyond within]
  simp only [validateTangerineHeaderChain, ancestry, Except.mapError, List.head?_cons,
    List.getLast?_cons]
  -- the check of the last header panics first, or settles the flag the loop runs with
  cases last : verifyTangerineHeader ext (rest.getLast?.getD first) true with
  | ok => exact ⟨"index out of range", by simp only [except_bind_ok, looped]⟩
  | error err =>
      cases err
      case panic message => exact ⟨message, by simp only [except_bind_ok, except_bind_error]⟩
      all_goals exact ⟨"index out of range", by simp only [except_bind_ok, looped]⟩

/-- A chain of one header of height one whose block witnesses height two. -/
theorem validateTangerineHeaderChain_witness_panics_roundOne :
    ∃ message, validateTangerineHeaderChain beyondExternals [roundOneHeader] =
      .error (0, .panic message) :=
  validateTangerineHeaderChain_witness_panics (List.IsChain.singleton _) rfl rfl beyondValid
    (Or.inr ⟨_, rfl⟩) rfl (rfl : beyondExternals.decodeWitnessHash [] = .ok 0#256) (by decide)
    (by decide)

end Tangerine.Proof.HeaderValidation
