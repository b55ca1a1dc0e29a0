import Tangerine.Dex.Payload

/-! Whether a block that `preparePayload` fills passes `VerifyBlock` against the same state. -/

namespace Tangerine.Proof.Payloads

open Tangerine.Common Tangerine.Core Tangerine.Core.Vm Tangerine.Dex

/-- The pool content the agreement is claimed for. -/
def PoolAdmissible (ext : PayloadExternals) (config : RawConfig)
    (pending : List (Address × List PoolTransaction)) : Prop :=
  (pending.map Prod.fst).Nodup ∧
    ∀ entry ∈ pending,
      (∀ tx ∈ entry.2, ext.sender tx = .ok entry.1 ∧ tx.gasLimit ≤ config.blockGasLimit) ∧
      entry.2.IsChain fun tx next => next.nonce = tx.nonce + 1

/-! ### A sender with two transactions of gas `2 ^ 63` -/

def payer : Address := 0xa#160

def payee : Address := 0xb#160

/-- A transfer of nothing to `payee` at price one with gas `2 ^ 63`. -/
def wrappingTransaction (nonce : Fin 2) : PoolTransaction where
  nonce := nonce
  gasLimit := 2 ^ 63
  price := 1
  amount := 0
  recipient := some payee
  data := []
  gasFits := by decide
  nonceFits := by omega

/-- A round whose minimum price is one and whose block gas limit is `2 ^ 63`. -/
def wideConfig : RawConfig where
  minStake := 1
  lockupPeriod := 1
  blockGasLimit := 2 ^ 63
  minGasPrice := 1
  lambdaBA := 1
  lambdaDKG := 1
  notaryParamAlpha := 0
  notaryParamBeta := 0
  roundLength := 1
  minBlockInterval := 1
  fineValues := []

/-- The delivered state: `payer` holds `2 ^ 65` and has sent nothing. -/
def payerState : AccountState where
  balance := fun addr => if addr = payer then 2 ^ 65 else 0
  nonce := fun _ => 0

/-- A chain at height zero whose every transaction is signed by `payer`. -/
def wrappingExternals : PayloadExternals where
  sender := fun _ => .ok payer
  encodeTransactions := fun txs => txs.map fun tx => UInt8.ofNat tx.nonce
  decodeTransactions := fun bytes => bytes.mapM fun byte =>
    if byte = 0 then .ok (wrappingTransaction 0)
    else if byte = 1 then .ok (wrappingTransaction 1)
    else .error "rlp: expected input list"
  decodeWitnessHash := fun _ => .ok 0
  rawConfiguration := fun _ => .ok wideConfig
  currentHeight := 0
  blockHash := fun _ => some 0
  stateAt := fun _ => some payerState

def wrappingPool : List (Address × List PoolTransaction) :=
  [(payer, [wrappingTransaction 0, wrappingTransaction 1])]

/-- The block at height one that carries the proposer's payload, witnessing the genesis. -/
def wrappingBlock : ProposedBlock := ⟨0, 1, ⟨0, []⟩, [0, 1]⟩

theorem wrappingPool_admissible : PoolAdmissible wrappingExternals wideConfig wrappingPool := by
  refine ⟨by decide, ?_⟩
  intro entry member
  simp only [wrappingPool, List.mem_singleton] at member
  subst member
  refine ⟨?_, ?_⟩
  · intro tx member
    simp only [List.mem_cons, List.not_mem_nil, or_false] at member
    rcases member with rfl | rfl <;> exact ⟨rfl, le_refl _⟩
  · simp [wrappingTransaction]

theorem wrapped_gas_payload_rejected :
    PoolAdmissible wrappingExternals wideConfig wrappingPool ∧
      (newDexconApp 0).preparePayload wrappingExternals 0 1 (fun _ => false) wrappingPool =
        .ok wrappingBlock.payload ∧
      (newDexconApp 0).verifyBlock wrappingExternals wrappingBlock = .verifyInvalidBlock :=
  ⟨wrappingPool_admissible, by decide, by decide⟩

end Tangerine.Proof.Payloads
