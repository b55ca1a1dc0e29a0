import Mathlib.Data.Finset.Insert
import Mathlib.Data.List.Sort
import Tangerine.Dex.Payload

/-! The price floors of the transaction pool (`core/tx_pool.go`, `core/tx_list.go`). -/

namespace Tangerine.Core

open Tangerine.Common Tangerine.Core.Vm Tangerine.Dex

/-- `priceHeap.Less`: the cheaper first, and of equal prices the higher nonce first. -/
def priceLess (a b : PoolTransaction) : Prop :=
  a.price < b.price ∨ (a.price = b.price ∧ b.nonce < a.nonce)

instance : DecidableRel priceLess := fun _ _ => inferInstanceAs (Decidable (_ ∨ _))

/-- The order the heap keeps: `a` comes out no later than `b`. -/
def pricedBefore (a b : PoolTransaction) : Prop := ¬ priceLess b a

instance : DecidableRel pricedBefore := fun _ _ => inferInstanceAs (Decidable (¬ _))

instance : Std.Total pricedBefore where
  total a b := by
    unfold pricedBefore priceLess
    omega

instance : IsTrans PoolTransaction pricedBefore where
  trans a b c := by
    unfold pricedBefore priceLess
    omega

/-- `priceHeap`: the transactions in the order `heap.Pop` gives them. -/
structure PriceHeap where
  items : List PoolTransaction
  sorted : items.Pairwise pricedBefore

namespace PriceHeap

/-- `heap.Push`. -/
def push (h : PriceHeap) (tx : PoolTransaction) : PriceHeap :=
  ⟨h.items.orderedInsert pricedBefore tx, h.sorted.orderedInsert tx _⟩

/-- `heap.Init` of the transactions gathered in some order. -/
def ofList (txs : List PoolTransaction) : PriceHeap :=
  ⟨txs.insertionSort pricedBefore, List.pairwise_insertionSort _ _⟩

end PriceHeap

/-- `txLookup`: the pool's transactions by hash. -/
abbrev TxLookup := AList fun _ : Hash => PoolTransaction

/-- `txPricedList`, without its pointer to `all`, which its methods take. -/
structure TxPricedList where
  items : PriceHeap
  stales : Int

/-- What the pool takes from outside. -/
structure PoolExternals where
  /-- `Transaction.Hash`. -/
  hash : PoolTransaction → Hash
  /-- `Transaction.Size`. -/
  size : PoolTransaction → Nat
  /-- `types.Sender(pool.signer, tx)`. -/
  sender : PoolTransaction → Except String Address
  /-- `pool.currentState.GetNonce`. -/
  getNonce : Address → Nat
  /-- `pool.currentState.GetBalance`. -/
  getBalance : Address → Nat
  /-- `pool.homestead`. -/
  homestead : Bool

/-- `accountSet`: the local accounts. -/
structure AccountSet where
  accounts : Finset Address

namespace AccountSet

/-- `contains`. -/
def contains (as : AccountSet) (addr : Address) : Bool := decide (addr ∈ as.accounts)

/-- `containsTx`: a transaction whose sender cannot be derived is not local. -/
def containsTx (ext : PoolExternals) (as : AccountSet) (tx : PoolTransaction) : Bool :=
  match ext.sender tx with
  | .ok addr => as.contains addr
  | .error _ => false

end AccountSet

namespace TxPricedList

variable (ext : PoolExternals) (all : TxLookup)

/-- `Put`. -/
def put (l : TxPricedList) (tx : PoolTransaction) : TxPricedList := { l with items := l.items.push tx }

/-- `Removed`: one more stale entry; past a quarter of the heap, the heap is rebuilt from `all`. -/
def removed (l : TxPricedList) : TxPricedList :=
  let stales := l.stales + 1
  if stales ≤ (l.items.items.length / 4 : Nat) then { l with stales }
  else ⟨PriceHeap.ofList (all.entries.map (·.2)), 0⟩

/-- The loop of `Cap`, popping the cheapest first; local transactions below the floor are saved. -/
def capLoop (threshold : Nat) (locals : AccountSet) :
    (items : List PoolTransaction) → items.Pairwise pricedBefore → Int →
      List PoolTransaction → List PoolTransaction →
      PriceHeap × Int × List PoolTransaction × List PoolTransaction
  | [], sorted, stales, drop, save => (⟨[], sorted⟩, stales, drop, save)
  | tx :: rest, sorted, stales, drop, save =>
    if all.lookup (ext.hash tx) = none then
      capLoop threshold locals rest sorted.of_cons (stales - 1) drop save
    else if threshold ≤ tx.price then (⟨rest, sorted.of_cons⟩, stales, drop, save ++ [tx])
    else if locals.containsTx ext tx then
      capLoop threshold locals rest sorted.of_cons stales drop (save ++ [tx])
    else capLoop threshold locals rest sorted.of_cons stales (drop ++ [tx]) save

/-- `Cap`: the remote transactions below the threshold, and the list with the saved ones back. -/
def cap (l : TxPricedList) (threshold : Nat) (locals : AccountSet) :
    List PoolTransaction × TxPricedList :=
  let (items, stales, drop, save) := capLoop ext all threshold locals l.items.items l.items.sorted
    l.stales [] []
  (drop, ⟨save.foldl PriceHeap.push items, stales⟩)

end TxPricedList

/-- The errors of `validateTx`. -/
inductive TxError where
  /-- `ErrOversizedData`: "oversized data". -/
  | oversizedData
  /-- `ErrGasLimit`: "exceeds block gas limit". -/
  | gasLimit
  /-- `ErrInvalidSender`: "invalid sender". -/
  | invalidSender
  /-- `ErrUnderpriced`: "transaction underpriced". -/
  | underpriced
  /-- `ErrNonceTooLow`: "nonce too low". -/
  | nonceTooLow
  /-- `ErrInsufficientFunds`: "insufficient funds for gas * price + value". -/
  | insufficientFunds
  /-- `ErrIntrinsicGas`: "intrinsic gas too low". -/
  | intrinsicGas
  /-- The error of `IntrinsicGas`. -/
  | other (message : String)
deriving DecidableEq, Repr

/-- The fields of `TxPool` that its price floors read and write. -/
structure TxPool where
  all : TxLookup
  priced : TxPricedList
  locals : AccountSet
  gasPrice : Nat
  govGasPrice : Nat
  currentMaxGas : Nat

namespace TxPool

variable (ext : PoolExternals) (pool : TxPool)

/-- `validateTx`. A value is a natural number here, so the check of its sign is left out. -/
def validateTx (tx : PoolTransaction) (isLocal : Bool) : Except TxError Unit :=
  if ext.size tx > 32 * 1024 then .error .oversizedData else
  if pool.currentMaxGas < tx.gasLimit then .error .gasLimit else
  match ext.sender tx with
  | .error _ => .error .invalidSender
  | .ok sender =>
  if pool.govGasPrice > tx.price then .error .underpriced else
  let isLocal := isLocal || pool.locals.contains sender
  if !isLocal && pool.gasPrice > tx.price then .error .underpriced else
  if ext.getNonce sender > tx.nonce then .error .nonceTooLow else
  if ext.getBalance sender < tx.cost then .error .insufficientFunds else
  match intrinsicGas tx.data tx.recipient.isNone ext.homestead with
  | .error err => .error (.other err)
  | .ok intrGas => if tx.gasLimit < intrGas then .error .intrinsicGas else .ok ()

/-- `removeTx`, on `all` and the heap: an unknown hash changes nothing. -/
def removeTx (hash : Hash) (outofbound : Bool) : TxPool :=
  match pool.all.lookup hash with
  | none => pool
  | some _ =>
    let all := pool.all.erase hash
    { pool with all, priced := if outofbound then pool.priced.removed all else pool.priced }

/-- `removeUnderpricedTx`. -/
def removeUnderpricedTx (price : Nat) : TxPool :=
  let (drop, priced) := pool.priced.cap ext pool.all price pool.locals
  drop.foldl (fun pool tx => pool.removeTx (ext.hash tx) false) { pool with priced }

/-- `setGovPrice`. -/
def setGovPrice (price : Nat) : TxPool :=
  { pool with govGasPrice := price }.removeUnderpricedTx ext price

/-- `SetGasPrice`. -/
def SetGasPrice (price : Nat) : TxPool :=
  { pool with gasPrice := price }.removeUnderpricedTx ext price

/-- The governance step of `reset`; failing to fetch the round's state panics. -/
def resetGovPrice (oldRound : Option Nat) (newRound : Nat)
    (getConfigState : Nat → Except String RawConfig) : Except String TxPool :=
  if oldRound = none ∨ oldRound ≠ some newRound then
    match getConfigState newRound with
    | .error err => .error err
    | .ok gs => .ok (pool.setGovPrice ext gs.minGasPrice)
  else .ok pool

end TxPool

end Tangerine.Core
