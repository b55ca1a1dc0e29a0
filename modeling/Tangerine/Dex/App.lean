import Tangerine.Common.Types
import Mathlib.Data.List.AList
import Mathlib.Logic.Function.Basic

/-! The bookkeeping of `DexconApp` (`dex/app.go`) over confirmed, undelivered blocks. -/

namespace Tangerine.Dex

open Tangerine.Common Function

/-- A transaction, with the fields `BlockConfirmed` reads. -/
structure Transaction where
  nonce : Nat
  gasLimit : Nat
  price : Nat
  amount : Nat
deriving DecidableEq, Repr

/-- `Transaction.Cost`: the price of the gas limit plus the amount. -/
def Transaction.cost (tx : Transaction) : Nat := tx.price * tx.gasLimit + tx.amount

/-- `coreTypes.Block`, with the fields the bookkeeping reads. -/
structure Block where
  hash : Hash
  height : Nat
  payload : Bytes
deriving DecidableEq, Repr

/-- What the app takes from outside: decoding a payload, and recovering a sender. -/
structure AppExternals where
  /-- `rlp.Decode` of a payload into transactions, and `GlobalSigCache.Add` on them. -/
  decodeTransactions : Bytes → Except String (List Transaction)
  /-- `tx.AsMessage(signer).From()`. -/
  sender : Transaction → Except String Address

/-- A block's `addresses`: each sender with the summed cost of its transactions. -/
abbrev AddressMap := AList fun _ : Address => Nat

/-- `blockInfo`. -/
structure BlockInfo where
  addresses : AddressMap
  block : Block
  txs : List Transaction

/-- The fields of `DexconApp` that `BlockConfirmed` and `BlockDelivered` keep. -/
structure DexconApp where
  confirmedBlocks : AList fun _ : Hash => BlockInfo
  addressNonce : Address → Option Nat
  addressCost : Address → Option Int
  addressCounter : Address → Option Nat
  undeliveredNum : Nat
  deliveredHeight : Nat

/-- `NewDexconApp`, at the current block's height. -/
def newDexconApp (height : Nat) : DexconApp where
  confirmedBlocks := ∅
  addressNonce := fun _ => none
  addressCost := fun _ => none
  addressCounter := fun _ => none
  undeliveredNum := 0
  deliveredHeight := height

namespace DexconApp

variable (ext : AppExternals) (d : DexconApp)

/-- One iteration of the transaction loop of `addConfirmedBlock`. -/
def confirmTransaction (acc : AddressMap × DexconApp) (tx : Transaction) :
    Except String (AddressMap × DexconApp) :=
  match ext.sender tx with
  | .error err => .error err
  | .ok sender =>
    let addressMap := match acc.1.lookup sender with
      | none => acc.1.insert sender tx.cost
      | some cost => acc.1.insert sender (cost + tx.cost)
    let d := acc.2
    let fresh := match d.addressNonce sender with
      | none => true
      | some nonce => decide (nonce < tx.nonce)
    if !fresh then .error "address nonce incorrect" else
    let d := { d with addressNonce := update d.addressNonce sender (some tx.nonce) }
    let cost := (d.addressCost sender).getD 0
    .ok (addressMap, { d with addressCost := update d.addressCost sender (some (cost + tx.cost)) })

/-- `d.addressCounter[addr]++`. -/
def incAddressCounter (addr : Address) : DexconApp :=
  { d with addressCounter := update d.addressCounter addr (some ((d.addressCounter addr).getD 0 + 1)) }

/-- `addConfirmedBlock`. -/
def addConfirmedBlock (block : Block) : Except String DexconApp :=
  let decoded := if block.payload.length ≠ 0 then ext.decodeTransactions block.payload else .ok []
  decoded >>= fun transactions =>
  transactions.foldlM (confirmTransaction ext) (∅, d) >>= fun (addressMap, d) =>
  let d := addressMap.keys.foldl (fun d addr => d.incAddressCounter addr) d
  .ok { d with
    confirmedBlocks := d.confirmedBlocks.insert block.hash ⟨addressMap, block, transactions⟩
    undeliveredNum := d.undeliveredNum + 1 }

/-- `BlockConfirmed`, which panics when `addConfirmedBlock` fails. -/
def blockConfirmed (block : Block) : Except String DexconApp := d.addConfirmedBlock ext block

/-- One iteration of the loop of `removeConfirmedBlock`. -/
def releaseAddress (addr : Address) (cost : Nat) : Except String DexconApp :=
  let counter := decrement ((d.addressCounter addr).getD 0)
  match d.addressCost addr with
  | none => .error "nil pointer dereference"
  | some total =>
    let d := { d with
      addressCounter := update d.addressCounter addr (some counter)
      addressCost := update d.addressCost addr (some (total - cost)) }
    if counter = 0 then
      .ok { d with
        addressCounter := update d.addressCounter addr none
        addressCost := update d.addressCost addr none
        addressNonce := update d.addressNonce addr none }
    else .ok d

/-- `removeConfirmedBlock`; an unknown hash dereferences a nil `blockInfo`. -/
def removeConfirmedBlock (hash : Hash) : Except String DexconApp :=
  match d.confirmedBlocks.lookup hash with
  | none => .error "nil pointer dereference"
  | some blockInfo =>
    blockInfo.addresses.entries.foldlM (fun d entry => d.releaseAddress entry.1 entry.2) d >>=
      fun d => .ok { d with
        confirmedBlocks := d.confirmedBlocks.erase hash
        undeliveredNum := decrement d.undeliveredNum }

/-- `BlockDelivered`, on the app's own fields. -/
def blockDelivered (hash : Hash) : Except String DexconApp :=
  match d.confirmedBlocks.lookup hash with
  | none => .error "Can not get confirmed block"
  | some blockInfo =>
    d.removeConfirmedBlock hash >>= fun d => .ok { d with deliveredHeight := blockInfo.block.height }

end DexconApp

end Tangerine.Dex
