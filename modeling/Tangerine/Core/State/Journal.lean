import Tangerine.Core.State.StateObject
import Mathlib.Data.List.AList

/-! The journal of the state database (`core/state/journal.go`) and what its entries undo. -/

namespace Tangerine.Core.State

open Tangerine.Common Function

/-- `types.Log`, with the fields `AddLog` fills in. -/
structure Log where
  address : Address
  topics : List Hash
  data : Bytes
  txHash : Hash
  blockHash : Hash
  txIndex : Nat
  index : Nat

/-- The fields of `StateDB` that the journal entries touch. -/
structure World where
  trie : Address → Option Account
  stateObjects : Address → Option StateObject
  stateObjectsDirty : Address → Bool
  refund : UInt64
  thash : Hash
  bhash : Hash
  txIndex : Nat
  logs : Hash → List Log
  logSize : Nat
  preimages : Hash → Option Bytes

namespace World

/-- `setStateObject`: the object becomes the live one at its address. -/
def setStateObject (w : World) (o : StateObject) : World :=
  { w with stateObjects := update w.stateObjects o.address (some o) }

/-- `getStateObject`: the live object unless deleted, else the account the trie stores. -/
def getStateObject (w : World) (addr : Address) : Option StateObject × World :=
  match w.stateObjects addr with
  | some o => if o.deleted then (none, w) else (some o, w)
  | none =>
    match w.trie addr with
    | none => (none, w)
    | some data =>
      let o := newObject addr data
      (some o, w.setStateObject o)

/-- An object method called through the pointer `getStateObject` returns; `none` for a panic. -/
def modifyObject (w : World) (addr : Address) (f : StateObject → StateObject) : Option World :=
  match w.getStateObject addr with
  | (some o, w) => some { w with stateObjects := update w.stateObjects addr (some (f o)) }
  | (none, _) => none

end World

/-- `journalEntry`: one change and what it overwrote. -/
inductive JournalEntry where
  | createObjectChange (account : Address)
  | resetObjectChange (prev : StateObject)
  | suicideChange (account : Address) (prev : Bool) (prevbalance : Int)
  | balanceChange (account : Address) (prev : Int)
  | nonceChange (account : Address) (prev : Nat)
  | storageChange (account : Address) (key prevalue : Hash)
  | codeChange (account : Address) (prevcode : Bytes) (prevhash : Hash)
  | refundChange (prev : UInt64)
  | addLogChange (txhash : Hash)
  | addPreimageChange (hash : Hash)
  | touchChange (account : Address)

namespace JournalEntry

/-- `revert` of each entry. -/
def revert : JournalEntry → World → Option World
  | .createObjectChange account, w =>
    some { w with
      stateObjects := update w.stateObjects account none
      stateObjectsDirty := update w.stateObjectsDirty account false }
  | .resetObjectChange prev, w => some (w.setStateObject prev)
  | .suicideChange account prev prevbalance, w =>
    -- the one entry that checks for nil; without an object nothing was loaded
    some ((w.modifyObject account fun o => { o.setBalance prevbalance with suicided := prev }).getD w)
  | .balanceChange account prev, w => w.modifyObject account (·.setBalance prev)
  | .nonceChange account prev, w => w.modifyObject account (·.setNonce prev)
  | .storageChange account key prevalue, w =>
    w.modifyObject account (·.setState key prevalue)
  | .codeChange account prevcode prevhash, w =>
    w.modifyObject account (·.setCode prevhash prevcode)
  | .refundChange prev, w => some { w with refund := prev }
  | .addLogChange txhash, w =>
    let logs := w.logs txhash
    if logs.length = 1 then
      some { w with logs := update w.logs txhash [], logSize := w.logSize - 1 }
    else if logs = [] then none -- `logs[:len(logs)-1]` panics
    else some { w with logs := update w.logs txhash logs.dropLast, logSize := w.logSize - 1 }
  | .addPreimageChange hash, w => some { w with preimages := update w.preimages hash none }
  | .touchChange _, w => some w

/-- `dirtied`: the account an entry changed, if any. -/
def dirtied : JournalEntry → Option Address
  | .createObjectChange account => some account
  | .resetObjectChange _ => none
  | .suicideChange account _ _ => some account
  | .balanceChange account _ => some account
  | .nonceChange account _ => some account
  | .storageChange account _ _ => some account
  | .codeChange account _ _ => some account
  | .refundChange _ => none
  | .addLogChange _ => none
  | .addPreimageChange _ => none
  | .touchChange account => some account

end JournalEntry

/-- `journal`: the entries since the last `Finalise`, and how many of them touch each address. -/
structure Journal where
  entries : List JournalEntry
  dirties : AList fun _ : Address => Int

/-- `newJournal`. -/
def newJournal : Journal := ⟨[], ∅⟩

namespace Journal

variable (j : Journal)

/-- `dirty`: one more change counted at the address. -/
def dirty (addr : Address) : Journal :=
  { j with dirties := j.dirties.insert addr ((j.dirties.lookup addr).getD 0 + 1) }

/-- `append`. -/
def append (entry : JournalEntry) : Journal :=
  let j := { j with entries := j.entries ++ [entry] }
  match entry.dirtied with
  | some addr => j.dirty addr
  | none => j

/-- The dirty count that the revert of `entry` drops, deleting a count that reaches zero. -/
def undirty (entry : JournalEntry) (dirties : AList fun _ : Address => Int) :
    AList fun _ : Address => Int :=
  match entry.dirtied with
  | some addr =>
    let count := (dirties.lookup addr).getD 0 - 1
    if count = 0 then dirties.erase addr else dirties.insert addr count
  | none => dirties

/-- `length`. -/
def length : Nat := j.entries.length

end Journal

end Tangerine.Core.State
