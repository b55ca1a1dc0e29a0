import Tangerine.Common.Types

/-! The account objects of the state database (`core/state/state_object.go`). -/

namespace Tangerine.Core.State

open Tangerine.Common Function

/-- `Account`: the consensus fields of an account, as the account trie stores them. -/
structure Account where
  nonce : Nat
  balance : Int
  root : Hash
  codeHash : Hash
deriving DecidableEq

/-- What the state reads from under it (`state.Database`), with the two hashes it computes. -/
structure Database where
  contractCode : Hash → Bytes
  storageTrie : Hash → Hash → Hash
  keccak256 : Bytes → Hash
  trieHash : (Hash → Hash) → Hash

/-- `emptyRoot`: the root hash of the empty trie. -/
def emptyRoot : Hash := 0x56e81f171bcc55a6ff8345e692c0f86e5b48e01b996cadc001622fb5e363b421#256

variable (db : Database)

/-- `emptyCodeHash`, the hash of no code. -/
def emptyCodeHash : Hash := db.keccak256 []

/-- `Account{}` as `newObject` completes it: a nil code hash becomes the empty code's. -/
def Account.blank : Account := ⟨0, 0, 0, emptyCodeHash db⟩

/-- `OpenStorageTrie`: a zero root and the empty root open the empty trie. -/
def Database.openStorageTrie (root : Hash) : Hash → Hash :=
  if root = 0 ∨ root = emptyRoot then fun _ => 0 else db.storageTrie root

/-- `stateObject`, without the back pointer, the address hash and the memoized read error. -/
structure StateObject where
  address : Address
  data : Account
  trie : Option (Hash → Hash)
  code : Option Bytes
  originStorage : Hash → Option Hash
  dirtyStorage : Hash → Option Hash
  dirtyCode : Bool
  suicided : Bool
  deleted : Bool

/-- `newObject`: an object with empty caches. -/
def newObject (address : Address) (data : Account) : StateObject where
  address := address
  data := data
  trie := none
  code := none
  originStorage := fun _ => none
  dirtyStorage := fun _ => none
  dirtyCode := false
  suicided := false
  deleted := false

namespace StateObject

variable (o : StateObject)

/-- `empty`: no nonce, no balance and no code (EIP 161). -/
def empty : Bool :=
  o.data.nonce = 0 && o.data.balance = 0 && o.data.codeHash = emptyCodeHash db

/-- `getTrie`: the storage trie, opened at the account's root on first use. -/
def getTrie : (Hash → Hash) × StateObject :=
  match o.trie with
  | some trie => (trie, o)
  | none =>
    let trie := db.openStorageTrie o.data.root
    (trie, { o with trie := some trie })

/-- `GetCommittedState`: a slot's value before this transaction's writes, cached once read. -/
def getCommittedState (key : Hash) : Hash × StateObject :=
  match o.originStorage key with
  | some value => (value, o)
  | none =>
    let (trie, o) := o.getTrie db
    let value := trie key
    (value, { o with originStorage := update o.originStorage key (some value) })

/-- `GetState`: the value written in this transaction, else the committed one. -/
def getState (key : Hash) : Hash × StateObject :=
  match o.dirtyStorage key with
  | some value => (value, o)
  | none => o.getCommittedState db key

/-- `setState`. -/
def setState (key value : Hash) : StateObject :=
  { o with dirtyStorage := update o.dirtyStorage key (some value) }

/-- `Code`: the cached code, else the code stored under the hash, which is then cached. -/
def loadCode : Bytes × StateObject :=
  match o.code with
  | some code => (code, o)
  | none =>
    if o.data.codeHash = emptyCodeHash db then ([], o)
    else
      let code := db.contractCode o.data.codeHash
      (code, { o with code := some code })

/-- `setCode`. -/
def setCode (codeHash : Hash) (code : Bytes) : StateObject :=
  { o with code := some code, data := { o.data with codeHash }, dirtyCode := true }

/-- `setNonce`. -/
def setNonce (nonce : Nat) : StateObject := { o with data := { o.data with nonce } }

/-- `setBalance`. -/
def setBalance (balance : Int) : StateObject := { o with data := { o.data with balance } }

/-- `markSuicided`. -/
def markSuicided : StateObject := { o with suicided := true }

/-- The slot that `updateTrie` writes: a dirty value that differs from the committed one. -/
def written (key : Hash) : Option Hash :=
  match o.dirtyStorage key with
  | some value => if value = (o.originStorage key).getD 0 then none else some value
  | none => none

/-- `updateTrie`: each written slot goes into the storage trie, and the dirty storage is emptied. -/
def updateTrie : StateObject :=
  let (trie, o) := o.getTrie db
  { o with
    trie := some fun key => (o.written key).getD (trie key)
    originStorage := fun key =>
      match o.written key with
      | some value => some value
      | none => o.originStorage key
    dirtyStorage := fun _ => none }

/-- `updateRoot`: the storage trie is updated and the account takes its root hash. -/
def updateRoot : StateObject :=
  let o := o.updateTrie db
  { o with data := { o.data with root := db.trieHash (o.trie.getD fun _ => 0) } }

end StateObject

end Tangerine.Core.State
