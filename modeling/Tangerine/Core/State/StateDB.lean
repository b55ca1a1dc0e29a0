import Tangerine.Core.State.Journal
import Tangerine.Library.UndoLog
import Tangerine.Library.Search
import Tangerine.Library.Transition

/-! The state database (`core/state/statedb.go`): setters, getters, snapshots and `Finalise`. -/

namespace Tangerine.Core.State

open Tangerine.Common Tangerine.Library Function

/-- `revision`: a snapshot's id and the journal length it was taken at. -/
structure Revision where
  id : Nat
  journalIndex : Nat
deriving DecidableEq

/-- `StateDB`, without the database it reads through and the memoized read error. -/
structure StateDB where
  world : World
  journal : Journal
  validRevisions : List Revision
  nextRevisionId : Nat

/-- `ripemd`, the precompile whose touch stays dirty through a revert. -/
def ripemd : Address := 3

/-- `New`: a state over the account trie at a root, read as the accounts it stores. -/
def StateDB.new (trie : Address → Option Account) : StateDB where
  world :=
    { trie := trie
      stateObjects := fun _ => none
      stateObjectsDirty := fun _ => false
      refund := 0
      thash := 0
      bhash := 0
      txIndex := 0
      logs := fun _ => []
      logSize := 0
      preimages := fun _ => none }
  journal := newJournal
  validRevisions := []
  nextRevisionId := 0

namespace StateDB

variable (db : Database) (s : StateDB)

/-- `getStateObject`. -/
def getStateObject (addr : Address) : Option StateObject × StateDB :=
  let (o, world) := s.world.getStateObject addr
  (o, { s with world })

/-- `setStateObject`. -/
def setStateObject (o : StateObject) : StateDB := { s with world := s.world.setStateObject o }

/-- `journal.append`. -/
def append (entry : JournalEntry) : StateDB := { s with journal := s.journal.append entry }

/-- `createObject`: the journal keeps the object replaced, or that there was none. -/
def createObject (addr : Address) : StateObject × Option StateObject × StateDB :=
  let (prev, s) := s.getStateObject addr
  let newobj := (newObject addr (Account.blank db)).setNonce 0
  let s := match prev with
    | none => s.append (.createObjectChange addr)
    | some prev => s.append (.resetObjectChange prev)
  (newobj, prev, s.setStateObject newobj)

/-- `GetOrNewStateObject`. -/
def getOrNewStateObject (addr : Address) : StateObject × StateDB :=
  match s.getStateObject addr with
  | (some o, s) =>
    if o.deleted then
      let (o, _, s) := s.createObject db addr
      (o, s)
    else (o, s)
  | (none, s) =>
    let (o, _, s) := s.createObject db addr
    (o, s)

/-- `stateObject.touch`. -/
def objectTouch (o : StateObject) : StateDB :=
  let s := s.append (.touchChange o.address)
  if o.address = ripemd then { s with journal := s.journal.dirty o.address } else s

/-- `stateObject.SetBalance`. -/
def objectSetBalance (o : StateObject) (amount : Int) : StateDB :=
  (s.append (.balanceChange o.address o.data.balance)).setStateObject (o.setBalance amount)

/-- `stateObject.AddBalance`: adding nothing only touches an empty account. -/
def objectAddBalance (o : StateObject) (amount : Int) : StateDB :=
  if amount = 0 then (if o.empty db then s.objectTouch o else s)
  else s.objectSetBalance o (o.data.balance + amount)

/-- `stateObject.SubBalance`. -/
def objectSubBalance (o : StateObject) (amount : Int) : StateDB :=
  if amount = 0 then s else s.objectSetBalance o (o.data.balance - amount)

/-- `stateObject.SetNonce`. -/
def objectSetNonce (o : StateObject) (nonce : Nat) : StateDB :=
  (s.append (.nonceChange o.address o.data.nonce)).setStateObject (o.setNonce nonce)

/-- `stateObject.SetCode`: the journal keeps the code as `Code` loads it. -/
def objectSetCode (o : StateObject) (codeHash : Hash) (code : Bytes) : StateDB :=
  let (prevcode, o) := o.loadCode db
  (s.append (.codeChange o.address prevcode o.data.codeHash)).setStateObject (o.setCode codeHash code)

/-- `stateObject.SetState`, through the object's back pointer to the journal. -/
def objectSetState (o : StateObject) (key value : Hash) : StateDB :=
  let (prev, o) := o.getState db key
  if prev = value then s.setStateObject o
  else (s.append (.storageChange o.address key prev)).setStateObject (o.setState key value)

/-- `AddBalance`. -/
def addBalance (addr : Address) (amount : Int) : StateDB :=
  let (o, s) := s.getOrNewStateObject db addr
  s.objectAddBalance db o amount

/-- `SubBalance`. -/
def subBalance (addr : Address) (amount : Int) : StateDB :=
  let (o, s) := s.getOrNewStateObject db addr
  s.objectSubBalance o amount

/-- `SetBalance`. -/
def setBalance (addr : Address) (amount : Int) : StateDB :=
  let (o, s) := s.getOrNewStateObject db addr
  s.objectSetBalance o amount

/-- `SetNonce`. -/
def setNonce (addr : Address) (nonce : Nat) : StateDB :=
  let (o, s) := s.getOrNewStateObject db addr
  s.objectSetNonce o nonce

/-- `SetCode`. -/
def setCode (addr : Address) (code : Bytes) : StateDB :=
  let (o, s) := s.getOrNewStateObject db addr
  s.objectSetCode db o (db.keccak256 code) code

/-- `SetState`. -/
def setState (addr : Address) (key value : Hash) : StateDB :=
  let (o, s) := s.getOrNewStateObject db addr
  s.objectSetState db o key value

/-- `Suicide`: marks a live account and clears its balance; `false` when there is none. -/
def suicide (addr : Address) : Bool × StateDB :=
  match s.getStateObject addr with
  | (none, s) => (false, s)
  | (some o, s) =>
    let s := s.append (.suicideChange addr o.suicided o.data.balance)
    (true, s.setStateObject (o.markSuicided.setBalance 0))

/-- `CreateAccount`: an existing account's balance is carried over to the new one. -/
def createAccount (addr : Address) : StateDB :=
  let (newObj, prev, s) := s.createObject db addr
  match prev with
  | some prev => s.setStateObject (newObj.setBalance prev.data.balance)
  | none => s

/-- `AddLog`: the log is filed under the current transaction and numbered. -/
def addLog (log : Log) : StateDB :=
  let s := s.append (.addLogChange s.world.thash)
  let w := s.world
  let log := { log with txHash := w.thash, blockHash := w.bhash, txIndex := w.txIndex, index := w.logSize }
  { s with world := { w with logs := update w.logs w.thash (w.logs w.thash ++ [log]), logSize := w.logSize + 1 } }

/-- `AddPreimage`: only the first preimage of a hash is kept. -/
def addPreimage (hash : Hash) (preimage : Bytes) : StateDB :=
  match s.world.preimages hash with
  | some _ => s
  | none =>
    let s := s.append (.addPreimageChange hash)
    { s with world := { s.world with preimages := update s.world.preimages hash (some preimage) } }

/-- `AddRefund`. -/
def addRefund (gas : UInt64) : StateDB :=
  let s := s.append (.refundChange s.world.refund)
  { s with world := { s.world with refund := s.world.refund + gas } }

/-- `SubRefund`, which panics when the counter would go below zero. -/
def subRefund (gas : UInt64) : Option StateDB :=
  let s := s.append (.refundChange s.world.refund)
  if gas > s.world.refund then none
  else some { s with world := { s.world with refund := s.world.refund - gas } }

/-- `Exist`: whether there is an account, suicided or not. -/
def exist (addr : Address) : Bool × StateDB :=
  let (o, s) := s.getStateObject addr
  (o.isSome, s)

/-- `Empty`: no account, or an empty one. -/
def empty (addr : Address) : Bool × StateDB :=
  match s.getStateObject addr with
  | (none, s) => (true, s)
  | (some o, s) => (o.empty db, s)

/-- `GetBalance`. -/
def getBalance (addr : Address) : Int × StateDB :=
  let (o, s) := s.getStateObject addr
  ((o.map (·.data.balance)).getD 0, s)

/-- `GetNonce`. -/
def getNonce (addr : Address) : Nat × StateDB :=
  let (o, s) := s.getStateObject addr
  ((o.map (·.data.nonce)).getD 0, s)

/-- `GetCode`: loading the code caches it on the object. -/
def getCode (addr : Address) : Bytes × StateDB :=
  match s.getStateObject addr with
  | (none, s) => ([], s)
  | (some o, s) =>
    let (code, o) := o.loadCode db
    (code, s.setStateObject o)

/-- `GetCodeHash`. -/
def getCodeHash (addr : Address) : Hash × StateDB :=
  let (o, s) := s.getStateObject addr
  ((o.map (·.data.codeHash)).getD 0, s)

/-- `GetState`. -/
def getState (addr : Address) (key : Hash) : Hash × StateDB :=
  match s.getStateObject addr with
  | (none, s) => (0, s)
  | (some o, s) =>
    let (value, o) := o.getState db key
    (value, s.setStateObject o)

/-- `GetCommittedState`. -/
def getCommittedState (addr : Address) (key : Hash) : Hash × StateDB :=
  match s.getStateObject addr with
  | (none, s) => (0, s)
  | (some o, s) =>
    let (value, o) := o.getCommittedState db key
    (value, s.setStateObject o)

/-- `HasSuicided`. -/
def hasSuicided (addr : Address) : Bool × StateDB :=
  let (o, s) := s.getStateObject addr
  ((o.map (·.suicided)).getD false, s)

/-- `GetRefund`. -/
def getRefund : UInt64 := s.world.refund

/-- `GetLogs`. -/
def getLogs (hash : Hash) : List Log := s.world.logs hash

/-- `Preimages`. -/
def preimages : Hash → Option Bytes := s.world.preimages

/-- `Snapshot`: a fresh id for the current journal length. -/
def snapshot : Nat × StateDB :=
  let id := s.nextRevisionId
  (id, { s with
    nextRevisionId := id + 1
    validRevisions := s.validRevisions ++ [⟨id, s.journal.length⟩] })

/-- `journal.revert`: the entries from `snapshot` on are undone, the last one first. -/
def revertJournal (snapshot : Nat) : Option StateDB :=
  let undone := s.journal.entries.drop snapshot
  (UndoLog.undoAll JournalEntry.revert undone s.world).map fun world =>
    { s with
      world
      journal :=
        { entries := s.journal.entries.take snapshot
          dirties := undone.foldr Journal.undirty s.journal.dirties } }

/-- `RevertToSnapshot`: a binary search over the valid revisions; an unknown id panics. -/
def revertToSnapshot (revid : Nat) : Option StateDB :=
  let idx := Search.search (fun i => decide (revid ≤ (s.validRevisions.getD i ⟨0, 0⟩).id))
    s.validRevisions.length
  match s.validRevisions[idx]? with
  | none => none
  | some revision =>
    if revision.id ≠ revid then none
    else (s.revertJournal revision.journalIndex).map fun s =>
      { s with validRevisions := s.validRevisions.take idx }

/-- `Prepare`: the transaction whose logs follow. -/
def prepare (thash bhash : Hash) (ti : Nat) : StateDB :=
  { s with world := { s.world with thash, bhash, txIndex := ti } }

end StateDB

namespace World

variable (db : Database) (w : World)

/-- `updateStateObject`: the object's account is written to the trie. -/
def updateStateObject (o : StateObject) : World :=
  { w with trie := update w.trie o.address (some o.data) }

/-- `deleteStateObject`. -/
def deleteStateObject (o : StateObject) : World :=
  let o := { o with deleted := true }
  { w.setStateObject o with trie := update w.trie o.address none }

/-- One iteration of `Finalise`. -/
def finaliseObject (deleteEmptyObjects : Bool) (w : World) (addr : Address) : World :=
  match w.stateObjects addr with
  | none => w
  | some o =>
    let w :=
      if o.suicided || (deleteEmptyObjects && o.empty db) then w.deleteStateObject o
      else
        let o := o.updateRoot db
        (w.setStateObject o).updateStateObject o
    { w with stateObjectsDirty := update w.stateObjectsDirty addr true }

end World

/-- `Finalise`, visiting the dirty addresses in the order the journal holds them. -/
def StateDB.finalise (db : Database) (s : StateDB) (deleteEmptyObjects : Bool) : StateDB :=
  let w := s.journal.dirties.keys.foldl (World.finaliseObject db deleteEmptyObjects) s.world
  { world := { w with refund := 0 }
    journal := newJournal
    validRevisions := []
    nextRevisionId := s.nextRevisionId }

/-- The setters. -/
inductive Mutation where
  | addBalance (addr : Address) (amount : Int)
  | subBalance (addr : Address) (amount : Int)
  | setBalance (addr : Address) (amount : Int)
  | setNonce (addr : Address) (nonce : Nat)
  | setCode (addr : Address) (code : Bytes)
  | setState (addr : Address) (key value : Hash)
  | suicide (addr : Address)
  | createAccount (addr : Address)
  | addLog (log : Log)
  | addRefund (gas : UInt64)
  | subRefund (gas : UInt64)
  | addPreimage (hash : Hash) (preimage : Bytes)

/-- The getters that may fill a cache. -/
inductive Read where
  | exist (addr : Address)
  | empty (addr : Address)
  | getBalance (addr : Address)
  | getNonce (addr : Address)
  | getCode (addr : Address)
  | getCodeHash (addr : Address)
  | getState (addr : Address) (key : Hash)
  | getCommittedState (addr : Address) (key : Hash)
  | hasSuicided (addr : Address)

/-- A call made on the state within a transaction. -/
inductive Call where
  | mutate (setter : Mutation)
  | read (getter : Read)
  | snapshot
  | revertToSnapshot (revid : Nat)

namespace Mutation

/-- The state a setter leaves; `none` when it panics. -/
def run (db : Database) : Mutation → StateDB → Option StateDB
  | .addBalance addr amount, s => some (s.addBalance db addr amount)
  | .subBalance addr amount, s => some (s.subBalance db addr amount)
  | .setBalance addr amount, s => some (s.setBalance db addr amount)
  | .setNonce addr nonce, s => some (s.setNonce db addr nonce)
  | .setCode addr code, s => some (s.setCode db addr code)
  | .setState addr key value, s => some (s.setState db addr key value)
  | .suicide addr, s => some (s.suicide addr).2
  | .createAccount addr, s => some (s.createAccount db addr)
  | .addLog log, s => some (s.addLog log)
  | .addRefund gas, s => some (s.addRefund gas)
  | .subRefund gas, s => s.subRefund gas
  | .addPreimage hash preimage, s => some (s.addPreimage hash preimage)

end Mutation

namespace Read

/-- The state a getter leaves. -/
def run (db : Database) : Read → StateDB → StateDB
  | .exist addr, s => (s.exist addr).2
  | .empty addr, s => (s.empty db addr).2
  | .getBalance addr, s => (s.getBalance addr).2
  | .getNonce addr, s => (s.getNonce addr).2
  | .getCode addr, s => (s.getCode db addr).2
  | .getCodeHash addr, s => (s.getCodeHash addr).2
  | .getState addr key, s => (s.getState db addr key).2
  | .getCommittedState addr key, s => (s.getCommittedState db addr key).2
  | .hasSuicided addr, s => (s.hasSuicided addr).2

end Read

namespace Call

/-- The state a call leaves; `none` when it panics. -/
def run (db : Database) : Call → StateDB → Option StateDB
  | .mutate setter, s => setter.run db s
  | .read getter, s => some (getter.run db s)
  | .snapshot, s => some s.snapshot.2
  | .revertToSnapshot revid, s => s.revertToSnapshot revid

/-- The state a sequence of calls leaves; `none` when one of them panics. -/
def runAll (db : Database) : List Call → StateDB → Option StateDB
  | [], s => some s
  | call :: rest, s => (call.run db s).bind (runAll db rest)

end Call

/-- How the state processor drives the state through a block. -/
inductive StateDB.Step (db : Database) : StateDB → StateDB → Prop
  | call {s s' : StateDB} (call : Call) : call.run db s = some s' → StateDB.Step db s s'
  | prepare (s : StateDB) (thash bhash : Hash) (ti : Nat) :
      StateDB.Step db s (s.prepare thash bhash ti)
  | finalise (s : StateDB) (deleteEmptyObjects : Bool) :
      StateDB.Step db s (StateDB.finalise db s deleteEmptyObjects)

/-- The states that steps reach from `New`. -/
def StateDB.Reachable (db : Database) : StateDB → Prop :=
  Library.Reachable (StateDB.Step db) fun s => ∃ trie, s = StateDB.new trie

end Tangerine.Core.State
