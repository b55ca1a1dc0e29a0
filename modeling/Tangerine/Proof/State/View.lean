import Tangerine.Core.State.StateDB

/-! What the getters of the state database see, and the equivalence of states that see alike. -/

namespace Tangerine.Proof.StateView

open Tangerine.Common Tangerine.Core.State Tangerine.Library Function

variable (db : Database)

/-- The storage trie an object reads, opened already or not. -/
def StateObject.storageTrie (o : StateObject) : Hash → Hash :=
  o.trie.getD (db.openStorageTrie o.data.root)

/-- The committed value of a slot as `GetCommittedState` reads it. -/
def StateObject.committed (o : StateObject) (key : Hash) : Hash :=
  (o.originStorage key).getD (StateObject.storageTrie db o key)

/-- The code as `Code` reads it. -/
def StateObject.loadedCode (o : StateObject) : Bytes :=
  match o.code with
  | some code => code
  | none => if o.data.codeHash = emptyCodeHash db then [] else db.contractCode o.data.codeHash

/-- An account as the getters see it. -/
structure AccountView where
  nonce : Nat
  balance : Int
  codeHash : Hash
  code : Bytes
  storage : Hash → Hash
  suicided : Bool

/-- What the getters read of an object: `Code` and `GetState` without the caches they fill. -/
def StateObject.view (o : StateObject) : AccountView where
  nonce := o.data.nonce
  balance := o.data.balance
  codeHash := o.data.codeHash
  code := StateObject.loadedCode db o
  storage := fun key => (o.dirtyStorage key).getD (StateObject.committed db o key)
  suicided := o.suicided

/-- The account the getters see at an address. -/
def World.accountView (w : World) (addr : Address) : Option AccountView :=
  match w.stateObjects addr with
  | some o => if o.deleted then none else some (StateObject.view db o)
  | none => (w.trie addr).map fun data => StateObject.view db (newObject addr data)

/-- Worlds whose getters read alike and whose undos stay alike. -/
structure World.Equiv (w w' : World) : Prop where
  trie : w.trie = w'.trie
  accounts : ∀ addr, World.accountView db w addr = World.accountView db w' addr
  refund : w.refund = w'.refund
  logs : w.logs = w'.logs
  logSize : w.logSize = w'.logSize
  preimages : w.preimages = w'.preimages

namespace World.Equiv

variable {db}

theorem refl (w : World) : World.Equiv db w w := ⟨rfl, fun _ => rfl, rfl, rfl, rfl, rfl⟩

theorem symm {w w' : World} (equiv : World.Equiv db w w') : World.Equiv db w' w :=
  ⟨equiv.trie.symm, fun addr => (equiv.accounts addr).symm, equiv.refund.symm, equiv.logs.symm,
    equiv.logSize.symm, equiv.preimages.symm⟩

theorem trans {w w' w'' : World} (first : World.Equiv db w w') (second : World.Equiv db w' w'') :
    World.Equiv db w w'' :=
  ⟨first.trie.trans second.trie, fun addr => (first.accounts addr).trans (second.accounts addr),
    first.refund.trans second.refund, first.logs.trans second.logs,
    first.logSize.trans second.logSize, first.preimages.trans second.preimages⟩

end World.Equiv

/-! ### What the object methods return, and the caches they fill change nothing seen -/

namespace StateObject

variable {db} (o : StateObject)

@[simp] theorem getTrie_fst : (o.getTrie db).1 = StateObject.storageTrie db o := by
  unfold Tangerine.Core.State.StateObject.getTrie StateObject.storageTrie
  cases o.trie <;> rfl

theorem getTrie_snd : (o.getTrie db).2 = { o with trie := some (StateObject.storageTrie db o) } := by
  cases o with
  | mk address data trie code originStorage dirtyStorage dirtyCode suicided deleted =>
      cases trie <;> rfl

@[simp] theorem getCommittedState_fst (key : Hash) :
    (o.getCommittedState db key).1 = StateObject.committed db o key := by
  unfold Tangerine.Core.State.StateObject.getCommittedState StateObject.committed
  cases o.originStorage key <;> simp

/-- `GetCommittedState` caches the value it read and the trie it opened, nothing else. -/
theorem getCommittedState_snd (key : Hash) :
    (o.getCommittedState db key).2 =
      match o.originStorage key with
      | some _ => o
      | none =>
        { o with
          trie := some (StateObject.storageTrie db o)
          originStorage := update o.originStorage key (some (StateObject.storageTrie db o key)) } := by
  unfold Tangerine.Core.State.StateObject.getCommittedState
  cases o.originStorage key <;> simp [getTrie_snd]

section Frame

variable (key : Hash)

@[simp] theorem getCommittedState_snd_address : (o.getCommittedState db key).2.address = o.address := by
  rw [getCommittedState_snd]; split <;> rfl

@[simp] theorem getCommittedState_snd_data : (o.getCommittedState db key).2.data = o.data := by
  rw [getCommittedState_snd]; split <;> rfl

@[simp] theorem getCommittedState_snd_code : (o.getCommittedState db key).2.code = o.code := by
  rw [getCommittedState_snd]; split <;> rfl

@[simp] theorem getCommittedState_snd_dirtyStorage :
    (o.getCommittedState db key).2.dirtyStorage = o.dirtyStorage := by
  rw [getCommittedState_snd]; split <;> rfl

@[simp] theorem getCommittedState_snd_suicided :
    (o.getCommittedState db key).2.suicided = o.suicided := by
  rw [getCommittedState_snd]; split <;> rfl

@[simp] theorem getCommittedState_snd_deleted :
    (o.getCommittedState db key).2.deleted = o.deleted := by
  rw [getCommittedState_snd]; split <;> rfl

end Frame

@[simp] theorem getState_fst (key : Hash) :
    (o.getState db key).1 = (StateObject.view db o).storage key := by
  unfold Tangerine.Core.State.StateObject.getState StateObject.view
  cases dirty : o.dirtyStorage key <;> simp [dirty]

/-- Two objects are seen alike when they agree on what the getters read through the caches. -/
theorem view_congr {o o' : StateObject} (data : o.data = o'.data)
    (suicided : o.suicided = o'.suicided)
    (code : StateObject.loadedCode db o = StateObject.loadedCode db o')
    (dirty : o.dirtyStorage = o'.dirtyStorage)
    (committed : StateObject.committed db o = StateObject.committed db o') :
    StateObject.view db o = StateObject.view db o' := by
  simp only [StateObject.view, data, suicided, code, dirty, committed]

theorem committed_getCommittedState_snd (key : Hash) :
    StateObject.committed db (o.getCommittedState db key).2 = StateObject.committed db o := by
  rw [getCommittedState_snd]
  cases cached : o.originStorage key with
  | some _ => rfl
  | none =>
      funext key'
      by_cases same : key' = key
      · subst same
        simp [StateObject.committed, StateObject.storageTrie, cached]
      · simp [StateObject.committed, StateObject.storageTrie, update_of_ne same]

@[simp] theorem loadCode_fst : (o.loadCode db).1 = StateObject.loadedCode db o := by
  unfold Tangerine.Core.State.StateObject.loadCode StateObject.loadedCode
  cases o.code with
  | some _ => rfl
  | none => by_cases emptyCode : o.data.codeHash = emptyCodeHash db <;> simp [emptyCode]

@[simp] theorem view_getCommittedState_snd (key : Hash) :
    StateObject.view db (o.getCommittedState db key).2 = StateObject.view db o :=
  view_congr (by simp) (by simp) (by simp [StateObject.loadedCode]) (by simp)
    (committed_getCommittedState_snd o key)

@[simp] theorem view_getState_snd (key : Hash) :
    StateObject.view db (o.getState db key).2 = StateObject.view db o := by
  unfold Tangerine.Core.State.StateObject.getState
  cases o.dirtyStorage key with
  | some _ => rfl
  | none => exact view_getCommittedState_snd o key

section LoadFrame

@[simp] theorem loadCode_snd_address : (o.loadCode db).2.address = o.address := by
  unfold Tangerine.Core.State.StateObject.loadCode
  cases o.code with
  | some _ => rfl
  | none => by_cases emptyCode : o.data.codeHash = emptyCodeHash db <;> simp [emptyCode]

@[simp] theorem loadCode_snd_data : (o.loadCode db).2.data = o.data := by
  unfold Tangerine.Core.State.StateObject.loadCode
  cases o.code with
  | some _ => rfl
  | none => by_cases emptyCode : o.data.codeHash = emptyCodeHash db <;> simp [emptyCode]

@[simp] theorem loadCode_snd_deleted : (o.loadCode db).2.deleted = o.deleted := by
  unfold Tangerine.Core.State.StateObject.loadCode
  cases o.code with
  | some _ => rfl
  | none => by_cases emptyCode : o.data.codeHash = emptyCodeHash db <;> simp [emptyCode]

@[simp] theorem getState_snd_address (key : Hash) : (o.getState db key).2.address = o.address := by
  unfold Tangerine.Core.State.StateObject.getState
  cases o.dirtyStorage key <;> simp

@[simp] theorem getState_snd_deleted (key : Hash) : (o.getState db key).2.deleted = o.deleted := by
  unfold Tangerine.Core.State.StateObject.getState
  cases o.dirtyStorage key <;> simp

end LoadFrame

@[simp] theorem view_loadCode_snd : StateObject.view db (o.loadCode db).2 = StateObject.view db o := by
  unfold Tangerine.Core.State.StateObject.loadCode
  cases cached : o.code with
  | some _ => rfl
  | none =>
      by_cases emptyCode : o.data.codeHash = emptyCodeHash db
      · rw [if_pos emptyCode]
      · rw [if_neg emptyCode]
        -- the loaded code is what `Code` would load
        refine view_congr rfl rfl ?_ rfl rfl
        simp [StateObject.loadedCode, cached, emptyCode]

/-! The setters change what is seen in the field they set. -/

@[simp] theorem view_setBalance (balance : Int) :
    StateObject.view db (o.setBalance balance) = { StateObject.view db o with balance } :=
  rfl

@[simp] theorem view_setNonce (nonce : Nat) :
    StateObject.view db (o.setNonce nonce) = { StateObject.view db o with nonce } :=
  rfl

@[simp] theorem view_withSuicided (suicided : Bool) :
    StateObject.view db { o with suicided } = { StateObject.view db o with suicided } :=
  rfl

@[simp] theorem view_setState (key value : Hash) :
    StateObject.view db (o.setState key value) =
      { StateObject.view db o with storage := update (StateObject.view db o).storage key value } := by
  simp only [StateObject.view, Tangerine.Core.State.StateObject.setState, AccountView.mk.injEq,
    true_and]
  refine ⟨rfl, ?_, trivial⟩
  funext key'
  by_cases same : key' = key
  · subst same; simp
  · simp [update_of_ne same, StateObject.committed, StateObject.storageTrie]

@[simp] theorem view_setCode (codeHash : Hash) (code : Bytes) :
    StateObject.view db (o.setCode codeHash code) = { StateObject.view db o with codeHash, code } :=
  rfl

end StateObject

/-! ### The account seen at an address -/

namespace World

variable {db}

/-- The account seen at an address depends on the live object and the trie entry there only. -/
theorem accountView_congr {w w' : World} {addr : Address}
    (objects : w.stateObjects addr = w'.stateObjects addr) (trie : w.trie addr = w'.trie addr) :
    World.accountView db w addr = World.accountView db w' addr := by
  simp only [World.accountView, objects, trie]

/-- A live object written at an address is what is seen there, unless it is deleted. -/
theorem accountView_put (w : World) (addr : Address) (o : StateObject) :
    World.accountView db { w with stateObjects := update w.stateObjects addr (some o) } addr =
      if o.deleted then none else some (StateObject.view db o) := by
  simp [World.accountView]

theorem accountView_put_of_ne (w : World) {addr addr' : Address} (entry : Option StateObject)
    (other : addr' ≠ addr) :
    World.accountView db { w with stateObjects := update w.stateObjects addr entry } addr' =
      World.accountView db w addr' :=
  accountView_congr (by simp [update_of_ne other]) rfl

/-- `getStateObject` returns the account seen at the address. -/
theorem getStateObject_fst_view (w : World) (addr : Address) :
    (w.getStateObject addr).1.map (StateObject.view db) = World.accountView db w addr := by
  unfold Tangerine.Core.State.World.getStateObject World.accountView
  cases w.stateObjects addr with
  | some o => by_cases deleted : o.deleted <;> simp [deleted]
  | none => cases w.trie addr <;> rfl

/-- What `getStateObject` returns is live where the world it leaves holds it. -/
theorem getStateObject_fst_live {w : World} {addr : Address} {o : StateObject}
    (got : (w.getStateObject addr).1 = some o) :
    (w.getStateObject addr).2.stateObjects addr = some o ∧ o.deleted = false := by
  unfold Tangerine.Core.State.World.getStateObject at got ⊢
  cases cached : w.stateObjects addr with
  | some o' =>
      rw [cached] at got
      cases deleted : o'.deleted with
      | true => simp [deleted] at got
      | false =>
          simp only [deleted, Bool.false_eq_true, if_false, Option.some.injEq] at got
          subst got
          simp [cached, deleted]
  | none =>
      rw [cached] at got
      cases stored : w.trie addr with
      | none => simp [stored] at got
      | some data =>
          simp only [stored, Option.some.injEq] at got
          subst got
          simp [World.setStateObject, newObject]

/-- `getStateObject` changes the live objects at the address only, by loading from the trie. -/
theorem getStateObject_snd (w : World) (addr : Address) :
    (w.getStateObject addr).2 =
      match w.stateObjects addr, w.trie addr with
      | none, some data => { w with stateObjects := update w.stateObjects addr (some (newObject addr data)) }
      | _, _ => w := by
  unfold Tangerine.Core.State.World.getStateObject
  cases w.stateObjects addr with
  | some o => by_cases deleted : o.deleted <;> simp [deleted]
  | none => cases w.trie addr <;> rfl

/-- Loading an account caches it and changes nothing seen. -/
theorem getStateObject_snd_equiv (w : World) (addr : Address) :
    World.Equiv db (w.getStateObject addr).2 w := by
  rw [getStateObject_snd]
  cases cached : w.stateObjects addr with
  | some o => exact .refl w
  | none =>
      cases stored : w.trie addr with
      | none => exact .refl w
      | some data =>
          refine ⟨rfl, fun addr' => ?_, rfl, rfl, rfl, rfl⟩
          by_cases same : addr' = addr
          · subst same
            rw [accountView_put]
            simp [World.accountView, cached, stored, newObject]
          · exact accountView_put_of_ne w _ same

/-- Worlds seen alike stay so when objects seen alike are written at one address. -/
theorem Equiv.put {w w' : World} (equiv : World.Equiv db w w') (addr : Address)
    {o o' : StateObject} (seen : StateObject.view db o = StateObject.view db o')
    (deleted : o.deleted = o'.deleted) :
    World.Equiv db { w with stateObjects := update w.stateObjects addr (some o) }
      { w' with stateObjects := update w'.stateObjects addr (some o') } := by
  refine ⟨equiv.trie, fun addr' => ?_, equiv.refund, equiv.logs, equiv.logSize, equiv.preimages⟩
  by_cases same : addr' = addr
  · subst same
    rw [accountView_put, accountView_put, seen, deleted]
  · rw [accountView_put_of_ne w _ same, accountView_put_of_ne w' _ same]
    exact equiv.accounts addr'

/-- Worlds seen alike stay so when the objects at one address are dropped. -/
theorem Equiv.drop {w w' : World} (equiv : World.Equiv db w w') (addr : Address)
    (dirty dirty' : Address → Bool) :
    World.Equiv db { w with stateObjects := update w.stateObjects addr none, stateObjectsDirty := dirty }
      { w' with stateObjects := update w'.stateObjects addr none, stateObjectsDirty := dirty' } := by
  refine ⟨equiv.trie, fun addr' => ?_, equiv.refund, equiv.logs, equiv.logSize, equiv.preimages⟩
  by_cases same : addr' = addr
  · subst same
    simp [World.accountView, equiv.trie]
  · exact (accountView_put_of_ne w _ same).trans
      ((equiv.accounts addr').trans (accountView_put_of_ne w' _ same).symm)

theorem modifyObject_eq (w : World) (addr : Address) (f : StateObject → StateObject) :
    w.modifyObject addr f = (w.getStateObject addr).1.map fun o =>
      { (w.getStateObject addr).2 with
        stateObjects := update (w.getStateObject addr).2.stateObjects addr (some (f o)) } := by
  unfold Tangerine.Core.State.World.modifyObject
  rcases w.getStateObject addr with ⟨_ | _, _⟩ <;> rfl

/-- A method called through `getStateObject` respects the equivalence. -/
theorem modifyObject_respects (f : StateObject → StateObject)
    (seen : ∀ o o', StateObject.view db o = StateObject.view db o' →
      StateObject.view db (f o) = StateObject.view db (f o'))
    (kept : ∀ o, (f o).deleted = o.deleted) {w w' undone : World} (equiv : World.Equiv db w w')
    {addr : Address} (modified : w'.modifyObject addr f = some undone) :
    ∃ undone', w.modifyObject addr f = some undone' ∧ World.Equiv db undone' undone := by
  rw [modifyObject_eq] at modified ⊢
  obtain ⟨o', got', rfl⟩ := Option.map_eq_some_iff.mp modified
  -- the object the undo finds in `w` is seen as the one it finds in `w'`
  have seenAlike : (w.getStateObject addr).1.map (StateObject.view db) = some (StateObject.view db o') := by
    rw [getStateObject_fst_view, equiv.accounts, ← getStateObject_fst_view, got']
    rfl
  obtain ⟨o, got, sameView⟩ := Option.map_eq_some_iff.mp seenAlike
  have loaded : World.Equiv db (w.getStateObject addr).2 (w'.getStateObject addr).2 :=
    (getStateObject_snd_equiv w addr).trans (equiv.trans (getStateObject_snd_equiv w' addr).symm)
  refine ⟨_, by rw [got]; rfl, loaded.put addr (seen o o' sameView) ?_⟩
  rw [kept, kept, (getStateObject_fst_live got).2, (getStateObject_fst_live got').2]

/-- A method called through `getStateObject` panics exactly where no account is seen. -/
theorem modifyObject_eq_none_iff (w : World) (addr : Address) (f : StateObject → StateObject) :
    w.modifyObject addr f = none ↔ World.accountView db w addr = none := by
  rw [modifyObject_eq, ← getStateObject_fst_view, Option.map_eq_none_iff, Option.map_eq_none_iff]

end World

open World in
/-- Every journal entry's undo respects the equivalence. -/
theorem revert_respects : UndoLog.Respects JournalEntry.revert (World.Equiv db) := by
  intro entry w w' undone equiv reverted
  cases entry with
  | createObjectChange account =>
      cases reverted
      exact ⟨_, rfl, equiv.drop account _ _⟩
  | resetObjectChange prev =>
      cases reverted
      exact ⟨_, rfl, equiv.put prev.address rfl rfl⟩
  | suicideChange account prev prevbalance =>
      cases reverted
      let undoSuicide := fun o : StateObject => { o.setBalance prevbalance with suicided := prev }
      -- the undo only acts where an account is seen, in both worlds alike
      cases modified : w'.modifyObject account undoSuicide with
      | none =>
          have nothing : World.accountView db w' account = none :=
            (modifyObject_eq_none_iff w' account undoSuicide).mp modified
          rw [← equiv.accounts, ← modifyObject_eq_none_iff w account undoSuicide] at nothing
          exact ⟨w, by simp only [JournalEntry.revert]; rw [nothing]; rfl, equiv⟩
      | some undone =>
          obtain ⟨undone', modified', equiv'⟩ := modifyObject_respects undoSuicide
            (fun o o' same => by simp [undoSuicide, same]) (fun _ => rfl) equiv modified
          exact ⟨undone', by simp only [JournalEntry.revert]; rw [modified']; rfl, equiv'⟩
  | balanceChange account prev =>
      exact modifyObject_respects (·.setBalance prev) (fun o o' same => by simp [same])
        (fun _ => rfl) equiv reverted
  | nonceChange account prev =>
      exact modifyObject_respects (·.setNonce prev) (fun o o' same => by simp [same])
        (fun _ => rfl) equiv reverted
  | storageChange account key prevalue =>
      exact modifyObject_respects (·.setState key prevalue) (fun o o' same => by simp [same])
        (fun _ => rfl) equiv reverted
  | codeChange account prevcode prevhash =>
      exact modifyObject_respects (·.setCode prevhash prevcode) (fun o o' same => by simp [same])
        (fun _ => rfl) equiv reverted
  | refundChange prev =>
      cases reverted
      exact ⟨_, rfl, { equiv with refund := rfl }⟩
  | addLogChange txhash =>
      -- both worlds hold the same logs, so the undo takes the same branch
      simp only [JournalEntry.revert, ← equiv.logs, ← equiv.logSize] at reverted ⊢
      by_cases single : (w.logs txhash).length = 1
      · simp only [single, if_true, Option.some.injEq] at reverted ⊢
        subst reverted
        exact ⟨_, rfl, { equiv with logs := rfl, logSize := rfl }⟩
      · by_cases none_ : w.logs txhash = []
        · simp [none_] at reverted
        · simp only [single, none_, if_false, Option.some.injEq] at reverted ⊢
          subst reverted
          exact ⟨_, rfl, { equiv with logs := rfl, logSize := rfl }⟩
  | addPreimageChange hash =>
      cases reverted
      exact ⟨_, rfl, { equiv with preimages := by rw [equiv.preimages] }⟩
  | touchChange account =>
      cases reverted
      exact ⟨w, rfl, equiv⟩

/-! ### What the getters return -/

/-- What the getters return, for every address, slot and transaction hash. -/
structure Observation where
  exist : Address → Bool
  empty : Address → Bool
  balance : Address → Int
  nonce : Address → Nat
  code : Address → Bytes
  codeHash : Address → Hash
  state : Address → Hash → Hash
  suicided : Address → Bool
  refund : UInt64
  logs : Hash → List Log
  logSize : Nat
  preimages : Hash → Option Bytes

/-- The values the getters return on a state. -/
def observe (s : StateDB) : Observation where
  exist addr := (s.exist addr).1
  empty addr := (s.empty db addr).1
  balance addr := (s.getBalance addr).1
  nonce addr := (s.getNonce addr).1
  code addr := (s.getCode db addr).1
  codeHash addr := (s.getCodeHash addr).1
  state addr key := (s.getState db addr key).1
  suicided addr := (s.hasSuicided addr).1
  refund := s.getRefund
  logs := s.getLogs
  logSize := s.world.logSize
  preimages := s.preimages

/-- `empty` as it reads the account seen. -/
def AccountView.empty (v : AccountView) : Bool :=
  v.nonce = 0 && v.balance = 0 && v.codeHash = emptyCodeHash db

section Getters

variable (s : StateDB) (addr : Address)

/-- A getter that reads an object through what is seen of it reads the account seen. -/
theorem getStateObject_fst_map {α : Type} {read : StateObject → α} {readView : AccountView → α}
    (through : ∀ o, read o = readView (StateObject.view db o)) :
    (s.world.getStateObject addr).1.map read = (World.accountView db s.world addr).map readView := by
  rw [← World.getStateObject_fst_view, Option.map_map]
  congr 1
  funext o
  exact through o

theorem exist_fst : (s.exist addr).1 = (World.accountView db s.world addr).isSome := by
  simp only [StateDB.exist, StateDB.getStateObject, ← World.getStateObject_fst_view,
    Option.isSome_map]

theorem empty_fst :
    (s.empty db addr).1 = ((World.accountView db s.world addr).map (AccountView.empty db)).getD true := by
  have reads := @getStateObject_fst_map db s addr _ (fun o => o.empty db)
    (AccountView.empty db) fun _ => rfl
  rw [← reads]
  unfold StateDB.empty StateDB.getStateObject
  rcases s.world.getStateObject addr with ⟨_ | _, _⟩ <;> rfl

theorem getBalance_fst :
    (s.getBalance addr).1 = ((World.accountView db s.world addr).map (·.balance)).getD 0 := by
  rw [← getStateObject_fst_map db s addr fun _ => rfl]
  rfl

theorem getNonce_fst :
    (s.getNonce addr).1 = ((World.accountView db s.world addr).map (·.nonce)).getD 0 := by
  rw [← getStateObject_fst_map db s addr fun _ => rfl]
  rfl

theorem getCodeHash_fst :
    (s.getCodeHash addr).1 = ((World.accountView db s.world addr).map (·.codeHash)).getD 0 := by
  rw [← getStateObject_fst_map db s addr fun _ => rfl]
  rfl

theorem hasSuicided_fst :
    (s.hasSuicided addr).1 = ((World.accountView db s.world addr).map (·.suicided)).getD false := by
  rw [← getStateObject_fst_map db s addr fun _ => rfl]
  rfl

theorem getCode_fst :
    (s.getCode db addr).1 = ((World.accountView db s.world addr).map (·.code)).getD [] := by
  have reads := @getStateObject_fst_map db s addr _ (fun o => (o.loadCode db).1)
    (·.code) fun o => StateObject.loadCode_fst o
  rw [← reads]
  unfold StateDB.getCode StateDB.getStateObject
  rcases s.world.getStateObject addr with ⟨_ | _, _⟩ <;> rfl

theorem getState_fst (key : Hash) :
    (s.getState db addr key).1 = ((World.accountView db s.world addr).map (·.storage key)).getD 0 := by
  have reads := @getStateObject_fst_map db s addr _ (fun o => (o.getState db key).1)
    (·.storage key) fun o => StateObject.getState_fst o key
  rw [← reads]
  unfold StateDB.getState StateDB.getStateObject
  rcases s.world.getStateObject addr with ⟨_ | _, _⟩ <;> rfl

end Getters

/-- States whose worlds are seen alike return the same values from every getter. -/
theorem observe_eq_of_equiv {s t : StateDB} (equiv : World.Equiv db s.world t.world) :
    observe db s = observe db t := by
  have accounts := equiv.accounts
  unfold observe
  simp only [exist_fst db, empty_fst, getBalance_fst db, getNonce_fst db, getCode_fst,
    getCodeHash_fst db, getState_fst, hasSuicided_fst db, accounts]
  congr 1
  · exact equiv.refund
  · exact equiv.logs
  · exact equiv.logSize
  · exact equiv.preimages

end Tangerine.Proof.StateView
