import Tangerine.Proof.State.View

/-! What each call on the state database does to its journal. -/

namespace Tangerine.Proof.StateSteps

open Tangerine.Common Tangerine.Core.State Tangerine.Library Tangerine.Proof.StateView Function

/-- The invariant of every state the database reaches. -/
structure Consistent (s : StateDB) : Prop where
  addressed : ∀ addr o, s.world.stateObjects addr = some o → o.address = addr
  deletedGone : ∀ addr o, s.world.stateObjects addr = some o → o.deleted = true →
    s.world.trie addr = none
  dirtyLive : ∀ addr o, addr ∈ s.journal.dirties → s.world.stateObjects addr = some o →
    o.deleted = false
  resetLive : ∀ prev, JournalEntry.resetObjectChange prev ∈ s.journal.entries → prev.deleted = false
  counted : ∀ addr, ((s.journal.entries.countP (·.dirtied = some addr) : Nat) : Int) ≤
    (s.journal.dirties.lookup addr).getD 0

variable (db : Database)

/-- `s'` is `s` with `log` appended to the journal, whose undo leads back to `s`. -/
structure Extends (s s' : StateDB) (log : List JournalEntry) : Prop where
  entries : s'.journal.entries = s.journal.entries ++ log
  undoes : UndoLog.Undoes JournalEntry.revert (World.Equiv db) log s.world s'.world
  revisions : s'.validRevisions = s.validRevisions
  nextRevisionId : s'.nextRevisionId = s.nextRevisionId

variable {db}

/-- Two calls in a row extend the journal by both logs. -/
theorem Extends.trans {s s' s'' : StateDB} {first second : List JournalEntry}
    (extends₁ : Extends db s s' first) (extends₂ : Extends db s' s'' second) :
    Extends db s s'' (first ++ second) where
  entries := by rw [extends₂.entries, extends₁.entries, List.append_assoc]
  undoes := extends₁.undoes.append (revert_respects db) World.Equiv.trans extends₂.undoes
  revisions := extends₂.revisions.trans extends₁.revisions
  nextRevisionId := extends₂.nextRevisionId.trans extends₁.nextRevisionId

/-- A call that journals nothing and changes nothing seen. -/
theorem Extends.of_equiv {s s' : StateDB} (entries : s'.journal.entries = s.journal.entries)
    (equiv : World.Equiv db s'.world s.world) (revisions : s'.validRevisions = s.validRevisions)
    (nextRevisionId : s'.nextRevisionId = s.nextRevisionId) : Extends db s s' [] where
  entries := by rw [entries, List.append_nil]
  undoes := .of_equiv equiv
  revisions := revisions
  nextRevisionId := nextRevisionId

/-! ### The fields each primitive step keeps -/

namespace StateDBFrame

variable (s : StateDB)

@[simp] theorem append_world (entry : JournalEntry) : (s.append entry).world = s.world := rfl

@[simp] theorem append_validRevisions (entry : JournalEntry) :
    (s.append entry).validRevisions = s.validRevisions := rfl

@[simp] theorem append_nextRevisionId (entry : JournalEntry) :
    (s.append entry).nextRevisionId = s.nextRevisionId := rfl

@[simp] theorem append_entries (entry : JournalEntry) :
    (s.append entry).journal.entries = s.journal.entries ++ [entry] := by
  simp only [StateDB.append, Journal.append]
  cases entry.dirtied <;> rfl

theorem mem_dirty (j : Journal) (addr addr' : Address) :
    addr' ∈ (j.dirty addr).dirties ↔ addr' = addr ∨ addr' ∈ j.dirties := by
  simp [Journal.dirty, AList.mem_insert]

@[simp] theorem dirty_entries (j : Journal) (addr : Address) : (j.dirty addr).entries = j.entries :=
  rfl

theorem lookup_dirty (j : Journal) (addr addr' : Address) :
    ((j.dirty addr).dirties.lookup addr').getD 0 =
      (j.dirties.lookup addr').getD 0 + if addr' = addr then 1 else 0 := by
  by_cases same : addr' = addr
  · subst same
    simp [Journal.dirty]
  · simp [Journal.dirty, same]

theorem lookup_append_dirties (entry : JournalEntry) (addr : Address) :
    ((s.append entry).journal.dirties.lookup addr).getD 0 =
      (s.journal.dirties.lookup addr).getD 0 + if entry.dirtied = some addr then 1 else 0 := by
  simp only [StateDB.append, Journal.append]
  cases dirtied : entry.dirtied with
  | none => simp
  | some addr' => simp [lookup_dirty, eq_comm]

theorem mem_append_dirties (entry : JournalEntry) (addr : Address) :
    addr ∈ (s.append entry).journal.dirties ↔
      entry.dirtied = some addr ∨ addr ∈ s.journal.dirties := by
  simp only [StateDB.append, Journal.append]
  cases dirtied : entry.dirtied with
  | none => simp
  | some addr' => simp [mem_dirty, eq_comm]

@[simp] theorem setStateObject_world (o : StateObject) :
    (s.setStateObject o).world = s.world.setStateObject o := rfl

@[simp] theorem setStateObject_journal (o : StateObject) :
    (s.setStateObject o).journal = s.journal := rfl

@[simp] theorem setStateObject_validRevisions (o : StateObject) :
    (s.setStateObject o).validRevisions = s.validRevisions := rfl

@[simp] theorem setStateObject_nextRevisionId (o : StateObject) :
    (s.setStateObject o).nextRevisionId = s.nextRevisionId := rfl

@[simp] theorem getStateObject_snd_world (addr : Address) :
    (s.getStateObject addr).2.world = (s.world.getStateObject addr).2 := rfl

@[simp] theorem getStateObject_snd_journal (addr : Address) :
    (s.getStateObject addr).2.journal = s.journal := rfl

@[simp] theorem getStateObject_snd_validRevisions (addr : Address) :
    (s.getStateObject addr).2.validRevisions = s.validRevisions := rfl

@[simp] theorem getStateObject_snd_nextRevisionId (addr : Address) :
    (s.getStateObject addr).2.nextRevisionId = s.nextRevisionId := rfl

@[simp] theorem getStateObject_fst (addr : Address) :
    (s.getStateObject addr).1 = (s.world.getStateObject addr).1 := rfl

end StateDBFrame

open StateDBFrame

/-! ### The invariant through the primitive steps -/

namespace Consistent

variable {s : StateDB}

/-- Filing a live object under its address keeps the invariant. -/
theorem put (consistent : Consistent s) {o : StateObject} (live : o.deleted = false) :
    Consistent (s.setStateObject o) where
  addressed addr o' stored := by
    by_cases same : addr = o.address
    · subst same
      simp only [setStateObject_world, World.setStateObject, update_self, Option.some.injEq] at stored
      rw [← stored]
    · simp only [setStateObject_world, World.setStateObject, update_of_ne same] at stored
      exact consistent.addressed addr o' stored
  deletedGone addr o' stored deleted := by
    by_cases same : addr = o.address
    · subst same
      simp only [setStateObject_world, World.setStateObject, update_self, Option.some.injEq] at stored
      rw [← stored, live] at deleted
      cases deleted
    · simp only [setStateObject_world, World.setStateObject, update_of_ne same] at stored
      exact consistent.deletedGone addr o' stored deleted
  dirtyLive addr o' dirty stored := by
    by_cases same : addr = o.address
    · subst same
      simp only [setStateObject_world, World.setStateObject, update_self, Option.some.injEq] at stored
      rw [← stored, live]
    · simp only [setStateObject_world, World.setStateObject, update_of_ne same] at stored
      exact consistent.dirtyLive addr o' dirty stored
  resetLive := consistent.resetLive
  counted := consistent.counted

/-- Appending an entry keeps the invariant when it dirties and keeps live objects only. -/
theorem append (consistent : Consistent s) {entry : JournalEntry}
    (dirtiedLive : ∀ addr, entry.dirtied = some addr → ∀ o, s.world.stateObjects addr = some o →
      o.deleted = false)
    (keptLive : ∀ prev, entry = .resetObjectChange prev → prev.deleted = false) :
    Consistent (s.append entry) where
  addressed := consistent.addressed
  deletedGone := consistent.deletedGone
  dirtyLive addr o dirty stored := by
    rcases (mem_append_dirties s entry addr).mp dirty with dirtied | dirty
    · exact dirtiedLive addr dirtied o stored
    · exact consistent.dirtyLive addr o dirty stored
  resetLive prev member := by
    rw [append_entries, List.mem_append, List.mem_singleton] at member
    rcases member with member | rfl
    · exact consistent.resetLive prev member
    · exact keptLive prev rfl
  counted addr := by
    -- the entry and its dirty count come together
    have counted := consistent.counted addr
    rw [append_entries, List.countP_append, lookup_append_dirties]
    by_cases dirtied : entry.dirtied = some addr <;> simp [dirtied] <;> omega

/-- The invariant reads only the live objects, the trie and the journal. -/
theorem congr (consistent : Consistent s) {s' : StateDB}
    (objects : s'.world.stateObjects = s.world.stateObjects) (trie : s'.world.trie = s.world.trie)
    (journal : s'.journal = s.journal) : Consistent s' where
  addressed addr o := by rw [objects]; exact consistent.addressed addr o
  deletedGone addr o := by rw [objects, trie]; exact consistent.deletedGone addr o
  dirtyLive addr o := by rw [objects, journal]; exact consistent.dirtyLive addr o
  resetLive := by rw [journal]; exact consistent.resetLive
  counted := by rw [journal]; exact consistent.counted

/-- Loading an account from the trie keeps the invariant. -/
theorem load (consistent : Consistent s) (addr : Address) :
    Consistent (s.getStateObject addr).2 := by
  have loaded := World.getStateObject_snd s.world addr
  cases cached : s.world.stateObjects addr with
  | some _ =>
      have same : (s.getStateObject addr).2 = s := by
        simp only [StateDB.getStateObject, loaded, cached]
      rw [same]
      exact consistent
  | none =>
      cases stored : s.world.trie addr with
      | none =>
          have same : (s.getStateObject addr).2 = s := by
            simp only [StateDB.getStateObject, loaded, cached, stored]
          rw [same]
          exact consistent
      | some data =>
          -- the loaded object is filed under its own address
          have filed : (s.getStateObject addr).2 = s.setStateObject (newObject addr data) := by
            simp only [StateDB.getStateObject, loaded, cached, stored]
            rfl
          rw [filed]
          exact consistent.put rfl

end Consistent

/-- An object is live in a state when it is filed under its address and not deleted. -/
structure Live (s : StateDB) (o : StateObject) : Prop where
  cached : s.world.stateObjects o.address = some o
  notDeleted : o.deleted = false

/-! ### Undoing a change to a live object -/

/-- `getStateObject` of a live object returns it and loads nothing. -/
theorem getStateObject_of_live {w : World} {addr : Address} {o : StateObject}
    (cached : w.stateObjects addr = some o) (live : o.deleted = false) :
    w.getStateObject addr = (some o, w) := by
  simp [World.getStateObject, cached, live]

variable (db) in
/-- An entry that restores through `getStateObject` undoes a change to a live object. -/
theorem undo_setStateObject {w : World} {o : StateObject}
    (cached : w.stateObjects o.address = some o) (live : o.deleted = false) (o' : StateObject)
    (address : o'.address = o.address) (live' : o'.deleted = false) (f : StateObject → StateObject)
    (restores : StateObject.view db (f o') = StateObject.view db o)
    (keeps : (f o').deleted = false) :
    ∃ undone, (w.setStateObject o').modifyObject o.address f = some undone ∧
      World.Equiv db undone w := by
  have found : (w.setStateObject o').stateObjects o.address = some o' := by
    simp [World.setStateObject, address]
  refine ⟨_, by rw [World.modifyObject, getStateObject_of_live found live'], ?_⟩
  -- writing `f o'` over `o'` is writing it over `o`, which `w` holds there
  have unchanged : w = { w with stateObjects := update w.stateObjects o.address (some o) } := by
    rw [update_eq_self_iff.mpr cached.symm]
  conv => rhs; rw [unchanged]
  simp only [World.setStateObject, address, update_idem]
  exact (World.Equiv.refl w).put o.address restores (by rw [keeps, live])

/-- Filing an object seen as the live one at its address changes nothing seen. -/
theorem equiv_setStateObject {w : World} {o o' : StateObject}
    (cached : w.stateObjects o.address = some o) (address : o'.address = o.address)
    (seen : StateObject.view db o' = StateObject.view db o) (deleted : o'.deleted = o.deleted) :
    World.Equiv db (w.setStateObject o') w := by
  have unchanged : w = { w with stateObjects := update w.stateObjects o.address (some o) } := by
    rw [update_eq_self_iff.mpr cached.symm]
  conv => rhs; rw [unchanged]
  simp only [World.setStateObject, address]
  exact (World.Equiv.refl w).put o.address seen deleted

/-! ### Calls that journal their changes -/

variable (db) in
/-- A call keeps the invariant and extends the journal by a log whose undo leads back. -/
structure Journaled (s s' : StateDB) : Prop where
  consistent : Consistent s'
  extended : ∃ log, Extends db s s' log

theorem Journaled.trans {s s' s'' : StateDB} (first : Journaled db s s')
    (second : Journaled db s' s'') : Journaled db s s'' where
  consistent := second.consistent
  extended := by
    obtain ⟨log, extended⟩ := first.extended
    obtain ⟨log', extended'⟩ := second.extended
    exact ⟨log ++ log', extended.trans extended'⟩

/-- A call that only fills caches. -/
theorem Journaled.of_equiv {s s' : StateDB} (consistent : Consistent s')
    (entries : s'.journal.entries = s.journal.entries) (equiv : World.Equiv db s'.world s.world)
    (revisions : s'.validRevisions = s.validRevisions)
    (nextRevisionId : s'.nextRevisionId = s.nextRevisionId) : Journaled db s s' :=
  ⟨consistent, [], .of_equiv entries equiv revisions nextRevisionId⟩

theorem setStateObject_setStateObject (w : World) {o o' : StateObject}
    (address : o.address = o'.address) :
    (w.setStateObject o).setStateObject o' = w.setStateObject o' := by
  simp [World.setStateObject, address]

/-- Loading an account is a call that only fills caches. -/
theorem getStateObject_journaled {s : StateDB} (consistent : Consistent s) (addr : Address) :
    Journaled db s (s.getStateObject addr).2 :=
  .of_equiv (consistent.load addr) rfl (World.getStateObject_snd_equiv s.world addr) rfl rfl

/-- The shape of the journaled object methods. -/
theorem append_put_journaled {s : StateDB} {o o' : StateObject} (consistent : Consistent s)
    (live : Live s o) {entry : JournalEntry} (dirtied : entry.dirtied = some o.address)
    (notReset : ∀ prev, entry ≠ .resetObjectChange prev) (live' : o'.deleted = false)
    (undoes : ∃ undone, entry.revert (s.world.setStateObject o') = some undone ∧
      World.Equiv db undone s.world) :
    Journaled db s ((s.append entry).setStateObject o') where
  consistent := by
    refine (consistent.append ?_ fun prev same => absurd same (notReset prev)).put live'
    intro addr dirtiedAt o'' stored
    rw [dirtied, Option.some.injEq] at dirtiedAt
    subst dirtiedAt
    rw [live.cached, Option.some.injEq] at stored
    rw [← stored, live.notDeleted]
  extended := by
    obtain ⟨undone, undid, equiv⟩ := undoes
    exact ⟨[entry], by simp, .single undid equiv, rfl, rfl⟩

/-- Counting one more change at an address that holds no deleted object keeps the invariant. -/
theorem Consistent.dirty {s : StateDB} (consistent : Consistent s) {addr : Address}
    (live : ∀ o, s.world.stateObjects addr = some o → o.deleted = false) :
    Consistent { s with journal := s.journal.dirty addr } where
  addressed := consistent.addressed
  deletedGone := consistent.deletedGone
  dirtyLive addr' o dirty stored := by
    rcases (mem_dirty s.journal addr addr').mp dirty with rfl | dirty
    · exact live o stored
    · exact consistent.dirtyLive addr' o dirty stored
  resetLive := consistent.resetLive
  counted addr' := by
    have counted := consistent.counted addr'
    simp only [dirty_entries, lookup_dirty]
    split <;> omega

/-! ### The journaled methods of a live object -/

section ObjectMethods

variable {s : StateDB} {o : StateObject} (consistent : Consistent s) (live : Live s o)
include consistent live

theorem objectSetBalance_journaled (amount : Int) : Journaled db s (s.objectSetBalance o amount) :=
  append_put_journaled consistent live rfl (fun _ same => by cases same) live.notDeleted
    (undo_setStateObject db live.cached live.notDeleted (o.setBalance amount) rfl live.notDeleted
      (·.setBalance o.data.balance) rfl live.notDeleted)

theorem objectSetNonce_journaled (nonce : Nat) : Journaled db s (s.objectSetNonce o nonce) :=
  append_put_journaled consistent live rfl (fun _ same => by cases same) live.notDeleted
    (undo_setStateObject db live.cached live.notDeleted (o.setNonce nonce) rfl live.notDeleted
      (·.setNonce o.data.nonce) rfl live.notDeleted)

theorem objectSetCode_journaled (codeHash : Hash) (code : Bytes) :
    Journaled db s (s.objectSetCode db o codeHash code) := by
  -- the journal keeps the code `Code` loaded, which is the code seen
  let loaded := (o.loadCode db).2
  have address : loaded.address = o.address := StateObject.loadCode_snd_address o
  have loadedLive : loaded.deleted = false := by simp [loaded, live.notDeleted]
  have seen : StateObject.view db loaded = StateObject.view db o := StateObject.view_loadCode_snd o
  show Journaled db s ((s.append (.codeChange loaded.address (o.loadCode db).1
    loaded.data.codeHash)).setStateObject (loaded.setCode codeHash code))
  refine append_put_journaled consistent live (by simp [JournalEntry.dirtied, address])
    (fun _ same => by cases same) loadedLive ?_
  have restored := undo_setStateObject db live.cached live.notDeleted (loaded.setCode codeHash code)
    address loadedLive (·.setCode loaded.data.codeHash (o.loadCode db).1)
    (by
      have code : StateObject.loadedCode db o = (StateObject.view db loaded).code := by rw [seen]; rfl
      rw [StateObject.view_setCode, StateObject.view_setCode, StateObject.loadCode_fst, code, ← seen]
      rfl)
    loadedLive
  simpa [JournalEntry.revert, address] using restored

theorem objectSetState_journaled (key value : Hash) :
    Journaled db s (s.objectSetState db o key value) := by
  let read := (o.getState db key).2
  have address : read.address = o.address := StateObject.getState_snd_address o key
  have seen : StateObject.view db read = StateObject.view db o := StateObject.view_getState_snd o key
  have readLive : read.deleted = false := by simp [read, live.notDeleted]
  unfold StateDB.objectSetState
  by_cases same : (o.getState db key).1 = value
  · -- writing the value the slot holds only fills caches
    simp only [same, if_true]
    exact .of_equiv (consistent.put readLive) rfl
      (equiv_setStateObject live.cached address seen (by rw [readLive, live.notDeleted])) rfl rfl
  · simp only [same, if_false]
    refine append_put_journaled consistent live (by simp [JournalEntry.dirtied])
      (fun _ same => by cases same) readLive ?_
    have restored := undo_setStateObject db live.cached live.notDeleted (read.setState key value)
      address readLive (·.setState key (o.getState db key).1)
      (by
        rw [StateObject.view_setState, StateObject.view_setState, StateObject.getState_fst, ← seen,
          update_idem]
        simp)
      readLive
    simpa [JournalEntry.revert, address] using restored

theorem objectTouch_journaled : Journaled db s (s.objectTouch o) := by
  have touched : Journaled db s (s.append (.touchChange o.address)) := by
    refine ⟨consistent.append ?_ (fun _ same => by cases same), [.touchChange o.address],
      by simp, .single rfl (World.Equiv.refl s.world), rfl, rfl⟩
    intro addr dirtied o' stored
    simp only [JournalEntry.dirtied, Option.some.injEq] at dirtied
    subst dirtied
    rw [live.cached, Option.some.injEq] at stored
    rw [← stored, live.notDeleted]
  unfold StateDB.objectTouch
  split
  · -- the ripemd precompile is counted once more
    obtain ⟨touchedConsistent, log, extended⟩ := touched
    refine ⟨touchedConsistent.dirty ?_, log, extended.entries, extended.undoes, rfl, rfl⟩
    intro o' stored
    rw [append_world, live.cached, Option.some.injEq] at stored
    rw [← stored, live.notDeleted]
  · exact touched

theorem objectAddBalance_journaled (amount : Int) :
    Journaled db s (s.objectAddBalance db o amount) := by
  unfold StateDB.objectAddBalance
  split
  · split
    · exact objectTouch_journaled consistent live
    · exact .of_equiv consistent rfl (World.Equiv.refl s.world) rfl rfl
  · exact objectSetBalance_journaled consistent live _

theorem objectSubBalance_journaled (amount : Int) :
    Journaled db s (s.objectSubBalance o amount) := by
  unfold StateDB.objectSubBalance
  split
  · exact .of_equiv consistent rfl (World.Equiv.refl s.world) rfl rfl
  · exact objectSetBalance_journaled consistent live _

end ObjectMethods

/-! ### Creating an account -/

/-- `getStateObject` that finds no account loads nothing. -/
theorem getStateObject_snd_of_none {w : World} {addr : Address}
    (none_ : (w.getStateObject addr).1 = none) : (w.getStateObject addr).2 = w := by
  unfold Tangerine.Core.State.World.getStateObject at none_ ⊢
  cases cached : w.stateObjects addr with
  | some o => by_cases deleted : o.deleted <;> simp [deleted]
  | none =>
      rw [cached] at none_
      cases stored : w.trie addr with
      | none => rfl
      | some _ => simp [stored] at none_

/-- Under the invariant, an address where `getStateObject` finds no account has none in the trie. -/
theorem trie_of_getStateObject_none {s : StateDB} (consistent : Consistent s) {addr : Address}
    (none_ : (s.world.getStateObject addr).1 = none) : s.world.trie addr = none := by
  unfold Tangerine.Core.State.World.getStateObject at none_
  cases cached : s.world.stateObjects addr with
  | some o =>
      rw [cached] at none_
      cases deleted : o.deleted with
      | true => exact consistent.deletedGone addr o cached deleted
      | false => simp [deleted] at none_
  | none =>
      rw [cached] at none_
      cases stored : s.world.trie addr with
      | none => rfl
      | some _ => simp [stored] at none_

theorem getStateObject_eq (s : StateDB) (addr : Address) :
    s.getStateObject addr = ((s.world.getStateObject addr).1,
      { s with world := (s.world.getStateObject addr).2 }) := rfl

@[simp] theorem createObject_fst_address (s : StateDB) (addr : Address) :
    (s.createObject db addr).1.address = addr := by
  rw [StateDB.createObject, getStateObject_eq]
  rfl

@[simp] theorem createObject_fst_deleted (s : StateDB) (addr : Address) :
    (s.createObject db addr).1.deleted = false := by
  rw [StateDB.createObject, getStateObject_eq]
  rfl

/-- `createObject` followed by filing a live object at the address is journaled. -/
theorem createObject_put_journaled {s : StateDB} (consistent : Consistent s) (addr : Address)
    (x : StateObject) (address : x.address = addr) (live : x.deleted = false) :
    Journaled db s ((s.createObject db addr).2.2.setStateObject x) := by
  have filedTwice : ∀ (t : StateDB),
      (t.setStateObject ((newObject addr (Account.blank db)).setNonce 0)).setStateObject x =
        t.setStateObject x := fun t => by
    have sameAddress : ((newObject addr (Account.blank db)).setNonce 0).address = x.address :=
      address.symm
    simp only [StateDB.setStateObject, setStateObject_setStateObject _ sameAddress]
  rw [StateDB.createObject, getStateObject_eq]
  cases got : (s.world.getStateObject addr).1 with
  | none =>
      -- no account: the undo drops the object, and the trie has no account there either
      have unloaded := getStateObject_snd_of_none got
      have noAccount := trie_of_getStateObject_none consistent got
      have seenBefore : World.accountView db s.world addr = none := by
        rw [← World.getStateObject_fst_view, got]
        rfl
      simp only [unloaded]
      rw [filedTwice]
      show Journaled db s ((s.setStateObject x).append (.createObjectChange addr))
      refine ⟨?_, [.createObjectChange addr], by simp, .single rfl ?_, rfl, rfl⟩
      · refine (consistent.put live).append ?_ ?_
        · intro addr' dirtied o stored
          simp only [JournalEntry.dirtied, Option.some.injEq] at dirtied
          subst dirtied
          simp only [setStateObject_world, World.setStateObject, address, update_self,
            Option.some.injEq] at stored
          rw [← stored, live]
        · intro prev same
          cases same
      · refine ⟨rfl, fun addr' => ?_, rfl, rfl, rfl, rfl⟩
        by_cases same : addr' = addr
        · subst same
          rw [seenBefore]
          simp [World.accountView, World.setStateObject, noAccount]
        · exact World.accountView_congr
            (by simp [World.setStateObject, address, update_of_ne same]) rfl
  | some prev =>
      -- an account: the undo files it back
      obtain ⟨filed, prevLive⟩ := World.getStateObject_fst_live got
      have loaded := consistent.load addr
      have prevAddress : prev.address = addr := loaded.addressed addr prev filed
      rw [filedTwice]
      refine (getStateObject_journaled consistent addr).trans ?_
      show Journaled db (s.getStateObject addr).2
        (((s.getStateObject addr).2.setStateObject x).append (.resetObjectChange prev))
      refine ⟨?_, [.resetObjectChange prev], by simp, .single rfl ?_, rfl, rfl⟩
      · refine (loaded.put live).append ?_ ?_
        · intro addr' dirtied
          cases dirtied
        · intro prev' same
          cases same
          exact prevLive
      · -- filing `prev` over `x` gives back the world the load left
        show World.Equiv db (((s.world.getStateObject addr).2.setStateObject x).setStateObject prev) _
        rw [setStateObject_setStateObject _ (address.trans prevAddress.symm)]
        have unchanged : update (s.world.getStateObject addr).2.stateObjects addr (some prev) =
            (s.world.getStateObject addr).2.stateObjects := by
          rw [← filed]
          exact update_eq_self addr _
        simp only [World.setStateObject, prevAddress, unchanged]
        exact World.Equiv.refl _

/-- The object `createObject` files is the one it returns. -/
theorem createObject_put_self (s : StateDB) (addr : Address) :
    (s.createObject db addr).2.2.setStateObject (s.createObject db addr).1 =
      (s.createObject db addr).2.2 := by
  rw [StateDB.createObject, getStateObject_eq]
  cases (s.world.getStateObject addr).1 <;>
    simp only [StateDB.setStateObject, setStateObject_setStateObject _ rfl]

theorem createObject_live (s : StateDB) (addr : Address) :
    Live (s.createObject db addr).2.2 (s.createObject db addr).1 where
  cached := by
    rw [← createObject_put_self]
    simp [World.setStateObject]
  notDeleted := createObject_fst_deleted s addr

theorem createObject_journaled {s : StateDB} (consistent : Consistent s) (addr : Address) :
    Journaled db s (s.createObject db addr).2.2 := by
  have journaled : Journaled db s ((s.createObject db addr).2.2.setStateObject
      (s.createObject db addr).1) :=
    createObject_put_journaled consistent addr (s.createObject db addr).1
      (createObject_fst_address s addr) (createObject_fst_deleted s addr)
  rwa [createObject_put_self] at journaled

/-- `GetOrNewStateObject` returns a live object, creating one where there is no account. -/
theorem getOrNewStateObject_journaled {s : StateDB} (consistent : Consistent s) (addr : Address) :
    Journaled db s (s.getOrNewStateObject db addr).2 ∧
      Live (s.getOrNewStateObject db addr).2 (s.getOrNewStateObject db addr).1 := by
  unfold StateDB.getOrNewStateObject
  rw [getStateObject_eq]
  cases got : (s.world.getStateObject addr).1 with
  | none =>
      have unloaded : { s with world := (s.world.getStateObject addr).2 } = s := by
        rw [getStateObject_snd_of_none got]
      simp only [unloaded]
      exact ⟨createObject_journaled consistent addr, createObject_live s addr⟩
  | some o =>
      obtain ⟨filed, live⟩ := World.getStateObject_fst_live got
      have address := (consistent.load addr).addressed addr o filed
      simp only [live, Bool.false_eq_true, if_false]
      refine ⟨getStateObject_journaled consistent addr, ⟨?_, live⟩⟩
      rw [address]
      exact filed

/-! ### The setters -/

section Setters

variable {s : StateDB} (consistent : Consistent s) (addr : Address)
include consistent

/-- A setter that finds or creates the object and then calls one of its journaled methods. -/
theorem getOrNew_then_journaled {method : StateDB → StateObject → StateDB}
    (journaled : ∀ s o, Consistent s → Live s o → Journaled db s (method s o)) :
    Journaled db s (method (s.getOrNewStateObject db addr).2 (s.getOrNewStateObject db addr).1) := by
  obtain ⟨got, live⟩ := getOrNewStateObject_journaled consistent addr
  exact got.trans (journaled _ _ got.consistent live)

theorem addBalance_journaled (amount : Int) : Journaled db s (s.addBalance db addr amount) :=
  getOrNew_then_journaled consistent addr
    fun _ _ consistent live => objectAddBalance_journaled consistent live amount

theorem subBalance_journaled (amount : Int) : Journaled db s (s.subBalance db addr amount) :=
  getOrNew_then_journaled consistent addr
    fun _ _ consistent live => objectSubBalance_journaled consistent live amount

theorem setBalance_journaled (amount : Int) : Journaled db s (s.setBalance db addr amount) :=
  getOrNew_then_journaled consistent addr
    fun _ _ consistent live => objectSetBalance_journaled consistent live amount

theorem setNonce_journaled (nonce : Nat) : Journaled db s (s.setNonce db addr nonce) :=
  getOrNew_then_journaled consistent addr
    fun _ _ consistent live => objectSetNonce_journaled consistent live nonce

theorem setCode_journaled (code : Bytes) : Journaled db s (s.setCode db addr code) :=
  getOrNew_then_journaled consistent addr
    fun _ _ consistent live => objectSetCode_journaled consistent live _ code

theorem setState_journaled (key value : Hash) : Journaled db s (s.setState db addr key value) :=
  getOrNew_then_journaled consistent addr
    fun _ _ consistent live => objectSetState_journaled consistent live key value

theorem suicide_journaled : Journaled db s (s.suicide addr).2 := by
  unfold StateDB.suicide
  rw [getStateObject_eq]
  cases got : (s.world.getStateObject addr).1 with
  | none => exact getStateObject_journaled consistent addr
  | some o =>
      obtain ⟨filed, live⟩ := World.getStateObject_fst_live got
      have loaded := consistent.load addr
      have address := loaded.addressed addr o filed
      have isLive : Live (s.getStateObject addr).2 o := ⟨by rw [address]; exact filed, live⟩
      refine (getStateObject_journaled consistent addr).trans ?_
      refine append_put_journaled loaded isLive (by simp [JournalEntry.dirtied, address])
        (fun _ same => by cases same) live ?_
      obtain ⟨undone, undid, equiv⟩ := undo_setStateObject db isLive.cached live
        (o.markSuicided.setBalance 0) rfl live
        (fun o' => { o'.setBalance o.data.balance with suicided := o.suicided }) rfl live
      refine ⟨undone, ?_, equiv⟩
      rw [address] at undid
      simp only [JournalEntry.revert]
      erw [undid]
      rfl

theorem createAccount_journaled : Journaled db s (s.createAccount db addr) := by
  unfold StateDB.createAccount
  cases prev : (s.createObject db addr).2.1 with
  | none =>
      simp only [prev]
      exact createObject_journaled consistent addr
  | some prev' =>
      simp only [prev]
      exact createObject_put_journaled consistent addr _ (createObject_fst_address s addr)
        (createObject_fst_deleted s addr)

end Setters

/-! ### The setters of the logs, preimages and refund counter -/

/-- The undo of `AddLog` takes off the log it filed. -/
theorem revert_addLogChange (w : World) (log : Log) :
    (JournalEntry.addLogChange w.thash).revert
      { w with logs := update w.logs w.thash (w.logs w.thash ++ [log]), logSize := w.logSize + 1 } =
      some w := by
  simp only [JournalEntry.revert, update_self, List.length_append, List.length_singleton,
    Nat.add_sub_cancel, update_idem]
  by_cases empty : w.logs w.thash = []
  · have unchanged : update w.logs w.thash [] = w.logs := by
      rw [← empty]
      exact update_eq_self _ _
    simp [empty, unchanged]
  · simp


section Counters

variable {s : StateDB} (consistent : Consistent s)
include consistent

/-- Appending an entry that dirties no address and keeps no object keeps the invariant. -/
theorem Consistent.append_counters {entry : JournalEntry} (dirtied : entry.dirtied = none)
    (notReset : ∀ prev, entry ≠ .resetObjectChange prev) (world : World)
    (objects : world.stateObjects = s.world.stateObjects) (trie : world.trie = s.world.trie) :
    Consistent { s.append entry with world } := by
  have appended : Consistent (s.append entry) := consistent.append (fun _ dirtiedAt => by
    rw [dirtied] at dirtiedAt; cases dirtiedAt) (fun prev same => absurd same (notReset prev))
  exact appended.congr objects trie rfl

theorem addLog_journaled (log : Log) : Journaled db s (s.addLog log) := by
  refine ⟨consistent.append_counters rfl (fun _ same => by cases same) _ rfl rfl,
    [.addLogChange s.world.thash], by simp [StateDB.addLog], .single ?_ (World.Equiv.refl s.world),
    rfl, rfl⟩
  exact revert_addLogChange s.world _

theorem addPreimage_journaled (hash : Hash) (preimage : Bytes) :
    Journaled db s (s.addPreimage hash preimage) := by
  unfold StateDB.addPreimage
  cases kept : s.world.preimages hash with
  | some _ => exact .of_equiv consistent rfl (World.Equiv.refl s.world) rfl rfl
  | none =>
      refine ⟨consistent.append_counters rfl (fun _ same => by cases same) _ rfl rfl,
        [.addPreimageChange hash], by simp, .single rfl ?_, rfl, rfl⟩
      -- the undo forgets the preimage, which the state did not hold
      have unchanged : update s.world.preimages hash none = s.world.preimages := by
        rw [← kept]
        exact update_eq_self _ _
      simp only [append_world, update_idem, unchanged]
      exact World.Equiv.refl _

theorem addRefund_journaled (gas : UInt64) : Journaled db s (s.addRefund gas) :=
  ⟨consistent.append_counters rfl (fun _ same => by cases same) _ rfl rfl,
    [.refundChange s.world.refund], by simp [StateDB.addRefund], .single rfl (World.Equiv.refl _),
    rfl, rfl⟩

theorem subRefund_journaled {s' : StateDB} (gas : UInt64) (subtracted : s.subRefund gas = some s') :
    Journaled db s s' := by
  unfold StateDB.subRefund at subtracted
  by_cases below : gas > s.world.refund
  · simp [below] at subtracted
  · simp only [append_world, below, if_false, Option.some.injEq] at subtracted
    subst subtracted
    exact ⟨consistent.append_counters rfl (fun _ same => by cases same) _ rfl rfl,
      [.refundChange s.world.refund], by simp, .single rfl (World.Equiv.refl _), rfl, rfl⟩

end Counters

/-! ### The getters only fill caches -/

section Getters

variable {s : StateDB} (consistent : Consistent s) (addr : Address)
include consistent

/-- A getter that files back the object with caches filled is journaled. -/
theorem refile_journaled (fill : StateObject → StateObject)
    (seen : ∀ o, StateObject.view db (fill o) = StateObject.view db o)
    (address : ∀ o, (fill o).address = o.address) (deleted : ∀ o, (fill o).deleted = o.deleted) :
    ∀ o, (s.world.getStateObject addr).1 = some o →
      Journaled db s ((s.getStateObject addr).2.setStateObject (fill o)) := by
  intro o got
  obtain ⟨filed, live⟩ := World.getStateObject_fst_live got
  have loaded := consistent.load addr
  have addressed := loaded.addressed addr o filed
  refine (getStateObject_journaled consistent addr).trans (.of_equiv ?_ rfl ?_ rfl rfl)
  · exact loaded.put (by rw [deleted, live])
  · exact equiv_setStateObject (by rw [addressed]; exact filed) (address o) (seen o) (deleted o)

theorem getCode_journaled : Journaled db s (s.getCode db addr).2 := by
  unfold StateDB.getCode
  rw [getStateObject_eq]
  cases got : (s.world.getStateObject addr).1 with
  | none => exact getStateObject_journaled consistent addr
  | some o =>
      exact refile_journaled consistent addr (fun o => (o.loadCode db).2)
        StateObject.view_loadCode_snd StateObject.loadCode_snd_address StateObject.loadCode_snd_deleted
        o got

theorem getState_journaled (key : Hash) : Journaled db s (s.getState db addr key).2 := by
  unfold StateDB.getState
  rw [getStateObject_eq]
  cases got : (s.world.getStateObject addr).1 with
  | none => exact getStateObject_journaled consistent addr
  | some o =>
      exact refile_journaled consistent addr (fun o => (o.getState db key).2)
        (StateObject.view_getState_snd · key) (StateObject.getState_snd_address · key)
        (StateObject.getState_snd_deleted · key) o got

theorem getCommittedState_journaled (key : Hash) :
    Journaled db s (s.getCommittedState db addr key).2 := by
  unfold StateDB.getCommittedState
  rw [getStateObject_eq]
  cases got : (s.world.getStateObject addr).1 with
  | none => exact getStateObject_journaled consistent addr
  | some o =>
      exact refile_journaled consistent addr (fun o => (o.getCommittedState db key).2)
        (StateObject.view_getCommittedState_snd · key)
        (StateObject.getCommittedState_snd_address · key)
        (StateObject.getCommittedState_snd_deleted · key) o got

theorem empty_journaled : Journaled db s (s.empty db addr).2 := by
  unfold StateDB.empty
  rw [getStateObject_eq]
  cases (s.world.getStateObject addr).1 <;> exact getStateObject_journaled consistent addr

end Getters

/-- Every getter only fills caches. -/
theorem Read.journaled {s : StateDB} (consistent : Consistent s) :
    ∀ getter : Read, Journaled db s (getter.run db s)
  | .exist addr => getStateObject_journaled consistent addr
  | .empty addr => empty_journaled consistent addr
  | .getBalance addr => getStateObject_journaled consistent addr
  | .getNonce addr => getStateObject_journaled consistent addr
  | .getCode addr => getCode_journaled consistent addr
  | .getCodeHash addr => getStateObject_journaled consistent addr
  | .getState addr key => getState_journaled consistent addr key
  | .getCommittedState addr key => getCommittedState_journaled consistent addr key
  | .hasSuicided addr => getStateObject_journaled consistent addr

/-- Every setter that does not panic journals its changes. -/
theorem Mutation.journaled {s s' : StateDB} (consistent : Consistent s) :
    ∀ setter : Mutation, setter.run db s = some s' → Journaled db s s'
  | .addBalance addr amount, ran => by cases ran; exact addBalance_journaled consistent addr amount
  | .subBalance addr amount, ran => by cases ran; exact subBalance_journaled consistent addr amount
  | .setBalance addr amount, ran => by cases ran; exact setBalance_journaled consistent addr amount
  | .setNonce addr nonce, ran => by cases ran; exact setNonce_journaled consistent addr nonce
  | .setCode addr code, ran => by cases ran; exact setCode_journaled consistent addr code
  | .setState addr key value, ran => by cases ran; exact setState_journaled consistent addr key value
  | .suicide addr, ran => by cases ran; exact suicide_journaled consistent addr
  | .createAccount addr, ran => by cases ran; exact createAccount_journaled consistent addr
  | .addLog log, ran => by cases ran; exact addLog_journaled consistent log
  | .addRefund gas, ran => by cases ran; exact addRefund_journaled consistent gas
  | .subRefund gas, ran => subRefund_journaled consistent gas ran
  | .addPreimage hash preimage, ran => by
      cases ran; exact addPreimage_journaled consistent hash preimage

end Tangerine.Proof.StateSteps
