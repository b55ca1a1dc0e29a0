import Tangerine.Proof.State.Steps
import Mathlib.Data.List.GetD

/-! Snapshots and reverts of the state database (`core/state/statedb.go`, `journal.go`). -/

namespace Tangerine.Proof.StateSnapshots

open Tangerine.Common Tangerine.Core.State Tangerine.Library Tangerine.Proof.StateView
  Tangerine.Proof.StateSteps Function

/-! ### Dirty counts through a revert -/

section DirtyCounts

variable (dirties : AList fun _ : Address => Int)

/-- Dropping an entry's dirty count lowers the count of its address by one. -/
theorem lookup_undirty (entry : JournalEntry) (addr : Address) :
    ((Journal.undirty entry dirties).lookup addr).getD 0 =
      (dirties.lookup addr).getD 0 - if entry.dirtied = some addr then 1 else 0 := by
  cases dirtied : entry.dirtied with
  | none => simp [Journal.undirty, dirtied]
  | some addr' =>
      simp only [Journal.undirty, dirtied]
      by_cases same : addr = addr'
      · subst same
        -- a count that reaches zero is deleted, which reads as zero
        by_cases zero : (dirties.lookup addr).getD 0 - 1 = 0 <;> simp [zero]
      · have apart : addr' ≠ addr := Ne.symm same
        split <;> simp [AList.lookup_erase_ne same, AList.lookup_insert_ne same, apart]

/-- An address still counted after the drop was counted before. -/
theorem mem_of_mem_undirty {entry : JournalEntry} {addr : Address}
    (member : addr ∈ Journal.undirty entry dirties)
    (covered : (if entry.dirtied = some addr then 1 else 0) ≤ (dirties.lookup addr).getD 0) :
    addr ∈ dirties := by
  unfold Journal.undirty at member
  cases dirtied : entry.dirtied with
  | none => simpa [dirtied] using member
  | some addr' =>
      by_cases same : addr = addr'
      · subst same
        rw [← AList.lookup_isSome]
        cases found : dirties.lookup addr with
        | none => simp [dirtied, found] at covered
        | some _ => rfl
      · simp only [dirtied] at member
        split at member
        · exact (AList.mem_erase.mp member).2
        · simpa [AList.mem_insert, same] using member

/-- Undoing a stretch of entries lowers each address's count by the entries that changed it. -/
theorem lookup_foldr_undirty (undone : List JournalEntry) (addr : Address) :
    ((undone.foldr Journal.undirty dirties).lookup addr).getD 0 =
      (dirties.lookup addr).getD 0 - (undone.countP (·.dirtied = some addr) : Nat) := by
  induction undone with
  | nil => simp
  | cons entry rest inductionHypothesis =>
      rw [List.foldr_cons, lookup_undirty, inductionHypothesis, List.countP_cons]
      split <;> simp_all
      omega

/-- When the counts cover a stretch of entries, undoing it counts no new address. -/
theorem mem_of_mem_foldr_undirty {undone : List JournalEntry}
    (covered : ∀ addr, ((undone.countP (·.dirtied = some addr) : Nat) : Int) ≤
      (dirties.lookup addr).getD 0)
    {addr : Address} (member : addr ∈ undone.foldr Journal.undirty dirties) : addr ∈ dirties := by
  induction undone with
  | nil => exact member
  | cons entry rest inductionHypothesis =>
      have restCovered : ∀ addr, ((rest.countP (·.dirtied = some addr) : Nat) : Int) ≤
          (dirties.lookup addr).getD 0 := by
        intro addr'
        have := covered addr'
        rw [List.countP_cons] at this
        omega
      refine inductionHypothesis restCovered (mem_of_mem_undirty _ member ?_)
      -- the entry's own count is still there after the later entries are undone
      have entryCovered := covered addr
      rw [List.countP_cons] at entryCovered
      rw [lookup_foldr_undirty]
      split <;> simp_all
      omega

end DirtyCounts

/-! ### What an undo does to the live objects -/

/-- The live objects are filed under their own addresses. -/
def Addressed (w : World) : Prop := ∀ addr o, w.stateObjects addr = some o → o.address = addr

/-- What undoing leaves of a world's objects: the same trie, and objects old or live. -/
structure Restores (w w' : World) : Prop where
  trie : w'.trie = w.trie
  objects : ∀ addr o, w'.stateObjects addr = some o → w.stateObjects addr = some o ∨ o.deleted = false

theorem Restores.refl (w : World) : Restores w w := ⟨rfl, fun _ _ stored => .inl stored⟩

theorem Restores.trans {w w' w'' : World} (first : Restores w w') (second : Restores w' w'') :
    Restores w w'' where
  trie := second.trie.trans first.trie
  objects addr o stored := by
    rcases second.objects addr o stored with earlier | live
    · exact first.objects addr o earlier
    · exact .inr live

/-- A world with the same objects and trie keeps both. -/
theorem restores_same {w w' : World} (addressed : Addressed w)
    (objects : w'.stateObjects = w.stateObjects) (trie : w'.trie = w.trie) :
    Addressed w' ∧ Restores w w' :=
  ⟨fun addr o stored => addressed addr o (objects ▸ stored),
    trie, fun _ _ stored => .inl (objects ▸ stored)⟩

/-- Filing an object at an address, live and under that address, keeps both. -/
theorem restores_update {w w' : World} (addressed : Addressed w) {addr : Address}
    {o : Option StateObject} (objects : w'.stateObjects = update w.stateObjects addr o)
    (trie : w'.trie = w.trie)
    (filed : ∀ o', o = some o' → o'.address = addr ∧ o'.deleted = false) :
    Addressed w' ∧ Restores w w' := by
  refine ⟨fun addr' o' stored => ?_, trie, fun addr' o' stored => ?_⟩
  all_goals
    rw [objects] at stored
    by_cases same : addr' = addr
  · subst same
    rw [update_self] at stored
    exact (filed o' stored).1
  · rw [update_of_ne same] at stored
    exact addressed addr' o' stored
  · subst same
    rw [update_self] at stored
    exact .inr (filed o' stored).2
  · rw [update_of_ne same] at stored
    exact .inl stored

/-- A method called through `getStateObject` files a live object under its address. -/
theorem modifyObject_restores {w w' : World} (addressed : Addressed w) {addr : Address}
    {f : StateObject → StateObject} (modified : w.modifyObject addr f = some w')
    (address : ∀ o, (f o).address = o.address) (deleted : ∀ o, (f o).deleted = o.deleted) :
    Addressed w' ∧ Restores w w' := by
  rw [World.modifyObject_eq, Option.map_eq_some_iff] at modified
  obtain ⟨o, got, rfl⟩ := modified
  obtain ⟨cached, live⟩ := World.getStateObject_fst_live got
  -- the object got is filed at the address in the world the load leaves
  have loaded : Addressed (w.getStateObject addr).2 ∧ Restores w (w.getStateObject addr).2 := by
    rw [World.getStateObject_snd]
    cases cachedBefore : w.stateObjects addr with
    | some _ => exact ⟨addressed, .refl w⟩
    | none =>
        cases stored : w.trie addr with
        | none => exact ⟨addressed, .refl w⟩
        | some data =>
            exact restores_update addressed rfl rfl fun o' same => by
              cases same
              exact ⟨rfl, rfl⟩
  have oAddress : o.address = addr := loaded.1 addr o cached
  refine And.imp id loaded.2.trans (restores_update loaded.1 rfl rfl fun o' same => ?_)
  cases same
  exact ⟨by rw [address, oAddress], by rw [deleted, live]⟩

/-- Every undo keeps the objects filed under their addresses and brings back live ones only. -/
theorem revert_restores {entry : JournalEntry} {w w' : World} (addressed : Addressed w)
    (keptLive : ∀ prev, entry = .resetObjectChange prev → prev.deleted = false)
    (reverted : entry.revert w = some w') : Addressed w' ∧ Restores w w' := by
  cases entry with
  | createObjectChange account =>
      cases reverted
      exact restores_update addressed rfl rfl fun _ gone => by cases gone
  | resetObjectChange prev =>
      cases reverted
      exact restores_update addressed rfl rfl fun o' same => by
        cases same
        exact ⟨rfl, keptLive _ rfl⟩
  | suicideChange account prev prevbalance =>
      -- the one undo that checks for a missing object, and then changes nothing
      cases modified : w.modifyObject account
          (fun o => { o.setBalance prevbalance with suicided := prev }) with
      | none =>
          simp only [JournalEntry.revert, modified, Option.getD_none, Option.some.injEq] at reverted
          subst reverted
          exact ⟨addressed, .refl w⟩
      | some _ =>
          simp only [JournalEntry.revert, modified, Option.getD_some, Option.some.injEq] at reverted
          subst reverted
          exact modifyObject_restores addressed modified (fun _ => rfl) (fun _ => rfl)
  | balanceChange _ _ | nonceChange _ _ | storageChange _ _ _ | codeChange _ _ _ =>
      exact modifyObject_restores addressed reverted (fun _ => rfl) (fun _ => rfl)
  | refundChange _ | addPreimageChange _ | touchChange _ =>
      cases reverted
      exact restores_same addressed rfl rfl
  | addLogChange txhash =>
      simp only [JournalEntry.revert] at reverted
      split at reverted
      · cases reverted
        exact restores_same addressed rfl rfl
      · split at reverted
        · cases reverted
        · cases reverted
          exact restores_same addressed rfl rfl

/-! ### The invariant through a revert -/

/-- Undoing the journal from an index keeps the invariant. -/
theorem revertJournal_consistent {s r : StateDB} (consistent : Consistent s) {snapshot : Nat}
    (reverted : s.revertJournal snapshot = some r) : Consistent r := by
  unfold StateDB.revertJournal at reverted
  rw [Option.map_eq_some_iff] at reverted
  obtain ⟨world, undid, rfl⟩ := reverted
  have kept : ∀ entry ∈ s.journal.entries.drop snapshot, ∀ w w',
      Addressed w ∧ Restores s.world w → entry.revert w = some w' →
        Addressed w' ∧ Restores s.world w' := by
    intro entry member w w' ⟨addressed, restored⟩ reverted
    have keptLive : ∀ prev, entry = .resetObjectChange prev → prev.deleted = false :=
      fun prev same => consistent.resetLive prev (same ▸ List.mem_of_mem_drop member)
    obtain ⟨addressed', restored'⟩ := revert_restores addressed keptLive reverted
    exact ⟨addressed', restored.trans restored'⟩
  obtain ⟨addressed, restored⟩ := UndoLog.undoAll_invariant JournalEntry.revert kept
    ⟨consistent.addressed, .refl s.world⟩ undid
  -- the entries kept and those undone share the counts
  have split : ∀ addr, s.journal.entries.countP (·.dirtied = some addr) =
      (s.journal.entries.take snapshot).countP (·.dirtied = some addr) +
        (s.journal.entries.drop snapshot).countP (·.dirtied = some addr) := by
    intro addr
    rw [← List.countP_append, List.take_append_drop]
  have covered : ∀ addr, (((s.journal.entries.drop snapshot).countP (·.dirtied = some addr) : Nat) :
      Int) ≤ (s.journal.dirties.lookup addr).getD 0 := by
    intro addr
    have counted := consistent.counted addr
    rw [split addr] at counted
    omega
  refine ⟨addressed, fun addr o stored deleted => ?_, fun addr o dirty stored => ?_,
    fun prev member => consistent.resetLive prev (List.mem_of_mem_take member), fun addr => ?_⟩
  · rcases restored.objects addr o stored with before | live
    · rw [restored.trie]
      exact consistent.deletedGone addr o before deleted
    · rw [live] at deleted
      cases deleted
  · rcases restored.objects addr o stored with before | live
    · exact consistent.dirtyLive addr o (mem_of_mem_foldr_undirty _ covered dirty) before
    · exact live
  · have counted := consistent.counted addr
    rw [split addr] at counted
    simp only [lookup_foldr_undirty]
    omega

/-- What a revert that succeeds did. -/
theorem revertToSnapshot_cases {s r : StateDB} {revid : Nat}
    (reverted : s.revertToSnapshot revid = some r) :
    ∃ idx, ∃ bounded : idx < s.validRevisions.length, s.validRevisions[idx].id = revid ∧
      ∃ undone, s.revertJournal s.validRevisions[idx].journalIndex = some undone ∧
        r = { undone with validRevisions := undone.validRevisions.take idx } := by
  unfold StateDB.revertToSnapshot at reverted
  generalize Search.search _ _ = idx at reverted
  cases found : s.validRevisions[idx]? with
  | none => simp [found] at reverted
  | some revision =>
      obtain ⟨bounded, same⟩ := List.getElem?_eq_some_iff.mp found
      subst same
      by_cases other : s.validRevisions[idx].id = revid
      · simp only [found, other, ne_eq, not_true_eq_false, if_false, Option.map_eq_some_iff]
          at reverted
        obtain ⟨undone, undid, rfl⟩ := reverted
        exact ⟨idx, bounded, other, undone, undid, rfl⟩
      · simp [found, other] at reverted

/-- `RevertToSnapshot` keeps the invariant. -/
theorem revertToSnapshot_consistent {s r : StateDB} (consistent : Consistent s) {revid : Nat}
    (reverted : s.revertToSnapshot revid = some r) : Consistent r := by
  obtain ⟨idx, bounded, -, undone, undid, rfl⟩ := revertToSnapshot_cases reverted
  have undoneConsistent := revertJournal_consistent consistent undid
  exact undoneConsistent.congr rfl rfl rfl

/-! ### Finding a revision -/

/-- The search over revisions whose ids ascend finds each one at its index. -/
theorem search_revision {revisions : List Revision} (ascending : revisions.Pairwise (·.id < ·.id))
    {k : Nat} (bounded : k < revisions.length) :
    Search.search (fun i => decide (revisions[k].id ≤ (revisions.getD i ⟨0, 0⟩).id))
      revisions.length = k := by
  have increasing := List.pairwise_iff_getElem.mp ascending
  have idAt : ∀ i (inside : i < revisions.length),
      (revisions.getD i ⟨0, 0⟩).id = revisions[i].id := by
    intro i inside
    rw [List.getD_eq_getElem _ _ inside]
  apply Search.search_eq_of_first
  · -- the predicate is monotone along ascending ids
    intro a b ordered inside holds
    rw [decide_eq_true_iff, idAt a (by omega)] at holds
    rw [decide_eq_true_iff, idAt b inside]
    rcases Nat.lt_or_eq_of_le ordered with earlier | rfl
    · exact Nat.le_of_lt (Nat.lt_of_le_of_lt holds (increasing a b (by omega) inside earlier))
    · exact holds
  · exact bounded
  · rw [decide_eq_true_iff, idAt k bounded]
  · intro i before
    rw [decide_eq_false_iff_not, idAt i (by omega), Nat.not_le]
    exact increasing i k (by omega) bounded before

/-- A revert to a valid revision whose ids ascend undoes the journal from its index. -/
theorem revertToSnapshot_at {s : StateDB} (ascending : s.validRevisions.Pairwise (·.id < ·.id))
    {k : Nat} (bounded : k < s.validRevisions.length) :
    s.revertToSnapshot s.validRevisions[k].id =
      (s.revertJournal s.validRevisions[k].journalIndex).map fun undone =>
        { undone with validRevisions := undone.validRevisions.take k } := by
  unfold StateDB.revertToSnapshot
  simp only [search_revision ascending bounded, List.getElem?_eq_getElem bounded, ne_eq,
    not_true_eq_false, if_false]

/-- A revert to an id that is not valid panics. -/
theorem revertToSnapshot_eq_none {s : StateDB} {revid : Nat}
    (invalid : ∀ revision ∈ s.validRevisions, revision.id ≠ revid) :
    s.revertToSnapshot revid = none := by
  cases reverted : s.revertToSnapshot revid with
  | none => rfl
  | some r =>
      obtain ⟨idx, bounded, same, -⟩ := revertToSnapshot_cases reverted
      exact absurd same (invalid _ (List.getElem_mem bounded))

/-! ### The revisions a state tracks -/

variable (db : Database)

/-- The valid revisions of a state, each with the world that undoing the journal leads back to. -/
structure Tracks (s : StateDB) (saved : List (Revision × World)) : Prop where
  revisions : s.validRevisions = saved.map Prod.fst
  ascending : saved.Pairwise fun earlier later =>
    earlier.1.id < later.1.id ∧ earlier.1.journalIndex ≤ later.1.journalIndex
  fresh : ∀ revision ∈ saved, revision.1.id < s.nextRevisionId
  within : ∀ revision ∈ saved, revision.1.journalIndex ≤ s.journal.entries.length
  undoes : ∀ revision ∈ saved, UndoLog.Undoes JournalEntry.revert (World.Equiv db)
    (s.journal.entries.drop revision.1.journalIndex) revision.2 s.world

variable {db}

namespace Tracks

variable {s : StateDB} {saved : List (Revision × World)}

/-- A state without valid revisions tracks none. -/
theorem nil (none : s.validRevisions = []) : Tracks db s [] :=
  ⟨none, List.Pairwise.nil, fun _ member => absurd member List.not_mem_nil,
    fun _ member => absurd member List.not_mem_nil, fun _ member => absurd member List.not_mem_nil⟩

theorem ascendingIds (tracks : Tracks db s saved) : s.validRevisions.Pairwise (·.id < ·.id) := by
  rw [tracks.revisions, List.pairwise_map]
  exact tracks.ascending.imp And.left

theorem length_revisions (tracks : Tracks db s saved) : s.validRevisions.length = saved.length := by
  rw [tracks.revisions, List.length_map]

/-- A call that extends the journal keeps every revision's way back. -/
theorem extend {s' : StateDB} {log : List JournalEntry} (tracks : Tracks db s saved)
    (extended : Extends db s s' log) : Tracks db s' saved where
  revisions := extended.revisions.trans tracks.revisions
  ascending := tracks.ascending
  fresh revision member := extended.nextRevisionId ▸ tracks.fresh revision member
  within revision member := by
    rw [extended.entries, List.length_append]
    have := tracks.within revision member
    omega
  undoes revision member := by
    rw [extended.entries, List.drop_append_of_le_length (tracks.within revision member)]
    exact (tracks.undoes revision member).append (revert_respects db) World.Equiv.trans
      extended.undoes

/-- `Snapshot` adds a revision for the current world at the end of the journal. -/
theorem snapshot (tracks : Tracks db s saved) :
    Tracks db s.snapshot.2 (saved ++ [(⟨s.nextRevisionId, s.journal.length⟩, s.world)]) where
  revisions := by simp [StateDB.snapshot, tracks.revisions]
  ascending := by
    refine List.pairwise_append.mpr ⟨tracks.ascending, List.pairwise_singleton _ _, ?_⟩
    intro earlier member later latest
    rw [List.mem_singleton] at latest
    subst latest
    exact ⟨tracks.fresh earlier member, tracks.within earlier member⟩
  fresh revision member := by
    rcases List.mem_append.mp member with earlier | latest
    · exact Nat.lt_succ_of_lt (tracks.fresh revision earlier)
    · rw [List.mem_singleton] at latest
      subst latest
      exact Nat.lt_succ_self _
  within revision member := by
    rcases List.mem_append.mp member with earlier | latest
    · exact tracks.within revision earlier
    · rw [List.mem_singleton] at latest
      subst latest
      exact Nat.le_refl _
  undoes revision member := by
    rcases List.mem_append.mp member with earlier | latest
    · exact tracks.undoes revision earlier
    · rw [List.mem_singleton] at latest
      subst latest
      -- nothing is journaled since the snapshot
      simp only [StateDB.snapshot, Journal.length, List.drop_length]
      exact UndoLog.undoes_nil World.Equiv.refl _

/-- The revisions before the `k`-th are earlier in ids and journal indices. -/
theorem before (tracks : Tracks db s saved) {k : Nat} (bounded : k < saved.length) :
    ∀ revision ∈ saved.take k, revision.1.id < saved[k].1.id ∧
      revision.1.journalIndex ≤ saved[k].1.journalIndex := by
  intro revision member
  have ascending := tracks.ascending
  rw [← List.take_append_drop k saved] at ascending
  refine (List.pairwise_append.mp ascending).2.2 revision member saved[k] ?_
  rw [List.drop_eq_getElem_cons bounded]
  exact List.mem_cons_self

/-- A revert to the `k`-th revision leads back to its world and keeps the revisions before it. -/
theorem revert (tracks : Tracks db s saved) {k : Nat} (bounded : k < saved.length) :
    ∃ r, s.revertToSnapshot saved[k].1.id = some r ∧ World.Equiv db r.world saved[k].2 ∧
      Tracks db r (saved.take k) := by
  have revisionBounded : k < s.validRevisions.length := tracks.length_revisions ▸ bounded
  have revisionAt : s.validRevisions[k] = saved[k].1 := by simp [tracks.revisions]
  obtain ⟨undone, undid, equiv⟩ := tracks.undoes saved[k] (List.getElem_mem bounded)
  have reverted := revertToSnapshot_at tracks.ascendingIds revisionBounded
  rw [revisionAt, StateDB.revertJournal, undid] at reverted
  refine ⟨_, reverted, equiv, ?_⟩
  have taken := tracks.within saved[k] (List.getElem_mem bounded)
  refine ⟨by simp [tracks.revisions, List.map_take], tracks.ascending.sublist (List.take_sublist _ _),
    fun revision member => tracks.fresh revision (List.mem_of_mem_take member),
    fun revision member => ?_, fun revision member => ?_⟩
  · simp only [List.length_take]
    have := (tracks.before bounded revision member).2
    omega
  · -- the entries after the revision were undone; those before it still lead back
    have earlier := (tracks.before bounded revision member).2
    have split : s.journal.entries.drop revision.1.journalIndex =
        (s.journal.entries.take saved[k].1.journalIndex).drop revision.1.journalIndex ++
          s.journal.entries.drop saved[k].1.journalIndex := by
      conv_lhs => rw [← List.take_append_drop saved[k].1.journalIndex s.journal.entries]
      exact List.drop_append_of_le_length (by simp only [List.length_take]; omega)
    have undoes := tracks.undoes revision (List.mem_of_mem_take member)
    rw [split] at undoes
    exact undoes.of_undoAll_suffix undid

theorem journaled {s' : StateDB} (tracks : Tracks db s saved) (journaled : Journaled db s s') :
    Tracks db s' saved :=
  let ⟨_, _, extended⟩ := journaled
  tracks.extend extended

/-- A revert that succeeds went back to a tracked revision's world. -/
theorem revertToSnapshot (tracks : Tracks db s saved) {revid : Nat} {r : StateDB}
    (reverted : s.revertToSnapshot revid = some r) :
    ∃ k, ∃ bounded : k < saved.length, saved[k].1.id = revid ∧
      World.Equiv db r.world saved[k].2 ∧ Tracks db r (saved.take k) := by
  obtain ⟨idx, revisionBounded, same, -⟩ := revertToSnapshot_cases reverted
  have bounded : idx < saved.length := tracks.length_revisions ▸ revisionBounded
  have revisionAt : s.validRevisions[idx] = saved[idx].1 := by simp [tracks.revisions]
  obtain ⟨r', reverted', equiv, tracks'⟩ := tracks.revert bounded
  rw [← revisionAt, same, reverted, Option.some.injEq] at reverted'
  subst reverted'
  exact ⟨idx, bounded, revisionAt ▸ same, equiv, tracks'⟩

end Tracks

/-! ### Calls after a snapshot -/

/-- Every call keeps the invariant and the revisions tracked, unless it reverts to one of them. -/
theorem run_tracks {s s' : StateDB} {saved kept : List (Revision × World)}
    (consistent : Consistent s) (tracks : Tracks db s saved) (leading : kept <+: saved)
    (call : Call) (nested : ∀ revid, call = .revertToSnapshot revid →
      ∀ revision ∈ kept, revision.1.id < revid)
    (ran : call.run db s = some s') :
    Consistent s' ∧ ∃ saved', kept <+: saved' ∧ Tracks db s' saved' := by
  cases call with
  | mutate setter =>
      have journaled := Mutation.journaled consistent setter ran
      exact ⟨journaled.consistent, saved, leading, tracks.journaled journaled⟩
  | read getter =>
      cases ran
      have journaled : Journaled db s (getter.run db s) := Read.journaled consistent getter
      exact ⟨journaled.consistent, saved, leading, tracks.journaled journaled⟩
  | snapshot =>
      cases ran
      exact ⟨consistent.congr rfl rfl rfl, _, leading.trans (List.prefix_append _ _),
        tracks.snapshot⟩
  | revertToSnapshot revid =>
      obtain ⟨k, bounded, same, -, reverted⟩ := tracks.revertToSnapshot ran
      refine ⟨revertToSnapshot_consistent consistent ran, _, ?_, reverted⟩
      -- the revision reverted to comes after the ones kept
      have after : kept.length ≤ k := by
        by_contra earlier
        have keptAt := leading.getElem (Nat.lt_of_not_le earlier)
        have newer := nested revid rfl kept[k] (List.getElem_mem _)
        rw [keptAt, same] at newer
        exact Nat.lt_irrefl _ newer
      rw [List.prefix_iff_eq_take, List.take_take, Nat.min_eq_left after,
        ← List.prefix_iff_eq_take]
      exact leading

/-- The same along a sequence of calls whose reverts go to revisions after the ones kept. -/
theorem runAll_tracks {calls : List Call} {s s' : StateDB} {saved kept : List (Revision × World)}
    (consistent : Consistent s) (tracks : Tracks db s saved) (leading : kept <+: saved)
    (nested : ∀ revid, Call.revertToSnapshot revid ∈ calls → ∀ revision ∈ kept, revision.1.id < revid)
    (ran : Call.runAll db calls s = some s') :
    Consistent s' ∧ ∃ saved', kept <+: saved' ∧ Tracks db s' saved' := by
  induction calls generalizing s saved with
  | nil =>
      cases ran
      exact ⟨consistent, saved, leading, tracks⟩
  | cons call rest inductionHypothesis =>
      rw [Call.runAll, Option.bind_eq_some_iff] at ran
      obtain ⟨middle, stepped, restRan⟩ := ran
      obtain ⟨middleConsistent, middleSaved, middleLeading, middleTracks⟩ :=
        run_tracks consistent tracks leading call
          (fun revid same => nested revid (same ▸ List.mem_cons_self)) stepped
      exact inductionHypothesis middleConsistent middleTracks middleLeading
        (fun revid member => nested revid (List.mem_cons_of_mem _ member)) restRan

/-! ### Between transactions -/

/-- `Prepare` changes nothing the undos read or restore. -/
theorem prepare_equiv (s : StateDB) (thash bhash : Hash) (ti : Nat) :
    World.Equiv db (s.prepare thash bhash ti).world s.world :=
  ⟨rfl, fun _ => rfl, rfl, rfl, rfl, rfl⟩

theorem prepare_consistent {s : StateDB} (consistent : Consistent s) (thash bhash : Hash)
    (ti : Nat) : Consistent (s.prepare thash bhash ti) :=
  consistent.congr rfl rfl rfl

theorem Tracks.prepare {s : StateDB} {saved : List (Revision × World)} (tracks : Tracks db s saved)
    (thash bhash : Hash) (ti : Nat) : Tracks db (s.prepare thash bhash ti) saved where
  revisions := tracks.revisions
  ascending := tracks.ascending
  fresh := tracks.fresh
  within := tracks.within
  undoes revision member := (tracks.undoes revision member).of_equiv_state (revert_respects db)
    World.Equiv.trans (prepare_equiv s thash bhash ti)

section Finalise

variable (db) (o : StateObject)

theorem updateRoot_address : (o.updateRoot db).address = o.address := by
  cases o with
  | mk address data trie => cases trie <;> rfl

theorem updateRoot_deleted : (o.updateRoot db).deleted = o.deleted := by
  cases o with
  | mk address data trie => cases trie <;> rfl

variable {db}

/-- One visit of `Finalise` writes an object and its account and nowhere else. -/
theorem finaliseObject_writes (deleteEmptyObjects : Bool) {w : World} {addr : Address}
    {o : StateObject} (stored : w.stateObjects addr = some o) (address : o.address = addr)
    (live : o.deleted = false) :
    ∃ o' account, (World.finaliseObject db deleteEmptyObjects w addr).stateObjects =
        update w.stateObjects addr (some o') ∧
      (World.finaliseObject db deleteEmptyObjects w addr).trie = update w.trie addr account ∧
      o'.address = addr ∧ (o'.deleted = true → account = none) := by
  unfold World.finaliseObject
  simp only [stored]
  split
  · -- a suicided or empty account is deleted
    exact ⟨{ o with deleted := true }, none, by simp [World.deleteStateObject,
      World.setStateObject, address], by simp [World.deleteStateObject, address], address,
      fun _ => rfl⟩
  · refine ⟨o.updateRoot db, some (o.updateRoot db).data, by
      simp [World.updateStateObject, World.setStateObject, updateRoot_address, address], by
      simp [World.updateStateObject, World.setStateObject, updateRoot_address, address],
      (updateRoot_address db o).trans address, fun deleted => ?_⟩
    rw [updateRoot_deleted, live] at deleted
    cases deleted

/-- What holds through the loop of `Finalise`, with the addresses it has still to visit. -/
structure Finalising (rest : List Address) (w : World) : Prop where
  addressed : Addressed w
  deletedGone : ∀ addr o, w.stateObjects addr = some o → o.deleted = true → w.trie addr = none
  pending : ∀ addr ∈ rest, ∀ o, w.stateObjects addr = some o → o.deleted = false
  distinct : rest.Nodup

theorem finaliseObject_finalising (deleteEmptyObjects : Bool) {addr : Address}
    {rest : List Address} {w : World} (finalising : Finalising (addr :: rest) w) :
    Finalising rest (World.finaliseObject db deleteEmptyObjects w addr) := by
  obtain ⟨addressed, deletedGone, pending, distinct⟩ := finalising
  obtain ⟨fresh, restDistinct⟩ := List.nodup_cons.mp distinct
  cases stored : w.stateObjects addr with
  | none =>
      have unchanged : World.finaliseObject db deleteEmptyObjects w addr = w := by
        simp [World.finaliseObject, stored]
      rw [unchanged]
      exact ⟨addressed, deletedGone, fun a member => pending a (List.mem_cons_of_mem _ member),
        restDistinct⟩
  | some o =>
      obtain ⟨o', account, objects, trie, address, gone⟩ := finaliseObject_writes
        deleteEmptyObjects stored (addressed addr o stored) (pending addr List.mem_cons_self o stored)
      refine ⟨fun a o'' written => ?_, fun a o'' written deleted => ?_, fun a member o'' written => ?_,
        restDistinct⟩
      all_goals
        rw [objects] at written
        by_cases same : a = addr
      · subst same
        rw [update_self, Option.some.injEq] at written
        rw [← written, address]
      · rw [update_of_ne same] at written
        exact addressed a o'' written
      · subst same
        rw [update_self, Option.some.injEq] at written
        rw [trie, update_self, gone (written ▸ deleted)]
      · rw [update_of_ne same] at written
        rw [trie, update_of_ne same]
        exact deletedGone a o'' written deleted
      · exact absurd (same ▸ member) fresh
      · rw [update_of_ne same] at written
        exact pending a (List.mem_cons_of_mem _ member) o'' written

/-- `Finalise` keeps the invariant. -/
theorem finalise_consistent {s : StateDB} (consistent : Consistent s) (deleteEmptyObjects : Bool) :
    Consistent (StateDB.finalise db s deleteEmptyObjects) := by
  have start : Finalising s.journal.dirties.keys s.world :=
    ⟨consistent.addressed, consistent.deletedGone,
      fun addr member o stored => consistent.dirtyLive addr o (AList.mem_keys.mp member) stored,
      s.journal.dirties.keys_nodup⟩
  have finished : Finalising []
      (s.journal.dirties.keys.foldl (World.finaliseObject db deleteEmptyObjects) s.world) :=
    @foldl_invariant_rest World Address Finalising (World.finaliseObject db deleteEmptyObjects)
      (fun _ _ _ visiting => finaliseObject_finalising deleteEmptyObjects visiting) _ _ start
  -- the journal is cleared
  exact ⟨finished.addressed, finished.deletedGone,
    fun _ _ dirty => absurd dirty (by simp [StateDB.finalise, newJournal]),
    fun _ member => absurd member (by simp [StateDB.finalise, newJournal]),
    fun _ => by simp [StateDB.finalise, newJournal]⟩

theorem finalise_tracks (s : StateDB) (deleteEmptyObjects : Bool) :
    Tracks db (StateDB.finalise db s deleteEmptyObjects) [] :=
  .nil rfl

end Finalise

/-- Every state the state processor reaches from `New` keeps the invariant and its revisions. -/
theorem reachable_tracks {s : StateDB} (reachable : StateDB.Reachable db s) :
    Consistent s ∧ ∃ saved, Tracks db s saved := by
  refine @Reachable.invariant _ _ _ (fun s => Consistent s ∧ ∃ saved, Tracks db s saved)
    (fun s initial => ?_) (fun s next valid stepped => ?_) s reachable
  · obtain ⟨trie, rfl⟩ := initial
    refine ⟨⟨fun _ _ stored => ?_, fun _ _ stored => ?_, fun _ _ dirty => ?_,
      fun _ member => ?_, fun _ => by simp [StateDB.new, newJournal]⟩, [], .nil rfl⟩
    all_goals first
      | cases stored
      | exact absurd dirty (by simp [StateDB.new, newJournal])
      | exact absurd member (by simp [StateDB.new, newJournal])
  · obtain ⟨consistent, saved, tracks⟩ := valid
    cases stepped with
    | call call ran =>
        obtain ⟨consistent', saved', -, tracks'⟩ := run_tracks consistent tracks
          (List.nil_prefix) call (fun _ _ _ member => absurd member List.not_mem_nil) ran
        exact ⟨consistent', saved', tracks'⟩
    | prepare thash bhash ti =>
        exact ⟨prepare_consistent consistent thash bhash ti, saved, tracks.prepare thash bhash ti⟩
    | finalise deleteEmptyObjects =>
        exact ⟨finalise_consistent consistent deleteEmptyObjects, [], finalise_tracks s _⟩

/-! ### Reverting to a snapshot -/

theorem revertToSnapshot_restores {s s' : StateDB} (reachable : StateDB.Reachable db s)
    {calls : List Call}
    (nested : ∀ revid, Call.revertToSnapshot revid ∈ calls → s.snapshot.1 < revid)
    (ran : Call.runAll db calls s.snapshot.2 = some s') :
    ∃ r, s'.revertToSnapshot s.snapshot.1 = some r ∧ observe db r = observe db s ∧
      r.validRevisions = s.validRevisions ∧
      (∀ revid, s.snapshot.1 ≤ revid → r.revertToSnapshot revid = none) ∧
      ∀ revision ∈ s.validRevisions, ∃ t t', s.revertToSnapshot revision.id = some t ∧
        r.revertToSnapshot revision.id = some t' ∧ observe db t' = observe db t := by
  obtain ⟨consistent, saved, tracks⟩ := reachable_tracks reachable
  -- the snapshot's revision, with the world it was taken at, follows the revisions of `s`
  have snapshotConsistent : Consistent s.snapshot.2 :=
    consistent.congr rfl rfl rfl
  have start : saved ++ [(⟨s.nextRevisionId, s.journal.length⟩, s.world)] <+:
      saved ++ [(⟨s.nextRevisionId, s.journal.length⟩, s.world)] := List.prefix_refl _
  have nestedKept : ∀ revid, Call.revertToSnapshot revid ∈ calls →
      ∀ revision ∈ saved ++ [(⟨s.nextRevisionId, s.journal.length⟩, s.world)],
        revision.1.id < revid := by
    intro revid member revision kept
    have after : s.nextRevisionId < revid := nested revid member
    rcases List.mem_append.mp kept with earlier | taken
    · exact Nat.lt_trans (tracks.fresh revision earlier) after
    · rw [List.mem_singleton] at taken
      subst taken
      exact after
  obtain ⟨-, saved', ⟨later, rfl⟩, tracks'⟩ :=
    runAll_tracks snapshotConsistent tracks.snapshot start nestedKept ran
  -- the snapshot's revision is still tracked, right after those of `s`
  have bounded : saved.length <
      (saved ++ [(Revision.mk s.nextRevisionId s.journal.length, s.world)] ++ later).length := by
    simp
  obtain ⟨r, reverted, equiv, tracksR⟩ := tracks'.revert bounded
  simp only [List.append_assoc, List.singleton_append, List.getElem_append_right (Nat.le_refl _),
    Nat.sub_self, List.getElem_cons_zero, List.take_left'] at reverted equiv tracksR
  refine ⟨r, reverted, observe_eq_of_equiv db equiv, tracksR.revisions.trans tracks.revisions.symm,
    fun revid newer => revertToSnapshot_eq_none fun revision member same => ?_,
    fun revision member => ?_⟩
  · -- the revisions left are older than the snapshot
    rw [tracksR.revisions, List.mem_map] at member
    obtain ⟨kept, member, rfl⟩ := member
    have older := tracks.fresh kept member
    have : s.nextRevisionId ≤ revid := newer
    omega
  · -- an older revision leads back to its world from both states
    rw [tracks.revisions, List.mem_map] at member
    obtain ⟨kept, member, rfl⟩ := member
    obtain ⟨j, jBounded, rfl⟩ := List.getElem_of_mem member
    obtain ⟨t, revertedS, equivS⟩ := tracks.revert jBounded
    obtain ⟨t', revertedR, equivR⟩ := tracksR.revert jBounded
    exact ⟨t, t', revertedS, revertedR, observe_eq_of_equiv db (equivR.1.trans equivS.1.symm)⟩

/-- A revert to the first of two nested snapshots restores the new state. -/
theorem revertToSnapshot_restores_nested :
    ∃ s' r, Call.runAll (Database.mk (fun _ => []) (fun _ _ => 0) (fun _ => 0) (fun _ => 0))
        [.snapshot, .mutate (.addRefund 3), .revertToSnapshot 1]
        (StateDB.new fun _ => none).snapshot.2 = some s' ∧
      s'.revertToSnapshot 0 = some r ∧
      observe (Database.mk (fun _ => []) (fun _ _ => 0) (fun _ => 0) (fun _ => 0)) r =
        observe (Database.mk (fun _ => []) (fun _ _ => 0) (fun _ => 0) (fun _ => 0))
          (StateDB.new fun _ => none) := by
  have ran : Call.runAll (Database.mk (fun _ => []) (fun _ _ => 0) (fun _ => 0) (fun _ => 0))
      [.snapshot, .mutate (.addRefund 3), .revertToSnapshot 1]
      (StateDB.new fun _ => none).snapshot.2 = some _ := rfl
  obtain ⟨r, reverted, observed, -⟩ := @revertToSnapshot_restores _ _ _ (.initial ⟨_, rfl⟩) _
    (fun revid member => by simp at member; subst member; exact Nat.zero_lt_one) ran
  exact ⟨_, r, ran, reverted, observed⟩

end Tangerine.Proof.StateSnapshots
