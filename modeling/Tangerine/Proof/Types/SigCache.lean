import Tangerine.Core.Types.SigCache
import Tangerine.Library.Transition

/-! What `globalSigCache.Add` and `Get` do (`core/types/transaction_signing.go`). -/

namespace Tangerine.Proof.SigCache

open Tangerine.Common Tangerine.Library Tangerine.Core.Types Tangerine.Core.Types.GlobalSigCache

/-! ### The critical section -/

theorem store_of_not_overfull {results : List ResultEntry} {c : GlobalSigCache} (fuel : Nat)
    (room : overfull results c = false) :
    store (fuel + 1) results c = .ok (results.foldl appendResult c) := by
  rw [store, whileLoop_of_false _ _ fuel room]
  rfl

/-- A pruning loop that has to prune a cache shorter than `pruneTargetSize` panics. -/
theorem store_panics {results : List ResultEntry} {c : GlobalSigCache} (fuel : Nat)
    (few : results.length ≤ sigCacheSize) (tooFull : overfull results c = true)
    (short : c.cache.length < pruneTargetSize) :
    store (fuel + 1) results c = .error (.panic "slice bounds out of range") := by
  have panicked : pruneStep results c = .error (.panic "slice bounds out of range") := by
    simp [pruneStep, Nat.not_lt.mpr few, short]
  rw [store, whileLoop_halt _ _ fuel tooFull panicked]
  rfl

/-! ### The indexing invariant -/

/-- Every hash that `cacheID` maps is at its index in `cache`. -/
def Indexed (c : GlobalSigCache) : Prop :=
  ∀ hash id, c.cacheID.lookup hash = some id → ∃ entry, c.cache[id]? = some entry ∧ entry.hash = hash

theorem indexed_new : Indexed newGlobalSigCache := by
  intro hash id found
  simp [newGlobalSigCache, AList.lookup_empty] at found

theorem indexed_appendResult {c : GlobalSigCache} (indexed : Indexed c) (r : ResultEntry) :
    Indexed (c.appendResult r) := by
  intro hash id found
  by_cases same : hash = r.hash
  · subst same
    simp only [appendResult_cacheID, AList.lookup_insert, Option.some.injEq] at found
    subst found
    exact ⟨r, by simp, rfl⟩
  · simp only [appendResult_cacheID, AList.lookup_insert_ne same] at found
    obtain ⟨entry, located, hashed⟩ := indexed hash id found
    have inside : id < c.cache.length := (List.getElem?_eq_some_iff.mp located).1
    exact ⟨entry, by rw [appendResult_cache, List.getElem?_append_left inside]; exact located, hashed⟩

theorem indexed_foldl_appendResult {c : GlobalSigCache} (indexed : Indexed c)
    (results : List ResultEntry) : Indexed (results.foldl appendResult c) := by
  induction results generalizing c with
  | nil => exact indexed
  | cons r results inductionHypothesis => exact inductionHypothesis (indexed_appendResult indexed r)

/-- A hash survives the deletions of the prune exactly when no pruned entry has it. -/
theorem lookup_foldl_erase {hash : Hash} {id : Nat} (prune : List ResultEntry)
    (cacheID : AList fun _ : Hash => Nat) :
    (prune.foldl (fun cacheID r => cacheID.erase r.hash) cacheID).lookup hash = some id ↔
      (∀ r ∈ prune, r.hash ≠ hash) ∧ cacheID.lookup hash = some id := by
  induction prune generalizing cacheID with
  | nil => simp
  | cons r prune inductionHypothesis =>
      rw [List.foldl_cons, inductionHypothesis]
      by_cases same : r.hash = hash
      · simp [same, AList.lookup_erase]
      · simp [same, AList.lookup_erase_ne (Ne.symm same)]

theorem indexed_pruneStep {results : List ResultEntry} {c next : GlobalSigCache}
    (indexed : Indexed c) (stepped : pruneStep results c = .ok (.next next)) : Indexed next := by
  unfold pruneStep at stepped
  split_ifs at stepped with purge short
  · simp at stepped
  simp only [Except.ok.injEq, Iteration.next.injEq] at stepped
  subst stepped
  intro hash id found
  obtain ⟨apart, found⟩ := (lookup_foldl_erase _ _).mp found
  obtain ⟨entry, located, hashed⟩ := indexed hash id found
  -- an entry at or past the target was pruned, and its hash deleted with it
  have kept : id < pruneTargetSize := by
    by_contra past
    have pruned : entry ∈ c.cache.drop pruneTargetSize := by
      apply List.mem_of_getElem?
      rw [List.getElem?_drop, Nat.add_sub_cancel' (Nat.not_lt.mp past)]
      exact located
    exact apart entry pruned hashed
  exact ⟨entry, by rw [List.getElem?_take_of_lt kept]; exact located, hashed⟩

theorem indexed_of_pruneStep_exit {results : List ResultEntry} {c next : GlobalSigCache}
    (stepped : pruneStep results c = .ok (.exit next)) : Indexed next := by
  unfold pruneStep at stepped
  split_ifs at stepped with purge short
  · simp only [Except.ok.injEq, Iteration.exit.injEq] at stepped
    subst stepped
    exact indexed_new
  all_goals simp at stepped

/-- The critical section keeps the indexing, through the pruning loop and the appends. -/
theorem indexed_store {fuel : Nat} {results : List ResultEntry} {c c' : GlobalSigCache}
    (indexed : Indexed c) (stored : store fuel results c = .ok c') : Indexed c' := by
  unfold store at stored
  cases looped : whileLoop (overfull results) (pruneStep results) fuel c with
  | error halt => rw [looped] at stored; cases stored
  | ok pruned =>
      rw [looped] at stored
      cases stored
      have prunedIndexed : Indexed pruned :=
        whileLoop_spec _ _ Indexed Indexed (fun _ _ held _ stepped => indexed_pruneStep held stepped)
          (fun _ _ _ _ stepped => indexed_of_pruneStep_exit stepped) (fun _ held _ => held) indexed
          looped
      exact indexed_foldl_appendResult prunedIndexed results

/-! ### The goroutines -/

section Goroutines

variable {Transaction : Type} (signer : Signer Transaction)

/-- A goroutine with an empty batch stores nothing, into a cache with room. -/
theorem goroutine_nil (fuel : Nat) (st : AddState Transaction)
    (fits : st.cache.size ≤ sigCacheSize) : goroutine signer (fuel + 1) [] st = .ok st := by
  have room : overfull [] st.cache = false := by
    simp only [overfull, List.length_nil, Nat.zero_add, decide_eq_false_iff_not]
    omega
  simp [goroutine, collect, store_of_not_overfull fuel room, Except.map]

theorem indexed_goroutine {fuel : Nat} {batch : List Transaction} {st st' : AddState Transaction}
    (indexed : Indexed st.cache) (ran : goroutine signer fuel batch st = .ok st') :
    Indexed st'.cache := by
  unfold goroutine at ran
  obtain ⟨collected, -, rest⟩ := except_bind_eq_ok.mp ran
  cases collected with
  | pending => cases rest; exact indexed
  | failed err tx =>
      -- the error is sent, or dropped; the cache is not touched
      cases rest
      split <;> exact indexed
  | results results =>
      dsimp only at rest
      cases stored : GlobalSigCache.store fuel results st.cache with
      | error halt => rw [stored] at rest; cases rest
      | ok cache =>
          rw [stored] at rest
          cases rest
          exact indexed_store indexed stored

theorem add_eq (numCPU : Nat) (schedule : Schedule (workerCount numCPU)) (fuel : Nat)
    (c : GlobalSigCache) (txs : List Transaction) :
    add signer numCPU schedule fuel c txs =
      (schedule.order.foldlM
        (fun st i => goroutine signer fuel (batch txs (txs.length / workerCount numCPU) i) st)
        ⟨c, none, none⟩).map fun st => (st.errorTx, st.txError, st.cache) := rfl

/-- Every `Add` that returns keeps the indexing, whatever the goroutines' order. -/
theorem indexed_add {numCPU : Nat} {schedule : Schedule (workerCount numCPU)} {fuel : Nat}
    {c c' : GlobalSigCache} {txs : List Transaction} {errorTx : Option Transaction}
    {err : Option String} (indexed : Indexed c)
    (returned : add signer numCPU schedule fuel c txs = .ok (errorTx, err, c')) : Indexed c' := by
  rw [add_eq] at returned
  cases ran : schedule.order.foldlM
      (fun st i => goroutine signer fuel (batch txs (txs.length / workerCount numCPU) i) st)
      ⟨c, none, none⟩ with
  | error halt => rw [ran] at returned; cases returned
  | ok st =>
      rw [ran] at returned
      cases returned
      exact @foldlM_invariant _ _ _ (fun st : AddState Transaction => Indexed st.cache) _
        (fun _ _ _ held stepped => indexed_goroutine signer held stepped) _ _ _ indexed ran

end Goroutines

/-! ### Every reachable cache -/

/-- One `Add` that returns, for any transactions, signer, number of CPUs and schedule. -/
def AddStep (c c' : GlobalSigCache) : Prop :=
  ∃ (Transaction : Type) (signer : Signer Transaction) (numCPU : Nat)
    (schedule : Schedule (workerCount numCPU)) (fuel : Nat) (txs : List Transaction)
    (errorTx : Option Transaction) (err : Option String),
    add signer numCPU schedule fuel c txs = .ok (errorTx, err, c')

/-- Every cache that `Add` calls reach from `newGlobalSigCache` is indexed. -/
theorem indexed_of_reachable {c : GlobalSigCache}
    (reachable : Reachable AddStep (· = newGlobalSigCache) c) : Indexed c :=
  Reachable.invariant (fun _ started => started ▸ indexed_new)
    (fun _ _ held ⟨_, signer, _, _, _, _, _, _, returned⟩ => indexed_add signer held returned)
    reachable

/-- `Get` on an indexed cache never panics. -/
theorem get_of_indexed {c : GlobalSigCache} (indexed : Indexed c) (hash : Hash) :
    ∃ found, c.get hash = .ok found := by
  unfold GlobalSigCache.get
  cases looked : c.cacheID.lookup hash with
  | none => exact ⟨_, rfl⟩
  | some id =>
      obtain ⟨entry, located, -⟩ := indexed hash id looked
      exact ⟨(entry.addr, true), by simp [located]⟩

/-- Every cache reached from `newGlobalSigCache` by `Add` is indexed, so `Get` never panics. -/
theorem get_of_reachable {c : GlobalSigCache}
    (reachable : Reachable AddStep (· = newGlobalSigCache) c) :
    Indexed c ∧ ∀ hash, ∃ found, c.get hash = .ok found :=
  have indexed := indexed_of_reachable reachable
  ⟨indexed, get_of_indexed indexed⟩

/-- A signer under which every signature recovers the address `7`. -/
def recoveringSigner : Signer Unit := ⟨fun _ => 0, fun _ => none, fun _ => .ok 7⟩

/-- The cache after one `Add` of one transaction on one CPU. -/
def cachedOnce : GlobalSigCache := newGlobalSigCache.appendResult ⟨0, 7⟩

theorem get_of_reachable_cachedOnce :
    Reachable AddStep (· = newGlobalSigCache) cachedOnce ∧
      (Indexed cachedOnce ∧ ∀ hash, ∃ found, cachedOnce.get hash = .ok found) :=
  have added : add recoveringSigner 1 (Schedule.inOrder (workerCount 1)) 1 newGlobalSigCache [()] =
      .ok (none, none, cachedOnce) := rfl
  have reachable : Reachable AddStep (· = newGlobalSigCache) cachedOnce :=
    .step (.initial rfl) ⟨Unit, recoveringSigner, 1, _, 1, [()], none, none, added⟩
  ⟨reachable, get_of_reachable reachable⟩

/-! ### Transactions that no batch covers -/

section Batches

variable {Transaction : Type} (signer : Signer Transaction)

theorem batch_of_lt {txs : List Transaction} {num : Nat} (short : txs.length < num) (i : Nat) :
    batch txs (txs.length / num) i = [] := by
  simp [batch, Nat.div_eq_of_lt short]

theorem foldlM_goroutine_nil (fuel : Nat) (order : List Nat) (st : AddState Transaction)
    (fits : st.cache.size ≤ sigCacheSize) :
    order.foldlM (fun st _ => goroutine signer (fuel + 1) [] st) st = .ok st := by
  induction order with
  | nil => rfl
  | cons i order inductionHypothesis =>
      rw [List.foldlM_cons, goroutine_nil signer fuel st fits]
      exact inductionHypothesis

/-- `Add` on a list shorter than its number of goroutines looks at none of its transactions. -/
theorem add_ignores_short_list (numCPU : Nat) (schedule : Schedule (workerCount numCPU))
    (fuel : Nat) {c : GlobalSigCache} {txs : List Transaction}
    (short : txs.length < workerCount numCPU) (fits : c.size ≤ sigCacheSize) :
    add signer numCPU schedule (fuel + 1) c txs = .ok (none, none, c) := by
  have empty : ∀ i, batch txs (txs.length / workerCount numCPU) i = [] := batch_of_lt short
  rw [add_eq]
  simp only [empty]
  rw [foldlM_goroutine_nil signer fuel schedule.order ⟨c, none, none⟩ fits]
  rfl

/-- A signer under which every signature is invalid. -/
def unsignedSigner : Signer Unit :=
  ⟨fun _ => 0, fun _ => none, fun _ => .error "invalid transaction v, r, s values"⟩

/-- On four CPUs, one transaction with an invalid signature is accepted and not cached. -/
theorem add_ignores_short_list_unsigned :
    unsignedSigner.sender () = .error "invalid transaction v, r, s values" ∧
      add unsignedSigner 4 (Schedule.inOrder (workerCount 4)) 1 newGlobalSigCache [()] =
        .ok (none, none, newGlobalSigCache) ∧
      newGlobalSigCache.get (unsignedSigner.hash ()) = .ok (0, false) :=
  ⟨rfl, add_ignores_short_list unsignedSigner 4 _ 0 (by decide) (by decide), rfl⟩

end Batches

/-! ### One goroutine -/

section OneWorker

variable {Transaction : Type} (signer : Signer Transaction)

/-- With one goroutine, `Add` is that goroutine on the whole list. -/
theorem add_single_worker {numCPU : Nat} (one : workerCount numCPU = 1)
    (schedule : Schedule (workerCount numCPU)) (fuel : Nat) (c : GlobalSigCache)
    (txs : List Transaction) :
    add signer numCPU schedule fuel c txs =
      (goroutine signer fuel txs ⟨c, none, none⟩).map
        fun st => (st.errorTx, st.txError, st.cache) := by
  have alone : schedule.order = [0] := by
    have perm := schedule.perm
    simp only [one, List.range_one, List.perm_singleton] at perm
    exact perm
  have whole : batch txs (txs.length / 1) 0 = txs := by simp [batch]
  rw [add_eq, alone, one, List.foldlM_cons, whole]
  cases goroutine signer fuel txs ⟨c, none, none⟩ <;> rfl

theorem collect_of_recovered {c : GlobalSigCache} {addrOf : Transaction → Address}
    {txs : List Transaction} (recovered : ∀ tx ∈ txs, sender signer c tx = .ok (.ok (addrOf tx))) :
    collect signer c false txs =
      .ok (.results (txs.map fun tx => ⟨signer.hash tx, addrOf tx⟩)) := by
  induction txs with
  | nil => rfl
  | cons tx txs inductionHypothesis =>
      have rest := inductionHypothesis fun tx' member => recovered tx' (List.mem_cons_of_mem _ member)
      simp [collect, recovered tx List.mem_cons_self, rest, Except.map]

theorem get_appendResult_self (c : GlobalSigCache) (r : ResultEntry) :
    (c.appendResult r).get r.hash = .ok (r.addr, true) := by
  simp [GlobalSigCache.get, AList.lookup_insert]

theorem get_appendResult_of_ne {c : GlobalSigCache} (indexed : Indexed c) {r : ResultEntry}
    {hash : Hash} (other : r.hash ≠ hash) : (c.appendResult r).get hash = c.get hash := by
  unfold GlobalSigCache.get
  rw [appendResult_cacheID, AList.lookup_insert_ne (Ne.symm other), appendResult_cache]
  cases looked : c.cacheID.lookup hash with
  | none => rfl
  | some id =>
      obtain ⟨entry, located, -⟩ := indexed hash id looked
      have inside : id < c.cache.length := (List.getElem?_eq_some_iff.mp located).1
      simp only [List.getElem?_append_left inside]

theorem get_foldl_appendResult_of_ne {c : GlobalSigCache} (indexed : Indexed c)
    {rest : List ResultEntry} {hash : Hash} (apart : ∀ r ∈ rest, r.hash ≠ hash) :
    (rest.foldl appendResult c).get hash = c.get hash := by
  induction rest generalizing c with
  | nil => rfl
  | cons r rest inductionHypothesis =>
      rw [List.foldl_cons, inductionHypothesis (indexed_appendResult indexed r)
        fun r' member => apart r' (List.mem_cons_of_mem _ member),
        get_appendResult_of_ne indexed (apart r List.mem_cons_self)]

/-- An appended entry is found under its hash, when no other entry appended has that hash. -/
theorem get_foldl_appendResult {c : GlobalSigCache} (indexed : Indexed c)
    {results : List ResultEntry} {r : ResultEntry} (member : r ∈ results)
    (unique : ∀ r' ∈ results, r'.hash = r.hash → r' = r) :
    (results.foldl appendResult c).get r.hash = .ok (r.addr, true) := by
  induction results generalizing c with
  | nil => cases member
  | cons first rest inductionHypothesis =>
      rw [List.foldl_cons]
      by_cases later : r ∈ rest
      · exact inductionHypothesis (indexed_appendResult indexed first) later
          fun r' member => unique r' (List.mem_cons_of_mem _ member)
      · -- the entry is the first one, and no later entry shares its hash
        have first_eq : first = r := (List.mem_cons.mp member).resolve_right later |>.symm
        subst first_eq
        have apart : ∀ r' ∈ rest, r'.hash ≠ first.hash := fun r' member same =>
          later (unique r' (List.mem_cons_of_mem _ member) same ▸ member)
        rw [get_foldl_appendResult_of_ne (indexed_appendResult indexed first) apart,
          get_appendResult_self]

/-- With one goroutine and room for its batch, `Add` caches the sender of every transaction. -/
theorem add_single_worker_caches {numCPU : Nat} (one : workerCount numCPU = 1)
    (schedule : Schedule (workerCount numCPU)) (fuel : Nat) {c : GlobalSigCache}
    {txs : List Transaction} {addrOf : Transaction → Address} (indexed : Indexed c)
    (recovered : ∀ tx ∈ txs, sender signer c tx = .ok (.ok (addrOf tx)))
    (consistent : ∀ tx ∈ txs, ∀ tx' ∈ txs, signer.hash tx = signer.hash tx' → addrOf tx = addrOf tx')
    (room : txs.length + c.size ≤ sigCacheSize) :
    ∃ c', add signer numCPU schedule (fuel + 1) c txs = .ok (none, none, c') ∧ Indexed c' ∧
      ∀ tx ∈ txs, c'.get (signer.hash tx) = .ok (addrOf tx, true) := by
  have collected := collect_of_recovered signer recovered
  have fits : overfull (txs.map fun tx => (⟨signer.hash tx, addrOf tx⟩ : ResultEntry)) c = false := by
    simp only [overfull, List.length_map, decide_eq_false_iff_not]
    omega
  refine ⟨(txs.map fun tx => (⟨signer.hash tx, addrOf tx⟩ : ResultEntry)).foldl appendResult c, ?_,
    indexed_foldl_appendResult indexed _, ?_⟩
  · rw [add_single_worker signer one]
    simp [goroutine, collected, store_of_not_overfull fuel fits, Except.map]
  · intro tx member
    apply get_foldl_appendResult indexed (List.mem_map_of_mem member)
    intro r' listed same
    obtain ⟨tx', member', rfl⟩ := List.mem_map.mp listed
    simp only at same
    simp [same, consistent tx' member' tx member same]

theorem add_single_worker_caches_once :
    workerCount 1 = 1 ∧ Indexed newGlobalSigCache ∧
      (∀ tx ∈ [()], sender recoveringSigner newGlobalSigCache tx = .ok (.ok ((fun _ => 7) tx))) ∧
      (∀ tx ∈ [()], ∀ tx' ∈ [()], recoveringSigner.hash tx = recoveringSigner.hash tx' →
        (fun _ => (7 : Address)) tx = (fun _ => (7 : Address)) tx') ∧
      [()].length + newGlobalSigCache.size ≤ sigCacheSize ∧
      ∃ c', add recoveringSigner 1 (Schedule.inOrder (workerCount 1)) (0 + 1) newGlobalSigCache [()] =
          .ok (none, none, c') ∧ Indexed c' ∧
        ∀ tx ∈ [()], c'.get (recoveringSigner.hash tx) = .ok ((fun _ => 7) tx, true) :=
  have one : workerCount 1 = 1 := by decide
  have recovered : ∀ tx ∈ [()], sender recoveringSigner newGlobalSigCache tx =
      .ok (.ok ((fun _ => 7) tx)) := fun _ _ => rfl
  have consistent : ∀ tx ∈ [()], ∀ tx' ∈ [()], recoveringSigner.hash tx = recoveringSigner.hash tx' →
      (fun _ => (7 : Address)) tx = (fun _ => (7 : Address)) tx' := fun _ _ _ _ _ => rfl
  have room : [()].length + newGlobalSigCache.size ≤ sigCacheSize := by decide
  ⟨one, indexed_new, recovered, consistent, room,
    add_single_worker_caches recoveringSigner one (Schedule.inOrder (workerCount 1)) 0 indexed_new
      recovered consistent room⟩

/-- With one goroutine, pruning a cache shorter than `pruneTargetSize` panics `Add`. -/
theorem add_single_worker_panics {numCPU : Nat} (one : workerCount numCPU = 1)
    (schedule : Schedule (workerCount numCPU)) (fuel : Nat) {c : GlobalSigCache}
    {txs : List Transaction} {addrOf : Transaction → Address}
    (recovered : ∀ tx ∈ txs, sender signer c tx = .ok (.ok (addrOf tx)))
    (few : txs.length ≤ sigCacheSize) (tooFull : sigCacheSize < txs.length + c.size)
    (short : c.cache.length < pruneTargetSize) :
    add signer numCPU schedule (fuel + 1) c txs = .error (.panic "slice bounds out of range") := by
  have overfilled : overfull (txs.map fun tx => (⟨signer.hash tx, addrOf tx⟩ : ResultEntry)) c = true := by
    simp only [overfull, List.length_map, decide_eq_true_eq]
    exact tooFull
  rw [add_single_worker signer one]
  simp [goroutine, collect_of_recovered signer recovered,
    store_panics fuel (by simpa using few) overfilled short, Except.map]

/-- `100000` transactions, one more than the room left in `cachedOnce`. -/
def crowdedBatch : List Unit := List.replicate 100000 ()

theorem add_single_worker_panics_crowded :
    workerCount 1 = 1 ∧
      (∀ tx ∈ crowdedBatch, sender recoveringSigner cachedOnce tx = .ok (.ok ((fun _ => 7) tx))) ∧
      crowdedBatch.length ≤ sigCacheSize ∧ sigCacheSize < crowdedBatch.length + cachedOnce.size ∧
      cachedOnce.cache.length < pruneTargetSize ∧
      add recoveringSigner 1 (Schedule.inOrder (workerCount 1)) (0 + 1) cachedOnce crowdedBatch =
        .error (.panic "slice bounds out of range") :=
  have one : workerCount 1 = 1 := by decide
  have recovered : ∀ tx ∈ crowdedBatch, sender recoveringSigner cachedOnce tx =
      .ok (.ok ((fun _ => 7) tx)) := fun _ _ => rfl
  have length : crowdedBatch.length = 100000 := List.length_replicate
  have few : crowdedBatch.length ≤ sigCacheSize := by
    rw [length]
    decide
  have sized : cachedOnce.size = 1 := rfl
  have tooFull : sigCacheSize < crowdedBatch.length + cachedOnce.size := by
    rw [length, sized]
    decide
  have short : cachedOnce.cache.length < pruneTargetSize := by decide
  ⟨one, recovered, few, tooFull, short,
    add_single_worker_panics recoveringSigner one (Schedule.inOrder (workerCount 1)) 0 recovered few
      tooFull short⟩

end OneWorker

end Tangerine.Proof.SigCache
