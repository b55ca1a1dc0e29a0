import Tangerine.Core.TxPool

/-! What raising a price floor of the pool does. -/

namespace Tangerine.Proof.PriceFloor

open Tangerine.Common Tangerine.Core Tangerine.Core.Vm Tangerine.Dex Tangerine.Core.TxPricedList

variable (ext : PoolExternals)

/-! ### The loop of `Cap` -/

section CapLoop

variable (all : TxLookup) (threshold : Nat) (locals : AccountSet)

/-- The loop only adds to what it has dropped, and only remote transactions of the heap. -/
theorem mem_capLoop_drop {items : List PoolTransaction} (sorted : items.Pairwise pricedBefore)
    {stales : Int} {drop save : List PoolTransaction} {tx : PoolTransaction}
    (dropped : tx ∈ (capLoop ext all threshold locals items sorted stales drop save).2.2.1) :
    tx ∈ drop ∨ (tx ∈ items ∧ locals.containsTx ext tx = false) := by
  induction items generalizing stales drop save with
  | nil => exact .inl dropped
  | cons head rest inductionHypothesis =>
      unfold capLoop at dropped
      split_ifs at dropped with stale above saved
      · rcases inductionHypothesis _ dropped with earlier | ⟨later, remote⟩
        · exact .inl earlier
        · exact .inr ⟨List.mem_cons_of_mem _ later, remote⟩
      · exact .inl dropped
      · rcases inductionHypothesis _ dropped with earlier | ⟨later, remote⟩
        · exact .inl earlier
        · exact .inr ⟨List.mem_cons_of_mem _ later, remote⟩
      · rcases inductionHypothesis _ dropped with earlier | ⟨later, remote⟩
        · rcases List.mem_append.mp earlier with earlier | popped
          · exact .inl earlier
          · obtain rfl := List.mem_singleton.mp popped
            exact .inr ⟨List.mem_cons_self, Bool.eq_false_iff.mpr saved⟩
        · exact .inr ⟨List.mem_cons_of_mem _ later, remote⟩

end CapLoop

/-! ### Removing the dropped transactions -/

section Remove

theorem all_removeTx (pool : TxPool) (hash : Hash) (outofbound : Bool) (key : Hash) :
    (pool.removeTx hash outofbound).all.lookup key = if key = hash then none else pool.all.lookup key := by
  unfold TxPool.removeTx
  by_cases same : key = hash
  · subst same
    cases found : pool.all.lookup key <;> simp [found, AList.lookup_erase]
  · cases pool.all.lookup hash <;> simp [same, AList.lookup_erase_ne same]

theorem locals_removeTx (pool : TxPool) (hash : Hash) (outofbound : Bool) :
    (pool.removeTx hash outofbound).locals = pool.locals := by
  unfold TxPool.removeTx
  split <;> rfl

theorem govGasPrice_removeTx (pool : TxPool) (hash : Hash) (outofbound : Bool) :
    (pool.removeTx hash outofbound).govGasPrice = pool.govGasPrice := by
  unfold TxPool.removeTx
  split <;> rfl

/-- After the dropped transactions are removed, a hash is found iff none of them has it. -/
theorem all_foldl_removeTx (drop : List PoolTransaction) (pool : TxPool) (key : Hash) :
    (drop.foldl (fun pool tx => pool.removeTx (ext.hash tx) false) pool).all.lookup key =
      if ∃ tx ∈ drop, ext.hash tx = key then none else pool.all.lookup key := by
  induction drop generalizing pool with
  | nil => simp
  | cons tx drop inductionHypothesis =>
      rw [List.foldl_cons, inductionHypothesis, all_removeTx]
      by_cases same : ext.hash tx = key
      · simp [same]
      · simp [same, Ne.symm same]

theorem foldl_removeTx_fields (drop : List PoolTransaction) (pool : TxPool) :
    (drop.foldl (fun pool tx => pool.removeTx (ext.hash tx) false) pool).locals = pool.locals ∧
      (drop.foldl (fun pool tx => pool.removeTx (ext.hash tx) false) pool).govGasPrice =
        pool.govGasPrice := by
  induction drop generalizing pool with
  | nil => exact ⟨rfl, rfl⟩
  | cons tx drop inductionHypothesis =>
      rw [List.foldl_cons, (inductionHypothesis _).1, (inductionHypothesis _).2, locals_removeTx,
        govGasPrice_removeTx]
      exact ⟨rfl, rfl⟩

end Remove

/-! ### Raising a floor -/

theorem removeUnderpricedTx_eq (pool : TxPool) (price : Nat) :
    pool.removeUnderpricedTx ext price =
      (pool.priced.cap ext pool.all price pool.locals).1.foldl
        (fun pool tx => pool.removeTx (ext.hash tx) false)
        { pool with priced := (pool.priced.cap ext pool.all price pool.locals).2 } := rfl

theorem cap_fst (pool : TxPool) (price : Nat) :
    (pool.priced.cap ext pool.all price pool.locals).1 =
      (capLoop ext pool.all price pool.locals pool.priced.items.items pool.priced.items.sorted
        pool.priced.stales [] []).2.2.1 := rfl

/-- `setGovPrice` keeps every local transaction, whatever its price. -/
theorem setGovPrice_keeps_local_below (pool : TxPool) (price : Nat) {tx : PoolTransaction}
    (pooled : pool.all.lookup (ext.hash tx) = some tx)
    (isLocal : pool.locals.containsTx ext tx = true)
    (unique : ∀ tx' ∈ pool.priced.items.items, ext.hash tx' = ext.hash tx → tx' = tx)
    (below : tx.price < price) :
    (pool.setGovPrice ext price).all.lookup (ext.hash tx) = some tx ∧
      tx.price < (pool.setGovPrice ext price).govGasPrice := by
  have notDropped : ¬ ∃ tx' ∈ (({ pool with govGasPrice := price } : TxPool).priced.cap ext
      pool.all price pool.locals).1, ext.hash tx' = ext.hash tx := by
    rintro ⟨tx', dropped, same⟩
    rw [cap_fst] at dropped
    rcases mem_capLoop_drop ext pool.all price pool.locals _ dropped with nothing | ⟨held, remote⟩
    · cases nothing
    · rw [unique tx' held same, isLocal] at remote
      cases remote
  constructor
  · rw [TxPool.setGovPrice, removeUnderpricedTx_eq, all_foldl_removeTx, if_neg notDropped]
    exact pooled
  · rw [TxPool.setGovPrice, removeUnderpricedTx_eq, (foldl_removeTx_fields ext _ _).2]
    exact below

/-- A transfer of nothing at price one. -/
def cheapTransfer : PoolTransaction :=
  { nonce := 0, gasLimit := 21000, price := 1, amount := 0, recipient := some 0, data := [],
    gasFits := by decide, nonceFits := by decide }

/-- Externals under which every transaction has hash zero and is sent by account five. -/
def oneAccount : PoolExternals := ⟨fun _ => 0, fun _ => 100, fun _ => .ok 5, fun _ => 0,
  fun _ => 10 ^ 6, true⟩

/-- The pool under a floor of one once account five, a local account, added `cheapTransfer`. -/
def localPool : TxPool :=
  ⟨(∅ : TxLookup).insert 0 cheapTransfer, ⟨⟨[cheapTransfer], List.pairwise_singleton _ _⟩, 0⟩,
    ⟨{5}⟩, 1, 1, 30000⟩

/-- A local transaction under a floor of one stays when a new round's floor is two. -/
theorem setGovPrice_keeps_local_below_cheap :
    localPool.validateTx oneAccount cheapTransfer true = .ok () ∧
      (localPool.setGovPrice oneAccount 2).all.lookup 0 = some cheapTransfer ∧
      cheapTransfer.price < (localPool.setGovPrice oneAccount 2).govGasPrice :=
  ⟨rfl, setGovPrice_keeps_local_below oneAccount localPool 2 rfl rfl (by simp [localPool])
    (by decide)⟩

end Tangerine.Proof.PriceFloor
